import TradingBot.TrailingTrade.BuyBranch

/-!
# The tick

`computeTick` runs the branches in their fixed order over the normalised state.
The last branch always ends the chain, so a tick falls through only in the
source's own words for the impossible.
-/

namespace TradingBot.TrailingTrade

open BranchChain

/-- The stored state as a tick reads it: a flat profile has no pending signal-driven sell. -/
def normalizeTickState (state : TTState) : TTState :=
  { state with
    forceSellFirstSeenAtMs :=
      if state.avgEntryPrice.isNone then none else state.forceSellFirstSeenAtMs }

/-- The input with its state normalised. -/
def normalizedInput (rawInput : TTInput) : TTInput :=
  { rawInput with state := normalizeTickState rawInput.state }

def branches (input : TTInput) (scalars : TickScalars) : List BranchHandler :=
  [ applyDisabledClearBranch scalars,
    overrideBranch input scalars,
    autoTriggerBuyBranch input scalars,
    disabledGateBranch,
    lbpClearBranch input,
    sellGateBranch input scalars,
    buyAndSnapshotBranch input scalars ]

def fellThrough : String := "computeTick: buyAndSnapshotBranch must terminate the chain"

def computeTick (rawInput : TTInput) : Except String TTOutput :=
  let input := normalizedInput rawInput
  run fellThrough (branches input (buildScalars input)) { state := input.state, preambleLogs := [] }

end TradingBot.TrailingTrade
