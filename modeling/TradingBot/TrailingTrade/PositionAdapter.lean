import TradingBot.TrailingTrade.Override

/-!
# The position adapter

How the worker moves a trailing-trade position from outside a tick: adopting a
fill, pinning the held quantity, reviving the cost basis and clearing the
position. Every writer refuses a body of another schema version, and `none`
stands for no change.
-/

namespace TradingBot.TrailingTrade

inductive AdoptedFill where
  | buy (avgEntryPrice heldQuantity : DecimalString)
  | sellReduce (heldQuantity : DecimalString)
  | empty
deriving DecidableEq

def isCurrentSchema (state : TTState) : Bool := state.schemaVersion == ttStateSchemaVersion

/-- The cost basis and quantity of a current-schema body. -/
structure PositionView where
  avgEntryPrice : Option DecimalString
  heldQuantity : Option DecimalString
deriving DecidableEq

def readPosition (state : TTState) : Option PositionView :=
  if isCurrentSchema state then some ⟨state.avgEntryPrice, state.heldQuantity⟩ else none

def hasPositionScopedFieldSet (state : TTState) : Bool :=
  state.protectiveStopBlocker.isSome || state.exitBlocker.isSome

def clearPositionScopedFields (state : TTState) : TTState :=
  { state with protectiveStopBlocker := none, exitBlocker := none }

/-- The body without its position: no cost basis, no high, no break-even arm, no adds. -/
def flattened (state : TTState) : TTState :=
  { clearedAddTracking state with
    avgEntryPrice := none
    highSinceBuy := none
    breakEvenArmed := false }

/-- Merge an adopted fill; an empty fill of an already empty position changes nothing. -/
def applyFill (state : TTState) (fill : AdoptedFill) : Option TTState :=
  if !isCurrentSchema state then none
  else
    match fill with
    | .buy avgEntryPrice heldQuantity =>
        -- the marker and the clock are those the entry was emitted with
        some
          { state with
            avgEntryPrice := some avgEntryPrice
            heldQuantity := some heldQuantity
            highSinceBuy := none
            breakEvenArmed := false }
    | .sellReduce heldQuantity => some { state with heldQuantity := some heldQuantity }
    | .empty =>
        if state.avgEntryPrice.isNone && state.highSinceBuy.isNone && state.heldQuantity.isNone &&
            !hasPositionScopedFieldSet state then none
        else
          some (clearPositionScopedFields
            { flattened state with heldQuantity := none, currentGridTradeIndex := none })

theorem applyFill_schema {state next : TTState} {fill : AdoptedFill}
    (h : applyFill state fill = some next) : next.schemaVersion = state.schemaVersion := by
  unfold applyFill at h
  split at h
  · cases h
  · split at h
    · cases h
      rfl
    · cases h
      rfl
    · split at h
      · cases h
      · cases h
        rfl

def setHeldQuantity (state : TTState) (heldQuantity : Option DecimalString) : Option TTState :=
  if isCurrentSchema state then some { state with heldQuantity } else none

def setAvgEntryPrice (state : TTState) (avgEntryPrice : DecimalString) : Option TTState :=
  if isCurrentSchema state then some { state with avgEntryPrice := some avgEntryPrice } else none

def clearPosition (state : TTState) (resetGridIndex : Bool) : Option TTState :=
  if !isCurrentSchema state then none
  else
    let cleared :=
      if state.heldQuantity.isNone then clearPositionScopedFields (flattened state)
      else flattened state
    some (if resetGridIndex then { cleared with currentGridTradeIndex := none } else cleared)

end TradingBot.TrailingTrade
