import TradingBot.TrailingTrade.Orders

/-!
# Why nothing was bought, why nothing was sold

A tick that acts on neither side still says what holds it back. The entry
blocker is the first of the vetoes in a fixed order of priority; the exit
blocker is the first of what the sell ladder noted on its way down, with the
threshold the price has yet to cross.
-/

namespace TradingBot.TrailingTrade

open Decimal

/-! ### Entry -/

structure EntryBlockerContext where
  forceSellCooled : Bool
  forceSellDetail : Option Detail
  lossExitCooled : Bool
  lossDetail : Option Detail
  regimeEntryBlock : Option Detail
  regimeRequireUptrend : Bool
  regimeVeto : Option EntryVeto
  riskCapVeto : Option EntryVeto
  guardrailVeto : Option EntryVeto
  chaseGuardVeto : Option Detail
  knifeGuardVeto : Option Detail
  tvVeto : Option EntryVeto
  technicalsConfirming : Option Detail
  indicatorVeto : Option EntryVeto
  awaitingTrigger : Option Detail
  skipReason : Option EntryBlockerReason

def EntryVeto.blocker (veto : EntryVeto) : EntryBlocker :=
  { reason := veto.reason, detail := some veto.context }

def resolveEntryBlocker (ctx : EntryBlockerContext) : Option EntryBlocker :=
  if ctx.forceSellCooled then some ⟨.forceSellCooldown, ctx.forceSellDetail⟩
  else if ctx.lossExitCooled then some ⟨.lossCooldown, ctx.lossDetail⟩
  else
    let regimeBlock := ctx.regimeEntryBlock.map fun detail =>
      ⟨if ctx.regimeRequireUptrend then .regimeNotUptrend else .regimeExitBear, some detail⟩
    [ regimeBlock,
      ctx.regimeVeto.map EntryVeto.blocker,
      ctx.riskCapVeto.map EntryVeto.blocker,
      ctx.guardrailVeto.map EntryVeto.blocker,
      ctx.chaseGuardVeto.map fun detail => ⟨.chaseGuard, some detail⟩,
      ctx.knifeGuardVeto.map fun detail => ⟨.knifeGuard, some detail⟩,
      ctx.tvVeto.map EntryVeto.blocker,
      ctx.technicalsConfirming.map fun detail => ⟨.technicalsConfirming, some detail⟩,
      ctx.indicatorVeto.map EntryVeto.blocker,
      ctx.awaitingTrigger.map fun detail => ⟨.awaitingTriggerPrice, some detail⟩,
      ctx.skipReason.map fun reason => ⟨reason, none⟩ ].findSome? id

/-! ### Exit -/

inductive TrailSource where
  | atr
  | fixed

structure ArmedTrail where
  source : TrailSource
  trailPrice : Decimal
  high : Decimal

structure TimeStop where
  closedBars : ℕ
  requiredBars : ℕ

/-- What the sell ladder noted on its way down. -/
structure ExitCandidates where
  unsellable : Option SellSkipReason
  configInvalid : Option String
  trailHighRaised : Option Decimal
  armedTrail : Option ArmedTrail
  awaitingArm : Option Decimal
  breakEvenFloor : Option Decimal
  breakEvenArm : Option Decimal
  stopLoss : Option Decimal
  timeStop : Option TimeStop

def noExitCandidates : ExitCandidates where
  unsellable := none
  configInvalid := none
  trailHighRaised := none
  armedTrail := none
  awaitingArm := none
  breakEvenFloor := none
  breakEvenArm := none
  stopLoss := none
  timeStop := none

/-- A position whose stop could not be sold at its own price. -/
structure StopInfeasible where
  heldQuantity : Decimal
  stopPrice : Decimal
  minNotional : Decimal

structure DownsideExit where
  hasDownsideExit : Bool
  stopInfeasible : Option StopInfeasible

structure ExitBlockerContext where
  candidates : ExitCandidates
  sellDisabled : Bool
  openSellOrder : Bool
  currentPrice : Option Decimal
  downside : DownsideExit

def hasDownsideExitConfigured (config : TTConfig) (discoveryEntry : Bool) : Bool :=
  let sell := config.sell
  isCapArmed sell.stopLossPercentage || sell.breakEven.any (·.enabled) ||
    sell.atrTrailing.enabled || sell.protectiveStop.any (·.enabled) ||
    (if discoveryEntry then sell.discoveryTimeStopBars > 0 else sell.timeStopBars > 0)

def assessDownsideExit (config : TTConfig) (discoveryEntry : Bool)
    (held stopSellPrice : Option Decimal)
    (filters : Option SizeFilters) : DownsideExit :=
  let hasDownsideExit := hasDownsideExitConfigured config discoveryEntry
  match held, stopSellPrice, filters with
  | some held, some stopSellPrice, some filters =>
      if !hasDownsideExit || !held.gt (num 0) || !stopSellPrice.gt (num 0) ||
          sellableAtStop held stopSellPrice filters then
        ⟨hasDownsideExit, none⟩
      else
        ⟨hasDownsideExit, some ⟨held, stopSellPrice, filters.minNotional⟩⟩
  | _, _, _ => ⟨hasDownsideExit, none⟩

def assessHeldDownsideExit (config : TTConfig) (state : TTState) (market : MarketSnapshot) :
    DownsideExit :=
  assessDownsideExit config state.discoveryEntry (safeDecimal state.heldQuantity)
    (ttStopSellPrice config state market) (parseFilters market.symbolInfo.filters)

/-- A threshold value as the change key spells it. -/
def thresholdText : DetailValue → String
  | .text s => s
  | .int n => toString n
  | .decimal (.printed d) => d.toFixed
  | .decimal (.raw s) => s
  | _ => ""

def exitBlockerAt (ctx : ExitBlockerContext) (reason : ExitBlockerReason) (threshold : Detail) :
    ExitBlocker :=
  { reason
    changeKey := "|".intercalate
      (reason.text :: threshold.map fun (k, v) => k ++ "=" ++ thresholdText v)
    detail :=
      threshold ++
        (ctx.currentPrice.map fun p => ("currentPrice", DetailValue.decimal (.printed p))).toList ++
        [("hasDownsideExit", .bool ctx.downside.hasDownsideExit)] }

/-- The first thing that stands between the position and its exit. -/
def resolveExitBlocker (ctx : ExitBlockerContext) : ExitBlocker :=
  let threshold := fun (name : String) (d : Decimal) => (name, DetailValue.decimal (.printed d))
  let c := ctx.candidates
  if ctx.sellDisabled then exitBlockerAt ctx .sellDisabled []
  else if ctx.openSellOrder then exitBlockerAt ctx .exitOrderOpen []
  else
    ([ c.unsellable.map fun skip => exitBlockerAt ctx .exitUnsellable [("skip", .text skip.text)],
       c.configInvalid.map fun field =>
         exitBlockerAt ctx .exitConfigInvalid [("field", .text field)],
       ctx.downside.stopInfeasible.map fun s =>
         exitBlockerAt ctx .stopInfeasibleDust
           [threshold "heldQuantity" s.heldQuantity, threshold "stopPrice" s.stopPrice,
            threshold "minNotional" s.minNotional],
       c.trailHighRaised.map fun high =>
         exitBlockerAt ctx .trailHighRaised [threshold "highSinceBuy" high],
       c.armedTrail.map fun trail =>
         exitBlockerAt ctx
           (match trail.source with
             | .atr => .atrTrailAbovePrice
             | .fixed => .trailAbovePrice)
           [threshold "trailPrice" trail.trailPrice, threshold "highSinceBuy" trail.high],
       c.awaitingArm.map fun p => exitBlockerAt ctx .awaitingSellArm [threshold "armPrice" p],
       c.breakEvenFloor.map fun p =>
         exitBlockerAt ctx .breakEvenFloorNotHit [threshold "floorPrice" p],
       c.breakEvenArm.map fun p => exitBlockerAt ctx .breakEvenNotArmed [threshold "armPrice" p],
       c.stopLoss.map fun p => exitBlockerAt ctx .stopLossNotHit [threshold "stopPrice" p],
       c.timeStop.map fun t =>
         exitBlockerAt ctx .timeStopPending
           [("closedBars", .int t.closedBars), ("requiredBars", .int t.requiredBars)]
     ].findSome? id).getD (exitBlockerAt ctx .noExitConfigured [])

end TradingBot.TrailingTrade
