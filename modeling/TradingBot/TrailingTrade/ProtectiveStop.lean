import TradingBot.Core.ProtectiveStopArm
import TradingBot.TrailingTrade.SellGate

/-!
# The exchange-side stop of a trailing-trade position

Trailing-trade's seams into the shared arm: the level its stop-loss percentage
asks for, its order builders under one client order id, and the native-trail
escape where the operator chose it.
-/

namespace TradingBot.TrailingTrade

open Decimal

/-- The settings that decide whether a symbol's band can hold the stop. -/
def ttStopBandSettings (config : TTConfig) : Option ProtectiveStopBandSettings :=
  match config.sell.protectiveStop with
  | none => none
  | some ps =>
      if !ps.enabled then none
      else
        match decOrNull (some (.raw config.sell.stopLossPercentage)),
            decOrNull (some (.raw (ps.limitOffsetPercentage.getD defaultLimitOffset))) with
        | some stopPct, some limitOffsetPct =>
            if stopPct.lte (num 0) || stopPct.gte (num 1) || limitOffsetPct.lte (num 0) then none
            else
              some
                { stopDistancePct := (num 1).sub stopPct, limitOffsetPct
                  onBandBlock := ps.onBandBlock.getD .notify
                  path := ["sell", "stopLossPercentage"] }
        | _, _ => none

/-- The level of the resting stop, and whether the band's floor lifted it. -/
def computeProtectiveStopLevel (input : TTInput) (state : TTState)
    (protectiveStop : ProtectiveStopConfig) : Option (ProtectiveStopLevel × Bool) :=
  match safeDecimal state.avgEntryPrice, safeDecimal state.heldQuantity,
      parse input.config.sell.stopLossPercentage with
  | some avgEntry, some held, some stopPct =>
      if avgEntry.lte (num 0) || held.lte (num 0) || stopPct.lte (num 0) || stopPct.gte (num 1) then
        none
      else
        match parse input.market.symbolInfo.filters.tickSize,
            protectiveStop.limitOffsetPercentage.bind parse,
            parseFilters input.market.symbolInfo.filters with
        | some tick, some offset, some filters =>
            if tick.lte (num 0) then none
            else
              let resolved := resolveTTStopLevel avgEntry stopPct (some protectiveStop)
                (marketBand input.market)
              let stop := roundToTick resolved.stop tick
              let limit := roundToTick (stop.mul offset) tick
              if stop.lte (num 0) || limit.lte (num 0) then none
              else some ({ stop, limit, held, filters, tick }, resolved.floorClamped)
        | _, _, _ => none
  | _, _, _ => none

def supersededReason : String := "tt-protective-stop-superseded"

/-- The enabled protective-stop block, if there is one. -/
def TTConfig.armedProtectiveStop (config : TTConfig) : Option ProtectiveStopConfig :=
  config.sell.protectiveStop.filter (·.enabled)

def resolvedLevel (input : TTInput) (state : TTState) : Option (ProtectiveStopLevel × Bool) :=
  input.config.armedProtectiveStop.bind (computeProtectiveStopLevel input state)

def protectiveStopIntent (input : TTInput) (rearm : Bool) : OrderIntent :=
  sellIntent input "protective-stop"
    (protectiveStopClientOrderId input.profile.id input.market.symbol) rearm

/-- Trailing-trade's seams into the shared arm. -/
def protectiveStopParams (input : TTInput) (state : TTState) :
    ProtectiveStopArmParams TTConfig TTState TTBundle where
  input
  enabled := input.config.armedProtectiveStop.isSome
  level := (resolvedLevel input state).map (·.1)
  reclaimableBase := reclaimableOwnSellBase input
  ourClientOrderId := protectiveStopClientOrderId input.profile.id input.market.symbol
  buildPlace := fun desired rearm =>
    .placeOrder (protectiveStopIntent input rearm)
      (stopLimitParams desired.quantity ⟨desired.stopPrice, desired.price⟩)
  buildCancel := fun resting => buildProtectiveStopCancel resting supersededReason
  buildReplace := fun resting place => buildProtectiveStopReplace resting place supersededReason
  primaryTrail := none
  nativeTrail :=
    ((ttStopBandSettings input.config).filter (·.onBandBlock == .nativeTrail)).map fun settings =>
      { stopDistancePct := settings.stopDistancePct
        build := fun desired rearm =>
          .placeOrder (protectiveStopIntent input rearm)
            { type := .stopLoss, quantity := desired.quantity, price := none, stopPrice := none
              trailingDelta := some desired.trailingDelta, timeInForce := none } }
  minStopDrift :=
    if (resolvedLevel input state).any (·.2) then some (clampedStopDrift none) else none

structure TTProtectiveStopArm where
  decisions : List Decision
  blocker : Option ProtectiveStopBlocker
  floorClamped : Bool
  nativeTrailed : Bool

/-- Whether a decision sends a native trailing order. -/
def sendsTrail (decision : Decision) : Bool :=
  decision.order.any fun (_, params) => params.trailingDelta.isSome

def evaluateProtectiveStop (input : TTInput) (state : TTState) : TTProtectiveStopArm :=
  let arm := evaluateProtectiveStopArm (protectiveStopParams input state)
  { decisions := arm.decisions, blocker := arm.blocker
    floorClamped := (resolvedLevel input state).any (·.2)
    nativeTrailed := arm.decisions.any sendsTrail }

/-- Our own resting stop on the symbol. -/
def restingProtectiveStop (input : TTInput) : Option OpenOrder :=
  findRestingProtectiveStop input.openOrders
    (protectiveStopClientOrderId input.profile.id input.market.symbol)

/-- A closing sell, in one request with the retraction of our resting stop where one rests. -/
def closingSellDecisions (input : TTInput) (sell : Decision) : List Decision :=
  match restingProtectiveStop input with
  | none => [sell]
  | some resting => [buildProtectiveStopReplace resting sell supersededReason]

end TradingBot.TrailingTrade
