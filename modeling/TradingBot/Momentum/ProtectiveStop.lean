import TradingBot.Core.ProtectiveStopArm
import TradingBot.Momentum.StopLevel

/-!
# The exchange-side stop of a momentum position

Momentum's seams into the shared arm: the level the tick already resolved, the
distance a native trail is asked to keep, and its order builders under one
client order id. `none` around a result stands where the source throws.
-/

namespace TradingBot.Momentum

open Decimal

/-! ### Client order ids -/

def entryClientOrderId (profileId symbol : String) (candleCloseMs : ℤ) : String :=
  "mo-" ++ djb2Hex (profileId ++ "|" ++ symbol ++ "|" ++ toString candleCloseMs) ++ "-e"

def exitClientOrderId (profileId symbol : String) (candleCloseMs : ℤ) : String :=
  "mo-" ++ djb2Hex (profileId ++ "|" ++ symbol ++ "|" ++ toString candleCloseMs) ++ "-x"

/-- The id of the resting stop carries no candle time, so the
same order is found tick after tick. -/
def protectiveStopClientOrderId (profileId symbol : String) : String :=
  "mo-" ++ djb2Hex (profileId ++ "|" ++ symbol) ++ "-ps"

/-- Our own resting stop on the symbol. -/
def restingProtectiveStop (input : MomentumInput) : Option OpenOrder :=
  findRestingProtectiveStop input.openOrders
    (protectiveStopClientOrderId input.profile.id input.market.symbol)

/-! ### Orders -/

def supersededReason : String := "momentum-protective-stop-superseded"

def protectiveStopIntent (input : MomentumInput) (rearm : Bool) : OrderIntent where
  symbol := input.market.symbol
  side := .sell
  reason := "protective-stop"
  clientOrderId := protectiveStopClientOrderId input.profile.id input.market.symbol
  info := []
  overrideActionId := none
  deferrable := rearm

def placeDecision (input : MomentumInput) (desired : DesiredProtectiveStop) (rearm : Bool) :
    Decision :=
  .placeOrder (protectiveStopIntent input rearm)
    { type := .stopLossLimit, quantity := desired.quantity, price := some desired.price
      stopPrice := some desired.stopPrice, trailingDelta := none, timeInForce := some .gtc }

def nativeTrailPlaceDecision (input : MomentumInput) (desired : DesiredNativeTrailingStop)
    (rearm : Bool) : Decision :=
  .placeOrder (protectiveStopIntent input rearm)
    { type := .stopLoss, quantity := desired.quantity, price := none, stopPrice := none
      trailingDelta := some desired.trailingDelta, timeInForce := none }

/-- A successor that retires the resting stop in the same request. -/
def replaceDecision (resting : OpenOrder) (place : Decision) : Decision :=
  match place with
  | .placeOrder intent params => .replaceOrder resting.orderId supersededReason intent params
  | other => other

def cancelDecision (resting : OpenOrder) (symbol : String) : Decision :=
  .cancelOrder resting.orderId supersededReason (some symbol)

/-- A closing sell, in one request with the retraction of our resting stop where one rests. -/
def closingSellDecisions (input : MomentumInput) (sell : Decision) : List Decision :=
  match restingProtectiveStop input with
  | none => [sell]
  | some resting => [replaceDecision resting sell]

/-! ### Levels and distances -/

/-- The protective stop that is switched on. -/
def MomentumConfig.armedProtectiveStop (config : MomentumConfig) : Option MomentumProtectiveStop :=
  config.protectiveStop.filter (·.enabled)

/-- The resolved level on the tick grid with its limit leg, where there is something to protect. -/
def computeProtectiveStopLevel (input : MomentumInput) (state : MomentumState) (rawStop : Decimal) :
    Option ProtectiveStopLevel :=
  if state.entryPrice.isNone then none
  else
    let offset :=
      (input.config.protectiveStop.bind (·.limitOffsetPercentage)).getD defaultLimitOffset
    match safeDecimal state.heldQuantity, parse input.market.symbolInfo.filters.tickSize,
        parseFilters input.market.symbolInfo.filters, parse offset with
    | some held, some tick, some filters, some offset =>
        if held.lte (num 0) || tick.lte (num 0) || offset.lte (num 0) || offset.gte (num 1) then
          none
        else
          let stop := roundToTick rawStop tick
          let limit := roundToTick (stop.mul offset) tick
          if stop.lte (num 0) || limit.lte (num 0) then none
          else some { stop, limit, held, filters, tick }
    | _, _, _, _ => none

/-- The settings that decide whether a symbol's band can hold the stop: the fixed retrace only. -/
def momentumStopBandSettings (config : MomentumConfig) : Option ProtectiveStopBandSettings := do
  let ps ← config.armedProtectiveStop
  let stopDistancePct ← unitFraction (decOrNull (config.trailingStopPct.map .raw))
  let limitOffsetPct ← unitFraction (decOrNull (some (.raw
    (ps.limitOffsetPercentage.getD defaultLimitOffset))))
  return {
    stopDistancePct, limitOffsetPct
    onBandBlock := ps.onBandBlock.getD .notify
    path := ["trailingStopPct"] }

/-- The distance the exchange is asked to trail at. -/
def desiredTrailDistance (config : MomentumConfig) (level : StopResolution) (entry : Decimal) :
    Option Decimal :=
  match profitLegDistance config level.profitHigh entry with
  | some distance => some distance
  | none =>
      match config.atrStop, level.stop with
      | some _, some stop =>
          if stop.gt (num 0) && level.effectiveHigh.gt (num 0) then
            some ((num 1).sub (stop.div level.effectiveHigh))
          else unitFraction (decOrNull (config.trailingStopPct.map .raw))
      | _, _ => unitFraction (decOrNull (config.trailingStopPct.map .raw))

def oneMinuteMs : ℤ := 60000

/-- The minutes whose high the exchange can have seen since an order was placed. -/
def minutesSince (oneMinuteCandles : List Candle) (transactTimeMs : ℤ) : List Candle :=
  oneMinuteCandles.filter fun candle => transactTimeMs < candle.openTimeMs + oneMinuteMs

/-- The best high the exchange can have observed for the native order that rests. -/
def nativeTrailHigh (input : MomentumInput) (state : MomentumState) (mark : Decimal)
    (resting : Option OpenOrder) : Option (Option Decimal) :=
  match resting with
  | none => some none
  | some resting =>
      if resting.trailingDelta.isNone then some none
      else do
        let highs ← (minutesSince input.oneMinuteCandles resting.transactTimeMs).mapM
          fun candle => parse candle.high
        -- a replacement order starts a fresh mark at the exchange
        let persisted := (state.nativeTrail.filter (·.orderId == resting.orderId)).bind fun trail =>
          decOrNull (some trail.high)
        return some ((persisted.toList ++ highs).foldl Decimal.max mark)

/-! ### The arm -/

/-- The operator's re-arm band, where it is a real fraction. -/
def operatorBand (config : MomentumConfig) : Option Decimal :=
  unitFraction (decOrNull ((config.protectiveStop.bind (·.minRearmDriftPct)).map .raw))

/-- The band a re-arm is measured against: a clamped level
follows the market and needs a wider one. -/
def driftBand (config : MomentumConfig) (level : StopResolution) : Option Decimal :=
  if level.floorClamped then some (clampedStopDrift (operatorBand config)) else operatorBand config

def MomentumConfig.nativeMode (config : MomentumConfig) : Bool :=
  config.protectiveStop.any (·.mode == some .nativeTrail)

/-- The distance the native primary mode rests at, where the symbol accepts it. -/
def primaryDistance (input : MomentumInput) (level : StopResolution) (entry : Decimal) :
    Option Decimal :=
  if input.config.nativeMode then
    (desiredTrailDistance input.config level entry).filter fun distance =>
      (nativeTrailingDelta distance input.market.symbolInfo.filters.trailingDelta).isSome
  else none

/-- Whether the native mode was asked for and cannot be had. -/
def nativeUnavailable (input : MomentumInput) (level : StopResolution) (entry : Decimal) : Bool :=
  input.config.nativeMode && input.config.armedProtectiveStop.isSome &&
    (primaryDistance input level entry).isNone

/-- The distance of the trail the arm may send: the configured one, else the wanted one. -/
def nativeStopDistance (input : MomentumInput) (level : StopResolution) (entry : Decimal) :
    Option Decimal :=
  let settings := momentumStopBandSettings input.config
  let primaryNative := input.config.nativeMode && !nativeUnavailable input level entry &&
    (desiredTrailDistance input.config level entry).isSome
  let escape := settings.any (·.onBandBlock == .nativeTrail)
  if primaryNative || escape then
    (settings.map (·.stopDistancePct)).or
      (if input.config.nativeMode then desiredTrailDistance input.config level entry else none)
  else none

/-- Momentum's seams into the shared arm. -/
def protectiveStopParams (input : MomentumInput) (state : MomentumState) (level : StopResolution)
    (entry mark : Decimal) (restingHigh : Option Decimal) :
    ProtectiveStopArmParams MomentumConfig MomentumState MomentumBundle where
  input := input.toTickInput
  enabled := input.config.armedProtectiveStop.isSome
  level :=
    if input.config.armedProtectiveStop.isSome then
      level.stop.bind (computeProtectiveStopLevel input state)
    else none
  reclaimableBase := ownRestingSellBase input.openOrders
    (protectiveStopClientOrderId input.profile.id input.market.symbol) input.market.symbol
  ourClientOrderId := protectiveStopClientOrderId input.profile.id input.market.symbol
  buildPlace := placeDecision input
  buildCancel := fun resting => cancelDecision resting input.market.symbol
  buildReplace := replaceDecision
  primaryTrail :=
    if nativeUnavailable input level entry then none
    else if input.config.nativeMode then
      (desiredTrailDistance input.config level entry).map fun distance =>
        { desiredDistancePct := distance, markPrice := mark, restingHigh }
    else none
  nativeTrail :=
    (nativeStopDistance input level entry).map fun distance =>
      { stopDistancePct := distance, build := nativeTrailPlaceDecision input }
  minStopDrift := driftBand input.config level

structure MomentumProtectiveStopArm extends ProtectiveStopArm where
  nativeTrailed : Bool
  nativeUnavailable : Bool

/-- Whether a decision sends a native trailing order. -/
def sendsTrail (decision : Decision) : Bool :=
  decision.order.any fun (_, params) => params.trailingDelta.isSome

/-- Arm or re-arm the exchange-side stop of the held position. -/
def armProtectiveStop (input : MomentumInput) (state : MomentumState) (level : StopResolution)
    (entry mark : Decimal) : Option MomentumProtectiveStopArm := do
  let restingHigh ← nativeTrailHigh input state mark (restingProtectiveStop input)
  let params := protectiveStopParams input state level entry mark restingHigh
  let arm := evaluateProtectiveStopArm params
  return {
    toProtectiveStopArm := arm
    -- only a substitution counts: in the native mode the trail is what was asked for
    nativeTrailed := params.primaryTrail.isNone && arm.decisions.any sendsTrail
    nativeUnavailable := nativeUnavailable input level entry }

end TradingBot.Momentum
