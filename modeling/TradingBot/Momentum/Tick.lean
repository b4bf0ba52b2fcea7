import TradingBot.Momentum.Gates
import TradingBot.Momentum.ProtectiveStop
import TradingBot.Momentum.Sizing

/-!
# The tick

One tick of the momentum strategy. Flat, it buys when a trigger fires and no
gate vetoes it; long, it sells when the price meets the exit level, the averages
cross down or a weekend-gap limit is met, and otherwise keeps the resting stop
at the level it just tested. `none` around a result stands where the source
throws on a field that does not parse; log lines are left out.
-/

namespace TradingBot.Momentum

open Decimal

structure MomentumOutput where
  nextState : MomentumState
  decisions : List Decision
  /-- The write of this symbol's own score, which is independent of what was decided. -/
  publish : Option KvWrite
  metrics : List MetricEntry
  overrideDeferred : Bool
  overrideDeclineReason : Option String

/-! ### Outcomes -/

def skipMetric (side reason : String) : MetricEntry :=
  metric "momentum.skip" [("side", side), ("reason", reason)]

/-- A tick that sends nothing; the blocker records why an entry was suppressed, or clears it. -/
def hold (state : MomentumState) (metrics : List MetricEntry)
    (entryBlocker : Option EntryBlockerReason) : MomentumOutput where
  nextState := { state with entryBlocker }
  decisions := [.noop]
  publish := none
  metrics
  overrideDeferred := false
  overrideDeclineReason := none

/-- A tick that suppressed an entry. -/
def refuseEntry (state : MomentumState) (reason : EntryBlockerReason) : MomentumOutput :=
  hold state [skipMetric "entry" reason.text] (some reason)

/-! ### The averages -/

/-- The two averages, now and one candle ago. -/
structure Crossing where
  fastNow : Decimal
  slowNow : Decimal
  fastPrev : Decimal
  slowPrev : Decimal

def crossing (config : MomentumConfig) (candles : List Candle) : Option Crossing := do
  let windowPrev := priorCandles candles
  let fastNow ← ema candles config.ema.fast
  let slowNow ← ema candles config.ema.slow
  let fastPrev ← ema windowPrev config.ema.fast
  let slowPrev ← ema windowPrev config.ema.slow
  return { fastNow, slowNow, fastPrev, slowPrev }

/-- The margin the fast average must clear the slow one by; malformed reads as none. -/
def entryMargin (config : MomentumConfig) : Decimal :=
  match parse (config.entryMarginPct.getD "0") with
  | some m => if m.lt (num 0) then num 0 else m
  | none => num 0

def entryBand (config : MomentumConfig) : Decimal := (num 1).add (entryMargin config)

def Crossing.crossUp (x : Crossing) (band : Decimal) : Bool :=
  x.fastPrev.lte (x.slowPrev.mul band) && x.fastNow.gt (x.slowNow.mul band)

/-- The bare cross: quick to leave, slow to enter. -/
def Crossing.crossDown (x : Crossing) : Bool :=
  x.fastPrev.gte x.slowPrev && x.fastNow.lt x.slowNow

/-! ### Entry signals -/

/-- Whether the rule of the entry trigger fires on the last closed candle. -/
def entrySignal (config : MomentumConfig) (x : Crossing) (candles : List Candle)
    (lastCandle : Candle)
    (currentPrice : String) : Option Bool :=
  match config.entryTrigger with
  | some .trend => some (x.fastNow.gt (x.slowNow.mul (entryBand config)))
  | some .breakout => do
      match ← breakoutLevel (priorCandles candles) (breakoutLookback config.breakoutLookback) with
      | none => return false
      | some level =>
          let close ← parse lastCandle.close
          return close.gt level
  | some .impulse => do
      let reading ← impulseReading candles config.impulse
      return reading.any (·.fired)
  | some .maCluster => do
      let reading ← maClusterReading candles config.maCluster
      return reading.any (·.fired)
  | some .exhaustion => do
      let reading ← exhaustionReading candles config.exhaustion
      return reading.any (·.fired)
  | some .obvLead => do
      let reading ← obvLeadReading candles config.obvLead
      return reading.any (·.fired)
  | some .weekendGap => do
      let reading ← weekendGapReading candles config
      match (reading.filter (·.fired)).bind (·.refClose) with
      | none => return false
      | some refClose =>
          -- below the Friday close, or the gap-filled exit would sell on the next tick
          let price ← parse currentPrice
          let ref ← parse refClose
          return price.lt ref
  | some .cross | none => some (x.crossUp (entryBand config))

/-- The enabled below-trend layer, where the trigger lets it act. -/
def MomentumConfig.belowTrendLayer (config : MomentumConfig) : Option MomentumBelowTrendBreakout :=
  if config.entryTrigger = some .breakout ∨ config.entryTrigger = some .maCluster then
    config.belowTrendBreakout.filter (·.enabled)
  else none

/-- Whether the below-trend layer fires on the last closed candle. -/
def belowTrendSignal (config : MomentumConfig) (candles : List Candle) (lastCandle : Candle)
    (currentPrice : String) (gate : TrendGate) : Option Bool :=
  match config.belowTrendLayer with
  | none => some false
  | some block => do
      match ← breakoutLevel (priorCandles candles) (breakoutLookback block.lookback) with
      | none => return false
      | some level =>
          let close ← parse lastCandle.close
          if !close.gt level then return false
          else
            -- the cluster rule has no trend gate of its own, so its layer reads the line itself
            let under ← if config.entryTrigger = some .maCluster
              then underTrendLine config candles currentPrice
              else some (gate == .belowTrend)
            if !under then return false else belowTrendCalm block candles

def TrendGate.reason : TrendGate → Option EntryBlockerReason
  | pass => none
  | belowTrend => some .belowTrend
  | aboveTrend => some .aboveTrend
  | fallingTrend => some .fallingTrend
  | insufficientHistory => some .insufficientHistory

def ExtensionGate.reason : ExtensionGate → Option EntryBlockerReason
  | pass => none
  | overextended => some .overextended
  | extensionInsufficientHistory => some .extensionInsufficientHistory

def StrengthGate.reason : StrengthGate → Option EntryBlockerReason
  | pass => none
  | relativeStrength => some .relativeStrength
  | relativeStrengthInsufficientHistory => some .relativeStrengthInsufficientHistory

/-- Why a signalled entry is vetoed, in the order the gates are
asked; the layer has no trend gate. -/
def entryVeto (input : MomentumInput) (state : MomentumState) (candles : List Candle)
    (lastCandle : Candle) (gate : TrendGate) (layer : Option EntryLayer) :
    Option (Option EntryBlockerReason) :=
  if state.lastEntryCandleMs = some lastCandle.closeTimeMs then
    some (some .alreadyEnteredThisCandle)
  else
    match gate.reason.filter fun _ => layer.isNone with
    | some reason => some (some reason)
    | none => do
        let extension ← extensionGate input.config candles input.market.currentPrice
        match extension.reason with
        | some reason => return some reason
        | none =>
            let strength ← relativeStrengthGate candles input.config.relativeStrength
              input.market.symbol input.profileKv
            return strength.gate.reason

/-! ### The entry -/

def entryIntent (input : MomentumInput) (candleCloseMs : ℤ) : OrderIntent where
  symbol := input.market.symbol
  side := .buy
  reason := "entry"
  clientOrderId := entryClientOrderId input.profile.id input.market.symbol candleCloseMs
  info := []
  overrideActionId := none
  deferrable := false

def marketParams (quantity : DecimalString) : OrderParams where
  type := .market
  quantity
  price := none
  stopPrice := none
  trailingDelta := none
  timeInForce := none

/-- The body of a position just bought: both marks start from its own price. -/
def enteredState (input : MomentumInput) (quantity : DecimalString) (candleCloseMs : ℤ)
    (layer : Option EntryLayer) : MomentumState where
  schemaVersion := momentumStateSchemaVersion
  entryPrice := some (.raw input.market.currentPrice)
  highSinceEntry := some (.raw input.market.currentPrice)
  profitHigh := none
  heldQuantity := some quantity
  lastEntryCandleMs := some candleCloseMs
  profitTrailSinceMs := profitTrailEpoch input.oneMinuteCandles
  entryBlocker := none
  protectiveStopBlocker := none
  exitBlocker := none
  nativeTrail := none
  entryLayer := stampedLayer input.config layer

/-- Size the entry under its layer's stop and place it. -/
def placeEntry (input : MomentumInput) (state : MomentumState) (candles : List Candle)
    (lastCandle : Candle) (layer : Option EntryLayer) : Option MomentumOutput := do
  let config := configForEntryLayer input.config layer
  match ← sizeEntry config input.account input.market.symbolInfo.quoteAsset
      input.market.currentPrice input.market.symbolInfo.filters candles with
  | .error reason => return refuseEntry state reason
  | .ok quantity =>
      return {
        nextState := enteredState input quantity lastCandle.closeTimeMs layer
        decisions :=
          [.placeOrder (entryIntent input lastCandle.closeTimeMs) (marketParams quantity)]
        publish := none
        metrics := [metric "momentum.entry" []]
        overrideDeferred := false
        overrideDeclineReason := none }

/-- Coins a body tracks: a quantity that is not readable counts as held. -/
def holdsCoins (quantity : Option DecimalString) : Bool :=
  quantity.any fun q => (decOrNull (some q)).all (·.gt (num 0))

/-- Whether the operator's force-sell is pending. -/
def MomentumInput.forceSell (input : MomentumInput) : Bool :=
  input.bundle.override.any (·.kind == .triggerSell)

/-- The layer an entry belongs to: the primary rule wins wherever it may buy too. -/
def signalledLayer (entry below : Bool) (gate : TrendGate) : Option EntryLayer :=
  if below && !(entry && gate == .pass) then some .belowTrend else none

/-- A tick of a symbol with no cost basis. -/
def evaluateEntry (input : MomentumInput) (state : MomentumState) (x : Crossing)
    (candles : List Candle) (lastCandle : Candle) : Option MomentumOutput :=
  if holdsCoins state.heldQuantity then
    -- coins without a basis are a holding, and a second buy would lose track of them
    some { refuseEntry state .heldWithoutBasis with
      overrideDeclineReason :=
        if input.forceSell then some EntryBlockerReason.heldWithoutBasis.text else none }
  else do
    let entry ← entrySignal input.config x candles lastCandle input.market.currentPrice
    let gate ← trendGate input.config candles input.market.currentPrice
    let below ← belowTrendSignal input.config candles lastCandle input.market.currentPrice gate
    let layer := signalledLayer entry below gate
    if entry || below then
      match ← entryVeto input state candles lastCandle gate layer with
      | some reason => return refuseEntry state reason
      | none => placeEntry input state candles lastCandle layer
    else return hold state [] none

/-! ### The exit -/

/-- What a held tick reads: its marks, the level they resolve to, and the weekend-gap limits. -/
structure HeldReading where
  entry : Decimal
  price : Decimal
  closedClose : Decimal
  madeNewHigh : Bool
  effectiveHigh : Decimal
  mark : ProfitMark
  level : StopResolution
  gapFilled : Bool
  timeStop : Bool

/-- The price has fallen to the exit level; a level that did not resolve sells nothing. -/
def HeldReading.trailHit (r : HeldReading) : Bool := r.level.stop.any r.price.lte

/-- The stamp the weekend-gap limits count from; only the rule that opened the position has them. -/
def gapStamp (config : MomentumConfig) (state : MomentumState) : Option ℤ :=
  if config.candleInterval = .h1 ∧ state.entryLayer = some .weekendGap then
    state.lastEntryCandleMs
  else none

/-- The trigger of a priced stop that rests; a trailing one has none of its own. -/
def previousStop (resting : Option OpenOrder) : Option Decimal :=
  (resting.filter (·.trailingDelta.isNone)).bind fun order => decOrNull order.stopPrice

/-- Whether a closed candle may raise the mark: one that had closed when the entry fired may not. -/
def closedAfterEntry (state : MomentumState) (lastCandle : Candle) : Bool :=
  state.lastEntryCandleMs.all (· < lastCandle.closeTimeMs)

def readHeld (input : MomentumInput) (state : MomentumState) (config : MomentumConfig)
    (entryPrice : DecimalString) (candles : List Candle) (lastCandle : Candle) :
    Option HeldReading := do
  let prevHigh ← (state.highSinceEntry.getD entryPrice).toDecimal
  let closedClose ← parse lastCandle.close
  let madeNewHigh := closedAfterEntry state lastCandle && closedClose.gt prevHigh
  let effectiveHigh := if madeNewHigh then closedClose else prevHigh
  let entry ← entryPrice.toDecimal
  let mark ← advanceProfitMark config entry
    ⟨decOrNull state.profitHigh, state.profitTrailSinceMs⟩ input.oneMinuteCandles
  let bandContext : StopBandContext :=
    ⟨some input.market.currentPrice, input.market.symbolInfo.filters.percentPriceBySide⟩
  let level ← resolveStopLevel config entry effectiveHigh mark.high candles bandContext
    (previousStop (restingProtectiveStop input))
  let price ← parse input.market.currentPrice
  let stamp := gapStamp config state
  let target ← match stamp with
    | none => some none
    | some stampMs => weekendGapTarget candles stampMs
  let maxHold := (weekendGapSettings config.weekendGap).maxHoldBars
  return {
    entry, price, closedClose, madeNewHigh, effectiveHigh, mark, level
    gapFilled := target.any price.gte
    timeStop :=
      stamp.any fun stampMs => decide (maxHold * hourMs ≤ lastCandle.closeTimeMs - stampMs) }

/-- Why a held position is sold, by the first rule that asks for it. -/
def exitReason (forceSell crossDown : Bool) (r : HeldReading) : Option String :=
  if forceSell then some "operator-force-sell"
  else if r.trailHit then some "trailing-stop"
  else if crossDown then some "ema-cross"
  else if r.gapFilled then some "gap-filled"
  else if r.timeStop then some "time-stop"
  else none

def exitIntent (input : MomentumInput) (lastCandle : Candle) : OrderIntent where
  symbol := input.market.symbol
  side := .sell
  reason := "exit"
  clientOrderId := exitClientOrderId input.profile.id input.market.symbol lastCandle.closeTimeMs
  info := []
  overrideActionId :=
    if input.forceSell then input.bundle.override.map (·.overrideActionId) else none
  deferrable := false

/-- The body after an exit: flat, with the stamp that keeps one entry per candle. -/
def exitedState (state : MomentumState) : MomentumState :=
  { initialMomentumState with lastEntryCandleMs := state.lastEntryCandleMs }

/-- Sell the held quantity, or hold where none is tracked yet or none can be sized. -/
def exitPosition (input : MomentumInput) (state : MomentumState) (lastCandle : Candle)
    (reason : String) : MomentumOutput :=
  match state.heldQuantity with
  | none =>
      let skip := if input.forceSell then "force-sell-no-held" else "no-held"
      { hold state [skipMetric "exit" skip] none with
        overrideDeferred := input.forceSell
        overrideDeclineReason := if input.forceSell then some skip else none }
  | some held =>
      match computeExitQuantity held input.market.currentPrice input.market.symbolInfo.filters with
      | .error skip =>
          { hold state [skipMetric "exit" skip.text] none with
            overrideDeclineReason := if input.forceSell then some skip.text else none }
      | .ok quantity =>
          { nextState := exitedState state
            decisions := closingSellDecisions input
              (.placeOrder (exitIntent input lastCandle) (marketParams quantity))
            publish := none
            metrics := [metric "momentum.exit" [("reason", reason)]]
            overrideDeferred := false
            overrideDeclineReason := none }

/-! ### The held position -/

/-- The body of a position that is kept, with the marks this tick advanced. -/
def heldState (state : MomentumState) (entryPrice : DecimalString) (r : HeldReading) :
    MomentumState :=
  { state with
    highSinceEntry := some (if r.madeNewHigh then .printed r.closedClose
      else state.highSinceEntry.getD entryPrice)
    profitHigh := r.level.profitHigh.map .printed
    profitTrailSinceMs := r.mark.sinceMs
    entryBlocker := none }

/-- A decimal of a blocker's detail, printed without an exponent. -/
def fixedDetail (d : Option Decimal) : DetailValue := .ofDecimal? (d.map .printed)

def unplacedBlocker (r : HeldReading) (unavailable : Bool) (wanted : Option Decimal) :
    ExitBlocker where
  reason := .protectiveStopUnplaced
  changeKey := if unavailable then "unplaced|native-unavailable" else "unplaced"
  detail := ("stop", fixedDetail r.level.stop) ::
    (if unavailable then [("nativeUnavailable", .bool true), ("distancePct", fixedDetail wanted)]
      else [])

def refusalText : ProtectiveStopBlockerReason → String
  | .baseLockedByForeignOrder => "base-locked-by-foreign-order"
  | .baseBelowExchangeMinimum => "base-below-exchange-minimum"
  | .baseShortOfTrackedPosition => "base-short-of-tracked-position"
  | .priceOutsideExchangeBand => "price-outside-exchange-band"
  | .restingStopShortOfPosition => "resting-stop-short-of-position"

/-- What protects a held position at the exchange, as the operator is told. -/
def exitBlockerOf (config : MomentumConfig) (resting : Option OpenOrder) (r : HeldReading)
    (unavailable : Bool) : Option ExitBlocker :=
  let wanted := desiredTrailDistance config r.level r.entry
  if config.armedProtectiveStop.isNone then none
  else
    match resting with
    | none => some (unplacedBlocker r unavailable wanted)
    | some order =>
        match order.trailingDelta with
        | some delta =>
            some
              { reason := if (profitLegDistance config r.level.profitHigh r.entry).isSome
                  then .profitLegArmed else .nativeTrailResting
                changeKey := "native|delta=" ++ toString delta
                detail := [("trailingDelta", .int delta), ("quantity", .decimal order.origQty)] }
        | none =>
            if unavailable then
              some
                { reason := .nativeTrailUnavailable
                  changeKey := "native-trail-unavailable"
                  detail := [("distancePct", fixedDetail wanted), ("fallback", .text "priced")] }
            else
              some
                { reason := .pricedStopResting
                  changeKey := "priced|stop=" ++ (order.stopPrice.map (·.text)).getD "undefined"
                  detail := [("stop", .ofDecimal? order.stopPrice)] }

/-- Keep the position: save the marks, and rest the stop at the level that was tested. -/
def keepPosition (input : MomentumInput) (state : MomentumState) (config : MomentumConfig)
    (entryPrice : DecimalString) (r : HeldReading) : Option MomentumOutput := do
  let layered : MomentumInput := { input with config }
  let held := heldState state entryPrice r
  let resting := restingProtectiveStop input
  let arm ← armProtectiveStop layered held r.level r.entry r.price
  let nativeHigh ← nativeTrailHigh layered held r.price resting
  let nativeTrail := do
    let order ← resting
    let high ← nativeHigh
    return { orderId := order.orderId, high := .printed high }
  return {
    nextState :=
      { held with
        protectiveStopBlocker := arm.blocker
        exitBlocker := exitBlockerOf config resting r arm.nativeUnavailable
        nativeTrail }
    decisions := if arm.decisions.isEmpty then [.noop] else arm.decisions
    publish := none
    metrics := (arm.blocker.map fun b => skipMetric "sell" (refusalText b.reason)).toList ++
      (if arm.decisions.isEmpty then []
        else
          protectiveStopBandAdjustment input.market.symbol r.level.floorClamped arm.nativeTrailed)
    overrideDeferred := false
    overrideDeclineReason := none }

/-- A tick of a symbol with a cost basis. -/
def evaluateExit (input : MomentumInput) (state : MomentumState) (entryPrice : DecimalString)
    (crossDown : Bool) (candles : List Candle) (lastCandle : Candle) : Option MomentumOutput := do
  let config := configForEntryLayer input.config state.entryLayer
  let r ← readHeld input state config entryPrice candles lastCandle
  match exitReason input.forceSell crossDown r with
  | some reason => return exitPosition input state lastCandle reason
  | none => keepPosition input state config entryPrice r

/-! ### The tick -/

def clearPositionScopedFields (state : MomentumState) : MomentumState :=
  { state with protectiveStopBlocker := none, exitBlocker := none }

/-- Neither a cost basis nor coins. -/
def positionFree (state : MomentumState) : Bool :=
  state.entryPrice.isNone && !holdsCoins state.heldQuantity

/-- The body a tick starts from: a refusal that outlived its position is dropped. -/
def scopedState (state : MomentumState) : MomentumState :=
  if positionFree state then clearPositionScopedFields state else state

/-- The candles the cross needs: the slow average, and one more to compare with. -/
def MomentumConfig.need (config : MomentumConfig) : ℕ := config.ema.slow + 1

/-- A tick on a window too short for the cross keeps a force-sell armed. -/
def warmingUp (input : MomentumInput) (state : MomentumState) : MomentumOutput :=
  { hold state [] none with
    overrideDeferred := input.forceSell
    overrideDeclineReason := if input.forceSell then some "warming-up" else none }

/-- Everything a tick decides except the write of its score. -/
def decideTick (input : MomentumInput) : Option MomentumOutput :=
  let state := scopedState input.state
  let candles := input.closedCandles
  match candles.getLast? with
  | none => some (warmingUp input state)
  | some lastCandle =>
      if candles.length < input.config.need then some (warmingUp input state)
      else do
        let x ← crossing input.config candles
        match state.entryPrice with
        | none => evaluateEntry input state x candles lastCandle
        | some entryPrice => evaluateExit input state entryPrice x.crossDown candles lastCandle

def computeTick (input : MomentumInput) : Option MomentumOutput := do
  let out ← decideTick input
  let publish ← relativeStrengthPublish input.closedCandles input.config.relativeStrength
    input.market.symbol input.profileKv
  return { out with publish }

end TradingBot.Momentum
