import TradingBot.TrailingTrade.Blockers

/-!
# The sell gate

The ladder of exits a held position goes down on each tick: stop-loss,
break-even, the trailing stops with the ratchet of their high, and the time
stops. A rung either stops the ladder with a result or lets it go on, adding to
what it noted for the exit blocker.
-/

namespace TradingBot.TrailingTrade

open Decimal

/-! ### Sizing and emitting a sell -/

inductive SellEmissionReason where
  | gridSell
  | gridStopLoss
  | technicalsForceSell
  | regimeExit
  | discoveryTimeStop
  | breakEvenStop
  | timeStop
deriving DecidableEq

def SellEmissionReason.text : SellEmissionReason → String
  | gridSell => "grid-sell"
  | gridStopLoss => "grid-stop-loss"
  | technicalsForceSell => "technicals-force-sell"
  | regimeExit => "regime-exit"
  | discoveryTimeStop => "discovery-time-stop"
  | breakEvenStop => "break-even-stop"
  | timeStop => "time-stop"

def SellEmissionReason.metricName : SellEmissionReason → String
  | gridSell => "tt_grid_sell_emit"
  | gridStopLoss => "tt_grid_stop_loss_emit"
  | technicalsForceSell => "tt_technicals_force_sell_emit"
  | regimeExit => "tt_regime_exit_emit"
  | discoveryTimeStop => "tt_discovery_time_stop_emit"
  | breakEvenStop => "tt_break_even_stop_emit"
  | timeStop => "tt_time_stop_emit"

/-- A sell that goes out, with the log line and the metric that report it. -/
structure SellEmission where
  decision : Decision
  log : LogEntry
  metricName : String

/-- A sell that could not be sized. -/
structure SellSkip where
  skipReason : SellSkipReason
  log : LogEntry

/-- The base a sell may size against: the tracked position, capped by a readable wallet. -/
def resolveHeldForSell (state : TTState) (baseAsset : String) (account : AccountSnapshot)
    (reclaimable : Decimal) : DecimalString :=
  let wallet := sizableBase account baseAsset reclaimable
  let tracked := (safeDecimal state.heldQuantity).filter (·.gt (num 0))
  -- an unreadable wallet leaves the tracked quantity as the only size to go by
  match wallet.free, tracked with
  | none, none => .raw "0"
  | none, some tracked => .printed tracked
  | some free, none => .printed (free.add wallet.reclaimable)
  | some free, some tracked => .printed (tracked.min (free.add wallet.reclaimable))

/-- What our own resting protective stop locks, which a closing sell retires. -/
def reclaimableOwnSellBase (input : TTInput) : Decimal :=
  ownRestingSellBase input.openOrders
    (protectiveStopClientOrderId input.profile.id input.market.symbol) input.market.symbol

def sellSkipLogLevel : SellSkipReason → LogLevel
  | .noBalance => .debug
  | .minQty => .info
  | .minNotional => .info
  | .invalidFilters => .warn

/-- The base a closing sell of this tick sizes against. -/
def sellableBase (input : TTInput) (state : TTState) : DecimalString :=
  resolveHeldForSell state input.market.symbolInfo.baseAsset input.account
    (reclaimableOwnSellBase input)

/-- The mark of a sell that was sized off the tracked position alone. -/
def walletTrace (input : TTInput) : Detail :=
  if (freeBalance input.account input.market.symbolInfo.baseAsset).isNone then
    [("walletUnreadable", .bool true)]
  else []

def sellEmissionOrSkip (input : TTInput) (state : TTState) (reason : SellEmissionReason)
    (messagePrefix clientOrderIdSeed : String) (extraLog : Detail) :
    Except SellSkip SellEmission :=
  let free := sellableBase input state
  match computeSellQuantity free input.market.currentPrice input.market.symbolInfo.filters with
  | .ok quantity =>
      .ok
        { decision := buildSellDecision input reason.text quantity clientOrderIdSeed
          log := log .info messagePrefix
            ([("symbol", .text input.market.symbol), ("quantity", .decimal quantity),
              ("freeBase", .decimal free), ("currentPrice", .text input.market.currentPrice)] ++
              walletTrace input ++ extraLog)
          metricName := reason.metricName }
  | .error skipReason =>
      .error
        { skipReason
          log := log (sellSkipLogLevel skipReason) (messagePrefix ++ "-skipped")
            ([("symbol", .text input.market.symbol), ("reason", .text skipReason.text),
              ("freeBase", .decimal free)] ++ walletTrace input) }

/-! ### Candles -/

def closedCandles (market : MarketSnapshot) (interval : CandleInterval) : List Candle :=
  ((market.candlesByInterval interval).getD []).filter (·.isClosed)

def computeAtr (market : MarketSnapshot) (interval : CandleInterval) (period : ℕ) :
    Option Decimal :=
  let candles := closedCandles market interval
  if candles.length < period + 1 then none else atr candles period

/-- The candle that closed last; the earlier one on a tie. -/
def latestClosed (candles : List Candle) : Option Candle :=
  candles.foldl
    (fun best c =>
      match best with
      | none => some c
      | some b => if c.closeTimeMs > b.closeTimeMs then some c else best)
    none

def latestClosedClose (market : MarketSnapshot) (interval : CandleInterval) : Option Decimal :=
  (latestClosed (closedCandles market interval)).bind fun c => parse c.close

/-- How many candles closed after a moment. -/
def closedBarsSinceEntry (market : MarketSnapshot) (interval : CandleInterval) (sinceMs : ℤ) : ℕ :=
  ((closedCandles market interval).filter fun c => c.closeTimeMs > sinceMs).length

/-! ### Trail multipliers -/

def bullHoldRoomMultiplier : BullHoldRoom → Decimal
  | .tight => num 2
  | .normal => num 3
  | .loose => num 4

/-- The wider trail a confirmed bull reading asks for. -/
def bullHoldMultiplier (config : TTConfig) (market : MarketSnapshot) : Option Decimal :=
  match config.regime with
  | none => none
  | some regime =>
      match regime.onBull.bind (·.hold) with
      | none => none
      | some hold =>
          if hold.enabled && (classifyRegime market regime.params).regime == .bull then
            some (bullHoldRoomMultiplier hold.room)
          else none

def selectTrailMultiplier (atrCfg : AtrTrailing) (bullMult : Option Decimal) : Option Decimal :=
  if !atrCfg.enabled then bullMult
  else
    match parse atrCfg.multiplier with
    | none => none
    | some base =>
        match bullMult with
        | none => some base
        | some bull => some (base.max bull)

/-! ### The ladder -/

inductive LadderResult where
  | emit (emission : SellEmission)
  | bumpHigh (state : TTState)
  | skip (log : LogEntry) (skipReason : Option SellSkipReason) (configInvalidField : Option String)
  | noop

/-- A rung stops the ladder with a result, or goes on with the candidates noted so far. -/
abbrev Rung := Except (LadderResult × ExitCandidates) ExitCandidates

/-- The outcome of trying to sell. -/
def LadderResult.ofEmission : Except SellSkip SellEmission → LadderResult
  | .ok emission => .emit emission
  | .error refused => .skip refused.log (some refused.skipReason) none

def parseFailedLog (context : Detail) : LogEntry := log .warn "tt-sell-gate-parse-failed" context

/-- A configured decimal, or the rung that stops on it. -/
def parseFieldOrSkip (value field : String) (cand : ExitCandidates) :
    Except (LadderResult × ExitCandidates) Decimal :=
  match parse value with
  | some d => .ok d
  | none =>
      .error
        (.skip
          (parseFailedLog
            [("field", .text field), ("value", .text value), ("err", .text (invalidDecimal value))])
          none (some field), cand)

/-- The inputs every rung reads: the tick, the state and the two prices. -/
structure LadderContext where
  input : TTInput
  state : TTState
  lbpStr : DecimalString
  lbp : Decimal
  price : Decimal
  /-- The closed candle's close, so that a wick cannot raise the high. -/
  ratchetPrice : Decimal

namespace LadderContext

variable (ctx : LadderContext)

def sell : SellConfig := ctx.input.config.sell

/-- The closing sell of a rung. -/
def exit (reason : SellEmissionReason) (messagePrefix clientOrderIdSeed : String)
    (extraLog : Detail) (cand : ExitCandidates) : Rung :=
  .error
    (.ofEmission
      (sellEmissionOrSkip ctx.input ctx.state reason messagePrefix clientOrderIdSeed extraLog),
     cand)

def bumpHigh (high : Decimal) (cand : ExitCandidates) : Rung :=
  .error
    (.bumpHigh { ctx.state with highSinceBuy := some (.printed high) },
     { cand with trailHighRaised := some high })

/-- The stop-loss level of the position. -/
def stopPrice (stopLoss : Decimal) : Decimal :=
  (resolveTTStopLevel ctx.lbp stopLoss ctx.sell.protectiveStop
    (marketBand ctx.input.market)).stop

def stopLossRung (cand : ExitCandidates) : Rung :=
  if !isCapArmed ctx.sell.stopLossPercentage then .ok cand
  else do
    let stopLoss ← parseFieldOrSkip ctx.sell.stopLossPercentage "stopLossPercentage" cand
    if stopLoss.gt (num 0) && stopLoss.lte (num 1) then
      if ctx.price.lte (ctx.stopPrice stopLoss) then
        ctx.exit .gridStopLoss "tt-stop-loss" ("stop-" ++ ctx.lbpStr.text) [] cand
      else return { cand with stopLoss := some (ctx.stopPrice stopLoss) }
    else return { cand with configInvalid := some "stopLossPercentage" }

/-- The break-even floor, once armed and until the trail owns the position. -/
def breakEvenArmedRung (floorPrice : Option Decimal) (cand : ExitCandidates) : Rung :=
  match ctx.state.highSinceBuy, floorPrice with
  | none, some floorPrice =>
      if ctx.price.lte floorPrice then
        ctx.exit .breakEvenStop "tt-break-even-stop" ("break-even-" ++ ctx.lbpStr.text) [] cand
      else return { cand with breakEvenFloor := some floorPrice }
  | _, _ => return cand

/-- Arming the break-even stop on a confirmed gain. -/
def breakEvenArmRung (breakEven : BreakEven) (floorPrice : Option Decimal)
    (cand : ExitCandidates) : Rung := do
  let armAt ← parseFieldOrSkip breakEven.armAtPercentage "breakEven.armAtPercentage" cand
  if armAt.gt (num 1) then
    let armPrice := ctx.lbp.mul armAt
    if ctx.ratchetPrice.gte armPrice then
      let noted :=
        match floorPrice with
        | some floorPrice => { cand with breakEvenFloor := some floorPrice }
        | none => cand
      .error (.bumpHigh { ctx.state with breakEvenArmed := true }, noted)
    else return { cand with breakEvenArm := some armPrice }
  else return { cand with configInvalid := some "breakEven.armAtPercentage" }

def breakEvenRung (cand : ExitCandidates) : Rung :=
  match ctx.sell.breakEven with
  | none => .ok cand
  | some breakEven =>
      if !breakEven.enabled then .ok cand
      else do
        let floor ← parseFieldOrSkip breakEven.floorPercentage "breakEven.floorPercentage" cand
        let floorPrice := if floor.gte (num 1) then some (ctx.lbp.mul floor) else none
        let noted :=
          if floorPrice.isNone then { cand with configInvalid := some "breakEven.floorPercentage" }
          else cand
        if ctx.state.breakEvenArmed then ctx.breakEvenArmedRung floorPrice noted
        else ctx.breakEvenArmRung breakEven floorPrice noted

def trailsFromEntry : Bool := ctx.sell.atrTrailing.enabled && ctx.sell.atrTrailing.fromEntry

/-- The ratchet of a trail that runs from the entry on. -/
def fromEntryRung (cand : ExitCandidates) : Rung :=
  if !ctx.trailsFromEntry then .ok cand
  else
    match ctx.state.highSinceBuy with
    -- the high starts at the cost basis, not at a candle that closed below it
    | none => ctx.bumpHigh (ctx.lbp.max ctx.ratchetPrice) cand
    | some high =>
        match high.toDecimal with
        | none => .ok cand
        | some prevHigh =>
            if ctx.ratchetPrice.gt prevHigh then ctx.bumpHigh (prevHigh.max ctx.ratchetPrice) cand
            else .ok cand

/-- Whether any trailing exit is configured to consume a high. -/
def trailConfigured : Bool :=
  isCapArmed ctx.sell.trailingStopPercentage || ctx.sell.atrTrailing.enabled ||
    ctx.input.config.regime.any fun r => (r.onBull.bind (·.hold)).any (·.enabled)

/-- Arming the trail at the trigger price, and its ratchet from there. -/
def triggerRung (cand : ExitCandidates) : Rung :=
  if ctx.trailsFromEntry || !isCapArmed ctx.sell.triggerPercentage then .ok cand
  else do
    let trigger ← parseFieldOrSkip ctx.sell.triggerPercentage "triggerPercentage" cand
    -- a trigger inside the fees would arm a trail that sells at a loss
    let effTrigger := trigger.max ((num 1).add (roundTripFeeFraction ctx.input.config))
    let armPrice := ctx.lbp.mul effTrigger
    let noted :=
      if trigger.gt (num 1) && ctx.state.highSinceBuy.isNone && ctx.price.lt armPrice &&
          ctx.trailConfigured then
        { cand with awaitingArm := some armPrice }
      else cand
    if trigger.gt (num 1) && ctx.price.gte armPrice then
      match safeDecimal ctx.state.highSinceBuy with
      | none => ctx.bumpHigh ctx.ratchetPrice noted
      | some prevHigh =>
          if ctx.ratchetPrice.gt prevHigh then ctx.bumpHigh ctx.ratchetPrice noted
          else return noted
    else return noted

/-- The swing-sized trail, which ends the ladder whenever it has a level. -/
def atrTrailRung (cand : ExitCandidates) : Rung :=
  let atrCfg := ctx.sell.atrTrailing
  let bullMult := bullHoldMultiplier ctx.input.config ctx.input.market
  match ctx.state.highSinceBuy with
  | none => .ok cand
  | some highStr =>
      if !atrCfg.enabled && bullMult.isNone then .ok cand
      else
        match highStr.toDecimal,
            computeAtr ctx.input.market ctx.input.config.candleInterval atrCfg.period with
        | some high, some atrValue =>
            match selectTrailMultiplier atrCfg bullMult with
            | none =>
                .error
                  (.skip
                    (parseFailedLog
                      [("field", .text "atrTrailing.multiplier"),
                        ("value", .text atrCfg.multiplier)])
                    none none,
                   { cand with configInvalid := some "atrTrailing.multiplier" })
            | some mult =>
                let stopLevel := high.sub (mult.mul atrValue)
                -- a swing wider than the high itself: leave it to the fixed trail
                if !stopLevel.gt (num 0) then .ok cand
                else if ctx.price.lte stopLevel then
                  ctx.exit .gridSell "tt-atr-trailing-stop" ("atr-trail-" ++ highStr.text)
                    (if bullMult.isSome then
                      [("trail", .text "atr-bull"), ("atrMultiplier", .decimal (.printed mult))]
                    else [])
                    cand
                else
                  .error (.noop, { cand with armedTrail := some ⟨.atr, stopLevel, high⟩ })
        | _, _ => .ok cand

/-- The fixed-percentage trail. -/
def fixedTrailRung (cand : ExitCandidates) : Rung :=
  match ctx.state.highSinceBuy with
  | none => .ok cand
  | some highStr =>
      if !isCapArmed ctx.sell.trailingStopPercentage then .ok cand
      else
        match highStr.toDecimal with
        | none =>
            .error
              (.skip
                (parseFailedLog [("field", .text "highSinceBuy"), ("value", .decimal highStr)])
                none none,
               { cand with configInvalid := some "highSinceBuy" })
        | some high => do
            let trailing ←
              parseFieldOrSkip ctx.sell.trailingStopPercentage "trailingStopPercentage" cand
            if trailing.gt (num 0) && trailing.lte (num 1) then
              let trailPrice := high.mul trailing
              if ctx.price.lte trailPrice then
                ctx.exit .gridSell "tt-trailing-stop" ("trail-" ++ highStr.text) [] cand
              else return { cand with armedTrail := some ⟨.fixed, trailPrice, high⟩ }
            else return cand

/-- A time stop: sell once enough candles closed since the entry. -/
def timeStopRung (applies : Bool) (requiredBars : ℕ) (reason : SellEmissionReason)
    (messagePrefix : String) (cand : ExitCandidates) : Rung :=
  match ctx.state.entryAtMs with
  | none => .ok cand
  | some entryAtMs =>
      if !applies || requiredBars = 0 then .ok cand
      else
        let closed :=
          closedBarsSinceEntry ctx.input.market ctx.input.config.candleInterval entryAtMs
        if closed ≥ requiredBars then
          ctx.exit reason messagePrefix ("time-stop-" ++ toString entryAtMs) [] cand
        else .ok { cand with timeStop := some ⟨closed, requiredBars⟩ }

def discoveryTimeStopRung (cand : ExitCandidates) : Rung :=
  ctx.timeStopRung ctx.state.discoveryEntry ctx.sell.discoveryTimeStopBars .discoveryTimeStop
    "tt-discovery-time-stop" cand

/-- The general time stop is for positions that never reached their sell trigger. -/
def generalTimeStopRung (cand : ExitCandidates) : Rung :=
  ctx.timeStopRung (!ctx.state.discoveryEntry && ctx.state.highSinceBuy.isNone)
    ctx.sell.timeStopBars .timeStop "tt-time-stop" cand

/-- The rungs below the stop-loss, in order. -/
def lowerRungs (cand : ExitCandidates) : Rung := do
  let cand ← ctx.breakEvenRung cand
  let cand ← ctx.fromEntryRung cand
  let cand ← ctx.triggerRung cand
  let cand ← ctx.atrTrailRung cand
  let cand ← ctx.fixedTrailRung cand
  let cand ← ctx.discoveryTimeStopRung cand
  ctx.generalTimeStopRung cand

end LadderContext

/-- Down the ladder until a rung stops it; past the last rung nothing is to be sold. -/
def runSellLadder (input : TTInput) (state : TTState) (cand : ExitCandidates) :
    LadderResult × ExitCandidates :=
  let priceStr := input.market.currentPrice
  let unreadable := fun (raw : String) (lbpStr : DecimalString) =>
    (LadderResult.skip
      (parseFailedLog
        [("err", .text (invalidDecimal raw)), ("avgEntryPrice", .decimal lbpStr),
         ("currentPrice", .text priceStr)])
      none none, cand)
  match state.avgEntryPrice with
  | none => (.noop, cand)
  | some lbpStr =>
      match lbpStr.toDecimal, parse priceStr with
      | none, _ => unreadable lbpStr.text lbpStr
      | some _, none => unreadable priceStr lbpStr
      | some lbp, some price =>
          if lbp.lte (num 0) || price.lte (num 0) then (.noop, cand)
          else
            let ctx : LadderContext :=
              { input, state, lbpStr, lbp, price
                ratchetPrice :=
                  (latestClosedClose input.market input.config.candleInterval).getD price }
            match (do ctx.lowerRungs (← ctx.stopLossRung cand) : Rung) with
            | .error stopped => stopped
            | .ok noted => (.noop, noted)

/-! ### The gate -/

inductive SellGateResult where
  | emit (emission : SellEmission)
  | bumpHigh (state : TTState) (blocker : ExitBlocker)
  | skip (log : LogEntry) (blocker : ExitBlocker)
  | noop (blocker : ExitBlocker)

/-- The exit blocker of a position whose sell path ran. -/
def ladderBlocker (input : TTInput) (state : TTState) (cand : ExitCandidates) : ExitBlocker :=
  resolveExitBlocker
    { candidates := cand, sellDisabled := false, openSellOrder := false
      currentPrice := parse input.market.currentPrice
      downside := assessHeldDownsideExit input.config state input.market }

def evaluateSellGate (input : TTInput) (state : TTState) : SellGateResult :=
  match runSellLadder input state noExitCandidates with
  | (.emit emission, _) => .emit emission
  | (.bumpHigh bumped, cand) => .bumpHigh bumped (ladderBlocker input state cand)
  | (.skip log skipReason field, cand) =>
      let cand := { cand with
        unsellable := skipReason.or cand.unsellable
        configInvalid := field.or cand.configInvalid }
      .skip log (ladderBlocker input state cand)
  | (.noop, cand) => .noop (ladderBlocker input state cand)

structure TriggerPrice where
  price : DecimalString
  parseFail : Bool

/-- The sell-trigger price the signal-driven sell stays below; zero where there is none. -/
def technicalsForceSellTriggerPriceOf (config : TTConfig) (state : TTState) : TriggerPrice :=
  match state.avgEntryPrice with
  | none => ⟨.raw "0", false⟩
  | some lbp =>
      if !isCapArmed config.sell.triggerPercentage then ⟨.raw "0", false⟩
      else
        match lbp.toDecimal, parse config.sell.triggerPercentage with
        | some lbp, some trigger =>
            if !trigger.gt (num 0) then ⟨.raw "0", false⟩
            else ⟨.printed (lbp.mul trigger), false⟩
        | _, _ => ⟨.raw "0", true⟩

end TradingBot.TrailingTrade
