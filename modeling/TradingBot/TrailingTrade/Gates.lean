import TradingBot.TrailingTrade.Regime

/-!
# Entry and exit gates

The gates a trailing-trade buy passes (technicals, indicators, mean reversion,
the discovery guards, the risk caps and the two cooldowns) and the
signal-driven sell with its guards. A gate that stops a buy answers with an
`EntryVeto`; a gate that lets it pass answers `none`.
-/

namespace TradingBot.TrailingTrade

open Decimal

/-! ### Technicals -/

inductive TVGateVeto where
  | noSignal
  | stale
  | sell
  | disallowed
deriving DecidableEq

def TVGateVeto.reason : TVGateVeto → EntryBlockerReason
  | noSignal => .technicalsNoSignal
  | stale => .technicalsStale
  | sell => .technicalsSell
  | disallowed => .technicalsDisallowed

def TVGateVeto.priority : TVGateVeto → ℕ
  | sell => 4
  | disallowed => 3
  | stale => 2
  | noSignal => 1

structure IntervalConsultation where
  interval : String
  recommendation : Option TechnicalsRecommendation
  verdict : Option TVGateVeto
  advisory : Bool

structure TVVeto where
  reason : TVGateVeto
  interval : String

/-- The veto the gate settles on, if any, and every interval it looked at. -/
structure TVGateResult where
  veto : Option TVVeto
  intervalsConsulted : List IntervalConsultation

/-- The signal of an interval; of two entries for one interval the later counts. -/
def signalByInterval (signals : List TechnicalsIntervalSignal) (interval : String) :
    Option TechnicalsSignal :=
  (signals.reverse.find? (·.interval == interval)).bind (·.signal)

def evaluateInterval (row : TechnicalsIntervalConfig) (signal : Option TechnicalsSignal)
    (useOnlyWithinMin : ℤ) (ifExpires : IfExpires) (nowMs : ℤ) : Option TVGateVeto :=
  if (allowBuySet row).isEmpty then none
  else
    match signal with
    | none => some .noSignal
    | some signal =>
        if signal.ageMs nowMs > useOnlyWithinMin * 60000 && ifExpires == .doNotBuy then some .stale
        else if signal.recommendation == .neutral then none
        else if signal.recommendation == .sell || signal.recommendation == .strongSell then
          some .sell
        else if (allowBuySet row).contains signal.recommendation then none
        else some .disallowed

/-- One row of the gate: the strongest blocking veto so far wins, the earlier one on a tie. -/
def chooseVeto (chosen : Option TVVeto) (consulted : IntervalConsultation) : Option TVVeto :=
  match consulted.verdict with
  | none => chosen
  | some reason =>
      if consulted.advisory then chosen
      else
        match chosen with
        | none => some { reason, interval := consulted.interval }
        | some prior =>
            -- strictly: on a tie the row configured first is the one reported
            if reason.priority > prior.reason.priority then
              some { reason, interval := consulted.interval }
            else chosen

def evaluateTechnicalsGate (tv : TechnicalsBundle) (override : TTForceBuyOverride) (nowMs : ℤ) :
    TVGateResult :=
  if !override.checkTechnicals || tv.config.intervals.isEmpty then
    { veto := none, intervalsConsulted := [] }
  else
    let consulted := tv.config.intervals.map fun row =>
      let signal := signalByInterval tv.signals row.interval
      { interval := row.interval
        recommendation := signal.map (·.recommendation)
        verdict :=
          evaluateInterval row signal tv.config.useOnlyWithinMin tv.config.ifExpires nowMs
        advisory := row.advisory : IntervalConsultation }
    { veto := consulted.foldl chooseVeto none, intervalsConsulted := consulted }

/-- The floor under an enter-on-add entry: only a fresh strong sell stops it. -/
def evaluateEnterOnAddFloor (tv : TechnicalsBundle) (override : TTForceBuyOverride) (nowMs : ℤ) :
    TVGateResult :=
  if !override.checkTechnicals || tv.config.intervals.isEmpty then
    { veto := none, intervalsConsulted := [] }
  else
    let consulted := tv.config.intervals.map fun row =>
      let signal := signalByInterval tv.signals row.interval
      let sells := signal.any fun s =>
        s.recommendation == .strongSell &&
          !(s.ageMs nowMs > tv.config.useOnlyWithinMin * 60000 && tv.config.ifExpires == .doNotBuy)
      { interval := row.interval
        recommendation := signal.map (·.recommendation)
        verdict := if sells then some .sell else none
        advisory := row.advisory : IntervalConsultation }
    { veto :=
        (consulted.find? fun c => c.verdict.isSome && !c.advisory).map fun c =>
          { reason := .sell, interval := c.interval }
      intervalsConsulted := consulted }

/-! ### Indicators -/

def rsiArmed (rsiMaxBuy : String) : Bool := isCapArmed rsiMaxBuy

def indicatorUnavailable (interval : CandleInterval) (missing : String) : EntryVeto :=
  { reason := .indicatorUnavailable
    context := [("interval", .text interval.text), ("missing", .text missing)] }

/-- Which side of the average the bias wants, in the words of the configuration. -/
def biasText (bias : MaBias) (average : String) : String :=
  match bias with
  | .off => "off"
  | .below => "price-below-" ++ average
  | .above => "price-above-" ++ average

/-- The price must sit strictly on the wanted side of a moving average. -/
def checkMaBias (interval : CandleInterval) (price : Decimal) (maRaw : Option String)
    (bias : MaBias) (label average : String) (veto : EntryBlockerReason) : Option EntryVeto :=
  match maRaw with
  | none => some (indicatorUnavailable interval label)
  | some raw =>
      match parse raw with
      | none => some (indicatorUnavailable interval (label ++ "-parse"))
      | some ma =>
          let satisfied := if bias = .below then price.lt ma else price.gt ma
          if satisfied then none
          else
            some
              { reason := veto
                context :=
                  [("interval", .text interval.text), (label, .text raw),
                   ("currentPrice", .decimal (.printed price)),
                   ("bias", .text (biasText bias average))] }

def checkRsi (interval : CandleInterval) (rsiRaw : Option String) (rsiMaxBuy : String) :
    Option EntryVeto :=
  match rsiRaw with
  | none => some (indicatorUnavailable interval "rsi14")
  | some raw =>
      match parse raw, parse rsiMaxBuy with
      | some rsi, some ceiling =>
          if rsi.gt ceiling then
            some
              { reason := .indicatorRsi
                context :=
                  [("interval", .text interval.text), ("rsi14", .text raw),
                   ("rsiMaxBuy", .text rsiMaxBuy)] }
          else none
      | _, _ => some (indicatorUnavailable interval "rsi14-parse")

def evaluateIndicatorGate (market : MarketSnapshot) (config : TTConfig) : Option EntryVeto :=
  match config.buy.indicatorGate with
  | none => none
  | some gate =>
      if !rsiArmed gate.rsiMaxBuy && gate.smaBias == .off && gate.emaBias == .off then none
      else
        let interval := config.candleInterval
        match market.indicatorsByInterval interval with
        | none => some (indicatorUnavailable interval "snapshot")
        | some snap =>
            match parse market.currentPrice with
            | none => some (indicatorUnavailable interval "currentPrice")
            | some price =>
                let rsi :=
                  if rsiArmed gate.rsiMaxBuy then checkRsi interval snap.rsi14 gate.rsiMaxBuy
                  else none
                let sma :=
                  if gate.smaBias ≠ .off then
                    checkMaBias interval price snap.sma20 gate.smaBias "sma20" "sma" .indicatorSma
                  else none
                let ema :=
                  if gate.emaBias ≠ .off then
                    checkMaBias interval price snap.ema20 gate.emaBias "ema20" "ema" .indicatorEma
                  else none
                (rsi.or sma).or ema

/-- Only a price far enough below its recent mean may be bought. -/
def evaluateMeanReversionGate (market : MarketSnapshot) (config : TTConfig) :
    Except String (Option EntryVeto) :=
  match config.buy.meanReversionGate with
  | none => .ok none
  | some gate =>
      if gate.entryZScoreMax = "" then .ok none
      else
        let interval := config.candleInterval
        let lookback := gate.lookbackCandles
        let unavailable := fun (window : Option (List Candle)) =>
          some
            { reason := .indicatorUnavailable
              context :=
                [("interval", .text interval.text), ("missing", .text "mean-reversion-window"),
                 ("have", .int ((window.map List.length).getD 0)), ("lookback", .int lookback)] }
        match market.candlesByInterval interval with
        | none => .ok (unavailable none)
        | some window =>
            if window.length < lookback then .ok (unavailable (some window))
            else
              match parse market.currentPrice, sma window lookback, stddev window lookback with
              | some price, some mean, some sd =>
                  if sd.eq (num 0) then .ok (some (indicatorUnavailable interval "stddev"))
                  else do
                    let z := (price.sub mean).div sd
                    let ceiling ← newDecimal gate.entryZScoreMax
                    if z.gt ceiling then
                      return some
                        { reason := .indicatorMeanReversion
                          context :=
                            [("interval", .text interval.text), ("zScore", .decimal (.printed z)),
                             ("entryZScoreMax", .text gate.entryZScoreMax),
                             ("lookbackCandles", .int lookback)] }
                    else return none
              | _, _, _ => .ok (some (indicatorUnavailable interval "parse"))

/-! ### Discovery guards -/

/-- Do not chase an entry close to the day's high. -/
def chaseGuard (currentPrice : String) (high24h maxDistancePct : Option String) :
    Option Detail :=
  match high24h, maxDistancePct with
  | some high24h, some maxDistancePct =>
      match parse maxDistancePct with
      | none => none
      | some pct =>
          if !pct.gt (num 0) then none
          else
            match parse high24h, parse currentPrice with
            | some high, some price =>
                if !high.gt (num 0) then none
                else if price.gte (high.mul ((num 1).sub (pct.div (num 100)))) then
                  some
                    [("high24h", .text high24h), ("currentPrice", .text currentPrice),
                     ("distancePct", .text maxDistancePct)]
                else none
            | _, _ => none
  | _, _ => none

/-- The highest positive close of a window, over the closes that read. -/
def maxPositiveClose (window : List Candle) : Option Decimal :=
  window.foldl
    (fun best c =>
      match parse c.close with
      | none => best
      | some close =>
          if !close.gt (num 0) then best
          else
            match best with
            | none => some close
            | some b => if close.gt b then some close else best)
    none

/-- Do not catch a falling knife: the last closes dropped too far from their highest. -/
def knifeGuard (closedCandles : Option (List Candle)) (knifeCandles : Option ℤ)
    (knifeDropPercent : Option String) : Option Detail :=
  match knifeCandles, knifeDropPercent, closedCandles with
  | some candles, some dropPercent, some closed =>
      if candles < 1 then none
      else
        match parse dropPercent with
        | none => none
        | some dropPct =>
            if !dropPct.gt (num 0) || (closed.length : ℤ) < candles then none
            else
              let window := lastCandles closed candles.toNat
              match window.getLast?.bind fun c => parse c.close, maxPositiveClose window with
              | some lastClose, some maxClose =>
                  let declinePct := ((maxClose.sub lastClose).div maxClose).mul (num 100)
                  if declinePct.gte dropPct then
                    some [("dropPct", .decimal (.printed declinePct)), ("candles", .int candles)]
                  else none
              | _, _ => none
  | _, _, _ => none

/-! ### Fees -/

/-- A fee leg in basis points: unreadable or not positive counts as none. -/
def feeLeg (bps : Option String) : Decimal :=
  match parse (bps.getD "0") with
  | some d => if d.gt (num 0) then d else num 0
  | none => num 0

def TTConfig.entersAsMaker (config : TTConfig) : Bool :=
  config.execution.any (·.entryMode == .maker)

/-- What a round trip costs: two taker legs, or a maker entry and a taker exit. -/
def roundTripFeeFraction (config : TTConfig) : Decimal :=
  let taker := config.fees.bind (·.takerBps)
  let maker := config.fees.bind (·.makerBps)
  if config.entersAsMaker then ((feeLeg maker).add (feeLeg taker)).div (num 10000)
  else
    match parse (taker.getD "0") with
    | none => num 0
    | some t => if t.lte (num 0) then num 0 else (t.mul (num 2)).div (num 10000)

def roundTripFeePercent (config : TTConfig) : Decimal :=
  (roundTripFeeFraction config).mul (num 100)

/-- The profit a signal-driven sell must clear: the configured one, and never less than the fees. -/
def effectiveForceSellMinProfitPercent (config : TTConfig) : Decimal :=
  ((parse config.sell.forceSellMinProfitPercent).getD (num 0)).max (roundTripFeePercent config)

/-! ### The signal-driven sell -/

structure TvForceSell where
  interval : String
  recommendation : TechnicalsRecommendation
  ageMs : ℤ

/-- The first armed row whose fresh signal asks for a sell. -/
def forceSellRow (tv : TechnicalsBundle) (nowMs : ℤ) : Option TvForceSell :=
  tv.config.intervals.findSome? fun row =>
    match signalByInterval tv.signals row.interval with
    | none => none
    | some signal =>
        if signal.ageMs nowMs > tv.config.useOnlyWithinMin * 60000 then none
        else if (forceSellTriggers row).contains signal.recommendation then
          some
            { interval := row.interval, recommendation := signal.recommendation
              ageMs := signal.ageMs nowMs }
        else none

/-- Sell on a signal while in profit past the floor and still below the trigger price. -/
def evaluateTechnicalsForceSell (tv : TechnicalsBundle) (currentPrice : String)
    (avgEntryPrice : Option DecimalString) (triggerPrice : DecimalString) (nowMs : ℤ)
    (minProfitPercent : Decimal) : Option TvForceSell :=
  match avgEntryPrice with
  | none => none
  | some avgEntryPrice =>
      if tv.config.intervals.isEmpty then none
      else
        match parse currentPrice, avgEntryPrice.toDecimal, triggerPrice.toDecimal with
        | some price, some lastBuy, some trigger =>
            if !price.isFinite || !lastBuy.isFinite || !trigger.isFinite then none
            -- above the trigger the profit trail owns the exit
            else if price.gte trigger then none
            else
              let minProfitPct :=
                if minProfitPercent.isFinite && minProfitPercent.gte (num 0) then minProfitPercent
                else num 0
              if price.lte (lastBuy.mul ((minProfitPct.div (num 100)).add (num 1))) then none
              else forceSellRow tv nowMs
        | _, _, _ => none

structure ForceSellGuards where
  confirmMinutes : ℤ
  cooldownMinutes : ℤ

def subHourIntervalMinutes : String → Option ℤ
  | "1m" => some 1
  | "5m" => some 5
  | "15m" => some 15
  | "30m" => some 30
  | _ => none

/-- The confirmation wait and the re-entry cooldown, defaulted from the fastest selling row. -/
def resolveForceSellGuards (technicals : TTTechnicals) : ForceSellGuards :=
  let subHour :=
    (technicals.intervals.filter fun row =>
      row.whenSell || row.whenStrongSell || row.whenNeutral).filterMap
        fun row => subHourIntervalMinutes row.interval
  let shortest :=
    match subHour with
    | [] => 0
    | m :: rest => rest.foldl (fun best m => if m < best then m else best) m
  { confirmMinutes := technicals.forceSellConfirmMinutes.getD shortest
    cooldownMinutes :=
      technicals.forceSellReentryCooldownMinutes.getD (if subHour.isEmpty then 0 else 60) }

/-! ### Cooldowns -/

def forceSellCooldownActive (state : TTState) (now : ℤ) : Bool :=
  state.forceSellCooldownUntilMs.any (now < ·)

def DetailValue.ofInt? : Option ℤ → DetailValue
  | some n => .int n
  | none => .null

def DetailValue.ofText? : Option String → DetailValue
  | some s => .text s
  | none => .null

structure CooldownBlock where
  log : LogEntry
  metric : MetricEntry

def forceSellCooldownBlock (symbol : String) (state : TTState) : CooldownBlock :=
  { log := log .info "tt-force-sell-cooldown-blocked"
      [("symbol", .text symbol),
        ("cooldownUntilMs", DetailValue.ofInt? state.forceSellCooldownUntilMs)]
    metric := metric "tt_force_sell_cooldown_blocked" [("symbol", symbol)] }

/-- When the wait after a losing exit ends. -/
def lossCooldownDeadline (config : TTConfig) (lastLossExitAt : ℤ) : ℤ :=
  lastLossExitAt + config.buy.lossCooldownMinutes * 60000

def lossExitCooldownActive (state : TTState) (config : TTConfig) (now : ℤ) : Bool :=
  state.lastLossExitAt.any fun at_ => now < lossCooldownDeadline config at_

def lossCooldownBlock (symbol : String) (state : TTState) : CooldownBlock :=
  { log := log .info "tt-loss-cooldown-blocked"
      [("symbol", .text symbol), ("lastLossExitAt", DetailValue.ofInt? state.lastLossExitAt),
       ("lastLossExitReason", DetailValue.ofText? state.lastLossExitReason)]
    metric := metric "tt_loss_cooldown_blocked" [("symbol", symbol)] }

/-- The whole minutes left of the wait, rounded up. -/
def lossCooldownMinutesLeft (state : TTState) (config : TTConfig) (now : ℤ) : ℤ :=
  match state.lastLossExitAt with
  | none => 0
  | some at_ =>
      let remainingMs := lossCooldownDeadline config at_ - now
      if remainingMs ≤ 0 then 0
      else
        let remainder := remainingMs % 60000
        let wholeMinutes := (remainingMs - remainder) / 60000
        if remainder > 0 then wholeMinutes + 1 else wholeMinutes

end TradingBot.TrailingTrade
