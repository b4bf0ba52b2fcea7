import TradingBot.Indicators
import TradingBot.TrailingTrade.Schema

/-!
# The daily regime

The bull, bear or neutral reading of the daily candles and the gates that act
on it: the exit to cash, the entry block and its re-arm, the uptrend
requirement, the promotion filter and the exposure scalar. A reading that
cannot be taken is `unavailable`, and each gate decides for itself what that
means.
-/

namespace TradingBot.TrailingTrade

open Decimal

def regimeInterval : CandleInterval := .d1

inductive Regime where
  | bull
  | bear
  | neutral
  | unavailable
deriving DecidableEq

structure RegimeParams where
  ma : MaKind
  period : ℕ
  confirmBars : ℕ

def TTRegime.params (regime : TTRegime) : RegimeParams :=
  { ma := regime.ma, period := regime.period, confirmBars := regime.confirmBars }

structure RegimeReading where
  regime : Regime
  context : Detail

def movingAverage (kind : MaKind) (candles : CandleWindow) (period : ℕ) : Option Decimal :=
  match kind with
  | .sma => sma candles period
  | .ema => ema candles period

/-- Bear when every confirming close is below the average, bull when every one is above it. -/
def classifyRegimeFromDaily (dailyCandles : List Candle) (currentPrice : String)
    (params : RegimeParams) : RegimeReading :=
  let candles := dailyCandles.filter (·.isClosed)
  let need := if params.period > params.confirmBars then params.period else params.confirmBars
  let interval : String × DetailValue := ("interval", .text regimeInterval.text)
  if candles.length < need then
    { regime := .unavailable
      context := [interval, ("have", .int candles.length), ("need", .int need)] }
  else
    match closes (lastCandles candles params.confirmBars) with
    | none => { regime := .unavailable, context := [interval, ("missing", .text "close")] }
    | some closes =>
        match movingAverage params.ma candles params.period with
        | none => { regime := .unavailable, context := [interval, ("missing", .text "compute")] }
        | some maValue =>
            let context : Detail :=
              [interval, ("ma", .decimal (.printed maValue)), ("maType", .text params.ma.text),
               ("period", .int params.period), ("confirmBars", .int params.confirmBars),
               ("price", .text currentPrice)]
            -- one close on the other side is enough for a neutral reading
            if closes.all (·.lt maValue) then { regime := .bear, context }
            else if closes.all (·.gt maValue) then { regime := .bull, context }
            else { regime := .neutral, context }

def classifyRegime (market : MarketSnapshot) (params : RegimeParams) : RegimeReading :=
  classifyRegimeFromDaily ((market.candlesByInterval regimeInterval).getD []) market.currentPrice
    params

/-! ### Exit, entry block and re-arm -/

inductive RegimeExitVerdict where
  | disabled
  | unavailable (context : Detail)
  | bear (context : Detail)
  | ok (context : Detail)

def classifyForGate (market : MarketSnapshot) (regime : TTRegime) : RegimeExitVerdict :=
  let reading := classifyRegime market regime.params
  match reading.regime with
  | .unavailable => .unavailable reading.context
  | .bear => .bear reading.context
  | _ => .ok reading.context

def TTRegime.exitToCash (regime : TTRegime) : Bool := regime.onBear.any (·.exitToCash)

def TTRegime.blockEntry (regime : TTRegime) : Bool := regime.onBear.any (·.blockEntry)

def evaluateRegimeExit (market : MarketSnapshot) (config : TTConfig) : RegimeExitVerdict :=
  match config.regime with
  | some regime => if regime.exitToCash then classifyForGate market regime else .disabled
  | none => .disabled

def evaluateRegimeEntryBlock (market : MarketSnapshot) (config : TTConfig) : RegimeExitVerdict :=
  match config.regime with
  | some regime =>
      if !regime.exitToCash && !regime.blockEntry then .disabled
      else classifyForGate market regime
  | none => .disabled

inductive RegimeEntryRequireVerdict where
  | disabled
  | allow (context : Detail)
  | block (context : Detail)

/-- The uptrend requirement blocks on everything short of a confirmed bull reading. -/
def evaluateRegimeEntryRequirement (market : MarketSnapshot) (config : TTConfig) :
    RegimeEntryRequireVerdict :=
  match config.regime with
  | some regime =>
      if regime.onBull.any (·.requireEntry) then
        let reading := classifyRegime market regime.params
        if reading.regime = .bull then .allow reading.context else .block reading.context
      else .disabled
  | none => .disabled

inductive RegimeRearmVerdict where
  | blocked
  | rearmed (context : Detail)

/-- The age of a signal; one stamped ahead of the clock is fresh. -/
def TechnicalsSignal.ageMs (signal : TechnicalsSignal) (nowMs : ℤ) : ℤ :=
  let rawAgeMs := nowMs - signal.receivedAtMs
  if rawAgeMs < 0 then 0 else rawAgeMs

/-- A fresh buy signal on the re-arm interval lifts the bear block, unless the exit is to cash. -/
def evaluateRegimeRearm (tv : TechnicalsBundle) (config : TTConfig) (nowMs : ℤ) :
    RegimeRearmVerdict :=
  match config.regime.bind (·.onBear) with
  | none => .blocked
  | some onBear =>
      match onBear.rearm with
      | none => .blocked
      | some rearm =>
          if !rearm.enabled || onBear.exitToCash then .blocked
          else
            match (tv.signals.find? (·.interval == rearm.interval.text)).bind (·.signal) with
            | none => .blocked
            | some signal =>
                if signal.ageMs nowMs > tv.config.useOnlyWithinMin * 60000 then .blocked
                else if signal.recommendation == .strongBuy ||
                    (rearm.minRecommendation == .buy && signal.recommendation == .buy) then
                  .rearmed
                    [("interval", .text rearm.interval.text),
                     ("recommendation", .text signal.recommendation.text),
                     ("minRecommendation", .text rearm.minRecommendation.text)]
                else .blocked

/-! ### Exposure and the promotion filter -/

structure RegimeExposure where
  scalar : Decimal
  regime : Option Regime

/-- The fraction of the first buy the regime allows; `none` stands for a disabled reading. -/
def regimeExposure (config : TTConfig) (market : MarketSnapshot) : Except String RegimeExposure :=
  match config.regime with
  | none => .ok { scalar := num 1, regime := none }
  | some regime =>
      match regime.exposure with
      | none => .ok { scalar := num 1, regime := none }
      | some exposure =>
          if !exposure.enabled then .ok { scalar := num 1, regime := none }
          else
            match (classifyRegime market regime.params).regime with
            | .bear => .ok { scalar := num 0, regime := some .bear }
            | .neutral => do
                let scalar ← newDecimal exposure.neutralScalar
                return { scalar, regime := some .neutral }
            | .bull => .ok { scalar := num 1, regime := some .bull }
            -- too few candles to judge: the budget is left whole
            | .unavailable => .ok { scalar := num 1, regime := some .unavailable }

/-- A gate that stops a buy, with the reason and what it saw. -/
structure EntryVeto where
  reason : EntryBlockerReason
  context : Detail

/-- Averaging down is suppressed while the price sits below the daily average. -/
def evaluateRegimeFilter (market : MarketSnapshot) (config : TTConfig) : Option EntryVeto :=
  match config.regime with
  | none => none
  | some regime =>
      if !regime.onBear.any (·.suppressPromotion) then none
      else
        let candles := ((market.candlesByInterval regimeInterval).getD []).filter (·.isClosed)
        let interval : String × DetailValue := ("interval", .text regimeInterval.text)
        if candles.length < regime.period then
          some
            { reason := .regimeUnavailable
              context := [interval, ("have", .int candles.length), ("need", .int regime.period)] }
        else
          match parse market.currentPrice, movingAverage regime.ma candles regime.period with
          | some price, some maValue =>
              if price.lt maValue then
                some
                  { reason := .regimeDowntrend
                    context :=
                      [interval, ("price", .text market.currentPrice),
                       ("ma", .decimal (.printed maValue)), ("maType", .text regime.ma.text),
                       ("period", .int regime.period)] }
              else none
          | _, _ =>
              some
                { reason := .regimeUnavailable
                  context := [interval, ("missing", .text "compute")] }

end TradingBot.TrailingTrade
