import TradingBot.Momentum.Readings

/-!
# The exit level

The one stop level of a held long: the hard leg under the high since entry, the
profit leg under its own mark once that is far enough above the entry, and the
larger of the two, lifted onto the exchange's floor or kept at the trigger that
already rests. `none` around a result stands where the source throws on a field
that does not parse.
-/

namespace TradingBot.Momentum

open Decimal

def defaultLimitOffset : String := "0.98"

/-! ### The volatility-scaled stop -/

def atrStopPeriod (raw : Option ℤ) : ℕ := coerceInt raw 2 14

def atrStopMultiple (raw : Option String) : Decimal := coerceDec raw 3

/-- The configuration a position of a layer trails under: the
below-trend layer has its own multiple. -/
def configForEntryLayer (config : MomentumConfig) (layer : Option EntryLayer) : MomentumConfig :=
  match layer, config.atrTrailingStop with
  | some .belowTrend, some block =>
      let multiple := (config.belowTrendBreakout.bind (·.atrMultiple)).getD "2"
      { config with atrTrailingStop := some { block with multiple := some multiple } }
  | _, _ => config

/-- The enabled block of the volatility-scaled stop. -/
def MomentumConfig.atrStop (config : MomentumConfig) : Option MomentumAtrTrailingStop :=
  config.atrTrailingStop.filter (·.enabled)

/-- The chandelier under the high, where it is on, computable and positive. -/
def atrTrailingStopPrice (config : MomentumConfig) (candles : List Candle)
    (effectiveHigh : Decimal) : Option (Option Decimal) :=
  match config.atrStop with
  | none => some none
  | some cfg =>
      let period := atrStopPeriod cfg.period
      if candles.length < period + 1 then some none
      else do
        let range ← atr candles period
        let stop := effectiveHigh.sub ((atrStopMultiple cfg.multiple).mul range)
        return if stop.gt (num 0) then some stop else none

/-- A distance that is a real fraction of the entry price. -/
def unitFraction (d : Option Decimal) : Option Decimal :=
  d.filter fun d => d.gt (num 0) && d.lt (num 1)

/-- The distance of the first stop of a position not yet open, as a fraction of its price. -/
def initialStopDistanceFraction (config : MomentumConfig) (candles : List Candle)
    (price : Decimal) : Option (Option Decimal) :=
  if !price.gt (num 0) then some none
  else
    match config.atrStop with
    | none => some (unitFraction (decOrNull (config.trailingStopPct.map .raw)))
    | some cfg =>
        let period := atrStopPeriod cfg.period
        -- no fixed distance stands in: it would be replaced as soon as the range can be measured
        if candles.length < period + 1 then some none
        else do
          let range ← atr candles period
          return unitFraction (some (((atrStopMultiple cfg.multiple).mul range).div price))

/-! ### The profit leg -/

def activationPct (raw : Option String) : Decimal := coerceDec raw (5 / 100)

def trailPct (raw : Option String) : Decimal := coerceDec raw (3 / 100)

/-- The enabled block of the profit trail. -/
def MomentumConfig.profitLeg (config : MomentumConfig) : Option MomentumProfitTrail :=
  config.profitTrail.filter (·.enabled)

/-- The retrace of the profit leg, once its mark has cleared the activation. -/
def profitLegDistance (config : MomentumConfig) (profitHigh : Option Decimal)
    (entryPrice : Decimal) : Option Decimal :=
  match config.profitLeg, profitHigh with
  | some cfg, some high =>
      let activation := entryPrice.mul ((num 1).add (activationPct cfg.activationPct))
      if high.gte activation then some (trailPct cfg.trailPct) else none
  | _, _ => none

def ratchetMinutes (raw : Option ℤ) : ℕ := coerceInt raw 1 5

def minuteMs : ℤ := 60000

/-- Whether a minute is the last of an aligned bucket. -/
def isBucketEnd (candle : Candle) (minutes : ℕ) : Bool :=
  (candle.openTimeMs + minuteMs).tmod (minutes * minuteMs) == 0

/-- The newer of an instant and the close of a minute, where that has closed. -/
def epochStep (newest : Option ℤ) (candle : Candle) : Option ℤ :=
  let closeMs := candle.openTimeMs + minuteMs
  if candle.isClosed && newest.all (· < closeMs) then some closeMs else newest

/-- The newest instant a closed minute of the window closed at. -/
def profitTrailEpoch (oneMinuteCandles : List Candle) : Option ℤ :=
  oneMinuteCandles.foldl epochStep none

/-- Whether the close of a minute may raise the mark of a position opened at an epoch. -/
def ratchets (minutes : ℕ) (sinceMs : ℤ) (candle : Candle) : Bool :=
  candle.isClosed && !(candle.openTimeMs < sinceMs) && isBucketEnd candle minutes

/-- The mark after a minute. -/
def ratchetStep (minutes : ℕ) (sinceMs : ℤ) (high : Decimal) (candle : Candle) : Option Decimal :=
  if ratchets minutes sinceMs candle then do
    let close ← parse candle.close
    return if close.gt high then close else high
  else some high

/-- The profit mark after a window of minutes; nothing counts while the epoch is unknown. -/
def ratchetProfitHigh (config : MomentumConfig) (previous : Option Decimal) (entryPrice : Decimal)
    (oneMinuteCandles : List Candle) (sinceMs : Option ℤ) : Option (Option Decimal) :=
  match config.profitLeg with
  | none => some none
  | some cfg =>
      let high := (previous.getD entryPrice).max entryPrice
      match sinceMs with
      | none => some (some high)
      | some sinceMs =>
          (oneMinuteCandles.foldlM (ratchetStep (ratchetMinutes cfg.ratchetMinutes) sinceMs)
            high).map
            some

/-- The profit mark of a position and the epoch its minutes count from. -/
structure ProfitMark where
  high : Option Decimal
  sinceMs : Option ℤ
deriving DecidableEq

/-- What a held tick makes of the mark: an unset epoch is established by the minutes at hand. -/
def advanceProfitMark (config : MomentumConfig) (entryPrice : Decimal) (mark : ProfitMark)
    (oneMinuteCandles : List Candle) : Option ProfitMark := do
  let sinceMs := mark.sinceMs.or (profitTrailEpoch oneMinuteCandles)
  let high ← ratchetProfitHigh config mark.high entryPrice oneMinuteCandles sinceMs
  return ⟨high, sinceMs⟩

/-! ### The level -/

structure StopResolution where
  effectiveHigh : Decimal
  profitHigh : Option Decimal
  stop : Option Decimal
  floorClamped : Bool

/-- The protective stop, where it is on and follows the exchange's floor. -/
def MomentumConfig.clampMode (config : MomentumConfig) : Bool :=
  config.protectiveStop.any fun ps => ps.enabled && ps.onBandBlock == some .clamp

/-- The fixed retrace under the high; an unusable fraction is no stop at all. -/
def fixedStop (config : MomentumConfig) (effectiveHigh : Decimal) : Option Decimal :=
  (unitFraction (decOrNull (config.trailingStopPct.map .raw))).map fun pct =>
    effectiveHigh.mul ((num 1).sub pct)

/-- The profit leg's own level, never under the entry. -/
def profitStop (config : MomentumConfig) (entryPrice : Decimal) (profitHigh : Option Decimal) :
    Option Decimal :=
  match profitHigh, profitLegDistance config profitHigh entryPrice with
  | some high, some distance => some (entryPrice.max (high.mul ((num 1).sub distance)))
  | _, _ => none

/-- The larger of the legs that resolved. -/
def widerLeg (hard profit : Option Decimal) : Option Decimal :=
  match hard, profit with
  | some h, some p => some (h.max p)
  | some h, none => some h
  | none, p => p

/-- A level lifted to the lowest trigger the band accepts, in clamp mode. -/
def floored (config : MomentumConfig) (bandContext : StopBandContext) (stop : Option Decimal) :
    Option Decimal × Bool :=
  if !config.clampMode then (stop, false)
  else
    let raw := (config.protectiveStop.bind (·.limitOffsetPercentage)).getD defaultLimitOffset
    match unitFraction (decOrNull (some (.raw raw))), stop with
    | some limitOffset, some level =>
        let clamped := clampStopToExchangeFloor level (bandContext.reference.getD "")
          bandContext.band limitOffset
        (some clamped.1, clamped.2)
    | _, _ => (stop, false)

/-- A level kept at the trigger that already rests, outside clamp mode. -/
def pinned (config : MomentumConfig) (previousStop stop : Option Decimal) : Option Decimal :=
  match stop, previousStop with
  | some level, some previous => if config.clampMode then some level else some (level.max previous)
  | _, _ => stop

/-- The one stop level of a held long, from marks the caller has advanced. -/
def resolveStopLevel (config : MomentumConfig) (entryPrice effectiveHigh : Decimal)
    (profitHigh : Option Decimal) (tradingCandles : List Candle) (bandContext : StopBandContext)
    (previousStop : Option Decimal) : Option StopResolution := do
  let chandelier ← atrTrailingStopPrice config tradingCandles effectiveHigh
  let hard := chandelier.or (fixedStop config effectiveHigh)
  let stop := widerLeg hard (profitStop config entryPrice profitHigh)
  let (level, floorClamped) := floored config bandContext stop
  return { effectiveHigh, profitHigh, stop := pinned config previousStop level, floorClamped }

end TradingBot.Momentum
