import TradingBot.Momentum.Schema

/-!
# Entry triggers

What each trigger reads off the closed candles. A reading that is `none` means
the window is too short to judge; it is no signal, not a refusal. Around it, an
outer `none` stands where the source throws on a candle field that does not
parse.
-/

namespace TradingBot.Momentum

open Decimal

/-- The window without its last candle. -/
def priorCandles (candles : List Candle) : List Candle := candles.dropLast

/-- The close of the last candle; the source reads past the end of an empty window. -/
def lastClose (candles : List Candle) : Option Decimal := do
  let last ← candles.getLast?
  parse last.close

/-- The largest of a list, as the library folds it. -/
def maxOf (ds : List Decimal) : Option Decimal :=
  match ds with
  | [] => none
  | d :: ds => some (ds.foldl Decimal.max d)

/-- The smallest of a list, as the library folds it. -/
def minOf (ds : List Decimal) : Option Decimal :=
  match ds with
  | [] => none
  | d :: ds => some (ds.foldl Decimal.min d)

/-! ### Breakout -/

def breakoutLookback (raw : Option ℤ) : ℕ := coerceInt raw 2 400

def breakoutLevel (candles : List Candle) (lookback : ℕ) : Option (Option Decimal) :=
  if candles.length < lookback then some none
  else do
    let highs ← (lastCandles candles lookback).mapM fun c => parse c.high
    match highs with
    | [] => none
    | level :: highs => return some (highs.foldl (fun level high => dmax high level) level)

/-! ### Impulse -/

def impulseAtrPeriod : ℕ := 14

structure ImpulseSettings where
  volumeLookback : ℕ
  volumeMultiple : Decimal
  riseAtrMultiple : Decimal

def impulseSettings (raw : Option MomentumImpulse) : ImpulseSettings where
  volumeLookback := coerceInt (raw.bind (·.volumeLookback)) 2 168
  volumeMultiple := coerceDec (raw.bind (·.volumeMultiple)) 3
  riseAtrMultiple := coerceDec (raw.bind (·.riseAtrMultiple)) 2

def impulseNeed (raw : Option MomentumImpulse) : ℕ :=
  let volumeLookback := (impulseSettings raw).volumeLookback
  let atrNeed := impulseAtrPeriod + 1
  (if volumeLookback > atrNeed then volumeLookback else atrNeed) + 1

structure ImpulseReading where
  fired : Bool
  volumeRatio : Decimal
  bodyAtr : Decimal

/-- A heavy-volume up candle, against baselines that leave the judged candle out. -/
def impulseReading (candles : List Candle) (raw : Option MomentumImpulse) :
    Option (Option ImpulseReading) :=
  let s := impulseSettings raw
  if candles.length < impulseNeed raw then some none
  else do
    let last ← candles.getLast?
    let prior := priorCandles candles
    let volumes ← (lastCandles prior s.volumeLookback).mapM fun c => parse c.volume
    let avgVolume := (volumes.foldl Decimal.add (num 0)).div (num s.volumeLookback)
    let range ← atr prior impulseAtrPeriod
    if !avgVolume.gt (num 0) || !range.gt (num 0) then return none
    else
      let volume ← parse last.volume
      let close ← parse last.close
      let openPrice ← parse last.openPrice
      let volumeRatio := volume.div avgVolume
      let bodyAtr := (close.sub openPrice).div range
      return some
        { fired := volumeRatio.gt s.volumeMultiple && bodyAtr.gt s.riseAtrMultiple
          volumeRatio, bodyAtr }

/-! ### Choppiness -/

def maClusterChopPeriod : ℕ := 14

/-- The widest of a candle's own range and its distances from the close before it. -/
def clusterTrueRange (prev cur : Candle) : Option Decimal := do
  let high ← parse cur.high
  let low ← parse cur.low
  let prevClose ← parse prev.close
  return ((high.sub low).max (high.sub prevClose).abs).max (low.sub prevClose).abs

/-- The Choppiness Index of the last candles: 100 where nothing has moved at all. -/
def choppiness (candles : List Candle) : Option Decimal := do
  let w := lastCandles candles (maClusterChopPeriod + 1)
  let ranges ← (w.zip w.tail).mapM fun (prev, cur) => clusterTrueRange prev cur
  let highs ← w.tail.mapM fun c => parse c.high
  let lows ← w.tail.mapM fun c => parse c.low
  let hi ← maxOf highs
  let lo ← minOf lows
  let range := hi.sub lo
  if range.lte (num 0) then return num 100
  else
    let sumTr := ranges.foldl Decimal.add (num 0)
    return ((sumTr.div range).log10.div (num maClusterChopPeriod).log10).mul (num 100)

/-- A ceiling in the half-open interval from zero; anything else turns its gate off. -/
def ceilingUpTo (bound : ℚ) (raw : Option String) : Option Decimal :=
  (raw.bind parse).filter fun d => d.gt (num 0) && d.lte (num bound)

def maClusterMaxChoppiness (raw : Option String) : Option Decimal := ceilingUpTo 100 raw

/-! ### Averages that have bunched -/

def maClusterPeriods : List ℕ := [20, 50, 100, 200]

def maClusterAtrPeriod : ℕ := 14

def maClusterAtrLookback : ℕ := 480

def maClusterMaxAtrPercentile (raw : Option MomentumMaCluster) : Option Decimal :=
  ceilingUpTo 1 (raw.bind (·.maxAtrPercentile))

def maClusterConfirmBreak (raw : Option MomentumMaCluster) : Bool := raw.any (·.confirmBreak)

def maClusterMaxSpread (raw : Option MomentumMaCluster) : Decimal :=
  coerceDec (raw.bind (·.maxSpread)) (1 / 100)

def maClusterNeed (raw : Option MomentumMaCluster) : ℕ :=
  (if (maClusterMaxAtrPercentile raw).isNone then 200 + 1
    else maClusterAtrPeriod + maClusterAtrLookback + 1) +
    (if maClusterConfirmBreak raw then 1 else 0)

/-- Each candle's average range as a share of its close, from the first that has one. -/
def relativeAtrs (w : List Candle) : Option (List Decimal) := do
  let n := maClusterAtrPeriod
  let ranges ← (w.zip w.tail).mapM fun (prev, cur) => clusterTrueRange prev cur
  let seed := ((ranges.take n).foldl Decimal.add (num 0)).div (num n)
  let values := (ranges.drop n).scanl (wilder n) seed
  let cs ← closes (w.drop n)
  return (values.zip cs).map fun (value, close) => value.div close

/-- The share of the lookback that was calmer than the judged candle. -/
def atrPercentile (candles : List Candle) : Option Decimal := do
  let rel ← relativeAtrs
    (lastCandles candles (maClusterAtrPeriod + maClusterAtrLookback + 1))
  let judged ← rel.getLast?
  let below := (rel.dropLast.filter (·.lt judged)).length
  return (num below).div (num (rel.length - 1))

structure MaClusterReading where
  fired : Bool
  choppy : Bool
  volatile : Bool
  unconfirmed : Bool
  atrPercentile : Option Decimal
  choppiness : Decimal
  top : Decimal
  spread : Decimal
  bunched : Bool

def averages (candles : List Candle) : Option (List Decimal) :=
  maClusterPeriods.mapM fun p => sma candles p

/-- The break judged on the last candle alone, before any confirmation. -/
def breakReading (candles : List Candle) (raw : Option MomentumMaCluster) :
    Option MaClusterReading := do
  let close ← lastClose candles
  let now ← averages candles
  let top ← maxOf now
  let bottom ← minOf now
  let spread := (top.sub bottom).div close
  let prior := priorCandles candles
  let before ← averages prior
  let prevTop ← maxOf before
  let prevClose ← lastClose prior
  let bunched := spread.lt (maClusterMaxSpread raw)
  let broke := close.gt top && prevClose.lte prevTop && bunched
  let chop ← choppiness candles
  let choppy := broke && (maClusterMaxChoppiness (raw.bind (·.maxChoppiness))).any chop.gte
  let pct ← (maClusterMaxAtrPercentile raw).mapM fun _ => atrPercentile candles
  let volatile :=
    broke && (maClusterMaxAtrPercentile raw).any fun ceiling => pct.any (·.gt ceiling)
  return {
    fired := broke && !choppy && !volatile
    choppy, volatile, unconfirmed := false, atrPercentile := pct, choppiness := chop
    top, spread, bunched }

/-- A close across the top of bunched averages, held for one more candle where asked. -/
def maClusterReading (candles : List Candle) (raw : Option MomentumMaCluster) :
    Option (Option MaClusterReading) :=
  if candles.length < maClusterNeed raw then some none
  else do
    let now ← breakReading candles raw
    if !maClusterConfirmBreak raw then return some now
    else
      let prev ← breakReading (priorCandles candles) raw
      let close ← lastClose candles
      return some { now with fired := prev.fired && close.gt now.top, unconfirmed := now.fired }

/-! ### Exhaustion -/

def exhaustionTrendPeriod : ℕ := 400

def exhaustionRsiPeriod : ℕ := 14

structure ExhaustionSettings where
  maxChoppiness : Decimal
  minBelowAverage : Decimal
  maxRsi : Decimal

def exhaustionSettings (raw : Option MomentumExhaustion) : ExhaustionSettings where
  maxChoppiness := coerceDec (raw.bind (·.maxChoppiness)) 30
  minBelowAverage := coerceDec (raw.bind (·.minBelowAverage)) (5 / 100)
  maxRsi := coerceDec (raw.bind (·.maxRsi)) 25

def exhaustionNeed : ℕ := exhaustionTrendPeriod + 1

structure ExhaustionReading where
  fired : Bool
  choppiness : Decimal
  belowAverage : Decimal
  rsi : Decimal

/-- A one-way slide far under the long average, with the oscillator oversold. -/
def exhaustionReading (candles : List Candle) (raw : Option MomentumExhaustion) :
    Option (Option ExhaustionReading) :=
  if candles.length < exhaustionNeed then some none
  else do
    let s := exhaustionSettings raw
    let close ← lastClose candles
    let chop ← choppiness candles
    let average ← sma candles exhaustionTrendPeriod
    let belowAverage := (num 1).sub (close.div average)
    let strength ← rsi candles exhaustionRsiPeriod
    return some
      { fired :=
          chop.lt s.maxChoppiness && belowAverage.gt s.minBelowAverage && strength.lt s.maxRsi
        choppiness := chop, belowAverage, rsi := strength }

/-! ### Volume that leads price -/

structure ObvLeadSettings where
  lookback : ℕ
  maxChoppiness : Decimal

def obvLeadSettings (raw : Option MomentumObvLead) : ObvLeadSettings where
  lookback := coerceInt (raw.bind (·.lookback)) maClusterChopPeriod 168
  maxChoppiness := coerceDec (raw.bind (·.maxChoppiness)) 50

structure ObvLeadReading where
  fired : Bool
  obvNewHigh : Bool
  priceToHigh : Decimal
  choppiness : Decimal

/-- One candle's step of on-balance volume: its volume, signed by the change of its close. -/
def obvStep (obv : Decimal) (step : (Decimal × Decimal) × Decimal) : Decimal :=
  let ((prev, cur), volume) := step
  if cur.gt prev then obv.add volume else if cur.lt prev then obv.sub volume else obv

/-- On-balance volume at a new high while the close is still under its own. -/
def obvLeadReading (candles : List Candle) (raw : Option MomentumObvLead) :
    Option (Option ObvLeadReading) :=
  let s := obvLeadSettings raw
  if candles.length < s.lookback + 1 then some none
  else do
    let w := lastCandles candles (s.lookback + 1)
    let cs ← closes w
    let volumes ← w.tail.mapM fun c => parse c.volume
    let obv := ((cs.zip cs.tail).zip volumes).scanl obvStep (num 0)
    let priorObvHigh ← maxOf obv.dropLast
    let priorCloseHigh ← maxOf cs.dropLast
    let close ← cs.getLast?
    let judged ← obv.getLast?
    let obvNewHigh := judged.gt priorObvHigh
    let priceToHigh := (priorCloseHigh.div close).sub (num 1)
    let chop ← choppiness candles
    return some
      { fired := obvNewHigh && priceToHigh.gt (num 0) && chop.lt s.maxChoppiness
        obvNewHigh, priceToHigh, choppiness := chop }

/-! ### The weekend gap -/

def hourMs : ℤ := 3600000

def dayMs : ℤ := 24 * hourMs

def weekMs : ℤ := 7 * dayMs

/-- The epoch fell on a Thursday, three days after a Monday. -/
def msSinceMondayUtc (openTimeMs : ℤ) : ℤ := (openTimeMs + 3 * dayMs).tmod weekMs

def sundayOpenOffsetMs : ℤ := 6 * dayMs + 22 * hourMs

def fridayLeadMs : ℤ := 50 * hourMs

structure WeekendGapSettings where
  minGap : Decimal
  maxHoldBars : ℕ

def weekendGapSettings (raw : Option MomentumWeekendGap) : WeekendGapSettings where
  minGap := coerceDec (raw.bind (·.minGap)) (1 / 100)
  maxHoldBars := coerceInt (raw.bind (·.maxHoldBars)) 1 72

structure WeekendGapReading where
  isEntryCandle : Bool
  refClose : Option String
  gapPercent : Option Decimal
  fired : Bool
deriving DecidableEq

/-- The Sunday reopening candle closing under the Friday close; hourly candles only. -/
def weekendGapReading (candles : List Candle) (config : MomentumConfig) :
    Option (Option WeekendGapReading) :=
  if config.candleInterval ≠ .h1 then some none
  else
    match candles.getLast?.filter (fun last =>
        msSinceMondayUtc last.openTimeMs == sundayOpenOffsetMs) with
    | none =>
        some (some { isEntryCandle := false, refClose := none, gapPercent := none, fired := false })
    | some last =>
        match candles.find? (·.openTimeMs == last.openTimeMs - fridayLeadMs) with
        | none =>
            some (some
              { isEntryCandle := true, refClose := none, gapPercent := none, fired := false })
        | some ref => do
            let refClose ← parse ref.close
            let close ← parse last.close
            let minGap := (weekendGapSettings config.weekendGap).minGap
            return some
              { isEntryCandle := true
                refClose := some ref.close
                gapPercent := some (((refClose.sub close).div refClose).mul (num 100))
                fired := close.lt (refClose.mul ((num 1).sub minGap)) }

/-- The Friday close a weekend-gap position is held for, while its candle is in the window. -/
def weekendGapTarget (candles : List Candle) (lastEntryCandleMs : ℤ) : Option (Option Decimal) :=
  match candles.find? (·.openTimeMs == lastEntryCandleMs + 1 - hourMs - fridayLeadMs) with
  | none => some none
  | some ref => (parse ref.close).map some

end TradingBot.Momentum
