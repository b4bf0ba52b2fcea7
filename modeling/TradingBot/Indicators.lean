import TradingBot.Core.Contract

/-!
# Indicators

Moving averages, deviation and true range over a window of candles. The source
throws on a window shorter than the period and on a field that does not parse;
here both are `none`.
-/

namespace TradingBot

open Decimal

abbrev CandleWindow := List Candle

inductive MaKind where
  | sma
  | ema

def MaKind.text : MaKind → String
  | sma => "sma"
  | ema => "ema"

def dmax (a b : Decimal) : Decimal := if a.gt b then a else b

def dmin (a b : Decimal) : Decimal := if a.lt b then a else b

def dabs (a : Decimal) : Decimal := if a.lt (num 0) then a.neg else a

/-- The lowest `low` across the window. -/
def lowestLow (w : CandleWindow) : Option Decimal := do
  match ← w.mapM fun c => parse c.low with
  | [] => none
  | low :: lows => return lows.foldl dmin low

/-- The highest `high` across the window. -/
def highestHigh (w : CandleWindow) : Option Decimal := do
  match ← w.mapM fun c => parse c.high with
  | [] => none
  | high :: highs => return highs.foldl dmax high

def lastCandles (w : CandleWindow) (n : ℕ) : CandleWindow := w.drop (w.length - n)

def closes (w : CandleWindow) : Option (List Decimal) := w.mapM fun c => parse c.close

def requirePeriod (w : CandleWindow) (period : ℕ) : Option Unit :=
  if period = 0 ∨ w.length < period then none else some ()

def sma (w : CandleWindow) (period : ℕ) : Option Decimal := do
  requirePeriod w period
  let cs ← closes (lastCandles w period)
  return (cs.foldl Decimal.add (num 0)).div (num period)

def stddev (w : CandleWindow) (period : ℕ) : Option Decimal := do
  requirePeriod w period
  let mean ← sma w period
  let cs ← closes (lastCandles w period)
  let sumSq := cs.foldl (fun acc c => acc.add ((c.sub mean).mul (c.sub mean))) (num 0)
  return (sumSq.div (num period)).sqrt

def ema (w : CandleWindow) (period : ℕ) : Option Decimal := do
  requirePeriod w period
  let k := (num 2).div (num (period + 1))
  let seed ← sma (w.take period) period
  let cs ← closes (w.drop period)
  return cs.foldl (fun value c => ((c.sub value).mul k).add value) seed

/-- One step of Wilder's smoothing over `period` values. -/
def wilder (period : ℕ) (value next : Decimal) : Decimal :=
  ((value.mul (num (period - 1))).add next).div (num period)

/-- The change of each close from the one before it. -/
def closeDeltas (w : CandleWindow) : Option (List Decimal) := do
  let cs ← closes w
  return (cs.zip cs.tail).map fun (prev, cur) => cur.sub prev

/-- The gain in a change of price. -/
def gainOf (delta : Decimal) : Decimal := if delta.gt (num 0) then delta else num 0

/-- The loss in a change of price. -/
def lossOf (delta : Decimal) : Decimal := if delta.lt (num 0) then delta.neg else num 0

def rsi (w : CandleWindow) (period : ℕ) : Option Decimal := do
  requirePeriod w (period + 1)
  let deltas ← closeDeltas w
  let seed := deltas.take period
  -- while seeding, a change that is no gain is summed as a loss whatever it is
  let gains := (seed.filter (·.gt (num 0))).foldl Decimal.add (num 0)
  let losses := (seed.filter (!·.gt (num 0))).foldl (fun acc d => acc.add d.neg) (num 0)
  let rest := deltas.drop period
  let avgGain := rest.foldl (fun v d => wilder period v (gainOf d)) (gains.div (num period))
  let avgLoss := rest.foldl (fun v d => wilder period v (lossOf d)) (losses.div (num period))
  return if avgLoss = num 0 then num 100
    else (num 100).sub ((num 100).div ((avgGain.div avgLoss).add (num 1)))

/-- The true range of each candle after the first. -/
def trueRanges : CandleWindow → Option (List Decimal)
  | prev :: cur :: rest => do
      let high ← parse cur.high
      let low ← parse cur.low
      let prevClose ← parse prev.close
      let range :=
        dmax (high.sub low) (dmax (dabs (high.sub prevClose)) (dabs (low.sub prevClose)))
      let ranges ← trueRanges (cur :: rest)
      return range :: ranges
  | _ => some []

def atr (w : CandleWindow) (period : ℕ) : Option Decimal := do
  requirePeriod w (period + 1)
  let ranges ← trueRanges w
  let seed := ((ranges.take period).foldl Decimal.add (num 0)).div (num period)
  return (ranges.drop period).foldl (wilder period) seed

end TradingBot
