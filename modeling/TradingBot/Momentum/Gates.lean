import TradingBot.Momentum.Readings

/-!
# Entry gates

What may veto an entry its trigger asked for: the macro trend line, the ceiling
above a baseline, and the rank among the profile's other symbols. Every gate is
closed while its window is too short, under a reason of its own. The score a
symbol ranks by is published to the profile's key-value store once per candle.
-/

namespace TradingBot.Momentum

open Decimal

/-! ### The macro trend line -/

inductive TrendGate where
  | pass
  | belowTrend
  | aboveTrend
  | fallingTrend
  | insufficientHistory
deriving DecidableEq

def trendPeriod (raw : Option ℤ) : ℕ := coerceInt raw 2 200

def trendLine (maType : Option MaKind) (candles : List Candle) (period : ℕ) : Option Decimal :=
  match maType with
  | some .ema => ema candles period
  | _ => sma candles period

/-- Whether the line itself has to rise; a sleeve that buys under the line does not ask. -/
def MomentumTrendFilter.rising (filter : MomentumTrendFilter) : Bool :=
  filter.requireRising && filter.side ≠ some .below

/-- How many candles back the slope of the line is measured. -/
def MomentumTrendFilter.slope (filter : MomentumTrendFilter) : ℕ :=
  if filter.rising then coerceInt (some (filter.slopeLookbackBars.getD 10)) 1 1 else 0

/-- The macro trend gate: strict on both sides, so a price on the line enters neither sleeve. -/
def trendGate (config : MomentumConfig) (candles : List Candle) (currentPrice : String) :
    Option TrendGate :=
  match config.trendFilter.filter (·.enabled) with
  | none => some .pass
  | some tf =>
      let period := trendPeriod tf.period
      if candles.length < period + tf.slope then some .insufficientHistory
      else do
        let line ← trendLine tf.maType candles period
        let price ← parse currentPrice
        if tf.side = some .below ∧ price.gte line = true then return .aboveTrend
        else if tf.side ≠ some .below ∧ price.lte line = true then return .belowTrend
        else if tf.rising then
          let prevLine ← trendLine tf.maType (candles.take (candles.length - tf.slope)) period
          return if line.lte prevLine then .fallingTrend else .pass
        else return .pass

/-- Whether the price is on or under the filter's line, whether or not the filter gates entries. -/
def underTrendLine (config : MomentumConfig) (candles : List Candle) (currentPrice : String) :
    Option Bool :=
  let period := trendPeriod (config.trendFilter.bind (·.period))
  if candles.length < period then some false
  else do
    let price ← parse currentPrice
    let line ← trendLine (config.trendFilter.bind (·.maType)) candles period
    return price.lte line

/-- The below-trend layer's choppiness gate; closed on a window too short to measure. -/
def belowTrendCalm (block : MomentumBelowTrendBreakout) (candles : List Candle) : Option Bool :=
  match maClusterMaxChoppiness block.maxChoppiness with
  | none => some true
  | some ceiling =>
      if maClusterChopPeriod < candles.length then (choppiness candles).map (·.lt ceiling)
      else some false

/-! ### The ceiling above a baseline -/

inductive ExtensionGate where
  | pass
  | overextended
  | extensionInsufficientHistory

def extensionPeriod (raw : Option ℤ) : ℕ := coerceInt raw 2 50

def extensionMaxPercent (raw : Option String) : Decimal := coerceDec raw (2 / 5)

def extensionGate (config : MomentumConfig) (candles : List Candle) (currentPrice : String) :
    Option ExtensionGate :=
  match config.entryExtension.filter (·.enabled) with
  | none => some .pass
  | some ext =>
      let period := extensionPeriod ext.period
      if candles.length < period then some .extensionInsufficientHistory
      else do
        let line ← trendLine ext.maType candles period
        let ceiling := line.mul ((num 1).add (extensionMaxPercent ext.maxPercent))
        let price ← parse currentPrice
        return if price.gt ceiling then .overextended else .pass

/-! ### Relative strength -/

def relativeStrengthKvPrefix : String := "momentum:relative-strength:"

/-- The floor under the deviation of a perfectly steady riser. -/
def sdFloor : Decimal := num (1 / 10 ^ 12)

structure RelativeStrengthSettings where
  enabled : Bool
  lookbackBars : ℕ
  topK : ℕ

def relativeStrengthSettings (raw : Option MomentumRelativeStrength) :
    RelativeStrengthSettings where
  enabled := raw.any (·.enabled)
  lookbackBars := coerceInt (raw.bind (·.lookbackBars)) 2 720
  topK := coerceInt (raw.bind (·.topK)) 1 3

def relativeStrengthNeed (raw : Option MomentumRelativeStrength) : ℕ :=
  let s := relativeStrengthSettings raw
  if s.enabled then s.lookbackBars + 1 else 0

/-- The sum of a list, as the library folds it. -/
def sumOf (ds : List Decimal) : Decimal := ds.foldl Decimal.add (num 0)

/-- The returns between neighbouring closes, unless one of their bases is not positive. -/
def candleReturns : List Candle → Option (Option (List Decimal))
  | prev :: cur :: rest => do
      let base ← parse prev.close
      if !base.gt (num 0) then return none
      else
        let close ← parse cur.close
        let returns ← candleReturns (cur :: rest)
        return returns.map (((close.div base).sub (num 1)) :: ·)
  | _ => some (some [])

/-- The mean of some returns over their deviation. -/
def returnsScore (returns : List Decimal) (lookbackBars : ℕ) : Decimal :=
  let mean := (sumOf returns).div (num lookbackBars)
  let variance :=
    (sumOf (returns.map fun r => (r.sub mean).mul (r.sub mean))).div (num lookbackBars)
  let sd := variance.sqrt
  mean.div (if sd.gt sdFloor then sd else sdFloor)

/-- A symbol's risk-adjusted trend, where its window is long enough. -/
def relativeStrengthScore (candles : List Candle) (lookbackBars : ℕ) : Option (Option Decimal) :=
  if candles.length < lookbackBars + 1 then some none
  else do
    let returns ← candleReturns (lastCandles candles (lookbackBars + 1))
    return returns.map (returnsScore · lookbackBars)

/-- A published score, with the candle and the lookback it was computed for. -/
structure Published where
  score : Decimal
  candleCloseMs : ℤ
  lookbackBars : ℤ

/-- A score field of a stored record, read back as the number its text spells. -/
def DetailValue.score : DetailValue → Option Decimal
  | .text s => parse s
  | .decimal d => d.toDecimal
  | _ => none

def DetailValue.number : DetailValue → Option ℤ
  | .int n => some n
  | _ => none

/-- A stored record as a published score, or nothing where it is not a well-formed one. -/
def readPublished (value : Detail) : Option Published := do
  let score ← ((value.lookup "score").bind DetailValue.score).filter (·.isFinite)
  let candleCloseMs ← (value.lookup "candleCloseMs").bind DetailValue.number
  let lookbackBars ← (value.lookup "lookbackBars").bind DetailValue.number
  return { score, candleCloseMs, lookbackBars }

/-- The stored score of a symbol, while it is still its score on these candles. -/
def currentPublished (candles : List Candle) (lookbackBars : ℕ) (stored : Option Detail) :
    Option Decimal := do
  let published ← stored.bind readPublished
  let last ← candles.getLast?
  if published.candleCloseMs = last.closeTimeMs ∧ published.lookbackBars = lookbackBars ∧
      lookbackBars + 1 ≤ candles.length then return published.score
  else none

/-- What a tick writes to the profile's key-value store. -/
inductive KvWrite where
  | set (key : String) (published : Published)
  | delete (key : String)

/-- The write that keeps a symbol's published score current, once per closed candle. -/
def relativeStrengthPublish (candles : List Candle) (raw : Option MomentumRelativeStrength)
    (symbol : String) (profileKv : Option ProfileKv) : Option (Option KvWrite) :=
  let s := relativeStrengthSettings raw
  match candles.getLast? with
  | none => some none
  | some last =>
      if !s.enabled then some none
      else
        let key := relativeStrengthKvPrefix ++ symbol
        let current := profileKv.bind (·.lookup key)
        match currentPublished candles s.lookbackBars current with
        | some _ => some none
        | none => do
            match ← relativeStrengthScore candles s.lookbackBars with
            | none => return if current.isNone then none else some (.delete key)
            | some score => return some (.set key ⟨score, last.closeTimeMs, s.lookbackBars⟩)

inductive StrengthGate where
  | pass
  | relativeStrength
  | relativeStrengthInsufficientHistory

structure RelativeStrengthReading where
  gate : StrengthGate
  score : Option Decimal
  rank : ℕ
  siblings : ℕ

/-- The published scores of the other symbols that may still be compared. -/
def strengthSiblings (profileKv : ProfileKv) (symbol : String) (oldest : ℤ) (lookbackBars : ℕ) :
    List Published :=
  profileKv.filterMap fun (key, value) =>
    if key.startsWith relativeStrengthKvPrefix ∧ key ≠ relativeStrengthKvPrefix ++ symbol then
      (readPublished value).filter fun sib =>
        decide (oldest ≤ sib.candleCloseMs) && decide (sib.lookbackBars = lookbackBars)
    else none

/-- The score a symbol ranks by: the stored one, while it is its score on these candles. -/
def ownScore (candles : List Candle) (lookbackBars : ℕ) (symbol : String)
    (profileKv : Option ProfileKv) : Option (Option Decimal) :=
  match currentPublished candles lookbackBars
      (profileKv.bind (·.lookup (relativeStrengthKvPrefix ++ symbol))) with
  | some score => some (some score)
  | none => relativeStrengthScore candles lookbackBars

/-- The rank gate: only the strongest of the profile's symbols may buy. -/
def relativeStrengthGate (candles : List Candle) (raw : Option MomentumRelativeStrength)
    (symbol : String) (profileKv : Option ProfileKv) : Option RelativeStrengthReading :=
  let s := relativeStrengthSettings raw
  if !s.enabled then some ⟨.pass, none, 0, 0⟩
  else do
    match ← ownScore candles s.lookbackBars symbol profileKv with
    | none => return ⟨.relativeStrengthInsufficientHistory, none, 0, 0⟩
    | some score =>
        -- one candle of slack: a sibling may not have ticked on this candle yet
        let before ← candles.dropLast.getLast?
        let siblings :=
          strengthSiblings (profileKv.getD []) symbol before.closeTimeMs s.lookbackBars
        let rank := (siblings.filter (·.score.gt score)).length
        return {
          gate := if rank < s.topK then .pass else .relativeStrength
          score := some score, rank, siblings := siblings.length }

end TradingBot.Momentum
