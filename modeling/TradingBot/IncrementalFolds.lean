import TradingBot.Incremental
import TradingBot.Lib.Trailing

/-!
# Range and band indicators, folded

The indicators that read more of a candle than its close, or keep more than one
running figure: the average true range, the bands, the directional index and the
stochastic. Each is seeded by walking a window, and one more candle takes the
seed of a window to the seed of the window one candle longer.
-/

namespace TradingBot

open Decimal Trailing

variable {S V B : Type}

/-! ### Indicators with values of their own -/

/-- An indicator that needs `minWindow` candles and shows a value `V`. -/
structure ValuedIndicator (S V B : Type) where
  minWindow : ℕ
  initFromWindow : CandleWindow → Option S
  currentValue : S → V
  update : S → Candle → Option (S × V)
  serialize : S → B
  deserialize : B → Option S

def IncrementalIndicator.valued (ind : IncrementalIndicator S B) (minWindow : ℕ) :
    ValuedIndicator S Decimal B where
  minWindow := minWindow
  initFromWindow := ind.initFromWindow
  currentValue := ind.currentValue
  update := ind.update
  serialize := ind.serialize
  deserialize := ind.deserialize

/-- The states an indicator hands out. -/
inductive ValuedIndicator.Reached (ind : ValuedIndicator S V B) : S → Prop
  | seeded {w : CandleWindow} {state : S} : ind.initFromWindow w = some state → ind.Reached state
  | updated {state after : S} {next : Candle} {value : V} :
      ind.Reached state → ind.update state next = some (after, value) → ind.Reached after

/-! ### Bars -/

/-- The figures of a candle an indicator reads. -/
structure Bar where
  high : Decimal
  low : Decimal
  close : Decimal
deriving DecidableEq

def readBar (candle : Candle) : Option Bar := do
  return ⟨← parse candle.high, ← parse candle.low, ← parse candle.close⟩

def readBars (w : CandleWindow) : Option (List Bar) := w.mapM readBar

/-- The prices of the candle read as numbers. -/
def Quoted (candle : Candle) : Prop :=
  ∃ high low close : ℚ, readBar candle = some ⟨num high, num low, num close⟩

def trueRange (high low prevClose : Decimal) : Decimal :=
  dmax (high.sub low) (dmax (dabs (high.sub prevClose)) (dabs (low.sub prevClose)))

/-! ### The average true range -/

/-- The smoothed range, and the close that the next range is taken from. -/
structure ATRState where
  value : Decimal
  prevClose : Decimal

structure SerializedATR where
  value : DecimalString
  prevClose : DecimalString

def incrementalATR (period : ℕ) : IncrementalIndicator ATRState SerializedATR where
  initFromWindow w := do
    requirePeriod w (period + 1)
    let ranges ← trueRanges w
    let seed := ((ranges.take period).foldl Decimal.add (num 0)).div (num period)
    let last ← w.getLast?
    return ⟨(ranges.drop period).foldl (wilder period) seed, ← parse last.close⟩
  currentValue state := state.value
  update state next := do
    let bar ← readBar next
    let value := wilder period state.value (trueRange bar.high bar.low state.prevClose)
    return (⟨value, bar.close⟩, value)
  serialize state := ⟨.printed state.value, .printed state.prevClose⟩
  deserialize blob := do return ⟨← blob.value.toDecimal, ← blob.prevClose.toDecimal⟩

/-! ### The bands -/

/-- The last closes, oldest first, with their running sum and sum of squares. -/
structure BollingerState where
  ring : List Decimal
  sum : Decimal
  sumSq : Decimal

structure BollingerValue where
  middle : Decimal
  upper : Decimal
  lower : Decimal

structure SerializedBollinger where
  ring : List DecimalString
  sum : DecimalString
  sumSq : DecimalString

def wrapValue (middle stddev mult : Decimal) : BollingerValue :=
  let offset := mult.mul stddev
  ⟨middle, middle.add offset, middle.sub offset⟩

def BollingerState.bands (period : ℕ) (mult : Decimal) (state : BollingerState) : BollingerValue :=
  let middle := state.sum.div (num period)
  let variance := (state.sumSq.div (num period)).sub (middle.mul middle)
  -- lost digits can take the variance of near-identical closes under zero
  let variance := if variance.lt (num 0) then num 0 else variance
  wrapValue middle variance.sqrt mult

def incrementalBollinger (period : ℕ) (mult : Decimal) :
    ValuedIndicator BollingerState BollingerValue SerializedBollinger where
  minWindow := period
  initFromWindow w := do
    requirePeriod w period
    let ring ← closes (lastCandles w period)
    return {
      ring
      sum := ring.foldl Decimal.add (num 0)
      sumSq := ring.foldl (fun acc close => acc.add (close.mul close)) (num 0) }
  currentValue := BollingerState.bands period mult
  update state next := do
    let close ← parse next.close
    let oldest ← state.ring.head?
    let after : BollingerState :=
      { ring := state.ring.tail ++ [close]
        sum := (state.sum.sub oldest).add close
        sumSq := (state.sumSq.sub (oldest.mul oldest)).add (close.mul close) }
    return (after, BollingerState.bands period mult after)
  serialize state := ⟨state.ring.map .printed, .printed state.sum, .printed state.sumSq⟩
  deserialize blob := do
    if blob.ring.length ≠ period then none
    return ⟨← blob.ring.mapM (·.toDecimal), ← blob.sum.toDecimal, ← blob.sumSq.toDecimal⟩

/-! ### The directional index -/

/-- How far a bar reaches past the one before it, on the side it reaches further. -/
def directionalMoves (prev cur : Bar) : Decimal × Decimal :=
  let upMove := cur.high.sub prev.high
  let downMove := prev.low.sub cur.low
  (if upMove.gt downMove && upMove.gt (num 0) then upMove else num 0,
    if downMove.gt upMove && downMove.gt (num 0) then downMove else num 0)

/-- The three figures that are smoothed side by side. -/
structure Movement where
  tr : Decimal
  plusDM : Decimal
  minusDM : Decimal

def Movement.of (prev cur : Bar) : Movement :=
  let moves := directionalMoves prev cur
  ⟨trueRange cur.high cur.low prev.close, moves.1, moves.2⟩

def Movement.add (a b : Movement) : Movement :=
  ⟨a.tr.add b.tr, a.plusDM.add b.plusDM, a.minusDM.add b.minusDM⟩

/-- The smoothing of a running sum: a share of it leaves as the next value enters. -/
def smoothSum (period : ℕ) (sum next : Decimal) : Decimal :=
  (sum.sub (sum.div (num period))).add next

def Movement.smooth (period : ℕ) (a b : Movement) : Movement :=
  ⟨smoothSum period a.tr b.tr, smoothSum period a.plusDM b.plusDM,
    smoothSum period a.minusDM b.minusDM⟩

/-- The directional indicators: the share of each direction in the range. -/
def Movement.computeDIs (a : Movement) : Decimal × Decimal :=
  if a.tr = num 0 then (num 0, num 0)
  else ((a.plusDM.div a.tr).mul (num 100), (a.minusDM.div a.tr).mul (num 100))

def computeDX (plusDI minusDI : Decimal) : Decimal :=
  let sum := plusDI.add minusDI
  if sum = num 0 then num 0 else ((dabs (plusDI.sub minusDI)).div sum).mul (num 100)

def Movement.dx (a : Movement) : Decimal :=
  computeDX a.computeDIs.1 a.computeDIs.2

structure ADXState where
  smoothed : Movement
  adx : Decimal
  prev : Bar

structure ADXValue where
  adx : Decimal
  plusDI : Decimal
  minusDI : Decimal

structure SerializedADX where
  smoothedTR : DecimalString
  smoothedPlusDM : DecimalString
  smoothedMinusDM : DecimalString
  adx : DecimalString
  prevHigh : DecimalString
  prevLow : DecimalString
  prevClose : DecimalString

def ADXState.value (state : ADXState) : ADXValue :=
  ⟨state.adx, state.smoothed.computeDIs.1, state.smoothed.computeDIs.2⟩

def ADXState.next (period : ℕ) (state : ADXState) (bar : Bar) : ADXState :=
  let smoothed := state.smoothed.smooth period (.of state.prev bar)
  ⟨smoothed, wilder period state.adx smoothed.dx, bar⟩

/-- The second walk of the seed: the index itself is the mean of its first values. -/
structure ADXSeed where
  state : ADXState
  dxSum : Decimal
  dxCount : ℕ

def ADXSeed.step (period : ℕ) (seed : ADXSeed) (bar : Bar) : ADXSeed :=
  if seed.dxCount < period then
    let smoothed := seed.state.smoothed.smooth period (.of seed.state.prev bar)
    let dxSum := seed.dxSum.add smoothed.dx
    let dxCount := seed.dxCount + 1
    let adx := if dxCount = period then dxSum.div (num period) else seed.state.adx
    ⟨⟨smoothed, adx, bar⟩, dxSum, dxCount⟩
  else { seed with state := seed.state.next period bar }

/-- The sums over the first bars. -/
def firstMovement (bars : List Bar) : Movement :=
  ((neighbours bars).map fun (prev, cur) => Movement.of prev cur).foldl Movement.add
    ⟨num 0, num 0, num 0⟩

def incrementalADX (period : ℕ) : ValuedIndicator ADXState ADXValue SerializedADX where
  minWindow := 2 * period + 1
  initFromWindow w := do
    requirePeriod w (2 * period + 1)
    let bars ← readBars w
    let prev ← bars[period]?
    let start := ⟨⟨firstMovement (bars.take (period + 1)), num 0, prev⟩, num 0, 0⟩
    return ((bars.drop (period + 1)).foldl (ADXSeed.step period) start).state
  currentValue := ADXState.value
  update state next := do
    let bar ← readBar next
    let after := state.next period bar
    return (after, after.value)
  serialize state :=
    { smoothedTR := .printed state.smoothed.tr
      smoothedPlusDM := .printed state.smoothed.plusDM
      smoothedMinusDM := .printed state.smoothed.minusDM
      adx := .printed state.adx
      prevHigh := .printed state.prev.high
      prevLow := .printed state.prev.low
      prevClose := .printed state.prev.close }
  deserialize blob := do
    let smoothed := ⟨← blob.smoothedTR.toDecimal, ← blob.smoothedPlusDM.toDecimal,
      ← blob.smoothedMinusDM.toDecimal⟩
    let adx ← blob.adx.toDecimal
    let prev := ⟨← blob.prevHigh.toDecimal, ← blob.prevLow.toDecimal, ← blob.prevClose.toDecimal⟩
    return ⟨smoothed, adx, prev⟩

/-! ### The stochastic -/

/-- The last highs, lows and raw readings, oldest first. -/
structure StochasticState where
  highRing : List Decimal
  lowRing : List Decimal
  kRing : List Decimal

structure SerializedStochastic where
  highRing : List DecimalString
  lowRing : List DecimalString
  kRing : List DecimalString

def ringMax : List Decimal → Decimal
  | [] => nan
  | d :: ds => ds.foldl (fun best d => dmax d best) d

def ringMin : List Decimal → Decimal
  | [] => nan
  | d :: ds => ds.foldl (fun best d => dmin d best) d

/-- Where the close stands in the range of the rings; the middle of a flat one. -/
def rawK (close : Decimal) (highRing lowRing : List Decimal) : Decimal :=
  let hi := ringMax highRing
  let lo := ringMin lowRing
  let range := hi.sub lo
  if range = num 0 then num 50 else ((close.sub lo).div range).mul (num 100)

def smoothedK (kRing : List Decimal) : Decimal :=
  (kRing.foldl Decimal.add (num 0)).div (num kRing.length)

def StochasticState.seedStep (period smoothK : ℕ) (state : StochasticState) (bar : Bar) :
    StochasticState :=
  let highRing := push period state.highRing bar.high
  let lowRing := push period state.lowRing bar.low
  { highRing, lowRing
    kRing := if highRing.length = period
      then push smoothK state.kRing (rawK bar.close highRing lowRing) else state.kRing }

def incrementalStochastic (period smoothK : ℕ) :
    ValuedIndicator StochasticState Decimal SerializedStochastic where
  minWindow := period + smoothK - 1
  initFromWindow w := do
    requirePeriod w (period + smoothK - 1)
    let bars ← readBars (lastCandles w (period + smoothK - 1))
    return bars.foldl (StochasticState.seedStep period smoothK) ⟨[], [], []⟩
  currentValue state := smoothedK state.kRing
  update state next := do
    let bar ← readBar next
    let highRing := state.highRing.tail ++ [bar.high]
    let lowRing := state.lowRing.tail ++ [bar.low]
    let kRing := state.kRing.tail ++ [rawK bar.close highRing lowRing]
    return (⟨highRing, lowRing, kRing⟩, smoothedK kRing)
  serialize state :=
    ⟨state.highRing.map .printed, state.lowRing.map .printed, state.kRing.map .printed⟩
  deserialize blob := do
    if blob.highRing.length ≠ period ∨ blob.lowRing.length ≠ period ∨
        blob.kRing.length ≠ smoothK then none
    return ⟨← blob.highRing.mapM (·.toDecimal), ← blob.lowRing.mapM (·.toDecimal),
      ← blob.kRing.mapM (·.toDecimal)⟩

end TradingBot
