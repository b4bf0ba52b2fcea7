import Mathlib.Algebra.BigOperators.Group.List.Basic
import Mathlib.Algebra.Order.Field.Rat
import Mathlib.Tactic.Ring
import TradingBot.Indicators

/-!
# Incremental indicators

Each indicator keeps just enough state to fold the next closed candle. Seeding
from a window and folding candles after it gives what the full-window form gives
on the window with the candles behind it. Where the source throws, `none`.
-/

namespace TradingBot

open Decimal

variable {S B : Type}

/-- An indicator with its state `S` and the blob `B` it is persisted as. -/
structure IncrementalIndicator (S B : Type) where
  initFromWindow : CandleWindow → Option S
  currentValue : S → Decimal
  update : S → Candle → Option (S × Decimal)
  serialize : S → B
  deserialize : B → Option S

/-! ### The moving average -/

/-- The last closes, oldest first, and their running sum. -/
structure SMAState where
  ring : List Decimal
  sum : Decimal
deriving DecidableEq

structure SerializedSMA where
  ring : List DecimalString
  sum : DecimalString

def incrementalSMA (period : ℕ) : IncrementalIndicator SMAState SerializedSMA where
  initFromWindow w := do
    requirePeriod w period
    let ring ← closes (lastCandles w period)
    return ⟨ring, ring.foldl Decimal.add (num 0)⟩
  currentValue state := state.sum.div (num period)
  update state next := do
    let close ← parse next.close
    let oldest ← state.ring.head?
    let sum := (state.sum.sub oldest).add close
    return (⟨state.ring.tail ++ [close], sum⟩, sum.div (num period))
  serialize state := ⟨state.ring.map .printed, .printed state.sum⟩
  deserialize blob := do
    if blob.ring.length ≠ period then none
    return ⟨← blob.ring.mapM (·.toDecimal), ← blob.sum.toDecimal⟩

/-! ### The exponential moving average -/

structure EMAState where
  value : Decimal
deriving DecidableEq

structure SerializedEMA where
  value : DecimalString

def emaStep (period : ℕ) (value close : Decimal) : Decimal :=
  ((close.sub value).mul ((num 2).div (num (period + 1)))).add value

def incrementalEMA (period : ℕ) : IncrementalIndicator EMAState SerializedEMA where
  initFromWindow w := do
    requirePeriod w period
    let first ← closes (w.take period)
    let rest ← closes (w.drop period)
    return ⟨rest.foldl (emaStep period) ((first.foldl Decimal.add (num 0)).div (num period))⟩
  currentValue state := state.value
  update state next := do
    let close ← parse next.close
    let value := emaStep period state.value close
    return (⟨value⟩, value)
  serialize state := ⟨.printed state.value⟩
  deserialize blob := do return ⟨← blob.value.toDecimal⟩

/-! ### The relative strength index -/

/-- The smoothed gains and losses, and the close that the next change is taken from. -/
structure RSIState where
  avgGain : Decimal
  avgLoss : Decimal
  prevClose : Decimal
deriving DecidableEq

structure SerializedRSI where
  avgGain : DecimalString
  avgLoss : DecimalString
  prevClose : DecimalString

def rsiValue (avgGain avgLoss : Decimal) : Decimal :=
  if avgLoss = num 0 then num 100
  else (num 100).sub ((num 100).div ((avgGain.div avgLoss).add (num 1)))

/-- The averages that a change of the close leads to. -/
def RSIState.smooth (period : ℕ) (averages : Decimal × Decimal) (delta : Decimal) :
    Decimal × Decimal :=
  (wilder period averages.1 (gainOf delta), wilder period averages.2 (lossOf delta))

/-- The arithmetic means that the smoothing starts from. -/
def RSIState.seed (period : ℕ) (deltas : List Decimal) : Decimal × Decimal :=
  ((((deltas.filter (·.gt (num 0))).foldl Decimal.add (num 0)).div (num period)),
    (((deltas.filter (!·.gt (num 0))).foldl (fun acc d => acc.add d.neg) (num 0)).div (num period)))

def incrementalRSI (period : ℕ) : IncrementalIndicator RSIState SerializedRSI where
  initFromWindow w := do
    requirePeriod w (period + 1)
    let deltas ← closeDeltas w
    let seed := RSIState.seed period (deltas.take period)
    let (avgGain, avgLoss) := (deltas.drop period).foldl (RSIState.smooth period) seed
    let last ← w.getLast?
    return ⟨avgGain, avgLoss, ← parse last.close⟩
  currentValue state := rsiValue state.avgGain state.avgLoss
  update state next := do
    let close ← parse next.close
    let (avgGain, avgLoss) :=
      RSIState.smooth period (state.avgGain, state.avgLoss) (close.sub state.prevClose)
    return (⟨avgGain, avgLoss, close⟩, rsiValue avgGain avgLoss)
  serialize state := ⟨.printed state.avgGain, .printed state.avgLoss, .printed state.prevClose⟩
  deserialize blob := do
    return ⟨← blob.avgGain.toDecimal, ← blob.avgLoss.toDecimal, ← blob.prevClose.toDecimal⟩

/-! ### Folding candles -/

/-- Folding candles one after the other. -/
def IncrementalIndicator.fold (ind : IncrementalIndicator S B) (state : S)
    (candles : List Candle) : Option S :=
  candles.foldlM (fun state next => (ind.update state next).map Prod.fst) state

def IncrementalIndicator.folded (ind : IncrementalIndicator S B) (seed : CandleWindow)
    (since : List Candle) : Option S := do
  ind.fold (← ind.initFromWindow seed) since

/-- The close of the candle reads as a number. -/
def Priced (candle : Candle) : Prop := ∃ close, parse candle.close = some (num close)

/-- The incremental form agrees with the full-window one. -/
structure IncrementalIndicator.Mirrors (ind : IncrementalIndicator S B)
    (full : CandleWindow → Option Decimal) : Prop where
  seeded : ∀ w, (ind.initFromWindow w).map ind.currentValue = full w
  folds : ∀ {w next state}, (∀ c ∈ w ++ [next], Priced c) → ind.initFromWindow w = some state →
    ∃ after, ind.update state next = some (after, ind.currentValue after) ∧
      ind.initFromWindow (w ++ [next]) = some after
  reads_back : ∀ {w state}, ind.initFromWindow w = some state →
    ind.deserialize (ind.serialize state) = some state

section Folding

variable {ind : IncrementalIndicator S B} {full : CandleWindow → Option Decimal}
variable {seed : CandleWindow} {since : List Candle} {state : S}

theorem IncrementalIndicator.folded_concat (next : Candle) :
    ind.folded seed (since ++ [next]) =
      (ind.folded seed since).bind fun state => (ind.update state next).map Prod.fst := by
  rw [folded, folded]
  cases ind.initFromWindow seed with
  | none => rfl
  | some state =>
      simp only [Option.bind_eq_bind, Option.bind_some, fold, List.foldlM_append]
      congr 1
      funext state
      simp

theorem IncrementalIndicator.Mirrors.initFromWindow_append (h : ind.Mirrors full)
    (hpriced : ∀ c ∈ seed ++ since, Priced c) (hfolded : ind.folded seed since = some state) :
    ind.initFromWindow (seed ++ since) = some state := by
  induction since using List.reverseRecOn generalizing state with
  | nil => simpa [folded, fold] using hfolded
  | append_singleton since next ih =>
      rw [← List.append_assoc] at hpriced ⊢
      rw [folded_concat] at hfolded
      obtain ⟨before, hbefore, hnext⟩ := Option.bind_eq_some_iff.mp hfolded
      have hinit := ih (fun c hc => hpriced c (List.mem_append_left _ hc)) hbefore
      obtain ⟨after, hupdate, hafter⟩ := h.folds hpriced hinit
      rw [hupdate] at hnext
      cases hnext
      exact hafter

theorem IncrementalIndicator.Mirrors.currentValue_folded (h : ind.Mirrors full)
    (hpriced : ∀ c ∈ seed ++ since, Priced c) (hfolded : ind.folded seed since = some state) :
    full (seed ++ since) = some (ind.currentValue state) := by
  rw [← h.seeded, h.initFromWindow_append hpriced hfolded, Option.map_some]

end Folding

section Closes

variable {w : CandleWindow} {next : Candle} {period : ℕ}

theorem closes_append (v w : CandleWindow) :
    closes (v ++ w) = (do return (← closes v) ++ (← closes w)) :=
  List.mapM_append

theorem closes_singleton : closes [next] = (parse next.close).map fun close => [close] := by
  rw [closes, List.mapM_cons, List.mapM_nil]
  cases parse next.close <;> rfl

theorem closes_length {cs : List Decimal} (h : closes w = some cs) : cs.length = w.length := by
  induction w generalizing cs with
  | nil =>
      cases h
      rfl
  | cons candle rest ih =>
      rw [closes, List.mapM_cons] at h
      simp only [Option.bind_eq_bind, Option.bind_eq_some_iff, Option.pure_def,
        Option.some.injEq] at h
      obtain ⟨close, -, cs, hrest, rfl⟩ := h
      rw [List.length_cons, List.length_cons, ih hrest]

theorem closes_priced (h : ∀ c ∈ w, Priced c) :
    ∃ qs : List ℚ, qs.length = w.length ∧ closes w = some (qs.map num) := by
  induction w with
  | nil => exact ⟨[], rfl, rfl⟩
  | cons candle rest ih =>
      obtain ⟨close, hclose⟩ := h candle List.mem_cons_self
      obtain ⟨qs, hlength, hqs⟩ := ih fun c hc => h c (List.mem_cons_of_mem _ hc)
      refine ⟨close :: qs, by simp [hlength], ?_⟩
      rw [closes] at hqs ⊢
      rw [List.mapM_cons, hclose, hqs]
      rfl

theorem closes_tail {cs : List Decimal} (h : closes w = some cs) :
    closes w.tail = some cs.tail := by
  cases w with
  | nil =>
      cases h
      rfl
  | cons candle rest =>
      rw [closes, List.mapM_cons] at h
      simp only [Option.bind_eq_bind, Option.bind_eq_some_iff, Option.pure_def,
        Option.some.injEq] at h
      obtain ⟨close, -, cs, hrest, rfl⟩ := h
      exact hrest

theorem closes_getLast? {cs : List Decimal} (h : closes w = some cs) :
    (w.getLast?.bind fun last => parse last.close) = cs.getLast? := by
  induction w using List.reverseRecOn generalizing cs with
  | nil =>
      cases h
      rfl
  | append_singleton rest last _ =>
      rw [closes_append, closes_singleton] at h
      simp only [Option.bind_eq_bind, Option.bind_eq_some_iff, Option.pure_def,
        Option.map_eq_some_iff, Option.some.injEq] at h
      obtain ⟨cs, -, -, ⟨close, hclose, rfl⟩, rfl⟩ := h
      rw [List.getLast?_concat, List.getLast?_concat, Option.bind_some, hclose]

theorem foldl_add_num (total : ℚ) (qs : List ℚ) :
    (qs.map num).foldl Decimal.add (num total) = num (total + qs.sum) := by
  induction qs generalizing total with
  | nil => simp
  | cons q qs ih => simp [ih, add_assoc]

theorem requirePeriod_eq_some :
    requirePeriod w period = some () ↔ 0 < period ∧ period ≤ w.length := by
  rw [requirePeriod, Option.ite_none_left_eq_some]
  simp [Nat.pos_iff_ne_zero]

theorem requirePeriod_append (h : requirePeriod w period = some ()) :
    requirePeriod (w ++ [next]) period = some () := by
  rw [requirePeriod_eq_some] at h ⊢
  rw [List.length_append]
  omega

theorem lastCandles_of_length (h : w.length = period) : lastCandles w period = w := by
  rw [lastCandles, h, Nat.sub_self, List.drop_zero]

theorem lastCandles_append (hpos : 0 < period) (h : period ≤ w.length) :
    lastCandles (w ++ [next]) period = (lastCandles w period).tail ++ [next] := by
  rw [lastCandles, lastCandles, List.tail_drop, List.length_append, List.length_singleton,
    List.drop_append_of_le_length (by omega)]
  congr 2
  omega

theorem lastCandles_length (h : period ≤ w.length) : (lastCandles w period).length = period := by
  rw [lastCandles, List.length_drop]
  omega

end Closes

/-! ### The indicators mirror the full-window forms -/

variable {period : ℕ}

theorem incrementalSMA_mirrors : (incrementalSMA period).Mirrors (sma · period) where
  seeded w := by
    simp only [incrementalSMA, sma]
    cases requirePeriod w period with
    | none => rfl
    | some _ => cases closes (lastCandles w period) <;> rfl
  folds {w next state} hpriced hstate := by
    simp only [incrementalSMA, Option.bind_eq_bind, Option.bind_eq_some_iff, Option.pure_def,
      Option.some.injEq] at hstate
    obtain ⟨⟨⟩, hperiod, ring, hring, rfl⟩ := hstate
    have hlater : requirePeriod (w ++ [next]) period = some () := requirePeriod_append hperiod
    obtain ⟨hpos, hle⟩ := requirePeriod_eq_some.mp hperiod
    obtain ⟨close, hclose⟩ := hpriced next (by simp)
    have hmember : ∀ c ∈ lastCandles w period, Priced c := fun c hc =>
      hpriced c (List.mem_append_left _ (List.mem_of_mem_drop hc))
    obtain ⟨qs, hlength, hqs⟩ := closes_priced hmember
    rw [lastCandles_length hle] at hlength
    rw [hqs] at hring
    cases hring
    cases qs with
    | nil => simp at hlength; omega
    | cons oldest rest =>
        -- the oldest close leaves the ring and the sum together
        have hnext : closes ((lastCandles w period).tail ++ [next]) =
            some (rest.map num ++ [num close]) := by
          rw [closes_append, closes_singleton, hclose, closes_tail hqs]
          rfl
        refine ⟨⟨rest.map num ++ [num close], num (rest.sum + close)⟩, ?_, ?_⟩
        · simp [incrementalSMA, hclose, foldl_add_num]
        · simp [incrementalSMA, hlater, lastCandles_append hpos hle, hnext, foldl_add_num]
  reads_back {w state} hstate := by
    simp only [incrementalSMA, Option.bind_eq_bind, Option.bind_eq_some_iff, Option.pure_def,
      Option.some.injEq] at hstate
    obtain ⟨⟨⟩, hperiod, ring, hring, rfl⟩ := hstate
    have hlength : ring.length = period := by
      rw [closes_length hring, lastCandles_length (requirePeriod_eq_some.mp hperiod).2]
    have hread : ring.mapM ((·.toDecimal) ∘ DecimalString.printed) = some ring := by
      show ring.mapM (pure : Decimal → Option Decimal) = _
      rw [List.mapM_pure, List.map_id']
      rfl
    simp [incrementalSMA, hlength, hread]

theorem incrementalEMA_mirrors : (incrementalEMA period).Mirrors (ema · period) where
  seeded w := by
    simp only [incrementalEMA, ema]
    cases hperiod : requirePeriod w period with
    | none => rfl
    | some _ =>
        obtain ⟨hpos, hle⟩ := requirePeriod_eq_some.mp hperiod
        have htake : (w.take period).length = period := by simpa using hle
        have hfirst : requirePeriod (w.take period) period = some () :=
          requirePeriod_eq_some.mpr ⟨hpos, htake.ge⟩
        simp only [Option.bind_eq_bind, Option.bind_some, sma, hfirst, lastCandles_of_length htake]
        cases closes (w.take period) with
        | none => rfl
        | some first => cases closes (w.drop period) <;> rfl
  folds {w next state} hpriced hstate := by
    simp only [incrementalEMA, Option.bind_eq_bind, Option.bind_eq_some_iff, Option.pure_def,
      Option.some.injEq] at hstate
    obtain ⟨⟨⟩, hperiod, first, hfirst, rest, hrest, rfl⟩ := hstate
    have hlater : requirePeriod (w ++ [next]) period = some () := requirePeriod_append hperiod
    obtain ⟨hpos, hle⟩ := requirePeriod_eq_some.mp hperiod
    obtain ⟨close, hclose⟩ := hpriced next (by simp)
    refine ⟨⟨emaStep period _ (num close)⟩, by simp [incrementalEMA, hclose]; rfl, ?_⟩
    simp [incrementalEMA, hlater, List.take_append_of_le_length hle,
      List.drop_append_of_le_length hle, hfirst, closes_append, hrest, closes_singleton, hclose]
  reads_back {w state} _ := rfl

/-- The change that one more close brings. -/
theorem deltas_append (cs : List Decimal) (prev close : Decimal) :
    ((cs ++ [prev, close]).zip (cs ++ [prev, close]).tail).map (fun (prev, cur) => cur.sub prev) =
      ((cs ++ [prev]).zip (cs ++ [prev]).tail).map (fun (prev, cur) => cur.sub prev) ++
        [close.sub prev] := by
  induction cs with
  | nil => rfl
  | cons first rest ih =>
      cases rest with
      | nil => rfl
      | cons second rest => exact congrArg (List.cons (second.sub first)) ih

theorem closeDeltas_append {w : CandleWindow} {next : Candle} {cs : List Decimal}
    {prev close : Decimal} (hcs : closes w = some (cs ++ [prev]))
    (hclose : parse next.close = some close) :
    closeDeltas (w ++ [next]) = (closeDeltas w).map (· ++ [close.sub prev]) := by
  have hnext : closes (w ++ [next]) = some (cs ++ [prev, close]) := by
    rw [closes_append, hcs, closes_singleton, hclose]
    simp
  rw [closeDeltas, hnext, closeDeltas, hcs]
  exact congrArg some (deltas_append cs prev close)

theorem closeDeltas_length {w : CandleWindow} {deltas : List Decimal}
    (h : closeDeltas w = some deltas) : deltas.length = w.length - 1 := by
  simp only [closeDeltas, Option.bind_eq_bind, Option.bind_eq_some_iff, Option.pure_def,
    Option.some.injEq] at h
  obtain ⟨cs, hcs, rfl⟩ := h
  simp [closes_length hcs]

theorem foldl_smooth (averages : Decimal × Decimal) (deltas : List Decimal) :
    deltas.foldl (RSIState.smooth period) averages =
      (deltas.foldl (fun v d => wilder period v (gainOf d)) averages.1,
        deltas.foldl (fun v d => wilder period v (lossOf d)) averages.2) := by
  induction deltas generalizing averages with
  | nil => rfl
  | cons delta rest ih => exact ih _

theorem incrementalRSI_mirrors : (incrementalRSI period).Mirrors (rsi · period) where
  seeded w := by
    simp only [incrementalRSI, rsi]
    cases hperiod : requirePeriod w (period + 1) with
    | none => rfl
    | some _ =>
        have hlong : period + 1 ≤ w.length := (requirePeriod_eq_some.mp hperiod).2
        cases hcs : closes w with
        | none => simp [closeDeltas, hcs]
        | some cs =>
            have hlast := closes_getLast? hcs
            have hnonempty : cs ≠ [] := by
              rintro rfl
              rw [← closes_length hcs] at hlong
              simp at hlong
            rw [List.getLast?_eq_some_getLast hnonempty] at hlast
            obtain ⟨last, hlast, hprev⟩ := Option.bind_eq_some_iff.mp hlast
            simp only [closeDeltas, hcs, hlast, hprev, foldl_smooth, Option.bind_eq_bind,
              Option.bind_some, Option.pure_def, Option.map_some]
            rfl
  folds {w next state} hpriced hstate := by
    simp only [incrementalRSI, Option.bind_eq_bind, Option.bind_eq_some_iff, Option.pure_def,
      Option.some.injEq] at hstate
    obtain ⟨⟨⟩, hperiod, deltas, hdeltas, last, hlast, prev, hprev, rfl⟩ := hstate
    have hlater : requirePeriod (w ++ [next]) (period + 1) = some () :=
      requirePeriod_append hperiod
    obtain ⟨hpos, hle⟩ := requirePeriod_eq_some.mp hperiod
    obtain ⟨close, hclose⟩ := hpriced next (by simp)
    have hlength : period ≤ deltas.length := by
      rw [closeDeltas_length hdeltas]
      omega
    obtain ⟨cs, hcs, -⟩ := Option.bind_eq_some_iff.mp hdeltas
    have hend := closes_getLast? hcs
    rw [hlast, Option.bind_some, hprev] at hend
    obtain ⟨front, rfl⟩ := List.getLast?_eq_some_iff.mp hend.symm
    have hdeltas' := closeDeltas_append hcs hclose
    rw [hdeltas, Option.map_some] at hdeltas'
    refine ⟨⟨_, _, num close⟩, by simp only [incrementalRSI, hclose]; rfl, ?_⟩
    simp [incrementalRSI, hlater, hdeltas', hclose, List.take_append_of_le_length hlength,
      List.drop_append_of_le_length hlength]
  reads_back {w state} _ := rfl

/-! ### Seeding -/

section Seeding

variable {w : CandleWindow} (hpriced : ∀ c ∈ w, Priced c)
include hpriced

theorem incrementalSMA_starts (hpos : 0 < period) (hle : period ≤ w.length) :
    ∃ state, (incrementalSMA period).initFromWindow w = some state := by
  obtain ⟨qs, -, hqs⟩ := closes_priced fun c (hc : c ∈ lastCandles w period) =>
    hpriced c (List.mem_of_mem_drop hc)
  simp [incrementalSMA, requirePeriod_eq_some.mpr ⟨hpos, hle⟩, hqs]

theorem incrementalEMA_starts (hpos : 0 < period) (hle : period ≤ w.length) :
    ∃ state, (incrementalEMA period).initFromWindow w = some state := by
  obtain ⟨first, -, hfirst⟩ := closes_priced fun c (hc : c ∈ w.take period) =>
    hpriced c (List.mem_of_mem_take hc)
  obtain ⟨rest, -, hrest⟩ := closes_priced fun c (hc : c ∈ w.drop period) =>
    hpriced c (List.mem_of_mem_drop hc)
  simp [incrementalEMA, requirePeriod_eq_some.mpr ⟨hpos, hle⟩, hfirst, hrest]

theorem incrementalRSI_starts (hle : period + 1 ≤ w.length) :
    ∃ state, (incrementalRSI period).initFromWindow w = some state := by
  obtain ⟨qs, hlength, hqs⟩ := closes_priced hpriced
  have hlast := closes_getLast? hqs
  have hnonempty : qs.map num ≠ [] := by
    rintro hnil
    rw [List.map_eq_nil_iff] at hnil
    subst hnil
    simp at hlength
    omega
  rw [List.getLast?_eq_some_getLast hnonempty] at hlast
  obtain ⟨last, hlast, hprev⟩ := Option.bind_eq_some_iff.mp hlast
  simp [incrementalRSI, requirePeriod_eq_some.mpr ⟨Nat.succ_pos period, hle⟩, closeDeltas, hqs,
    hlast, hprev]

end Seeding

end TradingBot
