import Mathlib.Order.Bounds.Basic
import TradingBot.IncrementalExact
import TradingBot.Lib.InsertionMap
import TradingBot.Lib.MonotoneDeque
import TradingBot.Worker.IndicatorComputer

/-!
# The indicator snapshots of a backtest

The state of the indicators is carried from tick to tick. The extremes of the
window come from two deques: an array whose dead front is skipped by a head
index and cut off from time to time.
-/

namespace TradingBot.SnapshotComputer

open Decimal InsertionMap LabelledRun MonotoneDeque
open Worker (stepOrSeed smaPeriod emaPeriod rsiMinWindow smaInd emaInd rsiInd)

structure MonoEntry where
  closeTimeMs : ℤ
  value : Decimal

structure RollingExtremum where
  entries : List MonoEntry
  head : ℕ

def createRollingExtremum : RollingExtremum := ⟨[], 0⟩

namespace RollingExtremum

/-- Pop what the value dominates, push it, move the head past what has slid out, and cut the dead
front off where it dominates the array. -/
def fold (dominated : Decimal → Decimal → Bool) (r : RollingExtremum) (closeTimeMs : ℤ)
    (value : Decimal) (oldestInWindowMs : ℤ) : RollingExtremum :=
  let popped := r.entries.take r.head ++
    (r.entries.drop r.head).rdropWhile fun back => dominated back.value value
  let entries := popped ++ [⟨closeTimeMs, value⟩]
  let head := r.head + ((entries.drop r.head).takeWhile (·.closeTimeMs < oldestInWindowMs)).length
  if head > 32 ∧ head * 2 ≥ entries.length then ⟨entries.drop head, 0⟩ else ⟨entries, head⟩

/-- The value at the head; reading before any fold throws. -/
def value (r : RollingExtremum) : Option Decimal := r.entries[r.head]?.map (·.value)

end RollingExtremum

def atLeast (back incoming : Decimal) : Bool := back.gte incoming

def atMost (back incoming : Decimal) : Bool := back.lte incoming

def foldFigure (dominated : Decimal → Decimal → Bool) (figure : Candle → String)
    (oldestInWindowMs : ℤ) (r : RollingExtremum) (c : Candle) : Option RollingExtremum := do
  return r.fold dominated c.closeTimeMs (← parse (figure c)) oldestInWindowMs

structure IndicatorSnapshot where
  windowSize : ℕ
  lowestLow : DecimalString
  highestHigh : DecimalString
  sma20 : Option DecimalString
  ema20 : Option DecimalString
  rsi14 : Option DecimalString
  lastCandleCloseTimeMs : ℤ

structure KeyState where
  sma : Option SMAState
  ema : Option EMAState
  rsi : Option RSIState
  low : RollingExtremum
  high : RollingExtremum
  lastCloseTimeMs : ℤ
  snapshot : Option IndicatorSnapshot

/-- The extremum of a key: the closed candle is folded, or the whole window into a new one. -/
def stepExtremum (dominated : Decimal → Decimal → Bool) (figure : Candle → String)
    (prior : Option RollingExtremum) (window : CandleWindow) (oldestInWindowMs : ℤ)
    (closed : Candle) : Option RollingExtremum :=
  match prior with
  | some r => foldFigure dominated figure oldestInWindowMs r closed
  | none => window.foldlM (foldFigure dominated figure oldestInWindowMs) createRollingExtremum

/-- The snapshot of the window's last candle and the state it leaves; a throw is `none`. -/
def advance (prior : Option KeyState) (window : CandleWindow) (oldest closed : Candle) :
    Option KeyState := do
  let (sma, sma20) ← stepOrSeed (prior.bind (·.sma)) window smaPeriod smaInd closed
  let (ema, ema20) ← stepOrSeed (prior.bind (·.ema)) window emaPeriod emaInd closed
  let (rsi, rsi14) ← stepOrSeed (prior.bind (·.rsi)) window rsiMinWindow rsiInd closed
  let low ← stepExtremum atLeast (·.low) (prior.map (·.low)) window oldest.closeTimeMs closed
  let high ← stepExtremum atMost (·.high) (prior.map (·.high)) window oldest.closeTimeMs closed
  let lowest ← low.value
  let highest ← high.value
  return {
    sma, ema, rsi, low, high
    lastCloseTimeMs := closed.closeTimeMs
    snapshot := some {
      windowSize := window.length
      lowestLow := .printed lowest
      highestHigh := .printed highest
      sma20, ema20, rsi14
      lastCandleCloseTimeMs := closed.closeTimeMs } }

/-- One call: nothing on an empty window, the cached snapshot on an unchanged last candle. -/
def step (states : List (String × KeyState)) (key : String) (window : CandleWindow) :
    Option (List (String × KeyState) × Option IndicatorSnapshot) :=
  match window.head?, window.getLast? with
  | some oldest, some closed =>
      let prior := get key states
      match prior.filter (·.lastCloseTimeMs = closed.closeTimeMs) with
      | some prior => some (states, prior.snapshot)
      | none => do
          let state ← advance prior window oldest closed
          return (set key state states, state.snapshot)
  | _, _ => some (states, none)

/-! ### The deque -/

section Deque

variable {dominated : Decimal → Decimal → Bool} {r : RollingExtremum} {w : List MonoEntry}
  {entry : MonoEntry} {oldest : ℤ}

/-- The entries with a number for a value. -/
def numbered : Set MonoEntry := {entry | ∃ q, entry.value = num q}

theorem atLeast_preorders : PreordersOn (fun a b => atLeast a.value b.value) numbered where
  total := by
    rintro ⟨t, _⟩ ⟨u, _⟩ ⟨p, rfl⟩ ⟨q, rfl⟩
    simpa [atLeast] using le_total q p
  trans := by
    rintro ⟨t, _⟩ ⟨u, _⟩ ⟨v, _⟩ ⟨p, rfl⟩ ⟨q, rfl⟩ ⟨o, rfl⟩
    simpa [atLeast] using fun hqp hoq => le_trans hoq hqp

theorem atMost_preorders : PreordersOn (fun a b => atMost a.value b.value) numbered where
  total := by
    rintro ⟨t, _⟩ ⟨u, _⟩ ⟨p, rfl⟩ ⟨q, rfl⟩
    simpa [atMost] using le_total p q
  trans := by
    rintro ⟨t, _⟩ ⟨u, _⟩ ⟨v, _⟩ ⟨p, rfl⟩ ⟨q, rfl⟩ ⟨o, rfl⟩
    simpa [atMost] using fun hpq hqo => le_trans hpq hqo

/-- The array holds the survivors of a window from its head on. -/
structure Holds (dominated : Decimal → Decimal → Bool) (r : RollingExtremum) (w : List MonoEntry) :
    Prop where
  head_le : r.head ≤ r.entries.length
  live : r.entries.drop r.head = survivors (fun a b => dominated a.value b.value) w

theorem holds_createRollingExtremum : Holds dominated createRollingExtremum [] := ⟨le_rfl, rfl⟩

/-- Folding takes a candle in and lets the old ones go, whether or not the array is cut. -/
theorem Holds.fold (h : Holds dominated r w)
    (hpreorders : PreordersOn (fun a b => dominated a.value b.value) numbered)
    (hw : ∀ a ∈ w, a ∈ numbered) (hentry : entry ∈ numbered)
    (hsorted : (w ++ [entry]).Pairwise fun a b => a.closeTimeMs ≤ b.closeTimeMs) :
    Holds dominated (r.fold dominated entry.closeTimeMs entry.value oldest)
      ((w ++ [entry]).dropWhile (·.closeTimeMs < oldest)) := by
  have hlive := @dropWhile_survivors _ _ (fun a b : MonoEntry => dominated a.value b.value) _ _ _
    hsorted oldest
  rw [survivors_concat hpreorders hw hentry, ← h.live] at hlive
  unfold RollingExtremum.fold
  dsimp only
  have hlength : (r.entries.take r.head).length = r.head := by
    rw [List.length_take, min_eq_left h.head_le]
  have hafter : (r.entries.take r.head ++
      (r.entries.drop r.head).rdropWhile (fun back => dominated back.value entry.value) ++
        [(⟨entry.closeTimeMs, entry.value⟩ : MonoEntry)]).drop r.head =
      (r.entries.drop r.head).rdropWhile (fun back => dominated back.value entry.value) ++
        [entry] := by
    rw [List.append_assoc]
    nth_rewrite 1 [← hlength]
    rw [List.drop_left]
  generalize hentries : r.entries.take r.head ++
    (r.entries.drop r.head).rdropWhile (fun back => dominated back.value entry.value) ++
      [(⟨entry.closeTimeMs, entry.value⟩ : MonoEntry)] = entries at hafter ⊢
  rw [← hafter] at hlive
  have hskipped : entries.drop (r.head +
      ((entries.drop r.head).takeWhile (·.closeTimeMs < oldest)).length) =
        (entries.drop r.head).dropWhile (·.closeTimeMs < oldest) := by
    rw [← List.drop_drop]
    nth_rewrite 2 [← @List.takeWhile_append_dropWhile _ (·.closeTimeMs < oldest)
      (entries.drop r.head)]
    exact List.drop_left
  split
  · exact ⟨Nat.zero_le _, hskipped.trans hlive⟩
  · refine ⟨?_, hskipped.trans hlive⟩
    have hshort := (@List.takeWhile_prefix _ (entries.drop r.head)
      (·.closeTimeMs < oldest)).length_le
    have hin : r.head ≤ entries.length := by
      rw [← hentries, List.length_append, List.length_append, hlength]
      omega
    rw [List.length_drop] at hshort
    dsimp only
    omega

/-- The head is the extremum of the window. -/
theorem Holds.value (h : Holds dominated r w)
    (hpreorders : PreordersOn (fun a b => dominated a.value b.value) numbered)
    (hw : ∀ a ∈ w, a ∈ numbered) (hne : w ≠ []) :
    ∃ front ∈ w, r.value = some front.value ∧ ∀ a ∈ w, dominated a.value front.value := by
  obtain ⟨front, hfront, hmem, hall⟩ := exists_front hpreorders hw hne
  refine ⟨front, hmem, ?_, hall⟩
  rw [← h.live, List.head?_drop] at hfront
  unfold RollingExtremum.value
  rw [hfront]
  rfl

end Deque

/-! ### One key -/

section Key

variable {dominated : Decimal → Decimal → Bool} {figure : Candle → String} {r : RollingExtremum}
  {window last : CandleWindow} {next oldest closed : Candle}

/-- What the deque of a figure takes from a candle. -/
def entryOf (figure : Candle → String) (c : Candle) : MonoEntry :=
  ⟨c.closeTimeMs, (parse (figure c)).getD .nan⟩

/-- The figure of every candle reads as a number. -/
def Numbered (figure : Candle → String) (window : CandleWindow) : Prop :=
  ∀ c ∈ window, ∃ q, parse (figure c) = some (num q)

/-- The closes of the candles are in order. -/
def Ascending (window : CandleWindow) : Prop :=
  window.Pairwise fun c later => c.closeTimeMs < later.closeTimeMs

theorem Numbered.entries (h : Numbered figure window) :
    ∀ e ∈ window.map (entryOf figure), e ∈ numbered := by
  intro e he
  obtain ⟨c, hc, rfl⟩ := List.mem_map.mp he
  obtain ⟨q, hq⟩ := h c hc
  exact ⟨q, by rw [entryOf, hq]; rfl⟩

theorem Ascending.entries (h : Ascending window) :
    (window.map (entryOf figure)).Pairwise fun a b => a.closeTimeMs < b.closeTimeMs :=
  List.pairwise_map.mpr h

theorem Ascending.entries_le (h : Ascending window) :
    (window.map (entryOf figure)).Pairwise fun a b => a.closeTimeMs ≤ b.closeTimeMs :=
  h.entries.imp le_of_lt

theorem foldFigure_eq (hnext : Numbered figure [next]) (time : ℤ) :
    foldFigure dominated figure time r next =
      some (r.fold dominated (entryOf figure next).closeTimeMs
        (entryOf figure next).value time) := by
  obtain ⟨q, hq⟩ := hnext next (List.mem_singleton_self _)
  unfold foldFigure entryOf
  rw [hq]
  rfl

theorem foldFigure_slides (h : Holds dominated r (last.map (entryOf figure)))
    (hpreorders : PreordersOn (fun a b => dominated a.value b.value) numbered)
    (hnumbered : Numbered figure (last ++ [next])) (hascending : Ascending (last ++ [next])) {k : ℕ}
    {rest : CandleWindow} (hwindow : (last ++ [next]).drop k = oldest :: rest) :
    ∃ r', foldFigure dominated figure oldest.closeTimeMs r next = some r' ∧
      Holds dominated r' ((oldest :: rest).map (entryOf figure)) := by
  have hlast : Numbered figure last := fun c hc => hnumbered c (List.mem_append_left _ hc)
  have hnext : Numbered figure [next] := fun c hc => hnumbered c (List.mem_append_right _ hc)
  refine ⟨_, foldFigure_eq hnext oldest.closeTimeMs, ?_⟩
  have hentries : last.map (entryOf figure) ++ [entryOf figure next] =
      (last ++ [next]).map (entryOf figure) := by
    rw [List.map_append, List.map_singleton]
  have hfold := @Holds.fold _ _ _ _ oldest.closeTimeMs h hpreorders hlast.entries
    (hnext.entries _ (List.mem_singleton_self _)) (by rw [hentries]; exact hascending.entries_le)
  have hmapped : ((last ++ [next]).map (entryOf figure)).drop k =
      entryOf figure oldest :: rest.map (entryOf figure) := by
    rw [← List.map_drop, hwindow, List.map_cons]
  have hslid := dropWhile_eq_drop k hascending.entries hmapped
  rw [hentries] at hfold
  rw [List.map_cons, ← hslid]
  exact hfold

/-- A new deque takes a whole window in. -/
theorem foldFigure_seeds
    (hpreorders : PreordersOn (fun a b => dominated a.value b.value) numbered)
    (hnumbered : Numbered figure window) (hascending : Ascending window) (time : ℤ)
    (htime : ∀ c ∈ window, time ≤ c.closeTimeMs) :
    ∃ r, window.foldlM (foldFigure dominated figure time) createRollingExtremum = some r ∧
      Holds dominated r (window.map (entryOf figure)) := by
  induction window using List.reverseRecOn with
  | nil => exact ⟨_, rfl, holds_createRollingExtremum⟩
  | append_singleton window next ih =>
      have hnext : Numbered figure [next] := fun c hc => hnumbered c (List.mem_append_right _ hc)
      have hbefore : Numbered figure window := fun c hc => hnumbered c (List.mem_append_left _ hc)
      obtain ⟨r, hr, hholds⟩ := ih hbefore (List.pairwise_append.mp hascending).1
        fun c hc => htime c (List.mem_append_left _ hc)
      refine ⟨r.fold dominated (entryOf figure next).closeTimeMs (entryOf figure next).value time,
        ?_, ?_⟩
      · rw [List.foldlM_append, hr]
        change (foldFigure dominated figure time r next).bind _ = _
        rw [foldFigure_eq hnext]
        rfl
      · have hentries : window.map (entryOf figure) ++ [entryOf figure next] =
            (window ++ [next]).map (entryOf figure) := by
          rw [List.map_append, List.map_singleton]
        have hfold := @Holds.fold _ _ _ _ time hholds hpreorders hbefore.entries
          (hnext.entries _ (List.mem_singleton_self _))
          (by rw [hentries]; exact hascending.entries_le)
        rw [hentries, List.dropWhile_eq_self_iff.mpr] at hfold
        · exact hfold
        · intro hpos
          obtain ⟨c, hc, heq⟩ := List.mem_map.mp (List.getElem_mem hpos)
          rw [← heq]
          exact fun hearly => absurd (of_decide_eq_true hearly) (not_lt.mpr (htime c hc))

/-- The window follows the last one: any window to begin with, then the same window, or one candle
more behind it and some fewer in front, not the new one. -/
inductive Follows : CandleWindow → CandleWindow → Prop
  | first {window : CandleWindow} (hascending : Ascending window) : Follows [] window
  | unchanged {window : CandleWindow} : Follows window window
  | advanced {last : CandleWindow} {next : Candle} (hascending : Ascending (last ++ [next])) {k : ℕ}
      (hk : k ≤ last.length) : Follows last ((last ++ [next]).drop k)

theorem Follows.empty (h : Follows last window) (hempty : window = []) : last = [] := by
  cases h with
  | first _ => rfl
  | unchanged => exact hempty
  | advanced _ hk =>
      have hlength := List.drop_eq_nil_iff.mp hempty
      rw [List.length_append, List.length_singleton] at hlength
      omega

end Key

/-! ### The extrema of a window -/

section Extrema

variable {window : CandleWindow} {figure : Candle → String} {q : ℚ}

/-- The numbers a figure takes over a window. -/
def figures (figure : Candle → String) (window : CandleWindow) : Set ℚ :=
  {q | ∃ c ∈ window, parse (figure c) = some (num q)}

theorem isLeast_foldl_min {α : Type} [LinearOrder α] (a : α) (l : List α) :
    IsLeast {x | x ∈ a :: l} (l.foldl min a) := by
  induction l generalizing a with
  | nil => exact ⟨List.mem_cons_self, fun x hx => (List.mem_singleton.mp hx).ge⟩
  | cons b rest ih =>
      obtain ⟨hmem, hle⟩ := ih (min a b)
      refine ⟨?_, ?_⟩
      · rcases List.mem_cons.mp hmem with heq | hrest
        · rw [List.foldl_cons, heq]
          rcases min_choice a b with h | h
          · rw [h]
            exact List.mem_cons_self
          · rw [h]
            exact List.mem_cons_of_mem _ List.mem_cons_self
        · exact List.mem_cons_of_mem _ (List.mem_cons_of_mem _ hrest)
      · intro x hx
        have hfirst := hle (List.mem_cons_self : min a b ∈ min a b :: rest)
        rcases List.mem_cons.mp hx with rfl | hx
        · exact hfirst.trans (min_le_left _ _)
        · rcases List.mem_cons.mp hx with rfl | hx
          · exact hfirst.trans (min_le_right _ _)
          · exact hle (List.mem_cons_of_mem _ hx)

theorem isGreatest_foldl_max (a : ℚ) (l : List ℚ) :
    IsGreatest {x | x ∈ a :: l} (l.foldl max a) :=
  @isLeast_foldl_min ℚᵒᵈ _ a l

theorem foldl_dmin_num (a : ℚ) (l : List ℚ) :
    (l.map num).foldl dmin (num a) = num (l.foldl Min.min a) := by
  induction l generalizing a with
  | nil => rfl
  | cons b rest ih =>
      rw [List.map_cons, List.foldl_cons, List.foldl_cons, ← ih]
      congr 1
      unfold dmin
      rw [lt_num, min_def]
      by_cases hab : a < b
      · simp [hab, hab.le]
      · by_cases heq : a ≤ b
        · simp [le_antisymm heq (not_lt.mp hab)]
        · simp [hab, heq]

theorem foldl_dmax_num (a : ℚ) (l : List ℚ) :
    (l.map num).foldl dmax (num a) = num (l.foldl Max.max a) := by
  induction l generalizing a with
  | nil => rfl
  | cons b rest ih =>
      rw [List.map_cons, List.foldl_cons, List.foldl_cons, ← ih]
      congr 1
      unfold dmax
      rw [gt_num, max_def]
      by_cases hab : b < a
      · simp [hab, not_le.mpr hab]
      · simp [hab, not_lt.mp hab]

theorem mapM_numbered (h : Numbered figure window) :
    ∃ qs : List ℚ, window.mapM (fun c => parse (figure c)) = some (qs.map num) ∧
      {q | q ∈ qs} = figures figure window := by
  induction window with
  | nil => exact ⟨[], rfl, by ext q; simp [figures]⟩
  | cons c rest ih =>
      obtain ⟨q, hq⟩ := h c List.mem_cons_self
      obtain ⟨qs, hqs, hmem⟩ := ih fun c hc => h c (List.mem_cons_of_mem _ hc)
      refine ⟨q :: qs, ?_, ?_⟩
      · rw [List.mapM_cons, hq, hqs]
        rfl
      · ext p
        have hrest : p ∈ qs ↔ p ∈ figures figure rest := by rw [← hmem]; rfl
        simp only [Set.mem_ofPred_eq, List.mem_cons, hrest]
        simp [figures, hq, eq_comm]

theorem exists_mem_figures (h : Numbered figure window) (hne : window ≠ []) :
    ∃ q, q ∈ figures figure window := by
  obtain ⟨c, hc⟩ := List.exists_mem_of_ne_nil window hne
  obtain ⟨q, hq⟩ := h c hc
  exact ⟨q, c, hc, hq⟩

theorem exists_lowestLow (h : Numbered (·.low) window) (hne : window ≠ []) :
    ∃ q, lowestLow window = some (num q) ∧ IsLeast (figures (·.low) window) q := by
  obtain ⟨qs, hqs, hmem⟩ := mapM_numbered h
  obtain ⟨q, hq⟩ := exists_mem_figures h hne
  unfold lowestLow
  rw [hqs]
  rw [← hmem] at hq ⊢
  cases qs with
  | nil => cases hq
  | cons first rest =>
      refine ⟨_, ?_, isLeast_foldl_min first rest⟩
      rw [← foldl_dmin_num]
      rfl

theorem exists_highestHigh (h : Numbered (·.high) window) (hne : window ≠ []) :
    ∃ q, highestHigh window = some (num q) ∧ IsGreatest (figures (·.high) window) q := by
  obtain ⟨qs, hqs, hmem⟩ := mapM_numbered h
  obtain ⟨q, hq⟩ := exists_mem_figures h hne
  unfold highestHigh
  rw [hqs]
  rw [← hmem] at hq ⊢
  cases qs with
  | nil => cases hq
  | cons first rest =>
      refine ⟨_, ?_, isGreatest_foldl_max first rest⟩
      rw [← foldl_dmax_num]
      rfl

variable {r : RollingExtremum} {dominated : Decimal → Decimal → Bool}

theorem Holds.extreme (h : Holds dominated r (window.map (entryOf figure)))
    (hpreorders : PreordersOn (fun a b => dominated a.value b.value) numbered)
    (hnumbered : Numbered figure window) (hne : window ≠ []) :
    ∃ q ∈ figures figure window, r.value = some (num q) ∧
      ∀ p ∈ figures figure window, dominated (num p) (num q) := by
  obtain ⟨front, hfront, hvalue, hall⟩ := h.value hpreorders hnumbered.entries
    (mt List.map_eq_nil_iff.mp hne)
  obtain ⟨c, hc, rfl⟩ := List.mem_map.mp hfront
  obtain ⟨q, hq⟩ := hnumbered c hc
  have hread : ∀ {c : Candle} {p : ℚ}, parse (figure c) = some (num p) →
      (entryOf figure c).value = num p := by
    intro c p hp
    unfold entryOf
    rw [hp]
    rfl
  rw [hread hq] at hvalue hall
  refine ⟨q, ⟨c, hc, hq⟩, hvalue, ?_⟩
  rintro p ⟨c', hc', hp⟩
  have hentry := hall _ (List.mem_map_of_mem hc')
  rw [hread hp] at hentry
  exact hentry

theorem Holds.low (h : Holds atLeast r (window.map (entryOf (·.low))))
    (hnumbered : Numbered (·.low) window) (hne : window ≠ []) :
    ∃ q, r.value = some (num q) ∧ lowestLow window = some (num q) ∧
      IsLeast (figures (·.low) window) q := by
  obtain ⟨q, hmem, hvalue, hall⟩ := h.extreme atLeast_preorders hnumbered hne
  have hleast : IsLeast (figures (·.low) window) q := by
    refine ⟨hmem, fun p hp => ?_⟩
    simpa [atLeast] using hall p hp
  obtain ⟨q', hlowest, hleast'⟩ := exists_lowestLow hnumbered hne
  obtain rfl := hleast.unique hleast'
  exact ⟨q, hvalue, hlowest, hleast⟩

theorem Holds.high (h : Holds atMost r (window.map (entryOf (·.high))))
    (hnumbered : Numbered (·.high) window) (hne : window ≠ []) :
    ∃ q, r.value = some (num q) ∧ highestHigh window = some (num q) ∧
      IsGreatest (figures (·.high) window) q := by
  obtain ⟨q, hmem, hvalue, hall⟩ := h.extreme atMost_preorders hnumbered hne
  have hgreatest : IsGreatest (figures (·.high) window) q := by
    refine ⟨hmem, fun p hp => ?_⟩
    simpa [atMost] using hall p hp
  obtain ⟨q', hhighest, hgreatest'⟩ := exists_highestHigh hnumbered hne
  obtain rfl := hgreatest.unique hgreatest'
  exact ⟨q, hvalue, hhighest, hgreatest⟩

end Extrema

/-! ### Runs -/

/-- The snapshot shows the extrema of exactly the candles of the window. -/
def Reports (snapshot : IndicatorSnapshot) (window : CandleWindow) : Prop :=
  ∃ low high, snapshot.lowestLow = .printed (num low) ∧ snapshot.highestHigh = .printed (num high) ∧
    lowestLow window = some (num low) ∧ highestHigh window = some (num high) ∧
    IsLeast (figures (·.low) window) low ∧ IsGreatest (figures (·.high) window) high

def Seeded {S B : Type} (ind : IncrementalIndicator S B) (state : Option S) : Prop :=
  ∀ s, state = some s → ∃ w, (∀ c ∈ w, Priced c) ∧ ind.initFromWindow w = some s

theorem stepOrSeed_total {S B : Type} {ind : IncrementalIndicator S B}
    {full : CandleWindow → Option Decimal} {state : Option S} {window : CandleWindow}
    {minWindow : ℕ} {closed : Candle} (hind : ind.Mirrors full) (hseeded : Seeded ind state)
    (hpriced : ∀ c ∈ window, Priced c) (hclosed : closed ∈ window)
    (hstarts : minWindow ≤ window.length → ∃ s, ind.initFromWindow window = some s) :
    ∃ next shown, stepOrSeed state window minWindow ind closed = some (next, shown) ∧
      Seeded ind next := by
  cases state with
  | some s =>
      obtain ⟨w, hw, hinit⟩ := hseeded s rfl
      have hmore : ∀ c ∈ w ++ [closed], Priced c := by
        intro c hc
        rcases List.mem_append.mp hc with hold | hnew
        · exact hw c hold
        · obtain rfl := List.mem_singleton.mp hnew
          exact hpriced c hclosed
      obtain ⟨after, hupdate, hafter⟩ := hind.folds hmore hinit
      refine ⟨some after, some (.printed (ind.currentValue after)), ?_, ?_⟩
      · unfold stepOrSeed
        dsimp only
        rw [hupdate]
        rfl
      · rintro _ ⟨⟩
        exact ⟨_, hmore, hafter⟩
  | none =>
      by_cases hshort : window.length < minWindow
      · refine ⟨none, none, ?_, nofun⟩
        unfold stepOrSeed
        dsimp only
        rw [if_pos hshort]
      · obtain ⟨s, hs⟩ := hstarts (not_lt.mp hshort)
        refine ⟨some s, some (.printed (ind.currentValue s)), ?_, ?_⟩
        · unfold stepOrSeed
          dsimp only
          rw [if_neg hshort, hs]
          rfl
        · rintro _ ⟨⟩
          exact ⟨window, hpriced, hs⟩

/-- What is kept of a key, for the window it was last called with. -/
structure Kept (state : KeyState) (last : CandleWindow) : Prop where
  ascending : Ascending last
  quoted : ∀ c ∈ last, Quoted c
  closed : ∃ c, last.getLast? = some c ∧ state.lastCloseTimeMs = c.closeTimeMs
  low : Holds atLeast state.low (last.map (entryOf (·.low)))
  high : Holds atMost state.high (last.map (entryOf (·.high)))
  sma : Seeded smaInd state.sma
  ema : Seeded emaInd state.ema
  rsi : Seeded rsiInd state.rsi
  reports : ∃ snapshot, state.snapshot = some snapshot ∧ Reports snapshot last

section Step

variable {window last : CandleWindow} {oldest closed : Candle} {prior : Option KeyState}

theorem numbered_of_quoted (h : ∀ c ∈ window, Quoted c) :
    Numbered (·.low) window ∧ Numbered (·.high) window := by
  refine ⟨?_, ?_⟩
  · intro c hc
    obtain ⟨high, low, close, hbar⟩ := h c hc
    exact ⟨low, (readBar_eq_some.mp hbar).2.1⟩
  · intro c hc
    obtain ⟨high, low, close, hbar⟩ := h c hc
    exact ⟨high, (readBar_eq_some.mp hbar).1⟩

theorem kept_advance (hascending : Ascending window) (hquoted : ∀ c ∈ window, Quoted c)
    (hclosed : window.getLast? = some closed) (hseeded : ∀ state, prior = some state →
      Seeded smaInd state.sma ∧ Seeded emaInd state.ema ∧ Seeded rsiInd state.rsi)
    {low high : RollingExtremum}
    (hlow : stepExtremum atLeast (·.low) (prior.map (·.low)) window oldest.closeTimeMs closed =
      some low) (hlowHolds : Holds atLeast low (window.map (entryOf (·.low))))
    (hhigh : stepExtremum atMost (·.high) (prior.map (·.high)) window oldest.closeTimeMs closed =
      some high) (hhighHolds : Holds atMost high (window.map (entryOf (·.high)))) :
    ∃ state, advance prior window oldest closed = some state ∧ Kept state window := by
  have hpriced : ∀ c ∈ window, Priced c := fun c hc => (hquoted c hc).priced
  have hmem : closed ∈ window := List.mem_of_getLast? hclosed
  have hne : window ≠ [] := List.ne_nil_of_mem hmem
  have hstates : Seeded smaInd (prior.bind (·.sma)) ∧ Seeded emaInd (prior.bind (·.ema)) ∧
      Seeded rsiInd (prior.bind (·.rsi)) := by
    cases prior with
    | none => exact ⟨nofun, nofun, nofun⟩
    | some state => exact hseeded state rfl
  obtain ⟨sma, sma20, hsma, hsmaSeeded⟩ := stepOrSeed_total Worker.smaInd_mirrors hstates.1 hpriced
    hmem (incrementalSMA_starts hpriced (by decide))
  obtain ⟨ema, ema20, hema, hemaSeeded⟩ :=
    stepOrSeed_total Worker.emaInd_mirrors hstates.2.1 hpriced
    hmem (incrementalEMA_starts hpriced (by decide))
  obtain ⟨rsi, rsi14, hrsi, hrsiSeeded⟩ :=
    stepOrSeed_total Worker.rsiInd_mirrors hstates.2.2 hpriced
    hmem (incrementalRSI_starts hpriced)
  obtain ⟨hlows, hhighs⟩ := numbered_of_quoted hquoted
  obtain ⟨lowest, hlowValue, hlowest⟩ := hlowHolds.low hlows hne
  obtain ⟨highest, hhighValue, hhighest⟩ := hhighHolds.high hhighs hne
  refine ⟨{
    sma, ema, rsi, low, high
    lastCloseTimeMs := closed.closeTimeMs
    snapshot :=
      some ⟨window.length, .printed (num lowest), .printed (num highest), sma20, ema20, rsi14,
      closed.closeTimeMs⟩ }, ?_, ?_⟩
  · unfold advance
    rw [hsma, hema]
    change ((stepOrSeed (prior.bind (·.rsi)) window rsiMinWindow rsiInd closed).bind _) = _
    rw [show rsiMinWindow = Worker.rsiPeriod + 1 from rfl, hrsi, hlow, hhigh]
    change (low.value.bind _) = _
    rw [hlowValue, hhighValue]
    rfl
  · exact {
      ascending := hascending
      quoted := hquoted
      closed := ⟨closed, hclosed, rfl⟩
      low := hlowHolds
      high := hhighHolds
      sma := hsmaSeeded
      ema := hemaSeeded
      rsi := hrsiSeeded
      reports := ⟨_, rfl, lowest, highest, rfl, rfl, hlowest.1, hhighest.1, hlowest.2, hhighest.2⟩ }

/-- What a key's entry says of the window it was last called with. -/
def KeyKept (entry : Option KeyState) (last : CandleWindow) : Prop :=
  match entry with
  | some state => Kept state last
  | none => last = []

theorem head_closes_first (hascending : Ascending window) (holdest : window.head? = some oldest) :
    ∀ c ∈ window, oldest.closeTimeMs ≤ c.closeTimeMs := by
  obtain ⟨rest, rfl⟩ := List.head?_eq_some_iff.mp holdest
  intro c hc
  rcases List.mem_cons.mp hc with rfl | hlater
  · exact le_rfl
  · exact ((List.pairwise_cons.mp hascending).1 c hlater).le

/-- The first step of a key takes the whole window in. -/
theorem advance_first (hascending : Ascending window) (hquoted : ∀ c ∈ window, Quoted c)
    (holdest : window.head? = some oldest) (hclosed : window.getLast? = some closed) :
    ∃ state, advance none window oldest closed = some state ∧ Kept state window := by
  obtain ⟨hlows, hhighs⟩ := numbered_of_quoted hquoted
  have htime := head_closes_first hascending holdest
  obtain ⟨low, hlow, hlowHolds⟩ := foldFigure_seeds atLeast_preorders hlows hascending _ htime
  obtain ⟨high, hhigh, hhighHolds⟩ := foldFigure_seeds atMost_preorders hhighs hascending _ htime
  have hseeded : ∀ state, (none : Option KeyState) = some state →
      Seeded smaInd state.sma ∧ Seeded emaInd state.ema ∧ Seeded rsiInd state.rsi := by
    intro state hstate
    cases hstate
  exact kept_advance hascending hquoted hclosed hseeded hlow hlowHolds hhigh hhighHolds

/-- A later step takes the new candle in and lets the old ones go. -/
theorem advance_next {state : KeyState} {next : Candle} {k : ℕ} (hkept : Kept state last)
    (hascending : Ascending (last ++ [next])) (hk : k ≤ last.length)
    (hquoted : ∀ c ∈ (last ++ [next]).drop k, Quoted c)
    (holdest : ((last ++ [next]).drop k).head? = some oldest) :
    ∃ state', advance (some state) ((last ++ [next]).drop k) oldest next = some state' ∧
      Kept state' ((last ++ [next]).drop k) := by
  have hlast : ((last ++ [next]).drop k).getLast? = some next := by
    rw [List.drop_append_of_le_length hk, List.getLast?_append]
    rfl
  have hall : ∀ c ∈ last ++ [next], Quoted c := by
    intro c hc
    rcases List.mem_append.mp hc with hold | hnew
    · exact hkept.quoted c hold
    · obtain rfl := List.mem_singleton.mp hnew
      exact hquoted c (List.mem_of_getLast? hlast)
  obtain ⟨hlows, hhighs⟩ := numbered_of_quoted hall
  obtain ⟨rest, hwindow⟩ := List.head?_eq_some_iff.mp holdest
  obtain ⟨low, hlow, hlowHolds⟩ :=
    foldFigure_slides hkept.low atLeast_preorders hlows hascending hwindow
  obtain ⟨high, hhigh, hhighHolds⟩ :=
    foldFigure_slides hkept.high atMost_preorders hhighs hascending hwindow
  rw [← hwindow] at hlowHolds hhighHolds
  refine kept_advance (hascending.sublist (List.drop_sublist _ _)) hquoted hlast ?_ hlow hlowHolds
    hhigh hhighHolds
  rintro _ ⟨⟩
  exact ⟨hkept.sma, hkept.ema, hkept.rsi⟩

theorem step_of_follows {states : List (String × KeyState)} {key : String}
    (hkept : KeyKept (get key states) last) (hfollows : Follows last window)
    (hquoted : ∀ c ∈ window, Quoted c) (hne : window ≠ []) :
    ∃ states' snapshot, step states key window = some (states', some snapshot) ∧
      Reports snapshot window ∧ KeyKept (get key states') window ∧
      ∀ other, other ≠ key → get other states' = get other states := by
  obtain ⟨oldest, holdest⟩ : ∃ oldest, window.head? = some oldest :=
    Option.ne_none_iff_exists'.mp (mt List.head?_eq_none_iff.mp hne)
  obtain ⟨closed, hclosed⟩ : ∃ closed, window.getLast? = some closed :=
    Option.ne_none_iff_exists'.mp (mt List.getLast?_eq_none_iff.mp hne)
  unfold step
  rw [holdest, hclosed]
  dsimp only
  -- A new state replaces the entry of the key.
  have hadvanced : ∀ state,
      (get key states).filter (·.lastCloseTimeMs = closed.closeTimeMs) = none →
      advance (get key states) window oldest closed = some state → Kept state window →
      ∃ states' snapshot,
        (match (get key states).filter (·.lastCloseTimeMs = closed.closeTimeMs) with
          | some prior => some (states, prior.snapshot)
          | none => do
              let state ← advance (get key states) window oldest closed
              return (set key state states, state.snapshot)) = some (states', some snapshot) ∧
        Reports snapshot window ∧ KeyKept (get key states') window ∧
        ∀ other, other ≠ key → get other states' = get other states := by
    intro state hstale hstate hkept
    obtain ⟨snapshot, hsnapshot, hreports⟩ := hkept.reports
    refine ⟨set key state states, snapshot, ?_, hreports, ?_,
      fun other hother => get_set_other hother⟩
    · rw [hstale, hstate]
      change some (set key state states, state.snapshot) = _
      rw [hsnapshot]
    · rw [get_set_self]
      exact hkept
  cases hprior : get key states with
  | none =>
      rw [hprior] at hkept hadvanced
      have hempty : last = [] := hkept
      have hascending : Ascending window := by
        cases hfollows with
        | first hascending => exact hascending
        | unchanged => exact absurd hempty hne
        | advanced hascending hk => exact hascending.sublist (List.drop_sublist _ _)
      obtain ⟨state, hstate, hnext⟩ := advance_first hascending hquoted holdest hclosed
      exact hadvanced state rfl hstate hnext
  | some prior =>
      rw [hprior] at hkept hadvanced
      have hheld : Kept prior last := hkept
      obtain ⟨before, hbefore, htime⟩ := hheld.closed
      cases hfollows with
      | first _ => cases hbefore
      | unchanged =>
          rw [hclosed] at hbefore
          cases hbefore
          obtain ⟨snapshot, hsnapshot, hreports⟩ := hheld.reports
          refine ⟨states, snapshot, ?_, hreports, ?_, fun _ _ => rfl⟩
          · rw [Option.filter_some_pos (by simpa using htime)]
            dsimp only
            rw [hsnapshot]
          · rw [hprior]
            exact hheld
      | @advanced _ next hascending k hk =>
          obtain ⟨state, hstate, hnext⟩ := advance_next hheld hascending hk hquoted holdest
          have hsame : closed = next := by
            rw [List.drop_append_of_le_length hk, List.getLast?_append] at hclosed
            exact (Option.some.inj hclosed).symm
          subst hsame
          have hlater := (List.pairwise_append.mp hascending).2.2 before
            (List.mem_of_getLast? hbefore) closed List.mem_cons_self
          have hstale : (some prior).filter (·.lastCloseTimeMs = closed.closeTimeMs) = none := by
            rw [Option.filter_some_neg]
            simp [htime, hlater.ne]
          exact hadvanced state hstale hstate hnext

end Step

/-- The computer, and the window every key was last called with. -/
structure Feed where
  states : List (String × KeyState)
  windows : String → CandleWindow

namespace Feed

def initial : Feed := ⟨[], fun _ => []⟩

def call (feed : Feed) (args : String × CandleWindow) : Option Feed := do
  let (states, _) ← step feed.states args.1 args.2
  return ⟨states, Function.update feed.windows args.1 args.2⟩

/-- Every call is made with a window that follows the last one of its key. -/
def Legal (feed : Feed) (args : String × CandleWindow) : Prop :=
  Follows (feed.windows args.1) args.2 ∧ ∀ c ∈ args.2, Quoted c

/-- Every key's entry fits the window it was last called with. -/
def Fits (feed : Feed) : Prop := ∀ key, KeyKept (get key feed.states) (feed.windows key)

theorem fits_of_reached {feed : Feed} (hrun : Reach call Legal initial feed) : feed.Fits := by
  have hstart : initial.Fits := fun _ => rfl
  refine hrun.invariant hstart ?_
  rintro feed ⟨called, window⟩ after hkept ⟨hfollows, hquoted⟩ hcall key
  obtain ⟨⟨states, snapshot⟩, hstep, hafter⟩ := Option.bind_eq_some_iff.mp hcall
  cases hafter
  by_cases hne : window = []
  · have hlast : feed.windows called = [] := hfollows.empty hne
    subst hne
    cases hstep
    rw [← hlast, Function.update_eq_self]
    exact hkept key
  · obtain ⟨states', _, hsteps, -, hown, hothers⟩ :=
      step_of_follows (hkept called) hfollows hquoted hne
    cases hstep.symm.trans hsteps
    by_cases hkey : key = called
    · subst hkey
      dsimp only
      rw [Function.update_self]
      exact hown
    · dsimp only
      rw [Function.update_of_ne hkey, hothers key hkey]
      exact hkept key

/-- After any calls on windows that move on by one candle or stay, a further such call reports the
minimum low and the maximum high of exactly the candles it was given. -/
theorem window_extrema_are_reported {feed : Feed} (hrun : Reach call Legal initial feed)
    {key : String} {window : CandleWindow} (hlegal : feed.Legal (key, window)) (hne : window ≠ []) :
    ∃ states snapshot, step feed.states key window = some (states, some snapshot) ∧
      Reports snapshot window := by
  obtain ⟨states, snapshot, hstep, hreports, -⟩ :=
    step_of_follows (fits_of_reached hrun key) hlegal.1 hlegal.2 hne
  exact ⟨states, snapshot, hstep, hreports⟩

/-- An hour candle with a range. -/
private def hourly (hour : ℤ) (low high : String) : Candle where
  openTimeMs := hour * 3600000
  closeTimeMs := hour * 3600000 + 3599999
  openPrice := low
  high := high
  low := low
  close := high
  volume := "1"
  isClosed := true

private def firstHours : CandleWindow := [hourly 0 "90" "100", hourly 1 "95" "99"]

/-- The lowest low and the highest high slide out of the window. -/
theorem slid_window_is_reported :
    ∃ feed states snapshot, Reach call Legal initial feed ∧
      feed.windows "BTCUSDT|1h" = firstHours ∧
      step feed.states "BTCUSDT|1h" [hourly 1 "95" "99", hourly 2 "96" "98"] =
        some (states, some snapshot) ∧
      Reports snapshot [hourly 1 "95" "99", hourly 2 "96" "98"] := by
  have hreads : ∀ c ∈ firstHours ++ [hourly 2 "96" "98"], Quoted c := by
    intro c hc
    rcases List.mem_cons.mp hc with rfl | hc
    · exact ⟨100, 90, 100, by decide +kernel⟩
    rcases List.mem_cons.mp hc with rfl | hc
    · exact ⟨99, 95, 99, by decide +kernel⟩
    · obtain rfl := List.mem_singleton.mp hc
      exact ⟨98, 96, 98, by decide +kernel⟩
  have hascending : Ascending (firstHours ++ [hourly 2 "96" "98"]) := by
    unfold Ascending
    decide +kernel
  have hfirst : Legal initial ("BTCUSDT|1h", firstHours) :=
    ⟨.first (List.pairwise_append.mp hascending).1,
      fun c hc => hreads c (List.mem_append_left _ hc)⟩
  obtain ⟨states, snapshot, hstep, -⟩ := step_of_follows
    (fits_of_reached .refl "BTCUSDT|1h") hfirst.1 hfirst.2 (List.cons_ne_nil _ _)
  let feed : Feed := ⟨states, Function.update (fun _ => []) "BTCUSDT|1h" firstHours⟩
  have hrun : Reach call Legal initial feed := by
    refine Relation.ReflTransGen.single ⟨_, hfirst, ?_⟩
    unfold call
    rw [hstep]
    rfl
  have hnext : feed.Legal ("BTCUSDT|1h", [hourly 1 "95" "99", hourly 2 "96" "98"]) :=
    ⟨.advanced hascending (Nat.le_succ 1), fun c hc => hreads c (List.mem_of_mem_tail hc)⟩
  obtain ⟨states', snapshot', hreported⟩ := window_extrema_are_reported hrun hnext
    (List.cons_ne_nil _ _)
  exact ⟨feed, states', snapshot', hrun, rfl, hreported⟩

end Feed

end TradingBot.SnapshotComputer
