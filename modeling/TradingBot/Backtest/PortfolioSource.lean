import Mathlib.Algebra.BigOperators.Group.Finset.Basic
import Mathlib.Algebra.Order.BigOperators.Group.Finset
import Mathlib.Order.Interval.Finset.Nat
import TradingBot.Backtest.Replay
import TradingBot.Lib.QueueMerge

/-!
# The merged stream of a portfolio

The candle series of a portfolio become one stream in the order of the closes.
A cursor runs through each series, and the next tick is the candle with the
earliest close under any cursor. The finer bars of a series are first grouped
under its candles, in one pass over both.
-/

namespace TradingBot.Backtest

open QueueMerge

structure SymbolCandles where
  symbol : String
  interval : CandleInterval
  candles : List Candle
  detailCandles : Option (List Candle)

/-- One candle of the pass: bars before it are skipped, and its own are put under its open time. -/
def groupUnder (pass : (ℤ → Option (List Candle)) × List Candle) (c : Candle) :
    (ℤ → Option (List Candle)) × List Candle :=
  let detail := pass.2.dropWhile (·.openTimeMs < c.openTimeMs)
  let bucket := detail.takeWhile (·.openTimeMs ≤ c.closeTimeMs)
  (if bucket ≠ [] then Function.update pass.1 c.openTimeMs (some bucket) else pass.1,
    detail.dropWhile (·.openTimeMs ≤ c.closeTimeMs))

def groupDetailByCoarse (coarse detail : List Candle) : ℤ → Option (List Candle) :=
  (coarse.foldl groupUnder (fun _ => none, detail)).1

/-- The groups of a series, where it has finer bars. -/
def detailGroups (s : SymbolCandles) : Option (ℤ → Option (List Candle)) :=
  match s.detailCandles with
  | some (bar :: rest) => some (groupDetailByCoarse s.candles (bar :: rest))
  | _ => none

variable (series : List SymbolCandles)

def candleAt (cursors : List ℕ) (i : ℕ) : Option Candle :=
  series[i]?.bind fun s => s.candles[cursors[i]?.getD 0]?

/-- The series with the earliest close under its cursor, the first of several. -/
def pickSeries (cursors : List ℕ) : Option (ℕ × ℤ) :=
  (List.range series.length).foldl
    (fun picked i =>
      match candleAt series cursors i with
      | none => picked
      | some candle =>
          if picked.all (candle.closeTimeMs < ·.2) then some (i, candle.closeTimeMs) else picked)
    none

/-- The ticks that are left to emit. -/
def emit (groups : List (Option (ℤ → Option (List Candle)))) : ℕ → List ℕ → List MarketTick
  | 0, _ => []
  | left + 1, cursors =>
      match pickSeries series cursors with
      | none => []
      | some (pick, _) =>
          match series[pick]?, candleAt series cursors pick with
          | some chosen, some candle =>
              { symbol := chosen.symbol
                interval := chosen.interval
                candle := candle
                detailCandles := (groups[pick]?.join).bind fun group => group candle.openTimeMs } ::
              emit groups left (cursors.set pick (cursors[pick]?.getD 0 + 1))
          | _, _ => []

def mergeCandleTicks : List MarketTick :=
  emit series (series.map detailGroups) (series.foldl (fun n s => n + s.candles.length) 0)
    (series.map fun _ => 0)

/-! ### What a merge should be -/

/-- The candle series and its finer bars as the store returns them. -/
structure SymbolCandles.Ordered (s : SymbolCandles) : Prop where
  candles : s.candles.IsChain fun c next =>
    c.openTimeMs < next.openTimeMs ∧ c.closeTimeMs < next.closeTimeMs ∧
      c.closeTimeMs < next.openTimeMs
  detail : (s.detailCandles.getD []).Pairwise fun a b => a.openTimeMs ≤ b.openTimeMs

/-- The bar opens within the candle. -/
def opensWithin (c b : Candle) : Bool :=
  c.openTimeMs ≤ b.openTimeMs ∧ b.openTimeMs ≤ c.closeTimeMs

def SymbolCandles.barsWithin (s : SymbolCandles) (c : Candle) : List Candle :=
  (s.detailCandles.getD []).filter (opensWithin c)

/-- The tick of a candle of the series, with the bars that open within the candle. -/
def SymbolCandles.tickOf (s : SymbolCandles) (c : Candle) : MarketTick where
  symbol := s.symbol
  interval := s.interval
  candle := c
  detailCandles := if s.barsWithin c = [] then none else some (s.barsWithin c)

/-- The candles of a series, none past the last series. -/
def candlesOf (i : ℕ) : List Candle := (series[i]?.map (·.candles)).getD []

/-- The stream is the candles of all series, each with the number of its series. -/
structure IsMerge (out : List MarketTick) (picked : List (ℕ × Candle)) : Prop where
  ticks : out.map some = picked.map fun e => series[e.1]?.map (·.tickOf e.2)
  complete : picked.Perm
    ((List.range series.length).flatMap fun i => (candlesOf series i).map (i, ·))
  sorted : picked.Pairwise (Before (·.closeTimeMs))
  ordered : ∀ i, (picked.filter (·.1 = i)).map (·.2) = candlesOf series i

/-! ### The grouping -/

section Grouping

variable {s : SymbolCandles} {coarse detail bars : List Candle} {c b : Candle}

/-- On bars in order, the loops over them are filters. -/
theorem takeWhile_eq_filter {p : Candle → Bool} (hdown : bars.Pairwise fun a b => p b → p a) :
    bars.takeWhile p = bars.filter p ∧ bars.dropWhile p = bars.filter fun b => !p b := by
  induction bars with
  | nil => exact ⟨rfl, rfl⟩
  | cons b rest ih =>
      obtain ⟨hhead, htail⟩ := List.pairwise_cons.mp hdown
      obtain ⟨htake, hdrop⟩ := ih htail
      by_cases hb : p b = true
      · rw [List.takeWhile_cons_of_pos hb, List.dropWhile_cons_of_pos hb,
          List.filter_cons_of_pos hb,
          List.filter_cons_of_neg (by simp [hb]), htake, hdrop]
        exact ⟨rfl, rfl⟩
      · have hnone : ∀ later ∈ rest, ¬ p later = true := fun later hmem hlater =>
          hb (hhead later hmem hlater)
        rw [List.takeWhile_cons_of_neg hb, List.dropWhile_cons_of_neg hb,
          List.filter_cons_of_neg hb,
          List.filter_eq_nil_iff.mpr hnone, List.filter_eq_self.mpr]
        · exact ⟨rfl, rfl⟩
        · intro later hmem
          rcases List.mem_cons.mp hmem with rfl | hlater
          · simpa using hb
          · simpa using hnone later hlater

theorem SymbolCandles.Ordered.pairwise (h : s.Ordered) : s.candles.Pairwise fun c later =>
    c.openTimeMs < later.openTimeMs ∧ c.closeTimeMs < later.closeTimeMs ∧
      c.closeTimeMs < later.openTimeMs := by
  have htrans : IsTrans Candle fun c later =>
      c.openTimeMs < later.openTimeMs ∧ c.closeTimeMs < later.closeTimeMs ∧
        c.closeTimeMs < later.openTimeMs := by
    refine ⟨?_⟩
    rintro a b c ⟨hab, hab', hab''⟩ ⟨hbc, hbc', -⟩
    exact ⟨hab.trans hbc, hab'.trans hbc', hab''.trans hbc⟩
  exact List.isChain_iff_pairwise.mp h.candles

theorem groupUnder_eq {groups : ℤ → Option (List Candle)}
    (hdetail : detail.Pairwise fun a b => a.openTimeMs ≤ b.openTimeMs) :
    groupUnder (groups, detail) c =
      (if detail.filter (opensWithin c) ≠ [] then
          Function.update groups c.openTimeMs (some (detail.filter (opensWithin c)))
        else groups,
        detail.filter fun b =>
          decide (c.openTimeMs ≤ b.openTimeMs) && decide (c.closeTimeMs < b.openTimeMs)) := by
  have hskip := (@takeWhile_eq_filter detail (fun b => decide (b.openTimeMs < c.openTimeMs))
    (hdetail.imp fun {a b} hab => by simpa using fun hb => hab.trans_lt hb)).2
  have hrest : (detail.filter fun b : Candle => !decide (b.openTimeMs < c.openTimeMs)).Pairwise
      fun a b => decide (b.openTimeMs ≤ c.closeTimeMs) = true →
        decide (a.openTimeMs ≤ c.closeTimeMs) = true :=
    (hdetail.filter _).imp fun {a b} hab => by simpa using fun hb => hab.trans hb
  obtain ⟨htake, hdrop⟩ := takeWhile_eq_filter hrest
  unfold groupUnder
  dsimp only
  rw [hskip, htake, hdrop, List.filter_filter, List.filter_filter]
  have hwithin : (fun b : Candle => decide (b.openTimeMs ≤ c.closeTimeMs) &&
      !decide (b.openTimeMs < c.openTimeMs)) = opensWithin c := by
    funext b
    unfold opensWithin
    rw [Bool.eq_iff_iff]
    simp [and_comm]
  have hafter : (fun b : Candle => (!decide (b.openTimeMs ≤ c.closeTimeMs)) &&
      !decide (b.openTimeMs < c.openTimeMs)) = fun b =>
        decide (c.openTimeMs ≤ b.openTimeMs) && decide (c.closeTimeMs < b.openTimeMs) := by
    funext b
    rw [Bool.eq_iff_iff]
    simp [and_comm]
  rw [hwithin, hafter]

theorem foldl_groupUnder (groups : ℤ → Option (List Candle))
    (hcoarse : coarse.Pairwise fun c later => c.openTimeMs < later.openTimeMs ∧
      c.closeTimeMs < later.closeTimeMs ∧ c.closeTimeMs < later.openTimeMs)
    (hdetail : detail.Pairwise fun a b => a.openTimeMs ≤ b.openTimeMs) :
    (∀ k, (∀ c ∈ coarse, c.openTimeMs ≠ k) →
        (coarse.foldl groupUnder (groups, detail)).1 k = groups k) ∧
      ∀ c ∈ coarse, groups c.openTimeMs = none →
        (coarse.foldl groupUnder (groups, detail)).1 c.openTimeMs =
          if detail.filter (opensWithin c) = [] then none
          else some (detail.filter (opensWithin c)) := by
  induction coarse generalizing groups detail with
  | nil => exact ⟨fun _ _ => rfl, by simp⟩
  | cons first rest ih =>
      obtain ⟨hfirst, hrest⟩ := List.pairwise_cons.mp hcoarse
      rw [List.foldl_cons, groupUnder_eq hdetail]
      obtain ⟨hother, hown⟩ := ih
        (if detail.filter (opensWithin first) ≠ [] then
          Function.update groups first.openTimeMs (some (detail.filter (opensWithin first)))
        else groups) hrest (hdetail.filter _)
      have hapart : ∀ k, first.openTimeMs ≠ k →
          (if detail.filter (opensWithin first) ≠ [] then
            Function.update groups first.openTimeMs (some (detail.filter (opensWithin first)))
          else groups) k = groups k := by
        intro k hk
        split
        · exact Function.update_of_ne (Ne.symm hk) _ _
        · rfl
      refine ⟨?_, ?_⟩
      · intro k hk
        rw [hother k fun c hc => hk c (List.mem_cons_of_mem _ hc),
          hapart k (hk first List.mem_cons_self)]
      · intro c hc hnone
        rcases List.mem_cons.mp hc with rfl | hlater
        · rw [hother _ fun later hmem => (hfirst later hmem).1.ne']
          by_cases hbucket : detail.filter (opensWithin c) = []
          · rw [if_neg (not_not.mpr hbucket), if_pos hbucket]
            exact hnone
          · rw [if_pos hbucket, if_neg hbucket, Function.update_self]
        · obtain ⟨hopen, -, hclose⟩ := hfirst c hlater
          have hbars : (detail.filter fun b => decide (first.openTimeMs ≤ b.openTimeMs) &&
              decide (first.closeTimeMs < b.openTimeMs)).filter (opensWithin c) =
                detail.filter (opensWithin c) := by
            rw [List.filter_filter]
            refine List.filter_congr fun b _ => ?_
            unfold opensWithin
            rw [Bool.eq_iff_iff]
            simp only [Bool.and_eq_true, decide_eq_true_iff]
            omega
          rw [hown c hlater (by rw [hapart _ hopen.ne]; exact hnone), hbars]

/-- What the merge attaches to a candle of the series. -/
theorem detailGroups_eq (h : s.Ordered) (hc : c ∈ s.candles) :
    ((detailGroups s).bind fun group => group c.openTimeMs) =
      if s.barsWithin c = [] then none else some (s.barsWithin c) := by
  have hgroups := (foldl_groupUnder (fun _ => none) h.pairwise h.detail).2 c hc rfl
  unfold detailGroups SymbolCandles.barsWithin
  cases hdetail : s.detailCandles with
  | none => rfl
  | some bars =>
      rw [hdetail, Option.getD_some] at hgroups
      cases bars with
      | nil => rfl
      | cons bar rest => exact hgroups

/-- Where nothing that the first test takes comes after what the second takes, taking the two in
turn is taking what either takes. -/
theorem filter_append_filter {p q : Candle → Bool} (hdisjoint : ∀ b ∈ bars, p b → q b → False)
    (hbefore : bars.Pairwise fun a b => q a → p b → False) :
    bars.filter p ++ bars.filter q = bars.filter fun b => p b || q b := by
  induction bars with
  | nil => rfl
  | cons b rest ih =>
      obtain ⟨hhead, htail⟩ := List.pairwise_cons.mp hbefore
      have hrest := ih (fun later hmem => hdisjoint later (List.mem_cons_of_mem _ hmem)) htail
      by_cases hp : p b = true
      · have hq : ¬ q b = true := hdisjoint b List.mem_cons_self hp
        rw [List.filter_cons_of_pos hp, List.filter_cons_of_neg hq,
          List.filter_cons_of_pos (by simp [hp]),
          List.cons_append, hrest]
      · by_cases hq : q b = true
        · have hnone : rest.filter p = [] :=
            List.filter_eq_nil_iff.mpr fun later hmem => hhead later hmem hq
          rw [List.filter_cons_of_neg hp, List.filter_cons_of_pos hq,
            List.filter_cons_of_pos (by simp [hq]), ← hrest, hnone,
            List.nil_append, List.nil_append]
        · rw [List.filter_cons_of_neg hp, List.filter_cons_of_neg hq,
            List.filter_cons_of_neg (by simp [hp, hq]), hrest]

theorem flatMap_barsWithin (h : s.Ordered) :
    s.candles.flatMap s.barsWithin =
      (s.detailCandles.getD []).filter fun b => s.candles.any (opensWithin · b) := by
  have hpairs := h.pairwise
  have hdetail := h.detail
  unfold SymbolCandles.barsWithin
  generalize s.detailCandles.getD [] = detail at hdetail ⊢
  generalize s.candles = coarse at hpairs ⊢
  induction coarse with
  | nil => exact (List.filter_eq_nil_iff.mpr (by simp)).symm
  | cons c rest ih =>
      obtain ⟨hfirst, hrest⟩ := List.pairwise_cons.mp hpairs
      -- A bar within a later candle opens after this one has closed.
      have hlater : ∀ b : Candle, rest.any (opensWithin · b) = true →
          c.closeTimeMs < b.openTimeMs := by
        intro b hany
        obtain ⟨later, hmem, hwithin⟩ := List.any_eq_true.mp hany
        exact (hfirst later hmem).2.2.trans_le (of_decide_eq_true hwithin).1
      rw [List.flatMap_cons, ih hrest, filter_append_filter]
      · rfl
      · intro b _ hown hany
        exact absurd (hlater b hany) (not_lt.mpr (of_decide_eq_true hown).2)
      · refine hdetail.imp fun {a b} hab hany hown => ?_
        exact absurd ((hlater a hany).trans_le hab) (not_lt.mpr (of_decide_eq_true hown).2)

end Grouping

/-! ### The merge -/

section Merge

variable {series} {cursors : List ℕ} {i : ℕ}

/-- What is left of a series. -/
def queueAt (series : List SymbolCandles) (cursors : List ℕ) (i : ℕ) : List Candle :=
  (candlesOf series i).drop (cursors[i]?.getD 0)

theorem head?_queueAt : (queueAt series cursors i).head? = candleAt series cursors i := by
  unfold queueAt candleAt candlesOf
  rw [List.head?_drop]
  cases series[i]? with
  | none => rfl
  | some s => rfl

theorem queueAt_eq_nil (hi : series.length ≤ i) : queueAt series cursors i = [] := by
  unfold queueAt candlesOf
  rw [List.getElem?_eq_none hi]
  exact List.drop_nil

/-- The scan finds the earliest close, in the first series that has it. -/
theorem pickSeries_spec :
    (pickSeries series cursors = none → ∀ j < series.length, candleAt series cursors j = none) ∧
      ∀ pick close, pickSeries series cursors = some (pick, close) →
        pick < series.length ∧
          ∃ c, candleAt series cursors pick = some c ∧ c.closeTimeMs = close ∧
            ∀ j < series.length, ∀ y, candleAt series cursors j = some y →
              close ≤ y.closeTimeMs ∧ (j < pick → close < y.closeTimeMs) := by
  unfold pickSeries
  induction series.length with
  | zero => exact ⟨fun _ j hj => absurd hj (Nat.not_lt_zero j), nofun⟩
  | succ n ih =>
      rw [List.range_succ, List.foldl_append, List.foldl_cons, List.foldl_nil]
      generalize List.foldl _ none (List.range n) = picked at ih
      obtain ⟨hnone, hsome⟩ := ih
      cases hlast : candleAt series cursors n with
      | none =>
          refine ⟨?_, ?_⟩
          · intro hpicked j hj
            rcases Nat.lt_succ_iff_lt_or_eq.mp hj with hlt | rfl
            · exact hnone hpicked j hlt
            · exact hlast
          · intro pick close hpicked
            obtain ⟨hpick, c, hc, hclose, hleast⟩ := hsome pick close hpicked
            refine ⟨hpick.trans (Nat.lt_succ_self n), c, hc, hclose, ?_⟩
            intro j hj y hy
            rcases Nat.lt_succ_iff_lt_or_eq.mp hj with hlt | rfl
            · exact hleast j hlt y hy
            · rw [hlast] at hy
              cases hy
      | some last =>
          dsimp only
          split
          · next hearlier =>
              refine ⟨nofun, ?_⟩
              rintro pick close hpicked
              cases hpicked
              refine ⟨Nat.lt_succ_self n, last, hlast, rfl, ?_⟩
              intro j hj y hy
              rcases Nat.lt_succ_iff_lt_or_eq.mp hj with hlt | rfl
              · have hstrict : last.closeTimeMs < y.closeTimeMs := by
                  cases hpicked : picked with
                  | none =>
                      rw [hnone hpicked j hlt] at hy
                      cases hy
                  | some best =>
                      rw [hpicked] at hearlier
                      have hbest : last.closeTimeMs < best.2 := of_decide_eq_true hearlier
                      obtain ⟨-, -, -, -, hleast⟩ := hsome best.1 best.2 hpicked
                      exact hbest.trans_le (hleast j hlt y hy).1
                exact ⟨hstrict.le, fun _ => hstrict⟩
              · rw [hlast] at hy
                cases hy
                exact ⟨le_rfl, fun hlt => absurd hlt (lt_irrefl _)⟩
          · next hearlier =>
              refine ⟨?_, ?_⟩
              · rintro rfl
                exact absurd rfl hearlier
              · rintro pick close rfl
                obtain ⟨hpick, c, hc, hclose, hleast⟩ := hsome pick close rfl
                have hlater : close ≤ last.closeTimeMs :=
                  not_lt.mp fun hlt => hearlier (decide_eq_true hlt)
                refine ⟨hpick.trans (Nat.lt_succ_self n), c, hc, hclose, ?_⟩
                intro j hj y hy
                rcases Nat.lt_succ_iff_lt_or_eq.mp hj with hlt | rfl
                · exact hleast j hlt y hy
                · rw [hlast] at hy
                  cases hy
                  exact ⟨hlater, fun hlt => absurd hlt hpick.not_gt⟩

/-- Moving a cursor on takes the head off its queue. -/
theorem queueAt_set {c : Candle} {rest : List Candle} (hlength : cursors.length = series.length)
    (hi : i < series.length) (hqueue : queueAt series cursors i = c :: rest) :
    queueAt series (cursors.set i (cursors[i]?.getD 0 + 1)) =
      Function.update (queueAt series cursors) i rest := by
  funext j
  by_cases hj : j = i
  · subst hj
    rw [Function.update_self]
    unfold queueAt at hqueue ⊢
    rw [List.getElem?_set_self (by omega), Option.getD_some, ← List.tail_drop, hqueue]
    rfl
  · rw [Function.update_of_ne hj]
    unfold queueAt
    rw [List.getElem?_set_ne (Ne.symm hj)]

theorem emit_merges (hordered : ∀ s ∈ series, s.Ordered) (left : ℕ)
    (hlength : cursors.length = series.length)
    (hleft : ∑ j ∈ Finset.range series.length, (queueAt series cursors j).length ≤ left) :
    ∃ picked, Merged (·.closeTimeMs) (queueAt series cursors) picked ∧
      (emit series (series.map detailGroups) left cursors).map some =
        picked.map fun e => series[e.1]?.map (·.tickOf e.2) := by
  induction left generalizing cursors with
  | zero =>
      refine ⟨[], .drained ?_, rfl⟩
      intro j
      by_cases hj : j < series.length
      · have hzero := Finset.sum_eq_zero_iff.mp (Nat.le_zero.mp hleft) j (Finset.mem_range.mpr hj)
        exact List.length_eq_zero_iff.mp hzero
      · exact queueAt_eq_nil (not_lt.mp hj)
  | succ left ih =>
      obtain ⟨hnone, hsome⟩ := @pickSeries_spec series cursors
      unfold emit
      cases hpick : pickSeries series cursors with
      | none =>
          refine ⟨[], .drained ?_, rfl⟩
          intro j
          by_cases hj : j < series.length
          · rw [← List.head?_eq_none_iff, head?_queueAt]
            exact hnone hpick j hj
          · exact queueAt_eq_nil (not_lt.mp hj)
      | some picked =>
          obtain ⟨pick, close⟩ := picked
          obtain ⟨hlt, c, hc, rfl, hleast⟩ := hsome pick close hpick
          obtain ⟨rest, hqueue⟩ : ∃ rest, queueAt series cursors pick = c :: rest := by
            rw [← head?_queueAt] at hc
            exact List.head?_eq_some_iff.mp hc
          have hmoved := queueAt_set hlength hlt hqueue
          have hfewer :
              ∑ j ∈ Finset.range series.length,
                  (queueAt series (cursors.set pick (cursors[pick]?.getD 0 + 1)) j).length <
                ∑ j ∈ Finset.range series.length, (queueAt series cursors j).length := by
            rw [hmoved]
            refine Finset.sum_lt_sum ?_ ⟨pick, Finset.mem_range.mpr hlt, ?_⟩
            · intro j _
              by_cases hj : j = pick
              · subst hj
                rw [Function.update_self, hqueue]
                exact Nat.le_succ _
              · rw [Function.update_of_ne hj]
            · rw [Function.update_self, hqueue]
              exact Nat.lt_succ_self _
          obtain ⟨picked, hmerged, hticks⟩ := ih (by rw [List.length_set, hlength])
            (Nat.le_of_lt_succ (hfewer.trans_le hleft))
          rw [hmoved] at hmerged
          refine ⟨(pick, c) :: picked, .next hqueue ?_ hmerged, ?_⟩
          · intro j y hy
            rw [head?_queueAt] at hy
            by_cases hj : j < series.length
            · exact hleast j hj y hy
            · rw [← head?_queueAt, queueAt_eq_nil (not_lt.mp hj)] at hy
              cases hy
          · have hseries : series[pick]? = some series[pick] := List.getElem?_eq_getElem hlt
            have hmem : c ∈ series[pick].candles := by
              have hin : c ∈ candlesOf series pick :=
                List.mem_of_mem_drop (hqueue ▸ List.mem_cons_self : c ∈ queueAt series cursors pick)
              unfold candlesOf at hin
              rw [hseries] at hin
              exact hin
            have hattached := detailGroups_eq (hordered _ (List.getElem_mem hlt)) hmem
            dsimp only
            rw [hseries, hc]
            dsimp only
            rw [List.map_cons, List.map_cons, hticks, hseries, List.getElem?_map, hseries]
            dsimp only [Option.map_some, Option.join_some]
            rw [hattached]
            rfl

theorem queueAt_start : queueAt series (series.map fun _ => 0) = candlesOf series := by
  funext j
  have hzero : (series.map fun _ => 0)[j]?.getD 0 = 0 := by
    rw [List.getElem?_map]
    cases series[j]? with
    | none => rfl
    | some s => rfl
  unfold queueAt
  rw [hzero, List.drop_zero]

theorem sum_candlesOf : ∑ j ∈ Finset.range series.length, (candlesOf series j).length =
    series.foldl (fun n s => n + s.candles.length) 0 := by
  induction series using List.reverseRecOn with
  | nil => rfl
  | append_singleton init s ih =>
      rw [List.foldl_append, ← ih, List.length_append, List.length_singleton, Finset.sum_range_succ]
      refine congrArg₂ (· + ·) (Finset.sum_congr rfl fun j hj => ?_) ?_
      · unfold candlesOf
        rw [List.getElem?_append_left (Finset.mem_range.mp hj)]
      · unfold candlesOf
        rw [List.getElem?_append_right le_rfl, Nat.sub_self]
        rfl

theorem mergeCandleTicks_isMerge (hordered : ∀ s ∈ series, s.Ordered) :
    ∃ picked, IsMerge series (mergeCandleTicks series) picked := by
  obtain ⟨picked, hmerged, hticks⟩ := emit_merges hordered
    (series.foldl (fun n s => n + s.candles.length) 0) (List.length_map _)
    (by rw [queueAt_start, sum_candlesOf])
  rw [queueAt_start] at hmerged
  refine ⟨picked, hticks, hmerged.perm ?_, hmerged.sorted ?_, hmerged.queue_eq⟩
  · intro j hj
    rw [← queueAt_start]
    exact queueAt_eq_nil hj
  · intro j
    unfold candlesOf
    cases hseries : series[j]? with
    | none => exact List.Pairwise.nil
    | some s =>
        have hs : s.Ordered := hordered s (List.mem_of_getElem? hseries)
        exact hs.pairwise.imp fun h => h.2.1.le

/-- The closes of the stream never go back. -/
theorem IsMerge.closes {out : List MarketTick} {picked : List (ℕ × Candle)}
    (h : IsMerge series out picked) :
    out.Pairwise fun a b => a.candle.closeTimeMs ≤ b.candle.closeTimeMs := by
  have hcandles : out.map (·.candle) = picked.map (·.2) := by
    have hsome : (out.map some).map (Option.map (·.candle)) =
        (picked.map fun e => series[e.1]?.map (·.tickOf e.2)).map (Option.map (·.candle)) := by
      rw [h.ticks]
    refine List.map_injective_iff.mpr (Option.some_injective _) ?_
    rw [List.map_map, List.map_map] at hsome ⊢
    refine hsome.trans ?_
    refine List.map_congr_left fun e he => ?_
    have hin := h.complete.mem_iff.mp he
    obtain ⟨i, hi, hmem⟩ := List.mem_flatMap.mp hin
    obtain ⟨c, -, rfl⟩ := List.mem_map.mp hmem
    dsimp only [Function.comp]
    rw [List.getElem?_eq_getElem (List.mem_range.mp hi)]
    rfl
  have hsorted : (picked.map (·.2)).Pairwise fun a b => a.closeTimeMs ≤ b.closeTimeMs := by
    refine List.pairwise_map.mpr (h.sorted.imp fun {a b} hab => ?_)
    rcases hab with hlt | ⟨heq, -⟩
    · exact hlt.le
    · exact heq.le
  rw [← hcandles, List.pairwise_map] at hsorted
  exact hsorted

end Merge

/-! ### The order the replay checks -/

section OrderCheck

namespace Run

variable {S : Type} {opts : RunBacktestOptions S} {run run' : Run S} {tick : MarketTick}
  {symbol : String}

theorem lastCloseMs_adoptFills (h : run.adoptFills opts symbol = some run') :
    run'.lastCloseMs = run.lastCloseMs := by
  unfold adoptFills at h
  split at h
  · cases h
    rfl
  · dsimp only at h
    split at h
    · cases h
      rfl
    · obtain ⟨⟨state, prior⟩, -, h⟩ := Option.bind_eq_some_iff.mp h
      cases h
      unfold restoreRefusedSell flattenRefusedBuy
      split <;> split <;> rfl

theorem lastCloseMs_runTick {args : TickArgs} (h : run.runTick opts args = some run') :
    run'.lastCloseMs = run.lastCloseMs := by
  obtain ⟨_, -, h⟩ := Option.bind_eq_some_iff.mp h
  obtain ⟨⟨nextState, decisions⟩, -, h⟩ := Option.bind_eq_some_iff.mp h
  obtain ⟨applied, happly, h⟩ := Option.bind_eq_some_iff.mp h
  obtain ⟨executor, -, happly⟩ := Option.bind_eq_some_iff.mp happly
  cases happly
  rw [lastCloseMs_adoptFills h]
  dsimp only
  split <;> rfl

theorem lastCloseMs_advance {ctx : MarketContext} (h : run.advance opts symbol ctx = some run') :
    run'.lastCloseMs = run.lastCloseMs := by
  obtain ⟨executor, -, h⟩ := Option.bind_eq_some_iff.mp h
  have hsame := lastCloseMs_adoptFills h
  exact hsame

theorem lastCloseMs_addPendingBars (bars : List Candle) :
    (bars.foldl (fun run bar => run.addPendingBar symbol bar) run).lastCloseMs =
      run.lastCloseMs := by
  induction bars generalizing run with
  | nil => rfl
  | cons bar rest ih => exact ih

theorem lastCloseMs_replayBar {bar : Candle} (h : run.replayBar opts tick bar = some run') :
    run'.lastCloseMs = run.lastCloseMs := by
  obtain ⟨moved, hmoved, h⟩ := Option.bind_eq_some_iff.mp h
  have hsame := lastCloseMs_advance hmoved
  dsimp only at h
  split at h
  · exact (lastCloseMs_runTick h).trans hsame
  · cases h
    exact hsame

theorem lastCloseMs_replayBars {closeBars : Option (List Candle)}
    (h : run.replayBars opts tick = some (run', closeBars)) :
      run'.lastCloseMs = run.lastCloseMs := by
  unfold replayBars at h
  split at h
  · split at h
    · cases h
    dsimp only at h
    split at h
    · cases h
      exact lastCloseMs_addPendingBars _
    · obtain ⟨replayed, hreplayed, h⟩ := Option.bind_eq_some_iff.mp h
      cases h
      rw [lastCloseMs_addPendingBars]
      refine @LabelledRun.foldlM_preserves (Run S) Candle run _ _
        (fun r : Run S => r.lastCloseMs = run.lastCloseMs) _ ?_ rfl hreplayed
      intro before bar after _ hsame hbar
      exact (lastCloseMs_replayBar hbar).trans hsame
  · cases h
    rfl

theorem lastCloseMs_closeCandle {closeBars : Option (List Candle)}
    (h : run.closeCandle opts tick closeBars = some run') : run'.lastCloseMs = run.lastCloseMs := by
  obtain ⟨moved, hmoved, h⟩ := Option.bind_eq_some_iff.mp h
  have hsame := lastCloseMs_advance hmoved
  dsimp only at h
  split at h
  · cases h
    exact hsame
  · obtain ⟨ticked, hticked, h⟩ := Option.bind_eq_some_iff.mp h
    cases h
    exact (lastCloseMs_runTick hticked).trans hsame

theorem lastCloseMs_replay (h : run.replay opts tick = some run') :
    run'.lastCloseMs = some tick.candle.closeTimeMs := by
  obtain ⟨barred, closeBars, hbars, hclose⟩ := replay_parts h
  rw [lastCloseMs_closeCandle hclose, lastCloseMs_replayBars hbars]

theorem lastCloseMs_replayAll {stream : List MarketTick} (h : replayAll opts stream = some run) :
    run.lastCloseMs = stream.getLast?.map (·.candle.closeTimeMs) := by
  unfold replayAll at h
  induction stream using List.reverseRecOn with
  | nil =>
      cases h
      rfl
  | append_singleton init tick _ =>
      rw [List.foldlM_append] at h
      obtain ⟨before, -, h⟩ := Option.bind_eq_some_iff.mp h
      obtain ⟨after, hafter, h⟩ := Option.bind_eq_some_iff.mp h
      cases h
      rw [lastCloseMs_replay hafter, List.getLast?_append_of_ne_nil _ (List.cons_ne_nil _ _)]
      rfl

/-- On closes that never go back the replay never refuses a candle for its order. -/
theorem replay_in_order {before after : List MarketTick}
    (hcloses : (before ++ tick :: after).Pairwise fun a b =>
      a.candle.closeTimeMs ≤ b.candle.closeTimeMs)
    (hrun : replayAll opts before = some run) :
    run.lastCloseMs.any (tick.candle.closeTimeMs < ·) = false := by
  rw [lastCloseMs_replayAll hrun]
  cases hlast : before.getLast? with
  | none => rfl
  | some last =>
      have hle := (List.pairwise_append.mp hcloses).2.2 last (List.mem_of_getLast? hlast) tick
        List.mem_cons_self
      exact decide_eq_false (not_lt.mpr hle)

end Run

end OrderCheck

/-- The stream is an order-preserving merge of the series that attaches each bar within a candle
once, and the replay never finds it out of order. -/
theorem mergeCandleTicks_merges_in_order {series : List SymbolCandles}
    (hordered : ∀ s ∈ series, s.Ordered) :
    (∃ picked, IsMerge series (mergeCandleTicks series) picked) ∧
      (∀ s ∈ series, s.candles.flatMap s.barsWithin =
        (s.detailCandles.getD []).filter fun b => s.candles.any (opensWithin · b)) ∧
      ∀ (S : Type) (opts : RunBacktestOptions S) (before after : List MarketTick)
        (tick : MarketTick) (run : Run S), mergeCandleTicks series = before ++ tick :: after →
        Run.replayAll opts before = some run →
        run.lastCloseMs.any (tick.candle.closeTimeMs < ·) = false := by
  obtain ⟨picked, hmerge⟩ := mergeCandleTicks_isMerge hordered
  refine ⟨⟨picked, hmerge⟩, fun s hs => flatMap_barsWithin (hordered s hs), ?_⟩
  intro S opts before after tick run hstream hrun
  have hcloses := hmerge.closes
  rw [hstream] at hcloses
  exact Run.replay_in_order hcloses hrun

/-- A candle over some minutes, at one price. -/
private def minutes (first last : ℤ) : Candle :=
  ⟨first * 60000, last * 60000 + 59999, 100, 100, 100, 100, 1⟩

/-- Two series that close together, the second with bars before, within, between and after its
candles. -/
private def twoSeries : List SymbolCandles :=
  [⟨"BTCUSDT", .m1, [minutes 0 0, minutes 1 1, minutes 2 2], none⟩,
    ⟨"ETHUSDT", .m1, [minutes 1 1, minutes 4 4],
      some [minutes 0 0, minutes 1 1, minutes 3 3, minutes 4 4, minutes 5 5]⟩]

theorem two_series_merge_in_order :
    (∃ picked, IsMerge twoSeries (mergeCandleTicks twoSeries) picked) ∧
      (mergeCandleTicks twoSeries).map
          (fun tick => (tick.symbol, tick.candle.openTimeMs, tick.detailCandles)) =
        [("BTCUSDT", 0, none), ("BTCUSDT", 60000, none), ("ETHUSDT", 60000, some [minutes 1 1]),
          ("BTCUSDT", 120000, none), ("ETHUSDT", 240000, some [minutes 4 4])] := by
  refine ⟨(mergeCandleTicks_merges_in_order ?_).1, by decide +kernel⟩
  intro s hs
  rcases List.mem_cons.mp hs with rfl | hs
  · exact ⟨by decide +kernel, by decide +kernel⟩
  · obtain rfl := List.mem_singleton.mp hs
    exact ⟨by decide +kernel, by decide +kernel⟩

end TradingBot.Backtest
