import Mathlib.Algebra.Order.BigOperators.Group.List
import Mathlib.Algebra.Order.Group.Unbundled.Basic
import Mathlib.Data.List.TakeWhile
import Mathlib.Order.Lattice

/-!
# Tallies over a rolling window

Stamped amounts in the order they were recorded. What a horizon leaves behind
can be dropped from the front as soon as the stamps never go back, so a tally
that prunes itself lazily still sums to everything recorded since the horizon.
-/

namespace RollingTally

/-- An amount and the instant it was recorded at. -/
structure Entry (τ κ : Type*) where
  ts : τ
  amount : κ
deriving DecidableEq

variable {τ κ : Type*} [LinearOrder τ]

section Horizon

/-- What was recorded after a horizon. -/
def since (horizon : τ) (l : List (Entry τ κ)) : List (Entry τ κ) := l.filter (horizon < ·.ts)

/-- What was recorded after one instant and no later than another. -/
def between (start stop : τ) (l : List (Entry τ κ)) : List (Entry τ κ) :=
  l.filter fun e => start < e.ts && e.ts ≤ stop

/-- Drop from the front what the horizon has passed. -/
def expire (horizon : τ) (l : List (Entry τ κ)) : List (Entry τ κ) :=
  l.dropWhile (·.ts ≤ horizon)

/-- The stamps never go back. -/
def Chronological (l : List (Entry τ κ)) : Prop := l.Pairwise (·.ts ≤ ·.ts)

variable {l : List (Entry τ κ)} {horizon : τ} {e : Entry τ κ}

theorem chronological_append (hl : Chronological l) (he : ∀ d ∈ l, d.ts ≤ e.ts) :
    Chronological (l ++ [e]) := by
  refine List.pairwise_append.mpr ⟨hl, List.pairwise_singleton _ _, ?_⟩
  intro d hd d' hd'
  rw [List.mem_singleton.mp hd']
  exact he d hd

/-- On a chronological list, dropping from the front is keeping what is recent. -/
theorem expire_eq_since (hl : Chronological l) : expire horizon l = since horizon l := by
  induction l with
  | nil => rfl
  | cons d l ih =>
      have hd := List.pairwise_cons.mp hl
      by_cases h : d.ts ≤ horizon
      · have hnot : ¬ horizon < d.ts := not_lt.mpr h
        simpa [expire, since, h, hnot] using ih hd.2
      · have hrecent : ∀ d' ∈ l, horizon < d'.ts := fun d' hd' =>
          lt_of_lt_of_le (not_le.mp h) (hd.1 d' hd')
        have hkept : l.filter (horizon < ·.ts) = l :=
          List.filter_eq_self.mpr fun d' hd' => decide_eq_true (hrecent d' hd')
        simp [expire, since, h, not_le.mp h, hkept]

theorem Chronological.sublist {l' : List (Entry τ κ)} (hl : Chronological l)
    (h : l'.Sublist l) : Chronological l' := List.Pairwise.sublist h hl

/-- Within one window's length of an instant, everything recorded is recent. -/
theorem between_sublist_since {start stop : τ} {l' : List (Entry τ κ)} (h : horizon ≤ start)
    (hsub : l'.Sublist l) : (between start stop l').Sublist (since horizon l) := by
  refine List.Sublist.trans ?_ (hsub.filter _)
  rw [between]
  refine List.monotone_filter_right l' ?_
  intro d hd
  have hd := (Bool.and_eq_true _ _).mp hd
  exact decide_eq_true (lt_of_le_of_lt h (of_decide_eq_true hd.1))

end Horizon

section Total

variable [AddCommMonoid κ] [PartialOrder κ] [IsOrderedAddMonoid κ]

def total (l : List (Entry τ κ)) : κ := (l.map (·.amount)).sum

variable {l l' : List (Entry τ κ)} {e : Entry τ κ}

omit [LinearOrder τ] [PartialOrder κ] [IsOrderedAddMonoid κ] in
@[simp] theorem total_append (l l' : List (Entry τ κ)) : total (l ++ l') = total l + total l' := by
  simp [total]

omit [LinearOrder τ] [PartialOrder κ] [IsOrderedAddMonoid κ] in
@[simp] theorem total_singleton (e : Entry τ κ) : total [e] = e.amount := by simp [total]

omit [LinearOrder τ] in
/-- With nothing negative, a part sums to no more than the whole. -/
theorem total_le_of_sublist (h : l'.Sublist l) (hl : ∀ e ∈ l, 0 ≤ e.amount) :
    total l' ≤ total l := by
  induction h with
  | slnil => exact le_rfl
  | @cons l₁ l₂ e _ ih =>
      have hrest := ih fun d hd => hl d (List.mem_cons_of_mem e hd)
      calc total l₁ ≤ total l₂ := hrest
        _ ≤ e.amount + total l₂ := le_add_of_nonneg_left (hl e List.mem_cons_self)
        _ = total (e :: l₂) := by simp [total]
  | @cons_cons l₁ l₂ e _ ih =>
      have hrest := ih fun d hd => hl d (List.mem_cons_of_mem e hd)
      simp only [total, List.map_cons, List.sum_cons] at hrest ⊢
      exact add_le_add le_rfl hrest

end Total

/-! ### Tallies that forget -/

/-- What is left of a tally has lost only what the horizon has passed. -/
def Remembers (horizon : τ) (records recorded : List (Entry τ κ)) : Prop :=
  ∃ dropped, recorded = dropped ++ records ∧ ∀ e ∈ dropped, e.ts ≤ horizon

section Remembers

variable {horizon horizon' : τ} {records recorded : List (Entry τ κ)}

theorem Remembers.later (h : Remembers horizon records recorded) (hle : horizon ≤ horizon') :
    Remembers horizon' records recorded := by
  obtain ⟨dropped, heq, hpast⟩ := h
  exact ⟨dropped, heq, fun e he => (hpast e he).trans hle⟩

theorem Remembers.append (h : Remembers horizon records recorded) (e : Entry τ κ) :
    Remembers horizon (records ++ [e]) (recorded ++ [e]) := by
  obtain ⟨dropped, rfl, hpast⟩ := h
  exact ⟨dropped, List.append_assoc _ _ _, hpast⟩

theorem Remembers.expire (h : Remembers horizon records recorded) :
    Remembers horizon (expire horizon records) recorded := by
  obtain ⟨dropped, rfl, hpast⟩ := h
  refine ⟨dropped ++ records.takeWhile (·.ts ≤ horizon), ?_, fun e he => ?_⟩
  · rw [RollingTally.expire, List.append_assoc, List.takeWhile_append_dropWhile]
  · rcases List.mem_append.mp he with he | he
    · exact hpast e he
    · have htaken := List.mem_takeWhile_imp he
      exact of_decide_eq_true htaken

theorem Remembers.expire_eq (h : Remembers horizon records recorded)
    (hchronological : Chronological recorded) :
    RollingTally.expire horizon records = since horizon recorded := by
  obtain ⟨dropped, rfl, hpast⟩ := h
  have hnone : since horizon dropped = [] :=
    List.filter_eq_nil_iff.mpr fun e he => by simpa using hpast e he
  rw [expire_eq_since (hchronological.sublist (List.sublist_append_right _ _)), since, since,
    List.filter_append]
  exact (congrArg (· ++ _) hnone).symm

end Remembers

section Span

variable [AddCommGroup τ] [IsOrderedAddMonoid τ] [AddCommMonoid κ] [PartialOrder κ]
  [IsOrderedAddMonoid κ] {width now : τ} {amount cap : κ} {l : List (Entry τ κ)}

/-- What fits beside the rolling tally keeps every span of the window's width within the cap. -/
theorem span_append_le (hnonneg : ∀ e ∈ l, 0 ≤ e.amount)
    (hspan : ∀ start, total (between start (start + width) l) ≤ cap)
    (hfits : total (since (now - width) l) + amount ≤ cap) (start : τ) :
    total (between start (start + width) (l ++ [⟨now, amount⟩])) ≤ cap := by
  have happend : between start (start + width) (l ++ [⟨now, amount⟩]) =
      between start (start + width) l ++ between start (start + width) [⟨now, amount⟩] :=
    List.filter_append _ _
  rw [happend, total_append]
  by_cases hin : start < now ∧ now ≤ start + width
  · have hnew : between start (start + width) [(⟨now, amount⟩ : Entry τ κ)] = [⟨now, amount⟩] := by
      simp [between, hin.1, hin.2]
    have hpart : total (between start (start + width) l) ≤ total (since (now - width) l) :=
      total_le_of_sublist (between_sublist_since (sub_le_iff_le_add.mpr hin.2)
        (List.Sublist.refl l))
        fun e he => hnonneg e (List.mem_of_mem_filter he)
    rw [hnew, total_singleton]
    exact (add_le_add_left hpart _).trans hfits
  · have hnew : between start (start + width) [(⟨now, amount⟩ : Entry τ κ)] = [] := by
      refine List.filter_eq_nil_iff.mpr fun e he => ?_
      rw [List.mem_singleton.mp he]
      simpa using fun hlt => not_le.mp fun hle => hin ⟨hlt, hle⟩
    rw [hnew]
    simpa [total] using hspan start

end Span

end RollingTally
