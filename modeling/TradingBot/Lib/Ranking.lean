import Mathlib.Data.List.Sort

/-!
# Ranks in a sorted list

Where a sort puts an element, told without sorting: its place is the number of
elements with a lesser key. With distinct keys the elements of lesser place than
`k` are the first `k` of the sorted list, whatever order the list came in.
-/

namespace Ranking

variable {α κ : Type}

/-! ### What a merge sort compares -/

/-- A merge compares elements of its first list with elements of its second. -/
theorem merge_congr {r s : α → α → Bool} {xs ys : List α}
    (h : ∀ x ∈ xs, ∀ y ∈ ys, r x y = s x y) : xs.merge ys r = xs.merge ys s := by
  induction xs generalizing ys with
  | nil => simp
  | cons x xs ihx =>
      induction ys with
      | nil => simp
      | cons y ys ihy =>
          rw [List.cons_merge_cons, List.cons_merge_cons, h x (by simp) y (by simp)]
          split
          · rw [ihx fun a ha b hb => h a (List.mem_cons_of_mem x ha) b hb]
          · rw [ihy fun a ha b hb => h a ha b (List.mem_cons_of_mem y hb)]

/-- A merge sort compares elements with later ones only, never one with itself. -/
theorem mergeSort_congr {r s : α → α → Bool} (l : List α)
    (h : l.Pairwise fun a b => r a b = s a b) : l.mergeSort r = l.mergeSort s := by
  match l with
  | [] => simp
  | [a] => simp
  | a :: b :: l =>
      rw [List.mergeSort, List.mergeSort]
      simp only [List.MergeSort.Internal.splitInTwo_fst, List.MergeSort.Internal.splitInTwo_snd]
      rw [mergeSort_congr _ (h.sublist (List.take_sublist (((a :: b :: l).length + 1) / 2) _)),
        mergeSort_congr _ (h.sublist (List.drop_sublist (((a :: b :: l).length + 1) / 2) _))]
      refine merge_congr fun x hx y hy => ?_
      exact h.rel_of_mem_take_of_mem_drop (List.mem_mergeSort.mp hx) (List.mem_mergeSort.mp hy)
termination_by l.length
decreasing_by
  all_goals simp only [List.length_take, List.length_drop, List.length_cons]
  all_goals omega

/-! ### Ranks -/

variable [LinearOrder κ] {key : α → κ} {l ranked : List α} {x : α}

/-- How many elements have a lesser key. -/
def rankOf (key : α → κ) (l : List α) (x : α) : ℕ := l.countP fun a => key a < key x

theorem rankOf_perm (h : l.Perm ranked) (x : α) : rankOf key l x = rankOf key ranked x :=
  h.countP_eq _

theorem findIdx_eq_rankOf {p : α → Bool} (hsorted : ranked.Pairwise fun a b => key a < key b)
    (hx : x ∈ ranked) (hp : ∀ a ∈ ranked, p a = true ↔ a = x) :
    ranked.findIdx p = rankOf key ranked x := by
  induction ranked with
  | nil => cases hx
  | cons a rest ih =>
      obtain ⟨hhead, htail⟩ := List.pairwise_cons.mp hsorted
      rw [List.findIdx_cons, rankOf, List.countP_cons]
      by_cases ha : a = x
      · have hnone : rest.countP (fun b => decide (key b < key x)) = 0 := by
          rw [List.countP_eq_zero]
          intro b hb
          simpa [← ha] using (hhead b hb).le
        rw [(hp a List.mem_cons_self).mpr ha, hnone]
        simp [ha]
      · have hrest : x ∈ rest := (List.mem_cons.mp hx).resolve_left (Ne.symm ha)
        have hfalse : p a = false := by
          simpa using (not_congr (hp a List.mem_cons_self)).mpr ha
        rw [hfalse, cond_false, ih htail hrest fun b hb => hp b (List.mem_cons_of_mem a hb)]
        simp [rankOf, hhead x hrest]

theorem filter_rankOf_lt (hsorted : ranked.Pairwise fun a b => key a < key b) (k : ℕ) :
    ranked.filter (fun x => rankOf key ranked x < k) = ranked.take k := by
  induction ranked generalizing k with
  | nil => simp
  | cons a rest ih =>
      obtain ⟨hhead, htail⟩ := List.pairwise_cons.mp hsorted
      have hfirst : rankOf key (a :: rest) a = 0 := by
        rw [rankOf, List.countP_eq_zero]
        intro b hb
        rcases List.mem_cons.mp hb with rfl | hb
        · simp
        · simpa using (hhead b hb).le
      have hlater : ∀ b ∈ rest, rankOf key (a :: rest) b = rankOf key rest b + 1 := by
        intro b hb
        simp [rankOf, hhead b hb]
      cases k with
      | zero => simp
      | succ k =>
          rw [List.take_succ_cons, ← ih htail k, List.filter_cons, hfirst]
          simp only [Nat.zero_lt_succ, decide_true, ↓reduceIte, List.cons.injEq, true_and]
          refine List.filter_congr fun b hb => ?_
          rw [hlater b hb]
          simp

theorem pairwise_mergeSort_lt (hkeys : (l.map key).Nodup) :
    (l.mergeSort fun a b => key a ≤ key b).Pairwise fun a b => key a < key b := by
  have hperm := List.mergeSort_perm l fun a b => decide (key a ≤ key b)
  have hle : (l.mergeSort fun a b => key a ≤ key b).Pairwise fun a b => key a ≤ key b := by
    have hsorted := @List.pairwise_mergeSort α (fun a b => decide (key a ≤ key b))
      (fun a b c hab hbc => by simpa using (of_decide_eq_true hab).trans (of_decide_eq_true hbc))
      (fun a b => by simpa using le_total (key a) (key b)) l
    exact hsorted.imp fun h => of_decide_eq_true h
  have hne : (l.mergeSort fun a b => key a ≤ key b).Pairwise fun a b => key a ≠ key b :=
    List.pairwise_map.mp ((hperm.map key).nodup_iff.mpr hkeys)
  exact (hle.and hne).imp fun h => lt_of_le_of_ne h.1 h.2

/-- With distinct keys, exactly the first `k` elements of the sorted list have a rank below `k`. -/
theorem length_filter_rankOf_lt (hkeys : (l.map key).Nodup) (k : ℕ) :
    (l.filter fun x => rankOf key l x < k).length = min k l.length := by
  have hperm := List.mergeSort_perm l fun a b => decide (key a ≤ key b)
  have hranks : (l.filter fun x => rankOf key l x < k).Perm
      ((l.mergeSort fun a b => key a ≤ key b).filter fun x =>
        rankOf key (l.mergeSort fun a b => key a ≤ key b) x < k) := by
    refine (hperm.symm.filter _).trans (List.Perm.of_eq (List.filter_congr fun x _ => ?_))
    rw [rankOf_perm hperm.symm]
  rw [hranks.length_eq, filter_rankOf_lt (pairwise_mergeSort_lt hkeys), List.length_take,
    hperm.length_eq]

end Ranking
