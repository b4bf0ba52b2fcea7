import Mathlib.Data.List.Sort

/-!
# Filling slots greedily

Candidates are taken in turn, each if there is room and it goes with those
already taken. Room that is not used does not matter, nor does refusing a
candidate that is not taken. The second part is about stable sorting: dropping
elements before a sort or after it comes to the same, and a sort by an order of
the elements does not depend on how they came.
-/

namespace GreedyFill

section Fill

variable {α : Type}

/-- The candidates in turn, each taken if a slot is left and the taken ones admit it. -/
def fill (admits : List α → α → Bool) (slots : ℕ) (taken : List α) : List α → List α
  | [] => taken
  | a :: rest =>
      if taken.length < slots ∧ admits taken a then fill admits slots (taken ++ [a]) rest
      else fill admits slots taken rest

variable {admits : List α → α → Bool} {slots m n : ℕ} {taken l : List α}

/-- Taking candidates adds some of them, in their order and each at most once. -/
theorem fill_eq_append (admits : List α → α → Bool) (slots : ℕ) (taken l : List α) :
    ∃ extra, fill admits slots taken l = taken ++ extra ∧ extra.Sublist l ∧
      ∀ a ∈ extra, ∃ among, admits among a = true := by
  induction l generalizing taken with
  | nil => exact ⟨[], by simp [fill], .slnil, by simp⟩
  | cons a rest ih =>
      rw [fill]
      split
      · next h =>
          obtain ⟨extra, hextra, hsub, hadmits⟩ := ih (taken ++ [a])
          refine ⟨a :: extra, by simpa using hextra, hsub.cons_cons a, ?_⟩
          intro b hb
          rcases List.mem_cons.mp hb with rfl | hb
          · exact ⟨taken, h.2⟩
          · exact hadmits b hb
      · obtain ⟨extra, hextra, hsub, hadmits⟩ := ih taken
        exact ⟨extra, hextra, hsub.cons a, hadmits⟩

theorem length_fill_le (h : taken.length ≤ slots) : (fill admits slots taken l).length ≤ slots := by
  induction l generalizing taken with
  | nil => exact h
  | cons a rest ih =>
      rw [fill]
      split
      · next hroom =>
          refine ih ?_
          rw [List.length_append, List.length_singleton]
          omega
      · exact ih h

/-- Slots beyond those that are used make no difference. -/
theorem fill_of_length_le (hmn : m ≤ n) (h : (fill admits n taken l).length ≤ m) :
    fill admits m taken l = fill admits n taken l := by
  induction l generalizing taken with
  | nil => rfl
  | cons a rest ih =>
      rw [fill] at h ⊢
      by_cases htake : taken.length < n ∧ admits taken a = true
      · rw [if_pos htake] at h
        have hroom : taken.length < m := by
          obtain ⟨extra, hextra, -⟩ := fill_eq_append admits n (taken ++ [a]) rest
          rw [hextra] at h
          simp only [List.length_append, List.length_singleton] at h
          omega
        rw [if_pos ⟨hroom, htake.2⟩, fill, if_pos htake]
        exact ih h
      · rw [if_neg htake] at h
        have hskip : ¬ (taken.length < m ∧ admits taken a = true) :=
          fun hm => htake ⟨hm.1.trans_le hmn, hm.2⟩
        rw [if_neg hskip, fill, if_neg htake]
        exact ih h

/-- Refusing candidates that are not taken makes no difference. -/
theorem fill_of_forall_mem {admits' : List α → α → Bool} {p : α → Bool}
    (hadmits : ∀ among a, admits' among a = (admits among a && p a))
    (h : ∀ a ∈ fill admits slots taken l, a ∉ taken → p a = true)
    (htaken : ∀ a ∈ taken, p a = true) :
    fill admits' slots taken l = fill admits slots taken l := by
  induction l generalizing taken with
  | nil => rfl
  | cons a rest ih =>
      rw [fill] at h ⊢
      by_cases htake : taken.length < slots ∧ admits taken a = true
      · rw [if_pos htake] at h
        have hmem : a ∈ fill admits slots (taken ++ [a]) rest := by
          obtain ⟨extra, hextra, -⟩ := fill_eq_append admits slots (taken ++ [a]) rest
          rw [hextra]
          simp
        have hp : p a = true := by
          by_cases hin : a ∈ taken
          · exact htaken a hin
          · exact h a hmem hin
        rw [if_pos ⟨htake.1, by rw [hadmits, htake.2, hp]; rfl⟩, fill, if_pos htake]
        refine ih (fun b hb hnot => h b hb fun hin => hnot (List.mem_append_left _ hin)) ?_
        intro b hb
        rcases List.mem_append.mp hb with hb | hb
        · exact htaken b hb
        · rw [List.mem_singleton.mp hb]
          exact hp
      · rw [if_neg htake] at h
        have hskip : ¬ (taken.length < slots ∧ admits' taken a = true) := by
          rintro ⟨hroom, hadm⟩
          rw [hadmits, Bool.and_eq_true] at hadm
          exact htake ⟨hroom, hadm.1⟩
        rw [if_neg hskip, fill, if_neg htake]
        exact ih h htaken

/-- Dropping elements leaves the first ones as they are where none of them is dropped. -/
theorem take_filter {p : α → Bool} {n : ℕ} {l : List α} (h : ∀ a ∈ l.take n, p a = true) :
    (l.filter p).take n = l.take n := by
  induction l generalizing n with
  | nil => rfl
  | cons a rest ih =>
      cases n with
      | zero => rfl
      | succ n =>
          rw [List.take_succ_cons] at h
          rw [List.filter_cons_of_pos (h a List.mem_cons_self), List.take_succ_cons,
            List.take_succ_cons, ih fun b hb => h b (List.mem_cons_of_mem a hb)]

end Fill

/-! ### Stable sorting -/

section Sorting

variable {α : Type} {r : α → α → Prop} [DecidableRel r] [IsTrans α r]

/-- Insertion into a sorted list commutes with dropping elements. -/
theorem filter_orderedInsert (p : α → Bool) (a : α) {l : List α} (hl : l.Pairwise r) :
    (l.orderedInsert r a).filter p =
      if p a then (l.filter p).orderedInsert r a else l.filter p := by
  induction l with
  | nil => by_cases hp : p a = true <;> simp [hp]
  | cons b rest ih =>
      obtain ⟨hb, hrest⟩ := List.pairwise_cons.mp hl
      rw [List.orderedInsert]
      by_cases hab : r a b
      · rw [if_pos hab, List.filter_cons]
        by_cases hp : p a = true
        · rw [if_pos hp, if_pos hp]
          -- `a` goes before everything that is left
          have hfirst : ∀ c ∈ (b :: rest).filter p, r a c := by
            intro c hc
            rcases List.mem_cons.mp (List.mem_of_mem_filter hc) with rfl | hc
            · exact hab
            · exact IsTrans.trans a b c hab (hb c hc)
          cases hkept : (b :: rest).filter p with
          | nil => rfl
          | cons c kept =>
              rw [List.orderedInsert, if_pos]
              exact hfirst c (by rw [hkept]; exact List.mem_cons_self)
        · rw [if_neg hp, if_neg hp]
      · rw [if_neg hab, List.filter_cons, List.filter_cons, ih hrest]
        by_cases hq : p b = true
        · rw [if_pos hq, if_pos hq]
          by_cases hp : p a = true
          · rw [if_pos hp, if_pos hp, List.orderedInsert, if_neg hab]
          · rw [if_neg hp, if_neg hp]
        · rw [if_neg hq, if_neg hq]

theorem filter_insertionSort [Std.Total r] (p : α → Bool) (l : List α) :
    (l.insertionSort r).filter p = (l.filter p).insertionSort r := by
  induction l with
  | nil => rfl
  | cons a rest ih =>
      rw [List.insertionSort_cons, filter_orderedInsert p a (List.pairwise_insertionSort r rest),
        ih, List.filter_cons]
      by_cases hp : p a = true
      · rw [if_pos hp, if_pos hp, List.insertionSort_cons]
      · rw [if_neg hp, if_neg hp]

end Sorting

/-! ### Sorting by an order of the elements -/

section Elements

variable {α : Type} {r : α → α → Prop} [DecidableRel r] {l l' : List α}

/-- A relation that orders the elements of a list, whatever it does elsewhere. -/
structure Orders (r : α → α → Prop) (l : List α) : Prop where
  total : ∀ a ∈ l, ∀ b ∈ l, r a b ∨ r b a
  trans : ∀ a ∈ l, ∀ b ∈ l, ∀ c ∈ l, r a b → r b c → r a c
  antisymm : ∀ a ∈ l, ∀ b ∈ l, r a b → r b a → a = b

omit [DecidableRel r] in
theorem Orders.subset (h : Orders r l) (hsub : l' ⊆ l) : Orders r l' where
  total a ha b hb := h.total a (hsub ha) b (hsub hb)
  trans a ha b hb c hc := h.trans a (hsub ha) b (hsub hb) c (hsub hc)
  antisymm a ha b hb := h.antisymm a (hsub ha) b (hsub hb)

theorem Orders.pairwise_orderedInsert {a : α} (h : Orders r (a :: l)) (hl : l.Pairwise r) :
    (l.orderedInsert r a).Pairwise r := by
  induction l with
  | nil => exact List.pairwise_singleton r a
  | cons b rest ih =>
      obtain ⟨hb, hrest⟩ := List.pairwise_cons.mp hl
      rw [List.orderedInsert]
      split
      · next hab =>
          refine List.pairwise_cons.mpr ⟨?_, hl⟩
          intro c hc
          rcases List.mem_cons.mp hc with rfl | hin
          · exact hab
          · exact h.trans a (by simp) b (by simp) c (by simp [hin]) hab (hb c hin)
      · next hab =>
          have hsub : a :: rest ⊆ a :: b :: rest := by
            intro c hc
            rcases List.mem_cons.mp hc with rfl | hin
            · exact List.mem_cons_self
            · exact List.mem_cons_of_mem _ (List.mem_cons_of_mem _ hin)
          refine List.pairwise_cons.mpr ⟨?_, ih (h.subset hsub) hrest⟩
          intro c hc
          rcases List.mem_cons.mp ((List.perm_orderedInsert r a rest).mem_iff.mp hc) with rfl | hin
          · exact (h.total _ (by simp) b (by simp)).resolve_left hab
          · exact hb c hin

theorem Orders.pairwise_insertionSort (h : Orders r l) : (l.insertionSort r).Pairwise r := by
  induction l with
  | nil => exact List.Pairwise.nil
  | cons a rest ih =>
      rw [List.insertionSort_cons]
      refine Orders.pairwise_orderedInsert (h.subset ?_)
        (ih (h.subset (List.subset_cons_self a rest)))
      intro c hc
      rcases List.mem_cons.mp hc with rfl | hin
      · exact List.mem_cons_self
      · exact List.mem_cons_of_mem _ ((List.mem_insertionSort r).mp hin)

/-- The sorted list does not depend on how the elements came. -/
theorem Orders.insertionSort_eq_of_perm (h : Orders r l) (hperm : l'.Perm l) :
    l'.insertionSort r = l.insertionSort r := by
  have hl' : Orders r l' := h.subset hperm.subset
  have hsorted : (l'.insertionSort r).Perm (l.insertionSort r) :=
    (List.perm_insertionSort r l').trans (hperm.trans (List.perm_insertionSort r l).symm)
  refine hsorted.eq_of_pairwise ?_ hl'.pairwise_insertionSort h.pairwise_insertionSort
  intro a b ha hb hab hba
  exact h.antisymm a (hperm.subset ((List.mem_insertionSort r).mp ha)) b
    ((List.mem_insertionSort r).mp hb)
    hab hba

end Elements

end GreedyFill
