import Mathlib.Data.List.DropRight
import Mathlib.Data.Set.Defs
import Mathlib.Order.Lattice

/-!
# Monotone deques

A window of entries, of which only those are kept that no later entry beats or
equals. What is kept is in order, so a new entry takes dominated ones off the
back only, and an entry that leaves the window is at the front. The front is an
extremum of the window.
-/

namespace MonotoneDeque

variable {α τ : Type}

/-- The entries of a window that no later entry dominates. -/
def survivors (dominated : α → α → Bool) : List α → List α
  | [] => []
  | a :: rest =>
      if rest.any (dominated a) then survivors dominated rest else a :: survivors dominated rest

/-- Dominance is a total preorder on a set: of two of its entries one dominates the other. -/
structure PreordersOn (dominated : α → α → Bool) (s : Set α) : Prop where
  total : ∀ {a b}, a ∈ s → b ∈ s → dominated a b ∨ dominated b a
  trans : ∀ {a b c}, a ∈ s → b ∈ s → c ∈ s → dominated a b → dominated b c → dominated a c

section Survivors

variable {dominated : α → α → Bool} {s : Set α} {w : List α} {a b : α}

theorem survivors_sublist : (survivors dominated w).Sublist w := by
  induction w with
  | nil => exact List.Sublist.slnil
  | cons a rest ih =>
      unfold survivors
      split
      · exact ih.cons a
      · exact ih.cons_cons a

/-- Dropping from the back stops before an entry that stays. -/
theorem rdropWhile_cons_of_neg {p : α → Bool} (ha : ¬ p a) :
    (a :: w).rdropWhile p = a :: w.rdropWhile p := by
  induction w using List.reverseRecOn with
  | nil => exact List.rdropWhile_concat_neg p [] a ha
  | append_singleton w b ih =>
      rw [← List.cons_append]
      by_cases hb : p b = true
      · rw [List.rdropWhile_concat_pos _ _ _ hb, List.rdropWhile_concat_pos _ _ _ hb, ih]
      · rw [List.rdropWhile_concat_neg _ _ _ hb, List.rdropWhile_concat_neg _ _ _ hb,
          List.cons_append]

/-- A new entry takes what it dominates off the back. -/
theorem survivors_concat (h : PreordersOn dominated s) (hw : ∀ a ∈ w, a ∈ s) (hb : b ∈ s) :
    survivors dominated (w ++ [b]) = (survivors dominated w).rdropWhile (dominated · b) ++ [b] := by
  induction w with
  | nil => rfl
  | cons a rest ih =>
      rw [List.cons_append]
      unfold survivors
      have ha : a ∈ s := hw a List.mem_cons_self
      rw [List.any_append, ih fun c hc => hw c (List.mem_cons_of_mem _ hc)]
      by_cases hrest : rest.any (dominated a) = true
      · rw [if_pos hrest, if_pos (by simp [hrest])]
      · rw [if_neg hrest]
        by_cases hab : dominated a b = true
        · -- Then all that survives of the rest is dominated as well.
          have hall : ∀ c ∈ a :: survivors dominated rest, dominated c b = true := by
            intro c hc
            rcases List.mem_cons.mp hc with rfl | hc
            · exact hab
            · have hmem : c ∈ rest := survivors_sublist.subset hc
              have hcs : c ∈ s := hw c (List.mem_cons_of_mem _ hmem)
              have hca : dominated c a = true := by
                refine (h.total ha hcs).resolve_left fun hac => hrest ?_
                exact List.any_eq_true.mpr ⟨c, hmem, hac⟩
              exact h.trans hcs ha hb hca hab
          rw [if_pos (by simp [hab]), List.rdropWhile_eq_nil_iff.mpr hall,
            List.rdropWhile_eq_nil_iff.mpr fun c hc => hall c (List.mem_cons_of_mem _ hc)]
        · rw [if_neg (by simp [hab, hrest]), rdropWhile_cons_of_neg (by simpa using hab),
            List.cons_append]

theorem exists_front (h : PreordersOn dominated s) (hw : ∀ a ∈ w, a ∈ s) (hne : w ≠ []) :
    ∃ front, (survivors dominated w).head? = some front ∧ front ∈ w ∧
      ∀ a ∈ w, dominated a front := by
  induction w with
  | nil => exact absurd rfl hne
  | cons a rest ih =>
      have ha : a ∈ s := hw a List.mem_cons_self
      have hlater : ∀ c ∈ rest, c ∈ s := fun c hc => hw c (List.mem_cons_of_mem _ hc)
      unfold survivors
      split
      · next hrest =>
          obtain ⟨c, hc, hac⟩ := List.any_eq_true.mp hrest
          obtain ⟨front, hfront, hmem, hall⟩ := ih hlater (List.ne_nil_of_mem hc)
          refine ⟨front, hfront, List.mem_cons_of_mem _ hmem, ?_⟩
          intro b hb
          rcases List.mem_cons.mp hb with rfl | hb
          · exact h.trans ha (hlater c hc) (hlater front hmem) hac (hall c hc)
          · exact hall b hb
      · next hrest =>
          refine ⟨a, rfl, List.mem_cons_self, ?_⟩
          intro b hb
          rcases List.mem_cons.mp hb with rfl | hb
          · exact (h.total ha ha).elim id id
          · refine (h.total ha (hlater b hb)).resolve_left fun hab => hrest ?_
            exact List.any_eq_true.mpr ⟨b, hb, hab⟩

/-- Entries leave the window at the front. -/
theorem dropWhile_survivors [LinearOrder τ] {time : α → τ}
    (hsorted : w.Pairwise fun a b => time a ≤ time b) (oldest : τ) :
    (survivors dominated w).dropWhile (time · < oldest) =
      survivors dominated (w.dropWhile (time · < oldest)) := by
  induction w with
  | nil => rfl
  | cons a rest ih =>
      obtain ⟨hhead, htail⟩ := List.pairwise_cons.mp hsorted
      by_cases ha : time a < oldest
      · rw [List.dropWhile_cons_of_pos (by simpa using ha), ← ih htail]
        rw [survivors]
        split
        · rfl
        · rw [List.dropWhile_cons_of_pos (by simpa using ha)]
      · rw [List.dropWhile_cons_of_neg (by simpa using ha)]
        have hlate : ∀ c ∈ survivors dominated (a :: rest), ¬ time c < oldest := by
          intro c hc
          rcases List.mem_cons.mp (survivors_sublist.subset hc) with rfl | hmem
          · exact ha
          · exact not_lt.mpr ((not_lt.mp ha).trans (hhead c hmem))
        refine List.dropWhile_eq_self_iff.mpr fun hpos => ?_
        simpa using hlate _ (List.getElem_mem hpos)

/-- On strictly increasing times, what is left from a time on is what is left from its place on. -/
theorem dropWhile_eq_drop [LinearOrder τ] {time : α → τ} (k : ℕ)
    (hsorted : w.Pairwise fun a b => time a < time b) {oldest : α} {rest : List α}
    (hdrop : w.drop k = oldest :: rest) : w.dropWhile (time · < time oldest) = oldest :: rest := by
  induction w generalizing k with
  | nil =>
      rw [List.drop_nil] at hdrop
      cases hdrop
  | cons a w ih =>
      obtain ⟨hhead, htail⟩ := List.pairwise_cons.mp hsorted
      cases k with
      | zero =>
          cases hdrop
          exact List.dropWhile_cons_of_neg (by simp)
      | succ k =>
          have hmem : oldest ∈ w := List.mem_of_mem_drop (hdrop ▸ List.mem_cons_self :
            oldest ∈ w.drop k)
          rw [List.dropWhile_cons_of_pos (by simpa using hhead oldest hmem)]
          exact ih k htail hdrop

end Survivors

end MonotoneDeque
