import Mathlib.Data.List.Perm.Basic
import Mathlib.Data.List.Range
import Mathlib.Logic.Function.Basic
import Mathlib.Order.Lattice

/-!
# Merging queues

Numbered queues are merged by taking, time after time, a head of least key from
the first queue that has one. The merged list keeps every queue's order, holds
every element of every queue, and is sorted where the queues are, with equal
keys in the order of the queues.
-/

namespace QueueMerge

variable {α β : Type}

/-- The list that merging the queues produces, each element with the number of its queue. -/
inductive Merged [LT β] [LE β] (key : α → β) : (ℕ → List α) → List (ℕ × α) → Prop
  | drained {queues : ℕ → List α} (hempty : ∀ i, queues i = []) : Merged key queues []
  | next {queues : ℕ → List α} {i : ℕ} {x : α} {rest : List α} {out : List (ℕ × α)}
      (hhead : queues i = x :: rest)
      (hleast : ∀ j y, (queues j).head? = some y → key x ≤ key y ∧ (j < i → key x < key y))
      (hrest : Merged key (Function.update queues i rest) out) :
      Merged key queues ((i, x) :: out)

/-- The order of the merged list: by key, then by queue. -/
def Before [LT β] (key : α → β) (a b : ℕ × α) : Prop :=
  key a.2 < key b.2 ∨ key a.2 = key b.2 ∧ a.1 ≤ b.1

section Order

variable [LinearOrder β] {key : α → β} {queues : ℕ → List α} {out : List (ℕ × α)}

/-- The elements of a queue come out in its order. -/
theorem Merged.queue_eq (h : Merged key queues out) (i : ℕ) :
    (out.filter (·.1 = i)).map (·.2) = queues i := by
  induction h with
  | drained hempty => exact (hempty i).symm
  | @next queues j x rest out hhead _ _ ih =>
      by_cases hj : j = i
      · subst hj
        rw [Function.update_self] at ih
        rw [List.filter_cons_of_pos (by simp), List.map_cons, ih, hhead]
      · rw [Function.update_of_ne (Ne.symm hj)] at ih
        rw [List.filter_cons_of_neg (by simpa using hj), ih]

theorem Merged.mem_queue (h : Merged key queues out) {e : ℕ × α} (he : e ∈ out) :
    e.2 ∈ queues e.1 := by
  rw [← h.queue_eq e.1]
  exact List.mem_map_of_mem (List.mem_filter.mpr ⟨he, by simp⟩)

/-- Merging sorted queues sorts them, equal keys by the queues' numbers. -/
theorem Merged.sorted (h : Merged key queues out)
    (hqueues : ∀ i, (queues i).Pairwise fun a b => key a ≤ key b) : out.Pairwise (Before key) := by
  induction h with
  | drained _ => exact List.Pairwise.nil
  | @next queues i x rest out hhead hleast hrest ih =>
      have hi := hqueues i
      rw [hhead, List.pairwise_cons] at hi
      refine List.pairwise_cons.mpr ⟨?_, ih ?_⟩
      · rintro ⟨j, y⟩ hmem
        have hy := hrest.mem_queue hmem
        by_cases hj : j = i
        · subst hj
          rw [Function.update_self] at hy
          rcases (hi.1 y hy).lt_or_eq with hlt | heq
          · exact .inl hlt
          · exact .inr ⟨heq, le_rfl⟩
        · rw [Function.update_of_ne hj] at hy
          -- The head of the other queue stands between the two.
          obtain ⟨z, others, hz⟩ := List.exists_cons_of_ne_nil (List.ne_nil_of_mem hy)
          have hsorted := hqueues j
          dsimp only at hy
          rw [hz, List.pairwise_cons] at hsorted
          have hzy : key z ≤ key y := by
            rw [hz] at hy
            rcases List.mem_cons.mp hy with rfl | hlater
            · exact le_rfl
            · exact hsorted.1 y hlater
          obtain ⟨hxz, hstrict⟩ := hleast j z (by rw [hz]; rfl)
          rcases (hxz.trans hzy).lt_or_eq with hlt | heq
          · exact .inl hlt
          · refine .inr ⟨heq, ?_⟩
            by_contra hji
            exact absurd heq ((hstrict (not_le.mp hji)).trans_le hzy).ne
      · intro j
        by_cases hj : j = i
        · subst hj
          rw [Function.update_self]
          exact hi.2
        · rw [Function.update_of_ne hj]
          exact hqueues j

end Order

/-- A list of numbered elements, gathered number by number. -/
theorem perm_flatMap_filter {n : ℕ} (l : List (ℕ × α)) (hbound : ∀ e ∈ l, e.1 < n) :
    l.Perm ((List.range n).flatMap fun i => l.filter (·.1 = i)) := by
  induction n generalizing l with
  | zero =>
      cases l with
      | nil => exact List.Perm.nil
      | cons e rest => exact absurd (hbound e List.mem_cons_self) (Nat.not_lt_zero _)
  | succ n ih =>
      have hfewer : ∀ e ∈ l.filter (fun e => ¬ e.1 = n), e.1 < n := by
        intro e he
        have hne := (List.mem_filter.mp he).2
        have hlt := hbound e (List.mem_of_mem_filter he)
        rw [decide_eq_true_iff] at hne
        omega
      have hsame : ∀ i ∈ List.range n,
          (l.filter fun e => ¬ e.1 = n).filter (·.1 = i) = l.filter (·.1 = i) := by
        intro i hi
        have hlt := List.mem_range.mp hi
        rw [List.filter_filter]
        refine List.filter_congr fun e _ => ?_
        by_cases he : e.1 = i
        · simp [he, hlt.ne]
        · simp [he]
      have hgathered := ih _ hfewer
      rw [List.flatMap_congr hsame] at hgathered
      rw [List.range_succ, List.flatMap_append, List.flatMap_singleton]
      refine List.Perm.trans ?_ (hgathered.append_right _)
      refine (List.perm_append_comm.trans ?_).symm
      have hsplit := List.filter_append_perm (fun e : ℕ × α => decide (e.1 = n)) l
      simpa using hsplit

/-- Nothing is lost and nothing is doubled. -/
theorem Merged.perm [LinearOrder β] {key : α → β} {queues : ℕ → List α} {out : List (ℕ × α)}
    (h : Merged key queues out) {n : ℕ} (hqueues : ∀ i, n ≤ i → queues i = []) :
    out.Perm ((List.range n).flatMap fun i => (queues i).map (i, ·)) := by
  have hbound : ∀ e ∈ out, e.1 < n := by
    intro e he
    by_contra hge
    have hmem := h.mem_queue he
    rw [hqueues e.1 (not_lt.mp hge)] at hmem
    cases hmem
  refine (perm_flatMap_filter out hbound).trans (List.Perm.of_eq ?_)
  refine List.flatMap_congr fun i _ => ?_
  rw [← h.queue_eq i, List.map_map]
  refine (List.map_congr_left ?_).trans (List.map_id _) |>.symm
  intro e he
  have hi := (List.mem_filter.mp he).2
  rw [decide_eq_true_iff] at hi
  rw [← hi]
  rfl

end QueueMerge
