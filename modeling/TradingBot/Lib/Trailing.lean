import Mathlib.Data.List.DropRight

/-!
# Trailing windows

The last elements of a growing list, kept in a ring that drops its oldest, and
the runs of neighbours a window slides over. One more element moves each by one.
-/

namespace Trailing

variable {α β : Type} {n k : ℕ} {l : List α} {a : α}

/-- A ring with one more element, its oldest dropped when it is over full. -/
def push (n : ℕ) (ring : List α) (a : α) : List α :=
  if n < (ring ++ [a]).length then (ring ++ [a]).tail else ring ++ [a]

/-- The runs of `n` neighbours, first to last. -/
def slices (n : ℕ) (l : List α) : List (List α) :=
  (List.range (l.length + 1 - n)).map fun i => (l.drop i).take n

/-- Each element with the one before it. -/
def neighbours (l : List α) : List (α × α) := l.zip l.tail

theorem neighbours_concat (l : List α) (prev cur : α) :
    neighbours (l ++ [prev, cur]) = neighbours (l ++ [prev]) ++ [(prev, cur)] := by
  induction l with
  | nil => rfl
  | cons first rest ih =>
      cases rest with
      | nil => rfl
      | cons second rest => exact congrArg (List.cons (first, second)) ih

theorem length_neighbours : (neighbours l).length = l.length - 1 := by
  simp [neighbours]

theorem length_rtake : (l.rtake n).length = min n l.length := by
  rw [List.rtake, List.length_drop]
  omega

theorem map_rtake (f : α → β) : (l.rtake n).map f = (l.map f).rtake n := by
  rw [List.rtake, List.rtake, List.map_drop, List.length_map]

theorem mem_of_mem_rtake (h : a ∈ l.rtake n) : a ∈ l := List.mem_of_mem_drop h

theorem rtake_of_length_le (h : l.length ≤ n) : l.rtake n = l := by
  rw [List.rtake, Nat.sub_eq_zero_of_le h, List.drop_zero]

/-- A full window one element later. -/
theorem rtake_concat (hn : 0 < n) (h : n ≤ l.length) :
    (l ++ [a]).rtake n = (l.rtake n).tail ++ [a] := by
  rw [List.rtake, List.rtake, List.tail_drop, List.length_append, List.length_singleton,
    List.drop_append_of_le_length (by omega)]
  congr 2
  omega

/-- A ring holds the last elements pushed. -/
theorem push_rtake (hn : 0 < n) : push n (l.rtake n) a = (l ++ [a]).rtake n := by
  have hlength : (l.rtake n ++ [a]).length = min n l.length + 1 := by
    rw [List.length_append, length_rtake, List.length_singleton]
  by_cases h : n ≤ l.length
  · have hne : l.rtake n ≠ [] := by
      rintro hnil
      have hzero := length_rtake (n := n) (l := l)
      rw [hnil, List.length_nil] at hzero
      omega
    rw [push, if_pos (by omega), rtake_concat hn h, List.tail_append_of_ne_nil hne]
  · rw [push, if_neg (by omega), rtake_of_length_le (by omega), rtake_of_length_le]
    rw [List.length_append, List.length_singleton]
    omega

/-! ### Slices -/

theorem length_slices : (slices n l).length = l.length + 1 - n := by
  rw [slices, List.length_map, List.length_range]

/-- One more element makes one more slice, the last one. -/
theorem slices_concat (hn : 0 < n) :
    slices n (l ++ [a]) =
      if n ≤ l.length + 1 then slices n l ++ [(l ++ [a]).rtake n] else [] := by
  have hlength : (l ++ [a]).length = l.length + 1 := by simp
  by_cases h : n ≤ l.length + 1
  · have hrange : (l ++ [a]).length + 1 - n = (l.length + 1 - n) + 1 := by omega
    rw [if_pos h, slices, hrange, List.range_succ, List.map_append, List.map_singleton]
    congr 1
    · -- the earlier slices end before the new element
      rw [slices]
      refine List.map_congr_left fun i hi => ?_
      have hi := List.mem_range.mp hi
      rw [List.drop_append_of_le_length (by omega), List.take_append_of_le_length]
      rw [List.length_drop]
      omega
    · rw [List.rtake, hlength, List.take_of_length_le]
      rw [List.length_drop, hlength]
      omega
  · rw [if_neg h, slices, Nat.sub_eq_zero_of_le (by omega), List.range_zero, List.map_nil]

theorem slices_drop (hn : 0 < n) (d : ℕ) : slices n (l.drop d) = (slices n l).drop d := by
  refine List.ext_getElem ?_ fun i hleft hright => ?_
  · rw [List.length_drop, length_slices, length_slices, List.length_drop]
    omega
  · simp only [slices, List.getElem_map, List.getElem_range, List.getElem_drop, List.drop_drop]

theorem slices_rtake (hn : 0 < n) : slices n (l.rtake (n + k - 1)) = (slices n l).rtake k := by
  rw [List.rtake, slices_drop hn, List.rtake, length_slices]
  congr 1
  omega

theorem mem_of_mem_slices {s : List α} (hs : s ∈ slices n l) (ha : a ∈ s) : a ∈ l := by
  obtain ⟨i, -, rfl⟩ := List.mem_map.mp hs
  exact List.mem_of_mem_drop (List.mem_of_mem_take ha)

theorem length_of_mem_slices {s : List α} (hs : s ∈ slices n l) : s.length = n := by
  obtain ⟨i, hi, rfl⟩ := List.mem_map.mp hs
  have hi := List.mem_range.mp hi
  rw [List.length_take, List.length_drop]
  omega

end Trailing
