import Mathlib.Algebra.BigOperators.Group.List.Basic
import Mathlib.Algebra.Field.Basic
import Mathlib.Tactic.FieldSimp
import Mathlib.Tactic.LinearCombination
import Mathlib.Tactic.Ring

/-!
# Exponential averages and their seeds

An exponential average moves a share of the way to each value in turn, from the
mean of the first values. Two averages of the same values from different seeds
differ by what is left of the seeds' difference, which every value shrinks by
the same factor and none removes.
-/

namespace ExponentialAverage

variable {K : Type} [Field K]

/-- The average after some values, moved a share of the way to each. -/
def smooth (share seed : K) (xs : List K) : K :=
  xs.foldl (fun value x => (x - value) * share + value) seed

def mean (xs : List K) : K := xs.sum / xs.length

/-- The average of a list, from the mean of its first values. -/
def average (share : K) (period : ℕ) (xs : List K) : K :=
  smooth share (mean (xs.take period)) (xs.drop period)

@[simp] theorem smooth_nil (share seed : K) : smooth share seed [] = seed := rfl

@[simp] theorem smooth_cons (share seed x : K) (xs : List K) :
    smooth share seed (x :: xs) = smooth share ((x - seed) * share + seed) xs := rfl

/-- What is left of the difference of two seeds. -/
theorem smooth_sub_smooth (share a b : K) (xs : List K) :
    smooth share a xs - smooth share b xs = (1 - share) ^ xs.length * (a - b) := by
  induction xs generalizing a b with
  | nil => simp
  | cons x xs ih =>
      rw [smooth_cons, smooth_cons, ih, List.length_cons, pow_succ]
      ring

theorem take_append_length {α : Type} {front back : List α} {n : ℕ} (h : front.length = n) :
    (front ++ back).take n = front ∧ (front ++ back).drop n = back := by
  subst h
  exact ⟨List.take_left, List.drop_left⟩

/-- A list without its first value has another seed, so another average: the first value is in the
one mean, and in the other is the value that comes after it. -/
theorem average_drop_oldest {share oldest entering : K} {front back : List K} {period : ℕ}
    (hfront : front.length + 1 = period) (hperiod : (period : K) ≠ 0) :
    average share period (oldest :: (front ++ entering :: back)) -
        average share period (front ++ entering :: back) =
      (1 - share) ^ back.length *
        ((entering - mean (oldest :: front)) * share - (entering - oldest) / period) := by
  obtain ⟨htake, hdrop⟩ := @take_append_length K (oldest :: front) (entering :: back) period hfront
  obtain ⟨htake', hdrop'⟩ := @take_append_length K (front ++ [entering]) back period
    (by simpa using hfront)
  rw [List.append_assoc, List.singleton_append] at htake' hdrop'
  rw [List.cons_append] at htake hdrop
  unfold average
  rw [htake, hdrop, htake', hdrop', smooth_cons, smooth_sub_smooth]
  congr 1
  have hlength : ((oldest :: front).length : K) = period := by rw [← hfront, List.length_cons]
  have hlength' : ((front ++ [entering]).length : K) = period := by
    rw [← hfront, List.length_append, List.length_singleton]
  unfold mean
  rw [hlength, hlength', List.sum_cons, List.sum_append, List.sum_singleton]
  field_simp
  ring

end ExponentialAverage
