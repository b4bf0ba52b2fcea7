import TradingBot.Lib.Decimal

/-!
# Decimals in another unit

A number restated in another unit of account is multiplied by a positive rate.
Comparisons are the same in every unit, sums are restated with their terms, and
a quotient of two numbers of one unit has no unit.
-/

namespace Decimal

/-- The number in the unit that is worth a `rate`-th of the old one. -/
def scale (rate : ℚ) (x : Decimal) : Decimal := x.mul (num rate)

section Scale

variable {rate : ℚ}

@[simp] theorem scale_num (q : ℚ) : scale rate (num q) = num (q * rate) := rfl

@[simp] theorem scale_nan : scale rate nan = nan := rfl

theorem scale_inf (hrate : 0 < rate) (s : Bool) : scale rate (inf s) = inf s := by
  have hnum : num rate ≠ num 0 := fun h => hrate.ne' (num.inj h)
  have hneg : (num rate).negative = false := decide_eq_false (not_lt.mpr hrate.le)
  show (if inf s = num 0 ∨ num rate = num 0 then nan
    else inf ((inf s).negative != (num rate).negative)) =
    inf s
  rw [if_neg (by simp [hnum]), hneg]
  cases s <;> rfl

theorem lt_scale (hrate : 0 < rate) (x y : Decimal) :
    (scale rate x).lt (scale rate y) = x.lt y := by
  cases x with
  | nan => rw [scale_nan, nan_lt, nan_lt]
  | inf s =>
      rw [scale_inf hrate]
      cases y with
      | inf t => rw [scale_inf hrate]
      | _ => rfl
  | num p =>
      cases y with
      | nan => rw [scale_nan, lt_nan, lt_nan]
      | inf t =>
          rw [scale_inf hrate]
          rfl
      | num q =>
          rw [scale_num, scale_num, lt_num, lt_num]
          exact decide_eq_decide.mpr (mul_lt_mul_iff_left₀ hrate)

theorem lte_scale (hrate : 0 < rate) (x y : Decimal) :
    (scale rate x).lte (scale rate y) = x.lte y := by
  cases x with
  | nan => rw [scale_nan, nan_lte, nan_lte]
  | inf s =>
      rw [scale_inf hrate]
      cases y with
      | inf t => rw [scale_inf hrate]
      | _ => rfl
  | num p =>
      cases y with
      | nan => rw [scale_nan, lte_nan, lte_nan]
      | inf t =>
          rw [scale_inf hrate]
          rfl
      | num q =>
          rw [scale_num, scale_num, lte_num, lte_num]
          exact decide_eq_decide.mpr (mul_le_mul_iff_left₀ hrate)

theorem gt_scale (hrate : 0 < rate) (x y : Decimal) : (scale rate x).gt (scale rate y) = x.gt y :=
  lt_scale hrate y x

theorem lte_zero_scale (hrate : 0 < rate) (x : Decimal) :
    (scale rate x).lte (num 0) = x.lte (num 0) := by
  have h := lte_scale hrate x (num 0)
  rwa [scale_num, zero_mul] at h

theorem eq_zero_scale (hrate : 0 < rate) (x : Decimal) :
    (scale rate x).eq (num 0) = x.eq (num 0) := by
  have h := lte_scale hrate (num 0) x
  rw [scale_num, zero_mul] at h
  unfold eq
  rw [lte_zero_scale hrate, h]

theorem neg_scale (hrate : 0 < rate) (x : Decimal) : (scale rate x).neg = scale rate x.neg := by
  cases x with
  | nan => rfl
  | inf s =>
      rw [scale_inf hrate]
      exact (scale_inf hrate (!s)).symm
  | num p => rw [neg_num, scale_num, scale_num, neg_num, neg_mul]

theorem add_scale (hrate : 0 < rate) (x y : Decimal) :
    (scale rate x).add (scale rate y) = scale rate (x.add y) := by
  cases x with
  | nan => cases y <;> rfl
  | inf s =>
      rw [scale_inf hrate]
      cases y with
      | nan => rfl
      | inf t =>
          rw [scale_inf hrate]
          unfold add
          dsimp only
          split
          · exact (scale_inf hrate s).symm
          · rfl
      | num q => exact (scale_inf hrate s).symm
  | num p =>
      cases y with
      | nan => rfl
      | inf t =>
          rw [scale_inf hrate]
          exact (scale_inf hrate t).symm
      | num q => rw [scale_num, scale_num, add_num, add_num, scale_num, add_mul]

theorem sub_scale (hrate : 0 < rate) (x y : Decimal) :
    (scale rate x).sub (scale rate y) = scale rate (x.sub y) := by
  unfold sub
  rw [neg_scale hrate, add_scale hrate]

/-- A quotient of two numbers of one unit has no unit. -/
theorem div_scale_scale (hrate : 0 < rate) (x y : Decimal) :
    (scale rate x).div (scale rate y) = x.div y := by
  have hneg : ∀ q : ℚ, decide (q * rate < 0) = decide (q < 0) := fun q =>
    decide_eq_decide.mpr
      ⟨fun h => neg_of_mul_neg_left h hrate.le, fun h => mul_neg_of_neg_of_pos h hrate⟩
  cases x with
  | nan => cases y <;> rfl
  | inf s =>
      rw [scale_inf hrate]
      cases y with
      | nan => rfl
      | inf t => rw [scale_inf hrate]
      | num q =>
          show inf (s != decide (q * rate < 0)) = inf (s != decide (q < 0))
          rw [hneg]
  | num p =>
      cases y with
      | nan => rfl
      | inf t => rw [scale_inf hrate]; rfl
      | num q =>
          rw [scale_num, scale_num]
          unfold div
          dsimp only
          rw [hneg, mul_div_mul_right p q hrate.ne']
          simp only [mul_eq_zero, hrate.ne', or_false]

theorem mul_scale (hrate : 0 < rate) (x : Decimal) (q : ℚ) :
    (scale rate x).mul (num q) = scale rate (x.mul (num q)) := by
  cases x with
  | nan => rfl
  | inf s =>
      rw [scale_inf hrate]
      cases hproduct : (inf s).mul (num q) with
      | nan => rfl
      | inf t => rw [scale_inf hrate]
      | num p =>
          exfalso
          unfold mul at hproduct
          dsimp only at hproduct
          split at hproduct
          · cases hproduct
          · cases hproduct
  | num p => rw [scale_num, mul_num, mul_num, scale_num, mul_right_comm]

/-- A number divided by one without a unit is restated as it is. -/
theorem div_scale (hrate : 0 < rate) (x : Decimal) {q : ℚ} (hq : q ≠ 0) :
    (scale rate x).div (num q) = scale rate (x.div (num q)) := by
  cases x with
  | nan => rfl
  | inf s =>
      rw [scale_inf hrate]
      exact (scale_inf hrate _).symm
  | num p => rw [scale_num, div_num hq, div_num hq, scale_num, mul_div_right_comm]

end Scale

end Decimal
