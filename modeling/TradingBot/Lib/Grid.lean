import TradingBot.Lib.Decimal

/-!
# Grids

An exchange quotes prices and quantities on a grid: the integer multiples of a
positive unit. This module develops rounding down and up onto such a grid over
an arbitrary ordered field with a floor, and the fact that makes decimal text a
faithful carrier of grid points: a point of a grid whose unit has a finite
decimal expansion is unchanged by rounding to the unit's decimal places.
-/

namespace Grid

section OrderedField

variable {K : Type*} [Field K] [LinearOrder K] [IsStrictOrderedRing K] [FloorRing K]
  {u x y : K}

/-- `x` is an integer multiple of the grid unit `u`. -/
def OnGrid (u x : K) : Prop := ∃ k : ℤ, x = k * u

/-- The largest grid point at or below `x`. -/
def floorTo (u x : K) : K := ⌊x / u⌋ * u

/-- The smallest grid point at or above `x`. -/
def ceilTo (u x : K) : K := ⌈x / u⌉ * u

omit [IsStrictOrderedRing K] in
theorem onGrid_floorTo (u x : K) : OnGrid u (floorTo u x) := ⟨⌊x / u⌋, rfl⟩

theorem floorTo_le (hu : 0 < u) (x : K) : floorTo u x ≤ x := by
  rw [floorTo, ← le_div_iff₀ hu]
  exact Int.floor_le (x / u)

theorem lt_floorTo_add (hu : 0 < u) (x : K) : x < floorTo u x + u := by
  have h : x / u < ⌊x / u⌋ + 1 := Int.lt_floor_add_one (x / u)
  rw [div_lt_iff₀ hu] at h
  rw [floorTo]
  linarith

theorem le_ceilTo (hu : 0 < u) (x : K) : x ≤ ceilTo u x := by
  rw [ceilTo, ← div_le_iff₀ hu]
  exact Int.le_ceil (x / u)

theorem floorTo_mono (hu : 0 < u) (hxy : x ≤ y) : floorTo u x ≤ floorTo u y := by
  have h : ⌊x / u⌋ ≤ ⌊y / u⌋ := Int.floor_mono (div_le_div_of_nonneg_right hxy hu.le)
  exact mul_le_mul_of_nonneg_right (by exact_mod_cast h) hu.le

/-- A point lies below the grid's floor of another exactly if its own ceiling does. -/
theorem le_floorTo_iff (hu : 0 < u) : y ≤ floorTo u x ↔ ceilTo u y ≤ x := by
  rw [floorTo, ceilTo, ← div_le_iff₀ hu, ← le_div_iff₀ hu, ← Int.ceil_le, Int.le_floor]

theorem OnGrid.le_floorTo (hu : 0 < u) (hy : OnGrid u y) (hyx : y ≤ x) : y ≤ floorTo u x := by
  obtain ⟨k, rfl⟩ := hy
  rw [le_floorTo_iff hu, ceilTo, mul_div_cancel_right₀ _ hu.ne', Int.ceil_intCast]
  exact hyx

end OrderedField

/-! ### Decimal expansions of grid points -/

section Decimal

open Decimal

variable {q r u : ℚ} {k : ℕ}

theorem terminating_intCast (z : ℤ) : Terminating (z : ℚ) := ⟨0, z, by simp⟩

theorem terminating_mul (hq : Terminating q) (hr : Terminating r) : Terminating (q * r) := by
  obtain ⟨j, y, hy⟩ := hq
  obtain ⟨k, z, hz⟩ := hr
  refine ⟨j + k, y * z, ?_⟩
  push_cast
  rw [← hy, ← hz]
  ring

/-- The denominator of a finite decimal expansion divides a power of ten. -/
theorem den_dvd_of_terminating (hq : Terminating q) : ∃ k : ℕ, q.den ∣ 10 ^ k := by
  obtain ⟨k, z, hz⟩ := hq
  refine ⟨k, ?_⟩
  have hq : q = Rat.divInt z (10 ^ k) := by
    rw [Rat.divInt_eq_div]
    push_cast
    rw [← hz]
    field_simp
  have hdvd : ((Rat.divInt z (10 ^ k)).den : ℤ) ∣ 10 ^ k := Rat.den_dvd z (10 ^ k)
  rw [← hq] at hdvd
  exact_mod_cast hdvd

/-- If a number divides some power of ten, it divides a small one. -/
theorem exists_log2_dvd_ten_pow {d m : ℕ} (hd : d ∣ 10 ^ m) :
    ∃ k ≤ d.log2, d ∣ 10 ^ k := by
  have hd' : d ∣ 2 ^ m * 5 ^ m := by
    rw [← Nat.mul_pow]
    exact hd
  obtain ⟨d₁, d₂, h₁, h₂, rfl⟩ := (Nat.dvd_mul).mp hd'
  obtain ⟨a, -, rfl⟩ := (Nat.dvd_prime_pow Nat.prime_two).mp h₁
  obtain ⟨b, -, rfl⟩ := (Nat.dvd_prime_pow Nat.prime_five).mp h₂
  have hpos : (2 ^ a * 5 ^ b) ≠ 0 := by positivity
  refine ⟨Max.max a b, ?_, ?_⟩
  · rw [Nat.le_log2 hpos]
    rcases le_total a b with hab | hab
    · rw [max_eq_right hab]
      calc 2 ^ b ≤ 5 ^ b := Nat.pow_le_pow_left (by decide) b
        _ ≤ 2 ^ a * 5 ^ b := Nat.le_mul_of_pos_left _ (by positivity)
    · rw [max_eq_left hab]
      exact Nat.le_mul_of_pos_right _ (by positivity)
  · rw [show (10 : ℕ) = 2 * 5 from rfl, Nat.mul_pow]
    exact Nat.mul_dvd_mul (pow_dvd_pow 2 (le_max_left a b)) (pow_dvd_pow 5 (le_max_right a b))

theorem den_dvd_decimalPlaces (hq : Terminating q) :
    q.den ∣ 10 ^ (num q).decimalPlaces := by
  obtain ⟨m, hm⟩ := den_dvd_of_terminating hq
  obtain ⟨k, hk, hdvd⟩ := exists_log2_dvd_ten_pow hm
  rw [decimalPlaces]
  cases hfind : (List.range (q.den.log2 + 1)).find? fun k => 10 ^ k % q.den == 0 with
  | none =>
      have hnone := List.find?_eq_none.mp hfind k (List.mem_range.mpr (by omega))
      simp [Nat.mod_eq_zero_of_dvd hdvd] at hnone
  | some j =>
      have hsome := List.find?_some hfind
      simpa [Nat.dvd_iff_mod_eq_zero] using hsome

/-- A rational whose denominator divides `10 ^ k` is unchanged by rounding to `k` places. -/
theorem roundHalfUp_eq_self (h : ∃ z : ℤ, q * 10 ^ k = z) : roundHalfUp q k = q := by
  obtain ⟨z, hz⟩ := h
  have hten : (10 : ℚ) ^ k ≠ 0 := by positivity
  have hfloor : ∀ w : ℤ, ⌊(w : ℚ) + 1 / 2⌋ = w := by
    intro w
    rw [Int.floor_eq_iff]
    constructor <;> linarith
  unfold roundHalfUp
  split
  · have hneg : -q * 10 ^ k + 1 / 2 = ((-z : ℤ) : ℚ) + 1 / 2 := by
      push_cast
      rw [← hz]
      ring
    rw [hneg, hfloor, eq_comm, ← neg_eq_iff_eq_neg, eq_div_iff hten]
    push_cast
    rw [← hz]
    ring
  · rw [hz, hfloor, div_eq_iff hten, hz]

theorem toDecimalPlaces_onGrid (hu : Terminating u) (hq : OnGrid u q) :
    (num q).toDecimalPlaces (num u).decimalPlaces = num q := by
  have hdvd := den_dvd_decimalPlaces hu
  obtain ⟨c, hc⟩ := hdvd
  rw [toDecimalPlaces_num, roundHalfUp_eq_self]
  obtain ⟨z, rfl⟩ := hq
  refine ⟨z * (u.num * c), ?_⟩
  have hten : (10 : ℚ) ^ (num u).decimalPlaces = u.den * c := by exact_mod_cast hc
  rw [hten]
  push_cast
  have hden : u * u.den = u.num := Rat.mul_den_eq_num u
  calc z * u * (u.den * c) = z * (u * u.den) * c := by ring
    _ = z * (u.num * c) := by rw [hden]; ring

theorem roundHalfUp_mono (hqr : q ≤ r) (k : ℕ) : roundHalfUp q k ≤ roundHalfUp r k := by
  have hten : (0 : ℚ) < 10 ^ k := by positivity
  have hscale : q * 10 ^ k ≤ r * 10 ^ k := mul_le_mul_of_nonneg_right hqr hten.le
  have hpos : ∀ w : ℚ, 0 ≤ w → (0 : ℚ) ≤ ⌊w * 10 ^ k + 1 / 2⌋ / 10 ^ k := by
    intro w hw
    have hfl : 0 ≤ ⌊w * 10 ^ k + 1 / 2⌋ := Int.floor_nonneg.mpr (by positivity)
    exact div_nonneg (by exact_mod_cast hfl) hten.le
  unfold roundHalfUp
  split <;> split
  · have hfl : ⌊-r * 10 ^ k + 1 / 2⌋ ≤ ⌊-q * 10 ^ k + 1 / 2⌋ := Int.floor_mono (by linarith)
    have hcast : ((⌊-r * 10 ^ k + 1 / 2⌋ : ℤ) : ℚ) ≤ ⌊-q * 10 ^ k + 1 / 2⌋ := by
      exact_mod_cast hfl
    exact neg_le_neg (div_le_div_of_nonneg_right hcast hten.le)
  · rename_i hq hr
    have h₁ := hpos (-q) (by linarith)
    have h₂ := hpos r (not_lt.mp hr)
    linarith
  · rename_i hq hr
    exact absurd (lt_of_le_of_lt hqr hr) hq
  · have hfl : ⌊q * 10 ^ k + 1 / 2⌋ ≤ ⌊r * 10 ^ k + 1 / 2⌋ := Int.floor_mono (by linarith)
    have hcast : ((⌊q * 10 ^ k + 1 / 2⌋ : ℤ) : ℚ) ≤ ⌊r * 10 ^ k + 1 / 2⌋ := by
      exact_mod_cast hfl
    exact div_le_div_of_nonneg_right hcast hten.le

theorem roundHalfUp_nonneg (hq : 0 ≤ q) (k : ℕ) : 0 ≤ roundHalfUp q k := by
  have h := roundHalfUp_mono hq k
  rwa [roundHalfUp_eq_self ⟨0, by simp⟩] at h

/-- Rounding to whole numbers gives a whole number. -/
theorem floor_roundHalfUp_zero (q : ℚ) : (⌊roundHalfUp q 0⌋ : ℚ) = roundHalfUp q 0 := by
  unfold roundHalfUp
  split
  · rw [pow_zero, div_one, ← Int.cast_neg, Int.floor_intCast]
  · rw [pow_zero, div_one, Int.floor_intCast]

end Decimal

/-! ### Rounding of extended decimals -/

section Rounding

open Decimal

/-- Rounding down onto a grid, in the operations of the decimal library. -/
def roundDown (x u : Decimal) : Decimal := ((x.div u).floor).mul u

/-- Rounding up onto a grid, in the operations of the decimal library. -/
def roundUp (x u : Decimal) : Decimal := ((x.div u).ceil).mul u

theorem roundDown_num {u : ℚ} (hu : u ≠ 0) (x : ℚ) :
    roundDown (num x) (num u) = num (floorTo u x) := by
  simp [roundDown, div_num hu, floorTo]

theorem roundUp_num {u : ℚ} (hu : u ≠ 0) (x : ℚ) :
    roundUp (num x) (num u) = num (ceilTo u x) := by
  simp [roundUp, div_num hu, ceilTo]

end Rounding

end Grid
