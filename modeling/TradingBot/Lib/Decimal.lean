import Mathlib.Algebra.Order.Floor.Ring
import Mathlib.Data.Rat.Floor
import Mathlib.Data.Nat.Prime.Basic
import Mathlib.Tactic.Ring
import Mathlib.Tactic.Linarith
import Mathlib.Tactic.FieldSimp
import Mathlib.Tactic.Positivity
import Mathlib.Tactic.NormNum

/-!
# Extended decimals

The numbers a decimal library hands to a trading program: exact rationals,
together with the two infinities and the not-a-number value its operations
fall into. Precision is idealised away, so a finite operation is the exact
rational one; what is kept is every case in which an operation leaves the
finite numbers, because the program's guards are about precisely those.
Signed zero is not distinguished.
-/

/-- A number of a decimal library: not-a-number, an infinity or a finite value. -/
inductive Decimal where
  | nan
  | inf (negative : Bool)
  | num (value : ℚ)
deriving DecidableEq

namespace Decimal

variable {a b : ℚ}

def isFinite : Decimal → Bool
  | num _ => true
  | _ => false

def isNaN : Decimal → Bool
  | nan => true
  | _ => false

/-- Whether the sign bit is set. -/
def negative : Decimal → Bool
  | nan => false
  | inf s => s
  | num q => q < 0

def neg : Decimal → Decimal
  | nan => nan
  | inf s => inf !s
  | num q => num (-q)

def abs : Decimal → Decimal
  | nan => nan
  | inf _ => inf false
  | num q => num |q|

def add : Decimal → Decimal → Decimal
  | num p, num q => num (p + q)
  | inf s, inf t => if s = t then inf s else nan
  | inf s, num _ => inf s
  | num _, inf t => inf t
  | nan, _ => nan
  | _, nan => nan

def sub (x y : Decimal) : Decimal := add x (neg y)

def mul : Decimal → Decimal → Decimal
  | num p, num q => num (p * q)
  | nan, _ => nan
  | _, nan => nan
  -- zero times an infinity has no value
  | x, y => if x = num 0 ∨ y = num 0 then nan else inf (x.negative != y.negative)

def div : Decimal → Decimal → Decimal
  | num p, num q =>
      if q = 0 then (if p = 0 then nan else inf (decide (p < 0))) else num (p / q)
  | num _, inf _ => num 0
  | inf s, num q => inf (s != decide (q < 0))
  | inf _, inf _ => nan
  | nan, _ => nan
  | _, nan => nan

/-- Strict comparison; every comparison with not-a-number fails. -/
def lt : Decimal → Decimal → Bool
  | num p, num q => p < q
  | inf s, inf t => s && !t
  | inf s, num _ => s
  | num _, inf t => !t
  | nan, _ => false
  | _, nan => false

def lte : Decimal → Decimal → Bool
  | num p, num q => p ≤ q
  | inf s, inf t => s || !t
  | inf s, num _ => s
  | num _, inf t => !t
  | nan, _ => false
  | _, nan => false

def gt (x y : Decimal) : Bool := lt y x

def gte (x y : Decimal) : Bool := lte y x

def eq (x y : Decimal) : Bool := lte x y && lte y x

def floor : Decimal → Decimal
  | num q => num ⌊q⌋
  | x => x

def ceil : Decimal → Decimal
  | num q => num ⌈q⌉
  | x => x

def max (x y : Decimal) : Decimal :=
  if x.isNaN || y.isNaN then nan else if x.lt y then y else x

def min (x y : Decimal) : Decimal :=
  if x.isNaN || y.isNaN then nan else if y.lt x then y else x

/-- Round a rational half away from zero onto `places` decimal places. -/
def roundHalfUp (q : ℚ) (places : ℕ) : ℚ :=
  if q < 0 then -(⌊-q * 10 ^ places + 1 / 2⌋ / 10 ^ places)
  else ⌊q * 10 ^ places + 1 / 2⌋ / 10 ^ places

def toDecimalPlaces (x : Decimal) (places : ℕ) : Decimal :=
  match x with
  | num q => num (roundHalfUp q places)
  | x => x

/-- The square root of a positive rational, rounded half up to twenty significant digits. -/
def sqrtDigits (q : ℚ) : ℚ :=
  -- the power of a hundred that lifts a small value above one
  let lift := ((List.range (q.den.log2 + 1)).find? fun m => 1 ≤ q * 100 ^ m).getD 0
  let leading := (Nat.toDigits 10 (Nat.sqrt ⌊q * 100 ^ lift⌋.toNat)).length
  let scale : ℤ := lift + 20 - leading
  let root := Nat.sqrt ⌊q * 100 ^ scale⌋.toNat
  let rounded := if (2 * root + 1) ^ 2 ≤ 4 * (q * 100 ^ scale) then root + 1 else root
  rounded / 10 ^ scale

def sqrt : Decimal → Decimal
  | num q => if q < 0 then nan else if q = 0 then num 0 else num (sqrtDigits q)
  | inf s => if s then nan else inf s
  | nan => nan

/-- The power of ten at or below a positive rational. -/
def orderOfMagnitude (q : ℚ) : ℤ :=
  if 1 ≤ q then (Nat.toDigits 10 ⌊q⌋.toNat).length - 1
  else -((List.range (q.den.log2 + 1)).find? fun m => 1 ≤ q * 10 ^ m).getD 0

/--
The first digits of the common logarithm of a mantissa at or above one, as a
fixed-point number with `scale` places: each digit is the power of ten in the
tenth power of what is left.
-/
def logDigits (scale : ℕ) : ℕ → ℕ → ℕ → ℕ
  | 0, _, acc => acc
  | n + 1, mantissa, acc =>
      let power := mantissa ^ 10 / 10 ^ (9 * scale)
      let digit := (Nat.toDigits 10 power).length - 1 - scale
      logDigits scale n (power / 10 ^ digit) (acc * 10 + digit)

/-- A rational rounded half away from zero to twenty significant digits. -/
def roundSignificant (q : ℚ) : ℚ :=
  if q = 0 then 0
  else
    let shift : ℤ := 19 - orderOfMagnitude |q|
    roundHalfUp (q * 10 ^ shift) 0 / 10 ^ shift

/-- A result as the library keeps it, at twenty significant digits. -/
def atPrecision : Decimal → Decimal
  | num q => num (roundSignificant q)
  | x => x

/-- The common logarithm of a positive rational to twenty significant digits. -/
def log10Digits (q : ℚ) : ℚ :=
  let order := orderOfMagnitude q
  -- each digit costs the mantissa one place, so a hundred carry forty with room to spare
  let mantissa := ⌊q / 10 ^ order * 10 ^ 100⌋.toNat
  roundSignificant (order + (logDigits 100 40 mantissa 0 : ℚ) / 10 ^ 40)

def log10 : Decimal → Decimal
  | num q => if q < 0 then nan else if q = 0 then inf true else num (log10Digits q)
  | inf s => if s then nan else inf s
  | nan => nan

/-- A rational with a finite decimal expansion. -/
def Terminating (q : ℚ) : Prop := ∃ (k : ℕ) (z : ℤ), q * 10 ^ k = z

/--
The number of decimal places of a finite decimal expansion. A rational without
one has as many places as the library keeps digits.
-/
def decimalPlaces : Decimal → ℕ
  | num q => ((List.range (q.den.log2 + 1)).find? fun k => 10 ^ k % q.den == 0).getD 20
  | _ => 0

/-! ### The operations on finite values -/

@[simp] theorem isFinite_num : (num a).isFinite = true := rfl
@[simp] theorem isFinite_nan : nan.isFinite = false := rfl
@[simp] theorem isFinite_inf (s : Bool) : (inf s).isFinite = false := rfl
@[simp] theorem isNaN_num : (num a).isNaN = false := rfl
@[simp] theorem neg_num : (num a).neg = num (-a) := rfl
@[simp] theorem abs_num : (num a).abs = num |a| := rfl
@[simp] theorem add_num : (num a).add (num b) = num (a + b) := rfl
@[simp] theorem sub_num : (num a).sub (num b) = num (a - b) := by
  simp [sub, sub_eq_add_neg]
@[simp] theorem mul_num : (num a).mul (num b) = num (a * b) := rfl
@[simp] theorem lt_num : (num a).lt (num b) = decide (a < b) := rfl
@[simp] theorem lte_num : (num a).lte (num b) = decide (a ≤ b) := rfl
@[simp] theorem gt_num : (num a).gt (num b) = decide (b < a) := rfl
@[simp] theorem gte_num : (num a).gte (num b) = decide (b ≤ a) := rfl
@[simp] theorem floor_num : (num a).floor = num ⌊a⌋ := rfl
@[simp] theorem ceil_num : (num a).ceil = num ⌈a⌉ := rfl
@[simp] theorem toDecimalPlaces_num (k : ℕ) :
    (num a).toDecimalPlaces k = num (roundHalfUp a k) := rfl

theorem div_num (hb : b ≠ 0) : (num a).div (num b) = num (a / b) := by
  simp [div, hb]

@[simp] theorem max_num : (num a).max (num b) = num (Max.max a b) := by
  by_cases h : a < b
  · simp [max, h, max_eq_right h.le]
  · simp [max, h, max_eq_left (not_lt.mp h)]

@[simp] theorem min_num : (num a).min (num b) = num (Min.min a b) := by
  by_cases h : b < a
  · simp [min, h, min_eq_right h.le]
  · simp [min, h, min_eq_left (not_lt.mp h)]

/-! ### Comparisons with not-a-number -/

@[simp] theorem nan_lt (x : Decimal) : nan.lt x = false := by cases x <;> rfl
@[simp] theorem lt_nan (x : Decimal) : x.lt nan = false := by cases x <;> rfl
@[simp] theorem nan_lte (x : Decimal) : nan.lte x = false := by cases x <;> rfl
@[simp] theorem lte_nan (x : Decimal) : x.lte nan = false := by cases x <;> rfl
@[simp] theorem nan_mul (x : Decimal) : nan.mul x = nan := by cases x <;> rfl
@[simp] theorem mul_nan (x : Decimal) : x.mul nan = nan := by cases x <;> rfl

theorem lt_eq_lte (x y : Decimal) : x.lt y = (x.lte y && !y.lte x) := by
  cases x with
  | nan => rw [nan_lt, nan_lte, Bool.false_and]
  | inf s => cases y <;> cases s <;> simp [lt, lte]
  | num p =>
      cases y with
      | nan => rw [lt_nan, lte_nan, Bool.false_and]
      | inf t => cases t <;> rfl
      | num q =>
          rw [lt_num, lte_num, lte_num, Bool.eq_iff_iff]
          simpa using fun hlt : p < q => hlt.le

theorem isFinite_iff {x : Decimal} : x.isFinite = true ↔ ∃ q, x = num q := by
  cases x <;> simp [isFinite]

end Decimal
