import Mathlib.Algebra.Field.Basic
import Mathlib.Algebra.BigOperators.Group.List.Basic
import Mathlib.Tactic.FieldSimp
import Mathlib.Tactic.Ring

/-!
# Average-cost pools

A stock of one good bought at several prices and valued at its average cost: a
purchase adds its quantity and what was paid, a sale takes its share of the
cost with it. Purchases commute and combine into one purchase at their
volume-weighted price, and a sale leaves the average alone.
-/

/-- How much is held, and what it cost. -/
@[ext] structure CostPool (K : Type*) where
  quantity : K
  cost : K

namespace CostPool

variable {K : Type*} [Field K]

/-- One purchase: a quantity at a price. -/
structure Lot (K : Type*) where
  price : K
  quantity : K

/-- What a purchase pays. -/
def Lot.paid (lot : Lot K) : K := lot.price * lot.quantity

def empty : CostPool K := ⟨0, 0⟩

/-- The average cost of a unit. -/
def average (pool : CostPool K) : K := pool.cost / pool.quantity

def buy (pool : CostPool K) (lot : Lot K) : CostPool K :=
  ⟨pool.quantity + lot.quantity, pool.cost + lot.paid⟩

/-- Take a quantity out of the pool, at the average cost. -/
def sell (pool : CostPool K) (quantity : K) : CostPool K :=
  ⟨pool.quantity - quantity, pool.cost - quantity * pool.average⟩

/-- Several purchases as one, at their volume-weighted average price. -/
def combine (lots : List (Lot K)) : Lot K where
  price := (lots.map Lot.paid).sum / (lots.map Lot.quantity).sum
  quantity := (lots.map Lot.quantity).sum

section Purchases

variable (pool : CostPool K) (lots : List (Lot K))

theorem foldl_buy :
    lots.foldl buy pool =
      ⟨pool.quantity + (lots.map Lot.quantity).sum, pool.cost + (lots.map Lot.paid).sum⟩ := by
  induction lots generalizing pool with
  | nil => simp
  | cons lot rest ih =>
      rw [List.foldl_cons, ih]
      simp [buy, add_assoc]

/-- The order of purchases does not matter. -/
theorem foldl_buy_perm {lots' : List (Lot K)} (hperm : lots.Perm lots') :
    lots.foldl buy pool = lots'.foldl buy pool := by
  rw [foldl_buy, foldl_buy, (hperm.map Lot.quantity).sum_eq, (hperm.map Lot.paid).sum_eq]

/-- Purchases one at a time are the combined purchase. -/
theorem buy_combine (hquantity : (lots.map Lot.quantity).sum ≠ 0) :
    pool.buy (combine lots) = lots.foldl buy pool := by
  rw [foldl_buy]
  simp [buy, combine, Lot.paid, div_mul_cancel₀ _ hquantity]

end Purchases

section Sales

variable {pool : CostPool K} {quantity : K}

theorem average_mul (hheld : pool.quantity ≠ 0) : pool.average * pool.quantity = pool.cost :=
  div_mul_cancel₀ _ hheld

/-- A sale that leaves something leaves it at the same average cost. -/
theorem average_sell (hheld : pool.quantity ≠ 0) (hleft : pool.quantity - quantity ≠ 0) :
    (pool.sell quantity).average = pool.average := by
  simp only [average, sell]
  field_simp

theorem sell_all (hheld : pool.quantity ≠ 0) : pool.sell pool.quantity = empty := by
  ext
  · simp [sell, empty]
  · simp [sell, empty, mul_comm pool.quantity, average_mul hheld]

end Sales

end CostPool
