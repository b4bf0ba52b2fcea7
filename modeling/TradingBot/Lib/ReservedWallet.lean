import TradingBot.Lib.InsertionMap
import Mathlib.Algebra.Order.BigOperators.Group.List
import Mathlib.Algebra.BigOperators.Group.Finset.Piecewise
import Mathlib.Algebra.Order.Ring.Defs
import Mathlib.Algebra.Field.Basic
import Mathlib.Tactic.Abel

/-!
# Wallets with reservations

A wallet holds several assets, each in a free and a locked part. A reservation
moves an amount of one asset from free to locked, as far as there is any free;
releasing it moves the amount back. A wallet backs a list of reservations in an
asset when nothing free is negative and the locked part is their sum.
-/

namespace ReservedWallet

open InsertionMap

@[ext] structure Holding (K : Type) where
  free : K
  locked : K

/-! ### Moving amounts -/

section Amounts

variable {α K : Type} [DecidableEq α] [Field K]

namespace Holding

def total (h : Holding K) : K := h.free + h.locked

def credit (amount : K) (h : Holding K) : Holding K := ⟨h.free + amount, h.locked⟩

def lock (amount : K) (h : Holding K) : Holding K := ⟨h.free - amount, h.locked + amount⟩

def unlock (amount : K) (h : Holding K) : Holding K := ⟨h.free + amount, h.locked - amount⟩

variable {h : Holding K} {amount : K}

@[simp] theorem total_credit : (h.credit amount).total = h.total + amount := by
  simp only [total, credit]
  abel

@[simp] theorem total_lock : (h.lock amount).total = h.total := by
  simp only [total, lock]
  abel

@[simp] theorem total_unlock : (h.unlock amount).total = h.total := by
  simp only [total, unlock]
  abel

end Holding

/-- What the wallet holds of an asset; nothing of one it has no entry for. -/
def holding (w : List (α × Holding K)) (a : α) : Holding K := (get a w).getD ⟨0, 0⟩

def adjust (a : α) (f : Holding K → Holding K) (w : List (α × Holding K)) :
    List (α × Holding K) :=
  set a (f (holding w a)) w

/-- The sum of the reservations in an asset. -/
def reserved (rs : List (α × K)) (a : α) : K := (rs.map fun r => if r.1 = a then r.2 else 0).sum

variable {w : List (α × Holding K)} {rs rs' : List (α × K)} {a b : α} {amount : K}
  {f : Holding K → Holding K}

theorem holding_adjust :
    holding (adjust a f w) b = if b = a then f (holding w a) else holding w b := by
  split
  · next heq =>
      subst heq
      rw [holding, adjust, get_set_self, Option.getD_some]
  · next hne => rw [holding, adjust, get_set_other hne, ← holding]

@[simp] theorem holding_adjust_self : holding (adjust a f w) a = f (holding w a) := by
  rw [holding_adjust, if_pos rfl]

theorem holding_adjust_other (hne : b ≠ a) : holding (adjust a f w) b = holding w b := by
  rw [holding_adjust, if_neg hne]

theorem total_adjust (hf : ∀ h, (f h).total = h.total) :
    (holding (adjust a f w) b).total = (holding w b).total := by
  rw [holding_adjust]
  split
  · next heq => rw [hf, heq]
  · rfl

theorem total_credit :
    (holding (adjust a (Holding.credit amount) w) b).total =
      (holding w b).total + if a = b then amount else 0 := by
  by_cases heq : a = b
  · subst heq
    simp
  · rw [holding_adjust_other (Ne.symm heq), if_neg heq, add_zero]

theorem nodup_keys_adjust (h : (keys w).Nodup) : (keys (adjust a f w)).Nodup := nodup_keys_set h

/-- A sum over the entries is one over any assets that cover what counts. -/
theorem sum_entries (worth : α → Holding K → K) (hdistinct : (keys w).Nodup)
    (hzero : ∀ a, worth a ⟨0, 0⟩ = 0) (assets : Finset α)
    (hcover : ∀ a, a ∉ assets → worth a (holding w a) = 0) :
    (w.map fun entry => worth entry.1 entry.2).sum = ∑ a ∈ assets, worth a (holding w a) := by
  induction w with
  | nil =>
      refine (Finset.sum_eq_zero ?_).symm
      intro a _
      exact hzero a
  | cons entry rest ih =>
      obtain ⟨hfresh, hrest⟩ := List.nodup_cons.mp hdistinct
      have habsent : holding rest entry.1 = ⟨0, 0⟩ := by
        rw [holding, get_eq_none.mpr hfresh]
        rfl
      have hhead : holding (entry :: rest) entry.1 = entry.2 := by
        rw [holding, InsertionMap.get, if_pos rfl, Option.getD_some]
      have hother : ∀ a, a ≠ entry.1 → holding (entry :: rest) a = holding rest a := by
        intro a hne
        rw [holding, InsertionMap.get, if_neg hne.symm, ← holding]
      have hsplit : ∀ a, worth a (holding (entry :: rest) a) =
          (if a = entry.1 then worth entry.1 entry.2 else 0) + worth a (holding rest a) := by
        intro a
        by_cases heq : a = entry.1
        · rw [if_pos heq, heq, habsent, hzero, add_zero, hhead]
        · rw [if_neg heq, zero_add, hother a heq]
      have htail := ih hrest fun a ha => by
        by_cases heq : a = entry.1
        · rw [heq, habsent, hzero]
        · rw [← hother a heq]
          exact hcover a ha
      rw [List.map_cons, List.sum_cons, htail, Finset.sum_congr rfl fun a _ => hsplit a,
        Finset.sum_add_distrib, Finset.sum_ite_eq']
      split
      · rfl
      · next hout =>
          have hnone := hcover entry.1 hout
          rw [hhead] at hnone
          rw [hnone]

@[simp] theorem reserved_nil : reserved ([] : List (α × K)) a = 0 := rfl

theorem reserved_cons {r : α × K} :
    reserved (r :: rs) a = (if r.1 = a then r.2 else 0) + reserved rs a := List.sum_cons

theorem reserved_perm (hperm : rs.Perm rs') : reserved rs a = reserved rs' a :=
  (hperm.map _).sum_eq

end Amounts

/-! ### Backing reservations -/

variable {α K : Type} [DecidableEq α] [Field K] [LinearOrder K] [IsStrictOrderedRing K]

/-- How much of the desired amount can be locked. -/
def Holding.lockable (desired : K) (h : Holding K) : K := max 0 (min desired h.free)

/-- The wallet backs the reservations in an asset. -/
structure Backs (w : List (α × Holding K)) (rs : List (α × K)) (a : α) : Prop where
  free : 0 ≤ (holding w a).free
  locked : (holding w a).locked = reserved rs a

variable {w : List (α × Holding K)} {rs rs' : List (α × K)} {a b : α} {amount desired : K}
  {h : Holding K}

section Order

omit [IsStrictOrderedRing K]

theorem Holding.lockable_nonneg : 0 ≤ h.lockable desired := le_max_left _ _

theorem Holding.lockable_le (hfree : 0 ≤ h.free) : h.lockable desired ≤ h.free :=
  max_le hfree (min_le_right _ _)

theorem Backs.perm (h : Backs w rs a) (hperm : rs.Perm rs') : Backs w rs' a where
  free := h.free
  locked := h.locked.trans (reserved_perm hperm)

/-- Crediting an asset keeps it backed as long as nothing free goes below zero. -/
theorem Backs.credit (h : Backs w rs a)
    (hleft : b = a → 0 ≤ (holding w a).free + amount) :
    Backs (adjust b (Holding.credit amount) w) rs a := by
  by_cases heq : b = a
  · subst heq
    refine ⟨?_, ?_⟩
    · rw [holding_adjust_self]
      exact hleft rfl
    · rw [holding_adjust_self]
      exact h.locked
  · refine ⟨?_, ?_⟩
    · rw [holding_adjust_other (Ne.symm heq)]
      exact h.free
    · rw [holding_adjust_other (Ne.symm heq)]
      exact h.locked

end Order

theorem reserved_nonneg (hrs : ∀ r ∈ rs, 0 ≤ r.2) : 0 ≤ reserved rs a := by
  refine List.sum_nonneg ?_
  intro x hx
  obtain ⟨r, hr, rfl⟩ := List.mem_map.mp hx
  split
  · exact hrs r hr
  · exact le_rfl

/-- What was just released can be locked again in full. -/
theorem Holding.lockable_unlock (hfree : 0 ≤ h.free) (hamount : 0 ≤ amount) :
    (h.unlock amount).lockable amount = amount := by
  have hle : amount ≤ h.free + amount := le_add_of_nonneg_left hfree
  rw [Holding.lockable, Holding.unlock, min_eq_left hle, max_eq_right hamount]

theorem Backs.release (h : Backs w ((b, amount) :: rs) a) (hamount : 0 ≤ amount) :
    Backs (adjust b (Holding.unlock amount) w) rs a := by
  have hlocked := h.locked
  rw [reserved_cons] at hlocked
  by_cases heq : b = a
  · subst heq
    rw [if_pos rfl] at hlocked
    refine ⟨?_, ?_⟩
    · rw [holding_adjust_self]
      exact add_nonneg h.free hamount
    · rw [holding_adjust_self, Holding.unlock, hlocked, add_sub_cancel_left]
  · rw [if_neg heq, zero_add] at hlocked
    refine ⟨?_, ?_⟩
    · rw [holding_adjust_other (Ne.symm heq)]
      exact h.free
    · rw [holding_adjust_other (Ne.symm heq), hlocked]

theorem Backs.reserve (h : Backs w rs a) (b : α) (desired : K) :
    Backs (adjust b (Holding.lock ((holding w b).lockable desired)) w)
      ((b, (holding w b).lockable desired) :: rs) a := by
  by_cases heq : b = a
  · subst heq
    refine ⟨?_, ?_⟩
    · rw [holding_adjust_self]
      exact sub_nonneg.mpr (Holding.lockable_le h.free)
    · rw [holding_adjust_self, reserved_cons, if_pos rfl, Holding.lock, h.locked, add_comm]
  · refine ⟨?_, ?_⟩
    · rw [holding_adjust_other (Ne.symm heq)]
      exact h.free
    · rw [holding_adjust_other (Ne.symm heq), reserved_cons, if_neg heq, zero_add, h.locked]

/-- Releasing a reservation and locking it again leaves all of them backed. -/
theorem Backs.relock (h : Backs w ((b, amount) :: rs) a) (hamount : 0 ≤ amount)
    (w' : List (α × Holding K)) (hw' : w' = adjust b (Holding.unlock amount) w) :
    Backs (adjust b (Holding.lock ((holding w' b).lockable amount)) w') ((b, amount) :: rs) a := by
  have hreleased : Backs w' rs a := by
    rw [hw']
    exact h.release hamount
  have hrelocked := hreleased.reserve b amount
  by_cases heq : b = a
  · subst heq
    have hfull : (holding w' b).lockable amount = amount := by
      rw [hw', holding_adjust_self]
      exact Holding.lockable_unlock h.free hamount
    rw [hfull] at hrelocked ⊢
    exact hrelocked
  · refine ⟨hrelocked.free, hrelocked.locked.trans ?_⟩
    rw [reserved_cons, reserved_cons, if_neg heq, if_neg heq]

end ReservedWallet
