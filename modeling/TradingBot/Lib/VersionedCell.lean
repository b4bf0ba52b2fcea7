import Mathlib.Data.Nat.Notation

/-!
# A cell under optimistic concurrency

A cell that may be absent, with a version that every write moves on by one. A
writer names the version it read and succeeds only if the cell still has it;
naming no version stands for having read no cell.
-/

structure VersionedCell (α : Type*) where
  value : α
  version : ℕ
deriving DecidableEq

namespace VersionedCell

variable {α : Type*}

/-- What a reader of the cell has to name to write it. -/
def token (cell : Option (VersionedCell α)) : Option ℕ := cell.map version

/-- How many writes a token has seen. -/
def age : Option ℕ → ℕ
  | none => 0
  | some version => version + 1

/-- Write the cell if it still has the expected version; the written cell, or nothing on a miss. -/
def cas (cell : Option (VersionedCell α)) (expected : Option ℕ) (value : α) :
    Option (VersionedCell α) :=
  if token cell = expected then some ⟨value, age expected⟩ else none

variable {cell : Option (VersionedCell α)} {expected : Option ℕ} {value : α}
  {next : VersionedCell α}

theorem cas_eq_some : cas cell expected value = some next ↔
    token cell = expected ∧ next = ⟨value, age expected⟩ := by
  unfold cas
  split
  · next h => simp [h, eq_comm]
  · next h => simp [h]

theorem cas_eq_none : cas cell expected value = none ↔ token cell ≠ expected := by
  unfold cas
  split
  · next h => simp [h]
  · next h => simp [h]

/-- A write makes the cell one older. -/
theorem age_of_cas (h : cas cell expected value = some next) :
    age (token (some next)) = age (token cell) + 1 := by
  obtain ⟨htoken, rfl⟩ := cas_eq_some.mp h
  rw [htoken]
  rfl

end VersionedCell
