import Mathlib.Data.List.Basic

/-!
# Rounds that may crash

A repair loop works in rounds. A round reads the stores, issues its writes one
after the other, and may crash after any of them; the next round starts over
from what was written. How many completed rounds a state is away from being
repaired is a property of the state, and a crash does not raise it.
-/

namespace CrashRounds

variable {σ ω : Type} (write : σ → ω → σ) (writes : σ → List ω)

/-- A round to its end. -/
def complete (s : σ) : σ := (writes s).foldl write s

/-- One round: to its end, or crashed after some of its writes. -/
def round (s : σ) : Option ℕ → σ
  | none => complete write writes s
  | some issued => ((writes s).take issued).foldl write s

/-- Rounds in turn. -/
def rounds (s : σ) (outcomes : List (Option ℕ)) : σ := outcomes.foldl (round write writes) s

/-- How far from repaired a state is, counted in completed rounds. -/
structure Distance (away : ℕ → σ → Prop) : Prop where
  crash : ∀ n s issued, away n s → away n (round write writes s (some issued))
  progress : ∀ n s, away (n + 1) s → away n (complete write writes s)
  stay : ∀ s, away 0 s → away 0 (complete write writes s)

variable {write writes}

theorem rounds_of_no_writes {s : σ} (h : writes s = []) (outcomes : List (Option ℕ)) :
    rounds write writes s outcomes = s := by
  induction outcomes with
  | nil => rfl
  | cons outcome rest ih =>
      have hround : round write writes s outcome = s := by
        cases outcome <;> simp [round, complete, h]
      rw [rounds, List.foldl_cons, hround]
      exact ih

/-- A state is repaired by as many completed rounds as it was away, whatever crashes in between. -/
theorem Distance.rounds {away : ℕ → σ → Prop} (h : Distance write writes away) {n : ℕ} {s : σ}
    (hs : away n s) (outcomes : List (Option ℕ)) (hn : n ≤ outcomes.count none) :
    away 0 (rounds write writes s outcomes) := by
  induction outcomes generalizing n s with
  | nil =>
      obtain rfl : n = 0 := by simpa using hn
      exact hs
  | cons outcome rest ih =>
      cases outcome with
      | some issued =>
          refine ih (h.crash n s issued hs) ?_
          simpa using hn
      | none =>
          rw [List.count_cons_self] at hn
          cases n with
          | zero => exact ih (h.stay s hs) (Nat.zero_le _)
          | succ n => exact ih (h.progress n s hs) (Nat.le_of_succ_le_succ hn)

end CrashRounds
