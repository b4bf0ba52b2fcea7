import Mathlib.Algebra.Order.BigOperators.Group.List
import Mathlib.Data.List.Induction

/-!
# Sums with a floor

A running sum of signed amounts that some of its steps do not let fall below
zero. It is the largest of the plain sums over the runs that end now and began
at the start or right after such a step.
-/

namespace FlooredSum

/-- One step: an amount, and whether the sum is floored at zero after it. -/
structure Step (K : Type*) where
  amount : K
  floored : Bool

variable {K : Type*} [AddCommGroup K]

/-- The plain sum of some steps. -/
def plain (steps : List (Step K)) : K := (steps.map Step.amount).sum

/-- A run may begin after these steps: there are none, or the last of them is floored. -/
def Fresh (earlier : List (Step K)) : Prop := ∀ last ∈ earlier.getLast?, last.floored = true

theorem plain_concat (run : List (Step K)) (step : Step K) :
    plain (run ++ [step]) = plain run + step.amount := by
  simp [plain]

variable [LinearOrder K]

def add (total : K) (step : Step K) : K :=
  if step.floored then max (total + step.amount) 0 else total + step.amount

def total (steps : List (Step K)) : K := steps.foldl add 0

variable {steps earlier run : List (Step K)} {step : Step K}

theorem total_concat (steps : List (Step K)) (step : Step K) :
    total (steps ++ [step]) = add (total steps) step := by
  rw [total, List.foldl_append]
  rfl

theorem le_add (total : K) (step : Step K) : total + step.amount ≤ add total step := by
  rw [add]
  split
  · exact le_max_left _ _
  · exact le_rfl

/-- Some run that ends now sums to the total. -/
theorem exists_plain_eq_total (steps : List (Step K)) :
    ∃ earlier run, steps = earlier ++ run ∧ Fresh earlier ∧ plain run = total steps := by
  induction steps using List.reverseRecOn with
  | nil => exact ⟨[], [], rfl, by simp [Fresh], rfl⟩
  | append_singleton front step ih =>
      obtain ⟨earlier, run, rfl, hfresh, htotal⟩ := ih
      have hlonger : earlier ++ run ++ [step] = earlier ++ (run ++ [step]) :=
        List.append_assoc earlier run [step]
      rw [total_concat, add]
      split
      · next hfloored =>
          rcases le_total (total (earlier ++ run) + step.amount) 0 with hneg | hpos
          · refine ⟨earlier ++ run ++ [step], [], (List.append_nil _).symm, ?_, ?_⟩
            · intro last hlast
              rw [List.getLast?_concat, Option.mem_some_iff] at hlast
              exact hlast ▸ hfloored
            · rw [max_eq_right hneg]
              rfl
          · exact ⟨earlier, run ++ [step], hlonger, hfresh,
              by rw [plain_concat, htotal, max_eq_left hpos]⟩
      · exact ⟨earlier, run ++ [step], hlonger, hfresh, by rw [plain_concat, htotal]⟩

variable [IsOrderedAddMonoid K]

/-- No run that ends now sums to more than the total. -/
theorem plain_le_total (hsplit : steps = earlier ++ run) (hfresh : Fresh earlier) :
    plain run ≤ total steps := by
  induction steps using List.reverseRecOn generalizing run with
  | nil =>
      obtain ⟨-, rfl⟩ := List.nil_eq_append_iff.mp hsplit
      exact le_rfl
  | append_singleton front step ih =>
      rcases List.eq_nil_or_concat' run with rfl | ⟨middle, last, rfl⟩
      · -- an empty run begins after a floored step, which left no less than zero
        rw [List.append_nil] at hsplit
        have hfloored : step.floored = true := hfresh step (by rw [← hsplit]; simp)
        rw [total_concat, add, if_pos hfloored]
        exact le_max_right _ _
      · rw [← List.append_assoc] at hsplit
        obtain ⟨rfl, hlast⟩ := List.append_inj' hsplit rfl
        obtain rfl : step = last := List.singleton_inj.mp hlast
        rw [plain_concat, total_concat]
        exact (add_le_add_left (ih rfl) step.amount).trans (le_add _ _)

/-- The total is positive exactly when some run that ends now is. -/
theorem total_pos_iff :
    0 < total steps ↔ ∃ earlier run, steps = earlier ++ run ∧ Fresh earlier ∧ 0 < plain run := by
  constructor
  · intro hpos
    obtain ⟨earlier, run, hsplit, hfresh, htotal⟩ := exists_plain_eq_total steps
    exact ⟨earlier, run, hsplit, hfresh, htotal ▸ hpos⟩
  · rintro ⟨earlier, run, hsplit, hfresh, hpos⟩
    exact hpos.trans_le (plain_le_total hsplit hfresh)

end FlooredSum
