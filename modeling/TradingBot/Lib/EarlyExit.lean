import Mathlib.Init

/-!
# Computations that may stop early

Pre- and postcondition rules for `Except`: `Ends P Q x` says that what `x`
raises satisfies `P` and what it returns satisfies `Q`. A raised value need not
be an error; a program that returns from the middle of a function raises its
result.
-/

namespace EarlyExit

variable {ε α β : Type}

/-- Whatever `x` raises satisfies `P`, and whatever it returns satisfies `Q`. -/
def Ends (P : ε → Prop) (Q : α → Prop) : Except ε α → Prop
  | .error e => P e
  | .ok a => Q a

variable {P P' : ε → Prop} {Q Q' : α → Prop} {R : β → Prop} {x : Except ε α}

theorem Ends.bind {f : α → Except ε β} (hx : Ends P Q x) (hf : ∀ a, Q a → Ends P R (f a)) :
    Ends P R (x >>= f) := by
  cases x with
  | error e => exact hx
  | ok a => exact hf a hx

theorem Ends.mono (hx : Ends P Q x) (hP : ∀ e, P e → P' e) (hQ : ∀ a, Q a → Q' a) :
    Ends P' Q' x := by
  cases x with
  | error e => exact hP e hx
  | ok a => exact hQ a hx

theorem Ends.raised {e : ε} (hx : Ends P Q x) (h : x = .error e) : P e := by
  subst h
  exact hx

theorem Ends.returned {a : α} (hx : Ends P Q x) (h : x = .ok a) : Q a := by
  subst h
  exact hx

/-- A computation with something to show for its result returned it. -/
theorem exists_ok_of_map {f : α → β} {b : β} (h : x.toOption.map f = some b) :
    ∃ a, x = .ok a ∧ f a = b := by
  cases x with
  | error e => cases h
  | ok a => exact ⟨a, rfl, Option.some.inj h⟩

/-- What a computation in two parts returns, its second part returned after the first. -/
theorem exists_ok_of_bind {f : α → Except ε β} {b : β} (h : (x >>= f) = .ok b) :
    ∃ a, x = .ok a ∧ f a = .ok b := by
  cases x with
  | error e => cases h
  | ok a => exact ⟨a, rfl, h⟩

/-- A check run over a list passes when it passes everywhere. -/
theorem forM_ok {l : List α} {f : α → Except ε Unit} (h : ∀ a ∈ l, f a = .ok ()) :
    l.forM f = .ok () := by
  induction l with
  | nil => rfl
  | cons a l ih =>
      change (f a >>= fun _ => l.forM f) = .ok ()
      rw [h a List.mem_cons_self]
      exact ih fun b hb => h b (List.mem_cons_of_mem a hb)

end EarlyExit
