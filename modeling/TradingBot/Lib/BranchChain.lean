import TradingBot.Lib.EarlyExit

/-!
# Chains of branches

A step function written as an ordered chain of branches: each branch looks at
the state handed down to it and passes, hands down another state, or ends the
chain with an output. A branch may fail, and so may the chain. The rules below
are the pre- and postcondition rules for such chains: `Meets` says what a
branch guarantees to the branches after it and about the outputs it ends with,
and `RunMeets.cons` composes these guarantees along the chain.
-/

namespace BranchChain

open EarlyExit

variable {ε σ ω : Type}

/-- What a branch does with the state it was handed. -/
inductive Outcome (σ ω : Type) where
  | pass
  | mutate (state : σ)
  | terminal (output : ω)

abbrev Branch (ε σ ω : Type) := σ → Except ε (Outcome σ ω)

/-- Hand the state down the chain; a chain no branch ends fails with `fellThrough`. -/
def run (fellThrough : ε) : List (Branch ε σ ω) → σ → Except ε ω
  | [], _ => .error fellThrough
  | branch :: rest, state => do
      match ← branch state with
      | .pass => run fellThrough rest state
      | .mutate state => run fellThrough rest state
      | .terminal output => return output

section Equations

variable {fellThrough : ε} {branch : Branch ε σ ω} {rest : List (Branch ε σ ω)} {state : σ}

theorem run_pass (h : branch state = .ok .pass) :
    run fellThrough (branch :: rest) state = run fellThrough rest state := by
  rw [run, h]
  rfl

theorem run_mutate {state' : σ} (h : branch state = .ok (.mutate state')) :
    run fellThrough (branch :: rest) state = run fellThrough rest state' := by
  rw [run, h]
  rfl

theorem run_terminal {output : ω} (h : branch state = .ok (.terminal output)) :
    run fellThrough (branch :: rest) state = .ok output := by
  rw [run, h]
  rfl

end Equations

/-- The chain goes on with a state of which `R` holds, or ends with an output of which `Q` holds. -/
def Outcome.Holds (R : σ → Prop) (Q : ω → Prop) (state : σ) : Outcome σ ω → Prop
  | .pass => R state
  | .mutate state' => R state'
  | .terminal output => Q output

/-- What a branch makes of every state with `P`, unless it fails. -/
def Meets (P : σ → Prop) (branch : Branch ε σ ω) (R : σ → Prop) (Q : ω → Prop) : Prop :=
  ∀ state, P state → Ends (fun _ => True) (Outcome.Holds R Q state) (branch state)

/-- From a state with `P`, the chain ends only with an output of which `Q` holds. -/
def RunMeets (fellThrough : ε) (P : σ → Prop) (chain : List (Branch ε σ ω)) (Q : ω → Prop) :
    Prop :=
  ∀ state, P state → Ends (fun _ => True) Q (run fellThrough chain state)

theorem RunMeets.nil (fellThrough : ε) (P : σ → Prop) (Q : ω → Prop) :
    RunMeets fellThrough P ([] : List (Branch ε σ ω)) Q :=
  fun _ _ => trivial

theorem RunMeets.cons {fellThrough : ε} {P R : σ → Prop} {Q : ω → Prop}
    {branch : Branch ε σ ω} {rest : List (Branch ε σ ω)}
    (hbranch : Meets P branch R Q) (hrest : RunMeets fellThrough R rest Q) :
    RunMeets fellThrough P (branch :: rest) Q := by
  intro state hP
  rw [run]
  refine (hbranch state hP).bind fun outcome houtcome => ?_
  cases outcome with
  | pass => exact hrest state houtcome
  | mutate state' => exact hrest state' houtcome
  | terminal output => exact houtcome

end BranchChain
