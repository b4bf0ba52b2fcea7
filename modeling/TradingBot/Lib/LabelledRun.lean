import Mathlib.Logic.Relation

/-!
# Runs of a labelled system

A system whose step is a partial function of a label. A run takes labels that a
condition on the state and the label allows, one after the other; what every
allowed step keeps holds at the end of every run.
-/

namespace LabelledRun

variable {σ α : Type} (step : σ → α → Option σ)

/-- The states reached by allowed labels. -/
def Reach (ok : σ → α → Prop) : σ → σ → Prop :=
  Relation.ReflTransGen fun s t => ∃ label, ok s label ∧ step s label = some t

/-- The labels in turn, each checked first. -/
def run (check : σ → α → Bool) (s : σ) (labels : List α) : Option σ :=
  labels.foldlM (fun s label => if check s label then step s label else none) s

variable {step} {ok : σ → α → Prop} {s t : σ}

/-- What every allowed step keeps, a run keeps. -/
theorem Reach.invariant {P : σ → Prop} (hrun : Reach step ok s t) (hs : P s)
    (hstep : ∀ s label t, P s → ok s label → step s label = some t → P t) : P t := by
  induction hrun with
  | refl => exact hs
  | tail _ htaken ih =>
      obtain ⟨label, hok, htaken⟩ := htaken
      exact hstep _ label _ ih hok htaken

/-- What every step over a list keeps, the fold over the list keeps. -/
theorem foldlM_preserves {f : σ → α → Option σ} {P : σ → Prop} {l : List α}
    (hstep : ∀ s a t, a ∈ l → P s → f s a = some t → P t) (hs : P s)
    (h : l.foldlM f s = some t) : P t := by
  induction l generalizing s with
  | nil =>
      cases h
      exact hs
  | cons a rest ih =>
      rw [List.foldlM_cons] at h
      obtain ⟨middle, hmiddle, hrest⟩ := Option.bind_eq_some_iff.mp h
      exact ih (fun s b t hb => hstep s b t (List.mem_cons_of_mem a hb))
        (hstep s a middle List.mem_cons_self hs hmiddle) hrest

theorem reach_of_run {check : σ → α → Bool} (hok : ∀ s label, check s label = true → ok s label)
    {labels : List α} (h : run step check s labels = some t) : Reach step ok s t := by
  induction labels generalizing s with
  | nil =>
      cases h
      exact .refl
  | cons label rest ih =>
      rw [run, List.foldlM_cons] at h
      obtain ⟨middle, hmiddle, hrest⟩ := Option.bind_eq_some_iff.mp h
      split at hmiddle
      · next hcheck => exact .head ⟨label, hok s label hcheck, hmiddle⟩ (ih hrest)
      · cases hmiddle

end LabelledRun
