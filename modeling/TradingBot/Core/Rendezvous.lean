import Mathlib.Algebra.Order.Ring.Int
import Mathlib.Data.Nat.Cast.Order.Basic
import Mathlib.Order.Lattice

/-!
# Rendezvous hashing

Every pod scores each member of the fleet for a key on its own, and the member
with the highest score owns the key. The score is the first eight bytes of a
digest of member and key, and any function stands for it here. Members are
compared as the ids they are, in any linear order.
-/

namespace TradingBot.Core

variable {μ κ : Type} [LinearOrder μ]

/-- One round of the loop: the best member so far with its score, and the next member. -/
def considerMember (hrwScore : μ → κ → ℕ) (key : κ) (best : Option μ × ℤ) (member : μ) :
    Option μ × ℤ :=
  let score : ℤ := hrwScore member key
  if best.2 < score ∨ score = best.2 ∧ best.1.any (member < ·) then (some member, score) else best

/-- The owner of a key. Every score beats the initial one, which is below zero. -/
def rendezvousOwner (hrwScore : μ → κ → ℕ) (key : κ) (members : List μ) : Option μ :=
  (members.foldl (considerMember hrwScore key) (none, -1)).1

/-- The order the loop ranks members by: the higher score, then the smaller id. -/
def Outranks (hrwScore : μ → κ → ℕ) (key : κ) (a b : μ) : Prop :=
  hrwScore b key < hrwScore a key ∨ hrwScore a key = hrwScore b key ∧ a ≤ b

variable {hrwScore : μ → κ → ℕ} {key : κ} {a b c m : μ} {members members' : List μ}

theorem Outranks.refl (a : μ) : Outranks hrwScore key a a := .inr ⟨rfl, le_rfl⟩

theorem Outranks.trans (hab : Outranks hrwScore key a b) (hbc : Outranks hrwScore key b c) :
    Outranks hrwScore key a c := by
  rcases hab with hab | ⟨hab, hle⟩ <;> rcases hbc with hbc | ⟨hbc, hle'⟩
  · exact .inl (Nat.lt_trans hbc hab)
  · exact .inl (hbc ▸ hab)
  · exact .inl (hab ▸ hbc)
  · exact .inr ⟨hab.trans hbc, hle.trans hle'⟩

theorem Outranks.antisymm (hab : Outranks hrwScore key a b) (hba : Outranks hrwScore key b a) :
    a = b := by
  rcases hab with hab | ⟨hab, hle⟩ <;> rcases hba with hba | ⟨hba, hle'⟩
  · exact absurd hba (Nat.lt_asymm hab)
  · omega
  · omega
  · exact le_antisymm hle hle'

theorem considerMember_some (hrwScore : μ → κ → ℕ) (key : κ) (a b : μ) :
    ∃ best, considerMember hrwScore key (some a, (hrwScore a key : ℤ)) b =
        (some best, (hrwScore best key : ℤ)) ∧
      (best = a ∨ best = b) ∧ Outranks hrwScore key best a ∧ Outranks hrwScore key best b := by
  unfold considerMember
  simp only [Option.any_some, decide_eq_true_eq, Nat.cast_lt, Nat.cast_inj]
  split
  · next hbeats =>
      refine ⟨b, rfl, .inr rfl, ?_, .refl b⟩
      rcases hbeats with hscore | ⟨hscore, hless⟩
      · exact .inl hscore
      · exact .inr ⟨hscore, hless.le⟩
  · next hbeats =>
      refine ⟨a, rfl, .inl rfl, .refl a, ?_⟩
      rw [not_or, not_and, not_lt, not_lt] at hbeats
      rcases hbeats.1.lt_or_eq with hscore | hscore
      · exact .inl hscore
      · exact .inr ⟨hscore.symm, hbeats.2 hscore⟩

theorem foldl_considerMember (hrwScore : μ → κ → ℕ) (key : κ) (a : μ) (members : List μ) :
    ∃ best, members.foldl (considerMember hrwScore key) (some a, (hrwScore a key : ℤ)) =
        (some best, (hrwScore best key : ℤ)) ∧
      best ∈ a :: members ∧ ∀ m ∈ a :: members, Outranks hrwScore key best m := by
  induction members generalizing a with
  | nil => exact ⟨a, rfl, by simp, by simp [Outranks.refl]⟩
  | cons b rest ih =>
      obtain ⟨leader, hstep, hleader, hover⟩ := considerMember_some hrwScore key a b
      obtain ⟨best, hfold, hmem, htop⟩ := ih leader
      refine ⟨best, by rw [List.foldl_cons, hstep, hfold], ?_, ?_⟩
      · rcases List.mem_cons.mp hmem with rfl | hmem
        · rcases hleader with rfl | rfl <;> simp
        · simp [hmem]
      · have hlead := htop leader List.mem_cons_self
        intro m hm
        rcases List.mem_cons.mp hm with rfl | hm
        · exact hlead.trans hover.1
        · rcases List.mem_cons.mp hm with rfl | hm
          · exact hlead.trans hover.2
          · exact htop m (List.mem_cons_of_mem _ hm)

theorem rendezvousOwner_eq_some :
    rendezvousOwner hrwScore key members = some m ↔
      m ∈ members ∧ ∀ other ∈ members, Outranks hrwScore key m other := by
  cases members with
  | nil => simp [rendezvousOwner]
  | cons a rest =>
      have hfirst : considerMember hrwScore key (none, -1) a = (some a, (hrwScore a key : ℤ)) := by
        simp [considerMember]
        omega
      obtain ⟨best, hfold, hmem, htop⟩ := foldl_considerMember hrwScore key a rest
      have howner : rendezvousOwner hrwScore key (a :: rest) = some best := by
        rw [rendezvousOwner, List.foldl_cons, hfirst, hfold]
      rw [howner]
      constructor
      · intro heq
        obtain rfl := Option.some.inj heq
        exact ⟨hmem, htop⟩
      · rintro ⟨hm, htop'⟩
        exact congrArg some ((htop m hm).antisymm (htop' best hmem))

theorem exists_rendezvousOwner (hrwScore : μ → κ → ℕ) (key : κ) (hmember : m ∈ members) :
    ∃ owner ∈ members, rendezvousOwner hrwScore key members = some owner := by
  cases members with
  | nil => cases hmember
  | cons a rest =>
      obtain ⟨best, -, hmem, htop⟩ := foldl_considerMember hrwScore key a rest
      exact ⟨best, hmem, rendezvousOwner_eq_some.mpr ⟨hmem, htop⟩⟩

theorem rendezvousOwner_congr (hsame : ∀ m, m ∈ members ↔ m ∈ members') :
    rendezvousOwner hrwScore key members = rendezvousOwner hrwScore key members' := by
  apply Option.ext
  intro m
  rw [rendezvousOwner_eq_some, rendezvousOwner_eq_some, hsame]
  simp only [hsame]

theorem rendezvousOwner_join (hjoin : ∀ a, a ∈ members' ↔ a = m ∨ a ∈ members)
    (hnot : rendezvousOwner hrwScore key members' ≠ some m) :
    rendezvousOwner hrwScore key members' = rendezvousOwner hrwScore key members := by
  have hm : m ∈ members' := (hjoin m).mpr (.inl rfl)
  obtain ⟨owner, hmem, howner⟩ := exists_rendezvousOwner hrwScore key hm
  rw [howner] at hnot ⊢
  have htop := (rendezvousOwner_eq_some.mp howner).2
  rcases (hjoin owner).mp hmem with rfl | hbefore
  · exact absurd rfl hnot
  · refine (rendezvousOwner_eq_some.mpr ⟨hbefore, fun other hother => ?_⟩).symm
    exact htop other ((hjoin other).mpr (.inr hother))

/-- A member that leaves gives up the keys it owned and moves no other. -/
theorem rendezvousOwner_leave (hleave : ∀ a, a ∈ members' ↔ a ≠ m ∧ a ∈ members)
    (hnot : rendezvousOwner hrwScore key members ≠ some m) :
    rendezvousOwner hrwScore key members' = rendezvousOwner hrwScore key members := by
  by_cases hmember : m ∈ members
  · refine (rendezvousOwner_join (fun a => ?_) hnot).symm
    rw [hleave]
    by_cases heq : a = m
    · simp [heq, hmember]
    · simp [heq]
  · apply rendezvousOwner_congr
    intro a
    rw [hleave]
    constructor
    · exact fun h => h.2
    · exact fun h => ⟨fun heq => hmember (heq ▸ h), h⟩

end TradingBot.Core
