import Mathlib.Algebra.BigOperators.Group.List.Basic
import Mathlib.Algebra.GroupWithZero.Nat
import Mathlib.Data.List.Basic
import Mathlib.Data.List.Induction
import Mathlib.Data.Option.Basic
import Mathlib.Data.Nat.Basic
import Mathlib.Logic.Function.Basic
import TradingBot.Lib.LabelledRun

/-!
# Serial execution by key

A call is appended to the tail of its key: its task starts when the tail has
settled, and the tail becomes a promise derived from the call's own, which
removes itself from the map if it is still the tail. A run is any order of
calls, of tasks settling, and of the promise reactions these bring about.
-/

namespace TradingBot.Worker.ChainByKey

/-- How far a call has come: `finished` when the task's promise has settled or the task threw,
`settled` when the caller's has, `cleaned` when the cleanup ran, `released` when its promise has
settled in turn. -/
inductive Phase (ο : Type) where
  | queued
  | running
  | finished (outcome : ο)
  | settled (outcome : ο)
  | cleaned (outcome : ο)
  | released (outcome : ο)

namespace Phase

variable {ο : Type}

def started : Phase ο → Bool
  | queued => false
  | _ => true

def active : Phase ο → Bool
  | running | finished _ => true
  | _ => false

def ended : Phase ο → Bool
  | cleaned _ | released _ => true
  | _ => false

def isReleased : Phase ο → Bool
  | released _ => true
  | _ => false

/-- What the task came to. -/
def outcome : Phase ο → Option ο
  | queued | running => none
  | finished o | settled o | cleaned o | released o => some o

/-- What the caller's promise came to. -/
def result : Phase ο → Option ο
  | settled o | cleaned o | released o => some o
  | _ => none

/-- The reactions that are left to a call that is not held up. -/
def weight : Phase ο → ℕ
  | queued => 1
  | running => 0
  | finished _ => 3
  | settled _ => 2
  | cleaned _ => 1
  | released _ => 0

end Phase

/-- A call of `run`; `prev` is the call whose cleanup its task waits for. -/
structure Call (κ ο : Type) where
  key : κ
  prev : Option ℕ
  phase : Phase ο

/-- The calls so far, and the call whose cleanup promise the map holds for a key. -/
structure State (κ ο : Type) where
  calls : List (Call κ ο)
  tails : κ → Option ℕ

inductive Act (ο : Type) where
  | start
  | finish (outcome : ο)
  | settle
  | cleanup
  | release

inductive Event (κ ο : Type) where
  | call (key : κ)
  | act (i : ℕ) (a : Act ο)

variable {κ ο : Type}

def initial : State κ ο := ⟨[], fun _ => none⟩

namespace State

def released (s : State κ ο) (p : ℕ) : Bool := s.calls[p]?.any (·.phase.isReleased)

/-- The phase that an act takes a call to, where it can happen. -/
def next (s : State κ ο) (c : Call κ ο) (a : Act ο) : Option (Phase ο) :=
  match a, c.phase with
  -- the task runs on either outcome of the previous call
  | .start, .queued => if c.prev.all s.released then some .running else none
  | .finish o, .running => some (.finished o)
  | .settle, .finished o => some (.settled o)
  | .cleanup, .settled o => some (.cleaned o)
  | .release, .cleaned o => some (.released o)
  | _, _ => none

variable [DecidableEq κ]

/-- The cleanup of a call removes the entry of its key if it is still its own. -/
def tailsAfter (s : State κ ο) (key : κ) (i : ℕ) : Act ο → κ → Option ℕ
  | .cleanup => if s.tails key = some i then Function.update s.tails key none else s.tails
  | _ => s.tails

def step (s : State κ ο) : Event κ ο → Option (State κ ο)
  | .call key =>
      some
        { calls := s.calls ++ [⟨key, s.tails key, .queued⟩]
          tails := Function.update s.tails key (some s.calls.length) }
  | .act i a => do
      let c ← s.calls[i]?
      let phase ← s.next c a
      return { calls := s.calls.set i { c with phase }, tails := s.tailsAfter c.key i a }

def run (events : List (Event κ ο)) : Option (State κ ο) := events.foldlM step initial

/-- What the caller of a call has got. -/
def resultOf (s : State κ ο) (i : ℕ) : Option ο := s.calls[i]?.bind (·.phase.result)

/-- What the task of a call has come to. -/
def outcomeOf (s : State κ ο) (i : ℕ) : Option ο := s.calls[i]?.bind (·.phase.outcome)

def weight (s : State κ ο) : ℕ := (s.calls.map (·.phase.weight)).sum

end State

/-- A promise reaction, which the runtime performs by itself. -/
def Act.isReaction : Act ο → Bool
  | finish _ => false
  | _ => true

/-- No promise reaction is left to perform. -/
def Drained [DecidableEq κ] (s : State κ ο) : Prop :=
  ∀ i a, a.isReaction = true → s.step (.act i a) = none

/-! ### One step -/

section Step

variable {s t : State κ ο} {i j : ℕ} {a : Act ο} {c d : Call κ ο} {p : Phase ο}

theorem act_cases [DecidableEq κ] (h : s.step (.act i a) = some t) :
    ∃ c p, s.calls[i]? = some c ∧ s.next c a = some p ∧
      t.calls = s.calls.set i { c with phase := p } ∧ t.tails = s.tailsAfter c.key i a := by
  obtain ⟨c, hc, h⟩ := Option.bind_eq_some_iff.mp h
  obtain ⟨p, hp, h⟩ := Option.bind_eq_some_iff.mp h
  cases h
  exact ⟨c, p, hc, hp, rfl, rfl⟩

/-- The phases only go forward, and a task starts only when its predecessor is released. -/
theorem next_cases (h : s.next c a = some p) :
    (a = .start ∧ c.phase = .queued ∧ p = .running ∧ c.prev.all s.released = true) ∨
      (∃ o, a = .finish o ∧ c.phase = .running ∧ p = .finished o) ∨
      (∃ o, a = .settle ∧ c.phase = .finished o ∧ p = .settled o) ∨
      (∃ o, a = .cleanup ∧ c.phase = .settled o ∧ p = .cleaned o) ∨
      ∃ o, a = .release ∧ c.phase = .cleaned o ∧ p = .released o := by
  unfold State.next at h
  split at h
  · next hphase =>
      split at h
      · next hprev =>
          cases h
          exact .inl ⟨rfl, hphase, rfl, hprev⟩
      · cases h
  · next o hphase =>
      cases h
      exact .inr (.inl ⟨o, rfl, hphase, rfl⟩)
  · next o hphase =>
      cases h
      exact .inr (.inr (.inl ⟨o, rfl, hphase, rfl⟩))
  · next o hphase =>
      cases h
      exact .inr (.inr (.inr (.inl ⟨o, rfl, hphase, rfl⟩)))
  · next o hphase =>
      cases h
      exact .inr (.inr (.inr (.inr ⟨o, rfl, hphase, rfl⟩)))
  · cases h

theorem next_keeps_ended (h : s.next c a = some p) (hended : c.phase.ended = true) :
    p.ended = true := by
  rcases next_cases h with ⟨-, hc, -, -⟩ | ⟨o, -, hc, -⟩ | ⟨o, -, hc, -⟩ |
    ⟨o, -, hc, -⟩ | ⟨o, -, -, rfl⟩
  · rw [hc] at hended
    cases hended
  · rw [hc] at hended
    cases hended
  · rw [hc] at hended
    cases hended
  · rw [hc] at hended
    cases hended
  · rfl

theorem next_of_released (hreleased : c.phase.isReleased = true) : s.next c a = none := by
  by_contra hsome
  obtain ⟨p, hp⟩ := Option.ne_none_iff_exists'.mp hsome
  rcases next_cases hp with ⟨-, hc, -, -⟩ | ⟨o, -, hc, -⟩ | ⟨o, -, hc, -⟩ |
    ⟨o, -, hc, -⟩ | ⟨o, -, hc, -⟩ <;>
    rw [hc] at hreleased <;> cases hreleased

end Step

/-! ### The invariant -/

/-- The call before the place `i` that a call of the key has to wait for: the last of the key, or
none where all of the key have ended. -/
def Follows (s : State κ ο) (key : κ) (i : ℕ) : Option ℕ → Prop
  | some p =>
      p < i ∧ (∃ d, s.calls[p]? = some d ∧ d.key = key) ∧
        ∀ j d, p < j → j < i → s.calls[j]? = some d → d.key ≠ key
  | none => ∀ j d, j < i → s.calls[j]? = some d → d.key = key → d.phase.ended = true

structure Inv (s : State κ ο) : Prop where
  prev : ∀ (i : ℕ) (c : Call κ ο), s.calls[i]? = some c → Follows s c.key i c.prev
  tail : ∀ key, Follows s key s.calls.length (s.tails key)
  started : ∀ (i : ℕ) (c : Call κ ο), s.calls[i]? = some c → c.phase.started = true →
    c.prev.all s.released = true

section Invariant

variable {s t : State κ ο} {i j : ℕ} {a : Act ο} {c d : Call κ ο} {p : Phase ο} {key : κ}

/-- What a later state keeps of a call. -/
structure Kept (d d' : Call κ ο) : Prop where
  key : d'.key = d.key
  prev : d'.prev = d.prev
  ended : d.phase.ended = true → d'.phase.ended = true
  released : d.phase.isReleased = true → d'.phase.isReleased = true

/-- The calls before a place are the same calls, none of them further back. -/
def KeptBefore (s t : State κ ο) (n : ℕ) : Prop :=
  ∀ j, j < n → Option.Rel Kept s.calls[j]? t.calls[j]?

theorem KeptBefore.back {n : ℕ} (h : KeptBefore s t n) (hj : j < n) {d' : Call κ ο}
    (hd : t.calls[j]? = some d') : ∃ d, s.calls[j]? = some d ∧ Kept d d' := by
  have hrel := h j hj
  rw [hd] at hrel
  cases hs : s.calls[j]? with
  | none =>
      rw [hs] at hrel
      cases hrel
  | some d =>
      rw [hs] at hrel
      cases hrel with
      | some hkept => exact ⟨d, rfl, hkept⟩

theorem KeptBefore.forth {n : ℕ} (h : KeptBefore s t n) (hj : j < n)
    (hd : s.calls[j]? = some d) : ∃ d', t.calls[j]? = some d' ∧ Kept d d' := by
  have hrel := h j hj
  rw [hd] at hrel
  cases ht : t.calls[j]? with
  | none =>
      rw [ht] at hrel
      cases hrel
  | some d' =>
      rw [ht] at hrel
      cases hrel with
      | some hkept => exact ⟨d', rfl, hkept⟩

theorem Follows.kept {prev : Option ℕ} (h : Follows s key i prev) (hkept : KeptBefore s t i) :
    Follows t key i prev := by
  cases prev with
  | some p =>
      obtain ⟨hp, ⟨d, hd, hdkey⟩, hbetween⟩ := h
      obtain ⟨d', hd', hk⟩ := hkept.forth hp hd
      refine ⟨hp, ⟨d', hd', hk.key.trans hdkey⟩, ?_⟩
      intro j e hpj hji he
      obtain ⟨e', he', hk'⟩ := hkept.back hji he
      rw [hk'.key]
      exact hbetween j e' hpj hji he'
  | none =>
      intro j e hji he hekey
      obtain ⟨e', he', hk⟩ := hkept.back hji he
      exact hk.ended (h j e' hji he' (hk.key.symm.trans hekey))

theorem released_kept {n : ℕ} {prev : Option ℕ} (hkept : KeptBefore s t n)
    (hprev : ∀ p, prev = some p → p < n) (h : prev.all s.released = true) :
    prev.all t.released = true := by
  cases prev with
  | none => rfl
  | some p =>
      unfold State.released at h ⊢
      rw [Option.all_some, Option.any_eq_true] at h ⊢
      obtain ⟨d, hd, hreleased⟩ := h
      obtain ⟨d', hd', hk⟩ := hkept.forth (hprev p rfl) hd
      exact ⟨d', hd', hk.released hreleased⟩

theorem Follows.lt {p : ℕ} (h : Follows s key i (some p)) : p < i := h.1

theorem ended_of_released {q : Phase ο} (h : q.isReleased = true) : q.ended = true := by
  cases q with
  | released o => rfl
  | queued | running | finished o | settled o | cleaned o => cases h

theorem started_of_ended {q : Phase ο} (h : q.ended = true) : q.started = true := by
  cases q with
  | cleaned o => rfl
  | released o => rfl
  | queued | running | finished o | settled o => cases h

theorem Inv.ended_before (h : Inv s) (hc : s.calls[i]? = some c) (hstarted : c.phase.started = true)
    (hji : j < i) (hd : s.calls[j]? = some d) (hkey : d.key = c.key) : d.phase.ended = true := by
  induction i using Nat.strongRecOn generalizing c j d with
  | ind i ih =>
      have hprev := h.prev i c hc
      have hreleased := h.started i c hc hstarted
      cases hp : c.prev with
      | none =>
          rw [hp] at hprev
          exact hprev j d hji hd hkey
      | some p =>
          rw [hp] at hprev hreleased
          obtain ⟨hpi, ⟨e, he, hekey⟩, hbetween⟩ := hprev
          unfold State.released at hreleased
          rw [Option.all_some, he, Option.any_some] at hreleased
          rcases lt_trichotomy j p with hjp | rfl | hpj
          · exact ih p hpi he (started_of_ended (ended_of_released hreleased)) hjp hd
              (hkey.trans hekey.symm)
          · rw [hd] at he
            cases he
            exact ended_of_released hreleased
          · exact absurd hkey (hbetween j d hpj hji hd)

theorem inv_initial : Inv (initial : State κ ο) where
  prev i c hc := by cases hc
  tail key j d hj := absurd hj (Nat.not_lt_zero j)
  started i c hc := by cases hc

variable [DecidableEq κ]

theorem keptBefore_act (h : s.step (.act i a) = some t) (n : ℕ) : KeptBefore s t n := by
  obtain ⟨c, p, hc, hp, hcalls, -⟩ := act_cases h
  intro j _
  rw [hcalls]
  by_cases hj : j = i
  · subst hj
    rw [List.getElem?_set_self (List.getElem?_eq_some_iff.mp hc).1, hc]
    refine .some ⟨rfl, rfl, next_keeps_ended hp, ?_⟩
    intro hreleased
    rw [next_of_released hreleased] at hp
    cases hp
  · rw [List.getElem?_set_ne (Ne.symm hj)]
    cases s.calls[j]? with
    | none => exact .none
    | some d => exact .some ⟨rfl, rfl, id, id⟩

theorem keptBefore_call (s : State κ ο) (key : κ) {t : State κ ο}
    (h : s.step (.call key) = some t) : KeptBefore s t s.calls.length := by
  cases h
  intro j hj
  dsimp only
  rw [List.getElem?_append_left hj]
  cases s.calls[j]? with
  | none => exact .none
  | some d => exact .some ⟨rfl, rfl, id, id⟩

/-- A call queues behind the tail of its key and becomes the tail. -/
theorem Inv.call (h : Inv s) (hstep : s.step (.call key) = some t) : Inv t := by
  have hkept := keptBefore_call s key hstep
  cases hstep
  have hold : ∀ i c, (s.calls ++ [⟨key, s.tails key, .queued⟩])[i]? = some c →
      i < s.calls.length ∧ s.calls[i]? = some c ∨
        i = s.calls.length ∧ c = ⟨key, s.tails key, .queued⟩ := by
    intro i c hc
    rcases lt_trichotomy i s.calls.length with hlt | rfl | hgt
    · rw [List.getElem?_append_left hlt] at hc
      exact .inl ⟨hlt, hc⟩
    · rw [List.getElem?_concat_length] at hc
      exact .inr ⟨rfl, (Option.some.inj hc).symm⟩
    · rw [List.getElem?_eq_none (by rw [List.length_append, List.length_singleton]; omega)] at hc
      cases hc
  refine ⟨?_, ?_, ?_⟩
  · intro i c hc
    rcases hold i c hc with ⟨hlt, hc⟩ | ⟨rfl, rfl⟩
    · exact (h.prev i c hc).kept fun j hj => hkept j (hj.trans hlt)
    · exact (h.tail key).kept hkept
  · intro other
    dsimp only
    rw [List.length_append, List.length_singleton]
    by_cases hother : other = key
    · subst hother
      rw [Function.update_self]
      refine ⟨Nat.lt_succ_self _, ⟨_, List.getElem?_concat_length, rfl⟩, ?_⟩
      intro j d hlt hle
      omega
    · rw [Function.update_of_ne hother]
      have htail := (h.tail other).kept hkept
      cases hprev : s.tails other with
      | some p =>
          rw [hprev] at htail
          obtain ⟨hp, hd, hbetween⟩ := htail
          refine ⟨Nat.lt_succ_of_lt hp, hd, ?_⟩
          intro j d hpj hj hd
          rcases hold j d hd with ⟨hlt, -⟩ | ⟨-, rfl⟩
          · exact hbetween j d hpj hlt hd
          · exact Ne.symm hother
      | none =>
          rw [hprev] at htail
          intro j d hj hd hkey
          rcases hold j d hd with ⟨hlt, -⟩ | ⟨-, rfl⟩
          · exact htail j d hlt hd hkey
          · exact absurd hkey.symm hother
  · intro i c hc hstarted
    rcases hold i c hc with ⟨hlt, hc⟩ | ⟨-, rfl⟩
    · refine released_kept hkept ?_ (h.started i c hc hstarted)
      intro p hp
      have hprev := h.prev i c hc
      rw [hp] at hprev
      exact hprev.lt.trans hlt
    · cases hstarted

/-- An act moves one call on; a cleanup that removes its entry leaves no call of the key behind. -/
theorem Inv.act (h : Inv s) (hstep : s.step (.act i a) = some t) : Inv t := by
  have hkept := keptBefore_act hstep
  obtain ⟨c, p, hc, hp, hcalls, htails⟩ := act_cases hstep
  have hlength : t.calls.length = s.calls.length := by rw [hcalls, List.length_set]
  have hi : i < s.calls.length := (List.getElem?_eq_some_iff.mp hc).1
  refine ⟨?_, ?_, ?_⟩
  · intro j d hd
    obtain ⟨d', hd', hk⟩ := (hkept (j + 1)).back (Nat.lt_succ_self j) hd
    rw [hk.key, hk.prev]
    exact (h.prev j d' hd').kept (hkept j)
  · intro key
    rw [hlength, htails]
    have htail := (h.tail key).kept (hkept s.calls.length)
    cases a with
    | cleanup =>
        unfold State.tailsAfter
        dsimp only
        split
        · next hown =>
            by_cases hkey : key = c.key
            · subst hkey
              rw [Function.update_self]
              intro j d hj hd hdkey
              obtain ⟨d', hd', hk⟩ := (hkept s.calls.length).back hj hd
              have hsame : d'.key = c.key := hk.key.symm.trans hdkey
              rcases next_cases hp with ⟨ha, -⟩ | ⟨o, ha, -⟩ | ⟨o, ha, -⟩ |
                ⟨o, -, hphase, rfl⟩ | ⟨o, ha, -⟩
              · cases ha
              · cases ha
              · cases ha
              · rcases lt_trichotomy j i with hji | rfl | hij
                · exact hk.ended (h.ended_before hc (by rw [hphase]; rfl) hji hd' hsame)
                · rw [hcalls, List.getElem?_set_self hi] at hd
                  cases hd
                  rfl
                · have hlast := h.tail c.key
                  rw [hown] at hlast
                  exact absurd hsame (hlast.2.2 j d' hij hj hd')
              · cases ha
            · rw [Function.update_of_ne hkey]
              exact htail
        · exact htail
    | start | finish o | settle | release => exact htail
  · intro j d hd hstarted
    obtain ⟨d', hd', hk⟩ := (hkept (j + 1)).back (Nat.lt_succ_self j) hd
    rw [hk.prev]
    have hprev : ∀ q, d'.prev = some q → q < j := by
      intro q hq
      have hfollows := h.prev j d' hd'
      rw [hq] at hfollows
      exact hfollows.lt
    refine released_kept (hkept j) hprev ?_
    by_cases hj : j = i
    · subst hj
      cases hd'.symm.trans hc
      rcases next_cases hp with ⟨-, -, -, hreleased⟩ | ⟨o, -, hphase, -⟩ | ⟨o, -, hphase, -⟩ |
        ⟨o, -, hphase, -⟩ | ⟨o, -, hphase, -⟩
      · exact hreleased
      all_goals exact h.started j _ hc (by rw [hphase]; rfl)
    · rw [hcalls, List.getElem?_set_ne (Ne.symm hj)] at hd
      exact h.started j d' hd' (by cases hd'.symm.trans hd; exact hstarted)

theorem Inv.step {e : Event κ ο} (h : Inv s) (hstep : s.step e = some t) : Inv t := by
  cases e with
  | call key => exact h.call hstep
  | act i a => exact h.act hstep

theorem inv_of_run {events : List (Event κ ο)} (hrun : State.run events = some s) : Inv s :=
  LabelledRun.foldlM_preserves (fun _ _ _ _ hinv hstep => Inv.step hinv hstep) inv_initial hrun

end Invariant

/-! ### What every run keeps -/

/-- The call right before a call among those of its key. -/
structure Precedes (s : State κ ο) (p i : ℕ) (d c : Call κ ο) : Prop where
  before : p < i
  there : s.calls[p]? = some d
  key : d.key = c.key
  last : ∀ j e, p < j → j < i → s.calls[j]? = some e → e.key ≠ c.key

/-- The key an event is about. -/
def State.keyOf (s : State κ ο) : Event κ ο → Option κ
  | .call key => some key
  | .act i _ => s.calls[i]?.map (·.key)

/-- An event of another key changes nothing for a call, nor what can happen to it. -/
def Apart [DecidableEq κ] (s : State κ ο) : Prop :=
  ∀ e t, s.step e = some t → ∀ (i : ℕ) (c : Call κ ο), s.calls[i]? = some c →
    s.keyOf e ≠ some c.key →
      t.calls[i]? = some c ∧ t.tails c.key = s.tails c.key ∧
        ∀ a, (t.step (.act i a)).isSome = (s.step (.act i a)).isSome

/-- What the calls of a run may rely on. -/
structure Serialises [DecidableEq κ] (events : List (Event κ ο)) (s : State κ ο) : Prop where
  /-- Two tasks of one key never overlap. -/
  alone : ∀ (i j : ℕ) (c d : Call κ ο), s.calls[i]? = some c → s.calls[j]? = some d →
    c.key = d.key → c.phase.active = true → d.phase.active = true → i = j
  /-- When a task starts, the earlier ones of its key have started and settled. -/
  inOrder : ∀ (i j : ℕ) (c d : Call κ ο), i < j → s.calls[i]? = some c → s.calls[j]? = some d →
    c.key = d.key → d.phase.started = true → c.phase.ended = true
  /-- A task that cannot start waits for the call before it of its own key. -/
  waits : ∀ (i : ℕ) (c : Call κ ο), s.calls[i]? = some c → c.phase = .queued →
    s.step (.act i .start) = none → ∃ p d, Precedes s p i d c ∧ d.phase.isReleased = false
  /-- Once the reactions are through, only a task whose predecessor has not settled is queued,
  and some task of its key is running. -/
  starts : Drained s → ∀ (i : ℕ) (c : Call κ ο), s.calls[i]? = some c → c.phase = .queued →
    (∃ p d, Precedes s p i d c ∧ d.phase.outcome = none) ∧
      ∃ r d, r < i ∧ s.calls[r]? = some d ∧ d.key = c.key ∧ d.phase = .running
  /-- A caller gets what its own task came to. -/
  own : ∀ i o, s.resultOf i = some o →
    .act i (.finish o) ∈ events ∧ ∀ o', .act i (.finish o') ∈ events → o' = o
  /-- Once the reactions are through, every caller whose task has settled has got it. -/
  delivered : Drained s → ∀ i o, .act i (.finish o) ∈ events → s.resultOf i = some o
  /-- A key without an entry has no task that is running or queued. -/
  entry : ∀ key, s.tails key = none → ∀ (i : ℕ) (c : Call κ ο), s.calls[i]? = some c →
    c.key = key → c.phase.ended = true
  apart : Apart s

section Runs

variable {s t : State κ ο} {i j : ℕ} {a : Act ο} {c d : Call κ ο} {p : Phase ο} {key : κ}

theorem not_ended_of_active {q : Phase ο} (h : q.active = true) : ¬ q.ended = true := by
  cases q with
  | running | finished o => exact Bool.false_ne_true
  | queued | settled o | cleaned o | released o => cases h

theorem started_of_active {q : Phase ο} (h : q.active = true) : q.started = true := by
  cases q with
  | running | finished o => rfl
  | queued | settled o | cleaned o | released o => cases h

theorem outcomeOf_of_resultOf {o : ο} (h : s.resultOf i = some o) : s.outcomeOf i = some o := by
  obtain ⟨c, hc, hresult⟩ := Option.bind_eq_some_iff.mp h
  unfold State.outcomeOf
  rw [hc, Option.bind_some]
  cases hphase : c.phase with
  | queued | running | finished o' =>
      rw [hphase] at hresult
      cases hresult
  | settled o' | cleaned o' | released o' =>
      rw [hphase] at hresult
      exact hresult

theorem Inv.alone (h : Inv s) (hc : s.calls[i]? = some c) (hd : s.calls[j]? = some d)
    (hkey : c.key = d.key) (hci : c.phase.active = true) (hdj : d.phase.active = true) : i = j := by
  rcases lt_trichotomy i j with hlt | heq | hgt
  · exact absurd (h.ended_before hd (started_of_active hdj) hlt hc hkey) (not_ended_of_active hci)
  · exact heq
  · exact absurd (h.ended_before hc (started_of_active hci) hgt hd hkey.symm)
      (not_ended_of_active hdj)

variable [DecidableEq κ]

theorem step_act_isSome (i : ℕ) (a : Act ο) :
    (s.step (.act i a)).isSome = (s.calls[i]?.bind fun c => s.next c a).isSome := by
  unfold State.step
  dsimp only [Option.bind_eq_bind]
  cases s.calls[i]? with
  | none => rfl
  | some c =>
      dsimp only [Option.bind_some]
      cases s.next c a with
      | none => rfl
      | some p => rfl

theorem Inv.waits (h : Inv s) (hc : s.calls[i]? = some c) (hqueued : c.phase = .queued)
    (hnone : s.step (.act i .start) = none) :
    ∃ p d, Precedes s p i d c ∧ d.phase.isReleased = false := by
  have hnext : ¬ c.prev.all s.released = true := by
    intro hreleased
    have hsome := step_act_isSome (s := s) i .start
    rw [hnone, hc, Option.bind_some] at hsome
    unfold State.next at hsome
    rw [hqueued] at hsome
    dsimp only at hsome
    rw [if_pos hreleased] at hsome
    cases hsome
  have hprev := h.prev i c hc
  cases hp : c.prev with
  | none =>
      rw [hp] at hnext
      exact absurd rfl hnext
  | some p =>
      rw [hp] at hprev hnext
      obtain ⟨hpi, ⟨d, hd, hkey⟩, hlast⟩ := hprev
      refine ⟨p, d, ⟨hpi, hd, hkey, hlast⟩, ?_⟩
      unfold State.released at hnext
      rw [Option.all_some, hd, Option.any_some] at hnext
      exact Bool.eq_false_iff.mpr hnext

/-- With no reaction left a call is queued, running or through. -/
theorem phase_of_drained (hdrained : Drained s) (hc : s.calls[i]? = some c) :
    c.phase = .queued ∨ c.phase = .running ∨ c.phase.isReleased = true := by
  have hstuck : ∀ a : Act ο, a.isReaction = true → s.next c a = none := by
    intro a ha
    have hsome := step_act_isSome (s := s) i a
    rw [hdrained i a ha, hc, Option.bind_some] at hsome
    exact Option.isSome_eq_false_iff.mp hsome.symm |> Option.isNone_iff_eq_none.mp
  cases hphase : c.phase with
  | queued => exact .inl rfl
  | running => exact .inr (.inl rfl)
  | released o => exact .inr (.inr rfl)
  | finished o =>
      have hsettle := hstuck .settle rfl
      unfold State.next at hsettle
      rw [hphase] at hsettle
      cases hsettle
  | settled o =>
      have hcleanup := hstuck .cleanup rfl
      unfold State.next at hcleanup
      rw [hphase] at hcleanup
      cases hcleanup
  | cleaned o =>
      have hrelease := hstuck .release rfl
      unfold State.next at hrelease
      rw [hphase] at hrelease
      cases hrelease

theorem Inv.starts (h : Inv s) (hdrained : Drained s) (hc : s.calls[i]? = some c)
    (hqueued : c.phase = .queued) :
    (∃ p d, Precedes s p i d c ∧ d.phase.outcome = none) ∧
      ∃ r d, r < i ∧ s.calls[r]? = some d ∧ d.key = c.key ∧ d.phase = .running := by
  induction i using Nat.strongRecOn generalizing c with
  | ind i ih =>
      obtain ⟨p, d, hprecedes, hpending⟩ := h.waits hc hqueued (hdrained i .start rfl)
      rcases phase_of_drained hdrained hprecedes.there with hphase | hphase | hphase
      · obtain ⟨-, r, e, hr, he, hekey, hrunning⟩ := ih p hprecedes.before hprecedes.there hphase
        exact ⟨⟨p, d, hprecedes, by rw [hphase]; rfl⟩,
          r, e, hr.trans hprecedes.before, he, hekey.trans hprecedes.key, hrunning⟩
      · exact ⟨⟨p, d, hprecedes, by rw [hphase]; rfl⟩,
          p, d, hprecedes.before, hprecedes.there, hprecedes.key, hphase⟩
      · rw [hphase] at hpending
        cases hpending

theorem Inv.apart (h : Inv s) : Apart s := by
  intro e t hstep i c hc hother
  -- The call and the one it waits for are as they were.
  have hsame : t.calls[i]? = some c ∧ t.tails c.key = s.tails c.key ∧
      c.prev.all t.released = c.prev.all s.released := by
    have hprev := h.prev i c hc
    have hi : i < s.calls.length := (List.getElem?_eq_some_iff.mp hc).1
    cases e with
    | call key =>
        have hne : c.key ≠ key := fun heq => hother (congrArg some heq.symm)
        cases hstep
        dsimp only
        refine ⟨(List.getElem?_append_left hi).trans hc, Function.update_of_ne hne _ _, ?_⟩
        cases hp : c.prev with
        | none => rfl
        | some p =>
            rw [hp] at hprev
            unfold State.released
            rw [Option.all_some, Option.all_some, List.getElem?_append_left (hprev.lt.trans hi)]
    | act k b =>
        obtain ⟨d, q, hd, -, hcalls, htails⟩ := act_cases hstep
        have hne : d.key ≠ c.key := by
          intro heq
          apply hother
          unfold State.keyOf
          dsimp only
          rw [hd, Option.map_some, heq]
        have hk : k ≠ i := by
          rintro rfl
          cases hd.symm.trans hc
          exact hne rfl
        refine ⟨by rw [hcalls, List.getElem?_set_ne hk]; exact hc, ?_, ?_⟩
        · rw [htails]
          unfold State.tailsAfter
          cases b with
          | cleanup =>
              dsimp only
              split
              · exact Function.update_of_ne (Ne.symm hne) _ _
              · rfl
          | start | finish o | settle | release => rfl
        · cases hp : c.prev with
          | none => rfl
          | some p =>
              rw [hp] at hprev
              obtain ⟨-, ⟨e, he, hekey⟩, -⟩ := hprev
              have hkp : k ≠ p := by
                rintro rfl
                cases hd.symm.trans he
                exact hne hekey
              unfold State.released
              rw [Option.all_some, Option.all_some, hcalls, List.getElem?_set_ne hkp]
  obtain ⟨hcall, htail, hreleased⟩ := hsame
  refine ⟨hcall, htail, fun a => ?_⟩
  rw [step_act_isSome, step_act_isSome, hcall, hc, Option.bind_some, Option.bind_some]
  unfold State.next
  rw [hreleased]

/-- What a task has come to changes only when it finishes. -/
theorem outcomeOf_step {e : Event κ ο} (hstep : s.step e = some t) (i : ℕ) (o : ο) :
    t.outcomeOf i = some o ↔ s.outcomeOf i = some o ∨ e = .act i (.finish o) := by
  cases e with
  | call key =>
      cases hstep
      unfold State.outcomeOf
      dsimp only
      rcases lt_trichotomy i s.calls.length with hlt | rfl | hgt
      · rw [List.getElem?_append_left hlt]
        simp
      · rw [List.getElem?_concat_length, List.getElem?_eq_none le_rfl]
        simp [Phase.outcome]
      · rw [List.getElem?_eq_none (by rw [List.length_append, List.length_singleton]; omega),
          List.getElem?_eq_none hgt.le]
        simp
  | act k a =>
      obtain ⟨c, p, hc, hp, hcalls, -⟩ := act_cases hstep
      unfold State.outcomeOf
      rw [hcalls]
      by_cases hk : k = i
      · subst hk
        rw [List.getElem?_set_self (List.getElem?_eq_some_iff.mp hc).1, hc, Option.bind_some,
          Option.bind_some]
        dsimp only
        rcases next_cases hp with ⟨rfl, hphase, rfl, -⟩ | ⟨o', rfl, hphase, rfl⟩ |
          ⟨o', rfl, hphase, rfl⟩ | ⟨o', rfl, hphase, rfl⟩ | ⟨o', rfl, hphase, rfl⟩ <;>
          rw [hphase] <;> simp [Phase.outcome]
      · rw [List.getElem?_set_ne hk]
        simp [hk]

theorem outcomeOf_run {events : List (Event κ ο)} (hrun : State.run events = some s)
    (i : ℕ) (o : ο) :
    s.outcomeOf i = some o ↔ .act i (.finish o) ∈ events := by
  unfold State.run at hrun
  induction events using List.reverseRecOn generalizing s with
  | nil =>
      cases hrun
      simp [State.outcomeOf, initial]
  | append_singleton before e ih =>
      rw [List.foldlM_append] at hrun
      obtain ⟨r, hbefore, hlast⟩ := Option.bind_eq_some_iff.mp hrun
      obtain ⟨t, hstep, hdone⟩ := Option.bind_eq_some_iff.mp hlast
      cases hdone
      rw [outcomeOf_step hstep, ih hbefore, List.mem_append, List.mem_singleton, eq_comm]

theorem resultOf_of_drained (hdrained : Drained s) {o : ο} (h : s.outcomeOf i = some o) :
    s.resultOf i = some o := by
  obtain ⟨c, hc, houtcome⟩ := Option.bind_eq_some_iff.mp h
  unfold State.resultOf
  rw [hc, Option.bind_some]
  rcases phase_of_drained hdrained hc with hphase | hphase | hphase
  · rw [hphase] at houtcome
    cases houtcome
  · rw [hphase] at houtcome
    cases houtcome
  · cases hreleased : c.phase with
    | released o' =>
        rw [hreleased] at houtcome
        exact houtcome
    | queued | running | finished o' | settled o' | cleaned o' =>
        rw [hreleased] at hphase
        cases hphase

theorem serialises_of_run {events : List (Event κ ο)} (hrun : State.run events = some s) :
    Serialises events s := by
  have h := inv_of_run hrun
  refine ⟨?_, ?_, ?_, ?_, ?_, ?_, ?_, h.apart⟩
  · exact fun i j c d hc hd => h.alone hc hd
  · exact fun i j c d hij hc hd hkey hstarted => h.ended_before hd hstarted hij hc hkey
  · exact fun i c hc => h.waits hc
  · exact fun hdrained i c hc => h.starts hdrained hc
  · intro i o hresult
    have houtcome := outcomeOf_of_resultOf hresult
    refine ⟨(outcomeOf_run hrun i o).mp houtcome, fun o' ho' => ?_⟩
    have hother := (outcomeOf_run hrun i o').mpr ho'
    exact Option.some.inj (hother.symm.trans houtcome)
  · exact fun hdrained i o hfinish =>
      resultOf_of_drained hdrained ((outcomeOf_run hrun i o).mpr hfinish)
  · intro key hnone i c hc hkey
    have htail := h.tail key
    rw [hnone] at htail
    exact htail i c (List.getElem?_eq_some_iff.mp hc).1 hc hkey

/-! ### Reactions run out -/

theorem sum_map_set {α : Type} (f : α → ℕ) (l : List α) (k : ℕ) {x : α} (hx : l[k]? = some x)
    (y : α) : ((l.set k y).map f).sum + f x = (l.map f).sum + f y := by
  induction l generalizing k with
  | nil => cases hx
  | cons first rest ih =>
      cases k with
      | zero =>
          cases hx
          rw [List.set_cons_zero, List.map_cons, List.map_cons, List.sum_cons, List.sum_cons]
          omega
      | succ k =>
          have hrest := ih k hx
          rw [List.set_cons_succ, List.map_cons, List.map_cons, List.sum_cons, List.sum_cons]
          omega

/-- Each reaction is one of finitely many. -/
theorem weight_reaction (ha : a.isReaction = true) (hstep : s.step (.act i a) = some t) :
    t.weight + 1 = s.weight := by
  obtain ⟨c, p, hc, hp, hcalls, -⟩ := act_cases hstep
  have hsum := sum_map_set (·.phase.weight) s.calls i hc { c with phase := p }
  have hphase : p.weight + 1 = c.phase.weight := by
    rcases next_cases hp with ⟨-, hphase, rfl, -⟩ | ⟨o, rfl, -⟩ | ⟨o, -, hphase, rfl⟩ |
      ⟨o, -, hphase, rfl⟩ | ⟨o, -, hphase, rfl⟩
    · rw [hphase]
      rfl
    · cases ha
    all_goals
      rw [hphase]
      rfl
  unfold State.weight
  rw [hcalls]
  dsimp only at hsum
  omega

theorem reactions_run_out (reactions : List (ℕ × Act ο))
    (hreactions : ∀ r ∈ reactions, r.2.isReaction = true)
    (hrun : reactions.foldlM (fun s r => s.step (.act r.1 r.2)) s = some t) :
    t.weight + reactions.length = s.weight := by
  induction reactions generalizing s with
  | nil =>
      cases hrun
      rfl
  | cons r rest ih =>
      rw [List.foldlM_cons] at hrun
      obtain ⟨middle, hfirst, hrest⟩ := Option.bind_eq_some_iff.mp hrun
      have hone := weight_reaction (hreactions r List.mem_cons_self) hfirst
      have hmore := ih (fun q hq => hreactions q (List.mem_cons_of_mem _ hq)) hrest
      rw [List.length_cons]
      omega

/-- In every run the tasks of a key go one after the other in the order of their calls, each caller
gets its own task's outcome, keys do not touch each other and no entry is dropped early; and the
reactions always run out, after which no task is held up by one that has settled. -/
theorem chain_serialises_each_key {events : List (Event κ ο)} (hrun : State.run events = some s) :
    Serialises events s ∧
      ∀ (reactions : List (ℕ × Act ο)) (t : State κ ο), (∀ r ∈ reactions, r.2.isReaction = true) →
        reactions.foldlM (fun s r => s.step (.act r.1 r.2)) s = some t →
        reactions.length ≤ s.weight := by
  refine ⟨serialises_of_run hrun, ?_⟩
  intro reactions t hreactions hreacted
  have hweight := reactions_run_out reactions hreactions hreacted
  omega

/-- Two calls of one key, the second made inside the first; the first is rejected, and a third call
comes between its rejection and its cleanup. -/
def reentrantEvents : List (Event String (Except String ℕ)) :=
  [.call "BTCUSDT", .act 0 .start, .call "BTCUSDT",
    .act 0 (.finish (.error "boom")), .act 0 .settle,
    .call "BTCUSDT", .act 0 .cleanup, .act 0 .release, .act 1 .start, .act 1 (.finish (.ok 7)),
    .act 1 .settle, .act 1 .cleanup, .act 1 .release, .act 2 .start]

theorem reentrant_calls_serialise :
    ∃ s, State.run reentrantEvents = some s ∧ s.tails "BTCUSDT" = some 2 ∧
      s.calls = [⟨"BTCUSDT", none, .released (.error "boom")⟩,
        ⟨"BTCUSDT", some 0, .released (.ok 7)⟩, ⟨"BTCUSDT", some 1, .running⟩] ∧
      Serialises reentrantEvents s :=
  ⟨_, rfl, rfl, rfl, (chain_serialises_each_key rfl).1⟩

end Runs

end TradingBot.Worker.ChainByKey
