import Mathlib.Data.List.Nodup
import TradingBot.Core.Rendezvous
import TradingBot.Worker.UserStreamPool

/-!
# The election of the streams' owners

Every pod of the fleet reconciles on its own: it reads the members that are
ready, walks the active profiles it knows of, opens the streams of the accounts
it owns, closes the others, and at the end closes what it opened for profiles
that are no longer active. A read may fail, and a pod that does not find itself
among the members leaves its streams alone.

Changes of the membership and of the active profiles are counted, and a
reconcile is dated by the count at its beginning. The watchdog that drops a
silent connection and opens another is not among the steps of a pod.
-/

namespace TradingBot.Worker

open InsertionMap LabelledRun TradingBot.Core

structure OwnedProfile where
  operatorId : String
  accountId : String
  profileId : String
deriving DecidableEq

/-- What a reconcile goes by: the members it read and the active profiles at that moment. -/
structure Sweep (μ : Type) where
  since : ℕ
  members : List μ
  active : List OwnedProfile

inductive Reconcile (μ : Type) where
  | idle
  | reading (since : ℕ)
  | visiting (sweep : Sweep μ) (rest : List OwnedProfile)
  /-- `pool.open` waits for the credentials. -/
  | opening (sweep : Sweep μ) (profile : OwnedProfile) (rest : List OwnedProfile)
  /-- `pool.open` is back from `openInternal`. -/
  | opened (sweep : Sweep μ) (profile : OwnedProfile) (rest : List OwnedProfile)
  | departing (sweep : Sweep μ) (rest : List (String × StreamIntent))

structure Pod (μ : Type) where
  pool : UserStreamPool
  active : List OwnedProfile
  streamedByUs : List (String × StreamIntent)
  reconcile : Reconcile μ
  /-- The date of the last reconcile that ran to its end. -/
  completed : Option ℕ

inductive PodStep (μ : Type) where
  | reconcile
  | memberRead (answer : Option (List μ))
  | visit
  | credentials (answer : CredentialsAnswer)
  | proceed
  | serverClose (socket : ℕ)
  | onClose (socket : ℕ)

def activeIds (active : List OwnedProfile) : List String := active.map (·.profileId)

namespace Pod

variable {μ : Type}

def start : Pod μ := ⟨.empty, [], [], .idle, none⟩

/-- A reconcile that finds another in flight returns at once. -/
def beginReconcile (pod : Pod μ) (changes : ℕ) : Pod μ :=
  match pod.reconcile with
  | .idle => { pod with reconcile := .reading changes }
  | _ => pod

def enable (pod : Pod μ) (profile : OwnedProfile) : Pod μ :=
  if profile.profileId ∈ activeIds pod.active then pod
  else { pod with active := pod.active ++ [profile] }

def disable (pod : Pod μ) (profileId : String) : Pod μ :=
  { pod with active := pod.active.filter (·.profileId ≠ profileId) }

/-- A close that fails has revoked the intent before it failed. -/
def cede (pod : Pod μ) (profileId : String) (next : Reconcile μ) : Pod μ :=
  { pod with
    streamedByUs := delete profileId pod.streamedByUs
    pool := pod.pool.close profileId
    reconcile := next }

def credentials (pod : Pod μ) (answer : CredentialsAnswer) : Option (Pod μ) :=
  match pod.reconcile, answer with
  | .opening sweep profile rest, .granted =>
      some { pod with
        pool := pod.pool.connect profile.profileId
        reconcile := .opened sweep profile rest }
  | .opening sweep profile rest, .absent =>
      some { pod with reconcile := .opened sweep profile rest }
  | .opening sweep _ rest, .failed => some { pod with reconcile := .visiting sweep rest }
  | _, _ => none

/-- `open` checks the intent, and the reconcile goes on after the resync, which may fail. -/
def proceed (pod : Pod μ) : Option (Pod μ) :=
  match pod.reconcile with
  | .opened sweep profile rest =>
      if pod.pool.intends profile.profileId then some { pod with reconcile := .visiting sweep rest }
      else some { pod with
        pool := pod.pool.drop profile.profileId
        reconcile := .visiting sweep rest }
  | _ => none

variable [LinearOrder μ] (hrwScore : μ → String → ℕ) (selfId : μ)

def memberRead (pod : Pod μ) (answer : Option (List μ)) : Option (Pod μ) :=
  match pod.reconcile, answer with
  | .reading _, none => some { pod with reconcile := .idle }
  | .reading since, some members =>
      if selfId ∈ members then
        some { pod with reconcile := .visiting ⟨since, members, pod.active⟩ pod.active }
      else some { pod with reconcile := .idle }
  | _, _ => none

/-- One round of the loop over the active profiles. -/
def elect (pod : Pod μ) (sweep : Sweep μ) (profile : OwnedProfile) (rest : List OwnedProfile) :
    Pod μ :=
  if rendezvousOwner hrwScore profile.accountId sweep.members = some selfId then
    let intent : StreamIntent := ⟨profile.operatorId, profile.accountId⟩
    let streamedByUs := set profile.profileId intent pod.streamedByUs
    if pod.pool.isOpen profile.profileId then
      { pod with streamedByUs, reconcile := .visiting sweep rest }
    else
      { pod with
        streamedByUs
        pool := pod.pool.intend profile.profileId intent
        reconcile := .opening sweep profile rest }
  else pod.cede profile.profileId (.visiting sweep rest)

/-- One round of whichever loop the reconcile is in. -/
def visit (pod : Pod μ) : Option (Pod μ) :=
  match pod.reconcile with
  | .visiting sweep (profile :: rest) => some (pod.elect hrwScore selfId sweep profile rest)
  | .visiting sweep [] => some { pod with reconcile := .departing sweep pod.streamedByUs }
  | .departing sweep ((profileId, _) :: rest) =>
      if profileId ∈ activeIds sweep.active then
        some { pod with reconcile := .departing sweep rest }
      else some (pod.cede profileId (.departing sweep rest))
  | .departing sweep [] => some { pod with reconcile := .idle, completed := some sweep.since }
  | _ => none

def step (changes : ℕ) (pod : Pod μ) : PodStep μ → Option (Pod μ)
  | .reconcile => some (pod.beginReconcile changes)
  | .memberRead answer => pod.memberRead selfId answer
  | .visit => pod.visit hrwScore selfId
  | .credentials answer => pod.credentials answer
  | .proceed => pod.proceed
  | .serverClose id => some { pod with pool := pod.pool.closeSocket id }
  | .onClose id =>
      match pod.pool.sockets[id]? with
      | some socket =>
          if socket.closed then some { pod with pool := pod.pool.onClose id socket } else none
      | none => none

end Pod

structure Fleet (μ : Type) where
  members : List μ
  pods : μ → Pod μ
  changes : ℕ

inductive FleetStep (μ : Type) where
  | register (members : List μ)
  | enable (pod : μ) (profile : OwnedProfile)
  | disable (pod : μ) (profileId : String)
  | act (pod : μ) (step : PodStep μ)

namespace Fleet

variable {μ : Type} [LinearOrder μ] (hrwScore : μ → String → ℕ)

def start : Fleet μ := ⟨[], fun _ => .start, 0⟩

def step (fleet : Fleet μ) : FleetStep μ → Option (Fleet μ)
  | .register members => some { fleet with members, changes := fleet.changes + 1 }
  | .enable pod profile =>
      some { fleet with
        pods := Function.update fleet.pods pod ((fleet.pods pod).enable profile)
        changes := fleet.changes + 1 }
  | .disable pod profileId =>
      some { fleet with
        pods := Function.update fleet.pods pod ((fleet.pods pod).disable profileId)
        changes := fleet.changes + 1 }
  | .act pod label =>
      ((fleet.pods pod).step hrwScore pod fleet.changes label).map fun next =>
        { fleet with pods := Function.update fleet.pods pod next }

/-- A read that no change overlaps answers with the members there are, in any order. -/
def truthful (fleet : Fleet μ) : FleetStep μ → Bool
  | .act pod (.memberRead (some answer)) =>
      match (fleet.pods pod).reconcile with
      | .reading since =>
          since != fleet.changes ||
            answer.all (· ∈ fleet.members) && fleet.members.all (· ∈ answer)
      | _ => true
  | _ => true

def Truthful (fleet : Fleet μ) (label : FleetStep μ) : Prop := fleet.truthful label = true

end Fleet

/-! ### What holds at every pod -/

def Reconcile.since {μ : Type} : Reconcile μ → Option ℕ
  | .idle => none
  | .reading since => some since
  | .visiting sweep _ | .opening sweep _ _ | .opened sweep _ _ | .departing sweep _ =>
      some sweep.since

def Reconcile.sweep {μ : Type} : Reconcile μ → Option (Sweep μ)
  | .idle | .reading _ => none
  | .visiting sweep _ | .opening sweep _ _ | .opened sweep _ _ | .departing sweep _ => some sweep

namespace Pod

variable {μ : Type}

/-- A connected profile is intended, an intended one is recorded, and a profile whose
credentials are awaited is intended. -/
structure Coherent (pod : Pod μ) : Prop where
  connected : ∀ profileId, pod.pool.isOpen profileId → pod.pool.intends profileId
  recorded : ∀ profileId, pod.pool.intends profileId → profileId ∈ keys pod.streamedByUs
  asked : ∀ sweep profile rest, pod.reconcile = .opening sweep profile rest →
    pod.pool.intends profile.profileId

variable {pod pod' : Pod μ} {profileId other : String} {next : Reconcile μ}

theorem start_coherent : (start : Pod μ).Coherent where
  connected := nofun
  recorded := nofun
  asked := nofun

theorem enable_distinct {profile : OwnedProfile} (hdistinct : (activeIds pod.active).Nodup) :
    (activeIds (pod.enable profile).active).Nodup := by
  unfold enable
  split
  · exact hdistinct
  · next hnew =>
      rw [activeIds, List.map_append, List.map_singleton, ← List.concat_eq_append]
      exact hdistinct.concat hnew

theorem cede_intends :
    (pod.cede profileId next).pool.intends other ↔ other ≠ profileId ∧ pod.pool.intends other :=
  UserStreamPool.close_intends

theorem Coherent.cede (h : pod.Coherent)
    (hnext : ∀ sweep profile rest, next ≠ .opening sweep profile rest) :
    (pod.cede profileId next).Coherent where
  connected := by
    intro other hopen
    obtain ⟨hother, hopen⟩ := UserStreamPool.close_isOpen.mp hopen
    exact cede_intends.mpr ⟨hother, h.connected other hopen⟩
  recorded := by
    intro other hintends
    obtain ⟨hother, hintends⟩ := cede_intends.mp hintends
    exact mem_keys_delete.mpr ⟨hother, h.recorded other hintends⟩
  asked := fun sweep profile rest heq => absurd heq (hnext sweep profile rest)

/-- Moving on to where no credentials are awaited. -/
theorem Coherent.move (h : pod.Coherent)
    (hnext : ∀ sweep profile rest, next ≠ .opening sweep profile rest) :
    { pod with reconcile := next }.Coherent where
  connected := h.connected
  recorded := h.recorded
  asked := fun sweep profile rest heq => absurd heq (hnext sweep profile rest)

theorem credentials_coherent {answer : CredentialsAnswer} (h : pod.Coherent)
    (hstep : pod.credentials answer = some pod') : pod'.Coherent := by
  unfold credentials at hstep
  split at hstep
  · next sweep profile rest hwaits =>
      obtain rfl := Option.some.inj hstep
      refine ⟨fun other hopen => ?_, h.recorded, nofun⟩
      rcases UserStreamPool.connect_isOpen.mp hopen with rfl | hopen
      · exact h.asked sweep profile rest hwaits
      · exact h.connected other hopen
  · obtain rfl := Option.some.inj hstep
    exact h.move nofun
  · obtain rfl := Option.some.inj hstep
    exact h.move nofun
  · cases hstep

theorem proceed_coherent (h : pod.Coherent) (hstep : pod.proceed = some pod') :
    pod'.Coherent := by
  unfold proceed at hstep
  split at hstep
  · split at hstep
    · obtain rfl := Option.some.inj hstep
      exact h.move nofun
    · obtain rfl := Option.some.inj hstep
      refine ⟨fun other hopen => ?_, fun other hintends => ?_, nofun⟩
      · have hintends := h.connected other (UserStreamPool.drop_isOpen.mp hopen).2
        simpa [UserStreamPool.intends] using hintends
      · exact h.recorded other (by simpa [UserStreamPool.intends] using hintends)
  · cases hstep

variable [LinearOrder μ] {hrwScore : μ → String → ℕ} {selfId : μ}

theorem memberRead_coherent {answer : Option (List μ)} (h : pod.Coherent)
    (hstep : pod.memberRead selfId answer = some pod') : pod'.Coherent := by
  unfold memberRead at hstep
  split at hstep
  · obtain rfl := Option.some.inj hstep
    exact h.move nofun
  · split at hstep
    · obtain rfl := Option.some.inj hstep
      exact h.move nofun
    · obtain rfl := Option.some.inj hstep
      exact h.move nofun
  · cases hstep

theorem elect_coherent {sweep : Sweep μ} {profile : OwnedProfile} {rest : List OwnedProfile}
    (h : pod.Coherent) : (pod.elect hrwScore selfId sweep profile rest).Coherent := by
  unfold elect
  split
  · dsimp only
    split
    · refine ⟨h.connected, fun other hintends => ?_, nofun⟩
      exact mem_keys_set.mpr (.inr (h.recorded other hintends))
    · refine ⟨fun other hopen => ?_, fun other hintends => ?_, ?_⟩
      · exact UserStreamPool.intend_intends.mpr (.inr (h.connected other hopen))
      · exact mem_keys_set.mpr
          ((UserStreamPool.intend_intends.mp hintends).imp_right (h.recorded other))
      · rintro sweep profile rest heq
        obtain ⟨-, rfl, -⟩ := Reconcile.opening.inj heq
        exact UserStreamPool.intend_intends.mpr (.inl rfl)
  · exact h.cede nofun

theorem elect_intends {sweep : Sweep μ} {profile : OwnedProfile} {rest : List OwnedProfile}
    (h : pod.Coherent) :
    (pod.elect hrwScore selfId sweep profile rest).pool.intends other ↔
      if other = profile.profileId then
        rendezvousOwner hrwScore profile.accountId sweep.members = some selfId
      else pod.pool.intends other := by
  unfold elect
  split
  · next howns =>
      dsimp only
      split
      · next hopen =>
          split
          · next heq =>
              rw [heq]
              exact iff_of_true (h.connected _ hopen) howns
          · exact Iff.rfl
      · rw [UserStreamPool.intend_intends]
        split
        · next heq => simp [heq, howns]
        · next heq => simp [heq]
  · next howns =>
      rw [cede_intends]
      split
      · next heq => simp [heq, howns]
      · next heq => simp [heq]

theorem visit_coherent (h : pod.Coherent) (hstep : pod.visit hrwScore selfId = some pod') :
    pod'.Coherent := by
  unfold visit at hstep
  split at hstep
  · obtain rfl := Option.some.inj hstep
    exact elect_coherent h
  · obtain rfl := Option.some.inj hstep
    exact h.move nofun
  · split at hstep
    · obtain rfl := Option.some.inj hstep
      exact h.move nofun
    · obtain rfl := Option.some.inj hstep
      exact h.cede nofun
  · obtain rfl := Option.some.inj hstep
    exact ⟨h.connected, h.recorded, nofun⟩
  · cases hstep

theorem step_coherent {changes : ℕ} {label : PodStep μ} (h : pod.Coherent)
    (hstep : pod.step hrwScore selfId changes label = some pod') : pod'.Coherent := by
  cases label with
  | reconcile =>
      obtain rfl := Option.some.inj hstep
      unfold beginReconcile
      split
      · exact h.move nofun
      · exact h
  | memberRead answer => exact memberRead_coherent h hstep
  | visit => exact visit_coherent h hstep
  | credentials answer => exact credentials_coherent h hstep
  | proceed => exact proceed_coherent h hstep
  | serverClose id =>
      obtain rfl := Option.some.inj hstep
      exact ⟨h.connected, h.recorded, h.asked⟩
  | onClose id =>
      simp only [step] at hstep
      split at hstep
      · next socket hsocket =>
          split at hstep
          · obtain rfl := Option.some.inj hstep
            have hsame : ∀ other, (pod.pool.onClose id socket).intends other ↔
                pod.pool.intends other := by simp [UserStreamPool.intends]
            refine ⟨fun other hopen => ?_, fun other hintends => ?_, ?_⟩
            · exact (hsame other).mpr (h.connected other (UserStreamPool.onClose_isOpen hopen))
            · exact h.recorded other ((hsame other).mp hintends)
            · exact fun sweep profile rest heq =>
                (hsame _).mpr (h.asked sweep profile rest heq)
          · cases hstep
      · cases hstep

end Pod

end TradingBot.Worker
