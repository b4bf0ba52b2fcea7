import TradingBot.Worker.SubscriptionOwnership

/-!
# The fleet settles on one stream per account

A reconcile that began after the last change has read the members there are and
walks the profiles there are. Every profile it has passed is intended exactly
where its account is owned, and what is intended without being active is still
ahead of it. Later reconciles find the same members and the same profiles. The
runs have no step of the connection watchdog.
-/

namespace TradingBot.Worker

open InsertionMap LabelledRun TradingBot.Core

variable {μ : Type} [LinearOrder μ]

section Election

variable (hrwScore : μ → String → ℕ) (selfId : μ) (members : List μ)

/-- The profile is intended here exactly if its account is owned here. -/
def Judged (pool : UserStreamPool) (profile : OwnedProfile) : Prop :=
  pool.intends profile.profileId ↔
    rendezvousOwner hrwScore profile.accountId members = some selfId

/-- Every active profile is judged, and no other is intended. -/
structure PoolFollows (active : List OwnedProfile) (pool : UserStreamPool) : Prop where
  judged : ∀ profile ∈ active, Judged hrwScore selfId members pool profile
  active_only : ∀ profileId, pool.intends profileId → profileId ∈ activeIds active

/-- How far a reconcile over the profiles has come. -/
def Reconcile.Progress (active : List OwnedProfile) (pool : UserStreamPool) :
    Reconcile μ → Prop
  | .idle | .reading _ => True
  | .visiting _ rest | .opening _ _ rest | .opened _ _ rest =>
      ∃ visited, active = visited ++ rest ∧
        ∀ profile ∈ visited, Judged hrwScore selfId members pool profile
  | .departing _ rest =>
      (∀ profile ∈ active, Judged hrwScore selfId members pool profile) ∧
        ∀ profileId, pool.intends profileId → profileId ∈ activeIds active ∨ profileId ∈ keys rest

/-- The sweep goes by the members and the profiles there are. -/
def Sweep.Current (active : List OwnedProfile) (sweep : Sweep μ) : Prop :=
  (∀ m, m ∈ sweep.members ↔ m ∈ members) ∧ sweep.active = active

/-- What holds of a pod while `changes` changes have been made. -/
structure Pod.Kept (changes : ℕ) (pod : Pod μ) : Prop where
  coherent : pod.Coherent
  distinct : (activeIds pod.active).Nodup
  dated : ∀ since ∈ pod.reconcile.since, since ≤ changes ∧ ∀ done ∈ pod.completed, done ≤ since
  completed_le : ∀ done ∈ pod.completed, done ≤ changes
  sweeping : ∀ sweep ∈ pod.reconcile.sweep, sweep.since = changes →
    sweep.Current members pod.active ∧
      pod.reconcile.Progress hrwScore selfId members pod.active pod.pool
  settled : pod.completed = some changes → PoolFollows hrwScore selfId members pod.active pod.pool

end Election

variable {hrwScore : μ → String → ℕ} {selfId : μ} {members members' : List μ} {changes : ℕ}
  {pod pod' : Pod μ} {pool pool' : UserStreamPool} {profile other : OwnedProfile}
  {active : List OwnedProfile} {next : Reconcile μ}

theorem Judged.congr (h : Judged hrwScore selfId members pool profile)
    (hsame : pool'.intends profile.profileId ↔ pool.intends profile.profileId) :
    Judged hrwScore selfId members pool' profile :=
  hsame.trans h

theorem PoolFollows.congr (h : PoolFollows hrwScore selfId members active pool)
    (hsame : ∀ profileId, pool'.intends profileId ↔ pool.intends profileId) :
    PoolFollows hrwScore selfId members active pool' where
  judged := fun profile hprofile => (h.judged profile hprofile).congr (hsame _)
  active_only := fun profileId hintends => h.active_only profileId ((hsame profileId).mp hintends)

theorem Reconcile.Progress.congr (h : next.Progress hrwScore selfId members active pool)
    (hsame : ∀ profileId, pool'.intends profileId ↔ pool.intends profileId) :
    next.Progress hrwScore selfId members active pool' := by
  have hjudged : ∀ profile, Judged hrwScore selfId members pool profile →
      Judged hrwScore selfId members pool' profile :=
    fun profile hprofile => hprofile.congr (hsame _)
  cases next with
  | idle | reading _ => trivial
  | visiting _ _ | opening _ _ _ | opened _ _ _ =>
      obtain ⟨visited, hactive, hvisited⟩ := h
      exact ⟨visited, hactive, fun profile hprofile => hjudged profile (hvisited profile hprofile)⟩
  | departing _ _ =>
      refine ⟨fun profile hprofile => hjudged profile (h.1 profile hprofile), ?_⟩
      exact fun profileId hintends => h.2 profileId ((hsame profileId).mp hintends)

theorem eq_of_profileId (hdistinct : (activeIds active).Nodup) (hprofile : profile ∈ active)
    (hother : other ∈ active) (heq : other.profileId = profile.profileId) : other = profile :=
  List.inj_on_of_nodup_map hdistinct hother hprofile heq

/-! ### One step of a pod -/

theorem Pod.Kept.outdated (h : pod.Kept hrwScore selfId members changes)
    (hdistinct : (activeIds active).Nodup) :
    { pod with active }.Kept hrwScore selfId members' (changes + 1) where
  coherent := ⟨h.coherent.connected, h.coherent.recorded, h.coherent.asked⟩
  distinct := hdistinct
  dated := fun since hsince => (h.dated since hsince).imp_left Nat.le_succ_of_le
  completed_le := fun done hdone => Nat.le_succ_of_le (h.completed_le done hdone)
  sweeping := by
    intro sweep hsweep hnow
    have hsince : sweep.since ∈ pod.reconcile.since := by
      revert hsweep
      cases pod.reconcile <;> simp [Reconcile.sweep, Reconcile.since] <;> rintro rfl <;> rfl
    exact absurd (h.dated _ hsince).1 (by omega)
  settled := fun hdone => absurd (h.completed_le _ hdone) (by omega)

/-- Moving on within a reconcile, the intents as they are. -/
theorem Pod.Kept.move {before : Reconcile μ} (h : pod.Kept hrwScore selfId members changes)
    (hat : pod.reconcile = before)
    (hcoherent : { pod with pool := pool', reconcile := next }.Coherent)
    (hsame : ∀ profileId, pool'.intends profileId ↔ pod.pool.intends profileId)
    (hsince : next.since = before.since) (hsweep : next.sweep = before.sweep)
    (hprogress : before.Progress hrwScore selfId members pod.active pod.pool →
      next.Progress hrwScore selfId members pod.active pod.pool) :
    { pod with pool := pool', reconcile := next }.Kept hrwScore selfId members changes where
  coherent := hcoherent
  distinct := h.distinct
  dated := fun since hfound => h.dated since (hat ▸ hsince ▸ hfound)
  completed_le := h.completed_le
  sweeping := by
    intro sweep hfound hnow
    obtain ⟨hcurrent, hdone⟩ := h.sweeping sweep (hat ▸ hsweep ▸ hfound) hnow
    exact ⟨hcurrent, (hprogress (hat ▸ hdone)).congr hsame⟩
  settled := fun hdone => (h.settled hdone).congr hsame

/-- A reconcile that ends early, or begins. -/
theorem Pod.Kept.restart (h : pod.Kept hrwScore selfId members changes)
    (hcoherent : { pod with reconcile := next }.Coherent)
    (hsince : ∀ since ∈ next.since, since = changes) (hsweep : next.sweep = none) :
    { pod with reconcile := next }.Kept hrwScore selfId members changes where
  coherent := hcoherent
  distinct := h.distinct
  dated := by
    intro since hfound
    obtain rfl := hsince since hfound
    exact ⟨le_rfl, h.completed_le⟩
  completed_le := h.completed_le
  sweeping := by
    intro sweep hfound
    rw [hsweep] at hfound
    cases hfound
  settled := h.settled

section Elect

variable {sweep : Sweep μ} {rest : List OwnedProfile}

theorem elect_frame (hpod : pod.elect hrwScore selfId sweep profile rest = pod') :
    pod'.active = pod.active ∧ pod'.completed = pod.completed ∧
      (pod'.reconcile = .visiting sweep rest ∨ pod'.reconcile = .opening sweep profile rest) := by
  subst hpod
  unfold Pod.elect
  split
  · dsimp only
    split
    · exact ⟨rfl, rfl, .inl rfl⟩
    · exact ⟨rfl, rfl, .inr rfl⟩
  · exact ⟨rfl, rfl, .inl rfl⟩

theorem elect_judged_self (hcoherent : pod.Coherent)
    (hmembers : ∀ m, m ∈ sweep.members ↔ m ∈ members) :
    Judged hrwScore selfId members (pod.elect hrwScore selfId sweep profile rest).pool profile := by
  rw [Judged, Pod.elect_intends hcoherent, if_pos rfl, rendezvousOwner_congr hmembers]

theorem elect_judged_other (hcoherent : pod.Coherent)
    (hother : other.profileId ≠ profile.profileId)
    (hjudged : Judged hrwScore selfId members pod.pool other) :
    Judged hrwScore selfId members (pod.elect hrwScore selfId sweep profile rest).pool other := by
  rw [Judged, Pod.elect_intends hcoherent, if_neg hother]
  exact hjudged

theorem Pod.Kept.elect (h : pod.Kept hrwScore selfId members changes)
    (hat : pod.reconcile = .visiting sweep (profile :: rest)) :
    (pod.elect hrwScore selfId sweep profile rest).Kept hrwScore selfId members changes := by
  obtain ⟨hactive, hcompleted, hreconcile⟩ := elect_frame (Eq.refl (pod.elect hrwScore selfId
    sweep profile rest))
  have hdated := h.dated sweep.since (by simp [hat, Reconcile.since])
  have hprogress := h.sweeping sweep (by simp [hat, Reconcile.sweep])
  have hsince : (pod.elect hrwScore selfId sweep profile rest).reconcile.since =
      some sweep.since := by
    rcases hreconcile with heq | heq <;> rw [heq] <;> rfl
  have hsweep : (pod.elect hrwScore selfId sweep profile rest).reconcile.sweep = some sweep := by
    rcases hreconcile with heq | heq <;> rw [heq] <;> rfl
  refine ⟨Pod.elect_coherent h.coherent, by rw [hactive]; exact h.distinct, ?_, ?_, ?_, ?_⟩
  · intro since hfound
    obtain rfl : sweep.since = since := by simpa [hsince] using hfound
    exact ⟨hdated.1, by rw [hcompleted]; exact hdated.2⟩
  · rw [hcompleted]
    exact h.completed_le
  · intro found hfound hnow
    obtain rfl : sweep = found := by simpa [hsweep] using hfound
    obtain ⟨hcurrent, hpassed⟩ := hprogress hnow
    rw [hat] at hpassed
    obtain ⟨visited, hsplit, hvisited⟩ := hpassed
    rw [hactive]
    refine ⟨hcurrent, ?_⟩
    -- the profile joins those the loop has passed
    have hjudged : ∃ visited, pod.active = visited ++ rest ∧ ∀ passed ∈ visited,
        Judged hrwScore selfId members
          (pod.elect hrwScore selfId sweep profile rest).pool passed := by
      refine ⟨visited ++ [profile], by simp [hsplit], fun passed hpassed => ?_⟩
      rcases List.mem_append.mp hpassed with hbefore | hnew
      · have hdistinct := h.distinct
        rw [hsplit, activeIds, List.map_append, List.map_cons, List.nodup_append] at hdistinct
        refine elect_judged_other h.coherent ?_ (hvisited passed hbefore)
        exact hdistinct.2.2 _ (List.mem_map_of_mem hbefore) _ List.mem_cons_self
      · obtain rfl := List.mem_singleton.mp hnew
        exact elect_judged_self h.coherent hcurrent.1
    rcases hreconcile with heq | heq <;> rw [heq] <;> exact hjudged
  · intro hdone
    rw [hcompleted] at hdone
    -- the last reconcile to end began after the last change, and so did this one
    have hnow : sweep.since = changes := le_antisymm hdated.1 (hdated.2 changes hdone)
    obtain ⟨hcurrent, hpassed⟩ := hprogress hnow
    rw [hat] at hpassed
    obtain ⟨visited, hsplit, -⟩ := hpassed
    have hprofile : profile ∈ pod.active := by simp [hsplit]
    have hsettled := h.settled hdone
    rw [hactive]
    refine ⟨fun other hother => ?_, fun profileId hintends => ?_⟩
    · by_cases hid : other.profileId = profile.profileId
      · rw [eq_of_profileId h.distinct hprofile hother hid]
        exact elect_judged_self h.coherent hcurrent.1
      · exact elect_judged_other h.coherent hid (hsettled.judged other hother)
    · rw [Pod.elect_intends h.coherent] at hintends
      split at hintends
      · next hid => exact hid ▸ List.mem_map_of_mem hprofile
      · exact hsettled.active_only profileId hintends

end Elect

theorem Pod.Kept.cede {sweep : Sweep μ} {profileId : String} {intent : StreamIntent}
    {rest : List (String × StreamIntent)} (h : pod.Kept hrwScore selfId members changes)
    (hat : pod.reconcile = .departing sweep ((profileId, intent) :: rest))
    (hgone : profileId ∉ activeIds sweep.active) :
    (pod.cede profileId (.departing sweep rest)).Kept hrwScore selfId members changes := by
  have hdated := h.dated sweep.since (by simp [hat, Reconcile.since])
  have hprogress := h.sweeping sweep (by simp [hat, Reconcile.sweep])
  have hjudged : ∀ other ∈ pod.active, sweep.active = pod.active →
      Judged hrwScore selfId members pod.pool other →
      Judged hrwScore selfId members (pod.cede profileId (.departing sweep rest)).pool other := by
    intro other hother hactive hbefore
    refine hbefore.congr (Pod.cede_intends.trans (and_iff_right ?_))
    rintro rfl
    exact hgone (hactive ▸ List.mem_map_of_mem hother)
  refine ⟨h.coherent.cede nofun, h.distinct, ?_, h.completed_le, ?_, ?_⟩
  · intro since hfound
    obtain rfl : sweep.since = since := by simpa [Pod.cede, Reconcile.since] using hfound
    exact hdated
  · intro found hfound hnow
    obtain rfl : sweep = found := by simpa [Pod.cede, Reconcile.sweep] using hfound
    obtain ⟨hcurrent, hpassed⟩ := hprogress hnow
    rw [hat] at hpassed
    refine ⟨hcurrent, fun other hother => ?_, fun other hintends => ?_⟩
    · exact hjudged other hother hcurrent.2 (hpassed.1 other hother)
    · obtain ⟨hother, hintends⟩ := Pod.cede_intends.mp hintends
      refine (hpassed.2 other hintends).imp_right fun hrest => ?_
      exact (List.mem_cons.mp hrest).resolve_left hother
  · intro hdone
    have hnow : sweep.since = changes := le_antisymm hdated.1 (hdated.2 changes hdone)
    have hactive := (hprogress hnow).1.2
    have hsettled := h.settled hdone
    refine ⟨fun other hother => ?_, fun other hintends => ?_⟩
    · exact hjudged other hother hactive (hsettled.judged other hother)
    · exact hsettled.active_only other (Pod.cede_intends.mp hintends).2

theorem visit_kept (h : pod.Kept hrwScore selfId members changes)
    (hstep : pod.visit hrwScore selfId = some pod') :
    pod'.Kept hrwScore selfId members changes := by
  have hcoherent := Pod.visit_coherent h.coherent hstep
  unfold Pod.visit at hstep
  split at hstep
  · next sweep profile rest hat =>
      obtain rfl := Option.some.inj hstep
      exact h.elect hat
  · next sweep hat =>
      obtain rfl := Option.some.inj hstep
      refine h.move hat hcoherent (fun _ => Iff.rfl) rfl rfl ?_
      rintro ⟨visited, hsplit, hvisited⟩
      refine ⟨fun other hother => hvisited other (by simpa [hsplit] using hother), ?_⟩
      exact fun profileId hintends => .inr (h.coherent.recorded profileId hintends)
  · next sweep profileId intent rest hat =>
      split at hstep
      · next hactive =>
          obtain rfl := Option.some.inj hstep
          have hprogress := h.sweeping sweep (by simp [hat, Reconcile.sweep])
          refine ⟨hcoherent, h.distinct, ?_, h.completed_le, ?_, h.settled⟩
          · exact fun since hsince => h.dated since (by rw [hat]; exact hsince)
          · intro found hfound hnow
            obtain rfl : sweep = found := by simpa [Reconcile.sweep] using hfound
            obtain ⟨hcurrent, hpassed⟩ := hprogress hnow
            rw [hat] at hpassed
            refine ⟨hcurrent, hpassed.1, fun other hintends => ?_⟩
            rcases hpassed.2 other hintends with hother | hother
            · exact .inl hother
            · rcases List.mem_cons.mp hother with rfl | hother
              · exact .inl (hcurrent.2 ▸ hactive)
              · exact .inr hother
      · next hgone =>
          obtain rfl := Option.some.inj hstep
          exact h.cede hat hgone
  · next sweep hat =>
      obtain rfl := Option.some.inj hstep
      have hdated := h.dated sweep.since (by simp [hat, Reconcile.since])
      refine ⟨hcoherent, h.distinct, nofun, ?_, nofun, fun hdone => ?_⟩
      · intro done hdone
        obtain rfl := Option.some.inj hdone
        exact hdated.1
      · obtain ⟨-, hpassed⟩ := h.sweeping sweep (by simp [hat, Reconcile.sweep])
          (Option.some.inj hdone)
        rw [hat] at hpassed
        refine ⟨hpassed.1, fun profileId hintends => ?_⟩
        exact (hpassed.2 profileId hintends).resolve_right (by simp [keys])
  · cases hstep

theorem memberRead_kept {answer : Option (List μ)}
    (h : pod.Kept hrwScore selfId members changes)
    (htruthful : ∀ found, answer = some found → pod.reconcile = .reading changes →
      ∀ m, m ∈ found ↔ m ∈ members)
    (hstep : pod.memberRead selfId answer = some pod') :
    pod'.Kept hrwScore selfId members changes := by
  have hcoherent := Pod.memberRead_coherent h.coherent hstep
  unfold Pod.memberRead at hstep
  split at hstep
  · obtain rfl := Option.some.inj hstep
    exact h.restart hcoherent nofun rfl
  · next since found hat =>
      split at hstep
      · obtain rfl := Option.some.inj hstep
        refine ⟨hcoherent, h.distinct, ?_, h.completed_le, ?_, h.settled⟩
        · exact fun date hdate => h.dated date (by rw [hat]; exact hdate)
        · intro sweep hsweep hnow
          obtain rfl := Option.some.inj hsweep
          refine ⟨⟨htruthful found rfl ?_, rfl⟩, [], rfl, nofun⟩
          rw [hat]
          exact congrArg _ hnow
      · obtain rfl := Option.some.inj hstep
        exact h.restart hcoherent nofun rfl
  · cases hstep

theorem credentials_kept {answer : CredentialsAnswer}
    (h : pod.Kept hrwScore selfId members changes) (hstep : pod.credentials answer = some pod') :
    pod'.Kept hrwScore selfId members changes := by
  have hcoherent := Pod.credentials_coherent h.coherent hstep
  unfold Pod.credentials at hstep
  split at hstep
  · next hat =>
      obtain rfl := Option.some.inj hstep
      exact h.move hat hcoherent (fun _ => Iff.rfl) rfl rfl id
  · next hat =>
      obtain rfl := Option.some.inj hstep
      exact h.move hat hcoherent (fun _ => Iff.rfl) rfl rfl id
  · next hat =>
      obtain rfl := Option.some.inj hstep
      exact h.move hat hcoherent (fun _ => Iff.rfl) rfl rfl id
  · cases hstep

theorem proceed_kept (h : pod.Kept hrwScore selfId members changes)
    (hstep : pod.proceed = some pod') : pod'.Kept hrwScore selfId members changes := by
  have hcoherent := Pod.proceed_coherent h.coherent hstep
  unfold Pod.proceed at hstep
  split at hstep
  · next hat =>
      split at hstep
      · obtain rfl := Option.some.inj hstep
        exact h.move hat hcoherent (fun _ => Iff.rfl) rfl rfl id
      · obtain rfl := Option.some.inj hstep
        exact h.move hat hcoherent (by simp [UserStreamPool.intends]) rfl rfl id
  · cases hstep

theorem podStep_kept {label : PodStep μ} (h : pod.Kept hrwScore selfId members changes)
    (htruthful : ∀ found, label = .memberRead (some found) → pod.reconcile = .reading changes →
      ∀ m, m ∈ found ↔ m ∈ members)
    (hstep : pod.step hrwScore selfId changes label = some pod') :
    pod'.Kept hrwScore selfId members changes := by
  have hcoherent := Pod.step_coherent h.coherent hstep
  cases label with
  | reconcile =>
      obtain rfl := Option.some.inj hstep
      unfold Pod.beginReconcile at hcoherent ⊢
      split
      · next hat =>
          rw [hat] at hcoherent
          exact h.restart hcoherent (by simp [Reconcile.since]) rfl
      · exact h
  | memberRead answer =>
      exact memberRead_kept h (fun found heq => htruthful found (by rw [heq])) hstep
  | visit => exact visit_kept h hstep
  | credentials answer => exact credentials_kept h hstep
  | proceed => exact proceed_kept h hstep
  | serverClose id =>
      obtain rfl := Option.some.inj hstep
      exact h.move rfl hcoherent (fun _ => Iff.rfl) rfl rfl (fun hprogress => hprogress)
  | onClose id =>
      simp only [Pod.step] at hstep
      split at hstep
      · split at hstep
        · obtain rfl := Option.some.inj hstep
          exact h.move rfl hcoherent (by simp [UserStreamPool.intends]) rfl rfl
            (fun hprogress => hprogress)
        · cases hstep
      · cases hstep

/-! ### Runs of the fleet -/

namespace Fleet

variable {fleet fleet' : Fleet μ}

/-- Every pod is as it should be for the members and the changes there are. -/
def Kept (hrwScore : μ → String → ℕ) (fleet : Fleet μ) : Prop :=
  ∀ pod, (fleet.pods pod).Kept hrwScore pod fleet.members fleet.changes

theorem start_kept : (start : Fleet μ).Kept hrwScore := by
  intro pod
  refine ⟨Pod.start_coherent, List.nodup_nil, nofun, nofun, nofun, nofun⟩

theorem Kept.change (h : fleet.Kept hrwScore) (members : List μ) (changed : μ)
    {active : List OwnedProfile} (hdistinct : (activeIds active).Nodup) :
    (⟨members, Function.update fleet.pods changed { fleet.pods changed with active },
      fleet.changes + 1⟩ : Fleet μ).Kept hrwScore := by
  intro pod
  by_cases heq : pod = changed
  · subst heq
    simpa using (h pod).outdated hdistinct
  · simpa [Function.update_of_ne heq] using (h pod).outdated (h pod).distinct

theorem step_kept {label : FleetStep μ} (h : fleet.Kept hrwScore)
    (htruthful : fleet.Truthful label) (hstep : fleet.step hrwScore label = some fleet') :
    fleet'.Kept hrwScore := by
  cases label with
  | register members =>
      obtain rfl := Option.some.inj hstep
      exact fun pod => (h pod).outdated (h pod).distinct
  | enable pod profile =>
      obtain rfl := Option.some.inj hstep
      have henable : (fleet.pods pod).enable profile =
          { fleet.pods pod with active := ((fleet.pods pod).enable profile).active } := by
        unfold Pod.enable
        split <;> rfl
      rw [henable]
      exact h.change fleet.members pod (Pod.enable_distinct (h pod).distinct)
  | disable pod profileId =>
      obtain rfl := Option.some.inj hstep
      exact h.change fleet.members pod ((h pod).distinct.sublist (List.filter_sublist.map _))
  | act pod label =>
      obtain ⟨next, hnext, rfl⟩ := Option.map_eq_some_iff.mp hstep
      intro other
      by_cases heq : other = pod
      · subst heq
        simp only [Function.update_self]
        refine podStep_kept (h other) (fun found hlabel hat m => ?_) hnext
        subst hlabel
        simp only [Truthful, truthful, hat, bne_self_eq_false, Bool.false_or, Bool.and_eq_true,
          List.all_eq_true, decide_eq_true_eq] at htruthful
        exact ⟨htruthful.1 m, htruthful.2 m⟩
      · simpa [Function.update_of_ne heq] using h other

/-- The pod streams the profile as far as its pool is concerned. -/
def intends (fleet : Fleet μ) (pod : μ) (profileId : String) : Prop :=
  (fleet.pods pod).pool.intends profileId

/-- The owner of a key depends on the set of members, and a member that joins or leaves moves
its own keys only. Once every member has completed a reconcile that began after the last change,
and all know of the same active profiles, an active profile is intended by its owner alone and
no other profile is intended. -/
theorem owner_alone_intends {fleet : Fleet μ} {active : List OwnedProfile}
    (hrun : Reach (step hrwScore) Truthful start fleet)
    (hcompleted : ∀ m ∈ fleet.members, (fleet.pods m).completed = some fleet.changes)
    (hactive : ∀ m ∈ fleet.members, ∀ profile,
      profile ∈ (fleet.pods m).active ↔ profile ∈ active) :
    (∀ key (members members' : List μ), (∀ m, m ∈ members ↔ m ∈ members') →
      rendezvousOwner hrwScore key members = rendezvousOwner hrwScore key members') ∧
    (∀ key joins (members members' : List μ), (∀ m, m ∈ members' ↔ m = joins ∨ m ∈ members) →
      rendezvousOwner hrwScore key members' ≠ rendezvousOwner hrwScore key members →
      rendezvousOwner hrwScore key members' = some joins) ∧
    (∀ key leaves (members members' : List μ), (∀ m, m ∈ members' ↔ m ≠ leaves ∧ m ∈ members) →
      rendezvousOwner hrwScore key members' ≠ rendezvousOwner hrwScore key members →
      rendezvousOwner hrwScore key members = some leaves) ∧
    (∀ profile ∈ active, fleet.members ≠ [] → ∃ owner ∈ fleet.members,
      rendezvousOwner hrwScore profile.accountId fleet.members = some owner ∧
      ∀ m ∈ fleet.members, fleet.intends m profile.profileId ↔ m = owner) ∧
    ∀ profileId, profileId ∉ activeIds active → ∀ m ∈ fleet.members,
      ¬ fleet.intends m profileId := by
  have hkept : fleet.Kept hrwScore :=
    hrun.invariant start_kept fun s label t h htruthful hstep => step_kept h htruthful hstep
  refine ⟨fun key members members' hsame => rendezvousOwner_congr hsame, ?_, ?_, ?_, ?_⟩
  · intro key joins members members' hjoins hmoved
    by_contra hother
    exact hmoved (rendezvousOwner_join hjoins hother)
  · intro key leaves members members' hleaves hmoved
    by_contra hother
    exact hmoved (rendezvousOwner_leave hleaves hother)
  · intro profile hprofile hmembers
    obtain ⟨m, hm⟩ := List.exists_mem_of_ne_nil _ hmembers
    obtain ⟨owner, hmember, howner⟩ := exists_rendezvousOwner hrwScore profile.accountId hm
    refine ⟨owner, hmember, howner, fun m hm => ?_⟩
    have hjudged := ((hkept m).settled (hcompleted m hm)).judged profile
      ((hactive m hm profile).mpr hprofile)
    refine hjudged.trans ?_
    rw [howner, Option.some.injEq]
    exact eq_comm
  · intro profileId hinactive m hm hintends
    have hlisted := ((hkept m).settled (hcompleted m hm)).active_only profileId hintends
    obtain ⟨profile, hprofile, rfl⟩ := List.mem_map.mp hlisted
    exact hinactive (List.mem_map_of_mem ((hactive m hm profile).mp hprofile))

/-- Pod 1 streams a profile until pod 2, which outranks it, has joined; the profile that was
disabled meanwhile is closed by pod 1. -/
theorem stream_handed_over : ∃ fleet : Fleet ℕ,
    Reach (step fun m _ => m) Truthful start fleet ∧ fleet.members = [1, 2] ∧
    fleet.intends 2 "p" ∧ ¬ fleet.intends 1 "p" ∧ ¬ fleet.intends 1 "q" := by
  have hrun : (run (step fun m _ => m) truthful (start : Fleet ℕ)
      [.register [1], .enable 1 ⟨"o", "a", "p"⟩, .enable 1 ⟨"o", "b", "q"⟩,
        .act 1 .reconcile, .act 1 (.memberRead (some [1])),
        .act 1 .visit, .act 1 (.credentials .granted), .act 1 .proceed,
        .act 1 .visit, .act 1 (.credentials .failed),
        .act 1 .visit, .act 1 .visit, .act 1 .visit, .act 1 .visit,
        .register [1, 2], .disable 1 "q", .enable 2 ⟨"o", "a", "p"⟩,
        .act 1 .reconcile, .act 1 (.memberRead none),
        .act 2 .reconcile, .act 2 (.memberRead (some [2, 1])),
        .act 2 .visit, .act 2 (.credentials .failed), .act 2 .visit, .act 2 .visit, .act 2 .visit,
        .act 1 .reconcile, .act 1 (.memberRead (some [1, 2])),
        .act 1 .visit, .act 1 .visit, .act 1 .visit, .act 1 .visit]).map (fun fleet =>
      (fleet.members, fleet.changes, [1, 2].map fun m => ((fleet.pods m).completed,
        (fleet.pods m).active))) =
      some ([1, 2], 6, [(some 6, [⟨"o", "a", "p"⟩]), (some 6, [⟨"o", "a", "p"⟩])]) := by
    decide +kernel
  obtain ⟨fleet, hfleet, hend⟩ := Option.map_eq_some_iff.mp hrun
  simp only [Prod.mk.injEq, List.map_cons, List.map_nil, List.cons.injEq, and_true] at hend
  obtain ⟨hmembers, hchanges, ⟨hfirst, hactive⟩, hsecond, hactive'⟩ := hend
  have hreach : Reach (step fun m _ => m) Truthful start fleet :=
    reach_of_run (fun _ _ h => h) hfleet
  have hends : ∀ m ∈ fleet.members, (fleet.pods m).completed = some fleet.changes ∧
      ∀ profile, profile ∈ (fleet.pods m).active ↔ profile ∈ [OwnedProfile.mk "o" "a" "p"] := by
    simp [hmembers, hchanges, hfirst, hsecond, hactive, hactive']
  obtain ⟨-, -, -, howned, hinactive⟩ := owner_alone_intends hreach
    (fun m hm => (hends m hm).1) fun m hm => (hends m hm).2
  obtain ⟨owner, -, howner, honly⟩ := howned ⟨"o", "a", "p"⟩ (by simp) (by simp [hmembers])
  have htwo : owner = 2 := by
    rw [hmembers] at howner
    exact Option.some.inj (howner.symm.trans (by decide))
  refine ⟨fleet, hreach, hmembers, (honly 2 (by simp [hmembers])).mpr htwo.symm, ?_, ?_⟩
  · rw [honly 1 (by simp [hmembers]), htwo]
    decide
  · exact hinactive "q" (by decide) 1 (by simp [hmembers])

end Fleet

end TradingBot.Worker
