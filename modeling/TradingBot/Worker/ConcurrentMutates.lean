import Mathlib.Logic.Function.Basic
import TradingBot.Lib.LabelledRun
import TradingBot.TrailingTrade.FillResolution
import TradingBot.Worker.SymbolState

/-!
# Mutates from several processes

Calls of `mutateSymbolState` on one symbol, from any number of processes, with
every access to the database and to the cache an atomic step of its own. The
version a call names comes from the row it read and the body it works on may
come from the cache, so an update is lost when the two belong to different
writes. In a run where no call looks at the cache between another call's write
and the refresh that follows it, and where no write falls into such a gap or
between a call's look at the cache and its look at the row, every write that
succeeds is made from the body it replaces.
-/

namespace TradingBot.Worker

open VersionedCell

/-! ### Calls -/

/-- Where a call is. Both reads are sent at once and may come back in either order. -/
inductive CallPhase (Body : Type) where
  | reading (attempt : ℕ) (row : Option (DurableRow Body))
      (cached : Option (Option (CachedBody Body)))
  | clearing (attempt : ℕ) (row : DurableRow Body) (cached : Option (CachedBody Body))
  | writing (attempt : ℕ) (reconciled : ReconciledState Body) (state : Body)
  | publishing (state : Body)
  | returned
  | failed
deriving DecidableEq

/-- One symbol, and the calls on it; `applied` are those whose write succeeded, in order. -/
structure MutateSystem (ι Body : Type) where
  row : DurableRow Body
  cache : Option (CachedBody Body)
  call : ι → CallPhase Body
  applied : List ι

/-- An access a call makes. -/
inductive Access (ι : Type) where
  | readRow (i : ι)
  | readCache (i : ι)
  | clearCache (i : ι)
  | write (i : ι)
  | setCache (i : ι)

section System

variable {ι Body : Type} (strategy : StateStrategy Body) (mutate : ι → Body → Option Body)

/-- Both reads are back: migrate, mutate, and go on to the write if there is one. -/
def settle (i : ι) (attempt : ℕ) (row : DurableRow Body) (cached : Option (CachedBody Body)) :
    CallPhase Body :=
  match reconcileAndMigrate strategy row cached with
  | none => .failed
  | some reconciled =>
      match mutatedBody (mutate i) reconciled with
      | none => .returned
      | some state => .writing attempt reconciled state

/-- A read has come back. -/
def arrive (i : ι) (attempt : ℕ) (row : Option (DurableRow Body))
    (cached : Option (Option (CachedBody Body))) : CallPhase Body :=
  match row, cached with
  | some row, some cached =>
      if clearsCache row cached then .clearing attempt row cached
      else settle strategy mutate i attempt row cached
  | row, cached => .reading attempt row cached

variable [DecidableEq ι]

namespace MutateSystem

def setCall (s : MutateSystem ι Body) (i : ι) (phase : CallPhase Body) : MutateSystem ι Body :=
  { s with call := Function.update s.call i phase }

/-- One access, where the call is at it. -/
def step (s : MutateSystem ι Body) : Access ι → Option (MutateSystem ι Body)
  | .readRow i =>
      match s.call i with
      | .reading attempt none cached =>
          some (s.setCall i (arrive strategy mutate i attempt (some s.row) cached))
      | _ => none
  | .readCache i =>
      match s.call i with
      | .reading attempt row none =>
          some (s.setCall i (arrive strategy mutate i attempt row (some s.cache)))
      | _ => none
  | .clearCache i =>
      match s.call i with
      | .clearing attempt row cached =>
          some ({ s with cache := none }.setCall i (settle strategy mutate i attempt row cached))
      | _ => none
  | .write i =>
      match s.call i with
      | .writing attempt reconciled state =>
          match casUpsert s.row state reconciled.workingVersion reconciled.expectedVersion with
          | some next =>
              some ({ s with row := some next, applied := s.applied ++ [i] }.setCall i
                (.publishing state))
          | none =>
              -- a writer got there first: read again, or give up
              some (s.setCall i
                (if attempt < maxCasRetries then .reading (attempt + 1) none none else .failed))
      | _ => none
  | .setCache i =>
      match s.call i with
      | .publishing state =>
          some ({ s with cache := some (.body state) }.setCall i .returned)
      | _ => none

end MutateSystem

/-- Accesses of a kind, one after the other. -/
def MutatesReach (ok : MutateSystem ι Body → Access ι → Prop) :
    MutateSystem ι Body → MutateSystem ι Body → Prop :=
  LabelledRun.Reach (MutateSystem.step strategy mutate) ok

/-- Nothing has been read yet. -/
def MutateSystem.start (row : DurableRow Body) (cache : Option (CachedBody Body)) :
    MutateSystem ι Body :=
  ⟨row, cache, fun _ => .reading 0 none none, []⟩

end System

section Orderly

variable {ι Body : Type}

/-- The call has written the row and not yet refreshed the cache. -/
def CallPhase.isPublishing : CallPhase Body → Bool
  | .publishing _ => true
  | _ => false

/-- The call has looked at the cache and not yet at the row. -/
def CallPhase.sawCacheOnly : CallPhase Body → Bool
  | .reading _ none (some _) => true
  | _ => false

/-- The write of a call would succeed. -/
def MutateSystem.Lands (s : MutateSystem ι Body) (i : ι) : Prop :=
  ∃ attempt reconciled state,
    s.call i = .writing attempt reconciled state ∧ reconciled.expectedVersion = token s.row

/-- The access falls into no other call's gap between a write and its refresh; a write that
succeeds falls into no gap between a look at the cache and one at the row. -/
def Orderly (s : MutateSystem ι Body) : Access ι → Prop
  | .readCache _ => ∀ j, (s.call j).isPublishing = false
  | .write i => s.Lands i →
      (∀ j, (s.call j).isPublishing = false) ∧ ∀ j, j ≠ i → (s.call j).sawCacheOnly = false
  | _ => True

end Orderly

/-! ### The invariant -/

section Fits

variable {ι Body : Type} (strategy : StateStrategy Body) (mutate : ι → Body → Option Body)

structure ReadBefore (current row : DurableRow Body) : Prop where
  older : age (token row) ≤ age (token current)
  same : token row = token current → row = current

/-- What is cached over a row is that row's body. -/
def CacheFits (row : DurableRow Body) (cached : Option (CachedBody Body)) : Prop :=
  row.isSome = true → ∀ state, cached = some (.body state) → state = durableBody strategy row

/-- What a call knows fits the row, unless the row has moved on. -/
def CallFits (current : DurableRow Body) (i : ι) : CallPhase Body → Prop
  | .reading _ row cached =>
      (∀ read, row = some read → ReadBefore current read) ∧
        (row = none → ∀ seen, cached = some seen → CacheFits strategy current seen)
  | .clearing _ row cached =>
      ReadBefore current row ∧
        (row = current → settledBody strategy row cached = durableBody strategy current)
  | .writing _ reconciled state =>
      age reconciled.expectedVersion ≤ age (token current) ∧
        (reconciled.expectedVersion = token current →
          reconciled.state = durableBody strategy current) ∧
        state = applyMutator (mutate i) reconciled.state
  | .publishing state => state = durableBody strategy current
  | _ => True

/-- The row is the fold of the writes so far, and every call fits it. -/
structure MutateSystem.Ordered (v : String) (initial : Body) (s : MutateSystem ι Body) : Prop where
  folded : durableBody strategy s.row =
    s.applied.foldl (fun state i => applyMutator (mutate i) state) initial
  schema : strategy.schemaVersion (durableBody strategy s.row) = some v
  calls : ∀ i, CallFits strategy mutate s.row i (s.call i)
  cache : (∀ i, (s.call i).isPublishing = false) → CacheFits strategy s.row s.cache
  onePublisher : ∀ i j, (s.call i).isPublishing = true → (s.call j).isPublishing = true → i = j

end Fits

section Proofs

variable {ι Body : Type} {strategy : StateStrategy Body} {mutate : ι → Body → Option Body}
  {v : String} {initial : Body}

theorem ReadBefore.refl (row : DurableRow Body) : ReadBefore row row :=
  ⟨Nat.le_refl _, fun _ => rfl⟩

theorem settledBody_of_fits {row : DurableRow Body} {cached : Option (CachedBody Body)}
    (h : CacheFits strategy row cached) :
    settledBody strategy row cached = durableBody strategy row := by
  unfold settledBody
  split
  · next state =>
      split
      · next htrusted =>
          simp only [Bool.and_eq_true] at htrusted
          exact h htrusted.1.1 state rfl
      · rfl
  · rfl

theorem settle_fits (one : OneSchema strategy v) {current row : DurableRow Body}
    {cached : Option (CachedBody Body)} (i : ι) (attempt : ℕ) (hread : ReadBefore current row)
    (hschema : strategy.schemaVersion (durableBody strategy current) = some v)
    (hsettled : row = current → settledBody strategy row cached = durableBody strategy current) :
    CallFits strategy mutate current i (settle strategy mutate i attempt row cached) := by
  unfold settle
  split
  · trivial
  · next reconciled hreconciled =>
      split
      · trivial
      · next state hstate =>
          obtain ⟨htoken, -⟩ := expectedVersion_of_reconciled hreconciled
          refine ⟨htoken ▸ hread.older, fun hcurrent => ?_, mutatedBody_eq hstate⟩
          obtain rfl := hread.same (htoken ▸ hcurrent)
          exact (one.reconcile_settles hschema hreconciled).trans (hsettled rfl)

theorem settle_not_publishing (i : ι) (attempt : ℕ) (row : DurableRow Body)
    (cached : Option (CachedBody Body)) :
    (settle strategy mutate i attempt row cached).isPublishing = false := by
  unfold settle
  split
  · rfl
  · split
    · rfl
    · rfl

theorem arrive_fits (one : OneSchema strategy v) {current row : DurableRow Body}
    {cached : Option (CachedBody Body)} (i : ι) (attempt : ℕ) (hread : ReadBefore current row)
    (hschema : strategy.schemaVersion (durableBody strategy current) = some v)
    (hfits : CacheFits strategy current cached) :
    CallFits strategy mutate current i
      (arrive strategy mutate i attempt (some row) (some cached)) := by
  have hsettled : row = current →
      settledBody strategy row cached = durableBody strategy current := by
    rintro rfl
    exact settledBody_of_fits hfits
  unfold arrive
  dsimp only
  split
  · exact ⟨hread, hsettled⟩
  · exact settle_fits one i attempt hread hschema hsettled

theorem arrive_not_publishing (i : ι) (attempt : ℕ) (row : Option (DurableRow Body))
    (cached : Option (Option (CachedBody Body))) :
    (arrive strategy mutate i attempt row cached).isPublishing = false := by
  unfold arrive
  split
  · split
    · rfl
    · exact settle_not_publishing i attempt _ _
  · rfl

variable [DecidableEq ι] {s t : MutateSystem ι Body}

namespace MutateSystem

theorem setCall_self (s : MutateSystem ι Body) (i : ι) (phase : CallPhase Body) :
    (s.setCall i phase).call i = phase := Function.update_self ..

theorem setCall_of_ne (s : MutateSystem ι Body) {i j : ι} (h : j ≠ i) (phase : CallPhase Body) :
    (s.setCall i phase).call j = s.call j := Function.update_of_ne h ..

namespace Ordered

theorem setCall (h : s.Ordered strategy mutate v initial) (i : ι) {phase : CallPhase Body}
    (hbefore : (s.call i).isPublishing = false) (hafter : phase.isPublishing = false)
    (hfits : CallFits strategy mutate s.row i phase) :
    (s.setCall i phase).Ordered strategy mutate v initial := by
  have hpublishing (j : ι) :
      ((s.setCall i phase).call j).isPublishing = (s.call j).isPublishing := by
    by_cases hj : j = i
    · subst hj
      rw [setCall_self, hafter, hbefore]
    · rw [setCall_of_ne s hj]
  refine ⟨h.folded, h.schema, fun j => ?_, fun hquiet => ?_, fun j k hj hk => ?_⟩
  · by_cases hj : j = i
    · subst hj
      rw [setCall_self]
      exact hfits
    · rw [setCall_of_ne s hj]
      exact h.calls j
  · exact h.cache fun j => (hpublishing j).symm.trans (hquiet j)
  · exact h.onePublisher j k ((hpublishing j).symm.trans hj) ((hpublishing k).symm.trans hk)

/-- The row that was read moves to the past when a write succeeds. -/
theorem readBefore_of_cas {current row : DurableRow Body} {next : VersionedCell (StateRow Body)}
    (hread : ReadBefore current row)
    (hage : age (token (some next)) = age (token current) + 1) : ReadBefore (some next) row where
  older := by
    have := hread.older
    omega
  same := by
    intro htoken
    have := hread.older
    rw [htoken] at this
    omega

/-- A write that succeeds replaces the body it was made from. -/
theorem write (h : s.Ordered strategy mutate v initial) (i : ι) {attempt : ℕ}
    {reconciled : ReconciledState Body} {state : Body} {next : VersionedCell (StateRow Body)}
    (hmutate : ∀ i before after, strategy.schemaVersion before = some v →
      mutate i before = some after → strategy.schemaVersion after = some v)
    (hcall : s.call i = .writing attempt reconciled state)
    (hcas : casUpsert s.row state reconciled.workingVersion reconciled.expectedVersion = some next)
    (horderly : Orderly s (.write i)) :
    ({ s with row := some next, applied := s.applied ++ [i] }.setCall i
      (.publishing state)).Ordered strategy mutate v initial := by
  obtain ⟨htoken, hnext⟩ := cas_eq_some.mp hcas
  have hage : age (token (some next)) = age (token s.row) + 1 := age_of_cas hcas
  obtain ⟨hquiet, hgaps⟩ := horderly ⟨attempt, reconciled, state, hcall, htoken.symm⟩
  obtain ⟨-, hfresh, hstate⟩ : CallFits strategy mutate s.row i
      (.writing attempt reconciled state) :=
    hcall ▸ h.calls i
  have hbody : durableBody strategy (some next) = state := by
    rw [hnext]
    rfl
  have happlied : state = applyMutator (mutate i) (durableBody strategy s.row) :=
    hfresh htoken.symm ▸ hstate
  refine ⟨?_, ?_, fun j => ?_, fun hnone => ?_, fun j k hj hk => ?_⟩
  · -- the fold gains the mutator of this call
    refine hbody.trans ?_
    rw [happlied, h.folded]
    change _ = List.foldl _ initial (s.applied ++ [i])
    rw [List.foldl_append]
    rfl
  · refine (congrArg strategy.schemaVersion (hbody.trans happlied)).trans ?_
    unfold applyMutator
    cases hmutated : mutate i (durableBody strategy s.row) with
    | none => exact h.schema
    | some after => exact hmutate i _ after h.schema hmutated
  · by_cases hj : j = i
    · subst hj
      rw [setCall_self]
      exact hbody.symm
    · rw [setCall_of_ne _ hj]
      have hfits := h.calls j
      have hgap := hgaps j hj
      have hpublishing := hquiet j
      change CallFits strategy mutate (some next) j (s.call j)
      cases hphase : s.call j with
      | reading attempt row cached =>
          rw [hphase] at hfits hgap
          refine ⟨fun read hread => readBefore_of_cas (hfits.1 read hread) hage, ?_⟩
          rintro rfl seen rfl
          cases hgap
      | clearing attempt row cached =>
          rw [hphase] at hfits
          refine ⟨readBefore_of_cas hfits.1 hage, ?_⟩
          rintro rfl
          have := hfits.1.older
          omega
      | writing attempt reconciled state =>
          rw [hphase] at hfits
          obtain ⟨holder, -, hmade⟩ := hfits
          refine ⟨by omega, fun hcurrent => ?_, hmade⟩
          rw [hcurrent] at holder
          omega
      | publishing state =>
          rw [hphase] at hpublishing
          cases hpublishing
      | returned => trivial
      | failed => trivial
  · have hself := hnone i
    rw [setCall_self] at hself
    cases hself
  · have hother (j : ι) (hj : ((MutateSystem.setCall
        { s with row := some next, applied := s.applied ++ [i] } i (.publishing state)).call
          j).isPublishing = true) : j = i := by
      by_contra hne
      rw [setCall_of_ne _ hne] at hj
      exact Bool.false_ne_true ((hquiet j).symm.trans hj)
    exact (hother j hj).trans (hother k hk).symm

/-- The refresh after a write puts the body of the row into the cache. -/
theorem setCache (h : s.Ordered strategy mutate v initial) (i : ι) {state : Body}
    (hcall : s.call i = .publishing state) :
    ({ s with cache := some (.body state) }.setCall i .returned).Ordered strategy mutate v
      initial := by
  have hstate : CallFits strategy mutate s.row i (.publishing state) := hcall ▸ h.calls i
  have hself : (s.call i).isPublishing = true := by
    rw [hcall]
    rfl
  have hquiet (j : ι) : ((MutateSystem.setCall { s with cache := some (.body state) } i
      .returned).call j).isPublishing = false := by
    by_cases hj : j = i
    · subst hj
      rw [setCall_self]
      rfl
    · rw [setCall_of_ne _ hj]
      by_contra hpublishing
      exact hj (h.onePublisher j i (by simpa using hpublishing) hself)
  refine ⟨h.folded, h.schema, fun j => ?_, fun _ _ seen hseen => ?_, fun j k hj _ => ?_⟩
  · by_cases hj : j = i
    · subst hj
      rw [setCall_self]
      trivial
    · rw [setCall_of_ne _ hj]
      exact h.calls j
  · cases hseen
    exact hstate
  · exact absurd ((hquiet j).symm.trans hj) Bool.false_ne_true

theorem step (h : s.Ordered strategy mutate v initial) (one : OneSchema strategy v)
    (hmutate : ∀ i before after, strategy.schemaVersion before = some v →
      mutate i before = some after → strategy.schemaVersion after = some v)
    {access : Access ι} (horderly : Orderly s access)
    (hstep : s.step strategy mutate access = some t) : t.Ordered strategy mutate v initial := by
  cases access with
  | readRow i =>
      have hfits := h.calls i
      simp only [MutateSystem.step] at hstep
      split at hstep
      · next attempt cached hcall =>
          rw [hcall] at hfits
          cases hstep
          refine h.setCall i (by rw [hcall]; rfl) (arrive_not_publishing i attempt _ _) ?_
          cases cached with
          | none => exact ⟨fun read hread => Option.some.inj hread ▸ .refl _, nofun⟩
          | some cached =>
              exact arrive_fits one i attempt (.refl _) h.schema (hfits.2 rfl cached rfl)
      · cases hstep
  | readCache i =>
      have hfits := h.calls i
      simp only [MutateSystem.step] at hstep
      split at hstep
      · next attempt row hcall =>
          rw [hcall] at hfits
          cases hstep
          have hcache := h.cache horderly
          refine h.setCall i (by rw [hcall]; rfl) (arrive_not_publishing i attempt _ _) ?_
          cases row with
          | none => exact ⟨nofun, fun _ seen hseen => Option.some.inj hseen ▸ hcache⟩
          | some row => exact arrive_fits one i attempt (hfits.1 row rfl) h.schema hcache
      · cases hstep
  | clearCache i =>
      have hfits := h.calls i
      simp only [MutateSystem.step] at hstep
      split at hstep
      · next attempt row cached hcall =>
          rw [hcall] at hfits
          cases hstep
          have hcleared : MutateSystem.Ordered strategy mutate v initial { s with cache := none } :=
            ⟨h.folded, h.schema, h.calls, fun _ _ _ => nofun, h.onePublisher⟩
          exact hcleared.setCall i (by simp only [hcall]; rfl) (settle_not_publishing i attempt _ _)
            (settle_fits one i attempt hfits.1 h.schema hfits.2)
      · cases hstep
  | write i =>
      simp only [MutateSystem.step] at hstep
      split at hstep
      · next attempt reconciled state hcall =>
          split at hstep
          · next next hcas =>
              cases hstep
              exact h.write i hmutate hcall hcas horderly
          · cases hstep
            refine h.setCall i (by rw [hcall]; rfl) ?_ ?_
            · split
              · rfl
              · rfl
            · split
              · exact ⟨nofun, fun _ => nofun⟩
              · trivial
      · cases hstep
  | setCache i =>
      simp only [MutateSystem.step] at hstep
      split at hstep
      · next state hcall =>
          cases hstep
          exact h.setCache i hcall
      · cases hstep

end Ordered

end MutateSystem

/-- In an orderly run the row is the fold of the mutators whose writes succeeded, and every write
that would succeed was made from the body of the row. -/
theorem mutates_lose_no_update (strategy : StateStrategy Body) (mutate : ι → Body → Option Body)
    (v : String) (row : DurableRow Body) (cache : Option (CachedBody Body))
    (s : MutateSystem ι Body) (one : OneSchema strategy v)
    (hrow : strategy.schemaVersion (durableBody strategy row) = some v)
    (hmutate : ∀ i before after, strategy.schemaVersion before = some v →
      mutate i before = some after → strategy.schemaVersion after = some v)
    (hcache : CacheFits strategy row cache)
    (hrun : MutatesReach strategy mutate Orderly (.start row cache) s) :
    durableBody strategy s.row =
        s.applied.foldl (fun state i => applyMutator (mutate i) state) (durableBody strategy row) ∧
      ∀ i attempt reconciled state, s.call i = .writing attempt reconciled state →
        reconciled.expectedVersion = token s.row →
          reconciled.state = durableBody strategy s.row := by
  have hordered : s.Ordered strategy mutate v (durableBody strategy row) := by
    refine LabelledRun.Reach.invariant hrun ?_ fun _ _ _ hordered horderly hstep =>
      hordered.step one hmutate horderly hstep
    exact ⟨rfl, hrow, fun _ => ⟨nofun, fun _ => nofun⟩, fun _ => hcache, fun _ _ => nofun⟩
  refine ⟨hordered.folded, fun i attempt reconciled state hcall => ?_⟩
  have hfits : CallFits strategy mutate s.row i (.writing attempt reconciled state) :=
    hcall ▸ hordered.calls i
  exact hfits.2.1

end Proofs

/-! ### Two fills on two processes -/

section Sample

open TrailingTrade Decimal

/-- Two processes adopt a buy each: a coin at 100 and a coin at 110. -/
def adoptsBuy (i : Bool) (state : TTState) : Option TTState :=
  (adoptFill state ⟨.buy, if i then num 100 else num 110, num 1⟩).toOption

/-- A flat profile whose row and cache agree. -/
def sampleSlice : MutateSystem Bool TTState :=
  .start (some ⟨⟨initialTTState, ttStateSchemaVersion⟩, 3⟩) (some (.body initialTTState))

def callOf (i : Bool) : List (Access Bool) := [.readRow i, .readCache i, .write i, .setCache i]

def checksOrder (s : MutateSystem Bool TTState) : Access Bool → Bool
  | .readCache _ => [true, false].all fun j => !(s.call j).isPublishing
  | .write i => [true, false].all fun j =>
      !(s.call j).isPublishing && (j == i || !(s.call j).sawCacheOnly)
  | _ => true

theorem orderly_of_checksOrder (s : MutateSystem Bool TTState) (access : Access Bool)
    (h : checksOrder s access = true) : Orderly s access := by
  cases access with
  | readCache i =>
      intro j
      have hj := List.all_eq_true.mp h j (by cases j <;> decide)
      simpa using hj
  | write i =>
      refine fun _ => ⟨fun j => ?_, fun j hne => ?_⟩
      all_goals
        have hj := List.all_eq_true.mp h j (by cases j <;> decide)
        simp only [Bool.and_eq_true, Bool.or_eq_true, Bool.not_eq_true', beq_iff_eq] at hj
      · exact hj.1
      · exact hj.2.resolve_left hne
  | readRow i => trivial
  | clearCache i => trivial
  | setCache i => trivial

theorem adoptsBuy_schema {i : Bool} {before after : TTState} (h : adoptsBuy i before = some after) :
    after.schemaVersion = before.schemaVersion := by
  unfold adoptsBuy adoptFill at h
  cases hresolved : resolveFill (readPosition before)
    ⟨.buy, if i then num 100 else num 110, num 1⟩ none none with
  | error message =>
      rw [hresolved] at h
      cases h
  | ok adopted =>
      rw [hresolved] at h
      cases h
      cases happly : applyFill before adopted with
      | none => rfl
      | some next => exact applyFill_schema happly

/-- One after the other, both buys are in the row. -/
theorem sequential_mutates_keep_both_buys :
    ∃ s, MutatesReach (ttStateStrategy none) adoptsBuy Orderly sampleSlice s ∧
      s.applied = [true, false] ∧
      durableBody (ttStateStrategy none) s.row =
        [true, false].foldl (fun state i => applyMutator (adoptsBuy i) state) initialTTState := by
  obtain ⟨s, hrun, happlied⟩ := Option.map_eq_some_iff.mp
    (by decide +kernel : (LabelledRun.run (MutateSystem.step (ttStateStrategy none) adoptsBuy)
      checksOrder sampleSlice (callOf true ++ callOf false)).map (·.applied) =
        some [true, false])
  have hreach := LabelledRun.reach_of_run orderly_of_checksOrder hrun
  have hfold := (mutates_lose_no_update (ttStateStrategy none) adoptsBuy ttStateSchemaVersion
    sampleSlice.row sampleSlice.cache s (ttStateStrategy_oneSchema none) rfl
    (fun _ _ _ hbefore hadopts => (congrArg some (adoptsBuy_schema hadopts)).trans hbefore)
    (fun _ state hstate => by cases hstate; rfl) hreach).1
  exact ⟨s, hreach, happlied, happlied ▸ hfold⟩

/-- A look at the cache between the other process's write and its refresh loses a buy: both writes
succeed, and the row holds the second coin alone. -/
theorem interleaved_mutates_lose_a_buy :
    ∃ s, MutatesReach (ttStateStrategy none) adoptsBuy (fun _ _ => True) sampleSlice s ∧
      s.call true = .returned ∧ s.call false = .returned ∧ s.applied = [true, false] ∧
      durableBody (ttStateStrategy none) s.row ≠
        s.applied.foldl (fun state i => applyMutator (adoptsBuy i) state) initialTTState := by
  obtain ⟨s, hrun, hshown⟩ := Option.map_eq_some_iff.mp
    (by decide +kernel : (LabelledRun.run (MutateSystem.step (ttStateStrategy none) adoptsBuy)
      (fun _ _ => true) sampleSlice
      [.readRow true, .readCache true, .write true, .readRow false, .readCache false,
        .write false, .setCache true, .setCache false]).map (fun s =>
          (s.call true, s.call false, s.applied,
            (durableBody (ttStateStrategy none) s.row).heldQuantity)) =
        some (.returned, .returned, [true, false], some (.printed (num 1))))
  simp only [Prod.mk.injEq] at hshown
  obtain ⟨hfirst, hsecond, happlied, hheld⟩ := hshown
  refine ⟨s, LabelledRun.reach_of_run (fun _ _ _ => trivial) hrun, hfirst, hsecond, happlied, ?_⟩
  intro hfold
  rw [hfold, happlied] at hheld
  revert hheld
  decide +kernel

end Sample

end TradingBot.Worker
