import TradingBot.Lib.LabelledRun
import TradingBot.Worker.SymbolState

/-!
# Commits that time out

The ticks and the mutates of one symbol in one process, one at a time. A commit
that times out leaves its body in the cache and its write on its way to the
database, where it may still land at any later point or never. The next
operation reads what the last one left, and no commit misses, as long as such a
write does not land between a tick's read and its commit and no operation reads
a missing row after another has left a body.
-/

namespace TradingBot.Worker

open VersionedCell

inductive TickCommitOutcome where
  | applied
  | casMiss
  | degraded
deriving DecidableEq

/-- How a commit's write ends for the tick that waits for it. -/
inductive PersistOutcome where
  | settled
  | timedOut
  | errored

/-- A write its tick no longer waits for. -/
structure AbandonedWrite (Body : Type) where
  state : Body
  strategyVersion : String
  expectedVersion : Option ℕ

/-- Where the one operation in flight is. A mutate or a merge that has read holds the body it is
about to write. -/
inductive SlicePhase (Body : Type) where
  | idle
  | ticking (read : ReconciledState Body)
  | mutating (mutate : Body → Option Body) (attempt : ℕ)
      (pending : Option (ReconciledState Body × Body))
  | merging (tickNextState : Body) (attempt : ℕ) (pending : Option (ReconciledState Body × Body))

/-- One symbol of one process. `last` is the body the last operation produced, `reads` pairs the
bodies that operations read with the body produced before, and `outcomes` are those of the tick
commits. -/
structure Slice (Body : Type) where
  row : DurableRow Body
  cache : Option (CachedBody Body)
  abandoned : List (AbandonedWrite Body)
  phase : SlicePhase Body
  last : Option Body
  reads : List (Body × Body)
  outcomes : List TickCommitOutcome

inductive SliceAction (Body : Type) where
  | beginTick
  | commit (nextState : Body) (persist : PersistOutcome)
  | beginMutate (mutate : Body → Option Body)
  | read
  | write
  | land (index : ℕ)

namespace Slice

variable {Body : Type} (strategy : StateStrategy Body)

def start (row : DurableRow Body) (cache : Option (CachedBody Body)) : Slice Body :=
  ⟨row, cache, [], .idle, none, [], []⟩

/-- The read clears a cached text that no row backs. -/
def cleared (s : Slice Body) : Slice Body :=
  if clearsCache s.row s.cache then { s with cache := none } else s

/-- Note the body an operation read beside the one produced before it. -/
def noteRead (s : Slice Body) (state : Body) : Slice Body :=
  { s with reads := s.reads ++ (s.last.map fun last => (state, last)).toList }

def loadForTick (s : Slice Body) : Slice Body :=
  match reconcileAndMigrate strategy s.row s.cache with
  | none => s.cleared
  | some read => { s.cleared.noteRead read.state with phase := .ticking read }

def commitForTick (s : Slice Body) (read : ReconciledState Body) (nextState : Body) :
    PersistOutcome → Slice Body
  | .settled =>
      match casUpsert s.row nextState read.workingVersion read.expectedVersion with
      | some row =>
          { s with
            row := some row, cache := some (.body nextState), phase := .idle
            last := some nextState, outcomes := s.outcomes ++ [.applied] }
      | none =>
          { s with
            phase := if strategy.mergeConcurrent.isSome then .merging nextState 0 none else .idle
            last := some nextState, outcomes := s.outcomes ++ [.casMiss] }
  | .timedOut =>
      { s with
        cache := some (.body nextState), phase := .idle, last := some nextState
        abandoned := s.abandoned ++ [⟨nextState, read.workingVersion, read.expectedVersion⟩]
        outcomes := s.outcomes ++ [.degraded] }
  | .errored =>
      { s with
        cache := some (.body nextState), phase := .idle, last := some nextState
        outcomes := s.outcomes ++ [.degraded] }

/-- A mutate's read, with what it will write; without a change there is nothing to write. -/
def readForMutate (s : Slice Body) (mutate : Body → Option Body) (attempt : ℕ) : Slice Body :=
  match reconcileAndMigrate strategy s.row s.cache with
  | none => { s.cleared with phase := .idle }
  | some read =>
      match mutatedBody mutate read with
      | none => { s.cleared.noteRead read.state with phase := .idle, last := some read.state }
      | some state =>
          { s.cleared.noteRead read.state with
            phase := .mutating mutate attempt (some (read, state)) }

def writeForMutate (s : Slice Body) (mutate : Body → Option Body) (attempt : ℕ)
    (read : ReconciledState Body) (state : Body) : Slice Body :=
  match casUpsert s.row state read.workingVersion read.expectedVersion with
  | some row =>
      { s with
        row := some row, cache := some (.body state), phase := .idle, last := some state }
  | none =>
      { s with
        phase := if attempt < maxCasRetries then .mutating mutate (attempt + 1) none else .idle }

/-- The winner's body, with the latches of the tick that missed. -/
def readForMerge (s : Slice Body) (tickNextState : Body) (attempt : ℕ) : Slice Body :=
  match reconcileAndMigrate strategy s.row s.cache, strategy.mergeConcurrent with
  | some read, some mergeConcurrent =>
      { s.cleared with
        phase := .merging tickNextState attempt
          (some (read, mergeConcurrent read.state tickNextState)) }
  | _, _ => { s.cleared with phase := .idle }

def writeForMerge (s : Slice Body) (tickNextState : Body) (attempt : ℕ)
    (read : ReconciledState Body) (merged : Body) : Slice Body :=
  match casUpsert s.row merged read.workingVersion read.expectedVersion with
  | some row => { s with row := some row, cache := some (.body merged), phase := .idle }
  | none =>
      { s with
        phase :=
          if attempt < maxCasRetries then .merging tickNextState (attempt + 1) none else .idle }

/-- An abandoned write reaches the database, where its version may still be the right one. -/
def landed (s : Slice Body) (index : ℕ) (write : AbandonedWrite Body) : Slice Body :=
  { s with
    row := (casUpsert s.row write.state write.strategyVersion write.expectedVersion).or s.row
    abandoned := s.abandoned.eraseIdx index }

/-- One step, where the operation in flight is at it; a write lands at any time. -/
def step (s : Slice Body) : SliceAction Body → Option (Slice Body)
  | .beginTick =>
      match s.phase with
      | .idle => some (s.loadForTick strategy)
      | _ => none
  | .commit nextState persist =>
      match s.phase with
      | .ticking read => some (s.commitForTick strategy read nextState persist)
      | _ => none
  | .beginMutate mutate =>
      match s.phase with
      | .idle => some { s with phase := .mutating mutate 0 none }
      | _ => none
  | .read =>
      match s.phase with
      | .mutating mutate attempt none => some (s.readForMutate strategy mutate attempt)
      | .merging tickNextState attempt none => some (s.readForMerge strategy tickNextState attempt)
      | _ => none
  | .write =>
      match s.phase with
      | .mutating mutate attempt (some (read, state)) =>
          some (s.writeForMutate mutate attempt read state)
      | .merging tickNextState attempt (some (read, merged)) =>
          some (s.writeForMerge tickNextState attempt read merged)
      | _ => none
  | .land index => s.abandoned[index]?.map (s.landed index)

end Slice

/-! ### What is claimed, and when it holds -/

section Claims

variable {Body : Type}

/-- Every operation read what the last one produced, and no tick lost its state to another. -/
structure Slice.ReadsOwnWrites (s : Slice Body) : Prop where
  reads : ∀ seen ∈ s.reads, seen.1 = seen.2
  noMiss : .casMiss ∉ s.outcomes
  noMerge : ∀ tickNextState attempt pending, s.phase ≠ .merging tickNextState attempt pending

/-- The bodies an action brings are of one version. -/
def BringsVersion (strategy : StateStrategy Body) (v : String) : SliceAction Body → Prop
  | .commit nextState _ => strategy.schemaVersion nextState = some v
  | .beginMutate mutate => ∀ before after, strategy.schemaVersion before = some v →
      mutate before = some after → strategy.schemaVersion after = some v
  | _ => True

/-- There is a row to read, or nothing was produced before. -/
def Slice.Backed (s : Slice Body) : Prop := s.row.isSome = true ∨ s.last = none

/-- No write lands, and succeeds, between a tick's read and its commit, and no operation reads a
missing row after one has left a body. -/
def Unraced (s : Slice Body) : SliceAction Body → Prop
  | .beginTick => s.Backed
  | .read => s.Backed
  | .land index => ∀ read write, s.phase = .ticking read → s.abandoned[index]? = some write →
      casUpsert s.row write.state write.strategyVersion write.expectedVersion = none
  | _ => True

/-- The runs whose bodies are of one version, and whose actions are of a kind. -/
def SliceReach (strategy : StateStrategy Body) (v : String)
    (ok : Slice Body → SliceAction Body → Prop) : Slice Body → Slice Body → Prop :=
  LabelledRun.Reach (Slice.step strategy) fun s action =>
    BringsVersion strategy v action ∧ ok s action

end Claims

/-! ### The invariant -/

section Invariant

variable {Body : Type} {strategy : StateStrategy Body} {v : String}

/-- What the operation in flight relies on. -/
def PhaseFits (strategy : StateStrategy Body) (v : String) (row : DurableRow Body) :
    SlicePhase Body → Prop
  | .idle => True
  | .ticking read => read.expectedVersion = token row
  | .mutating mutate _ pending =>
      (∀ before after, strategy.schemaVersion before = some v → mutate before = some after →
        strategy.schemaVersion after = some v) ∧
      ∀ read state, pending = some (read, state) → strategy.schemaVersion state = some v
  | .merging .. => False

/-- A read settles on the body produced last, which is in the cache while writes are abandoned. -/
structure Slice.Faithful (strategy : StateStrategy Body) (v : String) (s : Slice Body) : Prop where
  schema : strategy.schemaVersion (durableBody strategy s.row) = some v
  lastSchema : ∀ last, s.last = some last → strategy.schemaVersion last = some v
  abandonedSchema : ∀ write ∈ s.abandoned, strategy.schemaVersion write.state = some v
  settled : ∀ last, s.last = some last → s.row.isSome = true →
    settledBody strategy s.row s.cache = last
  cached : s.abandoned ≠ [] → ∃ last, s.last = some last ∧ s.cache = some (.body last)
  phase : PhaseFits strategy v s.row s.phase
  reads : ∀ seen ∈ s.reads, seen.1 = seen.2
  noMiss : .casMiss ∉ s.outcomes

theorem settledBody_cached {row : DurableRow Body} {state : Body}
    (hrow : strategy.schemaVersion (durableBody strategy row) = some v)
    (hstate : strategy.schemaVersion state = some v) (hsome : row.isSome = true) :
    settledBody strategy row (some (.body state)) = state := by
  rw [settledBody, if_pos]
  rw [hsome, hstate, hrow]
  simp

namespace Slice.Faithful

variable {s t : Slice Body}

theorem start {row : DurableRow Body} (cache : Option (CachedBody Body))
    (hrow : strategy.schemaVersion (durableBody strategy row) = some v) :
    (Slice.start row cache).Faithful strategy v :=
  ⟨hrow, nofun, nofun, nofun, fun h => absurd rfl h, trivial, nofun, nofun⟩

@[simp] theorem cleared_row (s : Slice Body) : s.cleared.row = s.row := by
  unfold Slice.cleared
  split <;> rfl

@[simp] theorem cleared_last (s : Slice Body) : s.cleared.last = s.last := by
  unfold Slice.cleared
  split <;> rfl

theorem settledBody_cleared (strategy : StateStrategy Body) (hrow : s.row.isSome = true) :
    settledBody strategy s.row s.cleared.cache = settledBody strategy s.row s.cache := by
  unfold Slice.cleared
  split
  · next hclears =>
      cases hcache : s.cache with
      | none => rfl
      | some cached =>
          cases cached with
          | malformed => rfl
          | body state =>
              rw [hcache, clearsCache, Option.isNone_iff_eq_none] at hclears
              simp [hclears] at hrow
  · rfl

/-- Clearing the cache changes nothing a backed read would have seen. -/
theorem cleared (h : s.Faithful strategy v) (hbacked : s.Backed) :
    s.cleared.Faithful strategy v := by
  have hsettled (last : Body) (hlast : s.last = some last) (hrow : s.row.isSome = true) :
      settledBody strategy s.row s.cleared.cache = last :=
    (settledBody_cleared strategy hrow).trans (h.settled last hlast hrow)
  unfold Slice.cleared at hsettled ⊢
  split at hsettled
  · next hclears =>
      rw [if_pos hclears]
      refine { h with settled := hsettled, cached := fun habandoned => ?_ }
      obtain ⟨last, hlast, hcache⟩ := h.cached habandoned
      rw [hcache, clearsCache, Option.isNone_iff_eq_none] at hclears
      rcases hbacked with hrow | hnone
      · simp [hclears] at hrow
      · rw [hnone] at hlast
        cases hlast
  · next hclears =>
      rw [if_neg hclears]
      exact h

theorem noteRead (h : s.Faithful strategy v) (one : OneSchema strategy v) (hbacked : s.Backed)
    {read : ReconciledState Body}
    (hread : reconcileAndMigrate strategy s.row s.cache = some read) :
    (s.cleared.noteRead read.state).Faithful strategy v := by
  refine { h.cleared hbacked with reads := fun seen hseen => ?_ }
  rcases List.mem_append.mp hseen with hseen | hseen
  · exact (h.cleared hbacked).reads seen hseen
  · obtain ⟨last, hlast, rfl⟩ := Option.map_eq_some_iff.mp (Option.mem_toList.mp hseen)
    rw [cleared_last] at hlast
    have hrow : s.row.isSome = true :=
      hbacked.resolve_right fun hnone => by simp [hnone] at hlast
    exact (one.reconcile_settles h.schema hread).trans (h.settled last hlast hrow)

theorem loadForTick (h : s.Faithful strategy v) (one : OneSchema strategy v) (hbacked : s.Backed) :
    (s.loadForTick strategy).Faithful strategy v := by
  unfold Slice.loadForTick
  split
  · exact h.cleared hbacked
  · next read hread =>
      refine { h.noteRead one hbacked hread with phase := ?_ }
      change read.expectedVersion = token s.cleared.row
      rw [cleared_row]
      exact (expectedVersion_of_reconciled hread).1

theorem written (h : s.Faithful strategy v) {state : Body} {strategyVersion : String}
    {expectedVersion : Option ℕ} {row : VersionedCell (StateRow Body)}
    (hstate : strategy.schemaVersion state = some v)
    (hcas : casUpsert s.row state strategyVersion expectedVersion = some row)
    {outcomes : List TickCommitOutcome} (hmiss : .casMiss ∉ outcomes) :
    Slice.Faithful strategy v
      { s with
        row := some row, cache := some (.body state), phase := .idle, last := some state
        outcomes } := by
  obtain ⟨-, rfl⟩ := cas_eq_some.mp hcas
  refine ⟨hstate, ?_, h.abandonedSchema, ?_, fun _ => ⟨state, rfl, rfl⟩, trivial, h.reads, hmiss⟩
  · intro last hlast
    cases hlast
    exact hstate
  · intro last hlast hrow
    cases hlast
    exact settledBody_cached hstate hstate hrow

theorem degraded (h : s.Faithful strategy v) {state : Body}
    (hstate : strategy.schemaVersion state = some v) {abandoned : List (AbandonedWrite Body)}
    (habandoned : ∀ write ∈ abandoned, strategy.schemaVersion write.state = some v) :
    Slice.Faithful strategy v
      { s with
        cache := some (.body state), phase := .idle, last := some state, abandoned
        outcomes := s.outcomes ++ [.degraded] } := by
  refine ⟨h.schema, ?_, habandoned, ?_, fun _ => ⟨state, rfl, rfl⟩, trivial, h.reads, ?_⟩
  · intro last hlast
    cases hlast
    exact hstate
  · intro last hlast hrow
    cases hlast
    exact settledBody_cached h.schema hstate hrow
  · simpa using h.noMiss

theorem commitForTick (h : s.Faithful strategy v) {read : ReconciledState Body} {nextState : Body}
    (hphase : s.phase = .ticking read) (hstate : strategy.schemaVersion nextState = some v)
    (persist : PersistOutcome) :
    (s.commitForTick strategy read nextState persist).Faithful strategy v := by
  have hread : PhaseFits strategy v s.row (.ticking read) := hphase ▸ h.phase
  cases persist with
  | settled =>
      unfold Slice.commitForTick
      dsimp only
      split
      · next row hcas => exact h.written hstate hcas (by simpa using h.noMiss)
      · next hcas => exact absurd (Eq.symm hread) (cas_eq_none.mp hcas)
  | timedOut =>
      refine h.degraded hstate fun write hwrite => ?_
      rcases List.mem_append.mp hwrite with hwrite | hwrite
      · exact h.abandonedSchema write hwrite
      · rw [List.mem_singleton.mp hwrite]
        exact hstate
  | errored => exact h.degraded hstate h.abandonedSchema

theorem readForMutate (h : s.Faithful strategy v) (one : OneSchema strategy v) (hbacked : s.Backed)
    {mutate : Body → Option Body} {attempt : ℕ}
    (hmutate : ∀ before after, strategy.schemaVersion before = some v →
      mutate before = some after → strategy.schemaVersion after = some v) :
    (s.readForMutate strategy mutate attempt).Faithful strategy v := by
  unfold Slice.readForMutate
  split
  · exact { h.cleared hbacked with phase := trivial }
  · next read hread =>
      have hnoted := h.noteRead one hbacked hread
      have hstate : read.state = settledBody strategy s.row s.cache :=
        one.reconcile_settles h.schema hread
      have hschema : strategy.schemaVersion read.state = some v :=
        hstate ▸ schemaVersion_settledBody h.schema
      split
      · refine { hnoted with
          lastSchema := ?_, settled := ?_, cached := ?_, phase := trivial }
        · intro last hlast
          cases hlast
          exact hschema
        · intro last hlast hrow
          cases hlast
          change settledBody strategy s.cleared.row s.cleared.cache = read.state
          change s.cleared.row.isSome = true at hrow
          rw [cleared_row] at hrow ⊢
          rw [hstate, settledBody_cleared strategy hrow]
        · intro habandoned
          obtain ⟨last, hlast, hcache⟩ := hnoted.cached habandoned
          have hrow : s.row.isSome = true := by
            refine hbacked.resolve_right fun hnone => ?_
            change s.cleared.last = some last at hlast
            simp [hnone] at hlast
          change s.cleared.last = some last at hlast
          rw [cleared_last] at hlast
          refine ⟨last, ?_, hcache⟩
          rw [hstate, h.settled last hlast hrow]
      · next state hmutated =>
          refine { hnoted with phase := ⟨hmutate, ?_⟩ }
          rintro _ _ ⟨⟩
          rw [mutatedBody_eq hmutated]
          unfold applyMutator
          cases hafter : mutate read.state with
          | none => exact hschema
          | some after => exact hmutate _ after hschema hafter

theorem writeForMutate (h : s.Faithful strategy v) {mutate : Body → Option Body} {attempt : ℕ}
    {read : ReconciledState Body} {state : Body}
    (hphase : s.phase = .mutating mutate attempt (some (read, state))) :
    (s.writeForMutate mutate attempt read state).Faithful strategy v := by
  obtain ⟨hmutate, hpending⟩ :
      PhaseFits strategy v s.row (.mutating mutate attempt (some (read, state))) := hphase ▸ h.phase
  unfold Slice.writeForMutate
  split
  · next row hcas => exact h.written (hpending read state rfl) hcas h.noMiss
  · refine { h with phase := ?_ }
    dsimp only
    split
    · exact ⟨hmutate, fun _ _ => nofun⟩
    · trivial

/-- A write that lands replaces the row under a cache that keeps the body produced last. -/
theorem landed (h : s.Faithful strategy v) {index : ℕ} {write : AbandonedWrite Body}
    (hwrite : s.abandoned[index]? = some write)
    (hticking : ∀ read, s.phase = .ticking read →
      casUpsert s.row write.state write.strategyVersion write.expectedVersion = none) :
    (s.landed index write).Faithful strategy v := by
  have hmem : write ∈ s.abandoned := List.mem_of_getElem? hwrite
  have hschema := h.abandonedSchema write hmem
  have hrest : ∀ other ∈ s.abandoned.eraseIdx index, strategy.schemaVersion other.state = some v :=
    fun other hother => h.abandonedSchema other (List.mem_of_mem_eraseIdx hother)
  obtain ⟨last, hlast, hcache⟩ := h.cached (List.ne_nil_of_mem hmem)
  unfold Slice.landed
  cases hcas : casUpsert s.row write.state write.strategyVersion write.expectedVersion with
  | none =>
      exact { h with abandonedSchema := hrest, cached := fun _ => ⟨last, hlast, hcache⟩ }
  | some row =>
      obtain ⟨-, rfl⟩ := cas_eq_some.mp hcas
      refine ⟨hschema, h.lastSchema, hrest, ?_, fun _ => ⟨last, hlast, hcache⟩, ?_, h.reads,
        h.noMiss⟩
      · intro last' hlast' hrow
        cases hlast.symm.trans hlast'
        rw [hcache]
        exact settledBody_cached hschema (h.lastSchema last hlast) hrow
      · have hphase := h.phase
        dsimp only
        cases hat : s.phase with
        | idle => trivial
        | ticking read =>
            rw [hticking read hat] at hcas
            cases hcas
        | mutating mutate attempt pending =>
            rw [hat] at hphase
            exact hphase
        | merging tickNextState attempt pending =>
            rw [hat] at hphase
            exact hphase

/-- Every step of an unraced run keeps the invariant. -/
theorem step (h : s.Faithful strategy v) (one : OneSchema strategy v) {action : SliceAction Body}
    (hversion : BringsVersion strategy v action) (hunraced : Unraced s action)
    (hstep : s.step strategy action = some t) : t.Faithful strategy v := by
  have hphase := h.phase
  cases action with
  | beginTick =>
      simp only [Slice.step] at hstep
      split at hstep
      · cases hstep
        exact h.loadForTick one hunraced
      · cases hstep
  | commit nextState persist =>
      simp only [Slice.step] at hstep
      split at hstep
      · next read hread =>
          cases hstep
          exact h.commitForTick hread hversion persist
      · cases hstep
  | beginMutate mutate =>
      simp only [Slice.step] at hstep
      split at hstep
      · cases hstep
        exact { h with phase := ⟨hversion, fun _ _ => nofun⟩ }
      · cases hstep
  | read =>
      simp only [Slice.step] at hstep
      split at hstep
      · next mutate attempt hat =>
          rw [hat] at hphase
          cases hstep
          exact h.readForMutate one hunraced hphase.1
      · next tickNextState attempt hat =>
          rw [hat] at hphase
          exact hphase.elim
      · cases hstep
  | write =>
      simp only [Slice.step] at hstep
      split at hstep
      · next mutate attempt read state hat =>
          cases hstep
          exact h.writeForMutate hat
      · next tickNextState attempt read merged hat =>
          rw [hat] at hphase
          exact hphase.elim
      · cases hstep
  | land index =>
      obtain ⟨write, hwrite, rfl⟩ := Option.map_eq_some_iff.mp hstep
      exact h.landed hwrite fun read hread => hunraced read write hread hwrite

theorem readsOwnWrites (h : s.Faithful strategy v) : s.ReadsOwnWrites where
  reads := h.reads
  noMiss := h.noMiss
  noMerge := by
    intro tickNextState attempt pending hphase
    have hfits := h.phase
    rw [hphase] at hfits
    exact hfits

end Slice.Faithful

end Invariant

/-- In an unraced run every operation reads what the last one produced, and no commit misses. -/
theorem unraced_commits_read_own_writes {Body : Type} (strategy : StateStrategy Body) (v : String)
    (row : DurableRow Body) (cache : Option (CachedBody Body)) (s : Slice Body)
    (one : OneSchema strategy v)
    (hrow : strategy.schemaVersion (durableBody strategy row) = some v)
    (hrun : SliceReach strategy v Unraced (.start row cache) s) : s.ReadsOwnWrites := by
  have hfaithful : s.Faithful strategy v :=
    LabelledRun.Reach.invariant hrun (.start cache hrow)
      fun _ _ _ hfaithful hok hstep => hfaithful.step one hok.1 hok.2 hstep
  exact hfaithful.readsOwnWrites

/-! ### Two ticks of a held position -/

section Sample

open TrailingTrade

/-- The first tick notes a new high. -/
def sampleRaised : TTState := { sampleHeld with highSinceBuy := some (.raw "105") }

/-- The second buys the next rung. -/
def sampleClimbed : TTState := { sampleRaised with currentGridTradeIndex := some 1 }

def sampleRow : DurableRow TTState := some ⟨⟨sampleHeld, ttStateSchemaVersion⟩, 3⟩

/-- Every body of the action is of the current version. -/
def checksVersion : Slice TTState → SliceAction TTState → Bool
  | _, .commit nextState _ => nextState.schemaVersion == ttStateSchemaVersion
  | _, .beginMutate _ => false
  | _, _ => true

theorem bringsVersion_of_check (s : Slice TTState) (action : SliceAction TTState)
    (h : checksVersion s action = true) :
    BringsVersion (ttStateStrategy none) ttStateSchemaVersion action := by
  cases action with
  | commit nextState persist => exact congrArg some (beq_iff_eq.mp h)
  | beginMutate mutate => cases h
  | _ => trivial

def ticks : SlicePhase TTState → Bool
  | .ticking _ => true
  | _ => false

def lands : SliceAction TTState → Bool
  | .land _ => true
  | _ => false

/-- No write lands inside a tick, and there is a row from the start. -/
def checksQuiet (s : Slice TTState) (action : SliceAction TTState) : Bool :=
  checksVersion s action && s.row.isSome && !(ticks s.phase && lands action)

theorem unraced_of_checksQuiet (s : Slice TTState) (action : SliceAction TTState)
    (h : checksQuiet s action = true) :
    BringsVersion (ttStateStrategy none) ttStateSchemaVersion action ∧ Unraced s action := by
  rw [checksQuiet, Bool.and_eq_true, Bool.and_eq_true] at h
  obtain ⟨⟨hversion, hrow⟩, hquiet⟩ := h
  refine ⟨bringsVersion_of_check s action hversion, ?_⟩
  cases action with
  | beginTick => exact .inl hrow
  | read => exact .inl hrow
  | land index =>
      intro read write hphase
      rw [hphase] at hquiet
      cases hquiet
  | _ => trivial

/-- A write that lands between two ticks is harmless. -/
theorem late_write_between_ticks_is_harmless :
    ∃ s, SliceReach (ttStateStrategy none) ttStateSchemaVersion Unraced (.start sampleRow none) s ∧
      s.outcomes = [.degraded, .applied] ∧ s.reads = [(sampleRaised, sampleRaised)] ∧
      s.ReadsOwnWrites := by
  obtain ⟨s, hrun, hshown⟩ := Option.map_eq_some_iff.mp
    (by decide +kernel : (LabelledRun.run (Slice.step (ttStateStrategy none)) checksQuiet
      (.start sampleRow none)
      [.beginTick, .commit sampleRaised .timedOut, .land 0, .beginTick,
        .commit sampleClimbed .settled]).map (fun s => (s.outcomes, s.reads)) =
        some ([.degraded, .applied], [(sampleRaised, sampleRaised)]))
  have hreach : SliceReach (ttStateStrategy none) ttStateSchemaVersion Unraced
      (.start sampleRow none) s :=
    LabelledRun.reach_of_run unraced_of_checksQuiet hrun
  obtain ⟨houtcomes, hreads⟩ := Prod.ext_iff.mp hshown
  exact ⟨s, hreach, houtcomes, hreads,
    unraced_commits_read_own_writes (ttStateStrategy none) ttStateSchemaVersion sampleRow none s
      (ttStateStrategy_oneSchema none) rfl hreach⟩

/-- The first tick's write lands inside the second tick: the second tick's rung is lost and its
state replaced by the first tick's. Without a row the second tick reads the seed. -/
theorem late_writes_lose_a_tick :
    (∃ s, SliceReach (ttStateStrategy none) ttStateSchemaVersion (fun _ _ => True)
        (.start sampleRow none) s ∧
        s.last = some sampleClimbed ∧ s.outcomes = [.degraded, .casMiss] ∧
        durableBody (ttStateStrategy none) s.row = sampleRaised ∧ ¬ s.ReadsOwnWrites) ∧
      ∃ s, SliceReach (ttStateStrategy none) ttStateSchemaVersion (fun _ _ => True)
        (.start none none) s ∧ s.reads = [(initialTTState, sampleRaised)] ∧ ¬ s.ReadsOwnWrites := by
  have hok (s : Slice TTState) (action : SliceAction TTState) (h : checksVersion s action = true) :
      BringsVersion (ttStateStrategy none) ttStateSchemaVersion action ∧ True :=
    ⟨bringsVersion_of_check s action h, trivial⟩
  constructor
  · obtain ⟨s, hrun, hshown⟩ := Option.map_eq_some_iff.mp
      (by decide +kernel : (LabelledRun.run (Slice.step (ttStateStrategy none)) checksVersion
        (.start sampleRow none)
        [.beginTick, .commit sampleRaised .timedOut, .beginTick, .land 0,
          .commit sampleClimbed .settled, .read, .write]).map (fun s =>
            (s.last, s.outcomes, durableBody (ttStateStrategy none) s.row)) =
          some (some sampleClimbed, [.degraded, .casMiss], sampleRaised))
    simp only [Prod.mk.injEq] at hshown
    obtain ⟨hlast, houtcomes, hbody⟩ := hshown
    refine ⟨s, LabelledRun.reach_of_run hok hrun, hlast, houtcomes, hbody, fun h => ?_⟩
    apply h.noMiss
    simp [houtcomes]
  · obtain ⟨s, hrun, hreads⟩ := Option.map_eq_some_iff.mp
      (by decide +kernel : (LabelledRun.run (Slice.step (ttStateStrategy none)) checksVersion
        (.start none none)
        [.beginTick, .commit sampleRaised .timedOut, .beginTick]).map (·.reads) =
          some [(initialTTState, sampleRaised)])
    refine ⟨s, LabelledRun.reach_of_run hok hrun, hreads, fun h => ?_⟩
    have hsame := h.reads (initialTTState, sampleRaised) (by simp [hreads])
    revert hsame
    decide +kernel

end Sample

end TradingBot.Worker
