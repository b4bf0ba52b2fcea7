import TradingBot.Lib.VersionedCell
import TradingBot.TrailingTrade.Cooldowns

/-!
# The state boundary

How the worker reads and writes the state of one profile on one symbol. The
durable row is the truth and carries the version a writer has to name; a cached
body is taken in its place when both have the same schema version. A body that
lags its strategy is migrated first. The strategy is a parameter: its bodies
are of any type, with the schema version each is stamped with.
-/

namespace TradingBot.Worker

/-- What the state boundary asks of a strategy, for one configuration. -/
structure StateStrategy (Body : Type) where
  version : String
  initialState : Body
  schemaVersion : Body → Option String
  /-- One hop from a version, which may throw. -/
  migrateState : Option (String → Body → Except Unit Body)
  /-- Graft the latches of the second body onto the first. -/
  mergeConcurrent : Option (Body → Body → Body)

/-- The two columns of a row that are written together. -/
structure StateRow (Body : Type) where
  state : Body
  strategyVersion : String
deriving DecidableEq

/-- The durable row of a symbol, once one has been written. -/
abbrev DurableRow (Body : Type) := Option (VersionedCell (StateRow Body))

/-- The cached text of a body; a text that does not parse is malformed. -/
inductive CachedBody (Body : Type) where
  | malformed
  | body (state : Body)
deriving DecidableEq

variable {Body : Type}

/-! ### Migration -/

def maxMigrationHops : ℕ := 16

/-- Hop until the target, a version seen before, or a body without one. -/
def migrationHops (strategy : StateStrategy Body) (migrate : String → Body → Except Unit Body) :
    ℕ → String → List String → Body → Except Unit (String × Body)
  | 0, cursor, _, state => .ok (cursor, state)
  | hops + 1, cursor, visited, state =>
      if cursor = strategy.version then .ok (cursor, state)
      else do
        let migrated ← migrate cursor state
        match strategy.schemaVersion migrated with
        | none => return (cursor, migrated)
        | some nextVer =>
            if nextVer ∈ visited then return (cursor, migrated)
            else migrationHops strategy migrate hops nextVer (nextVer :: visited) migrated

inductive MigrationResult (Body : Type) where
  | unchanged
  | migrated (state : Body) (version : String)

/-- Bring a body to the strategy's version; `none` where the chain does not get there. -/
def runStateMigration (strategy : StateStrategy Body) (fromVersion : String) (state : Body) :
    Option (MigrationResult Body) :=
  let effectiveFromVersion := (strategy.schemaVersion state).getD fromVersion
  if effectiveFromVersion = strategy.version then
    -- the body is current and the column is not: only the stamp is written again
    if (strategy.schemaVersion state).any (· ≠ fromVersion) then
      some (.migrated state strategy.version)
    else some .unchanged
  else
    match strategy.migrateState with
    | none => some .unchanged
    | some migrate =>
        match migrationHops strategy migrate maxMigrationHops effectiveFromVersion
            [effectiveFromVersion] state with
        | .error _ => none
        | .ok (cursor, migrated) =>
            if cursor = strategy.version then some (.migrated migrated strategy.version) else none

/-! ### Reading -/

structure ReconciledState (Body : Type) where
  state : Body
  workingVersion : String
  /-- The version the row had, named again by the write. -/
  expectedVersion : Option ℕ
  rowExisted : Bool
  migrated : Bool
deriving DecidableEq

/-- The durable body, or the seed of a symbol without a row. -/
def durableBody (strategy : StateStrategy Body) (row : DurableRow Body) : Body :=
  row.elim strategy.initialState (·.value.state)

/-- The body a read settles on: the cached one only over a row of the same schema version. -/
def settledBody (strategy : StateStrategy Body) (row : DurableRow Body)
    (cached : Option (CachedBody Body)) : Body :=
  match cached with
  | some (.body state) =>
      if row.isSome && (strategy.schemaVersion state).isSome &&
          strategy.schemaVersion state = strategy.schemaVersion (durableBody strategy row) then
        state
      else durableBody strategy row
  | _ => durableBody strategy row

/-- The read deletes the cached text: it does not parse, or there is no row under it. -/
def clearsCache (row : DurableRow Body) : Option (CachedBody Body) → Bool
  | none => false
  | some .malformed => true
  | some (.body _) => row.isNone

/-- The body a caller works on, the version to stamp it with and the version to name. -/
def reconcileAndMigrate (strategy : StateStrategy Body) (row : DurableRow Body)
    (cached : Option (CachedBody Body)) : Option (ReconciledState Body) :=
  let state := settledBody strategy row cached
  let workingVersion := row.elim strategy.version (·.value.strategyVersion)
  (runStateMigration strategy workingVersion state).map fun result =>
    match result with
    | .unchanged => ⟨state, workingVersion, VersionedCell.token row, row.isSome, false⟩
    | .migrated state version => ⟨state, version, VersionedCell.token row, row.isSome, true⟩

/-! ### Writing -/

/-- Optimistic-concurrency write of both columns. -/
def casUpsert (row : DurableRow Body) (state : Body) (strategyVersion : String)
    (expectedVersion : Option ℕ) : Option (VersionedCell (StateRow Body)) :=
  VersionedCell.cas row expectedVersion ⟨state, strategyVersion⟩

def maxCasRetries : ℕ := 5

/-- What a mutate writes, if anything: a seed and a migration are written without a change. -/
def mutatedBody (mutate : Body → Option Body) (reconciled : ReconciledState Body) : Option Body :=
  match mutate reconciled.state with
  | some next => some next
  | none =>
      if !reconciled.rowExisted || reconciled.migrated then some reconciled.state else none

/-- The body a mutator leaves: `none` is no change. -/
def applyMutator (mutate : Body → Option Body) (state : Body) : Body := (mutate state).getD state

/-! ### Bodies of one schema version -/

/-- The strategy's own bodies are all of one version: the seed, and what a hop would make. -/
structure OneSchema (strategy : StateStrategy Body) (v : String) : Prop where
  seed : strategy.schemaVersion strategy.initialState = some v
  hop : v ≠ strategy.version → ∀ migrate, strategy.migrateState = some migrate →
    ∀ cursor before after, strategy.schemaVersion before = some v →
      migrate cursor before = .ok after → strategy.schemaVersion after = some v

section OneSchema

variable {strategy : StateStrategy Body} {v : String} {row : DurableRow Body}
  {cached : Option (CachedBody Body)} {reconciled : ReconciledState Body} {state : Body}

/-- Among bodies of one version a hop leads nowhere. -/
theorem OneSchema.hops_stuck (one : OneSchema strategy v) (hne : v ≠ strategy.version)
    {migrate : String → Body → Except Unit Body} (hmigrate : strategy.migrateState = some migrate)
    (hstate : strategy.schemaVersion state = some v) (hops : ℕ) {cursor : String} {reached : Body}
    (h : migrationHops strategy migrate hops v [v] state = .ok (cursor, reached)) :
    cursor = v := by
  cases hops with
  | zero =>
      cases h
      rfl
  | succ hops =>
      rw [migrationHops, if_neg hne] at h
      cases hhop : migrate v state with
      | error e =>
          rw [hhop] at h
          cases h
      | ok migrated =>
          have hsame := one.hop hne migrate hmigrate v state migrated hstate hhop
          rw [hhop] at h
          simp only [bind, Except.bind, hsame, List.mem_singleton, if_true] at h
          cases h
          rfl

theorem OneSchema.migration_same (one : OneSchema strategy v)
    (hstate : strategy.schemaVersion state = some v) {fromVersion : String}
    {result : MigrationResult Body}
    (h : runStateMigration strategy fromVersion state = some result) :
    ∀ after version, result = .migrated after version → after = state := by
  rintro after version rfl
  unfold runStateMigration at h
  rw [hstate] at h
  dsimp only [Option.getD_some] at h
  split at h
  · split at h
    · cases h
      rfl
    · cases h
  · next hne =>
      split at h
      · cases h
      · next migrate hmigrate =>
          split at h
          · cases h
          · next cursor migrated hhops =>
              split at h
              · next hcursor =>
                  exact absurd ((one.hops_stuck hne hmigrate hstate _ hhops).symm.trans hcursor) hne
              · cases h

theorem schemaVersion_settledBody
    (hrow : strategy.schemaVersion (durableBody strategy row) = some v) :
    strategy.schemaVersion (settledBody strategy row cached) = some v := by
  unfold settledBody
  split
  · split
    · next htrusted =>
        simp only [Bool.and_eq_true, decide_eq_true_eq] at htrusted
        exact htrusted.2.trans hrow
    · exact hrow
  · exact hrow

/-- A read names the row it read. -/
theorem expectedVersion_of_reconciled
    (h : reconcileAndMigrate strategy row cached = some reconciled) :
    reconciled.expectedVersion = VersionedCell.token row ∧ reconciled.rowExisted = row.isSome := by
  obtain ⟨result, -, rfl⟩ := Option.map_eq_some_iff.mp h
  cases result with
  | unchanged => exact ⟨rfl, rfl⟩
  | migrated after version => exact ⟨rfl, rfl⟩

theorem OneSchema.reconcile_settles (one : OneSchema strategy v)
    (hrow : strategy.schemaVersion (durableBody strategy row) = some v)
    (h : reconcileAndMigrate strategy row cached = some reconciled) :
    reconciled.state = settledBody strategy row cached := by
  obtain ⟨result, hresult, rfl⟩ := Option.map_eq_some_iff.mp h
  cases result with
  | unchanged => rfl
  | migrated after version =>
      exact one.migration_same (schemaVersion_settledBody hrow) hresult after version rfl

theorem mutatedBody_eq {mutate : Body → Option Body} {next : Body}
    (h : mutatedBody mutate reconciled = some next) :
      next = applyMutator mutate reconciled.state := by
  unfold mutatedBody at h
  unfold applyMutator
  split at h
  · next after hmutate =>
      rw [hmutate]
      exact (Option.some.inj h).symm
  · next hmutate =>
      rw [hmutate]
      split at h
      · exact (Option.some.inj h).symm
      · cases h

end OneSchema

/-! ### The trailing-trade strategy -/

/-- Trailing-trade at this boundary, whatever its hops from older versions do. -/
def ttStateStrategy (migrateState : Option (String → TrailingTrade.TTState →
    Except Unit TrailingTrade.TTState)) : StateStrategy TrailingTrade.TTState where
  version := TrailingTrade.ttStateSchemaVersion
  initialState := TrailingTrade.initialTTState
  schemaVersion state := some state.schemaVersion
  migrateState
  mergeConcurrent := some TrailingTrade.mergeTTLatchFields

theorem ttStateStrategy_oneSchema (migrateState : Option (String → TrailingTrade.TTState →
    Except Unit TrailingTrade.TTState)) :
    OneSchema (ttStateStrategy migrateState) TrailingTrade.ttStateSchemaVersion :=
  ⟨rfl, fun hne => absurd rfl hne⟩

end TradingBot.Worker
