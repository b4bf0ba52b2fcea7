import Mathlib.Data.List.Range
import Mathlib.Logic.Function.Iterate
import TradingBot.Lib.LabelledRun

/-!
# Bounded fan-out

A call runs a function over a list of items with a bounded number of workers.
The workers share one index and one slot for the first error. Between two
awaits a worker runs undisturbed, so a run of the call is its start followed by
one step for each promise that settles, in whatever order they do. `calls` and
`settled` only record what happened.
-/

namespace TradingBot.Core.FanOut

open LabelledRun

/-- What a call throws or a promise is rejected with; `none` is the value `null`. -/
abbrev Thrown (ε : Type) := Option ε

inductive ErrorMode where
  | collect
  | failFast
deriving DecidableEq

/-- A call, and which of its items make the function throw before it returns a promise. -/
structure Call (τ ε : Type) where
  items : List τ
  concurrency : ℕ
  onError : ErrorMode
  throws : ℕ → Option (Thrown ε)

structure State (τ ρ ε : Type) where
  nextIndex : ℕ
  /-- The items the workers await, each with its index. -/
  inFlight : List (ℕ × τ)
  okSparse : ℕ → Option ρ
  errors : List (τ × Thrown ε)
  failFastError : Thrown ε
  calls : List ℕ
  settled : List (ℕ × Except (Thrown ε) ρ)

structure Result (τ ρ ε : Type) where
  ok : List ρ
  errors : List (τ × Thrown ε)

variable {τ ρ ε : Type}

def initial : State τ ρ ε where
  nextIndex := 0
  inFlight := []
  okSparse := fun _ => none
  errors := []
  failFastError := none
  calls := []
  settled := []

namespace Call

variable (c : Call τ ε)

/-- A worker pulls no further item once an error has been recorded. -/
def stopped (s : State τ ρ ε) : Bool := c.onError = .failFast && s.failFastError.isSome

/-- A failure: the first is kept in the shared slot, or every one is collected. -/
def fail (s : State τ ρ ε) (i : ℕ) (item : τ) (err : Thrown ε) : State τ ρ ε :=
  let s : State τ ρ ε := { s with settled := s.settled ++ [(i, .error err)] }
  match c.onError with
  | .failFast => { s with failFastError := if s.failFastError.isNone then err else s.failFastError }
  | .collect => { s with errors := s.errors ++ [(item, err)] }

/-- A worker from the head of its loop to its next await or
its end, over the items that are left. -/
def pull : List τ → State τ ρ ε → State τ ρ ε
  | [], s => if c.stopped s then s else { s with nextIndex := s.nextIndex + 1 }
  | item :: rest, s =>
      if c.stopped s then s
      else
        let i := s.nextIndex
        let s : State τ ρ ε := { s with nextIndex := i + 1, calls := s.calls ++ [i] }
        match c.throws i with
        | none => { s with inFlight := s.inFlight ++ [(i, item)] }
        | some err =>
            match c.onError with
            | .failFast => c.fail s i item err
            | .collect => pull rest (c.fail s i item err)

def worker (s : State τ ρ ε) : State τ ρ ε := c.pull (c.items.drop s.nextIndex) s

/-- The workers are started one after the other, no more of them than there are items. -/
def start : State τ ρ ε := c.worker^[min c.concurrency c.items.length] initial

/-- The promise of an item settles, and the worker that awaited it goes on. -/
def settle (s : State τ ρ ε) (event : ℕ × Except (Thrown ε) ρ) : Option (State τ ρ ε) :=
  match s.inFlight.find? (·.1 = event.1) with
  | none => none
  | some (i, item) =>
      let s : State τ ρ ε := { s with inFlight := s.inFlight.filter (·.1 ≠ i) }
      match event.2 with
      | .ok value =>
          some (c.worker
            { s with
              okSparse := Function.update s.okSparse i (some value)
              settled := s.settled ++ [(i, .ok value)] })
      | .error err =>
          match c.onError with
          | .failFast => some (c.fail s i item err)
          | .collect => some (c.worker (c.fail s i item err))

/-- What the call comes to once every worker has returned: it rejects, or it resolves. -/
def outcome (s : State τ ρ ε) : Option (Except ε (Result τ ρ ε)) :=
  if s.inFlight ≠ [] then none
  else
    match (if c.onError = .failFast then s.failFastError else none) with
    | some err => some (.error err)
    | none =>
        some (.ok ⟨(List.range c.items.length).filterMap s.okSparse, s.errors⟩)

/-- The states of a call, from its start on. -/
def Reached (s : State τ ρ ε) : Prop := Reach c.settle (fun _ _ => True) c.start s

end Call

/-! ### What the record says -/

/-- The values the failed attempts failed with. -/
def State.failures (s : State τ ρ ε) : List (Thrown ε) :=
  s.settled.filterMap fun entry =>
    match entry.2 with
    | .ok _ => none
    | .error err => some err

/-- The result of an item, where its attempt succeeded. -/
def State.resultOf (s : State τ ρ ε) (i : ℕ) : Option ρ := (s.settled.lookup i).bind Except.toOption

/-- The entry a failed attempt leaves in collect mode. -/
def Call.failureOf (c : Call τ ε) (entry : ℕ × Except (Thrown ε) ρ) : Option (τ × Thrown ε) :=
  match entry.2 with
  | .ok _ => none
  | .error err => c.items[entry.1]?.map (·, err)

/-! ### The invariant -/

/-- What holds between two steps of the workers; the indices in hand are called and not yet
awaited, or no longer awaited and not yet settled. -/
structure Inv (c : Call τ ε) (hand : List ℕ) (s : State τ ρ ε) : Prop where
  calls : s.calls = List.range (min s.nextIndex c.items.length)
  split : (hand ++ (s.inFlight.map (·.1) ++ s.settled.map (·.1))).Perm s.calls
  item : ∀ entry ∈ s.inFlight, c.items[entry.1]? = some entry.2
  ok : ∀ i v, s.okSparse i = some v ↔ (i, .ok v) ∈ s.settled
  errors : s.errors = if c.onError = .collect then s.settled.filterMap c.failureOf else []
  slot : c.onError = .failFast → (s.failFastError = none ↔ ∀ err ∈ s.failures, err = none)

section Steps

variable {c : Call τ ε} {s : State τ ρ ε} {i : ℕ} {item : τ} {hand : List ℕ}

theorem mem_failures {err : Thrown ε} : err ∈ s.failures ↔ ∃ i, (i, .error err) ∈ s.settled := by
  unfold State.failures
  rw [List.mem_filterMap]
  constructor
  · rintro ⟨⟨i, o⟩, hmem, hval⟩
    cases o with
    | ok v => cases hval
    | error e =>
        cases hval
        exact ⟨i, hmem⟩
  · rintro ⟨i, hmem⟩
    exact ⟨_, hmem, rfl⟩

/-- A failure is recorded; what is awaited and what has been pulled stay as they are. -/
theorem fields_fail (c : Call τ ε) (s : State τ ρ ε) (i : ℕ) (item : τ) (err : Thrown ε) :
    (c.fail s i item err).inFlight = s.inFlight ∧ (c.fail s i item err).nextIndex = s.nextIndex ∧
      (c.fail s i item err).calls = s.calls ∧ (c.fail s i item err).okSparse = s.okSparse ∧
      (c.fail s i item err).settled = s.settled ++ [(i, .error err)] := by
  unfold Call.fail
  cases c.onError with
  | collect => exact ⟨rfl, rfl, rfl, rfl, rfl⟩
  | failFast => exact ⟨rfl, rfl, rfl, rfl, rfl⟩

theorem failures_fail (err : Thrown ε) : (c.fail s i item err).failures = s.failures ++ [err] := by
  unfold Call.fail State.failures
  cases c.onError with
  | collect => simp [List.filterMap_append]
  | failFast => simp [List.filterMap_append]

theorem Inv.nodup (h : Inv c hand s) :
    (hand ++ (s.inFlight.map (·.1) ++ s.settled.map (·.1))).Nodup := by
  rw [h.split.nodup_iff, h.calls]
  exact List.nodup_range

/-- An index in hand fails. -/
theorem Inv.fail (h : Inv c [i] s) (hitem : c.items[i]? = some item) (err : Thrown ε) :
    Inv c [] (c.fail s i item err) := by
  obtain ⟨hflight, hindex, hcalls, hsparse, hsettled⟩ := fields_fail c s i item err
  refine ⟨?_, ?_, ?_, ?_, ?_, ?_⟩
  · rw [hindex, hcalls]
    exact h.calls
  · rw [hflight, hcalls, hsettled, List.map_append, List.nil_append, ← List.append_assoc]
    exact List.perm_append_comm.trans h.split
  · rw [hflight]
    exact h.item
  · intro j v
    rw [hsparse, hsettled, h.ok]
    simp
  · rw [hsettled]
    have hentry : c.failureOf ((i, .error err) : ℕ × Except (Thrown ε) ρ) = some (item, err) := by
      unfold Call.failureOf
      rw [hitem]
      rfl
    have herrors := h.errors
    unfold Call.fail
    cases hmode : c.onError with
    | collect =>
        rw [hmode, if_pos rfl] at herrors
        rw [if_pos rfl, List.filterMap_append, ← herrors]
        simp [hentry]
    | failFast =>
        rw [hmode, if_neg (by decide)] at herrors
        rw [if_neg (by decide)]
        exact herrors
  · intro hmode
    rw [failures_fail]
    have hslot := h.slot hmode
    unfold Call.fail
    rw [hmode]
    dsimp only
    simp only [List.forall_mem_append, List.forall_mem_singleton, ← hslot]
    cases hfirst : s.failFastError with
    | none => simp
    | some first => simp

/-- An index in hand succeeds. -/
theorem Inv.succeed (h : Inv c [i] s) (value : ρ) :
    Inv c []
      { s with
        okSparse := Function.update s.okSparse i (some value)
        settled := s.settled ++ [(i, .ok value)] } := by
  have hfresh : i ∉ s.settled.map (·.1) := by
    have hnodup := h.nodup
    rw [List.singleton_append, List.nodup_cons, List.mem_append, not_or] at hnodup
    exact hnodup.1.2
  refine ⟨h.calls, ?_, h.item, ?_, ?_, ?_⟩
  · dsimp only
    rw [List.map_append, List.nil_append, ← List.append_assoc]
    exact List.perm_append_comm.trans h.split
  · intro j v
    dsimp only
    rw [List.mem_append, List.mem_singleton]
    by_cases hj : j = i
    · subst hj
      rw [Function.update_self]
      have hnew : (j, Except.ok v) ∉ s.settled := fun hmem => hfresh (List.mem_map_of_mem hmem)
      simp [hnew, eq_comm]
    · rw [Function.update_of_ne hj, h.ok]
      simp [hj]
  · dsimp only
    have hnone : [((i, .ok value) : ℕ × Except (Thrown ε) ρ)].filterMap c.failureOf = [] := rfl
    rw [List.filterMap_append, hnone, List.append_nil]
    exact h.errors
  · intro hmode
    have hsame : State.failures { s with
        okSparse := Function.update s.okSparse i (some value)
        settled := s.settled ++ [(i, .ok value)] } = s.failures := by
      unfold State.failures
      rw [List.filterMap_append]
      exact List.append_nil _
    rw [hsame]
    exact h.slot hmode

theorem Inv.take (h : Inv c [] s) (hnext : s.nextIndex < c.items.length) :
    Inv c [s.nextIndex]
      { s with nextIndex := s.nextIndex + 1, calls := s.calls ++ [s.nextIndex] } := by
  refine ⟨?_, ?_, h.item, h.ok, h.errors, h.slot⟩
  · dsimp only
    rw [h.calls, min_eq_left hnext.le, min_eq_left hnext, List.range_succ]
  · dsimp only
    exact (@List.perm_append_comm _ [s.nextIndex] _).trans (h.split.append_right _)

/-- An index in hand is awaited. -/
theorem Inv.await (h : Inv c [i] s) (hitem : c.items[i]? = some item) :
    Inv c [] { s with inFlight := s.inFlight ++ [(i, item)] } := by
  refine ⟨h.calls, ?_, ?_, h.ok, h.errors, h.slot⟩
  · dsimp only
    rw [List.map_append, List.nil_append]
    refine List.Perm.trans ?_ h.split
    rw [← List.append_assoc]
    exact List.perm_append_comm.append_right _
  · intro entry hentry
    rcases List.mem_append.mp hentry with hold | hnew
    · exact h.item entry hold
    · obtain rfl := List.mem_singleton.mp hnew
      exact hitem

/-- The promise of an awaited index has settled. -/
theorem Inv.remove (h : Inv c [] s) (hmem : (i, item) ∈ s.inFlight) :
    Inv c [i] { s with inFlight := s.inFlight.filter (·.1 ≠ i) } ∧
      (s.inFlight.filter (·.1 ≠ i)).length + 1 = s.inFlight.length := by
  have hboth := h.nodup
  rw [List.nil_append] at hboth
  have hnodup : (s.inFlight.map (·.1)).Nodup := (List.nodup_append.mp hboth).1
  obtain ⟨before, after, hsplit⟩ := List.append_of_mem hmem
  rw [hsplit, List.map_append, List.map_cons] at hnodup
  have hbefore : ∀ entry ∈ before, entry.1 ≠ i := by
    rintro entry hentry rfl
    exact (List.nodup_append.mp hnodup).2.2 _ (List.mem_map_of_mem hentry) _ List.mem_cons_self rfl
  have hafter : ∀ entry ∈ after, entry.1 ≠ i := by
    rintro entry hentry rfl
    have hin : entry.1 ∈ after.map (·.1) := List.mem_map_of_mem hentry
    exact (List.nodup_cons.mp (List.nodup_append.mp hnodup).2.1).1 hin
  have hfilter : s.inFlight.filter (·.1 ≠ i) = before ++ after := by
    rw [hsplit, List.filter_append, List.filter_cons_of_neg (by simp),
      List.filter_eq_self.mpr (by simpa using hbefore),
      List.filter_eq_self.mpr (by simpa using hafter)]
  refine ⟨⟨h.calls, ?_, ?_, h.ok, h.errors, h.slot⟩, ?_⟩
  · dsimp only
    rw [hfilter]
    refine List.Perm.trans ?_ h.split
    rw [hsplit, List.nil_append, List.map_append, List.map_append, List.map_cons,
      ← List.append_assoc]
    change (i :: (before.map (·.1) ++ after.map (·.1)) ++ _).Perm _
    exact List.perm_middle.symm.append_right _
  · intro entry hentry
    exact h.item entry (List.mem_of_mem_filter hentry)
  · rw [hfilter, hsplit, List.length_append, List.length_append, List.length_cons]
    omega

/-- No worker will pull another item: none is left, or a failure has stopped them. -/
def Exhausted (c : Call τ ε) (s : State τ ρ ε) : Prop :=
  c.items.length ≤ s.nextIndex ∨ c.onError = .failFast ∧ s.failures ≠ []

/-- What a worker that goes on leaves: one more await, unless nothing is left to pull. -/
structure Pulled (c : Call τ ε) (s t : State τ ρ ε) : Prop where
  inv : Inv c [] t
  grows : t.inFlight.length ≤ s.inFlight.length + 1
  awaits : t.inFlight.length = s.inFlight.length + 1 ∨ Exhausted c t
  keeps : s.inFlight.length ≤ t.inFlight.length
  exhausted : Exhausted c s → Exhausted c t

theorem pulled_pull (c : Call τ ε) (left : List τ) (s : State τ ρ ε) (h : Inv c [] s)
    (hleft : c.items.drop s.nextIndex = left) : Pulled c s (c.pull left s) := by
  have hstop : c.stopped s = true → Exhausted c s := by
    intro hstopped
    unfold Call.stopped at hstopped
    rw [Bool.and_eq_true, decide_eq_true_iff] at hstopped
    refine .inr ⟨hstopped.1, ?_⟩
    intro hnone
    have hslot := (h.slot hstopped.1).mpr (by simp [hnone])
    rw [hslot] at hstopped
    cases hstopped.2
  induction left generalizing s with
  | nil =>
      have hdone : c.items.length ≤ s.nextIndex := List.drop_eq_nil_iff.mp hleft
      unfold Call.pull
      split
      · next hstopped =>
          exact ⟨h, Nat.le_succ _, .inr (hstop hstopped), le_rfl, id⟩
      · refine ⟨⟨?_, h.split, h.item, h.ok, h.errors, h.slot⟩, Nat.le_succ _,
          .inr (.inl (hdone.trans (Nat.le_succ _))), le_rfl,
          fun _ => .inl (hdone.trans (Nat.le_succ _))⟩
        dsimp only
        rw [h.calls, min_eq_right hdone, min_eq_right (hdone.trans (Nat.le_succ _))]
  | cons item rest ih =>
      have hnext : s.nextIndex < c.items.length := by
        by_contra hge
        rw [List.drop_eq_nil_of_le (not_lt.mp hge)] at hleft
        cases hleft
      have hitem : c.items[s.nextIndex]? = some item := by
        rw [← List.head?_drop, hleft]
        rfl
      have hrest : c.items.drop (s.nextIndex + 1) = rest := by
        rw [← List.tail_drop, hleft]
        rfl
      have htaken := h.take hnext
      unfold Call.pull
      split
      · next hstopped =>
          exact ⟨h, Nat.le_succ _, .inr (hstop hstopped), le_rfl, id⟩
      · dsimp only
        split
        · refine ⟨htaken.await hitem, ?_, .inl ?_, ?_, ?_⟩
          · dsimp only
            rw [List.length_append, List.length_singleton]
          · dsimp only
            rw [List.length_append, List.length_singleton]
          · dsimp only
            rw [List.length_append]
            exact Nat.le_add_right _ _
          · exact Or.imp_left Nat.le_succ_of_le
        · next err hthrows =>
            have hfailed := htaken.fail hitem err
            obtain ⟨hflight, hindex, -⟩ := fields_fail c
              { s with nextIndex := s.nextIndex + 1, calls := s.calls ++ [s.nextIndex] }
              s.nextIndex item err
            have hgone := @failures_fail τ ρ ε c
              { s with nextIndex := s.nextIndex + 1, calls := s.calls ++ [s.nextIndex] }
              s.nextIndex item err
            generalize c.fail _ s.nextIndex item err = t at hfailed hflight hindex hgone ⊢
            dsimp only at hflight hindex
            split
            · next hmode =>
                have hstopped : Exhausted c t := by
                  refine .inr ⟨hmode, ?_⟩
                  rw [hgone]
                  exact List.append_ne_nil_of_right_ne_nil _ (List.cons_ne_nil _ _)
                exact ⟨hfailed, by rw [hflight]; exact Nat.le_succ _, .inr hstopped,
                  by rw [hflight],
                  fun _ => hstopped⟩
            · next hmode =>
                have hcollects : c.stopped t = true → Exhausted c t := by
                  intro hstopped
                  unfold Call.stopped at hstopped
                  rw [hmode] at hstopped
                  cases hstopped
                obtain ⟨hinv, hgrows, hawaits, hkeeps, -⟩ :=
                  ih t hfailed (by rw [hindex]; exact hrest) hcollects
                rw [hflight] at hgrows hawaits hkeeps
                refine ⟨hinv, hgrows, hawaits, hkeeps, ?_⟩
                rintro (hnone | ⟨hfast, -⟩)
                · exact absurd hnext (not_lt.mpr hnone)
                · rw [hmode] at hfast
                  cases hfast

end Steps

/-! ### Runs -/

section Runs

variable {c : Call τ ε} {s t : State τ ρ ε}

/-- The invariant, with the workers counted: each awaits an item until nothing is left to pull. -/
structure Staffed (c : Call τ ε) (workers : ℕ) (s : State τ ρ ε) : Prop where
  inv : Inv c [] s
  bounded : s.inFlight.length ≤ workers
  busy : s.inFlight.length = workers ∨ Exhausted c s

theorem Staffed.worker {workers : ℕ} (h : Staffed c workers s) :
    Staffed c (workers + 1) (c.worker s) := by
  obtain ⟨hinv, hgrows, hawaits, -, hexhausted⟩ := pulled_pull c _ s h.inv rfl
  refine ⟨hinv, hgrows.trans (Nat.succ_le_succ h.bounded), ?_⟩
  rcases h.busy with hbusy | hdone
  · rw [hbusy] at hawaits
    exact hawaits
  · exact .inr (hexhausted hdone)

theorem staffed_initial (c : Call τ ε) : Staffed c 0 (initial : State τ ρ ε) := by
  refine ⟨⟨?_, List.Perm.nil, by simp [initial], by simp [initial], ?_, ?_⟩, le_rfl, .inl rfl⟩
  · simp [initial]
  · simp [initial]
  · simp [initial, State.failures]

theorem staffed_start (c : Call τ ε) :
    Staffed c (min c.concurrency c.items.length) (c.start : State τ ρ ε) := by
  unfold Call.start
  induction min c.concurrency c.items.length with
  | zero => exact staffed_initial c
  | succ k ih =>
      rw [Function.iterate_succ_apply']
      exact ih.worker

/-- A settled promise is taken off what is awaited. -/
theorem staffed_settle {workers : ℕ} (h : Staffed c workers s) (event : ℕ × Except (Thrown ε) ρ)
    (hsettle : c.settle s event = some t) : Staffed c workers t := by
  unfold Call.settle at hsettle
  split at hsettle
  · cases hsettle
  · next i item hfind =>
      have hmem : (i, item) ∈ s.inFlight := List.mem_of_find?_eq_some hfind
      obtain ⟨hinv, hlength⟩ := h.inv.remove hmem
      have hbounded := h.bounded
      obtain ⟨left, rfl⟩ : ∃ left, workers = left + 1 := ⟨workers - 1, by omega⟩
      have hitem := h.inv.item _ hmem
      dsimp only at hsettle
      split at hsettle
      · next value hvalue =>
          cases hsettle
          refine Staffed.worker ⟨hinv.succeed value, ?_, ?_⟩
          · dsimp only
            omega
          · rcases h.busy with hbusy | hdone
            · refine .inl ?_
              dsimp only
              omega
            · refine .inr (hdone.imp_right fun hstopped => ⟨hstopped.1, ?_⟩)
              have hkeep : State.failures { s with
                  inFlight := s.inFlight.filter (·.1 ≠ i)
                  okSparse := Function.update s.okSparse i (some value)
                  settled := s.settled ++ [(i, .ok value)] } = s.failures := by
                unfold State.failures
                rw [List.filterMap_append]
                exact List.append_nil _
              rw [hkeep]
              exact hstopped.2
      · next err herr =>
          obtain ⟨hflight, hindex, -⟩ := fields_fail c
            { s with inFlight := s.inFlight.filter (·.1 ≠ i) } i item err
          have hgone := @failures_fail τ ρ ε c
            { s with inFlight := s.inFlight.filter (·.1 ≠ i) } i item err
          have hfailed := hinv.fail hitem err
          generalize c.fail _ i item err = failed at hsettle hflight hindex hgone hfailed
          dsimp only at hflight hindex
          have hfewer : failed.inFlight.length ≤ left := by
            rw [hflight]
            omega
          have hanother : failed.failures ≠ [] := by
            rw [hgone]
            exact List.append_ne_nil_of_right_ne_nil _ (List.cons_ne_nil _ _)
          split at hsettle
          · next hmode =>
              cases hsettle
              exact ⟨hfailed, hfewer.trans (Nat.le_succ left), .inr (.inr ⟨hmode, hanother⟩)⟩
          · next hmode =>
              cases hsettle
              refine Staffed.worker ⟨hfailed, hfewer, ?_⟩
              rcases h.busy with hbusy | hdone | hstopped
              · refine .inl ?_
                rw [hflight]
                omega
              · refine .inr (.inl ?_)
                rw [hindex]
                exact hdone
              · rw [hmode] at hstopped
                cases hstopped.1

theorem staffed_of_reached (h : c.Reached s) : Staffed c (min c.concurrency c.items.length) s :=
  h.invariant (staffed_start c) fun _ event _ hs _ hstep => staffed_settle hs event hstep

/-- The slots of the results are the results of the settled attempts. -/
theorem okSparse_eq (h : Inv c [] s) (i : ℕ) : s.okSparse i = s.resultOf i := by
  have hnodup := h.nodup
  rw [List.nil_append] at hnodup
  have hkeys : (s.settled.map (·.1)).Nodup := (List.nodup_append.mp hnodup).2.1
  refine Option.ext fun v => ?_
  rw [h.ok]
  unfold State.resultOf
  constructor
  · intro hmem
    have hlookup : s.settled.lookup i = some (.ok v) := by
      obtain ⟨before, after, hsplit⟩ := List.append_of_mem hmem
      rw [List.lookup_eq_some_iff]
      refine ⟨before, after, hsplit, ?_⟩
      intro entry hentry
      rw [hsplit, List.map_append, List.map_cons] at hkeys
      rw [bne_iff_ne]
      rintro rfl
      exact (List.nodup_append.mp hkeys).2.2 _ (List.mem_map_of_mem hentry) _ List.mem_cons_self rfl
    rw [hlookup]
    rfl
  · intro hresult
    obtain ⟨o, hlookup, hvalue⟩ := Option.bind_eq_some_iff.mp hresult
    obtain ⟨before, after, hsplit, -⟩ := List.lookup_eq_some_iff.mp hlookup
    cases o with
    | error err => cases hvalue
    | ok w =>
        cases hvalue
        rw [hsplit]
        simp

/-- Once nothing is awaited, every item has been called, or a failure has stopped the workers. -/
theorem exhausted_of_idle (h : c.Reached s) (hc : 1 ≤ c.concurrency) (hidle : s.inFlight = []) :
    Exhausted c s := by
  rcases (staffed_of_reached h).busy with hbusy | hdone
  · rw [hidle, List.length_nil] at hbusy
    refine .inl ?_
    omega
  · exact hdone

theorem Inv.settled_perm (h : Inv c [] s) (hidle : s.inFlight = []) :
    (s.settled.map (·.1)).Perm s.calls := by
  have hsplit := h.split
  rw [hidle] at hsplit
  exact hsplit

theorem Inv.calls_of_le (h : Inv c [] s) (hall : c.items.length ≤ s.nextIndex) :
    s.calls = List.range c.items.length := by
  rw [h.calls, min_eq_right hall]

theorem Inv.result (h : Inv c [] s) :
    (List.range c.items.length).filterMap s.okSparse =
      (List.range c.items.length).filterMap s.resultOf := by
  rw [funext (okSparse_eq h)]

end Runs

/-! ### What a finished call may promise -/

section Promises

variable (c : Call τ ε) (s : State τ ρ ε)

/-- In collect mode every item is attempted once, and every failure is reported. -/
def CollectsAll : Prop :=
  s.calls = List.range c.items.length ∧ (s.settled.map (·.1)).Perm (List.range c.items.length) ∧
    c.outcome s =
      some (.ok ⟨(List.range c.items.length).filterMap s.resultOf, s.settled.filterMap c.failureOf⟩)

/-- In fail-fast mode the call resolves if and only if no attempted item failed, and a resolved
call has one result for each item. -/
def HidesNoFailure : Prop :=
  ((∃ r, c.outcome s = some (.ok r)) ↔ s.failures = []) ∧
    ∀ r, c.outcome s = some (.ok r) →
      r.ok.map some = (List.range c.items.length).map s.resultOf ∧ r.errors = []

variable {c s}

theorem collectsAll_of_idle (h : c.Reached s) (hc : 1 ≤ c.concurrency)
    (hmode : c.onError = .collect)
    (hidle : s.inFlight = []) : CollectsAll c s := by
  have hinv := (staffed_of_reached h).inv
  have hall : c.items.length ≤ s.nextIndex := by
    rcases exhausted_of_idle h hc hidle with hall | ⟨hfast, -⟩
    · exact hall
    · rw [hmode] at hfast
      cases hfast
  have hcalls := hinv.calls_of_le hall
  refine ⟨hcalls, ?_, ?_⟩
  · rw [← hcalls]
    exact hinv.settled_perm hidle
  · unfold Call.outcome
    rw [if_neg (by simp [hidle]), if_neg (by simp [hmode]), hinv.result, hinv.errors, if_pos hmode]

theorem resultOf_isSome (h : c.Reached s) (hc : 1 ≤ c.concurrency) (hidle : s.inFlight = [])
    (hnone : s.failures = []) {i : ℕ} (hi : i < c.items.length) : (s.resultOf i).isSome := by
  have hinv := (staffed_of_reached h).inv
  have hall : c.items.length ≤ s.nextIndex := by
    rcases exhausted_of_idle h hc hidle with hall | ⟨-, hfailed⟩
    · exact hall
    · exact absurd hnone hfailed
  have hmem : i ∈ s.settled.map (·.1) := by
    rw [(hinv.settled_perm hidle).mem_iff, hinv.calls_of_le hall]
    exact List.mem_range.mpr hi
  obtain ⟨⟨j, o⟩, hentry, rfl⟩ := List.mem_map.mp hmem
  cases o with
  | ok v =>
      rw [← okSparse_eq hinv, (hinv.ok j v).mpr hentry]
      rfl
  | error err =>
      have hfailure : err ∈ s.failures := mem_failures.mpr ⟨j, hentry⟩
      rw [hnone] at hfailure
      cases hfailure

/-- The slot of the first error is empty when every failure was with `null`, and only then. -/
theorem hidesNoFailure_iff (h : c.Reached s) (hc : 1 ≤ c.concurrency)
    (hmode : c.onError = .failFast)
    (hidle : s.inFlight = []) :
    HidesNoFailure c s ↔ (s.failures = [] ∨ ∃ err ∈ s.failures, err ≠ none) := by
  have hinv := (staffed_of_reached h).inv
  have hslot := hinv.slot hmode
  have herrors := hinv.errors
  rw [if_neg (by simp [hmode])] at herrors
  have houtcome : c.outcome s = match s.failFastError with
      | some err => some (.error err)
      | none => some (.ok ⟨(List.range c.items.length).filterMap s.resultOf, []⟩) := by
    unfold Call.outcome
    rw [if_neg (by simp [hidle]), if_pos hmode, hinv.result, herrors]
  unfold HidesNoFailure
  rw [houtcome]
  cases hfirst : s.failFastError with
  | some err =>
      have hexists : ∃ err ∈ s.failures, err ≠ none := by
        by_contra hnulls
        push Not at hnulls
        have hempty := hslot.mpr hnulls
        rw [hfirst] at hempty
        cases hempty
      refine iff_of_true ⟨iff_of_false ?_ ?_, ?_⟩ (.inr hexists)
      · rintro ⟨r, hr⟩
        cases hr
      · obtain ⟨err, hmem, -⟩ := hexists
        exact List.ne_nil_of_mem hmem
      · intro r hr
        cases hr
  | none =>
      have hnulls := hslot.mp hfirst
      constructor
      · rintro ⟨hresolves, -⟩
        exact .inl (hresolves.mp ⟨_, rfl⟩)
      · rintro (hnone | ⟨err, hmem, hsome⟩)
        · refine ⟨iff_of_true ⟨_, rfl⟩ hnone, ?_⟩
          rintro r hr
          cases hr
          refine ⟨?_, rfl⟩
          rw [List.map_filterMap_some_eq_filter_map_isSome, List.filter_eq_self]
          intro o ho
          obtain ⟨i, hi, rfl⟩ := List.mem_map.mp ho
          exact resultOf_isSome h hc hidle hnone (List.mem_range.mp hi)
        · exact absurd (hnulls err hmem) hsome

/-- In every run no more items are awaited than the bound allows, no item is attempted twice, and
the call ends only when all it started has settled. A finished call in collect mode reports
everything. One in fail-fast mode hides no failure unless every failure was with `null`. -/
theorem finished_call_is_complete_iff (hc : 1 ≤ c.concurrency) (hrun : c.Reached s) :
    s.inFlight.length ≤ c.concurrency ∧ s.calls.Nodup ∧
      (c.outcome s ≠ none → (s.settled.map (·.1)).Perm s.calls) ∧
      (s.inFlight = [] →
        (c.onError = .collect → CollectsAll c s) ∧
        (c.onError = .failFast →
          (HidesNoFailure c s ↔ (s.failures = [] ∨ ∃ err ∈ s.failures, err ≠ none)))) := by
  have hstaffed := staffed_of_reached hrun
  refine ⟨hstaffed.bounded.trans (min_le_left _ _), ?_, ?_, ?_⟩
  · rw [hstaffed.inv.calls]
    exact List.nodup_range
  · intro hends
    have hidle : s.inFlight = [] := by
      by_contra hawaits
      unfold Call.outcome at hends
      rw [if_pos hawaits] at hends
      exact hends rfl
    exact hstaffed.inv.settled_perm hidle
  · intro hidle
    exact ⟨fun hmode => collectsAll_of_idle hrun hc hmode hidle,
      fun hmode => hidesNoFailure_iff hrun hc hmode hidle⟩

end Promises

/-- Two windows to fetch one after the other. -/
def fetchTwo : Call String String where
  items := ["BTCUSDT", "ETHUSDT"]
  concurrency := 1
  onError := .failFast
  throws := fun _ => none

/-- The first window arrives and the second fetch times out. -/
def secondTimesOut : State String String String where
  nextIndex := 2
  inFlight := []
  okSparse := Function.update (fun _ => none) 0 (some "window")
  errors := []
  failFastError := some "timeout"
  calls := [0, 1]
  settled := [(0, .ok "window"), (1, .error (some "timeout"))]

theorem reached_secondTimesOut : fetchTwo.Reached secondTimesOut :=
  @reach_of_run _ _ _ _ _ _ (fun _ _ => true) (fun _ _ _ => trivial)
    [(0, .ok "window"), (1, .error (some "timeout"))] rfl

theorem timeout_rejects :
    HidesNoFailure fetchTwo secondTimesOut ∧
      fetchTwo.outcome secondTimesOut = some (.error "timeout") :=
  ⟨(((finished_call_is_complete_iff (by decide) reached_secondTimesOut).2.2.2 rfl).2 rfl).mpr
    (.inr ⟨some "timeout", List.mem_singleton_self _, by decide⟩), rfl⟩

/-- The first fetch rejects with `null`. -/
def firstRejectsNull : State String String String where
  nextIndex := 1
  inFlight := []
  okSparse := fun _ => none
  errors := []
  failFastError := none
  calls := [0]
  settled := [(0, .error none)]

/-- The call resolves with no window at all, and the second was never fetched. -/
theorem null_rejection_resolves :
    fetchTwo.Reached firstRejectsNull ∧
      fetchTwo.outcome firstRejectsNull = some (.ok ⟨[], []⟩) ∧
      firstRejectsNull.failures = [none] ∧ firstRejectsNull.calls = [0] ∧
      ¬ HidesNoFailure fetchTwo firstRejectsNull := by
  have hreached : fetchTwo.Reached firstRejectsNull :=
    @reach_of_run _ _ _ _ _ _ (fun _ _ => true) (fun _ _ _ => trivial) [(0, .error none)] rfl
  refine ⟨hreached, rfl, rfl, rfl, ?_⟩
  rintro ⟨hresolves, -⟩
  cases hresolves.mp ⟨_, rfl⟩

end TradingBot.Core.FanOut
