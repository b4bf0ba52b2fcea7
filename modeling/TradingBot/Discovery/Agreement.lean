import TradingBot.Discovery.Explain
import Mathlib.Data.List.TakeWhile

/-!
# The explanation agrees with the decision

The labels are derived from sets while the decision was made in one ordered
loop. They agree because every set a label reads is one the loop wrote: the
diff, the reasons, and an eligibility that is computed per candidate but over the
same stages.
-/

namespace TradingBot.Discovery

open Decimal GreedyFill

/-! ### Why the loop skipped a symbol -/

namespace ResolveInput

variable {env : Environment} {i : ResolveInput} {s : String}

/-- What the loop saw when it skipped a candidate beside the adds made so far. -/
def Skips (env : Environment) (i : ResolveInput) (add : List String) (s : String) :
    DiscoverySkipReason → Prop
  | .slotCapped => i.availableSlots env ≤ add.length
  | .cooldown => add.length < i.availableSlots env ∧
      inCooldown (i.lastFlattenAtMsBySymbol s) i.cfg i.nowMs = true
  | .correlationHigh => add.length < i.availableSlots env ∧
      inCooldown (i.lastFlattenAtMsBySymbol s) i.cfg i.nowMs = false ∧
      i.correlated env add s = true

theorem traceAdd_add (env : Environment) (i : ResolveInput) (trace : AddTrace) (s : String) :
    (i.traceAdd env trace s).add = i.considerAdd env trace.add s := by
  unfold traceAdd considerAdd
  repeat' split
  all_goals rfl

theorem foldl_traceAdd_add (l : List String) (trace : AddTrace) :
    (l.foldl (i.traceAdd env) trace).add = l.foldl (i.considerAdd env) trace.add := by
  induction l generalizing trace with
  | nil => rfl
  | cons s rest ih => rw [List.foldl_cons, List.foldl_cons, ih, traceAdd_add]

theorem skipReasons_traceAdd_of_ne {trace : AddTrace} {a : String} (h : s ≠ a) :
    (i.traceAdd env trace a).skipReasons s = trace.skipReasons s := by
  unfold traceAdd AddTrace.skip
  repeat' split
  all_goals first | rfl | exact Function.update_of_ne h _ _

theorem skipReasons_foldl_of_notMem {l : List String} (h : s ∉ l) (trace : AddTrace) :
    (l.foldl (i.traceAdd env) trace).skipReasons s = trace.skipReasons s := by
  induction l generalizing trace with
  | nil => rfl
  | cons a rest ih =>
      obtain ⟨hne, hrest⟩ := List.ne_and_not_mem_of_not_mem_cons h
      rw [List.foldl_cons, ih hrest, skipReasons_traceAdd_of_ne hne]

/-- A candidate that could have been added and was not left the reason the loop had. -/
theorem skipReasons_of_not_add (hnodup : (i.eligible env).Nodup) (h : s ∈ i.eligible env)
    (hcurrent : s ∉ i.currentSet) (hpinned : s ∉ i.pinnedMembers) (hblocked : s ∉ i.overlay.blocked)
    (hadd : s ∉ i.add env) :
    ∃ reason before after, i.skipReasons env s = some reason ∧
      i.eligible env = before ++ s :: after ∧
      i.Skips env (before.foldl (i.considerAdd env) []) s reason := by
  obtain ⟨before, after, hsplit⟩ := List.append_of_mem h
  have hlater : s ∉ after := by
    rw [hsplit] at hnodup
    exact (List.nodup_cons.mp (List.nodup_append.mp hnodup).2.1).1
  set trace := before.foldl (i.traceAdd env) ⟨[], fun _ => none⟩ with htrace
  have hreason : i.skipReasons env s = (i.traceAdd env trace s).skipReasons s := by
    unfold skipReasons
    rw [hsplit, List.foldl_append, List.foldl_cons, skipReasons_foldl_of_notMem hlater]
  have hsofar : trace.add = before.foldl (i.considerAdd env) [] := foldl_traceAdd_add before _
  have hskips : ∃ reason, i.skipReasons env s = some reason ∧ i.Skips env trace.add s reason := by
    rw [hreason]
    unfold traceAdd
    simp only [List.contains_eq_mem, hcurrent, hpinned, hblocked, decide_false, Bool.false_eq_true,
      if_false]
    split
    · next hslots => exact ⟨.slotCapped, Function.update_self _ _ _, hslots⟩
    · next hslots =>
        split
        · next hcool => exact ⟨.cooldown, Function.update_self _ _ _, not_le.mp hslots, hcool⟩
        · next hcool =>
            split
            · next hcorr =>
                exact ⟨.correlationHigh, Function.update_self _ _ _, not_le.mp hslots,
                  Bool.eq_false_iff.mpr hcool, hcorr⟩
            · next hcorr =>
                -- nothing stood in its way, so the loop added it and never took it back
                have hadmits : i.considerAdd env trace.add s = trace.add ++ [s] := by
                  have hopen : i.admits env trace.add s = true := by
                    simp [admits, hcurrent, hpinned, hblocked, hcool, hcorr]
                  rw [considerAdd_eq, if_pos ⟨not_le.mp hslots, hopen⟩]
                have hadded : s ∈ i.add env := by
                  unfold add
                  rw [hsplit, List.foldl_append, List.foldl_cons, ← hsofar, hadmits,
                    foldl_considerAdd]
                  obtain ⟨extra, hextra, -⟩ := fill_eq_append (i.admits env)
                    (i.availableSlots env) (trace.add ++ [s]) after
                  rw [hextra]
                  simp
                exact absurd hadded hadd
  obtain ⟨reason, hsome, hsaw⟩ := hskips
  rw [hsofar] at hsaw
  exact ⟨reason, before, after, hsome, hsplit, hsaw⟩

theorem add_not_pinned (h : s ∈ i.add env) : s ∉ i.pinnedMembers := by
  obtain ⟨among, hadmit⟩ := (add_spec env i).2 s h
  simp only [admits, Bool.and_eq_true, Bool.not_eq_true', List.contains_eq_mem,
    decide_eq_false_iff_not] at hadmit
  exact hadmit.1.1.1.2

/-! ### The desired set -/

theorem mem_eligible_of_desired (h : s ∈ i.desired env) (hcurrent : s ∉ i.currentSet) :
    s ∈ i.add env := by
  rcases List.mem_append.mp h with h | h
  · obtain ⟨-, hin⟩ := List.mem_filter.mp h
    rw [Bool.or_eq_true, List.contains_eq_mem, List.contains_eq_mem, decide_eq_true_iff,
      decide_eq_true_iff] at hin
    exact hin.resolve_left hcurrent
  · obtain ⟨c, hc, rfl⟩ := List.mem_map.mp h
    exact absurd (List.mem_map_of_mem (List.mem_of_mem_filter (List.mem_of_mem_filter hc))) hcurrent

theorem desired_of_add (h : s ∈ i.add env) : s ∈ i.desired env := by
  refine List.mem_append_left _ (List.mem_filter.mpr ⟨(mem_add h).1, ?_⟩)
  simp [h]

/-- A current symbol is desired where it stays and still qualifies or can still be traded. -/
theorem mem_desired_current (h : s ∈ i.currentSet) :
    s ∈ i.desired env ↔ s ∉ i.remove env ∧
      (s ∈ i.eligible env ∨ s ∈ i.overlay.keepable) := by
  constructor
  · intro hdesired
    rcases List.mem_append.mp hdesired with hdesired | hdesired
    · have heligible := List.mem_of_mem_filter hdesired
      exact ⟨eligible_not_removed heligible, .inl heligible⟩
    · obtain ⟨c, hc, rfl⟩ := List.mem_map.mp hdesired
      obtain ⟨hc, hstays⟩ := List.mem_filter.mp hc
      obtain ⟨-, hfaded⟩ := List.mem_filter.mp hc
      rw [Bool.and_eq_true] at hfaded
      have hkeep : c.symbol ∈ i.overlay.keepable := by
        simpa [isKeepable] using hfaded.2
      refine ⟨?_, .inr hkeep⟩
      intro hremove
      rcases List.mem_append.mp hremove with hreaped | hevicted
      · obtain ⟨c', -, hsymbol, -, -, hnot⟩ := mem_reaped.mp hreaped
        rw [isKeepable, hsymbol, List.contains_eq_mem, decide_eq_false_iff_not] at hnot
        exact hnot hkeep
      · simp only [List.contains_eq_mem, Bool.not_eq_true', decide_eq_false_iff_not] at hstays
        exact hstays hevicted
  · rintro ⟨hremove, hkeeps⟩
    by_cases heligible : s ∈ i.eligible env
    · refine List.mem_append_left _ (List.mem_filter.mpr ⟨heligible, ?_⟩)
      simp [h]
    · have hkeep := hkeeps.resolve_left heligible
      obtain ⟨c, hc, rfl⟩ := List.mem_map.mp h
      refine List.mem_append_right _ (List.mem_map_of_mem (List.mem_filter.mpr
        ⟨List.mem_filter.mpr ⟨hc, ?_⟩, ?_⟩))
      · simp [isEligible, isKeepable, heligible, hkeep]
      · simp only [List.contains_eq_mem, Bool.not_eq_true', decide_eq_false_iff_not]
        exact fun hevicted => hremove (List.mem_append_right _ hevicted)

end ResolveInput

/-! ### Eligible by the walk, eligible by the shortlist -/

section Walk

variable {env : Environment} {tickers : List DiscoveryTicker} {cfg : DiscoveryConfig} {s : String}

/-- The walk ends without a failure exactly where every filter passes. -/
theorem evalFilters_eq_none {t : DiscoveryTicker} {klines : List DiscoveryCandle}
    {ctx : RankContext} {nowMs : ℤ} :
    (evalFilters env t klines cfg ctx nowMs).2.isNone = true ↔
      (tickerStageChain.all fun stage => stage.2 t cfg ctx) = true ∧
        oldEnough klines cfg nowMs = true ∧ trendConfirmed env klines cfg = true := by
  unfold evalFilters filterChecks
  rw [Option.isNone_map, Option.isNone_iff_eq_none, List.find?_eq_none, List.forall_mem_append,
    List.forall_mem_map, List.all_eq_true]
  simp

theorem tickerOf_eq_some (h : (tickers.map (·.symbol)).Nodup) {t : DiscoveryTicker} :
    tickerOf tickers s = some t ↔ t ∈ tickers ∧ t.symbol = s := by
  have hunique : ∀ a ∈ tickers.filter (·.symbol = s),
      ∀ b ∈ tickers.filter (·.symbol = s), a = b := by
    intro a ha b hb
    rw [List.mem_filter, decide_eq_true_iff] at ha hb
    exact List.inj_on_of_nodup_map h ha.1 hb.1 (ha.2.trans hb.2.symm)
  have hmem : t ∈ tickers.filter (·.symbol = s) ↔ t ∈ tickers ∧ t.symbol = s := by
    rw [List.mem_filter, decide_eq_true_iff]
  unfold tickerOf
  rw [← hmem]
  constructor
  · exact List.mem_of_getLast?
  · intro ht
    cases hlast : (tickers.filter (·.symbol = s)).getLast? with
    | none => rw [List.getLast?_eq_none_iff.mp hlast] at ht; cases ht
    | some last => exact congrArg some (hunique _ (List.mem_of_getLast? hlast) t ht)

theorem mem_shortlist : s ∈ shortlistByTicker env tickers cfg ↔ ∃ t ∈ tickers, t.symbol = s ∧
    (tickerStageChain.all fun stage => stage.2 t cfg (buildRankContext env tickers cfg)) =
      true := by
  unfold shortlistByTicker
  rw [List.mem_map]
  simp only [(perm_sortByGain env _).mem_iff, List.mem_filter]
  constructor
  · rintro ⟨t, ⟨ht, hall⟩, rfl⟩
    exact ⟨t, ht, rfl, hall⟩
  · rintro ⟨t, ht, rfl, hall⟩
    exact ⟨t, ⟨ht, hall⟩, rfl⟩

end Walk

section Candidates

variable {env : Environment} {input : DiscoveryInput}
  {conflicts : List (String × SiblingConflictDisposition)} {unremovable : List String} {s : String}

/-- The walk of a symbol's ticker, where the feed has one. -/
def walkOf (env : Environment) (input : DiscoveryInput) (s : String) :
    Option (List DiscoveryFilterName × Option DiscoveryFilterName) :=
  (tickerOf input.tickers s).map fun t =>
    evalFilters env t ((input.klinesBySymbol s).getD []) input.config
      (buildRankContext env input.tickers input.config) input.nowMs

/-- A candidate qualifies by its own walk exactly where the resolution takes it as eligible. -/
theorem walkOf_eligible (h : (input.tickers.map (·.symbol)).Nodup) :
    (walkOf env input s).any (·.2.isNone) = true ↔
      s ∈ (input.explained env conflicts unremovable).eligible env := by
  unfold walkOf ResolveInput.eligible
  rw [Option.any_map, List.mem_filter, Bool.and_eq_true, Option.any_eq_true]
  constructor
  · rintro ⟨t, ht, hwalk⟩
    obtain ⟨hmem, rfl⟩ := (tickerOf_eq_some h).mp ht
    obtain ⟨hall, hold, htrend⟩ := evalFilters_eq_none.mp hwalk
    exact ⟨mem_shortlist.mpr ⟨t, hmem, rfl, hall⟩, hold, htrend⟩
  · rintro ⟨hshort, hold, htrend⟩
    obtain ⟨t, hmem, rfl, hall⟩ := mem_shortlist.mp hshort
    exact ⟨t, (tickerOf_eq_some h).mpr ⟨hmem, rfl⟩, evalFilters_eq_none.mpr ⟨hall, hold, htrend⟩⟩

theorem mem_candidateSymbols :
    s ∈ candidateSymbols env input conflicts unremovable ↔
      (s ∈ shortlistByTicker env input.tickers input.config ∨
        s ∈ input.currentAuto.map (·.symbol)) ∧ s ∉ input.pinnedMembers := by
  unfold candidateSymbols
  rw [List.mem_filter, List.mem_eraseDups, List.mem_append]
  simp only [List.contains_eq_mem, Bool.not_eq_true', decide_eq_false_iff_not]
  exact Iff.rfl

theorem perm_candidates : (explainDiscovery env input conflicts unremovable).candidates.Perm
    ((candidateSymbols env input conflicts unremovable).map
      (explainCandidate env input conflicts unremovable)) := by
  unfold explainDiscovery sortCandidates
  dsimp only
  refine ((List.perm_insertionSort _ _).append (List.perm_insertionSort _ _)).trans ?_
  have hnone : ∀ c : CandidateExplain, c.gainerScore.isNone = !c.gainerScore.isSome := by
    intro c
    cases c.gainerScore <;> rfl
  simp only [hnone]
  exact List.filter_append_perm _ _

def DiscoveryExplain.Labelled (e : DiscoveryExplain) (d : DiscoveryDisposition)
    (s : String) : Prop :=
  ∃ c ∈ e.candidates, c.symbol = s ∧ c.disposition = d

theorem labelled_iff {d : DiscoveryDisposition} :
    (explainDiscovery env input conflicts unremovable).Labelled d s ↔
      s ∈ candidateSymbols env input conflicts unremovable ∧
        (explainCandidate env input conflicts unremovable s).disposition = d := by
  unfold DiscoveryExplain.Labelled
  simp only [perm_candidates.mem_iff, List.mem_map]
  constructor
  · rintro ⟨_, ⟨a, ha, rfl⟩, rfl, hd⟩
    exact ⟨ha, hd⟩
  · rintro ⟨hs, hd⟩
    exact ⟨_, ⟨s, hs, rfl⟩, rfl, hd⟩

end Candidates

/-! ### The labels -/

section Labels

variable {env : Environment} {input : DiscoveryInput}
  {conflicts : List (String × SiblingConflictDisposition)} {unremovable : List String} {s : String}

theorem lookup_eq_none_iff_notMem :
    conflicts.lookup s = none ↔ s ∉ conflicts.map (·.1) := by
  simp only [List.lookup_eq_none_iff, List.mem_map, not_exists, not_and, bne_iff_ne, ne_eq]
  exact ⟨fun h entry hmem heq => h entry hmem heq.symm,
    fun h entry hmem heq => h entry hmem heq.symm⟩

/-- What a label is read from, over the sets of the resolution. -/
theorem disposition_eq (htickers : (input.tickers.map (·.symbol)).Nodup) :
    (explainCandidate env input conflicts unremovable s).disposition =
      dispositionOf
        { eligible := decide (s ∈ (input.explained env conflicts unremovable).eligible env)
          keeps := decide (s ∈ (input.explained env conflicts unremovable).eligible env ∨
            s ∈ (input.explained env conflicts unremovable).overlay.keepable)
          inCurrent := decide (s ∈ (input.explained env conflicts unremovable).currentSet)
          inAdd := decide (s ∈ (input.explained env conflicts unremovable).add env)
          inRemove := decide (s ∈ (input.explained env conflicts unremovable).remove env)
          notAddedReason :=
            ((input.explained env conflicts unremovable).skipReasons env s).getD .slotCapped
          siblingConflict := conflicts.lookup s } := by
  have heligible : (walkOf env input s).any (·.2.isNone) =
      decide (s ∈ (input.explained env conflicts unremovable).eligible env) := by
    rw [Bool.eq_iff_iff, walkOf_eligible htickers, decide_eq_true_iff]
  have hkeeps : ((walkOf env input s).any (·.2.isNone) ||
      (input.explained env conflicts unremovable).overlay.keepable.contains s) =
        decide (s ∈ (input.explained env conflicts unremovable).eligible env ∨
          s ∈ (input.explained env conflicts unremovable).overlay.keepable) := by
    rw [heligible, List.contains_eq_mem, Bool.decide_or]
  rw [← hkeeps, ← heligible]
  simp only [← List.contains_eq_mem]
  rfl

theorem disposition_current (htickers : (input.tickers.map (·.symbol)).Nodup)
    (hconflicts : ∀ s ∈ conflicts.map (·.1), s ∉ input.currentAuto.map (·.symbol))
    (h : s ∈ input.currentAuto.map (·.symbol)) :
    (explainCandidate env input conflicts unremovable s).disposition =
      if s ∈ (input.explained env conflicts unremovable).remove env then .fadedRemoved
      else if s ∈ (input.explained env conflicts unremovable).desired env then .kept
      else .fadedHeld := by
  have hconflict : conflicts.lookup s = none :=
    lookup_eq_none_iff_notMem.mpr fun hmem => hconflicts s hmem h
  have hcurrent : s ∈ (input.explained env conflicts unremovable).currentSet := h
  have hadd : s ∉ (input.explained env conflicts unremovable).add env :=
    fun hadd => (ResolveInput.mem_add hadd).2.1 h
  have hdesired := @ResolveInput.mem_desired_current env _ s hcurrent
  rw [disposition_eq htickers]
  unfold dispositionOf
  simp only [hconflict, hcurrent, hadd, decide_false, decide_true, Bool.false_eq_true, if_false,
    if_true, decide_eq_true_eq]
  by_cases hremove : s ∈ (input.explained env conflicts unremovable).remove env
  · rw [if_pos hremove, if_pos hremove]
  · rw [if_neg hremove, if_neg hremove]
    exact if_congr (hdesired.trans (and_iff_right hremove)).symm rfl rfl

/-- The label of a symbol that is not current: a conflict comes first, then what the loop did. -/
theorem disposition_candidate (htickers : (input.tickers.map (·.symbol)).Nodup)
    (h : s ∉ input.currentAuto.map (·.symbol)) :
    (explainCandidate env input conflicts unremovable s).disposition =
      match conflicts.lookup s with
      | some verdict => .conflict verdict
      | none =>
          if s ∈ (input.explained env conflicts unremovable).add env then .added
          else if s ∈ (input.explained env conflicts unremovable).eligible env then
            .skipped
              (((input.explained env conflicts unremovable).skipReasons env s).getD .slotCapped)
          else .rejected := by
  have hcurrent : s ∉ (input.explained env conflicts unremovable).currentSet := h
  have hremove : s ∉ (input.explained env conflicts unremovable).remove env :=
    fun hremove => h (ResolveInput.remove_subset env _ hremove)
  rw [disposition_eq htickers]
  unfold dispositionOf
  cases conflicts.lookup s with
  | some verdict => rfl
  | none =>
      simp only [hcurrent, hremove, decide_false, Bool.false_eq_true, if_false, decide_eq_true_eq,
        Bool.not_eq_true', decide_eq_false_iff_not]
      split
      · rfl
      · rw [ite_not]

theorem candidate_of_current
    (hpins : ∀ s ∈ input.pinnedMembers, s ∉ input.currentAuto.map (·.symbol))
    (h : s ∈ input.currentAuto.map (·.symbol)) :
    s ∈ candidateSymbols env input conflicts unremovable :=
  mem_candidateSymbols.mpr ⟨.inr h, fun hpinned => hpins s hpinned h⟩

theorem candidate_of_add (h : s ∈ (input.explained env conflicts unremovable).add env) :
    s ∈ candidateSymbols env input conflicts unremovable ∧ conflicts.lookup s = none := by
  obtain ⟨heligible, -, hblocked, -⟩ := ResolveInput.mem_add h
  exact ⟨mem_candidateSymbols.mpr
    ⟨.inl (List.mem_of_mem_filter heligible), ResolveInput.add_not_pinned h⟩,
    lookup_eq_none_iff_notMem.mpr hblocked⟩

/-- The labels, against the sets of the diff. -/
structure LabelsAgree (env : Environment) (input : DiscoveryInput)
    (conflicts : List (String × SiblingConflictDisposition)) (unremovable : List String) :
    Prop where
  added : ∀ s, (explainDiscovery env input conflicts unremovable).Labelled .added s ↔
    s ∈ (explainDiscovery env input conflicts unremovable).diff.add
  removed : ∀ s, (explainDiscovery env input conflicts unremovable).Labelled .fadedRemoved s ↔
    s ∈ (explainDiscovery env input conflicts unremovable).diff.remove
  desired : ∀ s, (explainDiscovery env input conflicts unremovable).Labelled .kept s ∨
      (explainDiscovery env input conflicts unremovable).Labelled .added s ↔
    s ∈ (explainDiscovery env input conflicts unremovable).diff.desired
  bound : ∀ s, (explainDiscovery env input conflicts unremovable).Labelled .kept s ∨
      (explainDiscovery env input conflicts unremovable).Labelled .fadedHeld s ↔
    s ∈ input.currentAuto.map (·.symbol) ∧
      s ∉ (explainDiscovery env input conflicts unremovable).diff.remove

theorem labelsAgree (htickers : (input.tickers.map (·.symbol)).Nodup)
    (hpins : ∀ s ∈ input.pinnedMembers, s ∉ input.currentAuto.map (·.symbol))
    (hconflicts : ∀ s ∈ conflicts.map (·.1), s ∉ input.currentAuto.map (·.symbol)) :
    LabelsAgree env input conflicts unremovable := by
  have hadded : ∀ s, (explainDiscovery env input conflicts unremovable).Labelled .added s ↔
      s ∈ (input.explained env conflicts unremovable).add env := by
    intro s
    rw [labelled_iff]
    constructor
    · rintro ⟨-, hlabel⟩
      by_cases hcurrent : s ∈ input.currentAuto.map (·.symbol)
      · rw [disposition_current htickers hconflicts hcurrent] at hlabel
        split at hlabel
        · cases hlabel
        · split at hlabel <;> cases hlabel
      · rw [disposition_candidate htickers hcurrent] at hlabel
        split at hlabel
        · cases hlabel
        · split at hlabel
          · next hadd => exact hadd
          · split at hlabel <;> cases hlabel
    · intro hadd
      obtain ⟨hcandidate, hlookup⟩ := candidate_of_add hadd
      refine ⟨hcandidate, ?_⟩
      rw [disposition_candidate htickers (ResolveInput.mem_add hadd).2.1, hlookup]
      exact if_pos hadd
  have hfresh : ∀ {d : DiscoveryDisposition} {s : String}, s ∉ input.currentAuto.map (·.symbol) →
      (explainDiscovery env input conflicts unremovable).Labelled d s →
        d ≠ .fadedRemoved ∧ d ≠ .kept ∧ d ≠ .fadedHeld := by
    intro d s hs hlabel
    obtain ⟨-, rfl⟩ := labelled_iff.mp hlabel
    rw [disposition_candidate htickers hs]
    split
    · exact ⟨nofun, nofun, nofun⟩
    · split
      · exact ⟨nofun, nofun, nofun⟩
      · split <;> exact ⟨nofun, nofun, nofun⟩
  have hcurrent : ∀ {s : String}, s ∈ input.currentAuto.map (·.symbol) → ∀ d,
      (explainDiscovery env input conflicts unremovable).Labelled d s ↔
        (if s ∈ (input.explained env conflicts unremovable).remove env then .fadedRemoved
          else if s ∈ (input.explained env conflicts unremovable).desired env then .kept
          else .fadedHeld) = d := by
    intro s hs d
    rw [labelled_iff, disposition_current htickers hconflicts hs]
    exact and_iff_right (candidate_of_current hpins hs)
  refine ⟨hadded, ?_, ?_, ?_⟩
  · intro s
    change _ ↔ s ∈ (input.explained env conflicts unremovable).remove env
    by_cases hs : s ∈ input.currentAuto.map (·.symbol)
    · rw [hcurrent hs]
      by_cases hremove : s ∈ (input.explained env conflicts unremovable).remove env
      · simp [hremove]
      · rw [if_neg hremove]
        refine iff_of_false ?_ hremove
        split <;> nofun
    · exact iff_of_false (fun hlabel => (hfresh hs hlabel).1 rfl)
        fun hremove => hs (ResolveInput.remove_subset env _ hremove)
  · intro s
    change _ ↔ s ∈ (input.explained env conflicts unremovable).desired env
    by_cases hs : s ∈ input.currentAuto.map (·.symbol)
    · have hnew : ¬(explainDiscovery env input conflicts unremovable).Labelled .added s :=
        fun hlabel => (ResolveInput.mem_add ((hadded s).mp hlabel)).2.1 hs
      rw [or_iff_left hnew, hcurrent hs]
      by_cases hdesired : s ∈ (input.explained env conflicts unremovable).desired env
      · rw [if_neg ((ResolveInput.mem_desired_current hs).mp hdesired).1, if_pos hdesired]
        exact iff_of_true rfl hdesired
      · rw [if_neg hdesired]
        refine iff_of_false ?_ hdesired
        split <;> nofun
    · rw [or_iff_right fun hlabel => (hfresh hs hlabel).2.1 rfl, hadded]
      exact ⟨ResolveInput.desired_of_add, fun hdesired =>
        ResolveInput.mem_eligible_of_desired hdesired hs⟩
  · intro s
    change _ ↔ _ ∧ s ∉ (input.explained env conflicts unremovable).remove env
    by_cases hs : s ∈ input.currentAuto.map (·.symbol)
    · rw [hcurrent hs, hcurrent hs]
      by_cases hremove : s ∈ (input.explained env conflicts unremovable).remove env
      · simp [hremove]
      · rw [if_neg hremove]
        refine iff_of_true ?_ ⟨hs, hremove⟩
        split
        · exact .inl rfl
        · exact .inr rfl
    · refine iff_of_false ?_ fun h => hs h.1
      rintro (hlabel | hlabel)
      · exact (hfresh hs hlabel).2.1 rfl
      · exact (hfresh hs hlabel).2.2 rfl

end Labels

/-! ### The reasons -/

section Reasons

variable {env : Environment} {input : DiscoveryInput}
  {conflicts : List (String × SiblingConflictDisposition)} {unremovable : List String} {s : String}

/-- A candidate that passed every filter of the walk. -/
def CandidateExplain.Eligible (c : CandidateExplain) : Prop :=
  c.failedAt = none ∧ c.passed = filterStages

theorem evalFilters_passed {t : DiscoveryTicker} {klines : List DiscoveryCandle}
    {cfg : DiscoveryConfig} {ctx : RankContext} {nowMs : ℤ}
    (h : (evalFilters env t klines cfg ctx nowMs).2 = none) :
    (evalFilters env t klines cfg ctx nowMs).1 = filterStages := by
  unfold evalFilters at h ⊢
  have hall : ∀ check ∈ filterChecks env t klines cfg ctx nowMs, check.2 = true := by
    intro check hcheck
    simpa using List.find?_eq_none.mp (Option.map_eq_none_iff.mp h) check hcheck
  dsimp only
  rw [List.takeWhile_eq_self_iff.mpr hall]
  rfl

/-- A candidate's row says that it passed everything exactly where the resolution takes it. -/
theorem eligible_explainCandidate (htickers : (input.tickers.map (·.symbol)).Nodup) :
    (explainCandidate env input conflicts unremovable s).Eligible ↔
      s ∈ (input.explained env conflicts unremovable).eligible env := by
  rw [← walkOf_eligible htickers]
  change (walkOf env input s).bind (·.2) = none ∧ ((walkOf env input s).map (·.1)).getD [] = _ ↔ _
  unfold walkOf
  cases tickerOf input.tickers s with
  | none =>
      refine iff_of_false ?_ (by simp)
      rintro ⟨-, hpassed⟩
      cases hpassed
  | some t =>
      rw [Option.map_some, Option.bind_some, Option.map_some, Option.getD_some, Option.any_some,
        Option.isNone_iff_eq_none]
      exact ⟨fun h => h.1, fun h => ⟨h, evalFilters_passed h⟩⟩

/-- Why a candidate that passed everything is not in the set. -/
inductive Declined (env : Environment) (i : ResolveInput)
    (conflicts : List (String × SiblingConflictDisposition)) (s : String) :
    DiscoveryDisposition → Prop
  | conflict {verdict : SiblingConflictDisposition} (h : conflicts.lookup s = some verdict) :
      Declined env i conflicts s (.conflict verdict)
  | skipped {reason : DiscoverySkipReason} {before after : List String}
      (hclear : conflicts.lookup s = none) (h : i.skipReasons env s = some reason)
      (hloop : i.eligible env = before ++ s :: after)
      (hskips : i.Skips env (before.foldl (i.considerAdd env) []) s reason) :
      Declined env i conflicts s (.skipped reason)

theorem declined_of_eligible (htickers : (input.tickers.map (·.symbol)).Nodup)
    {c : CandidateExplain} (hc : c ∈ (explainDiscovery env input conflicts unremovable).candidates)
    (heligible : c.Eligible) (hcurrent : c.symbol ∉ input.currentAuto.map (·.symbol))
    (hadd : c.symbol ∉ (explainDiscovery env input conflicts unremovable).diff.add) :
    Declined env (input.explained env conflicts unremovable) conflicts c.symbol c.disposition := by
  rw [perm_candidates.mem_iff] at hc
  obtain ⟨s, hs, rfl⟩ := List.mem_map.mp hc
  change s ∉ (input.explained env conflicts unremovable).add env at hadd
  change s ∉ input.currentAuto.map (·.symbol) at hcurrent
  change Declined env _ conflicts s _
  have hmem := (eligible_explainCandidate htickers).mp heligible
  rw [disposition_candidate htickers hcurrent]
  cases hlookup : conflicts.lookup s with
  | some verdict => exact .conflict hlookup
  | none =>
      dsimp only
      rw [if_neg hadd, if_pos hmem]
      have hnodup : ((input.explained env conflicts unremovable).eligible env).Nodup :=
        (nodup_shortlist htickers).sublist List.filter_sublist
      obtain ⟨reason, before, after, hreason, hloop, hskips⟩ :=
        ResolveInput.skipReasons_of_not_add hnodup hmem hcurrent (mem_candidateSymbols.mp hs).2
          (lookup_eq_none_iff_notMem.mp hlookup) hadd
      rw [hreason]
      exact .skipped hlookup hreason hloop hskips

end Reasons

/-! ### Counting -/

section Counting

variable {env : Environment} {input : DiscoveryInput}
  {conflicts : List (String × SiblingConflictDisposition)} {unremovable : List String}

theorem nodup_eraseDups (l : List String) : l.eraseDups.Nodup := by
  induction hlength : l.length using Nat.strong_induction_on generalizing l with
  | _ n ih =>
      cases l with
      | nil => exact List.nodup_nil
      | cons a rest =>
          rw [List.eraseDups_cons]
          refine List.nodup_cons.mpr ⟨?_, ih _ ?_ _ rfl⟩
          · rw [List.mem_eraseDups, List.mem_filter]
            simp
          · rw [← hlength, List.length_cons]
            exact Nat.lt_succ_of_le (List.length_filter_le _ _)

theorem nodup_candidates :
    ((explainDiscovery env input conflicts unremovable).candidates.map (·.symbol)).Nodup := by
  rw [(perm_candidates.map _).nodup_iff, List.map_map]
  have hid : (fun c : CandidateExplain => c.symbol) ∘
      explainCandidate env input conflicts unremovable = id := rfl
  rw [hid, List.map_id]
  exact (nodup_eraseDups _).sublist List.filter_sublist

/-- How many candidates have a label. -/
def DiscoveryExplain.count (e : DiscoveryExplain) (d : DiscoveryDisposition) : ℕ :=
  (e.candidates.filter (·.disposition = d)).length

theorem count_eq_length {d : DiscoveryDisposition} {l : List String} (hl : l.Nodup)
    (h : ∀ s, (explainDiscovery env input conflicts unremovable).Labelled d s ↔ s ∈ l) :
    (explainDiscovery env input conflicts unremovable).count d = l.length := by
  have hnodup : (((explainDiscovery env input conflicts unremovable).candidates.filter
      (·.disposition = d)).map (·.symbol)).Nodup :=
    nodup_candidates.sublist (List.filter_sublist.map _)
  have hperm : (((explainDiscovery env input conflicts unremovable).candidates.filter
      (·.disposition = d)).map (·.symbol)).Perm l := by
    refine (List.perm_ext_iff_of_nodup hnodup hl).mpr fun s => ?_
    rw [← h, List.mem_map]
    simp only [List.mem_filter, decide_eq_true_eq]
    constructor
    · rintro ⟨c, ⟨hc, hd⟩, hsymbol⟩
      exact ⟨c, hc, hsymbol, hd⟩
    · rintro ⟨c, hc, hsymbol, hd⟩
      exact ⟨c, ⟨hc, hd⟩, hsymbol⟩
  unfold DiscoveryExplain.count
  rw [← hperm.length_eq, List.length_map]

theorem nodup_desired {i : ResolveInput} (helig : (i.eligible env).Nodup)
    (hcurrent : i.currentSet.Nodup) : (i.desired env).Nodup := by
  refine List.nodup_append.mpr ⟨helig.filter _, ?_, ?_⟩
  · exact hcurrent.sublist ((List.filter_sublist.trans List.filter_sublist).map _)
  · rintro s hs _ ht rfl
    obtain ⟨c, hc, rfl⟩ := List.mem_map.mp ht
    obtain ⟨-, hfaded⟩ := List.mem_filter.mp (List.mem_of_mem_filter hc)
    rw [Bool.and_eq_true, Bool.not_eq_true', ResolveInput.isEligible, List.contains_eq_mem,
      decide_eq_false_iff_not] at hfaded
    exact hfaded.1 (List.mem_of_mem_filter hs)

theorem funnel_counts (htickers : (input.tickers.map (·.symbol)).Nodup)
    (hagree : LabelsAgree env input conflicts unremovable)
    (hcurrent : (input.currentAuto.map (·.symbol)).Nodup) (breadthOk : Bool)
    (ticker : TickerStageCounts) (probed : ℕ) :
    let e := explainDiscovery env input conflicts unremovable
    let funnel := projectFunnel e.candidates e.diff breadthOk ticker probed
    funnel.added = e.count .added ∧ funnel.kept = e.count .kept ∧
      funnel.removed = e.count .fadedRemoved := by
  intro e funnel
  have helig : ((input.explained env conflicts unremovable).eligible env).Nodup :=
    (nodup_shortlist htickers).sublist List.filter_sublist
  have hadd : e.diff.add.Nodup :=
    helig.sublist (ResolveInput.add_spec env (input.explained env conflicts unremovable)).1
  have hdesired : e.diff.desired.Nodup := nodup_desired helig hcurrent
  have hremove : e.diff.remove.Nodup :=
    @ResolveInput.nodup_remove env (input.explained env conflicts unremovable) hcurrent
  have hsplit := List.length_eq_length_filter_add (l := e.diff.desired) (e.diff.add.contains ·)
  rw [length_filter_mem hdesired hadd fun s hs => ResolveInput.desired_of_add hs] at hsplit
  have hkept : e.count .kept = (e.diff.desired.filter fun s => !e.diff.add.contains s).length := by
    refine count_eq_length (hdesired.filter _) fun s => ?_
    rw [List.mem_filter, Bool.not_eq_true', List.contains_eq_mem, decide_eq_false_iff_not,
      ← hagree.desired, ← hagree.added]
    constructor
    · intro hlabel
      refine ⟨.inl hlabel, fun hlabel' => ?_⟩
      have hboth := (labelled_iff.mp hlabel).2.symm.trans (labelled_iff.mp hlabel').2
      cases hboth
    · rintro ⟨hlabel, hnot⟩
      exact hlabel.resolve_right hnot
  refine ⟨(count_eq_length hadd hagree.added).symm, ?_,
    (count_eq_length hremove hagree.removed).symm⟩
  rw [hkept]
  change (e.diff.desired.length : ℤ) - e.diff.add.length = _
  omega

end Counting

end TradingBot.Discovery
