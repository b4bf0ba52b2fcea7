import TradingBot.Discovery.Agreement

/-!
# The funnel and the order of the feed

The stage counts narrow along the chain to the shortlist, and neither they nor
the explanation depend on the order in which the exchange listed its tickers.
-/

namespace TradingBot.Discovery

open Decimal GreedyFill

/-! ### The stage counts -/

section Counts

variable {env : Environment} {cfg : DiscoveryConfig} {ctx : RankContext}

theorem nodup_stageNames : (tickerStageChain.map (·.1)).Nodup := by decide

theorem foldl_countStage {passed : List TickerStageName} (hnodup : passed.Nodup)
    (counts : TickerStageName → ℕ) (name : TickerStageName) :
    passed.foldl countStage counts name = counts name + if name ∈ passed then 1 else 0 := by
  induction passed generalizing counts with
  | nil => rfl
  | cons first rest ih =>
      obtain ⟨hfirst, hrest⟩ := List.nodup_cons.mp hnodup
      rw [List.foldl_cons, ih hrest, countStage]
      by_cases hname : name = first
      · subst hname
        rw [Function.update_self, if_neg hfirst, if_pos List.mem_cons_self]
      · rw [Function.update_of_ne hname]
        simp only [List.mem_cons, hname, false_or]

theorem nodup_stagesPassed (t : DiscoveryTicker) : (stagesPassed t cfg ctx).Nodup :=
  nodup_stageNames.sublist ((List.takeWhile_sublist _).map _)

theorem survivors_eq (env : Environment) (tickers : List DiscoveryTicker) (cfg : DiscoveryConfig)
    (name : TickerStageName) : (tickerStageCounts env tickers cfg).survivors name =
      tickers.countP fun t =>
        (stagesPassed t cfg (buildRankContext env tickers cfg)).contains name := by
  have hfold : ∀ (l : List DiscoveryTicker) (ctx : RankContext) (counts : TickerStageName → ℕ),
      l.foldl (fun counts t => (stagesPassed t cfg ctx).foldl countStage counts) counts name =
        counts name + l.countP fun t => (stagesPassed t cfg ctx).contains name := by
    intro l ctx
    induction l with
    | nil => intro counts; rfl
    | cons t rest ih =>
        intro counts
        rw [List.foldl_cons, ih, foldl_countStage (nodup_stagesPassed t), List.countP_cons,
          List.contains_eq_mem]
        simp only [decide_eq_true_eq]
        omega
  exact (hfold tickers _ _).trans (Nat.zero_add _)

/-- Along a chain of stages, who passed a later one passed every earlier one. -/
theorem pairwise_takeWhile {τ β γ : Type} (p : τ → β × γ → Bool) {l : List (β × γ)}
    (hnodup : (l.map (·.1)).Nodup) :
    l.Pairwise fun a b => ∀ t, b.1 ∈ (l.takeWhile (p t)).map (·.1) →
      a.1 ∈ (l.takeWhile (p t)).map (·.1) := by
  induction l with
  | nil => exact List.Pairwise.nil
  | cons first rest ih =>
      obtain ⟨hfirst, hrest⟩ := List.nodup_cons.mp hnodup
      refine List.pairwise_cons.mpr ⟨?_, ?_⟩
      · intro b hb t hpassed
        rw [List.takeWhile_cons] at hpassed ⊢
        split at hpassed
        · next hp => rw [if_pos hp]; exact List.mem_cons_self
        · cases hpassed
      · refine (List.Pairwise.and_mem.mp (ih hrest)).imp ?_
        rintro a b ⟨-, hb, hab⟩ t hpassed
        rw [List.takeWhile_cons] at hpassed ⊢
        split at hpassed
        · next hp =>
            rw [if_pos hp]
            rcases List.mem_cons.mp hpassed with heq | hpassed
            · exact absurd (heq ▸ List.mem_map_of_mem hb) hfirst
            · exact List.mem_cons_of_mem _ (hab t hpassed)
        · cases hpassed

theorem counts_narrow (env : Environment) (tickers : List DiscoveryTicker) (cfg : DiscoveryConfig) :
    ((tickerStageCounts env tickers cfg).universeSize ::
      tickerStageChain.map fun stage =>
        (tickerStageCounts env tickers cfg).survivors stage.1).Pairwise (· ≥ ·) := by
  refine List.pairwise_cons.mpr ⟨?_, ?_⟩
  · intro count hcount
    obtain ⟨stage, -, rfl⟩ := List.mem_map.mp hcount
    rw [survivors_eq]
    exact List.countP_le_length
  · rw [List.pairwise_map]
    have hpasses := @pairwise_takeWhile DiscoveryTicker TickerStageName
      (DiscoveryTicker → DiscoveryConfig → RankContext → Bool)
      (fun t stage => stage.2 t cfg (buildRankContext env tickers cfg)) _ nodup_stageNames
    refine hpasses.imp ?_
    intro a b hab
    rw [survivors_eq, survivors_eq, ge_iff_le]
    refine List.countP_mono_left fun t _ hb => ?_
    rw [List.contains_eq_mem, decide_eq_true_iff] at hb ⊢
    exact hab t hb

theorem mem_takeWhile_last {β γ : Type} {p : β × γ → Bool} {l : List (β × γ)} {last : β × γ}
    (hnodup : ((l ++ [last]).map (·.1)).Nodup) :
    last.1 ∈ ((l ++ [last]).takeWhile p).map (·.1) ↔ (l ++ [last]).all p = true := by
  induction l with
  | nil =>
      rw [List.nil_append, List.takeWhile_cons]
      by_cases hp : p last = true <;> simp [hp]
  | cons first rest ih =>
      obtain ⟨hfirst, hrest⟩ := List.nodup_cons.mp hnodup
      rw [List.cons_append, List.takeWhile_cons, List.all_cons]
      by_cases hp : p first = true
      · rw [if_pos hp, hp, Bool.true_and, ← ih hrest, List.map_cons, List.mem_cons]
        refine or_iff_right ?_
        intro heq
        change first.1 ∉ _ at hfirst
        rw [← heq] at hfirst
        exact hfirst (List.mem_map_of_mem (List.mem_append_right rest List.mem_cons_self))
      · rw [if_neg hp, Bool.not_eq_true] at *
        simp [hp]

theorem counts_shortlist (env : Environment) (tickers : List DiscoveryTicker)
    (cfg : DiscoveryConfig) : (tickerStageCounts env tickers cfg).survivors .changeBand =
      (shortlistByTicker env tickers cfg).length := by
  have hlength : (shortlistByTicker env tickers cfg).length = (tickers.filter fun t =>
      tickerStageChain.all fun stage =>
        stage.2 t cfg (buildRankContext env tickers cfg)).length := by
    unfold shortlistByTicker
    rw [List.length_map]
    exact (perm_sortByGain env _).length_eq
  rw [survivors_eq, hlength, List.countP_eq_length_filter]
  congr 1
  refine List.filter_congr fun t _ => ?_
  rw [Bool.eq_iff_iff, List.contains_eq_mem, decide_eq_true_iff]
  have hlast := @mem_takeWhile_last TickerStageName
    (DiscoveryTicker → DiscoveryConfig → RankContext → Bool)
    (fun stage => stage.2 t cfg (buildRankContext env tickers cfg)) tickerStageChain.dropLast
    (.changeBand, withinChangeBand) nodup_stageNames
  exact hlast

end Counts

/-! ### The order of the feed -/

section Order

variable {env : Environment} {x y z : Decimal}

theorem lte_of_lte_of_lte (hxy : x.lte y = true) (hyz : y.lte z = true) : x.lte z = true := by
  cases x with
  | nan => simp at hxy
  | inf s =>
      cases y with
      | nan => simp at hxy
      | inf t => cases z <;> cases s <;> simp_all [lte]
      | num b => cases z <;> cases s <;> simp_all [lte]
  | num a =>
      cases y with
      | nan => simp at hxy
      | inf t => cases z <;> cases t <;> simp_all [lte]
      | num b =>
          cases z with
          | nan => simp at hyz
          | inf t => simpa [lte] using hyz
          | num c =>
              rw [lte_num, decide_eq_true_eq] at *
              exact hxy.trans hyz

theorem lte_or_lte (hx : x.isNaN = false) (hy : y.isNaN = false) :
    x.lte y = true ∨ y.lte x = true := by
  cases x with
  | nan => cases hx
  | inf s => cases y <;> cases s <;> simp_all [lte, isNaN]
  | num a =>
      cases y with
      | nan => cases hy
      | inf t => cases t <;> simp [lte]
      | num b => simpa using le_total a b

theorem not_lt_eq_lte (hx : x.isNaN = false) (hy : y.isNaN = false) : (!x.lt y) = y.lte x := by
  cases x with
  | nan => cases hx
  | inf s =>
      cases y with
      | nan => cases hy
      | inf t => cases s <;> cases t <;> rfl
      | num b => cases s <;> rfl
  | num a =>
      cases y with
      | nan => cases hy
      | inf t => cases t <;> rfl
      | num b =>
          rw [lt_num, lte_num, Bool.eq_iff_iff]
          simp

/-- The ranking, as an order: the bigger gain, then the lesser symbol. -/
theorem byGainDesc_iff {a b : DiscoveryTicker} (ha : a.priceChangePercent.isNaN = false)
    (hb : b.priceChangePercent.isNaN = false) :
    byGainDesc env a b = true ↔ b.priceChangePercent.lte a.priceChangePercent = true ∧
      (a.priceChangePercent.lte b.priceChangePercent = true →
        env.localeCompare a.symbol b.symbol ≠ .gt) := by
  have hlt : (!b.priceChangePercent.gt a.priceChangePercent) =
      b.priceChangePercent.lte a.priceChangePercent := not_lt_eq_lte ha hb
  unfold byGainDesc
  rw [hlt]
  by_cases hback : b.priceChangePercent.lte a.priceChangePercent = true
  · by_cases hforth : a.priceChangePercent.lte b.priceChangePercent = true
    · simp [eq, hback, hforth]
    · simp [eq, hback, hforth]
  · simp [eq, hback]

theorem orders_byGainDesc {tickers : List DiscoveryTicker} (hnodup : (tickers.map (·.symbol)).Nodup)
    (hgains : ∀ t ∈ tickers, t.priceChangePercent.isNaN = false)
    (hcollates : Orders (fun a b => env.localeCompare a b ≠ .gt) (tickers.map (·.symbol))) :
    Orders (fun a b => byGainDesc env a b = true) tickers where
  total a ha b hb := by
    rw [byGainDesc_iff (hgains a ha) (hgains b hb), byGainDesc_iff (hgains b hb) (hgains a ha)]
    have hsymbols := hcollates.total _ (List.mem_map_of_mem ha) _ (List.mem_map_of_mem hb)
    by_cases hback : b.priceChangePercent.lte a.priceChangePercent = true
    · by_cases hforth : a.priceChangePercent.lte b.priceChangePercent = true
      · exact hsymbols.imp (fun h => ⟨hback, fun _ => h⟩) fun h => ⟨hforth, fun _ => h⟩
      · exact .inl ⟨hback, fun h => absurd h hforth⟩
    · have hforth := (lte_or_lte (hgains a ha) (hgains b hb)).resolve_right hback
      exact .inr ⟨hforth, fun h => absurd h hback⟩
  trans a ha b hb c hc hab hbc := by
    rw [byGainDesc_iff (hgains a ha) (hgains b hb)] at hab
    rw [byGainDesc_iff (hgains b hb) (hgains c hc)] at hbc
    rw [byGainDesc_iff (hgains a ha) (hgains c hc)]
    refine ⟨lte_of_lte_of_lte hbc.1 hab.1, fun hac => ?_⟩
    have hab' := hab.2 (lte_of_lte_of_lte hac hbc.1)
    have hbc' := hbc.2 (lte_of_lte_of_lte hab.1 hac)
    exact hcollates.trans _ (List.mem_map_of_mem ha) _ (List.mem_map_of_mem hb) _
      (List.mem_map_of_mem hc) hab' hbc'
  antisymm a ha b hb hab hba := by
    rw [byGainDesc_iff (hgains a ha) (hgains b hb)] at hab
    rw [byGainDesc_iff (hgains b hb) (hgains a ha)] at hba
    exact List.inj_on_of_nodup_map hnodup ha hb (hcollates.antisymm _ (List.mem_map_of_mem ha) _
      (List.mem_map_of_mem hb) (hab.2 hba.1) (hba.2 hab.1))

end Order

section Permuted

variable {env : Environment} {tickers tickers' : List DiscoveryTicker} {cfg : DiscoveryConfig}
  (hperm : tickers'.Perm tickers)
  (horders : Orders (fun a b => byGainDesc env a b = true) tickers)

include hperm horders

theorem rankContext_of_perm :
    buildRankContext env tickers' cfg = buildRankContext env tickers cfg := by
  have hranked : sortByGain env (rankUniverse tickers' cfg) =
      sortByGain env (rankUniverse tickers cfg) :=
    (horders.subset fun _ => List.mem_of_mem_filter).insertionSort_eq_of_perm (hperm.filter _)
  unfold buildRankContext
  rw [hranked]

theorem shortlist_of_perm :
    shortlistByTicker env tickers' cfg = shortlistByTicker env tickers cfg := by
  unfold shortlistByTicker
  rw [rankContext_of_perm hperm horders]
  dsimp only
  congr 1
  exact (horders.subset fun _ => List.mem_of_mem_filter).insertionSort_eq_of_perm (hperm.filter _)

theorem keepable_of_perm :
    (keepableSymbols env tickers' cfg).Perm (keepableSymbols env tickers cfg) := by
  unfold keepableSymbols
  rw [rankContext_of_perm hperm horders]
  exact (hperm.filter _).map _

theorem counts_of_perm :
    tickerStageCounts env tickers' cfg = tickerStageCounts env tickers cfg := by
  have hsurvivors : (tickerStageCounts env tickers' cfg).survivors =
      (tickerStageCounts env tickers cfg).survivors := by
    funext name
    rw [survivors_eq, survivors_eq, rankContext_of_perm hperm horders]
    exact hperm.countP_eq _
  calc tickerStageCounts env tickers' cfg
      = ⟨tickers'.length, (tickerStageCounts env tickers' cfg).survivors⟩ := rfl
    _ = ⟨tickers.length, (tickerStageCounts env tickers cfg).survivors⟩ := by
        rw [hsurvivors, hperm.length_eq]

end Permuted

/-! ### The same keepable symbols in another order -/

section Keepable

open ResolveInput

variable {env : Environment} {i : ResolveInput} {keepable : List String}

/-- A resolution that was handed its keepable symbols in another order. -/
def ResolveInput.keeping (i : ResolveInput) (keepable : List String) : ResolveInput :=
  { i with overlay := ⟨keepable, i.overlay.unremovable, i.overlay.blocked⟩ }

variable (h : ∀ s, keepable.contains s = i.overlay.keepable.contains s)

include h

theorem isKeepable_keeping : (i.keeping keepable).isKeepable = i.isKeepable :=
  funext fun c => h c.symbol

theorem reaped_keeping : (i.keeping keepable).reaped env = i.reaped env := by
  unfold reaped
  rw [isKeepable_keeping h]
  rfl

theorem yielding_keeping : (i.keeping keepable).yielding env = i.yielding env := by
  unfold yielding
  rw [isKeepable_keeping h]
  rfl

theorem correlated_keeping (env : Environment) :
    (i.keeping keepable).correlated env = i.correlated env := by
  have hpeers : (i.keeping keepable).stayingPeers env = i.stayingPeers env := by
    unfold stayingPeers
    rw [reaped_keeping h]
    rfl
  funext add symbol
  unfold correlated
  rw [hpeers]
  rfl

theorem traceAdd_keeping (env : Environment) :
    (i.keeping keepable).traceAdd env = i.traceAdd env := by
  funext trace symbol
  unfold traceAdd
  rw [correlated_keeping h]
  rfl

theorem skipReasons_keeping (env : Environment) :
    (i.keeping keepable).skipReasons env = i.skipReasons env := by
  unfold skipReasons
  rw [traceAdd_keeping h]
  rfl

theorem resolveDiscovery_keeping (env : Environment) :
    resolveDiscovery env (i.keeping keepable) = resolveDiscovery env i := by
  have hadd : (i.keeping keepable).add env = i.add env := by
    have hfold := @foldl_traceAdd_add env (i.keeping keepable) (i.eligible env) ⟨[], fun _ => none⟩
    rw [traceAdd_keeping h, foldl_traceAdd_add] at hfold
    exact hfold.symm
  have hevicted : (i.keeping keepable).evicted env = i.evicted env := by
    unfold evicted freeSlots
    rw [yielding_keeping h, hadd]
    rfl
  have hremove : (i.keeping keepable).remove env = i.remove env := by
    unfold remove
    rw [reaped_keeping h, hevicted]
  have hdesired : (i.keeping keepable).desired env = i.desired env := by
    unfold desired
    rw [hadd, hevicted, isKeepable_keeping h]
    rfl
  unfold resolveDiscovery
  rw [hadd, hremove, hdesired]

end Keepable

/-! ### The whole explanation -/

section Whole

variable {env : Environment} {input : DiscoveryInput} {tickers' : List DiscoveryTicker}
  {conflicts : List (String × SiblingConflictDisposition)} {unremovable : List String}

theorem marketBreadthOk_of_perm {tickers : List DiscoveryTicker} {cfg : DiscoveryConfig}
    (hperm : tickers'.Perm tickers) :
      marketBreadthOk tickers' cfg = marketBreadthOk tickers cfg := by
  have huniverse : (rankUniverse tickers' cfg).Perm (rankUniverse tickers cfg) := hperm.filter _
  unfold marketBreadthOk
  simp only [huniverse.length_eq, (huniverse.filter _).length_eq]

theorem tickerOf_of_perm {tickers : List DiscoveryTicker} (hnodup : (tickers.map (·.symbol)).Nodup)
    (hperm : tickers'.Perm tickers) (s : String) : tickerOf tickers' s = tickerOf tickers s := by
  have hnodup' : (tickers'.map (·.symbol)).Nodup := (hperm.map _).nodup_iff.mpr hnodup
  refine Option.ext fun t => ?_
  rw [tickerOf_eq_some hnodup', tickerOf_eq_some hnodup, hperm.mem_iff]

/-- The explanation does not depend on the order of the feed. -/
theorem explainDiscovery_of_perm (hnodup : (input.tickers.map (·.symbol)).Nodup)
    (hperm : tickers'.Perm input.tickers)
    (horders : Orders (fun a b => byGainDesc env a b = true) input.tickers) :
    explainDiscovery env { input with tickers := tickers' } conflicts unremovable =
      explainDiscovery env input conflicts unremovable := by
  have hresolved : DiscoveryInput.explained env { input with tickers := tickers' } conflicts
      unremovable = (input.explained env conflicts unremovable).keeping
        (keepableSymbols env tickers' input.config) := by
    unfold DiscoveryInput.explained DiscoveryInput.resolving ResolveInput.keeping
    dsimp only
    rw [shortlist_of_perm hperm horders, marketBreadthOk_of_perm hperm]
  have hkeep : ∀ s, (keepableSymbols env tickers' input.config).contains s =
      (input.explained env conflicts unremovable).overlay.keepable.contains s := by
    intro s
    rw [List.contains_eq_mem, List.contains_eq_mem]
    exact decide_eq_decide.mpr (keepable_of_perm hperm horders).mem_iff
  have hcandidate : explainCandidate env { input with tickers := tickers' } conflicts unremovable =
      explainCandidate env input conflicts unremovable := by
    funext s
    unfold explainCandidate
    rw [hresolved]
    dsimp only
    rw [resolveDiscovery_keeping hkeep, skipReasons_keeping hkeep]
    rw [tickerOf_of_perm hnodup hperm, rankContext_of_perm hperm horders]
    unfold ResolveInput.keeping
    dsimp only
    rw [hkeep]
    rfl
  have hsymbols : candidateSymbols env { input with tickers := tickers' } conflicts unremovable =
      candidateSymbols env input conflicts unremovable := by
    unfold candidateSymbols
    rw [hresolved]
    rfl
  unfold explainDiscovery
  rw [hsymbols, hcandidate, hresolved, resolveDiscovery_keeping hkeep]

end Whole

/-- The explanation and the funnel say what the cycle decided: the labels are the sets of the diff,
every candidate that passed and is not in carries the loop's own reason, the stage counts narrow to
the shortlist, the funnel's tail counts the labels of distinct current symbols, and the order of the
feed changes none of it. -/
theorem explanation_agrees (env : Environment) (input : DiscoveryInput)
    (conflicts : List (String × SiblingConflictDisposition)) (unremovable : List String)
    (htickers : (input.tickers.map (·.symbol)).Nodup)
    (hpins : ∀ s ∈ input.pinnedMembers, s ∉ input.currentAuto.map (·.symbol))
    (hconflicts : ∀ s ∈ conflicts.map (·.1), s ∉ input.currentAuto.map (·.symbol)) :
    LabelsAgree env input conflicts unremovable ∧
    (∀ c ∈ (explainDiscovery env input conflicts unremovable).candidates, c.Eligible →
      c.symbol ∉ input.currentAuto.map (·.symbol) →
      c.symbol ∉ (explainDiscovery env input conflicts unremovable).diff.add →
      Declined env (input.explained env conflicts unremovable) conflicts c.symbol c.disposition) ∧
    (explainDiscovery env input [] []).diff = runDiscovery env input ∧
    ((tickerStageCounts env input.tickers input.config).universeSize ::
      tickerStageChain.map fun stage =>
        (tickerStageCounts env input.tickers input.config).survivors stage.1).Pairwise (· ≥ ·) ∧
    (tickerStageCounts env input.tickers input.config).survivors .changeBand =
      (shortlistByTicker env input.tickers input.config).length ∧
    ((input.currentAuto.map (·.symbol)).Nodup →
      ∀ (breadthOk : Bool) (ticker : TickerStageCounts) (probed : ℕ),
        let e := explainDiscovery env input conflicts unremovable
        let funnel := projectFunnel e.candidates e.diff breadthOk ticker probed
        funnel.added = e.count .added ∧ funnel.kept = e.count .kept ∧
          funnel.removed = e.count .fadedRemoved) ∧
    ((∀ t ∈ input.tickers, t.priceChangePercent.isNaN = false) →
      Orders (fun a b => env.localeCompare a b ≠ .gt) (input.tickers.map (·.symbol)) →
      ∀ tickers' : List DiscoveryTicker, tickers'.Perm input.tickers →
        explainDiscovery env { input with tickers := tickers' } conflicts unremovable =
          explainDiscovery env input conflicts unremovable ∧
        tickerStageCounts env tickers' input.config =
          tickerStageCounts env input.tickers input.config) := by
  have hagree : LabelsAgree env input conflicts unremovable := labelsAgree htickers hpins hconflicts
  refine ⟨hagree, fun c hc => declined_of_eligible htickers hc, rfl,
    counts_narrow env input.tickers input.config, counts_shortlist env input.tickers input.config,
    fun hcurrent => funnel_counts htickers hagree hcurrent, ?_⟩
  intro hgains hcollates tickers' hperm
  have horders := orders_byGainDesc htickers hgains hcollates
  exact ⟨explainDiscovery_of_perm htickers hperm horders, counts_of_perm hperm horders⟩

/-- A cycle whose candidate conflicts with a sibling, beside a symbol that faded. -/
def conflictedCycle : DiscoveryInput where
  tickers := [sampleTicker "A" 5, sampleTicker "B" 3]
  klinesBySymbol := sampleKlines
  currentAuto := [⟨"CUSDT", 0⟩]
  lastFlattenAtMsBySymbol := fun _ => none
  pinnedMembers := []
  config := sampleConfig
  nowMs := 86400000

theorem explanation_of_conflicted_cycle :
    (explainDiscovery sampleEnvironment conflictedCycle
        [("AUSDT", .siblingOwnsBase)] []).candidates.map (fun c => (c.symbol, c.disposition)) =
      [("AUSDT", .conflict .siblingOwnsBase), ("BUSDT", .added), ("CUSDT", .fadedRemoved)] ∧
    LabelsAgree sampleEnvironment conflictedCycle [("AUSDT", .siblingOwnsBase)] [] ∧
    explainDiscovery sampleEnvironment
        { conflictedCycle with tickers := [sampleTicker "B" 3, sampleTicker "A" 5] }
        [("AUSDT", .siblingOwnsBase)] [] =
      explainDiscovery sampleEnvironment conflictedCycle [("AUSDT", .siblingOwnsBase)] [] := by
  have hagrees := explanation_agrees sampleEnvironment conflictedCycle
    [("AUSDT", .siblingOwnsBase)] [] (by decide) (by decide) (by decide)
  refine ⟨by decide +kernel, hagrees.1, ?_⟩
  exact (hagrees.2.2.2.2.2.2 (by decide) ⟨by decide, by decide, by decide⟩ _ (.swap _ _ _)).1

/-- The same symbol bound twice, faded both times. -/
def twiceBound : DiscoveryInput :=
  { conflictedCycle with tickers := [], currentAuto := [⟨"CUSDT", 0⟩, ⟨"CUSDT", 0⟩] }

theorem twice_bound_removed_twice :
    (twiceBound.tickers.map (·.symbol)).Nodup ∧ twiceBound.pinnedMembers = [] ∧
    (projectFunnel (explainDiscovery sampleEnvironment twiceBound [] []).candidates
      (explainDiscovery sampleEnvironment twiceBound [] []).diff true
      (tickerStageCounts sampleEnvironment [] sampleConfig) 0).removed = 2 ∧
    (explainDiscovery sampleEnvironment twiceBound [] []).count .fadedRemoved = 1 := by
  refine ⟨by decide, rfl, by decide +kernel, by decide +kernel⟩

end TradingBot.Discovery
