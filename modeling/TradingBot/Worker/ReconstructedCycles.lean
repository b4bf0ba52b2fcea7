import Mathlib.Tactic.Abel
import Mathlib.Tactic.Linarith
import TradingBot.Worker.RoundTrips

/-!
# Which histories are reported as they are

The walk loses no fill, and later fills leave its round trips alone. A history
made of cycles comes out as these cycles exactly where no sale before a cycle's
last leaves as little as the walk takes for dust.
-/

namespace TradingBot.Worker

/-! ### Sorting -/

section Sorting

variable {fills fills' later : List MyTradeDto}

theorem eq_of_sortsBefore {a b : MyTradeDto} (hkeys : DistinctFills fills) (ha : a ∈ fills)
    (hb : b ∈ fills) (hab : a.sortsBefore b) (hba : b.sortsBefore a) : a = b := by
  have hkey : a.key = b.key := by
    unfold MyTradeDto.sortsBefore at hab hba
    exact Prod.ext (by dsimp only [MyTradeDto.key]; omega) (by dsimp only [MyTradeDto.key]; omega)
  exact List.inj_on_of_nodup_map hkeys ha hb hkey

theorem insertionSort_eq (hkeys : DistinctFills fills) (hperm : fills.Perm fills')
    (hsorted : fills'.Pairwise MyTradeDto.sortsBefore) :
    fills.insertionSort MyTradeDto.sortsBefore = fills' := by
  refine List.Perm.eq_of_pairwise ?_ (List.pairwise_insertionSort _ _) hsorted
    ((List.perm_insertionSort _ _).trans hperm)
  intro a b ha hb hab hba
  exact eq_of_sortsBefore hkeys ((List.mem_insertionSort _).mp ha) (hperm.mem_iff.mpr hb) hab hba

theorem insertionSort_perm (hkeys : DistinctFills fills) (hperm : fills.Perm fills') :
    fills'.insertionSort MyTradeDto.sortsBefore = fills.insertionSort MyTradeDto.sortsBefore :=
  (insertionSort_eq hkeys (hperm.trans (List.perm_insertionSort _ _).symm)
    (List.pairwise_insertionSort _ _)).symm

theorem insertionSort_later (hkeys : DistinctFills (fills ++ later))
    (hlater : ∀ a ∈ fills, ∀ b ∈ later, a.Precedes b) :
    (fills ++ later).insertionSort MyTradeDto.sortsBefore =
      fills.insertionSort MyTradeDto.sortsBefore ++ later.insertionSort MyTradeDto.sortsBefore := by
  refine insertionSort_eq hkeys
    ((List.perm_insertionSort _ _).symm.append (List.perm_insertionSort _ _).symm) ?_
  refine List.pairwise_append.mpr
    ⟨List.pairwise_insertionSort _ _, List.pairwise_insertionSort _ _, fun a ha b hb => ?_⟩
  have hab := hlater a ((List.mem_insertionSort _).mp ha) b ((List.mem_insertionSort _).mp hb)
  exact hab.imp id fun h => ⟨h.1, h.2.le⟩

end Sorting

/-! ### Where the fills go -/

section Classes

variable {baseAsset : String} {epsilonRatio : ℚ}

/-- A walk with its classes: they explain its result, and its open position is what is held. -/
structure FillClasses.Tell (baseAsset : String) (epsilonRatio : ℚ) (classes : FillClasses)
    (walk : RoundTripWalk) (fills : List MyTradeDto) : Prop where
  explain : classes.Explain baseAsset epsilonRatio walk.result
  walk_eq : walk = walk.opened baseAsset classes.held
  perm : classes.all.Perm fills

theorem tell_add {classes : FillClasses} {walk : RoundTripWalk} {fills : List MyTradeDto}
    (h : classes.Tell baseAsset epsilonRatio walk fills) (fill : MyTradeDto) :
    ∃ classes' : FillClasses, classes'.Tell baseAsset epsilonRatio
      (walk.add baseAsset epsilonRatio fill) (fills ++ [fill]) := by
  have hperm : (classes.all ++ [fill]).Perm (fills ++ [fill]) := h.perm.append_right _
  obtain ⟨he, hwalk, -⟩ := h
  have hstep := RoundTripWalk.add_step baseAsset epsilonRatio walk classes.held fill
  rw [← hwalk] at hstep
  have hopens : classes.held ≠ [] → OpensWithPurchase (classes.held ++ [fill]) :=
    fun hheld => opensWithPurchase_append _ (he.held_spec hheld)
  generalize walk.add baseAsset epsilonRatio fill = walk' at hstep
  cases hstep with
  | purchase hside =>
      refine ⟨{ classes with held := classes.held ++ [fill] },
        ⟨he.1, he.2, he.3, he.4, he.5, he.6, fun _ => ?_⟩, rfl, ?_⟩
      · rcases eq_or_ne classes.held [] with hheld | hheld
        · rw [hheld]
          simpa [OpensWithPurchase] using hside
        · exact hopens hheld
      · exact (List.Perm.of_eq (by simp [FillClasses.all])).trans hperm
  | orphan hside hheld =>
      refine ⟨{ classes with orphans := classes.orphans ++ [fill] },
        ⟨he.1, ?_, he.3, he.4, he.5, ?_, he.7⟩, ?_, ?_⟩
      · simpa [RoundTripWalk.result, RoundTripWalk.opened] using he.orphans
      · intro orphan horphan
        rcases List.mem_append.mp horphan with hmem | hmem
        · exact he.orphans_spec orphan hmem
        · exact (List.mem_singleton.mp hmem) ▸ hside
      · rw [hheld]
        rfl
      · exact (List.Perm.of_eq (by simp [FillClasses.all, hheld])).trans hperm
  | overshoot hside hheld hnet =>
      refine ⟨{ classes with dropped := classes.dropped ++ [classes.held ++ [fill]], held := [] },
        ⟨he.1, he.2, ?_, he.4, ?_, he.6, fun h => absurd rfl h⟩, rfl, ?_⟩
      · simpa [RoundTripWalk.result, RoundTripWalk.opened] using he.dropped
      · intro cycle hcycle
        rcases List.mem_append.mp hcycle with hmem | hmem
        · exact he.dropped_spec cycle hmem
        · rw [List.mem_singleton.mp hmem]
          exact ⟨hopens hheld, endsInSale_concat.mpr hside, hnet⟩
      · refine List.Perm.trans ?_ hperm
        simp only [FillClasses.all, List.flatten_append, List.flatten_singleton, List.append_nil,
          ← Multiset.coe_eq_coe, ← Multiset.coe_add]
        abel
  | closing hside hheld hnet hpeak =>
      refine ⟨{ classes with
          completed := classes.completed ++ [classes.held ++ [fill]]
          held := [] },
        ⟨?_, he.2, he.3, ?_, he.5, he.6, fun h => absurd rfl h⟩, rfl, ?_⟩
      · simpa [RoundTripWalk.result, RoundTripWalk.opened, RoundTripWalk.closed] using he.roundTrips
      · intro cycle hcycle
        rcases List.mem_append.mp hcycle with hmem | hmem
        · exact he.completed_spec cycle hmem
        · rw [List.mem_singleton.mp hmem]
          exact ⟨hopens hheld, endsInSale_concat.mpr hside, hnet⟩
      · refine List.Perm.trans ?_ hperm
        simp only [FillClasses.all, List.flatten_append, List.flatten_singleton, List.append_nil,
          ← Multiset.coe_eq_coe, ← Multiset.coe_add]
        abel
  | sale hside hheld hnet =>
      refine ⟨{ classes with held := classes.held ++ [fill] },
        ⟨he.1, he.2, he.3, he.4, he.5, he.6, fun _ => hopens hheld⟩, rfl, ?_⟩
      exact (List.Perm.of_eq (by simp [FillClasses.all])).trans hperm

theorem exists_tell (baseAsset : String) (epsilonRatio : ℚ) (fills : List MyTradeDto) :
    ∃ classes : FillClasses, classes.Tell baseAsset epsilonRatio
      (fills.foldl (RoundTripWalk.add baseAsset epsilonRatio) .start) fills := by
  induction fills using List.reverseRecOn with
  | nil =>
      refine ⟨⟨[], [], [], []⟩, ⟨rfl, rfl, rfl, ?_, ?_, ?_, fun h => absurd rfl h⟩, rfl, .nil⟩
      · exact fun cycle hcycle => (nomatch hcycle)
      · exact fun cycle hcycle => (nomatch hcycle)
      · exact fun fill hfill => (nomatch hfill)
  | append_singleton fills fill ih =>
      obtain ⟨classes, htell⟩ := ih
      rw [List.foldl_append]
      exact tell_add htell fill

end Classes

/-! ### What later fills change -/

section Later

variable {baseAsset : String} {epsilonRatio : ℚ}

/-- What tells the closing fill of a round trip. -/
def ReconstructedRoundTrip.closingKey (trip : ReconstructedRoundTrip) : ℤ × ℤ :=
  (trip.closedAtMs, trip.closingTradeId)

theorem closingKey_buildRoundTrip (part : List MyTradeDto) (fill : MyTradeDto) :
    (buildRoundTrip (part ++ [fill]) baseAsset).closingKey = fill.key := by
  simp [buildRoundTrip, ReconstructedRoundTrip.closingKey, MyTradeDto.key]

/-- More fills add round trips that they close, and no orphan is forgotten. -/
structure RoundTripWalk.Grows (walk walk' : RoundTripWalk) (fills : List MyTradeDto)
    (trips : List ReconstructedRoundTrip) : Prop where
  roundTrips : walk'.roundTrips = walk.roundTrips ++ trips
  closing : (trips.map (·.closingKey)).Sublist (fills.map (·.key))
  orphans : walk.skippedOrphanSells ≤ walk'.skippedOrphanSells

theorem grows_add (baseAsset : String) (epsilonRatio : ℚ) (walk : RoundTripWalk)
    (fill : MyTradeDto) :
    ∃ trips, walk.Grows (walk.add baseAsset epsilonRatio fill) [fill] trips := by
  unfold RoundTripWalk.add
  dsimp only
  split_ifs
  · exact ⟨[], (List.append_nil _).symm, List.nil_sublist _, le_rfl⟩
  · exact ⟨[], (List.append_nil _).symm, List.nil_sublist _, le_rfl⟩
  · exact ⟨[], (List.append_nil _).symm, List.nil_sublist _, Nat.le_succ _⟩
  · exact ⟨[], (List.append_nil _).symm, List.nil_sublist _, le_rfl⟩
  · refine ⟨[buildRoundTrip (walk.current ++ [fill]) baseAsset], rfl, ?_, le_rfl⟩
    rw [List.map_singleton, List.map_singleton, closingKey_buildRoundTrip]
  · exact ⟨[], (List.append_nil _).symm, List.nil_sublist _, le_rfl⟩

theorem grows_foldl (baseAsset : String) (epsilonRatio : ℚ) (walk : RoundTripWalk)
    (fills : List MyTradeDto) :
    ∃ trips,
      walk.Grows (fills.foldl (RoundTripWalk.add baseAsset epsilonRatio) walk) fills trips := by
  induction fills generalizing walk with
  | nil => exact ⟨[], (List.append_nil _).symm, List.nil_sublist _, le_rfl⟩
  | cons fill fills ih =>
      obtain ⟨first, hfirst⟩ := grows_add baseAsset epsilonRatio walk fill
      obtain ⟨rest, hrest⟩ := ih (walk.add baseAsset epsilonRatio fill)
      refine ⟨first ++ rest, ?_, ?_, hfirst.orphans.trans hrest.orphans⟩
      · rw [List.foldl_cons, hrest.roundTrips, hfirst.roundTrips, List.append_assoc]
      · rw [List.map_append]
        exact hfirst.closing.append hrest.closing

end Later

/-! ### A history of cycles -/

section Cycles

variable {baseAsset : String} {epsilonRatio : ℚ} {cycle part : List MyTradeDto} {fill : MyTradeDto}

theorem peakBase_le_concat (part : List MyTradeDto) (fill : MyTradeDto) :
    peakBase baseAsset part ≤ peakBase baseAsset (part ++ [fill]) := by
  cases hside : fill.isBuyer with
  | true => exact (peakBase_concat_purchase hside).symm ▸ le_max_left _ _
  | false => exact (peakBase_concat_sale hside).symm ▸ le_rfl

theorem peakBase_pos (hopens : OpensWithPurchase part)
    (hfirst : 0 < netBase baseAsset (part.take 1)) : 0 < peakBase baseAsset part := by
  induction part using List.reverseRecOn with
  | nil => simp [OpensWithPurchase] at hopens
  | append_singleton before fill ih =>
      rcases eq_or_ne before [] with rfl | hbefore
      · have hside : fill.isBuyer = true := by simpa [OpensWithPurchase] using hopens
        rw [peakBase_concat_purchase hside]
        exact lt_max_of_lt_right hfirst
      · obtain ⟨first, more, rfl⟩ := List.exists_cons_of_ne_nil hbefore
        exact (ih hopens hfirst).trans_le (peakBase_le_concat _ _)

theorem IsCycle.pos (h : IsCycle baseAsset cycle) (hpart : part <+: cycle) (hne : part ≠ [])
    (hproper : part ≠ cycle) : 0 < netBase baseAsset part :=
  h.2.2 part ((List.mem_inits _ _).mpr hpart) hne hproper

theorem IsCycle.peak_pos (h : IsCycle baseAsset cycle) (hopens : OpensWithPurchase part)
    (hpart : part <+: cycle) (htwo : cycle.length ≠ 1) : 0 < peakBase baseAsset part := by
  refine peakBase_pos hopens (h.pos ((List.take_prefix 1 part).trans hpart) ?_ ?_)
  · intro hnil
    rcases List.take_eq_nil_iff.mp hnil with hone | rfl
    · cases hone
    · simp [OpensWithPurchase] at hopens
  · intro heq
    have hlength := congrArg List.length heq
    rw [List.length_take] at hlength
    have hne : cycle.length ≠ 0 := fun hzero => h.1 (List.length_eq_zero_iff.mp hzero)
    omega

theorem peak_mul_nonneg (baseAsset : String) (hratio : 0 ≤ epsilonRatio) (part : List MyTradeDto) :
    0 ≤ peakBase baseAsset part * epsilonRatio :=
  mul_nonneg (peakBase_nonneg part) hratio

/-- No cycle ends while every sale leaves more than dust. -/
theorem foldl_open (hratio : 0 ≤ epsilonRatio) (walk : RoundTripWalk) (part : List MyTradeDto)
    (hopen : ∀ before fill, before ++ [fill] <+: part → fill.isBuyer = false →
      before ≠ [] ∧ peakBase baseAsset (before ++ [fill]) * epsilonRatio <
        netBase baseAsset (before ++ [fill])) :
    part.foldl (RoundTripWalk.add baseAsset epsilonRatio) (walk.opened baseAsset []) =
      walk.opened baseAsset part := by
  induction part using List.reverseRecOn with
  | nil => rfl
  | append_singleton part fill ih =>
      have hpart := ih fun before sale hbefore =>
        hopen before sale (hbefore.trans (List.prefix_append _ _))
      rw [List.foldl_append, hpart, List.foldl_cons, List.foldl_nil]
      have hsale := hopen part fill (List.prefix_refl _)
      have hdust := peak_mul_nonneg baseAsset hratio (part ++ [fill])
      have hstep := RoundTripWalk.add_step baseAsset epsilonRatio walk part fill
      generalize RoundTripWalk.add baseAsset epsilonRatio (walk.opened baseAsset part) fill =
        walk' at hstep
      cases hstep with
      | purchase hside => rfl
      | orphan hside hnil => exact absurd hnil (hsale hside).1
      | overshoot hside hne hnet => linarith [(hsale hside).2]
      | closing hside hne hnet hpeak => linarith [(hsale hside).2, (abs_le.mp hnet).2]
      | sale hside hne hnet => rfl

theorem foldl_cycle (hratio : 0 ≤ epsilonRatio) (walk : RoundTripWalk)
    (hcycle : IsCycle baseAsset cycle) (hcloses : ClosesAtEnd baseAsset epsilonRatio cycle) :
    cycle.foldl (RoundTripWalk.add baseAsset epsilonRatio) (walk.opened baseAsset []) =
      (walk.closed baseAsset cycle).opened baseAsset [] := by
  obtain ⟨before, last, rfl⟩ := (List.eq_nil_or_concat cycle).resolve_left hcycle.1
  rw [List.concat_eq_append] at hcycle hcloses ⊢
  have hlast : last.isBuyer = false := endsInSale_concat.mp hcloses.ends
  have hbefore : before ≠ [] := by
    rintro rfl
    have hopens := hcloses.opens
    simp [OpensWithPurchase, hlast] at hopens
  have hopen : ∀ part fill, part ++ [fill] <+: before → fill.isBuyer = false →
      part ≠ [] ∧ peakBase baseAsset (part ++ [fill]) * epsilonRatio <
        netBase baseAsset (part ++ [fill]) := by
    intro part fill hpart hside
    constructor
    · rintro rfl
      obtain ⟨rest, rfl⟩ := hpart
      have hopens := hcloses.opens
      simp [OpensWithPurchase, hside] at hopens
    · refine hcloses.open_before _
        ((List.mem_inits _ _).mpr (hpart.trans (List.prefix_append _ _))) ?_
        (endsInSale_concat.mpr hside)
      intro heq
      have hlength := heq ▸ hpart.length_le
      simp at hlength
  rw [List.foldl_append, foldl_open hratio walk before hopen, List.foldl_cons, List.foldl_nil]
  have hnet := hcycle.2.1
  have hdust := peak_mul_nonneg baseAsset hratio (before ++ [last])
  have hstep := RoundTripWalk.add_step baseAsset epsilonRatio walk before last
  generalize RoundTripWalk.add baseAsset epsilonRatio (walk.opened baseAsset before) last =
    walk' at hstep
  cases hstep with
  | purchase hside => cases hlast.symm.trans hside
  | orphan hside hnil => exact absurd hnil hbefore
  | overshoot hside hne hover => linarith
  | closing hside hne hclose hpeak => rfl
  | sale hside hne hsale =>
      rcases hsale with hlt | hzero
      · linarith
      · refine absurd hzero (hcycle.peak_pos hcloses.opens (List.prefix_refl _) ?_).ne'
        intro hone
        have hlength := List.length_pos_of_ne_nil hbefore
        rw [List.length_append, List.length_singleton] at hone
        omega

theorem foldl_cycles (hratio : 0 ≤ epsilonRatio) {cycles : List (List MyTradeDto)}
    (walk : RoundTripWalk) (hcycles : ∀ cycle ∈ cycles, IsCycle baseAsset cycle)
    (hcloses : ∀ cycle ∈ cycles, ClosesAtEnd baseAsset epsilonRatio cycle) :
    cycles.flatten.foldl (RoundTripWalk.add baseAsset epsilonRatio) (walk.opened baseAsset []) =
      (cycles.foldl (RoundTripWalk.closed baseAsset) walk).opened baseAsset [] := by
  induction cycles generalizing walk with
  | nil => rfl
  | cons cycle cycles ih =>
      rw [List.flatten_cons, List.foldl_append, foldl_cycle hratio walk
        (hcycles cycle List.mem_cons_self) (hcloses cycle List.mem_cons_self)]
      exact ih _ (fun c hc => hcycles c (List.mem_cons_of_mem _ hc))
        fun c hc => hcloses c (List.mem_cons_of_mem _ hc)

theorem foldl_closed (cycles : List (List MyTradeDto)) (walk : RoundTripWalk) :
    cycles.foldl (RoundTripWalk.closed baseAsset) walk =
      { walk with roundTrips := walk.roundTrips ++ cycles.map (buildRoundTrip · baseAsset) } := by
  induction cycles generalizing walk with
  | nil => rw [List.map_nil, List.append_nil]; rfl
  | cons cycle cycles ih =>
      rw [List.foldl_cons, ih, RoundTripWalk.closed, List.map_cons, List.append_assoc]
      rfl

theorem exists_grows {walk final : RoundTripWalk} {cycle rest : List MyTradeDto}
    (part more : List MyTradeDto)
    (hfinal : (cycle ++ rest).foldl (RoundTripWalk.add baseAsset epsilonRatio)
      (walk.opened baseAsset []) = final) (hpart : cycle = part ++ fill :: more)
    (hopen : part.foldl (RoundTripWalk.add baseAsset epsilonRatio) (walk.opened baseAsset []) =
      walk.opened baseAsset part) :
    ∃ trips, ((walk.opened baseAsset part).add baseAsset epsilonRatio fill).Grows final
      (more ++ rest) trips := by
  have hleft : final = (more ++ rest).foldl (RoundTripWalk.add baseAsset epsilonRatio)
      ((walk.opened baseAsset part).add baseAsset epsilonRatio fill) := by
    rw [← hfinal, hpart, List.append_assoc, List.foldl_append, hopen, List.cons_append,
      List.foldl_cons]
  rw [hleft]
  exact grows_foldl _ _ _ _

/-- While no round trip is added but those reported, and no orphan, the first cycle stays open
before its last fill. -/
theorem open_of_exact (hratio : 0 ≤ epsilonRatio) {walk final : RoundTripWalk}
    {cycle rest : List MyTradeDto} {trip : ReconstructedRoundTrip}
    {trips : List ReconstructedRoundTrip} (hcycle : IsCycle baseAsset cycle)
    (hkeys : DistinctFills cycle)
    (hfinal : (cycle ++ rest).foldl (RoundTripWalk.add baseAsset epsilonRatio)
      (walk.opened baseAsset []) = final)
    (htrips : final.roundTrips = walk.roundTrips ++ trip :: trips) (htrip : trip.Reports cycle)
    (horphans : final.skippedOrphanSells ≤ walk.skippedOrphanSells)
    (hopens : OpensWithPurchase cycle) (hpart : part <+: cycle) (hproper : part ≠ cycle) :
    part.foldl (RoundTripWalk.add baseAsset epsilonRatio) (walk.opened baseAsset []) =
        walk.opened baseAsset part ∧
      ∀ before ∈ part.inits, EndsInSale before →
        peakBase baseAsset before * epsilonRatio < netBase baseAsset before := by
  induction part using List.reverseRecOn with
  | nil =>
      refine ⟨rfl, fun before hbefore hends => ?_⟩
      rw [List.prefix_nil.mp ((List.mem_inits _ _).mp hbefore)] at hends
      cases hends
  | append_singleton part fill ih =>
      obtain ⟨more, hmore⟩ := hpart
      have hcons : cycle = part ++ fill :: more := by rw [← hmore, List.append_assoc]; rfl
      obtain ⟨hopen, hbefore⟩ := ih ⟨fill :: more, hcons.symm⟩ (by
        intro heq
        have hlength := congrArg List.length (heq.trans hcons)
        rw [List.length_append, List.length_cons] at hlength
        omega)
      have hprefix : part ++ [fill] <+: cycle := ⟨more, hmore⟩
      have hnet := hcycle.pos hprefix (List.append_ne_nil_of_right_ne_nil _ (List.cons_ne_nil _ _))
        hproper
      have hdust := peak_mul_nonneg baseAsset hratio (part ++ [fill])
      obtain ⟨new, hgrows⟩ := exists_grows part more hfinal hcons hopen
      have hstep := RoundTripWalk.add_step baseAsset epsilonRatio walk part fill
      rw [List.foldl_append, hopen, List.foldl_cons, List.foldl_nil]
      generalize RoundTripWalk.add baseAsset epsilonRatio (walk.opened baseAsset part) fill =
        walk' at hstep hgrows
      have hlast : ∀ {above : Prop}, (EndsInSale (part ++ [fill]) →
          peakBase baseAsset (part ++ [fill]) * epsilonRatio < netBase baseAsset (part ++ [fill])) →
          above → above ∧ ∀ before ∈ (part ++ [fill]).inits, EndsInSale before →
            peakBase baseAsset before * epsilonRatio < netBase baseAsset before := by
        intro above hsale habove
        refine ⟨habove, fun before hmem hends => ?_⟩
        rcases List.prefix_concat_iff.mp ((List.mem_inits _ _).mp hmem) with rfl | hprefix
        · exact hsale hends
        · exact hbefore before ((List.mem_inits _ _).mpr hprefix) hends
      cases hstep with
      | purchase hside =>
          refine hlast (fun hends => ?_) rfl
          cases hside.symm.trans (endsInSale_concat.mp hends)
      | orphan hside hnil =>
          have hmore := hgrows.orphans.trans horphans
          exact absurd hmore (Nat.not_succ_le_self _)
      | overshoot hside hne hover => linarith
      | closing hside hne hclose hpeak =>
          -- the cycle's round trip would end with this fill and not with the last
          have htail := htrips.symm.trans hgrows.roundTrips
          rw [RoundTripWalk.opened, RoundTripWalk.closed, List.append_assoc] at htail
          have hfirst := (List.cons.inj (List.append_cancel_left htail)).1
          have hclosing := htrip.closing
          change _ = some trip.closingKey at hclosing
          rw [hfirst, closingKey_buildRoundTrip] at hclosing
          obtain ⟨last, hlast⟩ : ∃ last, (more.map (·.key)).getLast? = some last := by
            cases more with
            | nil => exact absurd (hcons.symm ▸ rfl) hproper
            | cons first more => exact ⟨_, List.getLast?_eq_some_getLast (List.cons_ne_nil _ _)⟩
          rw [DistinctFills, hcons, List.map_append, List.map_cons] at hkeys
          rw [hcons, List.map_append, List.map_cons, List.getLast?_append,
            List.getLast?_cons, hlast] at hclosing
          have hmem : fill.key ∈ more.map (·.key) := by
            have heq : last = fill.key := by simpa using hclosing
            exact heq ▸ List.mem_of_getLast? hlast
          exact absurd hmem (List.nodup_cons.mp (List.nodup_append.mp hkeys).2.1).1
      | sale hside hne hsale =>
          refine hlast (fun _ => hsale.resolve_right ?_) rfl
          obtain ⟨first, others, rfl⟩ := List.exists_cons_of_ne_nil hne
          refine (hcycle.peak_pos ?_ hprefix ?_).ne'
          · rw [hcons] at hopens
            exact hopens
          · rw [hcons]
            simp

theorem closesAtEnd_of_exact (hratio : 0 ≤ epsilonRatio) {cycles : List (List MyTradeDto)}
    {walk final : RoundTripWalk} {trips : List ReconstructedRoundTrip}
    (hcycles : ∀ cycle ∈ cycles, IsCycle baseAsset cycle) (hkeys : DistinctFills cycles.flatten)
    (hfinal : cycles.flatten.foldl (RoundTripWalk.add baseAsset epsilonRatio)
      (walk.opened baseAsset []) = final)
    (htrips : final.roundTrips = walk.roundTrips ++ trips)
    (hreports : List.Forall₂ ReconstructedRoundTrip.Reports trips cycles)
    (horphans : final.skippedOrphanSells ≤ walk.skippedOrphanSells) :
    ∀ cycle ∈ cycles, ClosesAtEnd baseAsset epsilonRatio cycle := by
  induction hreports generalizing walk with
  | nil => exact fun cycle hcycle => (nomatch hcycle)
  | @cons trip cycle trips cycles htrip hreports ih =>
      have hcycle := hcycles cycle List.mem_cons_self
      have hrest : ∀ c ∈ cycles, IsCycle baseAsset c :=
        fun c hc => hcycles c (List.mem_cons_of_mem _ hc)
      obtain ⟨first, others, hfirst⟩ := List.exists_cons_of_ne_nil hcycle.1
      rw [List.flatten_cons] at hkeys hfinal
      have hown : DistinctFills cycle := by
        rw [DistinctFills, List.map_append] at hkeys
        exact (List.nodup_append.mp hkeys).1
      have hopens : OpensWithPurchase cycle := by
        -- a sale while nothing is held is an orphan
        by_contra hsale
        have hside : first.isBuyer = false := by simpa [OpensWithPurchase, hfirst] using hsale
        obtain ⟨new, hgrows⟩ := exists_grows [] others hfinal hfirst rfl
        have hstep := RoundTripWalk.add_step baseAsset epsilonRatio walk [] first
        generalize RoundTripWalk.add baseAsset epsilonRatio (walk.opened baseAsset []) first =
          walk' at hstep hgrows
        cases hstep with
        | purchase hbuy => cases hside.symm.trans hbuy
        | orphan _ _ => exact absurd (hgrows.orphans.trans horphans) (Nat.not_succ_le_self _)
        | overshoot _ hne _ => exact hne rfl
        | closing _ hne _ _ => exact hne rfl
        | sale _ hne _ => exact hne rfl
      obtain ⟨before, last, hlast⟩ := (List.eq_nil_or_concat cycle).resolve_left hcycle.1
      rw [List.concat_eq_append] at hlast
      have hproper : before ≠ cycle := by
        intro heq
        have hlength := congrArg List.length (heq.trans hlast)
        rw [List.length_append, List.length_singleton] at hlength
        omega
      obtain ⟨hopen, habove⟩ := open_of_exact hratio hcycle hown hfinal htrips htrip horphans
        hopens ⟨[last], hlast.symm⟩ hproper
      obtain ⟨new, hgrows⟩ := exists_grows before [] hfinal hlast hopen
      have hnet : netBase baseAsset (before ++ [last]) = 0 := hlast ▸ hcycle.2.1
      have hdust := peak_mul_nonneg baseAsset hratio (before ++ [last])
      have hclosing : trip.closingKey = last.key := by
        have hkey := htrip.closing
        rw [hlast, List.map_append, List.map_singleton, List.getLast?_concat] at hkey
        exact (Option.some.inj hkey).symm
      have hstep := RoundTripWalk.add_step baseAsset epsilonRatio walk before last
      have hclosed : last.isBuyer = false ∧ trip = buildRoundTrip cycle baseAsset ∧
          (walk.opened baseAsset before).add baseAsset epsilonRatio last =
            (walk.closed baseAsset cycle).opened baseAsset [] := by
        generalize RoundTripWalk.add baseAsset epsilonRatio (walk.opened baseAsset before) last =
          walk' at hstep hgrows
        cases hstep with
        | purchase hside =>
            -- the cycle's round trip would end with a fill of a later cycle
            have htail := List.append_cancel_left (htrips.symm.trans hgrows.roundTrips)
            have hlater := hgrows.closing.subset (htail ▸ List.mem_map_of_mem List.mem_cons_self)
            rw [hclosing] at hlater
            rw [DistinctFills, hlast, List.append_assoc, List.map_append, List.map_append,
              List.map_singleton] at hkeys
            exact absurd hlater (List.nodup_cons.mp (List.nodup_append.mp hkeys).2.1).1
        | orphan hside hnil =>
            exact absurd (hgrows.orphans.trans horphans) (Nat.not_succ_le_self _)
        | overshoot hside hne hover => linarith
        | closing hside hne hclose hpeak =>
            have htail := htrips.symm.trans hgrows.roundTrips
            rw [RoundTripWalk.opened, RoundTripWalk.closed, List.append_assoc, ← hlast] at htail
            exact ⟨hside, (List.cons.inj (List.append_cancel_left htail)).1, hlast ▸ rfl⟩
        | sale hside hne hsale =>
            rcases hsale with hlt | hzero
            · linarith
            · rw [← hlast] at hzero
              refine absurd hzero (hcycle.peak_pos hopens (List.prefix_refl _) ?_).ne'
              have hlength := List.length_pos_of_ne_nil hne
              rw [hlast, List.length_append, List.length_singleton]
              omega
      intro c hc
      rcases List.mem_cons.mp hc with rfl | hc
      · refine ⟨hopens, hlast ▸ endsInSale_concat.mpr hclosed.1, fun part hpart hne hends => ?_⟩
        have hprefix := (List.mem_inits _ _).mp hpart
        rw [hlast] at hprefix hne
        exact habove part ((List.mem_inits _ _).mpr
          ((List.prefix_concat_iff.mp hprefix).resolve_left hne)) hends
      · refine @ih (walk.closed baseAsset cycle) hrest ?_ ?_ ?_ horphans c hc
        · rw [DistinctFills, List.map_append] at hkeys
          exact (List.nodup_append.mp hkeys).2.1
        · rw [← hfinal, List.foldl_append]
          refine congrArg (fun w => List.foldl _ w _) (Eq.symm ?_)
          refine (congrArg (List.foldl _ _) hlast).trans ?_
          rw [List.foldl_append, hopen]
          exact hclosed.2.2
        · rw [htrips, RoundTripWalk.closed, hclosed.2.1, List.append_assoc]
          rfl

end Cycles

/-! ### Reconstruction -/

theorem exact_iff {baseAsset : String} {epsilonRatio : ℚ} (hratio : 0 ≤ epsilonRatio)
    {fills : List MyTradeDto} {cycles : List (List MyTradeDto)} (hkeys : DistinctFills fills)
    (hperm : fills.Perm cycles.flatten) (hsorted : cycles.flatten.Pairwise MyTradeDto.Precedes)
    (hcycles : ∀ cycle ∈ cycles, IsCycle baseAsset cycle) :
    (reconstructRoundTrips fills baseAsset epsilonRatio).Exact cycles ↔
      ∀ cycle ∈ cycles, ClosesAtEnd baseAsset epsilonRatio cycle := by
  have hsort : fills.insertionSort MyTradeDto.sortsBefore = cycles.flatten :=
    insertionSort_eq hkeys hperm (hsorted.imp fun h => h.imp id fun h => ⟨h.1, h.2.le⟩)
  have hflat : DistinctFills cycles.flatten := (hperm.map _).nodup_iff.mp hkeys
  have hstart : RoundTripWalk.start = RoundTripWalk.start.opened baseAsset [] := rfl
  rw [reconstructRoundTrips, hsort, hstart]
  constructor
  · intro hexact
    exact closesAtEnd_of_exact hratio hcycles hflat rfl (List.nil_append _).symm hexact.roundTrips
      hexact.skippedOrphanSells.le
  · intro hcloses
    rw [foldl_cycles hratio _ hcycles hcloses, foldl_closed]
    refine ⟨?_, rfl, rfl⟩
    change List.Forall₂ _ (cycles.map (buildRoundTrip · baseAsset)) cycles
    rw [List.forall₂_map_left_iff, List.forall₂_same]
    exact fun cycle hcycle => reports_buildRoundTrip baseAsset (hcycles cycle hcycle).1

/--
The order of the fills does not matter, each of them is in one place, and later
fills leave the round trips as they are. A history of cycles is reported as it
is exactly if in each cycle every sale before the last leaves more than dust.
-/
theorem reconstructs_exactly_iff (baseAsset : String) (fills : List MyTradeDto)
    (hkeys : DistinctFills fills) :
    (∀ fills', fills.Perm fills' →
      reconstructRoundTrips fills' baseAsset defaultEpsilonRatio =
        reconstructRoundTrips fills baseAsset defaultEpsilonRatio) ∧
    (∃ classes : FillClasses, classes.all.Nodup ∧ classes.all.Perm fills ∧
      classes.Explain baseAsset defaultEpsilonRatio
        (reconstructRoundTrips fills baseAsset defaultEpsilonRatio)) ∧
    (∀ later, DistinctFills (fills ++ later) → (∀ a ∈ fills, ∀ b ∈ later, a.Precedes b) →
      (reconstructRoundTrips fills baseAsset defaultEpsilonRatio).roundTrips <+:
        (reconstructRoundTrips (fills ++ later) baseAsset defaultEpsilonRatio).roundTrips) ∧
    ∀ cycles : List (List MyTradeDto), fills.Perm cycles.flatten →
      cycles.flatten.Pairwise MyTradeDto.Precedes →
      (∀ cycle ∈ cycles, IsCycle baseAsset cycle) →
      ((reconstructRoundTrips fills baseAsset defaultEpsilonRatio).Exact cycles ↔
        ∀ cycle ∈ cycles, ClosesAtEnd baseAsset defaultEpsilonRatio cycle) := by
  refine ⟨fun fills' hperm => ?_, ?_, fun later hall hlater => ?_,
    fun cycles hperm hsorted hcycles => exact_iff (by decide +kernel) hkeys hperm hsorted hcycles⟩
  · rw [reconstructRoundTrips, insertionSort_perm hkeys hperm]
    rfl
  · obtain ⟨classes, htell⟩ := exists_tell baseAsset defaultEpsilonRatio
      (fills.insertionSort MyTradeDto.sortsBefore)
    have hperm := htell.perm.trans (List.perm_insertionSort _ _)
    exact ⟨classes, hperm.nodup_iff.mpr (List.Nodup.of_map _ hkeys), hperm, htell.explain⟩
  · rw [reconstructRoundTrips, reconstructRoundTrips, insertionSort_later hall hlater,
      List.foldl_append]
    obtain ⟨trips, hgrows⟩ := grows_foldl baseAsset defaultEpsilonRatio
      ((fills.insertionSort MyTradeDto.sortsBefore).foldl
        (RoundTripWalk.add baseAsset defaultEpsilonRatio) .start)
      (later.insertionSort MyTradeDto.sortsBefore)
    exact ⟨trips, hgrows.roundTrips.symm⟩

/-- A hundred coins bought for fifty, and sold by one order in two fills. -/
def soldInTwo (first : ℚ) : List MyTradeDto :=
  [⟨1, 1, 100, 50, some 0, "USDT", 1000, true⟩,
    ⟨2, 2, first, first * (3 / 5), some 0, "USDT", 2000, false⟩,
    ⟨3, 2, 100 - first, (100 - first) * (3 / 5), some 0, "USDT", 2000, false⟩]

/-- Sold in halves, the cycle is reported. -/
theorem halves_are_reported :
    (reconstructRoundTrips (soldInTwo 50) "WLD" defaultEpsilonRatio).Exact [soldInTwo 50] := by
  refine ((reconstructs_exactly_iff "WLD" (soldInTwo 50) (by decide +kernel)).2.2.2 [soldInTwo 50]
    (.refl _) (by decide +kernel) ?_).mpr ?_
  · rw [List.forall_mem_singleton]
    decide +kernel
  · rw [List.forall_mem_singleton]
    exact ⟨by decide +kernel, by decide +kernel, by decide +kernel⟩

/-- Where the first fill leaves half a coin, the second is an orphan, and the profit lacks it. -/
theorem last_fill_is_orphaned :
    DistinctFills (soldInTwo (199 / 2)) ∧
      (soldInTwo (199 / 2)).Pairwise MyTradeDto.Precedes ∧
      IsCycle "WLD" (soldInTwo (199 / 2)) ∧
      soldQuote (soldInTwo (199 / 2)) - boughtQuote (soldInTwo (199 / 2)) = 10 ∧
      (reconstructRoundTrips (soldInTwo (199 / 2)) "WLD" defaultEpsilonRatio).skippedOrphanSells =
        1 ∧
      (reconstructRoundTrips (soldInTwo (199 / 2)) "WLD" defaultEpsilonRatio).roundTrips.map
        (·.profit) = [97 / 10] ∧
      ¬(reconstructRoundTrips (soldInTwo (199 / 2)) "WLD" defaultEpsilonRatio).Exact
        [soldInTwo (199 / 2)] := by
  have horphan : (reconstructRoundTrips (soldInTwo (199 / 2)) "WLD"
      defaultEpsilonRatio).skippedOrphanSells = 1 := by
    decide +kernel
  refine ⟨by decide +kernel, by decide +kernel, by decide +kernel, by decide +kernel, horphan,
    by decide +kernel, fun hexact => ?_⟩
  exact absurd (horphan.symm.trans hexact.skippedOrphanSells) (by decide)

end TradingBot.Worker
