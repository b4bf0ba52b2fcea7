import TradingBot.Incremental
import TradingBot.Momentum.StopLevel

/-!
# The profit mark and its minutes

The mark is the largest of the entry price, the mark it started from and the
closes that count, so it does not depend on how the minutes are handed over. The
epoch does, where no tick has set it: it is the newest close of the first
minutes a tick sees.
-/

namespace TradingBot.Momentum

open Decimal

section Window

variable {minutes : ℕ} {sinceMs : ℤ} {candles : List Candle}

/-- The closes of a window that count towards the mark. -/
def countedCloses (minutes : ℕ) (sinceMs : ℤ) (candles : List Candle) : Set ℚ :=
  {x | ∃ c ∈ candles, ratchets minutes sinceMs c = true ∧ parse c.close = some (num x)}

theorem ratchetStep_num {candle : Candle} {close : ℚ}
    (hclose : parse candle.close = some (num close))
    (high : ℚ) :
    ratchetStep minutes sinceMs (num high) candle =
      some (num (if ratchets minutes sinceMs candle then max high close else high)) := by
  unfold ratchetStep
  by_cases hcounts : ratchets minutes sinceMs candle = true
  · rw [if_pos hcounts, if_pos hcounts, hclose]
    by_cases hgt : high < close
    · simp [hgt, max_eq_right hgt.le]
    · simp [hgt, max_eq_left (not_lt.mp hgt)]
  · rw [if_neg hcounts, if_neg hcounts]

/-- One window takes the mark to the largest of itself and the closes that count. -/
theorem ratchet_window (hpriced : ∀ c ∈ candles, Priced c) (high : ℚ) :
    ∃ mark : ℚ, candles.foldlM (ratchetStep minutes sinceMs) (num high) = some (num mark) ∧
      IsGreatest (insert high (countedCloses minutes sinceMs candles)) mark := by
  induction candles generalizing high with
  | nil =>
      refine ⟨high, rfl, Set.mem_insert _ _, ?_⟩
      rintro x (rfl | ⟨c, hc, -⟩)
      · exact le_rfl
      · cases hc
  | cons candle rest ih =>
      obtain ⟨close, hclose⟩ := hpriced candle List.mem_cons_self
      have hrest : ∀ c ∈ rest, Priced c := fun c hc => hpriced c (List.mem_cons_of_mem _ hc)
      obtain ⟨mark, hrun, hmem, hbound⟩ := ih hrest
        (if ratchets minutes sinceMs candle then max high close else high)
      refine ⟨mark, ?_, ?_, ?_⟩
      · rw [List.foldlM_cons, ratchetStep_num hclose]
        exact hrun
      · rcases hmem with heq | ⟨c, hc, hcounts, hx⟩
        · rw [heq]
          by_cases hcounts : ratchets minutes sinceMs candle = true
          · rw [if_pos hcounts]
            rcases max_choice high close with h | h
            · exact .inl h
            · exact .inr ⟨candle, List.mem_cons_self, hcounts, by rw [h]; exact hclose⟩
          · exact .inl (if_neg hcounts)
        · exact .inr ⟨c, List.mem_cons_of_mem _ hc, hcounts, hx⟩
      · have hstart := hbound (Set.mem_insert _ _)
        rintro x (rfl | ⟨c, hc, hcounts, hx⟩)
        · refine le_trans ?_ hstart
          split
          · exact le_max_left _ _
          · exact le_rfl
        · rcases List.mem_cons.mp hc with rfl | hc
          · rw [hclose] at hx
            cases hx
            rw [if_pos hcounts] at hstart
            exact (le_max_right _ _).trans hstart
          · exact hbound (.inr ⟨c, hc, hcounts, hx⟩)

end Window

/-! ### Epochs -/

/-- Minutes that establish no epoch are still open. -/
theorem not_isClosed_of_profitTrailEpoch {candles : List Candle}
    (h : profitTrailEpoch candles = none) : ∀ c ∈ candles, c.isClosed = false := by
  have hkeeps : ∀ (candles : List Candle) (newest : Option ℤ),
      candles.foldl epochStep newest = none →
        newest = none ∧ ∀ c ∈ candles, c.isClosed = false := by
    intro candles
    induction candles with
    | nil => exact fun newest h => ⟨h, by simp⟩
    | cons candle rest ih =>
        intro newest h
        obtain ⟨hnext, hrest⟩ := ih _ h
        have hnewest : newest = none := by
          unfold epochStep at hnext
          dsimp only at hnext
          split at hnext
          · cases hnext
          · exact hnext
        subst hnewest
        have hopen : candle.isClosed = false := by
          by_contra hclosed
          simp [epochStep, Bool.eq_true_of_not_eq_false hclosed] at hnext
        refine ⟨rfl, fun c hc => ?_⟩
        rcases List.mem_cons.mp hc with rfl | hc
        · exact hopen
        · exact hrest c hc
  exact (hkeeps candles none h).2

/-! ### Runs -/

section Runs

variable {config : MomentumConfig} {cfg : MomentumProfitTrail} {entry : ℚ}

/-- The ticks of a position, each handed its own minutes. -/
def profitMarkRun (config : MomentumConfig) (entry : ℚ) (mark : ProfitMark)
    (ticks : List (List Candle)) : Option ProfitMark :=
  ticks.foldlM (advanceProfitMark config (num entry)) mark

/-- The epoch of a run: the one it starts with, else the first its ticks establish. -/
def epochOf (mark : ProfitMark) (ticks : List (List Candle)) : Option ℤ :=
  mark.sinceMs.or (ticks.findSome? profitTrailEpoch)

/-- The prices the mark of a run is the largest of. -/
def markCandidates (minutes : ℕ) (entry : ℚ) (high : Option ℚ) (epoch : Option ℤ)
    (ticks : List (List Candle)) : Set ℚ :=
  {x | x = entry ∨ high = some x ∨
    ∃ sinceMs, epoch = some sinceMs ∧ x ∈ countedCloses minutes sinceMs ticks.flatten}

theorem advanceProfitMark_eq (hcfg : config.profitLeg = some cfg) {high : Option ℚ}
    {sinceMs : Option ℤ} {candles : List Candle} (hpriced : ∀ c ∈ candles, Priced c) :
    ∃ mark : ℚ, advanceProfitMark config (num entry) ⟨high.map num, sinceMs⟩ candles =
        some ⟨some (num mark), sinceMs.or (profitTrailEpoch candles)⟩ ∧
      IsGreatest (markCandidates (ratchetMinutes cfg.ratchetMinutes) entry high
        (sinceMs.or (profitTrailEpoch candles)) [candles]) mark := by
  have hstart : ((high.map num).getD (num entry)).max (num entry) =
      num (max (high.getD entry) entry) := by
    cases high <;> exact max_num
  have hle : high.getD entry ≤ max (high.getD entry) entry := le_max_left _ _
  have hattained : max (high.getD entry) entry = entry ∨
      high = some (max (high.getD entry) entry) := by
    cases high with
    | none => exact .inl (max_self entry)
    | some high =>
        rcases max_choice high entry with h | h
        · exact .inr (congrArg some h.symm)
        · exact .inl h
  unfold advanceProfitMark ratchetProfitHigh
  rw [hcfg]
  generalize sinceMs.or (profitTrailEpoch candles) = epoch
  cases epoch with
  | none =>
      refine ⟨max (high.getD entry) entry, ?_, hattained.imp_right .inl, ?_⟩
      · dsimp only
        rw [hstart]
        rfl
      · rintro x (rfl | rfl | ⟨sinceMs, hnone, -⟩)
        · exact le_max_right _ _
        · exact hle
        · cases hnone
  | some epoch =>
      obtain ⟨mark, hrun, hmem, hbound⟩ :=
        @ratchet_window (ratchetMinutes cfg.ratchetMinutes) epoch candles hpriced
          (max (high.getD entry) entry)
      have hfloor := hbound (Set.mem_insert _ _)
      refine ⟨mark, ?_, ?_, ?_⟩
      · dsimp only
        rw [hstart, hrun]
        rfl
      · rcases hmem with rfl | hcounted
        · exact hattained.imp_right .inl
        · exact .inr (.inr ⟨epoch, rfl, by simpa using hcounted⟩)
      · rintro x (rfl | rfl | ⟨sinceMs, hsince, hcounted⟩)
        · exact (le_max_right _ _).trans hfloor
        · exact hle.trans hfloor
        · cases hsince
          exact hbound (.inr (by simpa using hcounted))

theorem profitMarkRun_eq (hcfg : config.profitLeg = some cfg) {high : Option ℚ}
    {sinceMs : Option ℤ} (ticks : List (List Candle)) (hne : ticks ≠ [])
    (hpriced : ∀ c ∈ ticks.flatten, Priced c) :
    ∃ mark : ℚ, profitMarkRun config entry ⟨high.map num, sinceMs⟩ ticks =
        some ⟨some (num mark), epochOf ⟨high.map num, sinceMs⟩ ticks⟩ ∧
      IsGreatest (markCandidates (ratchetMinutes cfg.ratchetMinutes) entry high
        (epochOf ⟨high.map num, sinceMs⟩ ticks) ticks) mark := by
  induction ticks generalizing high sinceMs with
  | nil => exact absurd rfl hne
  | cons slice rest ih =>
      have hslice : ∀ c ∈ slice, Priced c := fun c hc => hpriced c (by simp [hc])
      have hrest : ∀ c ∈ rest.flatten, Priced c := fun c hc =>
        hpriced c (by rw [List.flatten_cons]; exact List.mem_append_right _ hc)
      obtain ⟨first, hfirst, hmem, hbound⟩ :=
        @advanceProfitMark_eq config cfg entry hcfg high sinceMs
        slice hslice
      have hepoch : epochOf ⟨high.map num, sinceMs⟩ (slice :: rest) =
          (sinceMs.or (profitTrailEpoch slice)).or (rest.findSome? profitTrailEpoch) := by
        rw [epochOf, List.findSome?_cons]
        cases sinceMs with
        | some _ => rfl
        | none => cases profitTrailEpoch slice <;> rfl
      -- a slice that leaves the epoch unset has no close that could count
      have hsliceCounts : ∀ epoch, (sinceMs.or (profitTrailEpoch slice)).or
            (rest.findSome? profitTrailEpoch) = some epoch →
          ∀ x ∈ countedCloses (ratchetMinutes cfg.ratchetMinutes) epoch slice,
            sinceMs.or (profitTrailEpoch slice) = some epoch := by
        intro epoch hsome x hx
        cases hone : sinceMs.or (profitTrailEpoch slice) with
        | some e => rwa [hone] at hsome
        | none =>
            obtain ⟨c, hc, hcounts, -⟩ := hx
            have hopen := not_isClosed_of_profitTrailEpoch (Option.or_eq_none_iff.mp hone).2 c hc
            simp [ratchets, hopen] at hcounts
      cases rest with
      | nil =>
          refine ⟨first, ?_, ?_⟩
          · rw [hepoch]
            simpa [profitMarkRun] using hfirst
          · rw [hepoch]
            simpa using ⟨hmem, hbound⟩
      | cons second rest =>
          obtain ⟨mark, hrun, hmem', hbound'⟩ := @ih (some first)
            (sinceMs.or (profitTrailEpoch slice)) (List.cons_ne_nil _ _) hrest
          refine ⟨mark, ?_, ?_, ?_⟩
          · rw [hepoch]
            unfold profitMarkRun at hrun ⊢
            rw [List.foldlM_cons, hfirst]
            exact hrun
          · rw [hepoch]
            rcases hmem' with rfl | heq | ⟨epoch, hepoch', hcounted⟩
            · exact .inl rfl
            · cases heq
              rcases hmem with rfl | heq | ⟨epoch, hepoch', hcounted⟩
              · exact .inl rfl
              · exact .inr (.inl heq)
              · refine .inr (.inr ⟨epoch, ?_, ?_⟩)
                · rw [hepoch']
                  rfl
                · obtain ⟨c, hc, hcounts⟩ := hcounted
                  exact ⟨c, by simp at hc ⊢; exact .inl hc, hcounts⟩
            · refine .inr (.inr ⟨epoch, hepoch', ?_⟩)
              obtain ⟨c, hc, hcounts⟩ := hcounted
              exact ⟨c, by rw [List.flatten_cons]; exact List.mem_append_right _ hc, hcounts⟩
          · rw [hepoch]
            have hfirstLe : first ≤ mark := hbound' (.inr (.inl rfl))
            rintro x (rfl | heq | ⟨epoch, hepoch', c, hc, hcounts⟩)
            · exact hbound' (.inl rfl)
            · exact (hbound (.inr (.inl heq))).trans hfirstLe
            · rw [List.flatten_cons, List.mem_append] at hc
              rcases hc with hc | hc
              · have hone := hsliceCounts epoch hepoch' x ⟨c, hc, hcounts⟩
                refine (hbound (.inr (.inr ⟨epoch, hone, c, ?_, hcounts⟩))).trans hfirstLe
                simpa using hc
              · exact hbound' (.inr (.inr ⟨epoch, hepoch', c, hc, hcounts⟩))

theorem flatten_congr {minutes : ℕ} {high : Option ℚ} {epoch : Option ℤ}
    {first second : List (List Candle)} (hsame : ∀ c, c ∈ first.flatten ↔ c ∈ second.flatten) :
    markCandidates minutes entry high epoch first =
      markCandidates minutes entry high epoch second := by
  unfold markCandidates countedCloses
  simp only [hsame]

/-- Two runs that are handed the same minutes end with the same mark, if their epochs agree. -/
theorem profit_mark_schedule_free (config : MomentumConfig) (cfg : MomentumProfitTrail) (entry : ℚ)
    (high : Option ℚ) (sinceMs : Option ℤ) (first second : List (List Candle))
    (hcfg : config.profitLeg = some cfg) (hfirst : first ≠ []) (hsecond : second ≠ [])
    (hpriced : ∀ c ∈ first.flatten, Priced c)
    (hsame : ∀ c, c ∈ first.flatten ↔ c ∈ second.flatten)
    (hepoch : sinceMs.isSome = true ∨
      first.findSome? profitTrailEpoch = second.findSome? profitTrailEpoch) :
    ∃ mark : ℚ,
      let epoch := sinceMs.or (first.findSome? profitTrailEpoch)
      profitMarkRun config entry ⟨high.map num, sinceMs⟩ first = some ⟨some (num mark), epoch⟩ ∧
      profitMarkRun config entry ⟨high.map num, sinceMs⟩ second = some ⟨some (num mark), epoch⟩ ∧
      IsGreatest (markCandidates (ratchetMinutes cfg.ratchetMinutes) entry high epoch first)
        mark := by
  have hepochs : epochOf ⟨high.map num, sinceMs⟩ second =
      epochOf ⟨high.map num, sinceMs⟩ first := by
    unfold epochOf
    rcases hepoch with hset | hagree
    · obtain ⟨epoch, rfl⟩ := Option.isSome_iff_exists.mp hset
      rfl
    · rw [hagree]
  obtain ⟨mark, hrun, hgreatest⟩ :=
    @profitMarkRun_eq config cfg entry hcfg high sinceMs first hfirst hpriced
  obtain ⟨mark', hrun', hgreatest'⟩ := @profitMarkRun_eq config cfg entry hcfg high sinceMs second
    hsecond fun c hc => hpriced c ((hsame c).mpr hc)
  rw [hepochs, ← flatten_congr hsame] at hgreatest'
  have hmarks : mark' = mark := hgreatest'.unique hgreatest
  subst hmarks
  rw [hepochs] at hrun'
  exact ⟨mark', hrun, hrun', hgreatest⟩

/-- A closed minute that opened at an instant and closed at a price. -/
def minuteAt (openTimeMs : ℤ) (close : String) : Candle where
  openTimeMs := openTimeMs
  closeTimeMs := openTimeMs + 59999
  openPrice := close
  high := close
  low := close
  close := close
  volume := "1"
  isClosed := true

def minuteTrail : MomentumProfitTrail := ⟨true, some "0.05", some "0.03", some 1⟩

def minuteTrailConfig : MomentumConfig :=
  { defaultMomentumConfig with profitTrail := some minuteTrail }

/-- Minute by minute or at once, a position opened at the epoch gets the same mark. -/
theorem minutes_at_once_or_apart :
    ∃ mark : ℚ,
      profitMarkRun minuteTrailConfig 100 ⟨none, some 0⟩
          [[minuteAt 0 "101"], [], [minuteAt 60000 "110"]] = some ⟨some (num mark), some 0⟩ ∧
        profitMarkRun minuteTrailConfig 100 ⟨none, some 0⟩
          [[minuteAt 60000 "110", minuteAt 0 "101"]] = some ⟨some (num mark), some 0⟩ := by
  obtain ⟨mark, hfirst, hsecond, -⟩ := profit_mark_schedule_free minuteTrailConfig minuteTrail 100
    none (some 0) [[minuteAt 0 "101"], [], [minuteAt 60000 "110"]]
    [[minuteAt 60000 "110", minuteAt 0 "101"]] (by decide) (by decide) (by decide)
    (by
      intro c hc
      simp only [List.flatten_cons, List.flatten_nil, List.append_nil, List.nil_append,
        List.singleton_append, List.mem_cons, List.not_mem_nil, or_false] at hc
      rcases hc with rfl | rfl
      · exact ⟨101, by decide +kernel⟩
      · exact ⟨110, by decide +kernel⟩)
    (by
      intro c
      simp [or_comm]) (.inl rfl)
  exact ⟨mark, hfirst, hsecond⟩

/-- Where no epoch is set, the first minutes seen set it: apart they raise the mark, at once not. -/
theorem unset_epoch_follows_schedule :
    profitMarkRun minuteTrailConfig 100 ⟨none, none⟩
        [[minuteAt 0 "101"], [minuteAt 60000 "110"]] = some ⟨some (num 110), some 60000⟩ ∧
      profitMarkRun minuteTrailConfig 100 ⟨none, none⟩
        [[minuteAt 0 "101", minuteAt 60000 "110"]] = some ⟨some (num 100), some 120000⟩ := by
  decide +kernel

end Runs

end TradingBot.Momentum
