import TradingBot.TrailingTrade.Preview
import TradingBot.TrailingTrade.StopLoss

/-!
# The preview agrees with the tick

The only row of the preview the drift gate holds a tick to is the stop-loss row
of a held position, and a tick sells on its stop-loss only with the price at or
below that row. Both sides resolve the level through the same clamp, and the
clamp never moves the level across the price it is compared with.
-/

namespace TradingBot.TrailingTrade

open Decimal EarlyExit

/-! ### The rows that trigger -/

theorem projectRung_rows {totals totals' : LadderTotals} {i : ℕ} {lvl : GridLevel}
    (h : projectRung totals i lvl = some totals') :
    ∃ row, row.trigger = false ∧ totals'.rows = totals.rows ++ [row] := by
  unfold projectRung at h
  obtain ⟨quoteSpent, -, h⟩ := Option.bind_eq_some_iff.mp h
  dsimp only at h
  split at h <;>
  · obtain ⟨fillPrice, -, h⟩ := Option.bind_eq_some_iff.mp h
    cases h
    exact ⟨_, rfl, rfl⟩

theorem projectRungs_rows (levels : List GridLevel) {totals totals' : LadderTotals} {i : ℕ}
    (h : projectRungs totals i levels = some totals')
    (hrows : ∀ row ∈ totals.rows, row.trigger = false) :
    ∀ row ∈ totals'.rows, row.trigger = false := by
  induction levels generalizing totals i with
  | nil =>
      cases h
      exact hrows
  | cons lvl rest ih =>
      obtain ⟨next, hnext, hrest⟩ := Option.bind_eq_some_iff.mp h
      refine ih hrest fun row hrow => ?_
      obtain ⟨added, hadded, heq⟩ := projectRung_rows hnext
      rw [heq, List.mem_append, List.mem_singleton] at hrow
      exact hrow.elim (hrows row) fun h => h ▸ hadded

theorem projectLadder_rows {config : TTConfig} {entryPrice : Decimal} {row : PreviewRow}
    (h : row ∈ projectLadder config entryPrice) : row.trigger = false := by
  unfold projectLadder at h
  split at h
  · cases h
  · split at h
    · cases h
    · next totals htotals =>
        rw [List.mem_append, List.mem_singleton] at h
        rcases h with h | rfl
        · exact projectRungs_rows _ htotals (fun _ h => absurd h List.not_mem_nil) row h
        · rfl

theorem projectRegime_rows {config : TTConfig} {candles : List Candle}
    {currentPrice : Option String} {anchor : Decimal} {row : PreviewRow}
    (h : row ∈ projectRegime config candles currentPrice anchor) : row.trigger = false := by
  unfold projectRegime at h
  split at h
  · cases h
  · dsimp only at h
    split at h
    · cases h
    · simp only [List.mem_append, List.mem_singleton, Option.mem_toList,
        Option.map_eq_some_iff] at h
      rcases h with (rfl | ⟨hold, -, rfl⟩) | h
      · rfl
      · rfl
      · unfold pyramidRows at h
        revert h
        cases (Option.filter (fun x : BullPyramid => x.enabled) _) with
        | none => exact fun h => absurd h List.not_mem_nil
        | some pyramid =>
            dsimp only [Option.elim]
            split
            · exact fun h => absurd h List.not_mem_nil
            · intro h
              obtain ⟨priced, -, rfl⟩ := List.mem_map.mp h
              rfl

theorem projectSells_rows {config : TTConfig} {state : Option TTState} {lbp : Decimal}
    {band : StopBandContext} {trailingFilter : Option TrailingDeltaFilter} {tick : Option Decimal}
    {row : PreviewRow} (h : row ∈ projectSells config state lbp band trailingFilter tick)
    (htrigger : row.trigger = true) :
    ∃ stopPct held, parse config.sell.stopLossPercentage = some stopPct ∧
      row = stopLossRow (resolveTTStopLevel lbp stopPct config.sell.protectiveStop band).stop
        held := by
  unfold projectSells at h
  dsimp only at h
  rw [List.mem_append, List.mem_append] at h
  rcases h with (h | h) | h
  · obtain ⟨sellArm, -, rfl⟩ := Option.map_eq_some_iff.mp (Option.mem_toList.mp h)
    cases htrigger
  · split at h
    · cases h
    · next stopPct hstopPct =>
        rcases List.mem_cons.mp h with rfl | h
        · refine ⟨stopPct, _, ?_, rfl⟩
          exact (decOrNull_eq_some.mp (Option.filter_eq_some_iff.mp hstopPct).1).1
        · unfold nativeTrailRows at h
          repeat' split at h
          all_goals try cases h
          obtain ⟨note, -, rfl⟩ := Option.map_eq_some_iff.mp (Option.mem_toList.mp h)
          cases htrigger
  · split at h
    · cases h
    · rw [List.mem_singleton.mp h] at htrigger
      unfold trailRow at htrigger
      dsimp only at htrigger
      split at htrigger <;> cases htrigger

theorem previewRows_trigger {input : TTInput} {row : PreviewRow}
    (h : row ∈ previewRows ttPreviewSeams input) (htrigger : row.trigger = true) :
    ∃ lbp stopPct held, safeDecimal input.state.avgEntryPrice = some lbp ∧
      parse input.config.sell.stopLossPercentage = some stopPct ∧
      row = stopLossRow (resolveTTStopLevel lbp stopPct input.config.sell.protectiveStop
        (marketBand input.market)).stop held := by
  obtain ⟨section_, hsection, hrow⟩ := List.mem_flatMap.mp h
  unfold ttPreviewSeams ttPreviewLevels previewInput at hsection
  dsimp only at hsection
  split at hsection
  · cases hsection
  · next lbp hlbp =>
      split at hsection
      · cases hsection
      · have hmem := (List.mem_filter.mp hsection).1
        simp only [List.mem_cons, List.not_mem_nil, or_false] at hmem
        rcases hmem with rfl | rfl | rfl
        · rw [projectLadder_rows hrow] at htrigger
          cases htrigger
        · obtain ⟨stopPct, held, hstopPct, heq⟩ := projectSells_rows hrow htrigger
          refine ⟨lbp, stopPct, held, ?_, hstopPct, heq⟩
          have hread := (decOrNull_eq_some.mp hlbp).1
          unfold readPosition at hread
          split at hread
          · exact hread
          · cases hread
        · rw [projectRegime_rows hrow] at htrigger
          cases htrigger

/-! ### Agreement -/

theorem anyActionable_below {cur level : Decimal} (h : cur.lte level = true)
    (rest : List (DecimalString × TriggerWhen)) :
    anyActionable cur ((.printed level, .below) :: rest) = .ok true := by
  change (if cur.lte level then Except.ok true else anyActionable cur rest) = .ok true
  rw [if_pos h]

theorem checkDecision_ok {input : TTInput} {d : Decision}
    (h : reasonOf d = some "grid-stop-loss" →
      ∃ lbp price stopLoss, StopFires input input.state lbp price stopLoss) :
    checkDecision (previewRows ttPreviewSeams input) input.market.currentPrice d = .ok () := by
  unfold checkDecision
  split
  · rfl
  · next reason hreason =>
      split
      · rfl
      · next first rest hrows =>
          have hfirst : first ∈ (previewRows ttPreviewSeams input).filterMap
              (·.triggerAt reason) := by
            rw [hrows]
            exact List.mem_cons_self
          obtain ⟨row, hrow, htrigger⟩ := List.mem_filterMap.mp hfirst
          unfold PreviewRow.triggerAt at htrigger
          split at htrigger
          · next hcode =>
              rw [Bool.and_eq_true, decide_eq_true_eq] at hcode
              obtain ⟨lbp, stopPct, held, hlbp, hstopPct, rfl⟩ :=
                previewRows_trigger hrow hcode.2
              cases htrigger
              have hstop : reason = "grid-stop-loss" := hcode.1.symm
              obtain ⟨lbp', price, stopPct', hfires⟩ := h (hstop ▸ hreason)
              cases hlbp.symm.trans hfires.lbp_eq
              cases hstopPct.symm.trans hfires.stopLoss_eq
              have hprice : newDecimalString (.raw input.market.currentPrice) = .ok price := by
                simp only [newDecimalString, DecimalString.toDecimal_raw, hfires.price_eq]
              have hagrees := anyActionable_below hfires.reached rest
              simp only [hprice, hagrees, bind, Except.bind, ↓reduceIte, pure, Except.pure]
          · cases htrigger

theorem stopLossRow_mem {config : TTConfig} {state : TTState} {lbp stopPct : Decimal}
    {band : StopBandContext} {trailingFilter : Option TrailingDeltaFilter} {tick : Option Decimal}
    (hfraction : unitFraction config.sell.stopLossPercentage = some stopPct)
    (hheld : (decOrNull state.avgEntryPrice).isSome = true) :
    stopLossRow (resolveTTStopLevel lbp stopPct config.sell.protectiveStop band).stop true ∈
      projectSells config (some state) lbp band trailingFilter tick := by
  unfold projectSells
  dsimp only
  rw [hfraction, Option.any_some, hheld]
  exact List.mem_append_left _ (List.mem_append_right _ List.mem_cons_self)

theorem ttPreviewLevels_sells {input : PreviewInput TTConfig TTState} {lbp : Decimal}
    {row : PreviewRow} (hentry : decOrNull input.entryPrice = some lbp)
    (hpos : lbp.lte (num 0) = false)
    (hrow : row ∈ projectSells input.config input.state lbp
      { reference := input.currentPrice, band := input.filters.bind (·.percentPriceBySide) }
      (input.filters.bind (·.trailingDelta))
      (decOrNull (input.filters.map fun f => DecimalString.raw f.tickSize))) :
    row ∈ (ttPreviewLevels input).flatMap (·.rows) := by
  unfold ttPreviewLevels
  rw [hentry]
  dsimp only
  rw [if_neg (by simp [hpos])]
  refine List.mem_flatMap.mpr ⟨⟨"Sell targets", _⟩, List.mem_filter.mpr ⟨?_, ?_⟩, hrow⟩
  · exact List.mem_cons_of_mem _ List.mem_cons_self
  · rw [Bool.not_eq_true', List.isEmpty_eq_false_iff]
    exact List.ne_nil_of_mem hrow

theorem StopFires.row {input : TTInput} {lbp price stopLoss : Decimal}
    (h : StopFires input input.state lbp price stopLoss)
    (hschema : isCurrentSchema input.state = true)
    (hbasis : (decOrNull input.state.avgEntryPrice).isSome = true) :
    ∃ row ∈ previewRows ttPreviewSeams input, row.triggerAt "grid-stop-loss" =
      some (.printed (resolveTTStopLevel lbp stopLoss input.config.sell.protectiveStop
        (marketBand input.market)).stop, .below) := by
  have hlbp : decOrNull input.state.avgEntryPrice = some lbp := by
    obtain ⟨d, hd⟩ := Option.isSome_iff_exists.mp hbasis
    cases h.lbp_eq.symm.trans (decOrNull_eq_some.mp hd).1
    exact hd
  have hentry : ttPreviewSeams.readAvgEntryPrice input.state = input.state.avgEntryPrice := by
    simp [ttPreviewSeams, readPosition, hschema]
  have hfraction : unitFraction input.config.sell.stopLossPercentage = some stopLoss := by
    have hunit : (stopLoss.gt (num 0) && stopLoss.lte (num 1)) = true := by
      rw [h.stopLoss_pos, h.stopLoss_le]
      rfl
    have hfinite : stopLoss.isFinite = true := by
      rcases stopLoss with _ | ⟨_ | _⟩ | q
      case num => rfl
      all_goals cases hunit
    exact Option.filter_eq_some_iff.mpr
      ⟨decOrNull_eq_some.mpr ⟨h.stopLoss_eq, hfinite⟩, hunit⟩
  have hread : decOrNull (previewInput ttPreviewSeams input).entryPrice = some lbp := by
    rw [previewInput, hentry, hlbp]
  exact ⟨_, ttPreviewLevels_sells hread h.lbp_pos (stopLossRow_mem hfraction hbasis), rfl⟩

/--
The preview never contradicts a tick, and the clamp never changes whether the
stop-loss fires: a tick passes the drift gate, and a price is at or below the
resolved stop exactly when it is at or below the fraction of the cost basis. Where
the preview can read the cost basis, a tick that sells on its stop-loss has the row
of that stop and sells at or below it.
-/
theorem preview_agrees_with_tick (input : TTInput) :
    (∀ output, computeTick input = .ok output →
      assertPreviewTickAgreement ttPreviewSeams input output = .ok ()) ∧
    (∀ output, computeTick input = .ok output →
      isCurrentSchema input.state = true → (decOrNull input.state.avgEntryPrice).isSome = true →
      ∀ d ∈ output.decisions, reasonOf d = some "grid-stop-loss" →
        ∃ row ∈ previewRows ttPreviewSeams input, ∃ level price,
          row.triggerAt "grid-stop-loss" = some (.printed level, .below) ∧
          parse input.market.currentPrice = some price ∧ price.lte level = true) ∧
    (∀ price, parse input.market.currentPrice = some price →
      ∀ (avgEntry stopPct : Decimal) (protectiveStop : ProtectiveStopConfig) (mode : OnBandBlock),
        price.lte (resolveTTStopLevel avgEntry stopPct
            (some { protectiveStop with onBandBlock := some mode })
            (marketBand input.market)).stop =
          price.lte (avgEntry.mul stopPct)) := by
  refine ⟨?_, ?_, ?_⟩
  · intro output htick
    exact forM_ok fun d hd => checkDecision_ok fun hreason => computeTick_stopLoss htick hd hreason
  · intro output htick hschema hbasis d hd hreason
    obtain ⟨lbp, price, stopLoss, hfires⟩ := computeTick_stopLoss htick hd hreason
    obtain ⟨row, hrow, htrigger⟩ := hfires.row hschema hbasis
    exact ⟨row, hrow, _, price, htrigger, hfires.price_eq, hfires.reached⟩
  · intro price hprice avgEntry stopPct protectiveStop mode
    exact lte_resolveTTStopLevel hprice avgEntry stopPct _

theorem preview_agrees_with_stopped_tick :
    ∃ output, computeTick (sampleInput sampleConfig sampleHeld "85" 1) = .ok output ∧
      output.decisions.map reasonOf = [some "grid-stop-loss"] ∧
      assertPreviewTickAgreement ttPreviewSeams (sampleInput sampleConfig sampleHeld "85" 1)
        output = .ok () ∧
      (num 85).lte (resolveTTStopLevel (num 100) (num (9 / 10))
          (some ⟨true, some "0.99", some .clamp⟩) (marketBand
            (sampleInput sampleConfig sampleHeld "85" 1).market)).stop =
        (num 85).lte ((num 100).mul (num (9 / 10))) := by
  have hsold : (computeTick (sampleInput sampleConfig sampleHeld "85" 1)).toOption.map
      (fun output => output.decisions.map reasonOf) = some [some "grid-stop-loss"] := by
    decide +kernel
  obtain ⟨output, htick, hreasons⟩ := exists_ok_of_map hsold
  have hagrees := preview_agrees_with_tick (sampleInput sampleConfig sampleHeld "85" 1)
  exact ⟨output, htick, hreasons, hagrees.1 output htick,
    hagrees.2.2 (num 85) (by decide +kernel) (num 100) (num (9 / 10))
      ⟨true, some "0.99", none⟩ .clamp⟩

end TradingBot.TrailingTrade
