import TradingBot.TrailingTrade.SentOrders

/-!
# A held position reaches its stop-loss

Below the stop-loss level nothing on the way of a tick sells for another reason:
the signal-driven sell wants a profit, the wallet holds what was sized, and the
stop-loss is the first rung. What can keep a held position from its stop is a
branch before the sell gate, and that is the re-entry timer and nothing else.
-/

namespace TradingBot.TrailingTrade

open Decimal EarlyExit BranchChain Grid

/-! ### The clamp and the price -/

/-- A level between a stop and the price is below the price, and so is the stop. -/
theorem not_lte_of_between {price : ℚ} {floor stop : Decimal} (hfloor : floor.lt (num price) = true)
    (hstop : stop.gte floor = false) :
    (num price).lte floor = false ∧ (num price).lte stop = false := by
  cases floor with
  | nan => simp at hfloor
  | inf s =>
      cases s with
      | false => cases hfloor
      | true => cases stop <;> simp_all [lte, gte]
  | num f =>
      rw [lt_num, decide_eq_true_eq] at hfloor
      refine ⟨by simpa using hfloor, ?_⟩
      cases stop with
      | nan => rfl
      | inf s => cases s <;> simp_all [lte, gte]
      | num s =>
          rw [gte_num, decide_eq_false_iff_not, not_le] at hstop
          simpa using hstop.trans hfloor

/-- Whether the price has reached a clamped trigger does not depend on the clamp. -/
theorem lte_clampStopToExchangeFloor {reference : String} {price : Decimal}
    (hprice : parse reference = some price) (stop : Decimal)
    (band : Option PercentPriceBySideFilter) (limitOffset : Decimal) :
    price.lte (clampStopToExchangeFloor stop reference band limitOffset).1 = price.lte stop := by
  unfold clampStopToExchangeFloor
  split
  · rfl
  · split
    · rfl
    · split
      · next ref down href _ =>
          dsimp only
          split
          · rfl
          · next hclamped =>
              obtain ⟨hparse, hpositive⟩ := Option.filter_eq_some_iff.mp href
              obtain rfl : price = ref := Option.some.inj (hprice.symm.trans hparse)
              rw [Bool.and_eq_true] at hpositive
              obtain ⟨p, rfl⟩ := isFinite_iff.mp hpositive.1
              simp only [Bool.or_eq_true, not_or, Bool.not_eq_true, Bool.not_eq_false'] at hclamped
              obtain ⟨hfloor, hstop⟩ := not_lte_of_between hclamped.1 hclamped.2
              rw [hfloor, hstop]
      · rfl

/-- The stop-loss fires below the plain fraction of the cost basis, whatever the band does. -/
theorem lte_resolveTTStopLevel {market : MarketSnapshot} {price : Decimal}
    (hprice : parse market.currentPrice = some price) (avgEntry stopPct : Decimal)
    (protectiveStop : Option ProtectiveStopConfig) :
    price.lte (resolveTTStopLevel avgEntry stopPct protectiveStop (marketBand market)).stop =
      price.lte (avgEntry.mul stopPct) := by
  unfold resolveTTStopLevel
  dsimp only
  split
  · rfl
  · split
    · rfl
    · split
      · rfl
      · exact lte_clampStopToExchangeFloor hprice _ _ _

/-! ### What was sized is in the wallet -/

/-- What is left of a minimum in the reclaimable part is left of it in all that is locked. -/
theorem lte_add_of_lte_add_min {m : ℚ} {free own locked : Decimal}
    (h : (num m).lte (free.add (own.min locked)) = true) :
    (num m).lte (free.add locked) = true := by
  unfold Decimal.min at h
  split at h
  · cases free <;> cases h
  · split at h
    · exact h
    · next hnan hlt =>
        -- the reclaimable part is the smaller one, so only its order to the locked part matters
        rcases free with _ | ⟨_ | _⟩ | f <;> rcases own with _ | ⟨_ | _⟩ | o <;>
          rcases locked with _ | ⟨_ | _⟩ | l <;> simp [add, lte, lt, isNaN] at h hlt hnan ⊢
        linarith

theorem parseFilters_minQty {filters : SymbolFilters} {parsed : SizeFilters} {minQty : Decimal}
    (h : parseFilters filters = some parsed) (hmin : parse filters.minQty = some minQty) :
    parsed.minQty = minQty := by
  unfold parseFilters at h
  split at h
  · next step minQty' minNotional hstep hminQty hminNotional =>
      split at h
      · cases h
      · cases h
        exact Option.some.inj (hminQty.symm.trans hmin)
  · cases h

/-- A rounded amount that clears a minimum was cut from an amount that does. -/
theorem lte_of_roundToStep {step base price minNotional : Decimal} {minQty : ℚ}
    (hstep : step.lte (num 0) = false) (hbase : base.lte (num 0) = false)
    (hmin : (roundToStep base step).lt (num minQty) = false)
    (hnotional : meetsMinNotional (roundToStep base step) price minNotional = true) :
    (num minQty).lte base = true := by
  cases base with
  | nan => simp [roundToStep, roundDown, div, floor, meetsMinNotional, gte] at hnotional
  | inf s =>
      cases s with
      | false => rfl
      | true => cases hbase
  | num b =>
      cases step with
      | nan => simp [roundToStep, roundDown, div, floor, meetsMinNotional, gte] at hnotional
      | inf s => simp [roundToStep, roundDown, div, floor, mul, meetsMinNotional, gte] at hnotional
      | num u =>
          rw [lte_num, decide_eq_false_iff_not, not_le] at hstep
          rw [roundToStep_num hstep, lt_num, decide_eq_false_iff_not, not_lt] at hmin
          rw [lte_num, decide_eq_true_eq]
          exact hmin.trans (floorTo_le hstep b)

/-- A sell that can be sized has at least the minimum quantity to sell. -/
theorem lte_base_of_sized {base quantity : DecimalString} {currentPrice : String}
    {filters : SymbolFilters} {minQty : ℚ}
    (h : computeSellQuantity base currentPrice filters = .ok quantity)
    (hmin : parse filters.minQty = some (num minQty)) :
    ∃ b, base.toDecimal = some b ∧ (num minQty).lte b = true := by
  unfold computeSellQuantity at h
  split at h
  · cases h
  · next parsed hparsed =>
      split at h
      · next free price hfree hprice =>
          split at h
          · cases h
          · split at h
            · cases h
            · next hpos =>
                split at h
                · next sized hsized =>
                    obtain ⟨-, hminQty, hnotional, -⟩ := finalise_eq_ok hsized
                    refine ⟨free, hfree, ?_⟩
                    have hmin' : parsed.minQty = num minQty := parseFilters_minQty hparsed hmin
                    rw [hmin'] at hminQty
                    exact lte_of_roundToStep parsed.step_pos (by simpa using hpos) hminQty hnotional
                · cases h
                · cases h
      · cases h

theorem lte_of_lte_min {m : ℚ} {x y : Decimal} (h : (num m).lte (x.min y) = true) :
    (num m).lte y = true := by
  unfold Decimal.min at h
  split at h
  · cases h
  · split at h
    · exact h
    · next hnan hlt =>
        rcases x with _ | ⟨_ | _⟩ | x <;> rcases y with _ | ⟨_ | _⟩ | y <;>
          simp [lte, lt, isNaN] at h hlt hnan ⊢
        linarith

/-- A position that can be sold out of a readable wallet is not dropped as dust. -/
theorem not_dropsBasis_of_sized {input : TTInput} {state : TTState} {quantity : DecimalString}
    {minQty : ℚ} (hreadable : input.account.readable = true)
    (hsized : computeSellQuantity (sellableBase input state) input.market.currentPrice
      input.market.symbolInfo.filters = .ok quantity)
    (hmin : parse input.market.symbolInfo.filters.minQty = some (num minQty)) :
    ¬ DropsBasis input state := by
  intro hdrop
  obtain ⟨minQty', hmin', hdust⟩ := hdrop.dust
  cases hmin.symm.trans hmin'
  obtain ⟨base, hbase, hle⟩ := lte_base_of_sized hsized hmin
  have hlisted : ∃ free locked, listedBase input = free.add locked ∧
      freeBalance input.account input.market.symbolInfo.baseAsset = some free ∧
      walletLocked input.account input.market.symbolInfo.baseAsset = locked := by
    unfold listedBase freeBalance walletLocked
    rw [hreadable]
    cases input.account.balances input.market.symbolInfo.baseAsset with
    | none => exact ⟨num 0, num 0, rfl, rfl, rfl⟩
    | some line => exact ⟨line.free, line.locked, rfl, rfl, rfl⟩
  obtain ⟨free, locked, hlisted, hfree, hlocked⟩ := hlisted
  have hcovered : (num minQty).lte (free.add ((reclaimableOwnSellBase input).min locked)) =
      true := by
    unfold sellableBase resolveHeldForSell sizableBase at hbase
    dsimp only at hbase
    rw [hfree, hlocked] at hbase
    split at hbase
    · next hnone _ => cases hnone
    · next hnone _ => cases hnone
    · next free' hfree' _ =>
        cases hfree'
        cases hbase
        exact hle
    · next free' tracked hfree' _ =>
        cases hfree'
        cases hbase
        exact lte_of_lte_min hle
  rw [hlisted] at hdust
  exact absurd (lte_add_of_lte_add_min hcovered) (by simpa [gte] using hdust)

/-! ### The way to the stop-loss -/

theorem LadderContext.stopLossRung_exit {ctx : LadderContext} {stopLoss : Decimal}
    (harmed : isCapArmed ctx.input.config.sell.stopLossPercentage = true)
    (hstopLoss : parse ctx.input.config.sell.stopLossPercentage = some stopLoss)
    (hrange : (stopLoss.gt (num 0) && stopLoss.lte (num 1)) = true)
    (hreached : ctx.price.lte (ctx.stopPrice stopLoss) = true) (cand : ExitCandidates) :
    ctx.stopLossRung cand =
      ctx.exit .gridStopLoss "tt-stop-loss" ("stop-" ++ ctx.lbpStr.text) [] cand := by
  unfold stopLossRung
  simp only [LadderContext.sell, harmed, Bool.not_true, Bool.false_eq_true, ↓reduceIte,
    parseFieldOrSkip, hstopLoss, bind, Except.bind, hrange, hreached]

/-- A held position at or below its stop-loss, with nothing else asked of the tick. -/
structure StopLossDue (input : TTInput) (avgEntry stopPct price minQty : ℚ) : Prop where
  override : input.bundle.override = none
  pause : ∀ until_, input.state.disabledUntilMs = some until_ → until_ ≤ input.nowMs
  readable : input.account.readable = true
  sellEnabled : input.config.sell.enabled = true
  noForeignSell :
    hasOpenSellForSymbol input.openOrders input.market.symbol input.profile.id = false
  avgEntry_eq : safeDecimal input.state.avgEntryPrice = some (num avgEntry)
  avgEntry_pos : 0 < avgEntry
  stopPct_eq : parse input.config.sell.stopLossPercentage = some (num stopPct)
  stopPct_pos : 0 < stopPct
  stopPct_le : stopPct ≤ 1
  price_eq : parse input.market.currentPrice = some (num price)
  price_pos : 0 < price
  reached : price ≤ avgEntry * stopPct
  minQty_eq : parse input.market.symbolInfo.filters.minQty = some (num minQty)
  sized : ∃ quantity, computeSellQuantity (sellableBase input input.state)
    input.market.currentPrice input.market.symbolInfo.filters = .ok quantity

/-- The tick's one decision is a sell on the stop-loss, in
place of our resting stop if one rests. -/
def SellsOnStopLoss (input : TTInput) (output : TTOutput) : Prop :=
  ∃ intent params, intent.side = .sell ∧ intent.symbol = input.market.symbol ∧
    intent.reason = "grid-stop-loss" ∧
    (output.decisions = [.placeOrder intent params] ∨
      ∃ resting, restingProtectiveStop input = some resting ∧
        output.decisions = [.replaceOrder resting.orderId supersededReason intent params])

namespace StopLossDue

variable {input : TTInput} {avgEntry stopPct price minQty : ℚ} {state : TTState}

/-- The price is not above the cost basis. -/
theorem price_le (h : StopLossDue input avgEntry stopPct price minQty) : price ≤ avgEntry :=
  h.reached.trans (mul_le_of_le_one_right h.avgEntry_pos.le h.stopPct_le)

theorem held (h : StopLossDue input avgEntry stopPct price minQty) :
    input.state.avgEntryPrice.isSome = true := by
  cases havg : input.state.avgEntryPrice with
  | none => cases havg ▸ h.avgEntry_eq
  | some avg => rfl

theorem toDecimal_avg (h : StopLossDue input avgEntry stopPct price minQty) {avg : DecimalString}
    (havg : input.state.avgEntryPrice = some avg) : avg.toDecimal = some (num avgEntry) := by
  have hread := h.avgEntry_eq
  rwa [havg] at hread

/-- The profit a signal-driven sell wants is never negative. -/
theorem lte_profitFloor {price avgEntry : ℚ} (minProfitPercent : Decimal) (havg : 0 ≤ avgEntry)
    (hprice : price ≤ avgEntry) :
    (num price).lte ((num avgEntry).mul
      (((if minProfitPercent.isFinite && minProfitPercent.gte (num 0) then minProfitPercent
        else num 0).div (num 100)).add (num 1))) = true := by
  split
  · next hfloor =>
      rw [Bool.and_eq_true] at hfloor
      obtain ⟨percent, rfl⟩ := isFinite_iff.mp hfloor.1
      have hpercent : 0 ≤ percent := by simpa using hfloor.2
      rw [div_num (by norm_num), add_num, mul_num, lte_num, decide_eq_true_eq]
      have hgain : 0 ≤ avgEntry * (percent / 100) := by positivity
      linarith
  · rw [div_num (by norm_num), add_num, mul_num, lte_num, decide_eq_true_eq]
    linarith

theorem forceSellSignal_none (h : StopLossDue input avgEntry stopPct price minQty)
    (hkeeps : KeepsPosition input.state state) (now : ℤ) :
    forceSellSignal input now state = none := by
  unfold forceSellSignal
  split
  · rfl
  · unfold evaluateTechnicalsForceSell
    rw [hkeeps.avgEntryPrice]
    split
    · rfl
    · next avgStr havg =>
        split
        · rfl
        · split
          · next p lastBuy trigger hp hlastBuy htrigger =>
              split
              · rfl
              · split
                · rfl
                · have hlast := h.toDecimal_avg havg
                  cases hlast.symm.trans hlastBuy
                  cases h.price_eq.symm.trans hp
                  exact if_pos (lte_profitFloor _ h.avgEntry_pos.le h.price_le)
          · rfl

/-- The stop-loss is the first rung, and it fires. -/
theorem evaluateSellGate_emits (h : StopLossDue input avgEntry stopPct price minQty)
    (hkeeps : KeepsPosition input.state state) :
    ∃ emission quantity seed, evaluateSellGate input state = .emit emission ∧
      emission.decision = buildSellDecision input "grid-stop-loss" quantity seed := by
  obtain ⟨quantity, hsized⟩ := h.sized
  rw [← sellableBase_of_keeps hkeeps] at hsized
  obtain ⟨avgStr, havg⟩ := Option.isSome_iff_exists.mp h.held
  have havg' : state.avgEntryPrice = some avgStr := hkeeps.avgEntryPrice.trans havg
  have hlast := h.toDecimal_avg havg
  have hreached : (num price).lte (resolveTTStopLevel (num avgEntry) (num stopPct)
      input.config.sell.protectiveStop (marketBand input.market)).stop = true := by
    rw [lte_resolveTTStopLevel h.price_eq]
    simpa using h.reached
  have hlbp : ((num avgEntry).lte (num 0) || (num price).lte (num 0)) = false := by
    simpa using ⟨h.avgEntry_pos, h.price_pos⟩
  have hrange : ((num stopPct).gt (num 0) && (num stopPct).lte (num 1)) = true := by
    simpa using ⟨h.stopPct_pos, h.stopPct_le⟩
  -- the context the ladder judges its rungs in; the stop-loss is the first of them
  let ctx : LadderContext :=
    { input, state, lbpStr := avgStr, lbp := num avgEntry, price := num price
      ratchetPrice :=
        (latestClosedClose input.market input.config.candleInterval).getD (num price) }
  have hrung := @LadderContext.stopLossRung_exit ctx (num stopPct)
    (isCapArmed_of_pos h.stopPct_eq h.stopPct_pos) h.stopPct_eq hrange hreached
  unfold evaluateSellGate runSellLadder
  dsimp only
  rw [havg']
  dsimp only
  rw [hlast, h.price_eq]
  dsimp only
  rw [hlbp]
  simp only [Bool.false_eq_true, ↓reduceIte]
  rw [hrung]
  cases hsell : sellEmissionOrSkip input state .gridStopLoss "tt-stop-loss"
      ("stop-" ++ avgStr.text) [] with
  | error refused =>
      unfold sellEmissionOrSkip at hsell
      dsimp only at hsell
      rw [hsized] at hsell
      cases hsell
  | ok emission =>
      obtain ⟨sold, seed, -, hdecision⟩ := sellEmissionOrSkip_decision hsell
      refine ⟨emission, sold, seed, ?_, hdecision⟩
      simp only [LadderContext.exit, ctx, hsell]
      rfl

theorem sellGateBranch_sells (h : StopLossDue input avgEntry stopPct price minQty)
    (s : ChainState) (hkeeps : KeepsPosition input.state s.state) :
    ∃ output quantity seed,
      sellGateBranch input (buildScalars input) s = .ok (.terminal output) ∧
      output.decisions =
        closingSellDecisions input (buildSellDecision input "grid-stop-loss" quantity seed) := by
  have hopen : (input.config.sell.enabled && s.state.avgEntryPrice.isSome &&
      !(buildScalars input).hasOpenSell) = true := by
    rw [h.sellEnabled, hkeeps.avgEntryPrice, h.held]
    simpa [buildScalars] using h.noForeignSell
  have hsignal := h.forceSellSignal_none hkeeps (buildScalars input).now
  -- the ladder sees the state with its force-sell window forgotten
  have hforgets : KeepsPosition s.state { s.state with forceSellFirstSeenAtMs := none } :=
    .of_eq rfl
  obtain ⟨emission, quantity, seed, hgate, hdecision⟩ :=
    h.evaluateSellGate_emits (hkeeps.trans hforgets)
  unfold sellGateBranch exitStages
  simp only [hopen, ↓reduceIte, forceSellStage, hsignal, noteTriggerParse_state, ladderStage, hgate,
    bind, Except.bind]
  exact ⟨_, quantity, seed, rfl, by rw [← hdecision]; rfl⟩

end StopLossDue

theorem computeTick_at_sellGate {input : TTInput} (hpasses : Passes input (startState input))
    (hkept : ¬ DropsBasis (normalizedInput input) (startState input)) :
    ∃ logs, computeTick input =
      run fellThrough
        [sellGateBranch (normalizedInput input) (buildScalars (normalizedInput input)),
          buyAndSnapshotBranch (normalizedInput input) (buildScalars (normalizedInput input))]
        ⟨startState input, logs⟩ := by
  unfold computeTick branches
  dsimp only
  have hlift : ∀ rest, run fellThrough
      (applyDisabledClearBranch (buildScalars (normalizedInput input)) :: rest)
        ⟨(normalizedInput input).state, []⟩ =
      run fellThrough rest ⟨startState input, []⟩ := by
    intro rest
    unfold startState liftPause
    split
    · next hpause => exact run_mutate (if_pos hpause)
    · next hpause => exact run_pass (if_neg hpause)
  have hoverride : overrideBranch (normalizedInput input) (buildScalars (normalizedInput input))
      ⟨startState input, []⟩ = .ok .pass := by
    unfold overrideBranch
    rw [show (normalizedInput input).bundle.override = none from hpasses.override]
  have htimer : autoTriggerBuyBranch (normalizedInput input)
      (buildScalars (normalizedInput input)) ⟨startState input, []⟩ = .ok .pass :=
    if_pos (congrArg not hpasses.notDue)
  have hpause : disabledGateBranch ⟨startState input, []⟩ = .ok .pass :=
    if_neg (by rw [hpasses.notPaused]; exact Bool.false_ne_true)
  rw [hlift, run_pass hoverride, run_pass htimer, run_pass hpause]
  have hspec := maybeClearAvgEntryPrice_spec (normalizedInput input) (startState input)
  cases hclear : maybeClearAvgEntryPrice (normalizedInput input) (startState input) with
  | none =>
      refine ⟨[], run_pass ?_⟩
      unfold lbpClearBranch
      rw [hclear]
  | some cleared =>
      obtain ⟨after, entry⟩ := cleared
      rw [hclear] at hspec
      cases hspec with
      | kept _ =>
          refine ⟨[entry], run_mutate ?_⟩
          unfold lbpClearBranch
          rw [hclear]
          rfl
      | dropped hdrop => exact absurd hdrop hkept

/-! ### Reaching it -/

theorem StopLossDue.normalized {input : TTInput} {avgEntry stopPct price minQty : ℚ}
    (h : StopLossDue input avgEntry stopPct price minQty) :
    StopLossDue (normalizedInput input) avgEntry stopPct price minQty where
  override := h.override
  pause := h.pause
  readable := h.readable
  sellEnabled := h.sellEnabled
  noForeignSell := h.noForeignSell
  avgEntry_eq := h.avgEntry_eq
  avgEntry_pos := h.avgEntry_pos
  stopPct_eq := h.stopPct_eq
  stopPct_pos := h.stopPct_pos
  stopPct_le := h.stopPct_le
  price_eq := h.price_eq
  price_pos := h.price_pos
  reached := h.reached
  minQty_eq := h.minQty_eq
  sized := h.sized

/-- An expired pause does not hold the tick. -/
theorem StopLossDue.notPaused {input : TTInput} {avgEntry stopPct price minQty : ℚ}
    (h : StopLossDue input avgEntry stopPct price minQty) :
    (startState input).disabledUntilMs = none := by
  unfold startState liftPause
  split
  · rfl
  · next hpause =>
      cases huntil : input.state.disabledUntilMs with
      | none => exact huntil
      | some until_ =>
          refine absurd ?_ hpause
          rw [show (normalizeTickState input.state).disabledUntilMs = _ from huntil]
          simpa using h.pause until_ huntil

theorem autoTriggerDue_startState (input : TTInput) :
    autoTriggerDue (startState input) input.nowMs =
      autoTriggerDue input.state input.nowMs := by
  unfold startState liftPause
  split
  · rfl
  · rfl

/--
A held position at or below its stop-loss is sold on it, as the one decision of
the tick, exactly when no automatic re-entry is due on that tick.
-/
theorem stopLoss_reached_iff {input : TTInput} {avgEntry stopPct price minQty : ℚ}
    (h : StopLossDue input avgEntry stopPct price minQty) :
    (∃ output, computeTick input = .ok output ∧ SellsOnStopLoss input output) ↔
      autoTriggerDue input.state input.nowMs = false := by
  constructor
  · rintro ⟨output, htick, intent, params, -, -, hreason, hdecisions⟩
    have hsold : ∃ d ∈ output.decisions, reasonOf d = some "grid-stop-loss" := by
      rcases hdecisions with hdecisions | ⟨resting, -, hdecisions⟩ <;>
      · rw [hdecisions, ← hreason]
        exact ⟨_, List.mem_cons_self, rfl⟩
    obtain ⟨d, hd, hsold⟩ := hsold
    -- a tick that ends before its position is looked at has no such decision
    cases (computeTick_outcome input).returned htick with
    | early stopped outcome => exact absurd hsold (reasonOf_early outcome hd)
    | late passes after drop outcome =>
        rw [← autoTriggerDue_startState]
        exact passes.notDue
  · intro hdue
    have hpasses : Passes input (startState input) :=
      ⟨h.override, (autoTriggerDue_startState input).trans hdue, h.notPaused⟩
    have hkeeps : KeepsPosition (normalizedInput input).state (startState input) :=
      keeps_liftPause _ _
    obtain ⟨sized, hsized⟩ := h.normalized.sized
    rw [← sellableBase_of_keeps hkeeps] at hsized
    obtain ⟨logs, htick⟩ := computeTick_at_sellGate hpasses
      (not_dropsBasis_of_sized h.normalized.readable hsized h.normalized.minQty_eq)
    obtain ⟨output, quantity, seed, hgate, hdecisions⟩ :=
      h.normalized.sellGateBranch_sells ⟨startState input, logs⟩ hkeeps
    refine ⟨output, htick.trans (run_terminal hgate), ?_⟩
    refine ⟨sellIntent (normalizedInput input) "grid-stop-loss"
      (sellClientOrderId input.profile.id input.market.symbol seed) false, marketParams quantity,
      rfl, rfl, rfl, ?_⟩
    rw [hdecisions]
    exact closingSellDecisions_eq (normalizedInput input) _ _

/-- The sample position at 85, with an automatic re-entry due at a given moment. -/
def sampleStopped (reentryAtMs : Option ℤ) : TTInput :=
  sampleInput sampleConfig { sampleHeld with autoTriggerBuyAtMs := reentryAtMs } "85" 1

theorem sampleStopped_due (reentryAtMs : Option ℤ) :
    StopLossDue (sampleStopped reentryAtMs) 100 (9 / 10) 85 (1 / 1000) where
  override := rfl
  pause := nofun
  readable := rfl
  sellEnabled := rfl
  noForeignSell := rfl
  avgEntry_eq := (by decide +kernel : parse "100" = some (num 100))
  avgEntry_pos := by norm_num
  stopPct_eq := (by decide +kernel : parse "0.9" = some (num (9 / 10)))
  stopPct_pos := by norm_num
  stopPct_le := by norm_num
  price_eq := (by decide +kernel : parse "85" = some (num 85))
  price_pos := by norm_num
  reached := by norm_num
  minQty_eq := (by decide +kernel : parse "0.001" = some (num (1 / 1000)))
  sized := ⟨toFixedStep (num 1) (num (1 / 1000)), (by decide +kernel :
    computeSellQuantity (sellableBase (sampleStopped none) sampleHeld) "85"
      sampleMarket.symbolInfo.filters = .ok (toFixedStep (num 1) (num (1 / 1000))))⟩

theorem stopLoss_reached_without_timer :
    StopLossDue (sampleStopped none) 100 (9 / 10) 85 (1 / 1000) ∧
      ∃ output, computeTick (sampleStopped none) = .ok output ∧
        SellsOnStopLoss (sampleStopped none) output :=
  ⟨sampleStopped_due none, (stopLoss_reached_iff (sampleStopped_due none)).mpr rfl⟩

/-- With a re-entry due, the tick gives the re-entry up because it holds, and does nothing else. -/
theorem stopLoss_missed_on_due_timer :
    StopLossDue (sampleStopped (some 500)) 100 (9 / 10) 85 (1 / 1000) ∧
      (∃ output, computeTick (sampleStopped (some 500)) = .ok output ∧
        output.decisions = [.noop]) ∧
      ¬ ∃ output, computeTick (sampleStopped (some 500)) = .ok output ∧
        SellsOnStopLoss (sampleStopped (some 500)) output := by
  have hnoop : (computeTick (sampleStopped (some 500))).toOption.map TickOutput.decisions =
      some [.noop] := by
    decide +kernel
  obtain ⟨output, htick, hdecisions⟩ := exists_ok_of_map hnoop
  refine ⟨sampleStopped_due _, ⟨output, htick, hdecisions⟩, ?_⟩
  rintro ⟨output', htick', intent, params, -, -, -, hsold⟩
  cases htick.symm.trans htick'
  rw [hdecisions] at hsold
  rcases hsold with hsold | ⟨resting, -, hsold⟩ <;> cases hsold

end TradingBot.TrailingTrade
