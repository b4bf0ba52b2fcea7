import TradingBot.Core.ArmOutcome
import TradingBot.TrailingTrade.SellOutcome

/-!
# What a tick can do

The inversion of `computeTick`. A tick either ends before the position is
looked at (an override, the re-entry timer, a pause), or passes those gates and
then sells, moves its stop, adds, enters or reports. Each case says what the
tick sends and what it leaves of the position; every property of a whole tick
is read off these cases.
-/

namespace TradingBot.TrailingTrade

open Decimal EarlyExit BranchChain

variable {input : TTInput} {state : TTState}

/-! ### The state a tick starts from -/

/-- An expired pause is lifted. -/
def liftPause (now : ℤ) (state : TTState) : TTState :=
  if state.disabledUntilMs.any (· ≤ now) then { state with disabledUntilMs := none } else state

theorem keeps_liftPause (now : ℤ) (state : TTState) :
    KeepsPosition state (liftPause now state) := by
  unfold liftPause
  split
  · exact .of_eq rfl
  · exact KeepsPosition.refl state

/-- The state the branches of a tick see first. -/
def startState (rawInput : TTInput) : TTState :=
  liftPause rawInput.nowMs (normalizeTickState rawInput.state)

theorem keeps_startState (rawInput : TTInput) :
    KeepsPosition rawInput.state (startState rawInput) :=
  KeepsPosition.trans (b := normalizeTickState rawInput.state)
    (.of_eq rfl) (keeps_liftPause rawInput.nowMs _)

/-- Nothing ends the tick before its position is looked at. -/
structure Passes (input : TTInput) (start : TTState) : Prop where
  override : input.bundle.override = none
  notDue : autoTriggerDue start input.nowMs = false
  notPaused : start.disabledUntilMs = none

/-! ### Dropping the cost basis -/

/-- The tick drops the cost basis: the price fell to the threshold and the wallet lists dust. -/
structure DropsBasis (input : TTInput) (state : TTState) : Prop where
  held : state.avgEntryPrice.isSome = true
  fallen : ∃ threshold lbp price,
    isBlank input.config.buy.avgEntryPriceRemoveThreshold = false ∧
    input.config.buy.avgEntryPriceRemoveThreshold ≠ "0" ∧
    parse input.config.buy.avgEntryPriceRemoveThreshold = some threshold ∧
    safeDecimal state.avgEntryPrice = some lbp ∧
    parse input.market.currentPrice = some price ∧
    belowRemoveThreshold threshold lbp price = true
  noOpenBuy : hasOpenBuyForSymbol input.openOrders input.market.symbol = false
  dust : ∃ minQty, parse input.market.symbolInfo.filters.minQty = some minQty ∧
    (listedBase input).gte minQty = false

/-- The state the sell gate is handed. -/
inductive AfterDrop (input : TTInput) (start : TTState) : TTState → Prop where
  | kept (h : ¬ DropsBasis input start) : AfterDrop input start start
  | dropped (h : DropsBasis input start) : AfterDrop input start (lbpCleared start)

/-- What the drop hands on: nothing new, or the state it is handed on as. -/
def DropResult (input : TTInput) (state : TTState) : Option (TTState × LogEntry) → Prop
  | none => ¬ DropsBasis input state
  | some (after, _) => AfterDrop input state after

/-- Without the fall there is no drop. -/
theorem not_dropsBasis_of_above {lbpStr : DecimalString} (havg : state.avgEntryPrice = some lbpStr)
    (h : ∀ threshold lbp price, isBlank input.config.buy.avgEntryPriceRemoveThreshold = false →
      input.config.buy.avgEntryPriceRemoveThreshold ≠ "0" →
      parse input.config.buy.avgEntryPriceRemoveThreshold = some threshold →
      lbpStr.toDecimal = some lbp → parse input.market.currentPrice = some price →
        belowRemoveThreshold threshold lbp price = false) :
    ¬ DropsBasis input state := by
  intro hdrops
  obtain ⟨threshold, lbp, price, hblank, hzero, hthreshold, hlbp, hprice, hbelow⟩ := hdrops.fallen
  rw [havg] at hlbp
  rw [h threshold lbp price hblank hzero hthreshold hlbp hprice] at hbelow
  cases hbelow

theorem maybeClearAvgEntryPrice_spec (input : TTInput) (state : TTState) :
    DropResult input state (maybeClearAvgEntryPrice input state) := by
  unfold maybeClearAvgEntryPrice
  dsimp only
  cases havg : state.avgEntryPrice with
  | none =>
      intro h
      have hheld := h.held
      rw [havg] at hheld
      cases hheld
  | some lbpStr =>
      have hkept := @not_dropsBasis_of_above input state lbpStr havg
      dsimp only
      split
      · next hoff =>
          refine hkept fun _ _ _ hblank hzero => ?_
          simp [hblank, hzero] at hoff
      · next hon =>
          rw [Bool.or_eq_true, not_or, decide_eq_true_eq, Bool.not_eq_true] at hon
          split
          · next ht => exact .kept (hkept fun _ _ _ _ _ ht' => by simp [ht] at ht')
          · next hl => exact .kept (hkept fun _ _ _ _ _ _ hl' => by simp [hl] at hl')
          · next hp => exact .kept (hkept fun _ _ _ _ _ _ _ hp' => by simp [hp] at hp')
          · next threshold lbp price ht hl hp =>
              split
              · next hbelow =>
                  refine hkept fun t l p _ _ ht' hl' hp' => ?_
                  cases ht.symm.trans ht'
                  cases hl.symm.trans hl'
                  cases hp.symm.trans hp'
                  simpa using hbelow
              · next hbelow =>
                  split
                  · next hopen =>
                      intro h
                      rw [h.noOpenBuy] at hopen
                      cases hopen
                  · next hopen =>
                      split
                      · next hmin =>
                          refine .kept fun h => ?_
                          obtain ⟨minQty, hminQty, -⟩ := h.dust
                          rw [hmin] at hminQty
                          cases hminQty
                      · next minQty hmin =>
                          split
                          · next hdust =>
                              intro h
                              obtain ⟨minQty', hminQty, hlisted⟩ := h.dust
                              rw [hmin] at hminQty
                              cases hminQty
                              rw [hdust] at hlisted
                              cases hlisted
                          · next hdust =>
                              refine .dropped ⟨by rw [havg]; rfl, ?_, by simpa using hopen,
                                minQty, hmin, by simpa using hdust⟩
                              refine ⟨threshold, lbp, price, hon.1, hon.2, ht, ?_, hp, ?_⟩
                              · rw [havg]
                                exact hl
                              · simpa using hbelow

/-! ### The ladder's emission -/

/-- The ladder emits a rung out of `before`: its order, the cancels it displaces, the state left. -/
inductive GridEmits (input : TTInput) (now : ℤ) (before after : TTState)
    (decisions : List Decision) : Prop where
  | rung (target : GridTarget) (level : GridLevel) (quantity : DecimalString)
      (target_eq : gridTarget input before = .ok target)
      (level_eq : input.config.buy.gridLevels[target.level]? = some level)
      (repriced : (restingGridBuy input target.level).any
        (keepsResting input.config · (gridStopLimit input level)) = false)
      (after_eq : after = emittedState input before target now)
      (decisions_eq : decisions = staleCancels input target.level ++
        [buildGridBuyDecision input quantity target.level (gridStopLimit input level)])

/-- Whatever the ladder answers, an emission is one of its rungs. -/
def GridBuyResult.Lawful (input : TTInput) (now : ℤ) (before : TTState) : GridBuyResult → Prop
  | .emit after decisions _ _ => GridEmits input now before after decisions
  | _ => True

section Ladder

variable {now : ℤ} {result : GridBuyResult}

/-- A property of the ladder's answers that every answer without an order has. -/
def GridBuyResult.ClosedBut (P : GridBuyResult → Prop) : Prop :=
  ∀ result : GridBuyResult,
    (∀ after decisions entry level, result ≠ .emit after decisions entry level) → P result

variable {P : GridBuyResult → Prop}

theorem gridTarget_rests (closed : GridBuyResult.ClosedBut P)
    (h : gridTarget input state = .error result) : P result := by
  have hends : Ends P (fun _ => True) (gridTarget input state) := by
    unfold gridTarget entryTarget promotionTarget
    repeat' split
    all_goals first | trivial | exact closed _ (by simp)
  exact hends.raised h

theorem entryGuards_rests (closed : GridBuyResult.ClosedBut P)
    (h : entryGuards input = some result) : P result := by
  unfold entryGuards at h
  dsimp only at h
  split at h
  · cases h
    exact closed _ (by simp)
  · split at h
    · cases h
    · rw [Option.or_eq_some_iff] at h
      rcases h with h | ⟨-, h⟩ <;>
      · obtain ⟨veto, -, rfl⟩ := Option.map_eq_some_iff.mp h
        exact closed _ (by simp)

theorem entryTechnicals_rests (closed : GridBuyResult.ClosedBut P)
    (h : entryTechnicals input now = some result) : P result := by
  obtain ⟨veto, -, rfl⟩ := Option.map_eq_some_iff.mp h
  exact closed _ (by simp)

theorem promotionRegime_rests (closed : GridBuyResult.ClosedBut P)
    (h : promotionRegime input state = some result) : P result := by
  unfold promotionRegime at h
  repeat' split at h
  all_goals cases h
  all_goals exact closed _ (by simp)

/-- The ladder answers without an order, or as the emission of its target rung does. -/
theorem evaluateGridBuy_from_emission (closed : GridBuyResult.ClosedBut P) (force : Bool)
    (hemit : ∀ target level, gridTarget input state = .ok target →
      input.config.buy.gridLevels[target.level]? = some level →
      (restingGridBuy input target.level).any
        (keepsResting input.config · (gridStopLimit input level)) = false →
      P (emitGridBuy input state now target level (gridStopLimit input level))) :
    Ends (fun _ => True) P (evaluateGridBuy input state now force) := by
  unfold evaluateGridBuy
  split
  · next hresult => exact gridTarget_rests closed hresult
  · next target htarget =>
      split
      · exact closed _ (by simp)
      · next level hlevel =>
          dsimp only
          split
          · exact closed _ (by simp)
          · next hrepriced =>
              rw [Bool.not_eq_true] at hrepriced
              unfold gateGridBuy
              split
              · next hskip =>
                  split at hskip
                  · exact entryGuards_rests closed hskip
                  · cases hskip
              · split
                · next hskip =>
                    split at hskip
                    · exact entryTechnicals_rests closed hskip
                    · cases hskip
                · refine Ends.bind (Q := fun _ => True) ?_ fun veto _ => ?_
                  · cases indicatorGates input <;> trivial
                  · split
                    · exact closed _ (by simp)
                    · split
                      · next hskip => exact promotionRegime_rests closed hskip
                      · exact hemit target level htarget hlevel hrepriced

theorem lawful_closedBut (before : TTState) :
    GridBuyResult.ClosedBut (GridBuyResult.Lawful input now before) := by
  intro result hresult
  cases result with
  | emit after decisions entry level => exact absurd rfl (hresult after decisions entry level)
  | _ => trivial

theorem emitGridBuy_lawful {target : GridTarget} {level : GridLevel}
    (htarget : gridTarget input state = .ok target)
    (hlevel : input.config.buy.gridLevels[target.level]? = some level)
    (hrepriced : (restingGridBuy input target.level).any
      (keepsResting input.config · (gridStopLimit input level)) = false) :
    GridBuyResult.Lawful input now state
      (emitGridBuy input state now target level (gridStopLimit input level)) := by
  unfold emitGridBuy
  split
  · trivial
  · next quantity _ =>
      split
      · trivial
      · exact .rung target level quantity htarget hlevel hrepriced rfl rfl

theorem evaluateGridBuy_lawful (input : TTInput) (state : TTState) (now : ℤ) (force : Bool) :
    Ends (fun _ => True) (GridBuyResult.Lawful input now state)
      (evaluateGridBuy input state now force) :=
  evaluateGridBuy_from_emission (lawful_closedBut state) force fun _ _ => emitGridBuy_lawful

end Ladder

/-! ### Before the position is looked at -/

/-- The decisions as they leave the tick: an override signs what it asked for. -/
def asSent (sender : Option String) (decisions : List Decision) : List Decision :=
  sender.elim decisions (attributeToOverride decisions)

/-- The ladder as a forced entry sees it: nothing emitted yet. -/
def entryReset (state : TTState) : TTState :=
  { state with currentGridTradeIndex := none, discoveryEntry := false, entryAtMs := none }

/-- A forced entry emits a rung of the reset ladder, or the single buy of a profile without one. -/
inductive ForcedEmits (input : TTInput) (now : ℤ) (before after : TTState)
    (decisions : List Decision) : Prop where
  | grid (emits : GridEmits input now (entryReset before) after decisions)
  | single (quantity : DecimalString) (noGrid : input.config.buy.gridLevels.isEmpty = true)
      (after_eq : after = before)
      (decisions_eq : decisions = [buildFirstBuyDecision input quantity])

def ForcedEntryResult.Lawful (input : TTInput) (now : ℤ) (before : TTState) :
    ForcedEntryResult → Prop
  | .emit after decisions _ _ _ => ForcedEmits input now before after decisions
  | _ => True

theorem emitForcedFirstEntry_lawful (input : TTInput) (state : TTState) (now : ℤ) :
    Ends (fun _ => True) (ForcedEntryResult.Lawful input now state)
      (emitForcedFirstEntry input state now) := by
  unfold emitForcedFirstEntry
  split
  · trivial
  · split
    · refine (evaluateGridBuy_lawful input (entryReset state) now true).bind fun grid hgrid => ?_
      cases grid with
      | emit after decisions entry level => exact .grid hgrid
      | wait awaiting =>
          simp only [forcedGridEntry]
          split
          · trivial
          · trivial
      | _ => trivial
    · next hgrid =>
        split
        · next decision quantity hbuy =>
            refine .single quantity (by simpa using hgrid) rfl ?_
            unfold emitFirstBuyTvForced at hbuy
            repeat' split at hbuy
            all_goals cases hbuy
            rfl
        · trivial

/-- How a tick ends that does not look at its position. -/
inductive EarlyOutcome (input : TTInput) (start : TTState) (output : TTOutput) : Prop where
  | quiet (keeps : KeepsPosition start output.nextState) (decisions : output.decisions = [.noop])
  | manual (payload : ManualOrderRequest) (quantity : DecimalString) (overrideActionId : String)
      (keeps : KeepsPosition start output.nextState)
      (decisions : output.decisions =
        attributeToOverride
          (if payload.side = .sell && emptiesPosition quantity start then
            closingSellDecisions input
              (buildManualOrderDecision input payload quantity overrideActionId)
          else [buildManualOrderDecision input payload quantity overrideActionId])
          overrideActionId)
  | forced (sender : Option String) (before after : TTState) (decisions : List Decision)
      (from_ : KeepsPosition start before)
      (emits : ForcedEmits input input.nowMs before after decisions)
      (next : KeepsPosition after output.nextState)
      (sent : output.decisions = asSent sender decisions)
  | sold (quantity : DecimalString) (overrideActionId : String) (flat : FlatClean output.nextState)
      (index : output.nextState.currentGridTradeIndex = none)
      (schemaVersion : output.nextState.schemaVersion = start.schemaVersion)
      (decisions : output.decisions =
        attributeToOverride
          (closingSellDecisions input
            (buildSellDecision input "manual" quantity ("trigger-sell-" ++ overrideActionId)))
          overrideActionId)
      (heldQuantity : output.nextState.heldQuantity = start.heldQuantity)

theorem manualOrderOutput_outcome (state : TTState) (override : Override)
    (payload : ManualOrderRequest) :
    EarlyOutcome input state
      { manualOrderOutput input state override.overrideActionId payload with
        decisions := attributeToOverride
          (manualOrderOutput input state override.overrideActionId payload).decisions
          override.overrideActionId } := by
  unfold manualOrderOutput
  dsimp only
  split
  · next quantity _ => exact .manual payload quantity _ (.of_eq rfl) rfl
  · exact .quiet (.of_eq rfl) rfl

theorem triggerSellOutput_outcome (state : TTState) (now : ℤ) (override : Override) :
    EarlyOutcome input state
      { triggerSellOutput input state now override.overrideActionId with
        decisions := attributeToOverride
          (triggerSellOutput input state now override.overrideActionId).decisions
          override.overrideActionId } := by
  unfold triggerSellOutput
  dsimp only
  split
  · next quantity _ =>
      exact .sold quantity override.overrideActionId ⟨rfl, rfl, rfl, rfl, rfl, rfl, rfl⟩ rfl rfl rfl
        rfl
  · exact .quiet (.of_eq rfl) rfl

theorem handleOverride_outcome (input : TTInput) (state : TTState) (override : Override) :
    Ends (fun _ => True) (EarlyOutcome input state)
      (handleOverride input state input.nowMs override) := by
  unfold handleOverride overrideOutput
  split
  · exact manualOrderOutput_outcome state override _
  · unfold triggerBuyOutput
    dsimp only
    split
    · exact .quiet (.of_eq rfl) rfl
    · rw [bind_assoc]
      refine (emitForcedFirstEntry_lawful input state input.nowMs).bind fun result hresult => ?_
      cases result with
      | emit after decisions quantity level canceledStale =>
          exact .forced (some override.overrideActionId) state after decisions
            (KeepsPosition.refl state) hresult (.of_eq rfl) rfl
      | wait => exact .quiet (.of_eq rfl) rfl
      | skip reason context => exact .quiet (.of_eq rfl) rfl
  · exact triggerSellOutput_outcome state _ override

theorem autoTriggerEntry_outcome (input : TTInput) (state : TTState) :
    Ends (fun _ => True) (EarlyOutcome input state) (autoTriggerEntry input input.nowMs state) := by
  unfold autoTriggerEntry
  dsimp only
  refine (emitForcedFirstEntry_lawful input { state with autoTriggerBuyAtMs := none }
    input.nowMs).bind fun result hresult => ?_
  cases result with
  | emit after decisions quantity level canceledStale =>
      exact .forced none { state with autoTriggerBuyAtMs := none } after decisions (.of_eq rfl)
        hresult (.of_eq rfl) rfl
  | wait => exact .quiet (.of_eq rfl) rfl
  | skip reason context => exact .quiet (.of_eq rfl) rfl

/-! ### The buy side -/

/-- The rung a profile is on once the ladder has looked: a held one without a rung is on rung 0. -/
def alignedIndex (state : TTState) : Option ℕ :=
  match state.avgEntryPrice, state.currentGridTradeIndex with
  | some _, none => some 0
  | none, some (_ + 1) => none
  | _, index => index

theorem alignGridIndex_state (input : TTInput) (notes : BuyNotes) :
    (alignGridIndex input notes).state =
      { notes.state with currentGridTradeIndex := alignedIndex notes.state } := by
  unfold alignGridIndex
  dsimp only
  split
  · next havg hindex =>
      rw [show alignedIndex notes.state = some 0 by unfold alignedIndex; rw [havg, hindex]]
  · next index havg hindex =>
      rw [show alignedIndex notes.state = none by unfold alignedIndex; rw [havg, hindex]]
  · next hheld horphan =>
      unfold alignedIndex
      split
      · next havg hindex => exact absurd hindex (hheld _ havg)
      · next havg hindex => exact absurd hindex (horphan _ havg)
      · rfl

/-- The answer is a rung to buy. -/
def GridBuyResult.buys : GridBuyResult → Bool
  | .emit .. => true
  | _ => false

/-- The ladder of a state, looked at by a tick, buys a rung. -/
def LadderBuys (input : TTInput) (state : TTState) : Prop :=
  (evaluateGridBuy input { state with currentGridTradeIndex := alignedIndex state } input.nowMs
    false).map GridBuyResult.buys = .ok true

/-- How a tick ends that found no exit. -/
inductive BuyOutcome (input : TTInput) (state : TTState) (output : TTOutput) : Prop where
  /-- A buy on top of a winning position. -/
  | pyramid (quantity : DecimalString) (addIndex : ℕ) (addPrice : Option DecimalString)
      (held : state.avgEntryPrice.isSome = true)
      (next : KeepsPosition
        { state with bullAddCount := some addIndex, lastBullAddPrice := addPrice }
        output.nextState)
      (decisions : output.decisions = [buildPyramidBuyDecision input quantity addIndex])
  /-- A rung of the ladder. -/
  | grid (after : TTState) (hasGrid : input.config.buy.gridLevels.isEmpty = false)
      (unblocked : (regimeEntryBlock input input.nowMs state).1 = none)
      (emits : GridEmits input input.nowMs
        { state with currentGridTradeIndex := alignedIndex state } after output.decisions)
      (next : KeepsPosition after output.nextState) (buys : LadderBuys input state)
  /-- The single first buy. -/
  | first (quantity : DecimalString) (noGrid : input.config.buy.gridLevels.isEmpty = true)
      (unblocked : (regimeEntryBlock input input.nowMs state).1 = none)
      (flat : state.avgEntryPrice = none) (keeps : KeepsPosition state output.nextState)
      (decisions : output.decisions = [buildFirstBuyDecision input quantity])
  /-- Nothing was bought. -/
  | report (index : Option ℕ) (block : Option RegimeBlock)
      (block_eq : block = (regimeEntryBlock input input.nowMs state).1)
      (index_eq : index = state.currentGridTradeIndex ∨
        block = none ∧ index = alignedIndex state)
      (next : KeepsPosition
        { state with currentGridTradeIndex :=
            if (entryTimeoutCancels input state block).isEmpty then index else none }
        output.nextState)
      (decisions : output.decisions =
        entryTimeoutCancels input state block ++ regimeBlockCancels input block ++
          [tickSnapshot input])

theorem evaluateBullPyramid_add {decisions : List Decision} {entry : LogEntry}
    {nextState : TTState} {addIndex : ℕ}
    (h : evaluateBullPyramid input state = .add decisions entry nextState addIndex) :
    ∃ quantity addPrice, decisions = [buildPyramidBuyDecision input quantity addIndex] ∧
      nextState = { state with bullAddCount := some addIndex, lastBullAddPrice := addPrice } := by
  unfold evaluateBullPyramid at h
  dsimp only at h
  repeat' split at h
  all_goals cases h
  exact ⟨_, _, rfl, rfl⟩

/-- What a stage of the buy side does: end the tick, or go on with another rung and other notes. -/
def BuyStageResult (input : TTInput) (state : TTState) (index : Option ℕ → Prop) :
    Except TTOutput BuyNotes → Prop :=
  Ends (BuyOutcome input state) fun notes =>
    ∃ ix, index ix ∧ KeepsPosition { state with currentGridTradeIndex := ix } notes.state

theorem pyramidStage_result (s : ChainState) :
    Ends (BuyOutcome input s.state) (fun notes => notes.state = s.state)
      (pyramidStage input (BuyNotes.initial s)) := by
  unfold pyramidStage
  split
  · next h =>
      rw [Bool.and_eq_true] at h
      split
      · next decisions entry nextState addIndex hadd =>
          obtain ⟨quantity, addPrice, rfl, rfl⟩ := evaluateBullPyramid_add hadd
          exact .pyramid quantity addIndex addPrice h.2 (.of_eq rfl) rfl
      · rfl
      · rfl
  · rfl

theorem gridStage_result (notes : BuyNotes)
    (hasGrid : input.config.buy.gridLevels.isEmpty = false)
    (unblocked : (regimeEntryBlock input input.nowMs notes.state).1 = none) :
    Ends (fun _ => True) (BuyStageResult input notes.state (· = alignedIndex notes.state))
      (gridStage input input.nowMs notes) := by
  unfold gridStage
  dsimp only
  have haligned := alignGridIndex_state input notes
  have hlawful := evaluateGridBuy_lawful input (alignGridIndex input notes).state input.nowMs false
  cases hgrid : evaluateGridBuy input (alignGridIndex input notes).state input.nowMs false with
  | error message => trivial
  | ok result =>
      have hresult := hlawful.returned hgrid
      rw [haligned] at hresult
      cases result with
      | emit after decisions entry level =>
          have hbuys : LadderBuys input notes.state := by
            unfold LadderBuys
            rw [← haligned, hgrid]
            rfl
          exact .grid after hasGrid unblocked hresult (.of_eq rfl) hbuys
      | _ => exact ⟨_, rfl, by rw [← haligned]; exact KeepsPosition.refl _⟩

theorem firstBuyStage_result (notes : BuyNotes)
    (noGrid : input.config.buy.gridLevels.isEmpty = true)
    (unblocked : (regimeEntryBlock input input.nowMs notes.state).1 = none)
    (flat : notes.state.avgEntryPrice = none) :
    Ends (fun _ => True)
      (BuyStageResult input notes.state (· = notes.state.currentGridTradeIndex))
      (firstBuyStage input input.nowMs notes) := by
  have hkeeps : ∃ ix, ix = notes.state.currentGridTradeIndex ∧
      KeepsPosition { notes.state with currentGridTradeIndex := ix } notes.state :=
    ⟨_, rfl, KeepsPosition.refl _⟩
  unfold firstBuyStage
  dsimp only
  split
  · exact hkeeps
  · generalize (if notes.state.entryConfirmCount + 1 < input.config.technicals.entryConfirmReads
      then _ else _) = count
    split
    · exact hkeeps
    · refine Ends.bind (Q := fun _ => True) ?_ fun veto _ => ?_
      · cases indicatorGates input <;> trivial
      · split
        · exact hkeeps
        · unfold firstBuyEmit
          dsimp only
          refine Ends.bind (Q := fun _ => True) ?_ fun exposure _ => ?_
          · cases regimeExposure input.config input.market <;> trivial
          · split
            · next quantity _ => exact .first quantity noGrid unblocked flat (.of_eq rfl) rfl
            · exact hkeeps

theorem buyStage_result (block : Option RegimeBlock) (cooldowns : Cooldowns) (notes : BuyNotes)
    (hblock : block = (regimeEntryBlock input input.nowMs notes.state).1) :
    Ends (fun _ => True)
      (BuyStageResult input notes.state fun index =>
        index = notes.state.currentGridTradeIndex ∨
          block = none ∧ index = alignedIndex notes.state)
      (buyStage input (buildScalars input) block cooldowns notes) := by
  have hstay : BuyStageResult input notes.state (fun index =>
      index = notes.state.currentGridTradeIndex ∨ block = none ∧ index = alignedIndex notes.state)
      (.ok notes) := ⟨_, .inl rfl, KeepsPosition.refl _⟩
  unfold buyStage
  split
  · exact hstay
  · next hopen =>
      simp only [Bool.or_eq_true, not_or, Bool.not_eq_true, Option.isSome_eq_false_iff,
        Option.isNone_iff_eq_none] at hopen
      have hnone : block = none := hopen.1.1.1
      split
      · next hgrid =>
          refine (gridStage_result notes (by simpa using hgrid) (hblock ▸ hnone)).mono
            (fun _ _ => trivial) fun result hresult => ?_
          refine Ends.mono hresult (fun _ h => h) ?_
          rintro after ⟨index, rfl, hkeeps⟩
          exact ⟨_, .inr ⟨hnone, rfl⟩, hkeeps⟩
      · next hgrid =>
          split
          · next hflat =>
              rw [Bool.and_eq_true, Option.isNone_iff_eq_none] at hflat
              refine (firstBuyStage_result notes (by simpa using hgrid) (hblock ▸ hnone)
                hflat.1).mono (fun _ _ => trivial) fun result hresult => ?_
              refine Ends.mono hresult (fun _ h => h) ?_
              rintro after ⟨index, rfl, hkeeps⟩
              exact ⟨_, .inl rfl, hkeeps⟩
          · exact hstay

theorem buyAndSnapshotBranch_meets (s : ChainState) :
    Ends (fun _ => True)
      (Outcome.Holds (fun _ => False) (BuyOutcome input s.state) s)
      (buyAndSnapshotBranch input (buildScalars input) s) := by
  unfold buyAndSnapshotBranch
  dsimp only [buildScalars]
  generalize hblock : regimeEntryBlock input input.nowMs s.state = blocked
  obtain ⟨block, rearmLog⟩ := blocked
  have hblock' : block = (regimeEntryBlock input input.nowMs s.state).1 := by rw [hblock]
  dsimp only
  have hpyramid := @pyramidStage_result input
    { s with preambleLogs := s.preambleLogs ++ rearmLog.toList }
  split
  · next output houtput => exact hpyramid.raised houtput
  · next notes hnotes =>
      have hstate : notes.state = s.state := hpyramid.returned hnotes
      have hbuy := buyStage_result block (entryCooldowns input input.nowMs s.state) notes
        (hstate ▸ hblock')
      rw [hstate] at hbuy
      refine hbuy.bind fun result hresult => ?_
      cases result with
      | error output => exact hresult
      | ok after =>
          obtain ⟨index, hindex, hkeeps⟩ := hresult
          refine .report index block hblock' hindex ?_ rfl
          refine KeepsPosition.trans (b := { after.state with currentGridTradeIndex :=
            if (entryTimeoutCancels input s.state block).isEmpty then index else none }) ?_ ?_
          · exact { hkeeps with currentGridTradeIndex := rfl }
          · unfold buyReport actingOutput
            dsimp only
            split
            · exact { KeepsPosition.refl after.state with
                currentGridTradeIndex := hkeeps.currentGridTradeIndex }
            · exact .of_eq rfl

/-! ### The whole tick -/

/-- How a tick ends that looks at its position, from the state the drop handed on. -/
inductive LateOutcome (input : TTInput) (state : TTState) (output : TTOutput) : Prop where
  | sell (terminal : SellTerminal input state output)
  | buy (at_ : TTState) (keeps : KeepsPosition state at_) (outcome : BuyOutcome input at_ output)

/-- Everything a tick can do from its first state. -/
inductive TickOutcome (input : TTInput) (start : TTState) (output : TTOutput) : Prop where
  | early (stopped : ¬ Passes input start) (outcome : EarlyOutcome input start output)
  | late (passes : Passes input start) (after : TTState) (drop : AfterDrop input start after)
      (outcome : LateOutcome input after output)

section Chain

variable (input : TTInput) (start : TTState)

theorem applyDisabledClearBranch_meets (state : TTState) :
    Meets (fun s => s.state = state) (applyDisabledClearBranch (buildScalars input))
      (fun s => s.state = liftPause input.nowMs state)
      (TickOutcome input (liftPause input.nowMs state)) := by
  rintro s rfl
  unfold applyDisabledClearBranch liftPause
  split
  · next h => rw [if_pos (by exact h)]; rfl
  · next h => rw [if_neg (by exact h)]; rfl

theorem overrideBranch_meets :
    Meets (fun s => s.state = start) (overrideBranch input (buildScalars input))
      (fun s => s.state = start ∧ input.bundle.override = none) (TickOutcome input start) := by
  rintro s rfl
  unfold overrideBranch
  split
  · next override hoverride =>
      refine (handleOverride_outcome input s.state override).bind fun output houtput => ?_
      refine TickOutcome.early (fun h => ?_) houtput
      rw [h.override] at hoverride
      cases hoverride
  · next hoverride => exact ⟨rfl, hoverride⟩

theorem autoTriggerBuyBranch_meets :
    Meets (fun s => s.state = start ∧ input.bundle.override = none)
      (autoTriggerBuyBranch input (buildScalars input))
      (fun s => s.state = start ∧ input.bundle.override = none ∧
        (autoTriggerDue start input.nowMs = false ∨ start.disabledUntilMs.isSome = true))
      (TickOutcome input start) := by
  rintro s ⟨rfl, hoverride⟩
  unfold autoTriggerBuyBranch
  dsimp only [buildScalars]
  split
  · next hdue => exact ⟨rfl, hoverride, .inl (by simpa using hdue)⟩
  · next hdue =>
      have hstopped : ¬ Passes input s.state := fun h => hdue (by rw [h.notDue]; rfl)
      have hquiet : ∀ output : TTOutput, KeepsPosition s.state output.nextState →
          output.decisions = [.noop] → TickOutcome input s.state output :=
        fun output hkeeps hdecisions => .early hstopped (.quiet hkeeps hdecisions)
      split
      · exact hquiet _ (.of_eq rfl) rfl
      · split
        · exact hquiet _ (.of_eq rfl) rfl
        · split
          · exact hquiet _ (.of_eq rfl) rfl
          · split
            · next hpaused =>
                split
                · exact hquiet _ (.of_eq rfl) rfl
                · exact ⟨rfl, hoverride, .inr hpaused⟩
            · split
              · exact hquiet _ (.of_eq rfl) rfl
              · split
                · exact hquiet _ (.of_eq rfl) rfl
                · refine (autoTriggerEntry_outcome input s.state).bind fun output houtput => ?_
                  exact TickOutcome.early hstopped houtput

theorem disabledGateBranch_meets :
    Meets (fun s => s.state = start ∧ input.bundle.override = none ∧
        (autoTriggerDue start input.nowMs = false ∨ start.disabledUntilMs.isSome = true))
      disabledGateBranch (fun s => s.state = start ∧ Passes input start)
      (TickOutcome input start) := by
  rintro s ⟨rfl, hoverride, hdue⟩
  unfold disabledGateBranch
  split
  · next hpaused =>
      refine TickOutcome.early (fun h => ?_) (.quiet (.of_eq rfl) rfl)
      rw [h.notPaused] at hpaused
      cases hpaused
  · next hpaused =>
      exact ⟨rfl, hoverride, hdue.resolve_right hpaused, by simpa using hpaused⟩

theorem lbpClearBranch_meets :
    Meets (fun s => s.state = start ∧ Passes input start) (lbpClearBranch input)
      (fun s => Passes input start ∧ AfterDrop input start s.state)
      (TickOutcome input start) := by
  rintro s ⟨rfl, hpasses⟩
  have hspec := maybeClearAvgEntryPrice_spec input s.state
  unfold lbpClearBranch
  split
  · next after entry hclear =>
      rw [hclear] at hspec
      exact ⟨hpasses, hspec⟩
  · next hclear =>
      rw [hclear] at hspec
      exact ⟨hpasses, .kept hspec⟩

theorem sellGateBranch_meets_tick :
    Meets (fun s => Passes input start ∧ AfterDrop input start s.state)
      (sellGateBranch input (buildScalars input))
      (fun s => Passes input start ∧
        ∃ after, AfterDrop input start after ∧ KeepsPosition after s.state)
      (TickOutcome input start) := by
  rintro s ⟨hpasses, hdrop⟩
  refine (sellGateBranch_meets (buildScalars input) s).mono (fun _ h => h) fun outcome h => ?_
  cases outcome with
  | pass => exact ⟨hpasses, s.state, hdrop, KeepsPosition.refl _⟩
  | mutate s' => exact ⟨hpasses, s.state, hdrop, h⟩
  | terminal output => exact .late hpasses s.state hdrop (.sell h)

theorem buyAndSnapshotBranch_meets_tick :
    Meets (fun s => Passes input start ∧
        ∃ after, AfterDrop input start after ∧ KeepsPosition after s.state)
      (buyAndSnapshotBranch input (buildScalars input)) (fun _ => False)
      (TickOutcome input start) := by
  rintro s ⟨hpasses, after, hdrop, hkeeps⟩
  refine (buyAndSnapshotBranch_meets s).mono (fun _ h => h) fun outcome h => ?_
  cases outcome with
  | pass => exact h
  | mutate s' => exact h
  | terminal output => exact .late hpasses after hdrop (.buy s.state hkeeps h)

end Chain

theorem computeTick_outcome (rawInput : TTInput) :
    Ends (fun _ => True) (TickOutcome (normalizedInput rawInput) (startState rawInput))
      (computeTick rawInput) := by
  have hchain : RunMeets fellThrough (fun s => s.state = (normalizedInput rawInput).state)
      (branches (normalizedInput rawInput) (buildScalars (normalizedInput rawInput)))
      (TickOutcome (normalizedInput rawInput) (startState rawInput)) :=
    .cons (applyDisabledClearBranch_meets _ _) <|
    .cons (overrideBranch_meets _ _) <|
    .cons (autoTriggerBuyBranch_meets _ _) <|
    .cons (disabledGateBranch_meets _ _) <|
    .cons (lbpClearBranch_meets _ _) <|
    .cons (sellGateBranch_meets_tick _ _) <|
    .cons (buyAndSnapshotBranch_meets_tick _ _) <|
    .nil _ _ _
  exact hchain ⟨(normalizedInput rawInput).state, []⟩ rfl

/-! ### A sample profile -/

/-- A one-rung profile with a stop-loss at nine tenths of its cost. -/
def sampleConfig : TTConfig where
  candleInterval := .h1
  buy :=
    { enabled := true, entrySizing := none, avgEntryPriceRemoveThreshold := "0.8"
      gridRepriceMinDriftPercent := "0"
      gridLevels :=
        [{ triggerPercentage := "1", stopPricePercentage := "", limitPricePercentage := ""
           minPurchaseAmount := "", maxPurchaseAmount := "100" }]
      indicatorGate := none, meanReversionGate := none
      autoTriggerBuy :=
        { enabled := false, triggerAfterMinutes := 20, rescheduleWhileDisabled := false }
      lossCooldownMinutes := 0, firstBuyTriggerBasis := .immediate, candleLimit := 100
      maxSymbolExposureQuote := "", maxPositionLossQuote := "", accountCap := none }
  sell :=
    { enabled := true, stopLossPercentage := "0.9", triggerPercentage := "1.05"
      trailingStopPercentage := "0.99"
      atrTrailing := { enabled := false, fromEntry := false, period := 14, multiplier := "3" }
      protectiveStop := none, breakEven := none, discoveryTimeStopBars := 0, timeStopBars := 0
      forceSellMinProfitPercent := "0" }
  regime := none
  forceBuyOverride := { checkTechnicals := true }
  technicals :=
    { entryConfirmReads := 1, intervals := [], forceSellConfirmMinutes := none
      forceSellReentryCooldownMinutes := none }
  fees := none
  execution := none

/-- One coin bought at 100. -/
def sampleHeld : TTState :=
  { initialTTState with avgEntryPrice := some (.raw "100"), heldQuantity := some (.raw "1")
                        currentGridTradeIndex := some 0 }

def sampleBundle : TTBundle where
  technicals :=
    { config := { useOnlyWithinMin := 30, ifExpires := .doNotBuy, intervals := [] }, signals := [] }
  override := none
  entryHint := none

/-- A tick of the sample profile at a price, over a readable wallet with some free base. -/
def sampleInput (config : TTConfig) (state : TTState) (price : String) (free : ℚ) : TTInput where
  nowMs := 1000
  profile := ⟨"p"⟩
  config
  state
  market := { sampleMarket with currentPrice := price }
  account :=
    { balances := fun asset => if asset = "BTC" then some ⟨num free, num 0⟩ else none
      readable := true, deployedQuoteAcrossProfiles := none }
  openOrders := []
  bundle := sampleBundle

end TradingBot.TrailingTrade
