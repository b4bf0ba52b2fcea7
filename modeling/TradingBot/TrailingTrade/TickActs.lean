import TradingBot.TrailingTrade.SentOrders

/-!
# What the orders of a tick went through

A second inversion of `computeTick`, over the guards. For every order a tick
places it says which open orders were ruled out, which caps passed, which
re-entry cooldown was over, and what the tick leaves of the two latches that
outlive a position: the time of the last exit at a loss and the deadline of the
last signal-driven sell.
-/

namespace TradingBot.TrailingTrade

open Decimal EarlyExit BranchChain

variable {input : TTInput} {state start : TTState}

/-! ### The latches -/

structure KeepsLatches (before after : TTState) : Prop where
  lossExit : after.lastLossExitAt = before.lastLossExitAt
  forceSell : after.forceSellCooldownUntilMs = before.forceSellCooldownUntilMs

theorem KeepsLatches.refl (state : TTState) : KeepsLatches state state := ⟨rfl, rfl⟩

theorem KeepsLatches.trans {a b c : TTState} (hab : KeepsLatches a b) (hbc : KeepsLatches b c) :
    KeepsLatches a c :=
  ⟨hbc.lossExit.trans hab.lossExit, hbc.forceSell.trans hab.forceSell⟩

/-- The price is below the cost basis, as far as both read. -/
def belowCost (input : TTInput) (avgEntryPrice : Option DecimalString) : Bool :=
  match parse input.market.currentPrice, safeDecimal avgEntryPrice with
  | some price, some avg => price.lt avg
  | _, _ => false

/-- The exits the strategy remembers as a loss: a break-even stop, and the others below cost. -/
def remembersLoss (input : TTInput) (avgEntryPrice : Option DecimalString) :
    SellEmissionReason → Bool
  | .breakEvenStop => true
  | .gridStopLoss => belowCost input avgEntryPrice
  | .technicalsForceSell => belowCost input avgEntryPrice
  | .regimeExit => belowCost input avgEntryPrice
  | _ => false

/-- When a profile may re-enter after a signal-driven sell of this tick. -/
def forceSellDeadline (input : TTInput) : Option ℤ :=
  let cooldownMs := (resolveForceSellGuards input.config.technicals).cooldownMinutes * 60000
  if cooldownMs > 0 then some (input.nowMs + cooldownMs) else none

/-- What an exit leaves of the latches. -/
structure ExitLatches (input : TTInput) (before : TTState) (reason : SellEmissionReason)
    (after : TTState) : Prop where
  lossExit : after.lastLossExitAt =
    if remembersLoss input before.avgEntryPrice reason then some input.nowMs
    else before.lastLossExitAt
  forceSell : after.forceSellCooldownUntilMs =
    if reason = .technicalsForceSell then forceSellDeadline input
    else before.forceSellCooldownUntilMs

/-- What a buy leaves of the latches: one the strategy made forgets the loss. -/
structure BuyLatches (before : TTState) (sender : Option String) (after : TTState) : Prop where
  lossExit : after.lastLossExitAt = if sender.isSome then before.lastLossExitAt else none
  forceSell : after.forceSellCooldownUntilMs = before.forceSellCooldownUntilMs

/-- A position's ladder, looked at by a tick, buys its next rung. -/
structure Climbs (input : TTInput) (state : TTState) : Prop where
  held : state.avgEntryPrice.isSome = true
  buys : LadderBuys input state

/-- The cooldowns a buy waited for; `sender` is the override that asked for it. -/
structure Cooled (input : TTInput) (before : TTState) (sender : Option String) (after : TTState) :
    Prop where
  override : ∀ id, sender = some id →
    ∃ override, input.bundle.override = some override ∧ override.kind = .triggerBuy
  forceSell : sender.isSome = true ∨ after.avgEntryPrice = none →
    forceSellCooldownActive before input.nowMs = false
  loss : sender = none → after.avgEntryPrice = none →
    lossExitCooldownActive before input.config input.nowMs = false
  /-- A buy over a position waits for neither: it is the ladder's next rung. -/
  climbs : sender = none → after.avgEntryPrice.isSome = true → Climbs input before

/-! ### Acts -/

def NoOpenBuy (input : TTInput) : Prop :=
  hasOpenBuyForSymbol input.openOrders input.market.symbol = false

/-- No SELL of the symbol is open but our own stop. -/
def NoForeignSell (input : TTInput) : Prop :=
  hasOpenSellForSymbol input.openOrders input.market.symbol input.profile.id = false

/-- The caps let a quantity be added to a position. -/
def WithinCaps (input : TTInput) (state : TTState) (quantity : DecimalString) : Prop :=
  evaluateRiskCaps input.config state quantity input.market.currentPrice input.account
    input.market.symbolInfo.quoteAsset = none

/-- The quantity was sized from a purchase amount at the tick's price. -/
def SizedBuy (input : TTInput) (amount quantity : DecimalString) : Prop :=
  ∃ minPurchase stop, computeFirstBuyQuantity amount input.market.currentPrice
    input.market.symbolInfo.filters minPurchase stop = .ok quantity

/-- The quantity was sized from the entry budget, whole or scaled by the regime. -/
def SizedEntry (input : TTInput) (quantity : DecimalString) : Prop :=
  ∃ budget amount,
    resolveEntryBudget input.config input.account input.market.symbolInfo.quoteAsset = .ok budget ∧
    (amount = .printed budget ∨ ∃ exposure,
      regimeExposure input.config input.market = .ok exposure ∧
      amount = scaledBudget budget exposure) ∧
    SizedBuy input amount quantity

/-- Everything a tick can do, with the guards its orders passed. -/
inductive TickActs (input : TTInput) (start : TTState) (output : TTOutput) : Prop where
  /-- No order is placed. -/
  | rests (silent : ∀ d ∈ output.decisions, d.order = none)
      (latches : KeepsLatches start output.nextState)
  /-- An operator's own order. -/
  | manual (override : Override) (payload : ManualOrderRequest) (quantity : DecimalString)
      (override_eq : input.bundle.override = some override)
      (kind : override.kind = .manualOrder payload)
      (decisions : output.decisions = attributeToOverride
        (if payload.side = .sell && emptiesPosition quantity start then
          closingSellDecisions input
            (buildManualOrderDecision input payload quantity override.overrideActionId)
        else [buildManualOrderDecision input payload quantity override.overrideActionId])
        override.overrideActionId)
      (latches : KeepsLatches start output.nextState)
  /-- An operator's close of the position. -/
  | liquidates (override : Override) (quantity : DecimalString) (seed : String)
      (override_eq : input.bundle.override = some override) (kind : override.kind = .triggerSell)
      (decisions : output.decisions = attributeToOverride
        (closingSellDecisions input (buildSellDecision input "manual" quantity seed))
        override.overrideActionId)
      (latches : KeepsLatches start output.nextState)
  /-- The exchange-side stop moves. -/
  | arms (at_ : TTState)
      (decisions : output.decisions = (evaluateProtectiveStop input at_).decisions)
      (latches : KeepsLatches start output.nextState)
  /-- The strategy sells its position. -/
  | sells (reason : SellEmissionReason) (quantity : DecimalString) (seed : String)
      (unasked : input.bundle.override = none) (noForeignSell : NoForeignSell input)
      (decisions : output.decisions =
        closingSellDecisions input (buildSellDecision input reason.text quantity seed))
      (latches : ExitLatches input start reason output.nextState)
  /-- A rung of the ladder, entered or climbed down to. -/
  | rung (sender : Option String) (target : GridTarget) (level : GridLevel)
      (quantity : DecimalString)
      (unasked : sender = none → input.bundle.override = none)
      (level_eq : input.config.buy.gridLevels[target.level]? = some level)
      (sized : SizedBuy input (.raw level.maxPurchaseAmount) quantity)
      (capped : WithinCaps input output.nextState quantity)
      (cooled : Cooled input start sender output.nextState)
      (decisions : output.decisions = asSent sender (staleCancels input target.level ++
        [buildGridBuyDecision input quantity target.level (gridStopLimit input level)]))
      (latches : BuyLatches start sender output.nextState)
  /-- The single first buy of a profile without a ladder. -/
  | single (sender : Option String) (quantity : DecimalString)
      (unasked : sender = none → input.bundle.override = none) (noOpenBuy : NoOpenBuy input)
      (sized : SizedEntry input quantity)
      (cooled : Cooled input start sender output.nextState)
      (decisions : output.decisions = asSent sender [buildFirstBuyDecision input quantity])
      (latches : BuyLatches start sender output.nextState)
  /-- An add to a winner. -/
  | adds (quantity : DecimalString) (addIndex : ℕ) (pyramid : BullPyramid)
      (unasked : input.bundle.override = none) (noOpenBuy : NoOpenBuy input)
      (held : output.nextState.avgEntryPrice.isSome = true)
      (sized : SizedBuy input (.raw pyramid.maxPurchaseAmount) quantity)
      (capped : WithinCaps input output.nextState quantity)
      (decisions : output.decisions = [buildPyramidBuyDecision input quantity addIndex])
      (latches : KeepsLatches start output.nextState)

/-! ### The ladder reports the exit it makes -/

/-- The emission is the sell of a ladder exit, reported under that exit's metric. -/
def Labelled (input : TTInput) (emission : SellEmission) : Prop :=
  ∃ (reason : SellEmissionReason) (quantity : DecimalString) (seed : String),
    reason.onLadder = true ∧
      emission.decision = buildSellDecision input reason.text quantity seed ∧
      emission.metricName = reason.metricName

theorem sellEmissionOrSkip_labelled {reason : SellEmissionReason} {messagePrefix seed : String}
    {extraLog : Detail} {emission : SellEmission}
    (h : sellEmissionOrSkip input state reason messagePrefix seed extraLog = .ok emission) :
    ∃ quantity seed, emission.decision = buildSellDecision input reason.text quantity seed ∧
      emission.metricName = reason.metricName := by
  unfold sellEmissionOrSkip at h
  dsimp only at h
  split at h
  · next quantity _ =>
      obtain rfl := Except.ok.inj h
      exact ⟨quantity, seed, rfl, rfl⟩
  · cases h

/-- The ladder stops with a labelled sell, or without one. -/
def LadderResult.Reports (input : TTInput) : LadderResult → Prop
  | .emit emission => Labelled input emission
  | _ => True

theorem reports_closed (input : TTInput) (state : TTState) :
    LadderClosed input state (LadderResult.Reports input) where
  exit reason messagePrefix seed extraLog hladder _ := by
    cases h : sellEmissionOrSkip input state reason messagePrefix seed extraLog with
    | ok emission =>
        obtain ⟨quantity, seed, hdecision, hmetric⟩ := sellEmissionOrSkip_labelled h
        exact ⟨reason, quantity, seed, hladder, hdecision, hmetric⟩
    | error refused => trivial
  raise _ _ := trivial
  skip _ _ _ := trivial
  noop := trivial

theorem evaluateSellGate_labelled {emission : SellEmission}
    (h : evaluateSellGate input state = .emit emission) : Labelled input emission := by
  have hladder := runSellLadder_stops (reports_closed input state) noExitCandidates
  unfold evaluateSellGate at h
  cases hrun : runSellLadder input state noExitCandidates with
  | mk result cand =>
      rw [hrun] at h hladder
      cases result with
      | emit sold =>
          obtain rfl := SellGateResult.emit.inj h
          exact hladder
      | bumpHigh raised => cases h
      | skip log skipReason field => cases h
      | noop => cases h

/-! ### The way to an act -/

/-- The state a branch is handed: the latches of the start, and its position if any is left. -/
structure Leads (start at_ : TTState) : Prop where
  latches : KeepsLatches start at_
  keeps : at_.avgEntryPrice.isSome = true → KeepsPosition start at_

theorem Leads.refl (state : TTState) : Leads state state :=
  ⟨KeepsLatches.refl state, fun _ => KeepsPosition.refl state⟩

theorem Leads.step {at_ next : TTState} (leads : Leads start at_) (latches : KeepsLatches at_ next)
    (keeps : KeepsPosition at_ next) : Leads start next where
  latches := leads.latches.trans latches
  keeps h := (leads.keeps (keeps.avgEntryPrice ▸ h)).trans keeps

theorem Leads.basis {at_ : TTState} (leads : Leads start at_)
    (held : at_.avgEntryPrice.isSome = true) : at_.avgEntryPrice = start.avgEntryPrice :=
  (leads.keeps held).avgEntryPrice

theorem Leads.belowCost {at_ : TTState} (leads : Leads start at_)
    (held : at_.avgEntryPrice.isSome = true) :
    belowCost input at_.avgEntryPrice = belowCost input start.avgEntryPrice := by
  rw [leads.basis held]

/-! ### The sell side -/

theorem lossExitStamp_latches (input : TTInput) (reason : String)
    (avg : Option DecimalString) (now : ℤ)
    (state : TTState) :
    (lossExitStamp reason input.market.currentPrice avg now state).lastLossExitAt =
        (if belowCost input avg then some now else state.lastLossExitAt) ∧
      (lossExitStamp reason input.market.currentPrice avg now state).forceSellCooldownUntilMs =
        state.forceSellCooldownUntilMs := by
  unfold lossExitStamp belowCost
  cases parse input.market.currentPrice with
  | none => simp
  | some price =>
      cases safeDecimal avg with
      | none => simp
      | some avg => by_cases hlt : price.lt avg = true <;> simp [hlt]

theorem ladderLossStamp_latches (input : TTInput) {reason : SellEmissionReason} (now : ℤ)
    (avg : Option DecimalString) (state : TTState) (hladder : reason.onLadder = true) :
    (ladderLossStamp input now reason.metricName avg state).lastLossExitAt =
        (if remembersLoss input avg reason then some now else state.lastLossExitAt) ∧
      (ladderLossStamp input now reason.metricName avg state).forceSellCooldownUntilMs =
        state.forceSellCooldownUntilMs := by
  cases reason with
  | gridStopLoss => exact lossExitStamp_latches input _ avg now state
  | technicalsForceSell => cases hladder
  | regimeExit => cases hladder
  | _ => exact ⟨rfl, rfl⟩

section Sell

variable {s : ChainState}

/-- What the sell side knows of the tick: nobody asked for it, and no other sell is open. -/
structure SellsFreely (input : TTInput) (start : TTState) (s : ChainState) : Prop where
  unasked : input.bundle.override = none
  noForeignSell : NoForeignSell input
  leads : Leads start s.state
  held : s.state.avgEntryPrice.isSome = true

theorem SellsFreely.step {s' : ChainState} (h : SellsFreely input start s)
    (latches : KeepsLatches s.state s'.state) (keeps : KeepsPosition s.state s'.state) :
    SellsFreely input start s' where
  unasked := h.unasked
  noForeignSell := h.noForeignSell
  leads := h.leads.step latches keeps
  held := by rw [keeps.avgEntryPrice]; exact h.held

theorem sellOnSignal_acts (h : SellsFreely input start s) (signal : TvForceSell) :
    TickActs input start (sellOnSignal input input.nowMs s signal
      (resolveForceSellGuards input.config.technicals).cooldownMinutes) := by
  unfold sellOnSignal
  split
  · next emission hemission =>
      obtain ⟨quantity, seed, hdecision, -⟩ := sellEmissionOrSkip_labelled hemission
      obtain ⟨hloss, hforce⟩ := lossExitStamp_latches input "technicals-force-sell"
        s.state.avgEntryPrice input.nowMs
        { clearedSellPosition s.state (armAutoTriggerBuy input.config input.nowMs) with
          forceSellCooldownUntilMs := forceSellDeadline input }
      refine .sells .technicalsForceSell quantity seed h.unasked h.noForeignSell ?_ ⟨?_, ?_⟩
      · exact congrArg (closingSellDecisions input) hdecision
      · refine hloss.trans ?_
        rw [h.leads.belowCost h.held]
        exact congrArg _ h.leads.latches.lossExit
      · exact hforce
  · refine .rests ?_ ⟨h.leads.latches.lossExit, h.leads.latches.forceSell⟩
    intro d hd
    rw [List.mem_singleton.mp hd]
    rfl

theorem keepsLatches_markFirstSeen (state : TTState) (confirmMs now : ℤ) :
    KeepsLatches state (markFirstSeen state confirmMs now) := by
  unfold markFirstSeen
  split
  · exact ⟨rfl, rfl⟩
  · exact KeepsLatches.refl _

theorem forceSellStage_acts (h : SellsFreely input start s) :
    Ends (TickActs input start) (SellsFreely input start) (forceSellStage input input.nowMs s) := by
  have hnoted : SellsFreely input start (noteTriggerParse input s) :=
    h.step (by rw [noteTriggerParse_state]; exact KeepsLatches.refl _)
      (by rw [noteTriggerParse_state]; exact KeepsPosition.refl _)
  unfold forceSellStage
  dsimp only
  split
  · exact hnoted.step ⟨rfl, rfl⟩ (.of_eq rfl)
  · unfold confirmForceSell
    dsimp only
    have hlatches := keepsLatches_markFirstSeen (noteTriggerParse input s).state
      ((resolveForceSellGuards input.config.technicals).confirmMinutes * 60000) input.nowMs
    have hkeeps := keeps_markFirstSeen (noteTriggerParse input s).state
      ((resolveForceSellGuards input.config.technicals).confirmMinutes * 60000) input.nowMs
    split
    · exact hnoted.step hlatches hkeeps
    · exact sellOnSignal_acts (hnoted.step hlatches hkeeps) _

theorem ladderStage_acts (h : SellsFreely input start s) :
    Ends (TickActs input start) (fun r => SellsFreely input start r.1)
      (ladderStage input input.nowMs s) := by
  have hgate := evaluateSellGate_lawful input s.state
  unfold ladderStage
  split
  · next emission hemit =>
      obtain ⟨reason, quantity, seed, hladder, hdecision, hmetric⟩ :=
        evaluateSellGate_labelled hemit
      obtain ⟨hloss, hforce⟩ := ladderLossStamp_latches input input.nowMs
        s.state.avgEntryPrice
        (clearedSellPosition s.state (armAutoTriggerBuy input.config input.nowMs)) hladder
      have hother : reason ≠ .technicalsForceSell := by
        rintro rfl
        cases hladder
      rw [hmetric]
      refine .sells reason quantity seed h.unasked h.noForeignSell ?_ ⟨?_, ?_⟩
      · exact congrArg (closingSellDecisions input) hdecision
      · refine hloss.trans ?_
        rw [h.leads.basis h.held]
        exact congrArg _ h.leads.latches.lossExit
      · rw [if_neg hother]
        exact hforce.trans h.leads.latches.forceSell
  · next raised blocker hbump =>
      rw [hbump] at hgate
      have hlatches : KeepsLatches s.state raised := by
        rw [show raised = _ from hgate]
        exact ⟨rfl, rfl⟩
      exact h.step hlatches (keeps_of_raised h.held hgate)
  · exact h.step ⟨rfl, rfl⟩ (.of_eq rfl)
  · exact h

theorem regimeExitStage_acts (h : SellsFreely input start s) (blocker : ExitBlocker) :
    Ends (TickActs input start) (fun r => SellsFreely input start r.1)
      (regimeExitStage input input.nowMs s blocker) := by
  unfold regimeExitStage
  split
  · split
    · next emission hemission =>
        obtain ⟨quantity, seed, hdecision, -⟩ := sellEmissionOrSkip_labelled hemission
        obtain ⟨hloss, hforce⟩ := lossExitStamp_latches input "regime-exit" s.state.avgEntryPrice
          input.nowMs (clearedSellPosition s.state none)
        refine .sells .regimeExit quantity seed h.unasked h.noForeignSell ?_ ⟨?_, ?_⟩
        · exact congrArg (closingSellDecisions input) hdecision
        · refine hloss.trans ?_
          rw [h.leads.belowCost h.held]
          exact congrArg _ h.leads.latches.lossExit
        · exact hforce.trans h.leads.latches.forceSell
    · exact h.step ⟨rfl, rfl⟩ (.of_eq rfl)
  · exact h

theorem exitStages_acts (leads : Leads start s.state) (unasked : input.bundle.override = none) :
    Ends (TickActs input start) (fun r => Leads start r.1.state)
      (exitStages input (buildScalars input) s) := by
  unfold exitStages
  split
  · next h =>
      simp only [Bool.and_eq_true, Bool.not_eq_true'] at h
      have hfree : SellsFreely input start s := ⟨unasked, h.2, leads, h.1.2⟩
      refine (forceSellStage_acts hfree).bind fun s₁ h₁ => ?_
      refine (ladderStage_acts h₁).bind fun r₂ h₂ => ?_
      exact (regimeExitStage_acts h₂ r₂.2).bind fun r₃ h₃ => h₃.leads
  · exact leads

/-- Recording the exit blocker touches neither the latches nor the position. -/
theorem exitBlockerStage_leads (input : TTInput) (leads : Leads start s.state)
    (scalars : TickScalars) (blocker : Option ExitBlocker) :
    Leads start (exitBlockerStage input scalars s blocker).state := by
  refine leads.step ?_ (keeps_exitBlockerStage input scalars s blocker)
  unfold exitBlockerStage
  split
  · exact ⟨rfl, rfl⟩
  · exact ⟨rfl, rfl⟩

theorem protectiveStopStage_acts (leads : Leads start s.state) :
    Ends (TickActs input start) (fun s => Leads start s.state)
      (protectiveStopStage input s) := by
  unfold protectiveStopStage
  dsimp only
  split
  · split
    · exact .arms s.state rfl ⟨leads.latches.lossExit, leads.latches.forceSell⟩
    · split
      · exact leads.step ⟨rfl, rfl⟩ (.of_eq rfl)
      · exact leads.step ⟨rfl, rfl⟩ (.of_eq rfl)
  · exact leads.step ⟨rfl, rfl⟩ (.of_eq rfl)

theorem sellGateBranch_acts :
    Meets (fun s => Leads start s.state ∧ input.bundle.override = none)
      (sellGateBranch input (buildScalars input))
      (fun s => Leads start s.state ∧ input.bundle.override = none) (TickActs input start) := by
  rintro s ⟨leads, unasked⟩
  have hstages := (exitStages_acts leads unasked).bind fun r hr =>
    protectiveStopStage_acts (exitBlockerStage_leads input hr (buildScalars input) r.2)
  unfold sellGateBranch
  split
  · next output houtput => exact hstages.raised houtput
  · next s' hs' => exact ⟨hstages.returned hs', unasked⟩

end Sell

/-! ### The buy side -/

/-- The caps look at nothing of a state but its cost basis and its quantity. -/
theorem WithinCaps.congr {before after : TTState} {quantity : DecimalString}
    (h : WithinCaps input before quantity) (hbasis : after.avgEntryPrice = before.avgEntryPrice)
    (hheld : after.heldQuantity = before.heldQuantity) : WithinCaps input after quantity := by
  unfold WithinCaps evaluateRiskCaps projectedDeployed at h ⊢
  rw [hbasis, hheld]
  exact h

section Congr

variable {before after : TTState}

theorem promotionRegime_congr (input : TTInput)
    (hbasis : after.avgEntryPrice = before.avgEntryPrice) :
    promotionRegime input after = promotionRegime input before := by
  unfold promotionRegime
  rw [hbasis]

theorem emitGridBuy_buys_congr (input : TTInput)
    (hbasis : after.avgEntryPrice = before.avgEntryPrice)
    (hheld : after.heldQuantity = before.heldQuantity) (now : ℤ) (target : GridTarget)
    (level : GridLevel) (stopLimit : Option StopLimit) :
    (emitGridBuy input after now target level stopLimit).buys =
      (emitGridBuy input before now target level stopLimit).buys := by
  unfold emitGridBuy evaluateRiskCaps projectedDeployed
  rw [hbasis, hheld]
  split
  · rfl
  · split
    · rfl
    · rfl

/-- Whether the ladder buys depends on nothing of a state but its position. -/
theorem evaluateGridBuy_buys_congr (input : TTInput) (keeps : KeepsPosition before after) (now : ℤ)
    (force : Bool) :
    (evaluateGridBuy input after now force).map GridBuyResult.buys =
      (evaluateGridBuy input before now force).map GridBuyResult.buys := by
  have htarget : gridTarget input after = gridTarget input before := by
    unfold gridTarget promotionTarget
    rw [keeps.avgEntryPrice, keeps.currentGridTradeIndex, keeps.discoveryEntry]
  unfold evaluateGridBuy gateGridBuy
  rw [htarget, promotionRegime_congr input keeps.avgEntryPrice]
  split
  · rfl
  · split
    · rfl
    · dsimp only
      split
      · rfl
      · split
        · rfl
        · split
          · rfl
          · cases indicatorGates input with
            | error message => rfl
            | ok veto =>
                cases veto with
                | some veto => rfl
                | none =>
                    cases promotionRegime input before with
                    | some skip => rfl
                    | none =>
                        exact congrArg Except.ok (emitGridBuy_buys_congr input keeps.avgEntryPrice
                          keeps.heldQuantity now _ _ _)

theorem LadderBuys.congr (keeps : KeepsPosition before after) :
    LadderBuys input after ↔ LadderBuys input before := by
  have haligned : alignedIndex after = alignedIndex before := by
    unfold alignedIndex
    rw [keeps.avgEntryPrice, keeps.currentGridTradeIndex]
  have hkeeps : KeepsPosition { before with currentGridTradeIndex := alignedIndex before }
      { after with currentGridTradeIndex := alignedIndex after } :=
    { keeps with currentGridTradeIndex := haligned }
  unfold LadderBuys
  rw [evaluateGridBuy_buys_congr input hkeeps]

end Congr

/-- What an entry went through on its way from `before` to its order. -/
inductive EntryGuards (input : TTInput) (before after : TTState) (decisions : List Decision) :
    Prop where
  | rung (target : GridTarget) (level : GridLevel) (quantity : DecimalString)
      (level_eq : input.config.buy.gridLevels[target.level]? = some level)
      (sized : SizedBuy input (.raw level.maxPurchaseAmount) quantity)
      (capped : WithinCaps input after quantity)
      (decisions_eq : decisions = staleCancels input target.level ++
        [buildGridBuyDecision input quantity target.level (gridStopLimit input level)])
      (latches : KeepsLatches before after)
      (basis : after.avgEntryPrice = before.avgEntryPrice)
  | single (quantity : DecimalString) (noOpenBuy : NoOpenBuy input)
      (sized : SizedEntry input quantity)
      (decisions_eq : decisions = [buildFirstBuyDecision input quantity])
      (latches : KeepsLatches before after)
      (basis : after.avgEntryPrice = before.avgEntryPrice)

theorem EntryGuards.acts {before after : TTState} {decisions : List Decision} {output : TTOutput}
    (sender : Option String) (h : EntryGuards input before after decisions)
    (leads : KeepsLatches start before) (unasked : sender = none → input.bundle.override = none)
    (cooled : Cooled input start sender after)
    (hdecisions : output.decisions = asSent sender decisions)
    (hbasis : output.nextState.avgEntryPrice = after.avgEntryPrice)
    (hheld : output.nextState.heldQuantity = after.heldQuantity)
    (hforce : output.nextState.forceSellCooldownUntilMs = after.forceSellCooldownUntilMs)
    (hloss : output.nextState.lastLossExitAt =
      if sender.isSome then after.lastLossExitAt else none) :
    TickActs input start output := by
  have hcooled : Cooled input start sender output.nextState :=
    ⟨cooled.override, fun hor => cooled.forceSell (hor.imp_right fun hflat => hbasis ▸ hflat),
      fun hsender hflat => cooled.loss hsender (hbasis ▸ hflat),
      fun hsender hheld => cooled.climbs hsender (hbasis ▸ hheld)⟩
  have hlatches (kept : KeepsLatches before after) :
      BuyLatches start sender output.nextState := by
    refine ⟨hloss.trans ?_, hforce.trans (leads.trans kept).forceSell⟩
    rw [(leads.trans kept).lossExit]
  cases h with
  | rung target level quantity level_eq sized capped decisions_eq latches basis =>
      subst decisions_eq
      exact .rung sender target level quantity unasked level_eq sized
        (capped.congr hbasis hheld) hcooled hdecisions (hlatches latches)
  | single quantity noOpenBuy sized decisions_eq latches basis =>
      subst decisions_eq
      exact .single sender quantity unasked noOpenBuy sized hcooled hdecisions (hlatches latches)

/-- What the ladder answers with an order went through the ladder's guards. -/
def GridBuyResult.Guarded (input : TTInput) (before : TTState) : GridBuyResult → Prop
  | .emit after decisions _ _ => EntryGuards input before after decisions
  | _ => True

theorem guarded_closedBut (before : TTState) :
    GridBuyResult.ClosedBut (GridBuyResult.Guarded input before) := by
  intro result hresult
  cases result with
  | emit after decisions entry level => exact absurd rfl (hresult after decisions entry level)
  | _ => trivial

theorem keepsLatches_emittedState (input : TTInput) (state : TTState) (target : GridTarget)
    (now : ℤ) :
    KeepsLatches state (emittedState input state target now) ∧
      (emittedState input state target now).avgEntryPrice = state.avgEntryPrice ∧
      (emittedState input state target now).heldQuantity = state.heldQuantity := by
  unfold emittedState
  dsimp only
  repeat' split
  all_goals exact ⟨⟨rfl, rfl⟩, rfl, rfl⟩

theorem evaluateGridBuy_guarded (input : TTInput) (state : TTState) (now : ℤ) (force : Bool) :
    Ends (fun _ => True) (GridBuyResult.Guarded input state)
      (evaluateGridBuy input state now force) := by
  refine evaluateGridBuy_from_emission (guarded_closedBut state) force ?_
  intro target level _ hlevel _
  unfold emitGridBuy
  split
  · trivial
  · next quantity hquantity =>
      split
      · trivial
      · next hcapped =>
          obtain ⟨hlatches, hbasis, hheld⟩ := keepsLatches_emittedState input state target now
          exact .rung target level quantity hlevel ⟨_, _, hquantity⟩
            (WithinCaps.congr hcapped hbasis hheld) rfl hlatches hbasis

def ForcedEntryResult.Guarded (input : TTInput) (before : TTState) : ForcedEntryResult → Prop
  | .emit after decisions _ _ _ => EntryGuards input before after decisions
  | _ => True

theorem emitFirstBuyTvForced_eq_ok {decision : Decision} {quantity : DecimalString}
    (hbuy : emitFirstBuyTvForced input state = .ok (decision, quantity)) :
    NoOpenBuy input ∧ SizedEntry input quantity ∧
      decision = buildFirstBuyDecision input quantity := by
  unfold emitFirstBuyTvForced at hbuy
  split at hbuy
  · cases hbuy
  split at hbuy
  · cases hbuy
  next hopen =>
  split at hbuy
  · cases hbuy
  next budget hbudget =>
  split at hbuy
  · cases hbuy
  next sized hsized =>
  cases hbuy
  exact ⟨by simpa [NoOpenBuy] using hopen, ⟨budget, _, hbudget, .inl rfl, _, _, hsized⟩, rfl⟩

theorem emitForcedFirstEntry_guarded (input : TTInput) (state : TTState) (now : ℤ) :
    Ends (fun _ => True) (ForcedEntryResult.Guarded input state)
      (emitForcedFirstEntry input state now) := by
  unfold emitForcedFirstEntry
  split
  · trivial
  · split
    · refine (evaluateGridBuy_guarded input (entryReset state) now true).bind fun grid hgrid => ?_
      cases grid with
      | emit after decisions entry level =>
          cases hgrid with
          | rung target level quantity level_eq sized capped decisions_eq latches basis =>
              exact .rung target level quantity level_eq sized capped decisions_eq
                ⟨latches.lossExit, latches.forceSell⟩ basis
          | single quantity noOpenBuy sized decisions_eq latches basis =>
              exact .single quantity noOpenBuy sized decisions_eq
                ⟨latches.lossExit, latches.forceSell⟩ basis
      | wait awaiting =>
          simp only [forcedGridEntry]
          split
          · trivial
          · trivial
      | _ => trivial
    · split
      · next decision quantity hbuy =>
          obtain ⟨hopen, hsized, rfl⟩ := emitFirstBuyTvForced_eq_ok hbuy
          exact .single quantity hopen hsized rfl (KeepsLatches.refl _) rfl
      · trivial

/-! ### Before the position is looked at -/

theorem rests_quiet {next : TTState} (logs : List LogEntry) (metrics : List MetricEntry)
    (decline : Option String) (latches : KeepsLatches start next) :
    TickActs input start (quietOutput next logs metrics decline) := by
  refine .rests ?_ latches
  intro d hd
  rw [List.mem_singleton.mp hd]
  rfl

theorem attribute_noop_rests {output : TTOutput} {overrideActionId : String}
    (hdecisions : output.decisions = [.noop]) (latches : KeepsLatches start output.nextState) :
    TickActs input start
      { output with decisions := attributeToOverride output.decisions overrideActionId } := by
  refine .rests ?_ latches
  intro d hd
  rw [hdecisions] at hd
  rw [List.mem_singleton.mp hd]
  rfl

theorem overrideBranch_acts :
    Meets (fun s => s.state = start) (overrideBranch input (buildScalars input))
      (fun s => s.state = start ∧ input.bundle.override = none) (TickActs input start) := by
  rintro s rfl
  unfold overrideBranch
  split
  · next override hoverride =>
      dsimp only [buildScalars]
      unfold handleOverride overrideOutput
      split
      · next payload hkind =>
          unfold manualOrderOutput
          dsimp only
          split
          · next quantity _ =>
              exact TickActs.manual override payload quantity hoverride hkind rfl ⟨rfl, rfl⟩
          · exact attribute_noop_rests rfl ⟨rfl, rfl⟩
      · next hkind =>
          unfold triggerBuyOutput
          dsimp only
          split
          · exact attribute_noop_rests rfl ⟨rfl, rfl⟩
          · next hforce =>
              rw [bind_assoc, bind_assoc]
              refine (emitForcedFirstEntry_guarded input s.state input.nowMs).bind
                fun result hresult => ?_
              have hcooled (after : TTState) :
                  Cooled input s.state (some override.overrideActionId) after :=
                ⟨fun _ _ => ⟨override, hoverride, hkind⟩, fun _ => by simpa using hforce,
                  nofun, nofun⟩
              cases result with
              | emit after decisions quantity level canceledStale =>
                  exact EntryGuards.acts (some override.overrideActionId) hresult
                    (KeepsLatches.refl _) nofun (hcooled after) rfl rfl rfl rfl rfl
              | wait => exact attribute_noop_rests rfl ⟨rfl, rfl⟩
              | skip reason context => exact attribute_noop_rests rfl ⟨rfl, rfl⟩
      · next hkind =>
          unfold triggerSellOutput
          dsimp only
          split
          · next quantity _ =>
              exact TickActs.liquidates override quantity _ hoverride hkind rfl ⟨rfl, rfl⟩
          · exact attribute_noop_rests rfl ⟨rfl, rfl⟩
  · next hoverride => exact ⟨rfl, hoverride⟩

theorem EntryGuards.basis {before after : TTState} {decisions : List Decision}
    (h : EntryGuards input before after decisions) :
    after.avgEntryPrice = before.avgEntryPrice := by
  cases h with
  | rung target level quantity level_eq sized capped decisions_eq latches basis => exact basis
  | single quantity noOpenBuy sized decisions_eq latches basis => exact basis

theorem autoTriggerEntry_acts (unasked : input.bundle.override = none)
    (hflat : start.avgEntryPrice = none)
    (hforce : forceSellCooldownActive start input.nowMs = false)
    (hloss : lossExitCooldownActive start input.config input.nowMs = false) :
    Ends (fun _ => True) (TickActs input start) (autoTriggerEntry input input.nowMs start) := by
  unfold autoTriggerEntry
  dsimp only
  refine (emitForcedFirstEntry_guarded input { start with autoTriggerBuyAtMs := none }
    input.nowMs).bind fun result hresult => ?_
  cases result with
  | emit after decisions quantity level canceledStale =>
      have hafter : after.avgEntryPrice = none := (EntryGuards.basis hresult).trans hflat
      exact EntryGuards.acts none hresult ⟨rfl, rfl⟩ (fun _ => unasked)
        ⟨nofun, fun _ => hforce, fun _ _ => hloss, by simp [hafter]⟩ rfl rfl rfl rfl rfl
  | wait => exact rests_quiet _ _ _ ⟨rfl, rfl⟩
  | skip reason context => exact rests_quiet _ _ _ ⟨rfl, rfl⟩

theorem autoTriggerBuyBranch_acts :
    Meets (fun s => s.state = start ∧ input.bundle.override = none)
      (autoTriggerBuyBranch input (buildScalars input))
      (fun s => s.state = start ∧ input.bundle.override = none) (TickActs input start) := by
  rintro s ⟨rfl, unasked⟩
  unfold autoTriggerBuyBranch
  dsimp only [buildScalars]
  split
  · exact ⟨rfl, unasked⟩
  · split
    · exact rests_quiet _ _ _ ⟨rfl, rfl⟩
    · next hforce =>
        split
        · exact rests_quiet _ _ _ ⟨rfl, rfl⟩
        · next hloss =>
            split
            · exact rests_quiet _ _ _ ⟨rfl, rfl⟩
            · split
              · split
                · exact rests_quiet _ _ _ ⟨rfl, rfl⟩
                · exact ⟨rfl, unasked⟩
              · split
                · exact rests_quiet _ _ _ ⟨rfl, rfl⟩
                · split
                  · exact rests_quiet _ _ _ ⟨rfl, rfl⟩
                  · next hheld =>
                      exact (autoTriggerEntry_acts unasked (by simpa using hheld)
                        (by simpa using hforce) (by simpa using hloss)).bind fun _ h => h

theorem disabledGateBranch_acts :
    Meets (fun s => s.state = start ∧ input.bundle.override = none) disabledGateBranch
      (fun s => Leads start s.state ∧ input.bundle.override = none) (TickActs input start) := by
  rintro s ⟨rfl, unasked⟩
  unfold disabledGateBranch
  split
  · exact rests_quiet _ _ _ ⟨rfl, rfl⟩
  · exact ⟨Leads.refl _, unasked⟩

theorem lbpClearBranch_acts :
    Meets (fun s => Leads start s.state ∧ input.bundle.override = none) (lbpClearBranch input)
      (fun s => Leads start s.state ∧ input.bundle.override = none) (TickActs input start) := by
  rintro s ⟨leads, unasked⟩
  have hspec := maybeClearAvgEntryPrice_spec input s.state
  unfold lbpClearBranch
  split
  · next after entry hclear =>
      rw [hclear] at hspec
      refine ⟨?_, unasked⟩
      cases hspec with
      | kept _ => exact leads
      | dropped _ => exact ⟨⟨leads.latches.lossExit, leads.latches.forceSell⟩, nofun⟩
  · exact ⟨leads, unasked⟩

/-! ### The end of a tick -/

section Buy

variable {notes : BuyNotes}

theorem evaluateBullPyramid_acts {decisions : List Decision} {entry : LogEntry}
    {nextState : TTState} {addIndex : ℕ}
    (h : evaluateBullPyramid input state = .add decisions entry nextState addIndex) :
    ∃ (quantity : DecimalString) (pyramid : BullPyramid),
      NoOpenBuy input ∧ SizedBuy input (.raw pyramid.maxPurchaseAmount) quantity ∧
        WithinCaps input state quantity ∧
        decisions = [buildPyramidBuyDecision input quantity addIndex] ∧
        KeepsLatches state nextState ∧ nextState.avgEntryPrice = state.avgEntryPrice ∧
        nextState.heldQuantity = state.heldQuantity := by
  unfold evaluateBullPyramid at h
  split at h
  · cases h
  · split at h
    · cases h
    · next pyramid _ =>
        dsimp only at h
        iterate 5 (split at h; · cases h)
        split at h
        · cases h
        · next hopen =>
            split at h
            · cases h
            · next quantity hquantity =>
                split at h
                · cases h
                · next hcapped =>
                    cases h
                    exact ⟨quantity, pyramid, by simpa [NoOpenBuy] using hopen,
                      ⟨_, _, hquantity⟩, hcapped, rfl, ⟨rfl, rfl⟩, rfl, rfl⟩

theorem pyramidStage_acts (unasked : input.bundle.override = none) {s : ChainState}
    (leads : Leads start s.state) :
    Ends (TickActs input start) (fun notes => notes.state = s.state)
      (pyramidStage input (BuyNotes.initial s)) := by
  unfold pyramidStage
  split
  · next h =>
      rw [Bool.and_eq_true] at h
      split
      · next decisions entry nextState addIndex hadd =>
          obtain ⟨quantity, pyramid, hopen, hsized, hcapped, rfl, hlatches, hbasis, hheld⟩ :=
            evaluateBullPyramid_acts hadd
          refine .adds quantity addIndex pyramid unasked hopen ?_ hsized
            (hcapped.congr hbasis hheld) rfl ?_
          · exact hbasis ▸ h.2
          · exact ⟨(leads.latches.trans hlatches).lossExit,
              (leads.latches.trans hlatches).forceSell⟩
      · rfl
      · rfl
  · rfl

/-- The entry a flat profile makes waited for both cooldowns. -/
theorem Leads.cooled {at_ after : TTState} (leads : Leads start at_)
    (hbasis : after.avgEntryPrice = at_.avgEntryPrice)
    (hforce : (entryCooldowns input input.nowMs at_).forceSell = false)
    (hloss : (entryCooldowns input input.nowMs at_).loss = false)
    (hclimbs : after.avgEntryPrice.isSome = true → Climbs input start) :
    Cooled input start none after where
  override := nofun
  forceSell := by
    intro hor
    have hflat : at_.avgEntryPrice = none := hbasis ▸ hor.resolve_left (by simp)
    simp only [entryCooldowns, hflat, Option.isNone_none, Bool.true_and] at hforce
    unfold forceSellCooldownActive at hforce ⊢
    rwa [leads.latches.forceSell] at hforce
  loss := by
    intro _ hflat
    have hflat : at_.avgEntryPrice = none := hbasis ▸ hflat
    simp only [entryCooldowns, hflat, Option.isNone_none, Bool.true_and] at hloss
    unfold lossExitCooldownActive at hloss ⊢
    rwa [leads.latches.lossExit] at hloss
  climbs := fun _ => hclimbs

/-- A stage of the buy side ends the tick with a guarded buy, or goes on with the latches kept. -/
abbrev BuyStageActs (input : TTInput) (start : TTState) (stage : BuyStage) : Prop :=
  Ends (fun _ => True)
    (Ends (TickActs input start) fun notes => KeepsLatches start notes.state) stage

theorem gridStage_acts (unasked : input.bundle.override = none) (leads : Leads start notes.state)
    (hforce : (entryCooldowns input input.nowMs notes.state).forceSell = false)
    (hloss : (entryCooldowns input input.nowMs notes.state).loss = false) :
    BuyStageActs input start (gridStage input input.nowMs notes) := by
  have haligned := alignGridIndex_state input notes
  have hlatches : KeepsLatches start (alignGridIndex input notes).state := by
    rw [haligned]
    exact ⟨leads.latches.lossExit, leads.latches.forceSell⟩
  have hbasis : (alignGridIndex input notes).state.avgEntryPrice = notes.state.avgEntryPrice := by
    rw [haligned]
  unfold gridStage
  dsimp only
  have hguarded :=
    evaluateGridBuy_guarded input (alignGridIndex input notes).state input.nowMs false
  cases hgrid : evaluateGridBuy input (alignGridIndex input notes).state input.nowMs false with
  | error message => trivial
  | ok result =>
      have hresult := hguarded.returned hgrid
      cases result with
      | emit after decisions entry level =>
          have hafter : after.avgEntryPrice = notes.state.avgEntryPrice :=
            (EntryGuards.basis hresult).trans hbasis
          have hbuys : LadderBuys input notes.state := by
            unfold LadderBuys
            rw [← haligned, hgrid]
            rfl
          have hclimbs (hheld : after.avgEntryPrice.isSome = true) : Climbs input start := by
            have hkeeps := leads.keeps (hafter ▸ hheld)
            exact ⟨hkeeps.avgEntryPrice ▸ hafter ▸ hheld, (LadderBuys.congr hkeeps).mp hbuys⟩
          exact EntryGuards.acts none hresult hlatches (fun _ => unasked)
            (leads.cooled hafter hforce hloss hclimbs) rfl rfl rfl rfl rfl
      | _ => exact hlatches

theorem firstBuyStage_acts (unasked : input.bundle.override = none)
    (leads : Leads start notes.state) (flat : notes.state.avgEntryPrice = none)
    (noOpenBuy : NoOpenBuy input)
    (hforce : (entryCooldowns input input.nowMs notes.state).forceSell = false)
    (hloss : (entryCooldowns input input.nowMs notes.state).loss = false) :
    BuyStageActs input start (firstBuyStage input input.nowMs notes) := by
  unfold firstBuyStage
  dsimp only
  split
  · exact leads.latches
  · generalize (if notes.state.entryConfirmCount + 1 < input.config.technicals.entryConfirmReads
      then _ else _) = count
    split
    · exact leads.latches
    · refine Ends.bind (Q := fun _ => True) ?_ fun veto _ => ?_
      · cases indicatorGates input <;> trivial
      · split
        · exact leads.latches
        · unfold firstBuyEmit
          dsimp only
          refine Ends.bind
            (Q := fun exposure => regimeExposure input.config input.market = .ok exposure)
            ?_ fun exposure hexposure => ?_
          · cases regimeExposure input.config input.market <;> trivial
          · split
            · next quantity hsized =>
                have guards : EntryGuards input notes.state notes.state
                    [buildFirstBuyDecision input quantity] := by
                  cases hbudget : resolveEntryBudget input.config input.account
                      input.market.symbolInfo.quoteAsset with
                  | error skip =>
                      rw [hbudget] at hsized
                      cases hsized
                  | ok budget =>
                      rw [hbudget] at hsized
                      exact .single quantity noOpenBuy ⟨budget, _, hbudget,
                        .inr ⟨exposure, hexposure, rfl⟩, _, _, hsized⟩ rfl (KeepsLatches.refl _) rfl
                exact guards.acts none leads.latches (fun _ => unasked)
                  (leads.cooled rfl hforce hloss (by simp [flat])) rfl rfl rfl rfl rfl
            · exact leads.latches

theorem buyStage_acts (unasked : input.bundle.override = none) (leads : Leads start notes.state)
    (block : Option RegimeBlock) :
    BuyStageActs input start (buyStage input (buildScalars input) block
      (entryCooldowns input input.nowMs notes.state) notes) := by
  unfold buyStage
  split
  · exact leads.latches
  · next hopen =>
      simp only [Bool.or_eq_true, not_or, Bool.not_eq_true] at hopen
      split
      · exact gridStage_acts unasked leads hopen.1.1.2 hopen.1.2
      · split
        · next hflat =>
            rw [Bool.and_eq_true] at hflat
            exact firstBuyStage_acts unasked leads (by simpa using hflat.1)
              (by simpa [NoOpenBuy, buildScalars] using hflat.2) hopen.1.1.2 hopen.1.2
        · exact leads.latches

/-- A report places nothing. -/
theorem buyReport_acts (at_ : TTState) (block : Option RegimeBlock) (cooldowns : Cooldowns)
    (latches : KeepsLatches start notes.state) :
    TickActs input start (buyReport input input.nowMs block cooldowns
      (entryTimeoutCancels input at_ block) notes) := by
  refine .rests ?_ ?_
  · intro d hd
    rcases mem_report hd with ⟨o, -, why, -, rfl⟩ | rfl
    · rfl
    · rfl
  · unfold buyReport actingOutput
    dsimp only
    split
    · exact ⟨latches.lossExit, latches.forceSell⟩
    · exact ⟨latches.lossExit, latches.forceSell⟩

theorem buyAndSnapshotBranch_acts :
    Meets (fun s => Leads start s.state ∧ input.bundle.override = none)
      (buyAndSnapshotBranch input (buildScalars input)) (fun _ => False)
      (TickActs input start) := by
  rintro s ⟨leads, unasked⟩
  unfold buyAndSnapshotBranch
  dsimp only [buildScalars]
  generalize regimeEntryBlock input input.nowMs s.state = blocked
  obtain ⟨block, rearmLog⟩ := blocked
  have hpyramid := pyramidStage_acts (s := { s with
    preambleLogs := s.preambleLogs ++ rearmLog.toList }) unasked leads
  dsimp only
  split
  · next output houtput => exact hpyramid.raised houtput
  · next notes hnotes =>
      have hstate : notes.state = s.state := hpyramid.returned hnotes
      have hbuy := buyStage_acts unasked (hstate ▸ leads) block
      rw [hstate] at hbuy
      refine hbuy.bind fun result hresult => ?_
      cases result with
      | error output => exact hresult
      | ok after => exact buyReport_acts s.state block _ hresult

end Buy

theorem applyDisabledClearBranch_acts (state : TTState) :
    Meets (fun s => s.state = state) (applyDisabledClearBranch (buildScalars input))
      (fun s => s.state = liftPause input.nowMs state)
      (TickActs input (liftPause input.nowMs state)) := by
  rintro s rfl
  unfold applyDisabledClearBranch liftPause
  split
  · next h => rw [if_pos (by exact h)]; rfl
  · next h => rw [if_neg (by exact h)]; rfl

theorem computeTick_acts (rawInput : TTInput) :
    Ends (fun _ => True) (TickActs (normalizedInput rawInput) (startState rawInput))
      (computeTick rawInput) := by
  have hchain : RunMeets fellThrough (fun s => s.state = (normalizedInput rawInput).state)
      (branches (normalizedInput rawInput) (buildScalars (normalizedInput rawInput)))
      (TickActs (normalizedInput rawInput) (startState rawInput)) :=
    .cons (applyDisabledClearBranch_acts _) <|
    .cons overrideBranch_acts <|
    .cons autoTriggerBuyBranch_acts <|
    .cons disabledGateBranch_acts <|
    .cons lbpClearBranch_acts <|
    .cons sellGateBranch_acts <|
    .cons buyAndSnapshotBranch_acts <|
    .nil _ _ _
  exact hchain ⟨(normalizedInput rawInput).state, []⟩ rfl

theorem keepsLatches_startState (rawInput : TTInput) :
    KeepsLatches rawInput.state (startState rawInput) := by
  unfold startState liftPause
  split
  · exact ⟨rfl, rfl⟩
  · exact ⟨rfl, rfl⟩

end TradingBot.TrailingTrade
