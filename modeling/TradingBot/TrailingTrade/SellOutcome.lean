import TradingBot.TrailingTrade.Tick

/-!
# What the sell side of a tick can do

One specification for the ladder and one for each stage of the sell gate: a
sell that goes out was sized from the position it closes and, if it is the
stop-loss, the price had reached the stop; everything else keeps the position
and at most raises its high.
-/

namespace TradingBot.TrailingTrade

open Decimal EarlyExit BranchChain

variable {input : TTInput} {state : TTState} {scalars : TickScalars}

/-! ### Keeping a position -/

/-- The position is the one it was; a high or a break-even arm may only change while it is held. -/
structure KeepsPosition (before after : TTState) : Prop where
  schemaVersion : after.schemaVersion = before.schemaVersion
  avgEntryPrice : after.avgEntryPrice = before.avgEntryPrice
  heldQuantity : after.heldQuantity = before.heldQuantity
  currentGridTradeIndex : after.currentGridTradeIndex = before.currentGridTradeIndex
  bullAddCount : after.bullAddCount = before.bullAddCount
  lastBullAddPrice : after.lastBullAddPrice = before.lastBullAddPrice
  discoveryEntry : after.discoveryEntry = before.discoveryEntry
  entryAtMs : after.entryAtMs = before.entryAtMs
  flatHigh : before.avgEntryPrice = none → after.highSinceBuy = before.highSinceBuy
  flatArm : before.avgEntryPrice = none → after.breakEvenArmed = before.breakEvenArmed

theorem KeepsPosition.refl (state : TTState) : KeepsPosition state state :=
  ⟨rfl, rfl, rfl, rfl, rfl, rfl, rfl, rfl, fun _ => rfl, fun _ => rfl⟩

theorem KeepsPosition.trans {a b c : TTState} (hab : KeepsPosition a b) (hbc : KeepsPosition b c) :
    KeepsPosition a c where
  schemaVersion := hbc.schemaVersion.trans hab.schemaVersion
  avgEntryPrice := hbc.avgEntryPrice.trans hab.avgEntryPrice
  heldQuantity := hbc.heldQuantity.trans hab.heldQuantity
  currentGridTradeIndex := hbc.currentGridTradeIndex.trans hab.currentGridTradeIndex
  bullAddCount := hbc.bullAddCount.trans hab.bullAddCount
  lastBullAddPrice := hbc.lastBullAddPrice.trans hab.lastBullAddPrice
  discoveryEntry := hbc.discoveryEntry.trans hab.discoveryEntry
  entryAtMs := hbc.entryAtMs.trans hab.entryAtMs
  flatHigh := fun h => (hbc.flatHigh (hab.avgEntryPrice.trans h)).trans (hab.flatHigh h)
  flatArm := fun h => (hbc.flatArm (hab.avgEntryPrice.trans h)).trans (hab.flatArm h)

/-- Two states that agree on the position. -/
theorem KeepsPosition.of_eq {before after : TTState}
    (h : after = { before with
      disabledUntilMs := after.disabledUntilMs
      autoTriggerBuyAtMs := after.autoTriggerBuyAtMs
      forceSellFirstSeenAtMs := after.forceSellFirstSeenAtMs
      forceSellCooldownUntilMs := after.forceSellCooldownUntilMs
      lastLossExitAt := after.lastLossExitAt
      lastLossExitReason := after.lastLossExitReason
      entryConfirmCount := after.entryConfirmCount
      entryBlocker := after.entryBlocker
      protectiveStopBlocker := after.protectiveStopBlocker
      exitBlocker := after.exitBlocker }) :
    KeepsPosition before after := by
  rw [h]
  exact ⟨rfl, rfl, rfl, rfl, rfl, rfl, rfl, rfl, fun _ => rfl, fun _ => rfl⟩

/-- A position with no cost basis carries nothing over to the next one. -/
structure FlatClean (state : TTState) : Prop where
  avgEntryPrice : state.avgEntryPrice = none
  highSinceBuy : state.highSinceBuy = none
  breakEvenArmed : state.breakEvenArmed = false
  bullAddCount : state.bullAddCount = none
  lastBullAddPrice : state.lastBullAddPrice = none
  discoveryEntry : state.discoveryEntry = false
  entryAtMs : state.entryAtMs = none

/-! ### The ladder -/

/-- The price has reached the stop-loss level of the position. -/
structure StopFires (input : TTInput) (state : TTState) (lbp price stopLoss : Decimal) : Prop where
  lbp_eq : safeDecimal state.avgEntryPrice = some lbp
  price_eq : parse input.market.currentPrice = some price
  stopLoss_eq : parse input.config.sell.stopLossPercentage = some stopLoss
  lbp_pos : lbp.lte (num 0) = false
  stopLoss_pos : stopLoss.gt (num 0) = true
  stopLoss_le : stopLoss.lte (num 1) = true
  reached :
    price.lte (resolveTTStopLevel lbp stopLoss input.config.sell.protectiveStop
      (marketBand input.market)).stop = true

/-- The emission is a sized sell of the position, and a stop-loss only where the stop fires. -/
structure SellsPosition (input : TTInput) (state : TTState) (emission : SellEmission)
    (reason : SellEmissionReason) : Prop where
  sized : ∃ quantity seed,
    computeSellQuantity (sellableBase input state) input.market.currentPrice
      input.market.symbolInfo.filters = .ok quantity ∧
    emission.decision = buildSellDecision input reason.text quantity seed
  stopLoss : reason = .gridStopLoss → ∃ lbp price stopLoss, StopFires input state lbp price stopLoss

theorem sellEmissionOrSkip_decision {reason : SellEmissionReason} {messagePrefix seed : String}
    {extraLog : Detail} {emission : SellEmission}
    (h : sellEmissionOrSkip input state reason messagePrefix seed extraLog = .ok emission) :
    ∃ quantity seed,
      computeSellQuantity (sellableBase input state) input.market.currentPrice
        input.market.symbolInfo.filters = .ok quantity ∧
      emission.decision = buildSellDecision input reason.text quantity seed := by
  unfold sellEmissionOrSkip at h
  dsimp only at h
  split at h
  · next quantity hquantity =>
      obtain rfl := Except.ok.inj h
      exact ⟨quantity, seed, hquantity, rfl⟩
  · cases h

/-- What a rung may stop the ladder with. -/
def LadderResult.Lawful (input : TTInput) (state : TTState) : LadderResult → Prop
  | .emit emission => ∃ reason, SellsPosition input state emission reason
  | .bumpHigh raised =>
      raised =
        { state with highSinceBuy := raised.highSinceBuy, breakEvenArmed := raised.breakEvenArmed }
  | _ => True

/-- The exits of the ladder; the signal-driven sell and the
exit to cash have stages of their own. -/
def SellEmissionReason.onLadder : SellEmissionReason → Bool
  | technicalsForceSell => false
  | regimeExit => false
  | _ => true

/-- A property that every result the ladder can stop with has. -/
structure LadderClosed (input : TTInput) (state : TTState) (P : LadderResult → Prop) : Prop where
  exit : ∀ (reason : SellEmissionReason) (messagePrefix seed : String) (extraLog : Detail),
    reason.onLadder = true →
    (reason = .gridStopLoss → ∃ lbp price stopLoss, StopFires input state lbp price stopLoss) →
      P (.ofEmission (sellEmissionOrSkip input state reason messagePrefix seed extraLog))
  raise : ∀ raised : TTState,
    raised = { state with
      highSinceBuy := raised.highSinceBuy, breakEvenArmed := raised.breakEvenArmed } →
      P (.bumpHigh raised)
  skip : ∀ (entry : LogEntry) (skipReason : Option SellSkipReason) (field : Option String),
    P (.skip entry skipReason field)
  noop : P .noop

theorem lawful_closed (input : TTInput) (state : TTState) :
    LadderClosed input state (LadderResult.Lawful input state) where
  exit reason messagePrefix seed extraLog _ hstop := by
    cases h : sellEmissionOrSkip input state reason messagePrefix seed extraLog with
    | ok emission => exact ⟨reason, sellEmissionOrSkip_decision h, hstop⟩
    | error refused => trivial
  raise _ hraised := hraised
  skip _ _ _ := trivial
  noop := trivial

/-- A rung stops the ladder only with a result of which `P` holds. -/
abbrev RungStops (P : LadderResult → Prop) (rung : Rung) : Prop :=
  Ends (fun stopped => P stopped.1) (fun _ => True) rung

namespace LadderContext

variable {ctx : LadderContext} {P : LadderResult → Prop}

theorem parseFieldOrSkip_ends (closed : LadderClosed ctx.input ctx.state P)
    (value field : String) (cand : ExitCandidates) :
    Ends (fun stopped => P stopped.1) (fun d => parse value = some d)
      (parseFieldOrSkip value field cand) := by
  unfold parseFieldOrSkip
  split
  · next d hd => exact hd
  · exact closed.skip _ _ _

theorem exit_stops (closed : LadderClosed ctx.input ctx.state P) {reason : SellEmissionReason}
    (hladder : reason.onLadder = true) (hreason : reason ≠ .gridStopLoss)
    (messagePrefix seed : String) (extraLog : Detail) (cand : ExitCandidates) :
    RungStops P (ctx.exit reason messagePrefix seed extraLog cand) :=
  closed.exit reason messagePrefix seed extraLog hladder fun h => absurd h hreason

theorem bumpHigh_stops (closed : LadderClosed ctx.input ctx.state P) (high : Decimal)
    (cand : ExitCandidates) : RungStops P (ctx.bumpHigh high cand) :=
  closed.raise _ rfl

/-- The context was built from the tick it is about. -/
structure OfTick (ctx : LadderContext) : Prop where
  lbp_eq : safeDecimal ctx.state.avgEntryPrice = some ctx.lbp
  price_eq : parse ctx.input.market.currentPrice = some ctx.price
  lbp_pos : ctx.lbp.lte (num 0) = false

theorem stopLossRung_stops (closed : LadderClosed ctx.input ctx.state P) (hctx : ctx.OfTick)
    (cand : ExitCandidates) : RungStops P (ctx.stopLossRung cand) := by
  unfold stopLossRung
  split
  · trivial
  · refine (parseFieldOrSkip_ends closed _ _ cand).bind fun stopLoss hstopLoss => ?_
    split
    · next hrange =>
        rw [Bool.and_eq_true] at hrange
        split
        · next hreached =>
            refine closed.exit _ _ _ _ rfl fun _ => ⟨ctx.lbp, ctx.price, stopLoss, ?_⟩
            exact ⟨hctx.lbp_eq, hctx.price_eq, hstopLoss, hctx.lbp_pos, hrange.1,
              hrange.2, hreached⟩
        · trivial
    · trivial

theorem breakEvenRung_stops (closed : LadderClosed ctx.input ctx.state P) (cand : ExitCandidates) :
    RungStops P (ctx.breakEvenRung cand) := by
  unfold breakEvenRung
  split
  · trivial
  · next breakEven _ =>
      split
      · trivial
      · refine (parseFieldOrSkip_ends closed _ _ cand).bind fun floor _ => ?_
        dsimp only
        split
        · unfold breakEvenArmedRung
          split
          · split
            · exact exit_stops closed rfl (by decide) _ _ _ _
            · trivial
          · trivial
        · unfold breakEvenArmRung
          refine (parseFieldOrSkip_ends closed _ _ _).bind fun armAt _ => ?_
          split
          · dsimp only
            split
            · exact closed.raise _ rfl
            · trivial
          · trivial

theorem fromEntryRung_stops (closed : LadderClosed ctx.input ctx.state P) (cand : ExitCandidates) :
    RungStops P (ctx.fromEntryRung cand) := by
  unfold fromEntryRung
  split
  · trivial
  · split
    · exact bumpHigh_stops closed _ cand
    · split
      · trivial
      · split
        · exact bumpHigh_stops closed _ cand
        · trivial

theorem triggerRung_stops (closed : LadderClosed ctx.input ctx.state P) (cand : ExitCandidates) :
    RungStops P (ctx.triggerRung cand) := by
  unfold triggerRung
  split
  · trivial
  · refine (parseFieldOrSkip_ends closed _ _ cand).bind fun trigger _ => ?_
    dsimp only
    split
    · split
      · exact bumpHigh_stops closed _ _
      · split
        · exact bumpHigh_stops closed _ _
        · trivial
    · trivial

theorem atrTrailRung_stops (closed : LadderClosed ctx.input ctx.state P) (cand : ExitCandidates) :
    RungStops P (ctx.atrTrailRung cand) := by
  unfold atrTrailRung
  dsimp only
  split
  · trivial
  · split
    · trivial
    · split
      · split
        · exact closed.skip _ _ _
        · split
          · trivial
          · split
            · exact exit_stops closed rfl (by decide) _ _ _ _
            · exact closed.noop
      · trivial

theorem fixedTrailRung_stops (closed : LadderClosed ctx.input ctx.state P) (cand : ExitCandidates) :
    RungStops P (ctx.fixedTrailRung cand) := by
  unfold fixedTrailRung
  split
  · trivial
  · split
    · trivial
    · split
      · exact closed.skip _ _ _
      · refine (parseFieldOrSkip_ends closed _ _ cand).bind fun trailing _ => ?_
        split
        · dsimp only
          split
          · exact exit_stops closed rfl (by decide) _ _ _ _
          · trivial
        · trivial

theorem timeStopRung_stops (closed : LadderClosed ctx.input ctx.state P)
    {reason : SellEmissionReason} (hladder : reason.onLadder = true)
    (hreason : reason ≠ .gridStopLoss) (applies : Bool) (bars : ℕ) (messagePrefix : String)
    (cand : ExitCandidates) :
    RungStops P (ctx.timeStopRung applies bars reason messagePrefix cand) := by
  unfold timeStopRung
  split
  · trivial
  · split
    · trivial
    · dsimp only
      split
      · exact exit_stops closed hladder hreason _ _ _ _
      · trivial

theorem lowerRungs_stops (closed : LadderClosed ctx.input ctx.state P) (cand : ExitCandidates) :
    RungStops P (ctx.lowerRungs cand) := by
  refine (breakEvenRung_stops closed cand).bind fun cand _ => ?_
  refine (fromEntryRung_stops closed cand).bind fun cand _ => ?_
  refine (triggerRung_stops closed cand).bind fun cand _ => ?_
  refine (atrTrailRung_stops closed cand).bind fun cand _ => ?_
  refine (fixedTrailRung_stops closed cand).bind fun cand _ => ?_
  refine (timeStopRung_stops closed rfl (by decide) _ _ _ cand).bind fun cand _ => ?_
  exact timeStopRung_stops closed rfl (by decide) _ _ _ cand

theorem rungs_stop (hctx : ctx.OfTick) (closed : LadderClosed ctx.input ctx.state P)
    (cand : ExitCandidates) :
    RungStops P (do ctx.lowerRungs (← ctx.stopLossRung cand)) :=
  (stopLossRung_stops closed hctx cand).bind fun noted _ => lowerRungs_stops closed noted

end LadderContext

theorem runSellLadder_stops {P : LadderResult → Prop} (closed : LadderClosed input state P)
    (cand : ExitCandidates) : P (runSellLadder input state cand).1 := by
  unfold runSellLadder
  dsimp only
  split
  · exact closed.noop
  · next lbpStr hlbpStr =>
      split
      · exact closed.skip _ _ _
      · exact closed.skip _ _ _
      · next lbp price hlbp hprice =>
          split
          · exact closed.noop
          · next hpos =>
              rw [Bool.or_eq_true, not_or] at hpos
              have hctx : LadderContext.OfTick
                  { input, state, lbpStr, lbp, price
                    ratchetPrice :=
                      (latestClosedClose input.market input.config.candleInterval).getD price } :=
                { lbp_eq := by rw [hlbpStr]; exact hlbp
                  price_eq := hprice
                  lbp_pos := by simpa using hpos.1 }
              have hrungs := LadderContext.rungs_stop hctx closed cand
              split
              · next stopped hstopped => exact hrungs.raised hstopped
              · exact closed.noop

/-- The gate emits, raises the high or leaves the state, and only as the ladder lawfully does. -/
theorem evaluateSellGate_lawful (input : TTInput) (state : TTState) :
    match evaluateSellGate input state with
    | .emit emission => ∃ reason, SellsPosition input state emission reason
    | .bumpHigh raised _ => LadderResult.Lawful input state (.bumpHigh raised)
    | _ => True := by
  have h := runSellLadder_stops (lawful_closed input state) noExitCandidates
  unfold evaluateSellGate
  cases hladder : runSellLadder input state noExitCandidates with
  | mk result cand =>
      rw [hladder] at h
      cases result with
      | emit emission => exact h
      | bumpHigh raised => exact h
      | skip log skipReason field => trivial
      | noop => trivial

/-! ### The sell gate -/

theorem sellableBase_of_keeps {before after : TTState} (h : KeepsPosition before after) :
    sellableBase input after = sellableBase input before := by
  rw [sellableBase, sellableBase, resolveHeldForSell, resolveHeldForSell, h.heldQuantity]

theorem SellsPosition.of_keeps {before after : TTState} (h : KeepsPosition before after)
    {emission : SellEmission} {reason : SellEmissionReason}
    (hsells : SellsPosition input after emission reason) :
    SellsPosition input before emission reason where
  sized := by
    rw [← sellableBase_of_keeps h]
    exact hsells.sized
  stopLoss := by
    intro hreason
    obtain ⟨lbp, price, stopLoss, hfires⟩ := hsells.stopLoss hreason
    exact ⟨lbp, price, stopLoss, { hfires with lbp_eq := h.avgEntryPrice ▸ hfires.lbp_eq }⟩

/-- How the sell gate ends a tick. -/
inductive SellTerminal (input : TTInput) (state : TTState) (output : TTOutput) : Prop where
  /-- A sized sell closes the position and leaves nothing of it. -/
  | sold (emission : SellEmission) (reason : SellEmissionReason)
      (held : state.avgEntryPrice.isSome = true)
      (sells : SellsPosition input state emission reason)
      (decisions : output.decisions = closingSellDecisions input emission.decision)
      (flat : FlatClean output.nextState)
      (index : output.nextState.currentGridTradeIndex = none)
      (schemaVersion : output.nextState.schemaVersion = state.schemaVersion)
      (heldQuantity : output.nextState.heldQuantity = state.heldQuantity)
  /-- A confirmed sell signal could not be sized. -/
  | refused (held : state.avgEntryPrice.isSome = true)
      (keeps : KeepsPosition state output.nextState)
      (decisions : output.decisions = [tickSnapshot input])
  /-- The exchange-side stop had to move. -/
  | armed (at_ : TTState) (held : state.avgEntryPrice.isSome = true)
      (keeps : KeepsPosition state at_)
      (next : KeepsPosition state output.nextState)
      (decisions : output.decisions = (evaluateProtectiveStop input at_).decisions)

theorem SellTerminal.of_keeps {before after : TTState} {output : TTOutput}
    (h : KeepsPosition before after) (hterminal : SellTerminal input after output) :
    SellTerminal input before output := by
  cases hterminal with
  | sold emission reason held sells decisions flat index schemaVersion heldQuantity =>
      exact .sold emission reason (h.avgEntryPrice ▸ held) (sells.of_keeps h) decisions flat index
        (schemaVersion.trans h.schemaVersion) (heldQuantity.trans h.heldQuantity)
  | refused held keeps decisions =>
      exact .refused (h.avgEntryPrice ▸ held) (h.trans keeps) decisions
  | armed at_ held keeps next decisions =>
      exact .armed at_ (h.avgEntryPrice ▸ held) (h.trans keeps) (h.trans next) decisions

/-- The loss memory touches nothing else. -/
theorem lossExitStamp_eq (reason currentPrice : String) (avg : Option DecimalString) (now : ℤ)
    (state : TTState) :
    ∃ at_ why, lossExitStamp reason currentPrice avg now state =
      { state with lastLossExitAt := at_, lastLossExitReason := why } := by
  unfold lossExitStamp
  split
  · split
    · exact ⟨_, _, rfl⟩
    · exact ⟨_, _, rfl⟩
  · exact ⟨_, _, rfl⟩

theorem ladderLossStamp_eq (input : TTInput) (now : ℤ) (metricName : String)
    (avg : Option DecimalString) (state : TTState) :
    ∃ at_ why, ladderLossStamp input now metricName avg state =
      { state with lastLossExitAt := at_, lastLossExitReason := why } := by
  unfold ladderLossStamp
  split
  · exact lossExitStamp_eq _ _ _ _ _
  · split
    · exact ⟨_, _, rfl⟩
    · exact ⟨_, _, rfl⟩

/-- A stage ends the tick as the sell gate may, or goes on with the position kept. -/
abbrev StageKeeps {α : Type} (input : TTInput) (state : TTState) (next : α → TTState)
    (stage : Except TTOutput α) : Prop :=
  Ends (SellTerminal input state) (fun a => KeepsPosition state (next a)) stage

theorem noteTriggerParse_state (input : TTInput) (s : ChainState) :
    (noteTriggerParse input s).state = s.state := by
  unfold noteTriggerParse
  split
  · rfl
  · rfl

theorem keeps_markFirstSeen (state : TTState) (confirmMs now : ℤ) :
    KeepsPosition state (markFirstSeen state confirmMs now) := by
  unfold markFirstSeen
  split
  · exact .of_eq rfl
  · exact KeepsPosition.refl _

theorem SellTerminal.of_cleared {output : TTOutput} {emission : SellEmission}
    {reason : SellEmissionReason} (rearm at_ cooldown : Option ℤ) (why : Option String)
    (held : state.avgEntryPrice.isSome = true)
    (sells : SellsPosition input state emission reason)
    (hdecisions : output.decisions = closingSellDecisions input emission.decision)
    (hnext : output.nextState =
      { clearedSellPosition state rearm with
        lastLossExitAt := at_, lastLossExitReason := why, forceSellCooldownUntilMs := cooldown
        entryBlocker := none }) :
    SellTerminal input state output := by
  refine .sold emission reason held sells hdecisions ?_ ?_ ?_ ?_ <;> rw [hnext]
  · exact ⟨rfl, rfl, rfl, rfl, rfl, rfl, rfl⟩
  · rfl
  · rfl
  · rfl

theorem sellOnSignal_terminal (now : ℤ) (s : ChainState) (signal : TvForceSell) (cooldown : ℤ)
    (held : s.state.avgEntryPrice.isSome = true) :
    SellTerminal input s.state (sellOnSignal input now s signal cooldown) := by
  unfold sellOnSignal
  split
  · next emission hemission =>
      have hsells : SellsPosition input s.state emission .technicalsForceSell :=
        ⟨sellEmissionOrSkip_decision hemission, fun h => by cases h⟩
      obtain ⟨at_, why, hstamp⟩ := lossExitStamp_eq "technicals-force-sell"
        input.market.currentPrice s.state.avgEntryPrice now
        { clearedSellPosition s.state (armAutoTriggerBuy input.config now) with
          forceSellCooldownUntilMs :=
            if cooldown * 60000 > 0 then some (now + cooldown * 60000) else none }
      refine SellTerminal.of_cleared (armAutoTriggerBuy input.config now) at_
        (if cooldown * 60000 > 0 then some (now + cooldown * 60000) else none)
        why held hsells rfl ?_
      dsimp only [forceSellOutput, actingOutput]
      rw [hstamp]
  · exact .refused held (.of_eq rfl) rfl

theorem forceSellStage_keeps (now : ℤ) (s : ChainState)
    (held : s.state.avgEntryPrice.isSome = true) :
    StageKeeps input s.state ChainState.state (forceSellStage input now s) := by
  unfold forceSellStage
  dsimp only
  rw [noteTriggerParse_state]
  split
  · exact .of_eq rfl
  · unfold confirmForceSell
    dsimp only
    rw [noteTriggerParse_state]
    split
    · exact keeps_markFirstSeen _ _ _
    · have hkeeps := keeps_markFirstSeen s.state
        ((resolveForceSellGuards input.config.technicals).confirmMinutes * 60000) now
      have held' : (markFirstSeen s.state
          ((resolveForceSellGuards input.config.technicals).confirmMinutes * 60000)
          now).avgEntryPrice.isSome = true := hkeeps.avgEntryPrice ▸ held
      exact SellTerminal.of_keeps hkeeps
        (sellOnSignal_terminal now ⟨_, (noteTriggerParse input s).preambleLogs⟩ _ _ held')

theorem keeps_of_raised {raised : TTState} (held : state.avgEntryPrice.isSome = true)
    (h : LadderResult.Lawful input state (.bumpHigh raised)) : KeepsPosition state raised := by
  rw [show raised = _ from h]
  refine ⟨rfl, rfl, rfl, rfl, rfl, rfl, rfl, rfl, fun hnone => ?_, fun hnone => ?_⟩ <;>
  · rw [hnone] at held
    cases held

theorem ladderStage_keeps (now : ℤ) (s : ChainState) (held : s.state.avgEntryPrice.isSome = true) :
    StageKeeps input s.state (fun r => r.1.state) (ladderStage input now s) := by
  have hgate := evaluateSellGate_lawful input s.state
  unfold ladderStage
  split
  · next emission hemit =>
      rw [hemit] at hgate
      obtain ⟨reason, hsells⟩ := hgate
      obtain ⟨at_, why, hstamp⟩ := ladderLossStamp_eq input now emission.metricName
        s.state.avgEntryPrice (clearedSellPosition s.state (armAutoTriggerBuy input.config now))
      refine SellTerminal.of_cleared (armAutoTriggerBuy input.config now) at_
        s.state.forceSellCooldownUntilMs why held hsells rfl ?_
      dsimp only [actingOutput]
      rw [hstamp]
      rfl
  · next raised blocker hbump =>
      rw [hbump] at hgate
      exact keeps_of_raised held hgate
  · exact .of_eq rfl
  · exact KeepsPosition.refl _

theorem regimeExitStage_keeps (now : ℤ) (s : ChainState) (blocker : ExitBlocker)
    (held : s.state.avgEntryPrice.isSome = true) :
    StageKeeps input s.state (fun r => r.1.state) (regimeExitStage input now s blocker) := by
  unfold regimeExitStage
  split
  · split
    · next emission hemission =>
        have hsells : SellsPosition input s.state emission .regimeExit :=
          ⟨sellEmissionOrSkip_decision hemission, fun h => by cases h⟩
        obtain ⟨at_, why, hstamp⟩ := lossExitStamp_eq "regime-exit" input.market.currentPrice
          s.state.avgEntryPrice now (clearedSellPosition s.state none)
        refine SellTerminal.of_cleared none at_ s.state.forceSellCooldownUntilMs why held hsells
          rfl ?_
        dsimp only [actingOutput]
        rw [hstamp]
        rfl
    · exact .of_eq rfl
  · exact KeepsPosition.refl _

theorem StageKeeps.of_keeps {α : Type} {before after : TTState} {next : α → TTState}
    {stage : Except TTOutput α} (h : KeepsPosition before after)
    (hstage : StageKeeps input after next stage) : StageKeeps input before next stage :=
  hstage.mono (fun _ => SellTerminal.of_keeps h) fun _ => h.trans

theorem exitStages_keeps (scalars : TickScalars) (s : ChainState) :
    StageKeeps input s.state (fun r => r.1.state) (exitStages input scalars s) := by
  unfold exitStages
  split
  · next h =>
      rw [Bool.and_eq_true, Bool.and_eq_true] at h
      have held := h.1.2
      refine (forceSellStage_keeps _ s held).bind fun s₁ h₁ => ?_
      have held₁ : s₁.state.avgEntryPrice.isSome = true := h₁.avgEntryPrice ▸ held
      refine StageKeeps.of_keeps h₁ ?_
      refine (ladderStage_keeps _ s₁ held₁).bind fun ⟨s₂, blocker⟩ h₂ => ?_
      have held₂ : s₂.state.avgEntryPrice.isSome = true := h₂.avgEntryPrice ▸ held₁
      refine StageKeeps.of_keeps h₂ ?_
      exact (regimeExitStage_keeps _ s₂ blocker held₂).bind fun _ h₃ => h₃
  · exact KeepsPosition.refl _

theorem keeps_exitBlockerStage (input : TTInput) (scalars : TickScalars) (s : ChainState)
    (blocker : Option ExitBlocker) :
    KeepsPosition s.state (exitBlockerStage input scalars s blocker).state := by
  unfold exitBlockerStage
  split
  · exact .of_eq rfl
  · exact .of_eq rfl

theorem protectiveStopStage_keeps (s : ChainState) :
    StageKeeps input s.state ChainState.state (protectiveStopStage input s) := by
  unfold protectiveStopStage
  dsimp only
  split
  · next h =>
      rw [Bool.and_eq_true] at h
      split
      · exact .armed s.state h.2 (KeepsPosition.refl _)
          (.of_eq rfl) rfl
      · split
        · exact .of_eq rfl
        · exact .of_eq rfl
  · exact .of_eq rfl

theorem sellGateBranch_meets (scalars : TickScalars) (s : ChainState) :
    Ends (fun _ => True)
      (Outcome.Holds (fun s' => KeepsPosition s.state s'.state) (SellTerminal input s.state) s)
      (sellGateBranch input scalars s) := by
  have hstages : StageKeeps input s.state ChainState.state
      (exitStages input scalars s >>= fun noted =>
        protectiveStopStage input (exitBlockerStage input scalars noted.1 noted.2)) := by
    refine (exitStages_keeps scalars s).bind fun noted hnoted => ?_
    refine StageKeeps.of_keeps hnoted ?_
    refine StageKeeps.of_keeps (keeps_exitBlockerStage input scalars noted.1 noted.2) ?_
    exact protectiveStopStage_keeps _
  unfold sellGateBranch
  split
  · next output houtput => exact hstages.raised houtput
  · next s' hs' => exact hstages.returned hs'

end TradingBot.TrailingTrade
