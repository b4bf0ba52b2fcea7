import TradingBot.TrailingTrade.Branches

/-!
# The buy side of a tick

The last branch: it cancels what a bear market or a stale maker order should
not leave resting, adds to a winner, enters or promotes the grid or makes the
single first buy, and otherwise reports which veto held the buy back. It always
ends the tick.
-/

namespace TradingBot.TrailingTrade

open Decimal BranchChain

/-! ### Blocks and cancels on a flat profile -/

/-- A regime that keeps a flat profile out, and whether it was the uptrend requirement. -/
structure RegimeBlock where
  context : Detail
  requireUptrend : Bool

/-- Whether the regime blocks the entry of a flat profile, and the line a lifted block logs. -/
def regimeEntryBlock (input : TTInput) (now : ℤ) (state : TTState) :
    Option RegimeBlock × Option LogEntry :=
  if state.avgEntryPrice.isSome then (none, none)
  else
    -- the uptrend requirement, where it is on, replaces the bear block
    match evaluateRegimeEntryRequirement input.market input.config with
    | .block context => (some ⟨context, true⟩, none)
    | .allow _ => (none, none)
    | .disabled =>
        match evaluateRegimeEntryBlock input.market input.config with
        | .bear context =>
            match evaluateRegimeRearm input.bundle.technicals input.config now with
            | .rearmed rearm =>
                (none,
                 some (log .info "tt-regime-rearm"
                   ([("symbol", .text input.market.symbol)] ++ rearm)))
            | .blocked => (some ⟨context, false⟩, none)
        | _ => (none, none)

def cancelBuys (input : TTInput) (orders : List OpenOrder) (reason : String) : List Decision :=
  orders.map fun o => .cancelOrder o.orderId reason (some input.market.symbol)

/-- The cancels of every resting entry a regime block takes off the book. -/
def regimeBlockCancels (input : TTInput) (block : Option RegimeBlock) : List Decision :=
  match block with
  | some _ => cancelBuys input (openBuysFor input) "tt-regime-entry-block"
  | none => []

/-- Whether a resting maker entry has waited its candles out. -/
def timedOut (input : TTInput) (bars : ℕ) (o : OpenOrder) : Bool :=
  o.type == .limit &&
    closedBarsSinceEntry input.market input.config.candleInterval o.transactTimeMs ≥ bars

/-- The cancels of maker entries that did not fill in time. -/
def entryTimeoutCancels (input : TTInput) (state : TTState) (block : Option RegimeBlock) :
    List Decision :=
  let bars := (input.config.execution.bind (·.entryTimeoutBars)).getD 0
  if state.avgEntryPrice.isNone && block.isNone && bars > 0 && input.config.entersAsMaker then
    cancelBuys input ((openBuysFor input).filter (timedOut input bars)) "tt-entry-timeout"
  else []

/-! ### What held a buy back -/

/-- The state the buy side leaves and the vetoes it met. -/
structure BuyNotes where
  state : TTState
  preambleLogs : List LogEntry
  entryConfirmCount : ℕ
  skipReason : Option EntryBlockerReason
  tvVeto : Option (TVVeto × List IntervalConsultation)
  indicatorVeto : Option EntryVeto
  riskCapVeto : Option EntryVeto
  regimeVeto : Option EntryVeto
  guardrailVeto : Option EntryVeto
  chaseGuardVeto : Option Detail
  knifeGuardVeto : Option Detail
  awaitingTrigger : Option Detail
  technicalsConfirming : Option Detail

def BuyNotes.initial (s : ChainState) : BuyNotes where
  state := s.state
  preambleLogs := s.preambleLogs
  entryConfirmCount := s.state.entryConfirmCount
  skipReason := none
  tvVeto := none
  indicatorVeto := none
  riskCapVeto := none
  regimeVeto := none
  guardrailVeto := none
  chaseGuardVeto := none
  knifeGuardVeto := none
  awaitingTrigger := none
  technicalsConfirming := none

/-- The two cooldowns of a flat profile. -/
structure Cooldowns where
  forceSell : Bool
  loss : Bool

def entryCooldowns (input : TTInput) (now : ℤ) (state : TTState) : Cooldowns :=
  { forceSell := state.avgEntryPrice.isNone && forceSellCooldownActive state now
    loss := state.avgEntryPrice.isNone && lossExitCooldownActive state input.config now }

/-- A stage of the buy side: it ends the tick with an output, or goes on with its notes. -/
abbrev BuyStage := Except String (Except TTOutput BuyNotes)

/-! ### Adds to a winner -/

def pyramidStage (input : TTInput) (notes : BuyNotes) : Except TTOutput BuyNotes :=
  if input.config.buy.enabled && notes.state.avgEntryPrice.isSome then
    match evaluateBullPyramid input notes.state with
    | .add decisions entry nextState addIndex =>
        .error (actingOutput { nextState with entryBlocker := none } decisions
          (notes.preambleLogs ++ [entry])
          [metric "tt_bull_pyramid_add"
            [("symbol", input.market.symbol), ("addIndex", toString addIndex)]])
    | .skipCap veto => .ok { notes with riskCapVeto := some veto }
    | .noop => .ok notes
  else .ok notes

/-! ### The grid -/

/-- A held profile without an index holds rung 0; a flat one above rung 0 is an orphan. -/
def alignGridIndex (input : TTInput) (notes : BuyNotes) : BuyNotes :=
  let state := notes.state
  match state.avgEntryPrice, state.currentGridTradeIndex with
  | some _, none => { notes with state := { state with currentGridTradeIndex := some 0 } }
  | none, some (index + 1) =>
      { notes with
        state := { state with currentGridTradeIndex := none }
        preambleLogs := notes.preambleLogs ++
          [log .warn "tt-grid-state-orphan-reset"
            [("symbol", .text input.market.symbol), ("orphanedIndex", .int (index + 1))]] }
  | _, _ => notes

/-- What the ladder's answer adds to the notes, or the tick it ends. -/
def noteGridResult (input : TTInput) (notes : BuyNotes) : GridBuyResult → Except TTOutput BuyNotes
  | .emit state decisions entry level =>
      .error (actingOutput
        { state with
          lastLossExitAt := none
          lastLossExitReason := none
          entryConfirmCount := 0
          entryBlocker := none }
        decisions (notes.preambleLogs ++ [entry])
        [metric "tt_grid_buy_emit" [("symbol", input.market.symbol), ("level", toString level)]])
  | .skipFilter skip => .ok { notes with skipReason := some skip }
  | .skipTv veto consulted => .ok { notes with tvVeto := some (veto, consulted) }
  | .skipIndicator veto => .ok { notes with indicatorVeto := some veto }
  | .skipRiskCap veto => .ok { notes with riskCapVeto := some veto }
  | .skipRegime veto => .ok { notes with regimeVeto := some veto }
  | .skipGuardrail veto => .ok { notes with guardrailVeto := some veto }
  | .skipChaseGuard veto => .ok { notes with chaseGuardVeto := some veto }
  | .skipKnifeGuard veto => .ok { notes with knifeGuardVeto := some veto }
  | .wait awaiting => .ok { notes with awaitingTrigger := awaiting }
  | .noop => .ok notes

def gridStage (input : TTInput) (now : ℤ) (notes : BuyNotes) : BuyStage := do
  let notes := alignGridIndex input notes
  let result ← evaluateGridBuy input notes.state now false
  return noteGridResult input notes result

/-! ### The single first buy -/

def regimeText : Regime → String
  | .bull => "bull"
  | .bear => "bear"
  | .neutral => "neutral"
  | .unavailable => "unavailable"

/-- The budget scaled by the regime's exposure; a full scalar leaves it as it is. -/
def scaledBudget (budget : Decimal) (exposure : RegimeExposure) : DecimalString :=
  if exposure.scalar.eq (num 1) then .printed budget else .printed (budget.mul exposure.scalar)

def firstBuyMetrics (symbol : String) (exposure : RegimeExposure) : List MetricEntry :=
  metric "tt_tick_buy_path" [("symbol", symbol)] ::
    (exposure.regime.map fun regime =>
      metric "tt_regime_exposure" [("symbol", symbol), ("regime", regimeText regime)]).toList

/-- Size and place the first buy of a profile without a ladder. -/
def firstBuyEmit (input : TTInput) (notes : BuyNotes) : BuyStage := do
  let budget := resolveEntryBudget input.config input.account input.market.symbolInfo.quoteAsset
  let exposure ← regimeExposure input.config input.market
  let sized := budget.bind fun budget =>
    computeFirstBuyQuantity (scaledBudget budget exposure) input.market.currentPrice
      input.market.symbolInfo.filters "" (ttEntryStopFloor input.config)
  match sized with
  | .ok quantity =>
      return .error (actingOutput
        { notes.state with
          lastLossExitAt := none
          lastLossExitReason := none
          entryConfirmCount := 0
          entryBlocker := none }
        [buildFirstBuyDecision input quantity] notes.preambleLogs
        (firstBuyMetrics input.market.symbol exposure))
  | .error skip => return .ok { notes with skipReason := some skip }

/-- The first buy behind its gates: technicals, their confirmation reads, then the indicators. -/
def firstBuyStage (input : TTInput) (now : ℤ) (notes : BuyNotes) : BuyStage :=
  let gate := evaluateTechnicalsGate input.bundle.technicals input.config.forceBuyOverride now
  match gate.veto with
  | some veto =>
      .ok (.ok
        { notes with entryConfirmCount := 0, tvVeto := some (veto, gate.intervalsConsulted) })
  | none =>
      let required := input.config.technicals.entryConfirmReads
      let advanced := notes.state.entryConfirmCount + 1
      let count := if advanced < required then advanced else required
      let notes := { notes with entryConfirmCount := count }
      if count < required then
        .ok (.ok { notes with
          technicalsConfirming := some [("reads", .int count), ("required", .int required)] })
      else do
        match ← indicatorGates input with
        | some veto => return .ok { notes with indicatorVeto := some veto }
        | none => firstBuyEmit input notes

/-- The buy path a profile is on: the grid, the single first buy, or none. -/
def buyStage (input : TTInput) (scalars : TickScalars) (block : Option RegimeBlock)
    (cooldowns : Cooldowns) (notes : BuyNotes) : BuyStage :=
  if block.isSome || cooldowns.forceSell || cooldowns.loss || !input.config.buy.enabled then
    .ok (.ok notes)
  else if !input.config.buy.gridLevels.isEmpty then gridStage input scalars.now notes
  else if notes.state.avgEntryPrice.isNone && !scalars.hasOpenBuy then
    firstBuyStage input scalars.now notes
  else .ok (.ok notes)

/-! ### The report -/

def consultationRow (c : IntervalConsultation) : List (String × String) :=
  [("interval", c.interval),
   ("recommendation", (c.recommendation.map TechnicalsRecommendation.text).getD "null"),
   ("verdict", (c.verdict.map fun v => v.reason.text).getD "pass"),
   ("advisory", if c.advisory then "true" else "false")]

/-- The signal behind a technicals veto, as the log and the blocker show it. -/
def vetoSignal (input : TTInput) (veto : TVVeto) : Option TechnicalsSignal :=
  (input.bundle.technicals.signals.find? (·.interval == veto.interval)).bind (·.signal)

def tvVetoLog (input : TTInput) (now : ℤ) (veto : TVVeto) (consulted : List IntervalConsultation) :
    LogEntry :=
  let signalDetail : Detail :=
    match vetoSignal input veto with
    | none => []
    | some signal =>
        [("receivedAtMs", .int signal.receivedAtMs),
         ("recommendation", .text signal.recommendation.text), ("ageMs", .int (signal.ageMs now))]
  log (if veto.reason = .noSignal then .debug else .info) "tt-technicals-gate-veto"
    ([("symbol", .text input.market.symbol), ("reason", .text veto.reason.reason.text),
      ("interval", .text veto.interval),
      ("useOnlyWithinMin", .int input.bundle.technicals.config.useOnlyWithinMin),
      ("ifExpires", .text input.bundle.technicals.config.ifExpires.text),
      ("intervalsConsulted", .rows (consulted.map consultationRow))] ++ signalDetail)

def tvVetoBlocker (input : TTInput) (now : ℤ) (veto : TVVeto) : EntryVeto :=
  { reason := veto.reason.reason
    context :=
      ("interval", .text veto.interval) ::
        match vetoSignal input veto with
        | none => []
        | some signal =>
            [("recommendation", .text signal.recommendation.text),
             ("ageMs", .int (signal.ageMs now))] }

/-- The one log line of a held-back buy: of several, the last in this order is kept. -/
def buyLog (input : TTInput) (now : ℤ) (block : Option RegimeBlock) (cooldowns : Cooldowns)
    (notes : BuyNotes) : Option LogEntry :=
  let symbol : String × DetailValue := ("symbol", .text input.market.symbol)
  let vetoed := fun (level : LogLevel) (message : String) (veto : EntryVeto) =>
    log level message (veto.context ++ [symbol, ("reason", .text veto.reason.text)])
  ([ if cooldowns.forceSell then some (forceSellCooldownBlock input.market.symbol notes.state).log
     else none,
     if cooldowns.loss then some (lossCooldownBlock input.market.symbol notes.state).log else none,
     notes.tvVeto.map fun (veto, consulted) => tvVetoLog input now veto consulted,
     notes.technicalsConfirming.map fun detail =>
       log .info "tt-technicals-confirming" (detail ++ [symbol]),
     notes.indicatorVeto.map fun veto =>
       vetoed (if veto.reason = .indicatorUnavailable then .debug else .info)
         "tt-indicator-gate-veto" veto,
     notes.riskCapVeto.map fun veto => vetoed .info "tt-risk-cap-veto" veto,
     notes.regimeVeto.map fun veto =>
       vetoed (if veto.reason = .regimeUnavailable then .debug else .info)
         "tt-regime-filter-veto" veto,
     block.map fun block =>
       log .info
         (if block.requireUptrend then "tt-regime-require-uptrend-blocked"
         else "tt-regime-exit-entry-blocked")
         (block.context ++ [symbol]),
     notes.guardrailVeto.map fun veto => vetoed .warn "tt-discovery-guardrail-veto" veto,
     notes.chaseGuardVeto.map fun detail =>
       log .info "tt-discovery-chase-guard" (detail ++ [symbol]),
     notes.knifeGuardVeto.map fun detail =>
       log .info "tt-discovery-knife-guard" (detail ++ [symbol])
   ].filterMap id).getLast?

/-- The one metric of a held-back buy, the first in this order. -/
def buyMetric (input : TTInput) (block : Option RegimeBlock) (cooldowns : Cooldowns)
    (notes : BuyNotes) : MetricEntry :=
  let symbol := input.market.symbol
  ([ if cooldowns.forceSell then some (forceSellCooldownBlock symbol notes.state).metric else none,
     if cooldowns.loss then some (lossCooldownBlock symbol notes.state).metric else none,
     notes.guardrailVeto.map fun veto =>
       metric "tt_discovery_guardrail_veto" [("symbol", symbol), ("reason", veto.reason.text)],
     notes.chaseGuardVeto.map fun _ =>
       metric "tt_discovery_chase_guard_veto" [("symbol", symbol)],
     notes.knifeGuardVeto.map fun _ =>
       metric "tt_discovery_knife_guard_veto" [("symbol", symbol)],
     block.map fun _ => metric "tt_regime_exit_entry_block" [("symbol", symbol)],
     notes.regimeVeto.map fun veto =>
       metric "tt_regime_filter_veto" [("symbol", symbol), ("reason", veto.reason.text)],
     notes.riskCapVeto.map fun veto =>
       metric "tt_risk_cap_veto" [("symbol", symbol), ("cap", veto.reason.text)],
     notes.skipReason.map fun reason =>
       metric "tt_first_buy_skipped" [("symbol", symbol), ("reason", reason.text)]
   ].findSome? id).getD (metric "tt_tick_pure_path" [("symbol", symbol)])

def buyBlockerContext (input : TTInput) (now : ℤ) (block : Option RegimeBlock)
    (cooldowns : Cooldowns) (notes : BuyNotes) : EntryBlockerContext where
  forceSellCooled := cooldowns.forceSell
  forceSellDetail :=
    notes.state.forceSellCooldownUntilMs.map fun until_ => [("cooldownUntilMs", .int until_)]
  lossExitCooled := cooldowns.loss
  lossDetail := some [("minutesLeft", .int (lossCooldownMinutesLeft notes.state input.config now))]
  regimeEntryBlock := block.map (·.context)
  regimeRequireUptrend := block.any (·.requireUptrend)
  regimeVeto := notes.regimeVeto
  riskCapVeto := notes.riskCapVeto
  guardrailVeto := notes.guardrailVeto
  chaseGuardVeto := notes.chaseGuardVeto
  knifeGuardVeto := notes.knifeGuardVeto
  tvVeto := notes.tvVeto.map fun (veto, _) => tvVetoBlocker input now veto
  technicalsConfirming := notes.technicalsConfirming
  indicatorVeto := notes.indicatorVeto
  awaitingTrigger := notes.awaitingTrigger
  skipReason := notes.skipReason

/-- The end of a tick that bought nothing: its cancels, the snapshot and the report. -/
def buyReport (input : TTInput) (now : ℤ) (block : Option RegimeBlock) (cooldowns : Cooldowns)
    (timeouts : List Decision) (notes : BuyNotes) : TTOutput :=
  let reported :=
    { notes.state with
      entryConfirmCount := notes.entryConfirmCount
      entryBlocker := resolveEntryBlocker (buyBlockerContext input now block cooldowns notes) }
  actingOutput
    -- the entry that timed out is gone, and its rung with it; its marks stay
    (if timeouts.isEmpty then reported else { reported with currentGridTradeIndex := none })
    (timeouts ++ regimeBlockCancels input block ++ [tickSnapshot input])
    (notes.preambleLogs ++ (buyLog input now block cooldowns notes).toList)
    [buyMetric input block cooldowns notes]

def buyAndSnapshotBranch (input : TTInput) (scalars : TickScalars) : BranchHandler := fun s => do
  let (block, rearmLog) := regimeEntryBlock input scalars.now s.state
  let s := { s with preambleLogs := s.preambleLogs ++ rearmLog.toList }
  let timeouts := entryTimeoutCancels input s.state block
  let cooldowns := entryCooldowns input scalars.now s.state
  match pyramidStage input (BuyNotes.initial s) with
  | .error output => return .terminal output
  | .ok notes =>
      match ← buyStage input scalars block cooldowns notes with
      | .error output => return .terminal output
      | .ok notes => return .terminal (buyReport input scalars.now block cooldowns timeouts notes)

end TradingBot.TrailingTrade
