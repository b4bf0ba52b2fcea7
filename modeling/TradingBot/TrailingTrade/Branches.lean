import TradingBot.Lib.BranchChain
import TradingBot.TrailingTrade.Override

/-!
# The branches of a tick up to the sell gate

A tick is a chain of branches. An expired pause is lifted, an operator override
answers at once, a due automatic entry is made or declined, a paused profile
stops, a position the wallet no longer holds is dropped, and the sell gate runs
and arms the protective stop. The longer branches are cut into the stages of
their source, and a stage that ends the tick does so by raising its output.
-/

namespace TradingBot.TrailingTrade

open Decimal BranchChain

structure TickScalars where
  now : ℤ
  hasOpenBuy : Bool
  hasOpenSell : Bool

def buildScalars (input : TTInput) : TickScalars :=
  { now := input.nowMs
    hasOpenBuy := hasOpenBuyForSymbol input.openOrders input.market.symbol
    hasOpenSell := hasOpenSellForSymbol input.openOrders input.market.symbol input.profile.id }

/-- What the branches hand down: the state so far and the log lines it has earned. -/
structure ChainState where
  state : TTState
  preambleLogs : List LogEntry

abbrev BranchHandler := Branch String ChainState TTOutput

def ChainState.withLog (s : ChainState) (entry : LogEntry) : ChainState :=
  { s with preambleLogs := s.preambleLogs ++ [entry] }

/-- The snapshot event every tick that acts on nothing ends with. -/
def tickSnapshot (input : TTInput) : Decision :=
  .emitEvent "tick-snapshot"
    [("symbol", .text input.market.symbol), ("currentPrice", .text input.market.currentPrice),
     ("tsMs", .int input.nowMs)]

/-- Remember an exit made below the cost basis. -/
def lossExitStamp (reason : String) (currentPrice : String) (avgEntryPrice : Option DecimalString)
    (now : ℤ) (state : TTState) : TTState :=
  match parse currentPrice, safeDecimal avgEntryPrice with
  | some price, some avg =>
      if price.lt avg then
        { state with lastLossExitAt := some now, lastLossExitReason := some reason }
      else state
  | _, _ => state

/-! ### Before the sell gate -/

def applyDisabledClearBranch (scalars : TickScalars) : BranchHandler := fun s =>
  if s.state.disabledUntilMs.any (· ≤ scalars.now) then
    .ok (.mutate { s with state := { s.state with disabledUntilMs := none } })
  else .ok .pass

def overrideBranch (input : TTInput) (scalars : TickScalars) : BranchHandler := fun s =>
  match input.bundle.override with
  | some override => do return .terminal (← handleOverride input s.state scalars.now override)
  | none => .ok .pass

/-- A due automatic entry that is given up. -/
def autoTriggerSkip (state : TTState) (symbol reason : String) (level : LogLevel)
    (context : Detail) : TTOutput :=
  quietOutput { state with autoTriggerBuyAtMs := none, entryBlocker := none }
    [log level "tt-auto-trigger-buy-skipped"
      (context ++ [("symbol", .text symbol), ("reason", .text reason)])]
    [metric "tt_auto_trigger_buy_skipped" [("symbol", symbol), ("reason", reason)]]
    none

/-- The automatic entry itself: it waits, buys, or is given up. -/
def autoTriggerEntry (input : TTInput) (now : ℤ) (state : TTState) : Except String TTOutput := do
  let symbol := input.market.symbol
  let consumed := { state with autoTriggerBuyAtMs := none }
  match ← emitForcedFirstEntry input consumed now with
  | .wait =>
      return quietOutput { state with entryBlocker := none }
        [log .info "tt-auto-trigger-buy-waiting"
          [("symbol", .text symbol), ("reason", .text "awaiting-entry")]]
        [metric "tt_auto_trigger_buy_waiting" [("symbol", symbol)]]
        none
  | .emit entered decisions quantity level canceledStale =>
      return actingOutput
        { entered with
          lastLossExitAt := none
          lastLossExitReason := none
          entryConfirmCount := 0
          entryBlocker := none }
        decisions
        [log .info "tt-auto-trigger-buy"
          ([("symbol", .text symbol)] ++ forcedEntryDetail quantity level canceledStale)]
        [metric "tt_auto_trigger_buy_emit" [("symbol", symbol)]]
  | .skip reason context => return autoTriggerSkip consumed symbol reason .warn context

def autoTriggerDue (state : TTState) (now : ℤ) : Bool := state.autoTriggerBuyAtMs.any (· ≤ now)

def autoTriggerBuyBranch (input : TTInput) (scalars : TickScalars) : BranchHandler := fun s =>
  let state := s.state
  let now := scalars.now
  let symbol := input.market.symbol
  let atb := input.config.buy.autoTriggerBuy
  let held := fun (block : CooldownBlock) =>
    quietOutput { state with entryBlocker := none } [block.log] [block.metric] none
  if !autoTriggerDue state now then .ok .pass
  -- a due timer ends the tick from here on, also on a held position
  else if forceSellCooldownActive state now then
    .ok (.terminal (held (forceSellCooldownBlock symbol state)))
  else if lossExitCooldownActive state input.config now then
    .ok (.terminal (held (lossCooldownBlock symbol state)))
  else if !atb.enabled then
    .ok (.terminal (autoTriggerSkip state symbol "feature-disabled" .info []))
  else if state.disabledUntilMs.isSome then
    if atb.rescheduleWhileDisabled then
      .ok (.terminal (quietOutput
        { state with
          autoTriggerBuyAtMs := armAutoTriggerBuy input.config now
          entryBlocker := none }
        [log .info "tt-auto-trigger-buy-rescheduled" [("symbol", .text symbol)]]
        [metric "tt_auto_trigger_buy_rescheduled" [("symbol", symbol)]]
        none))
    else .ok .pass
  else if !input.config.buy.enabled then
    .ok (.terminal (autoTriggerSkip state symbol "buy-disabled" .info []))
  else if state.avgEntryPrice.isSome then
    .ok (.terminal (autoTriggerSkip state symbol "holding" .info []))
  else do return .terminal (← autoTriggerEntry input now state)

def disabledGateBranch : BranchHandler := fun s =>
  if s.state.disabledUntilMs.isSome then
    .ok (.terminal (quietOutput { s.state with entryBlocker := none } [] [] none))
  else .ok .pass

/-! ### Dropping a position the wallet no longer holds -/

/-- The base the wallet lists, free and locked; a missing line counts as zero. -/
def listedBase (input : TTInput) : Decimal :=
  match input.account.balances input.market.symbolInfo.baseAsset with
  | some line => line.free.add line.locked
  | none => (num 0).add (num 0)

/-- Whether the price has fallen to the removal threshold below the cost basis. -/
def belowRemoveThreshold (threshold lbp price : Decimal) : Bool :=
  !(threshold.lte (num 0) || threshold.gt (num 1)) && !(lbp.lte (num 0) || price.lte (num 0)) &&
    !price.gt (lbp.mul threshold)

/-- The state with its cost basis dropped. -/
def lbpCleared (state : TTState) : TTState :=
  { clearedAddTracking state with avgEntryPrice := none, currentGridTradeIndex := none }

/-- Drop the cost basis of a position that went to dust; an unreadable number is only logged. -/
def maybeClearAvgEntryPrice (input : TTInput) (state : TTState) :
    Option (TTState × LogEntry) :=
  let thresholdStr := input.config.buy.avgEntryPriceRemoveThreshold
  let priceStr := input.market.currentPrice
  let filters := input.market.symbolInfo.filters
  match state.avgEntryPrice with
  | none => none
  | some lbpStr =>
      if isBlank thresholdStr || thresholdStr = "0" then none
      else
        let parseFail := fun (raw : String) =>
          some (state, log .warn "tt-lbp-clear-parse-failed"
            [("err", .text (invalidDecimal raw)), ("thresholdStr", .text thresholdStr),
             ("avgEntryPrice", .decimal lbpStr), ("currentPrice", .text priceStr)])
        match parse thresholdStr, lbpStr.toDecimal, parse priceStr with
        | none, _, _ => parseFail thresholdStr
        | some _, none, _ => parseFail lbpStr.text
        | some _, some _, none => parseFail priceStr
        | some threshold, some lbp, some price =>
            if !belowRemoveThreshold threshold lbp price then none
            else if hasOpenBuyForSymbol input.openOrders input.market.symbol then none
            else
              match parse filters.minQty with
              | none =>
                  some (state, log .warn "tt-lbp-clear-balance-parse-failed"
                    [("err", .text (invalidDecimal filters.minQty)),
                     ("symbol", .text input.market.symbol),
                     ("baseAsset", .text input.market.symbolInfo.baseAsset),
                     ("minQty", .text filters.minQty)])
              | some minQty =>
                  -- what the wallet lists decides, whether or not it could be read
                  if (listedBase input).gte minQty then none
                  else
                    some (lbpCleared state, log .info "tt-lbp-cleared"
                      [("symbol", .text input.market.symbol), ("avgEntryPrice", .decimal lbpStr),
                       ("currentPrice", .text priceStr), ("threshold", .text thresholdStr)])

def lbpClearBranch (input : TTInput) : BranchHandler := fun s =>
  match maybeClearAvgEntryPrice input s.state with
  | some (state, entry) => .ok (.mutate { state, preambleLogs := s.preambleLogs ++ [entry] })
  | none => .ok .pass

/-! ### The sell gate -/

/-- The exit blocker of a position that could not be sold. -/
def unsellableBlocker (input : TTInput) (state : TTState) (skip : SellSkipReason) : ExitBlocker :=
  ladderBlocker input state { noExitCandidates with unsellable := some skip }

/-- The tick that sold on a signal. -/
def forceSellOutput (input : TTInput) (now : ℤ) (s : ChainState) (signal : TvForceSell)
    (cooldownMinutes : ℤ) (emission : SellEmission) : TTOutput :=
  let cooldownMs := cooldownMinutes * 60000
  let cleared := clearedSellPosition s.state (armAutoTriggerBuy input.config now)
  let cooled :=
    { cleared with
      forceSellCooldownUntilMs := if cooldownMs > 0 then some (now + cooldownMs) else none }
  actingOutput
    { lossExitStamp "technicals-force-sell" input.market.currentPrice s.state.avgEntryPrice now
        cooled with entryBlocker := none }
    (closingSellDecisions input emission.decision)
    (s.preambleLogs ++
      [{ emission.log with
         context := emission.log.context ++
           [("interval", .text signal.interval),
            ("recommendation", .text signal.recommendation.text), ("ageMs", .int signal.ageMs),
            ("useOnlyWithinMin", .int input.bundle.technicals.config.useOnlyWithinMin)] }])
    [metric "tt_tv_force_sell_emit" [("symbol", input.market.symbol)]]

/-- The signal a held position would be sold on; a discovery entry has its own exits. -/
def forceSellSignal (input : TTInput) (now : ℤ) (state : TTState) : Option TvForceSell :=
  if state.discoveryEntry then none
  else
    evaluateTechnicalsForceSell input.bundle.technicals input.market.currentPrice
      state.avgEntryPrice (technicalsForceSellTriggerPriceOf input.config state).price now
      (effectiveForceSellMinProfitPercent input.config)

/-- A configured trigger that does not read is logged. -/
def noteTriggerParse (input : TTInput) (s : ChainState) : ChainState :=
  if (technicalsForceSellTriggerPriceOf input.config s.state).parseFail then
    s.withLog (parseFailedLog
      [("field", .text "triggerPercentage"), ("source", .text "technicals-force-sell"),
       ("value", .text input.config.sell.triggerPercentage)])
  else s

/-- Sell on the signal, or end the tick on a position that cannot be sized. -/
def sellOnSignal (input : TTInput) (now : ℤ) (s : ChainState) (signal : TvForceSell)
    (cooldownMinutes : ℤ) : TTOutput :=
  match sellEmissionOrSkip input s.state .technicalsForceSell "tt-technicals-force-sell"
      ("technicals-" ++ signal.interval ++ "-" ++ signal.recommendation.text ++ "-" ++
        (s.state.avgEntryPrice.map DecimalString.text).getD "null") [] with
  | .ok emission => forceSellOutput input now s signal cooldownMinutes emission
  | .error refused =>
      actingOutput
        { s.state with exitBlocker := some (unsellableBlocker input s.state refused.skipReason) }
        [tickSnapshot input] (s.preambleLogs ++ [refused.log])
        [metric "tt_tv_force_sell_skipped" [("symbol", input.market.symbol)]]

/-- Remember when a signal was first seen, where it has to be confirmed over time. -/
def markFirstSeen (state : TTState) (confirmMs now : ℤ) : TTState :=
  if confirmMs > 0 && state.forceSellFirstSeenAtMs.isNone then
    { state with forceSellFirstSeenAtMs := some now }
  else state

/-- A signal is sold on once it has stood for the confirmation time. -/
def confirmForceSell (input : TTInput) (now : ℤ) (s : ChainState) (signal : TvForceSell) :
    Except TTOutput ChainState :=
  let guards := resolveForceSellGuards input.config.technicals
  let confirmMs := guards.confirmMinutes * 60000
  let firstSeenAtMs := s.state.forceSellFirstSeenAtMs.getD now
  let seen := { s with state := markFirstSeen s.state confirmMs now }
  if now - firstSeenAtMs < confirmMs then
    .ok (seen.withLog (log .info "tt-force-sell-confirm-pending"
      [("symbol", .text input.market.symbol), ("interval", .text signal.interval),
       ("recommendation", .text signal.recommendation.text),
       ("firstSeenAtMs", .int firstSeenAtMs), ("confirmMinutes", .int guards.confirmMinutes)]))
  else .error (sellOnSignal input now seen signal guards.cooldownMinutes)

/-- The signal-driven sell; a signal that went away is forgotten. -/
def forceSellStage (input : TTInput) (now : ℤ) (s : ChainState) : Except TTOutput ChainState :=
  let s := noteTriggerParse input s
  match forceSellSignal input now s.state with
  | none => .ok { s with state := { s.state with forceSellFirstSeenAtMs := none } }
  | some signal => confirmForceSell input now s signal

/-- The loss memory of a ladder exit: a stop-loss below cost, and every break-even stop. -/
def ladderLossStamp (input : TTInput) (now : ℤ) (metricName : String)
    (avgEntryPrice : Option DecimalString) (state : TTState) : TTState :=
  if metricName = "tt_grid_stop_loss_emit" then
    lossExitStamp "grid-stop-loss" input.market.currentPrice avgEntryPrice now state
  else if metricName = "tt_break_even_stop_emit" then
    { state with lastLossExitAt := some now, lastLossExitReason := some "break-even-stop" }
  else state

/-- The ladder: sell, or go on with the state it left and its exit blocker. -/
def ladderStage (input : TTInput) (now : ℤ) (s : ChainState) :
    Except TTOutput (ChainState × ExitBlocker) :=
  match evaluateSellGate input s.state with
  | .emit emission =>
      .error (actingOutput
        { ladderLossStamp input now emission.metricName s.state.avgEntryPrice
            (clearedSellPosition s.state (armAutoTriggerBuy input.config now)) with
          entryBlocker := none }
        (closingSellDecisions input emission.decision) (s.preambleLogs ++ [emission.log])
        [metric emission.metricName [("symbol", input.market.symbol)]])
  | .bumpHigh state blocker => .ok ({ s with state }, blocker)
  | .skip entry blocker => .ok (s.withLog entry, blocker)
  | .noop blocker => .ok (s, blocker)

/-- The exit to cash in a bear market. -/
def regimeExitStage (input : TTInput) (now : ℤ) (s : ChainState) (blocker : ExitBlocker) :
    Except TTOutput (ChainState × ExitBlocker) :=
  match evaluateRegimeExit input.market input.config with
  | .bear context =>
      match sellEmissionOrSkip input s.state .regimeExit "tt-regime-exit"
          ("regime-exit-" ++ (s.state.avgEntryPrice.map DecimalString.text).getD "null") [] with
      | .ok emission =>
          .error (actingOutput
            { lossExitStamp "regime-exit" input.market.currentPrice s.state.avgEntryPrice now
                (clearedSellPosition s.state none) with entryBlocker := none }
            (closingSellDecisions input emission.decision)
            (s.preambleLogs ++
              [{ emission.log with context := emission.log.context ++ context }])
            [metric emission.metricName [("symbol", input.market.symbol)]])
      | .error refused =>
          .ok (s.withLog refused.log, unsellableBlocker input s.state refused.skipReason)
  | _ => .ok (s, blocker)

/-- The exits of a held position, where selling is on and no sell is already open. -/
def exitStages (input : TTInput) (scalars : TickScalars) (s : ChainState) :
    Except TTOutput (ChainState × Option ExitBlocker) :=
  if input.config.sell.enabled && s.state.avgEntryPrice.isSome && !scalars.hasOpenSell then do
    let s ← forceSellStage input scalars.now s
    let (s, blocker) ← ladderStage input scalars.now s
    -- the ladder has the first word; the exit to cash sells what it left
    let (s, blocker) ← regimeExitStage input scalars.now s blocker
    return (s, some blocker)
  else .ok (s, none)

/-- Record what holds the position back from its exit, or that nothing is held. -/
def exitBlockerStage (input : TTInput) (scalars : TickScalars) (s : ChainState)
    (blocker : Option ExitBlocker) : ChainState :=
  if s.state.avgEntryPrice.isSome then
    { s with state := { s.state with
        exitBlocker := some (blocker.getD (resolveExitBlocker
          { candidates := noExitCandidates
            sellDisabled := !input.config.sell.enabled
            openSellOrder := scalars.hasOpenSell
            currentPrice := parse input.market.currentPrice
            downside := assessHeldDownsideExit input.config s.state input.market })) } }
  else { s with state := { s.state with exitBlocker := none } }

def ProtectiveStopBlockerReason.text : ProtectiveStopBlockerReason → String
  | .baseLockedByForeignOrder => "base-locked-by-foreign-order"
  | .baseBelowExchangeMinimum => "base-below-exchange-minimum"
  | .baseShortOfTrackedPosition => "base-short-of-tracked-position"
  | .priceOutsideExchangeBand => "price-outside-exchange-band"
  | .restingStopShortOfPosition => "resting-stop-short-of-position"

/-- Arm the exchange-side stop of a held position. -/
def protectiveStopStage (input : TTInput) (s : ChainState) : Except TTOutput ChainState :=
  let symbol := input.market.symbol
  if input.config.sell.enabled && s.state.avgEntryPrice.isSome then
    let arm := evaluateProtectiveStop input s.state
    let s := { s with state := { s.state with protectiveStopBlocker := arm.blocker } }
    if !arm.decisions.isEmpty then
      .error (actingOutput { s.state with entryBlocker := none } arm.decisions
        (s.preambleLogs ++
          [log .info "tt-protective-stop-arm"
            [("symbol", .text symbol), ("rearm", .bool (arm.decisions.length > 1))]])
        (metric "tt_protective_stop_arm" [("symbol", symbol)] ::
          protectiveStopBandAdjustment symbol arm.floorClamped arm.nativeTrailed))
    else
      match arm.blocker with
      | some blocker =>
          .ok (s.withLog (log .warn "tt-protective-stop-blocked"
            ([("symbol", .text symbol),
              ("reason", .text (ProtectiveStopBlockerReason.text blocker.reason))] ++
              blocker.detail)))
      | none => .ok s
  else .ok { s with state := { s.state with protectiveStopBlocker := none } }

def sellGateBranch (input : TTInput) (scalars : TickScalars) : BranchHandler := fun s =>
  match (do
    let (s, blocker) ← exitStages input scalars s
    protectiveStopStage input (exitBlockerStage input scalars s blocker) :
      Except TTOutput ChainState) with
  | .error output => .ok (.terminal output)
  | .ok s => .ok (.mutate s)

end TradingBot.TrailingTrade
