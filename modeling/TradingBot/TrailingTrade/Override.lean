import TradingBot.TrailingTrade.GridBuy

/-!
# Operator overrides and the clearing of a position

What a closing sell leaves of the state, and the three things an operator can
ask of a tick: a manual order, a forced buy and a forced sell. Every order an
override sends carries the override's id.
-/

namespace TradingBot.TrailingTrade

open Decimal

/-! ### Clearing a position -/

/-- Forget the adds, the discovery marker and the entry clock. -/
def clearedAddTracking (state : TTState) : TTState :=
  { state with
    bullAddCount := none
    lastBullAddPrice := none
    discoveryEntry := false
    entryAtMs := none }

/-- The state after a closing sell: flat, with the next automatic entry armed or not. -/
def clearedSellPosition (state : TTState) (autoTriggerBuyAtMs : Option ℤ) : TTState :=
  { clearedAddTracking state with
    avgEntryPrice := none
    protectiveStopBlocker := none
    exitBlocker := none
    highSinceBuy := none
    breakEvenArmed := false
    currentGridTradeIndex := none
    autoTriggerBuyAtMs
    forceSellFirstSeenAtMs := none
    entryConfirmCount := 0 }

/-! ### Overrides -/

def Decision.attribute (overrideActionId : String) : Decision → Decision
  | .placeOrder intent params =>
      .placeOrder { intent with overrideActionId := some overrideActionId } params
  | .replaceOrder cancelOrderId reason intent params =>
      .replaceOrder cancelOrderId reason
        { intent with overrideActionId := some overrideActionId } params
  | other => other

def attributeToOverride (decisions : List Decision) (overrideActionId : String) : List Decision :=
  decisions.map (Decision.attribute overrideActionId)

/-- Whether a manual sell takes everything the strategy tracks. -/
def emptiesPosition (quantity : DecimalString) (state : TTState) : Bool :=
  match safeDecimal state.heldQuantity, quantity.toDecimal with
  | some held, some selling => held.gt (num 0) && selling.gte held
  | _, _ => false

/-- A tick that does nothing but say why. -/
def quietOutput (nextState : TTState) (logs : List LogEntry) (metrics : List MetricEntry)
    (overrideDeclineReason : Option String) : TTOutput :=
  { nextState, decisions := [.noop], logs, metrics, overrideDeclineReason }

/-- A tick that acted. -/
def actingOutput (nextState : TTState) (decisions : List Decision) (logs : List LogEntry)
    (metrics : List MetricEntry) : TTOutput :=
  { nextState, decisions, logs, metrics, overrideDeclineReason := none }

def manualOrderOutput (input : TTInput) (state : TTState) (overrideActionId : String)
    (payload : ManualOrderRequest) : TTOutput :=
  let symbol := input.market.symbol
  match computeManualOrderQuantity payload input.market.currentPrice
      input.market.symbolInfo.filters with
  | .ok quantity =>
      let manual := buildManualOrderDecision input payload quantity overrideActionId
      actingOutput { state with entryBlocker := none }
        (if payload.side = .sell && emptiesPosition quantity state then
          closingSellDecisions input manual
        else [manual])
        [log .info "tt-manual-order"
          [("symbol", .text symbol), ("overrideActionId", .text overrideActionId),
           ("side", .text payload.side.text), ("type", .text payload.type.text),
           ("quantity", .decimal quantity)]]
        [metric "tt_manual_order_emit" [("symbol", symbol)]]
  | .error skip =>
      quietOutput { state with entryBlocker := none }
        [log .warn "tt-manual-order-skipped"
          [("symbol", .text symbol), ("overrideActionId", .text overrideActionId),
           ("reason", .text skip.text)]]
        [metric "tt_manual_order_skipped" [("symbol", symbol), ("reason", skip.text)]]
        (some skip.text)

/-- The part of a forced entry's log that says what it bought. -/
def forcedEntryDetail (quantity : Option DecimalString) (level : Option ℕ) (canceledStale : ℕ) :
    Detail :=
  match level with
  | some level => [("gridLevel", .int level), ("canceledStale", .int canceledStale)]
  | none => [("quantity", .ofDecimal? quantity)]

def triggerBuyOutput (input : TTInput) (state : TTState) (now : ℤ) (overrideActionId : String) :
    Except String TTOutput :=
  let symbol := input.market.symbol
  let skipped := fun (reason : String) (context : Detail) =>
    quietOutput { state with entryBlocker := none }
      [log .warn "tt-trigger-buy-skipped"
        (context ++
          [("symbol", .text symbol), ("overrideActionId", .text overrideActionId),
           ("reason", .text reason)])]
      [metric "tt_trigger_buy_skipped" [("symbol", symbol), ("reason", reason)]]
      (some reason)
  if forceSellCooldownActive state now then
    let blocked := forceSellCooldownBlock symbol state
    .ok (quietOutput { state with entryBlocker := none } [blocked.log] [blocked.metric]
      (some "force-sell-cooldown"))
  else do
    match ← emitForcedFirstEntry input state now with
    | .emit entered decisions quantity level canceledStale =>
        return actingOutput { entered with entryBlocker := none } decisions
          [log .info "tt-trigger-buy"
            ([("symbol", .text symbol), ("overrideActionId", .text overrideActionId)] ++
              forcedEntryDetail quantity level canceledStale)]
          [metric "tt_trigger_buy_emit" [("symbol", symbol)]]
    | .wait => return skipped "awaiting-entry" []
    | .skip reason context => return skipped reason context

def triggerSellOutput (input : TTInput) (state : TTState) (now : ℤ) (overrideActionId : String) :
    TTOutput :=
  let symbol := input.market.symbol
  let free := sellableBase input state
  match computeSellQuantity free input.market.currentPrice input.market.symbolInfo.filters with
  | .ok quantity =>
      actingOutput
        { clearedSellPosition state (armAutoTriggerBuy input.config now) with entryBlocker := none }
        (closingSellDecisions input
          (buildSellDecision input "manual" quantity ("trigger-sell-" ++ overrideActionId)))
        [log .info "tt-trigger-sell"
          [("symbol", .text symbol), ("overrideActionId", .text overrideActionId),
           ("quantity", .decimal quantity), ("freeBase", .decimal free)]]
        [metric "tt_trigger_sell_emit" [("symbol", symbol)]]
  | .error skip =>
      quietOutput { state with entryBlocker := none }
        [log (sellSkipLogLevel skip) "tt-trigger-sell-skipped"
          [("symbol", .text symbol), ("overrideActionId", .text overrideActionId),
           ("reason", .text skip.text), ("freeBase", .decimal free)]]
        [metric "tt_trigger_sell_skipped" [("symbol", symbol), ("reason", skip.text)]]
        (some skip.text)

def overrideOutput (input : TTInput) (state : TTState) (now : ℤ) (override : Override) :
    Except String TTOutput :=
  match override.kind with
  | .manualOrder payload =>
      .ok (manualOrderOutput input state override.overrideActionId payload)
  | .triggerBuy => triggerBuyOutput input state now override.overrideActionId
  | .triggerSell => .ok (triggerSellOutput input state now override.overrideActionId)

def handleOverride (input : TTInput) (state : TTState) (now : ℤ) (override : Override) :
    Except String TTOutput := do
  let out ← overrideOutput input state now override
  return { out with decisions := attributeToOverride out.decisions override.overrideActionId }

end TradingBot.TrailingTrade
