import TradingBot.TrailingTrade.ProtectiveStop

/-!
# Buying

The grid ladder's entry, its promotions and the re-pricing of its resting
order; the forced entries an operator or the re-arm timer asks for; and the
adds to a winning position. An entry is one function from the target level down
to the emitted decisions, through every gate in the order the source tries them.
-/

namespace TradingBot.TrailingTrade

open Decimal

/-! ### Risk caps -/

/-- The exposure of the position after an add, in quote. -/
def projectedDeployed (state : TTState) (addNotional : Decimal) : Decimal :=
  let deployedSoFar :=
    match safeDecimal state.avgEntryPrice, safeDecimal state.heldQuantity with
    | some avg, some heldQty => avg.mul heldQty
    | _, _ => num 0
  deployedSoFar.add addNotional

/-- The share of the exposure lost if the stop-loss fires; all of it without one. -/
def lossFraction (config : TTConfig) : Decimal :=
  match if config.sell.enabled then parse config.sell.stopLossPercentage else none with
  | some stop => if stop.gt (num 0) && stop.lte (num 1) then (num 1).sub stop else num 1
  | none => num 1

def riskCapVeto (cap : EntryBlockerReason) (capQuote : DetailValue) (projected : Decimal)
    (worstCase : Option Decimal) : EntryVeto :=
  { reason := cap
    context :=
      [("cap", .text cap.text), ("capQuote", capQuote),
       ("projectedDeployed", .decimal (.printed projected))] ++
        (worstCase.map fun d =>
          ("projectedWorstCaseLoss", DetailValue.decimal (.printed d))).toList }

/-- The per-symbol exposure, the loss budget and the account cap, in that order. -/
def evaluateRiskCaps (config : TTConfig) (state : TTState) (addQuantity : DecimalString)
    (currentPrice : String) (account : AccountSnapshot) (quoteAsset : String) : Option EntryVeto :=
  let maxExposure := config.buy.maxSymbolExposureQuote
  let maxLoss := config.buy.maxPositionLossQuote
  let accountCapQuote :=
    resolveAccountCapQuote config.buy.accountCap (accountEquity account quoteAsset)
  if !isCapArmed maxExposure && !isCapArmed maxLoss && accountCapQuote.isNone then none
  else
    match parse currentPrice, addQuantity.toDecimal with
    | some price, some addQty =>
        let addNotional := addQty.mul price
        let projected := projectedDeployed state addNotional
        let worstCase := projected.mul (lossFraction config)
        let deployed :=
          (parse (account.deployedQuoteAcrossProfiles.getD "0")).getD (num 0)
        let exposure :=
          if isCapArmed maxExposure && (parse maxExposure).any projected.gt then
            some (riskCapVeto .exposureCap (.text maxExposure) projected none)
          else none
        let budget :=
          if isCapArmed maxLoss && (parse maxLoss).any worstCase.gt then
            some (riskCapVeto .lossBudget (.text maxLoss) projected (some worstCase))
          else none
        let accountCap :=
          match accountCapQuote with
          | none => none
          | some cap =>
              if (deployed.add addNotional).gt cap then
                some (riskCapVeto .accountExposureCap (.decimal (.printed cap))
                  (deployed.add addNotional) none)
              else none
        (exposure.or budget).or accountCap
    | _, _ => none

/-! ### The grid ladder -/

inductive GridBuyResult where
  | emit (state : TTState) (decisions : List Decision) (log : LogEntry) (level : ℕ)
  | skipFilter (skip : EntryBlockerReason)
  | skipTv (veto : TVVeto) (intervalsConsulted : List IntervalConsultation)
  | skipIndicator (veto : EntryVeto)
  | skipRiskCap (veto : EntryVeto)
  | skipRegime (veto : EntryVeto)
  | skipGuardrail (veto : EntryVeto)
  | skipChaseGuard (veto : Detail)
  | skipKnifeGuard (veto : Detail)
  | wait (awaitingTrigger : Option Detail)
  | noop

/-- The lowest low of the look-back window, over the lows that read. -/
def lowestLowInWindow (market : MarketSnapshot) (config : TTConfig) : Option Decimal :=
  match market.candlesByInterval config.candleInterval with
  | none => none
  | some candles =>
      (lastCandles candles config.buy.candleLimit).foldl
        (fun min candle =>
          match parse candle.low with
          | none => min
          | some low =>
              match min with
              | none => some low
              | some m => if low.lt m then some low else min)
        none

def TTBundle.entersOnAdd (bundle : TTBundle) : Bool := bundle.entryHint.any (·.enterOnAdd)

/-- The rung a tick would buy, and whether it opens a position. -/
structure GridTarget where
  level : ℕ
  isEntry : Bool

/-- The entry of a flat ladder: at once, or once the price is back near its recent low. -/
def entryTarget (input : TTInput) : Except GridBuyResult GridTarget :=
  if input.config.buy.firstBuyTriggerBasis == .lowestPrice && !input.bundle.entersOnAdd then
    match input.config.buy.gridLevels.head?, lowestLowInWindow input.market input.config with
    | some lvl0, some low =>
        match parse lvl0.triggerPercentage, parse input.market.currentPrice with
        | some trigger, some price =>
            if price.lte (low.mul trigger) then .ok ⟨0, true⟩
            else
              .error
                (.wait
                  (some
                    [("windowLow", .decimal (.printed low)),
                     ("triggerPercentage", .text lvl0.triggerPercentage),
                     ("currentPrice", .text input.market.currentPrice)]))
        | _, _ => .error .noop
    | _, _ => .error .noop
  else .ok ⟨0, true⟩

/-- The next rung of a held ladder, once the price is below its trigger. -/
def promotionTarget (input : TTInput) (state : TTState) (lbpStr : DecimalString) (index : ℕ) :
    Except GridBuyResult GridTarget :=
  match input.config.buy.gridLevels[index + 1]? with
  | none => .error .noop
  | some next =>
      -- a discovery position is a single entry and is never averaged down
      if state.discoveryEntry then .error .noop
      else
        match lbpStr.toDecimal, parse next.triggerPercentage, parse input.market.currentPrice with
        | some lbp, some trigger, some price =>
            if price.lte (lbp.mul trigger) then .ok ⟨index + 1, false⟩ else .error .noop
        | _, _, _ => .error .noop

def isOpenBuy (symbol : String) (o : OpenOrder) : Bool := o.symbol == symbol && o.side == .buy

/-- The resting order of a rung. -/
def restingGridBuy (input : TTInput) (level : ℕ) : Option OpenOrder :=
  input.openOrders.find? fun o =>
    isOpenBuy input.market.symbol o &&
      o.clientOrderId == gridBuyClientOrderId input.profile.id input.market.symbol level

def gridTarget (input : TTInput) (state : TTState) : Except GridBuyResult GridTarget :=
  match state.avgEntryPrice, state.currentGridTradeIndex with
  | none, none => entryTarget input
  | some lbpStr, some index => promotionTarget input state lbpStr index
  -- emitted and not filled: only its own resting order can be looked after
  | none, some index =>
      if (restingGridBuy input index).isSome then .ok ⟨index, false⟩ else .error .noop
  | some _, none => .error .noop

/-- The prices of a rung's stop-limit order, where the rung is one and everything reads. -/
def gridStopLimit (input : TTInput) (level : GridLevel) : Option StopLimit :=
  if level.stopPricePercentage = "" || level.limitPricePercentage = "" then none
  else
    match parse input.market.currentPrice, parse level.stopPricePercentage,
        parse level.limitPricePercentage, parse input.market.symbolInfo.filters.tickSize with
    | some entryPrice, some stopPct, some limitPct, some tick =>
        if tick.gt (num 0) then
          some
            { stopPrice := toFixedStep (roundToStep (entryPrice.mul stopPct) tick) tick
              price := toFixedStep (roundToStep (entryPrice.mul limitPct) tick) tick }
        else none
    | _, _, _, _ => none

/-- Whether a resting order is left where it is: nothing to re-price it to, or not far enough. -/
def keepsResting (config : TTConfig) (resting : OpenOrder) (stopLimit : Option StopLimit) : Bool :=
  match stopLimit with
  | none => true
  | some stopLimit =>
      -- a partial fill would be stranded by a cancel: only a finished order is adopted
      if (safeDecimal resting.executedQty).any (·.gt (num 0)) then true
      else
        match safeDecimal resting.stopPrice, stopLimit.stopPrice.toDecimal with
        | some restingStop, some newStop =>
            -- only a falling market lowers the order; it is never raised towards the price
            if newStop.gte restingStop then true
            else
              match parse config.buy.gridRepriceMinDriftPercent with
              | none => false
              | some minDrift =>
                  minDrift.gt (num 0) && (restingStop.sub newStop).lt (restingStop.mul minDrift)
        | _, _ => true

/-- The guards on an entry: a discovery entry needs its stop, and neither chases nor catches. -/
def entryGuards (input : TTInput) : Option GridBuyResult :=
  let stopStr := input.config.sell.stopLossPercentage
  let stopped := (parse stopStr).any fun stop => stop.gt (num 0) && stop.lte (num 1)
  if input.bundle.entersOnAdd && !stopped then
    some
      (.skipGuardrail
        { reason := .discoveryNoStop
          context :=
            [("symbol", .text input.market.symbol), ("stopLossPercentage", .text stopStr)] })
  else
    match input.bundle.entryHint with
    | none => none
    | some hint =>
        let chase := chaseGuard input.market.currentPrice hint.high24h
          hint.maxDistanceFrom24hHighPercent
        let closed :=
          (input.market.candlesByInterval input.config.candleInterval).map
            (·.filter (·.isClosed))
        let knife := knifeGuard closed hint.knifeCandles hint.knifeDropPercent
        (chase.map .skipChaseGuard).or (knife.map .skipKnifeGuard)

/-- The technicals gate on an entry; an enter-on-add entry has a lower floor. -/
def entryTechnicals (input : TTInput) (now : ℤ) : Option GridBuyResult :=
  let gate :=
    if input.bundle.entersOnAdd then
      evaluateEnterOnAddFloor input.bundle.technicals input.config.forceBuyOverride now
    else evaluateTechnicalsGate input.bundle.technicals input.config.forceBuyOverride now
  gate.veto.map fun veto => .skipTv veto gate.intervalsConsulted

/-- The indicator gate, and the mean-reversion gate where it passes. -/
def indicatorGates (input : TTInput) : Except String (Option EntryVeto) :=
  match evaluateIndicatorGate input.market input.config with
  | some veto => .ok (some veto)
  | none => evaluateMeanReversionGate input.market input.config

/-- Adds to a held position stop in a downtrend and in a bear market that exits to cash. -/
def promotionRegime (input : TTInput) (state : TTState) : Option GridBuyResult :=
  if state.avgEntryPrice.isNone then none
  else
    match evaluateRegimeFilter input.market input.config with
    | some veto => some (.skipRegime veto)
    | none =>
        match evaluateRegimeExit input.market input.config with
        | .bear context => some (.skipRegime { reason := .regimeDowntrend, context })
        | _ => none

def openBuysFor (input : TTInput) : List OpenOrder :=
  input.openOrders.filter (isOpenBuy input.market.symbol)

/-- Every open BUY gives way to the rung about to be placed. -/
def staleCancels (input : TTInput) (level : ℕ) : List Decision :=
  (openBuysFor input).map fun o =>
    .cancelOrder o.orderId
      ((if o.clientOrderId = gridBuyClientOrderId input.profile.id input.market.symbol level then
          "tt-grid-reprice-l"
        else "tt-grid-promote-l") ++ toString level)
      (some input.market.symbol)

/-- The state an emission leaves: its index, and the entry's marker and clock. -/
def emittedState (input : TTInput) (state : TTState) (target : GridTarget) (now : ℤ) : TTState :=
  let indexed := { state with currentGridTradeIndex := some target.level }
  if target.isEntry && input.bundle.entersOnAdd then
    { indexed with discoveryEntry := true, entryAtMs := some now }
  else if target.isEntry && input.config.sell.timeStopBars > 0 then
    { indexed with entryAtMs := some now }
  else indexed

/-- Size the rung and emit it, through the filters and the risk caps. -/
def emitGridBuy (input : TTInput) (state : TTState) (now : ℤ) (target : GridTarget)
    (level : GridLevel) (stopLimit : Option StopLimit) : GridBuyResult :=
  match computeFirstBuyQuantity (.raw level.maxPurchaseAmount) input.market.currentPrice
      input.market.symbolInfo.filters level.minPurchaseAmount
      (if state.avgEntryPrice.isNone then ttEntryStopFloor input.config else none) with
  | .error skip => .skipFilter skip
  | .ok quantity =>
      match evaluateRiskCaps input.config state quantity input.market.currentPrice input.account
          input.market.symbolInfo.quoteAsset with
      | some veto => .skipRiskCap veto
      | none =>
          .emit (emittedState input state target now)
            (staleCancels input target.level ++
              [buildGridBuyDecision input quantity target.level stopLimit])
            (log .info "tt-grid-buy-emit"
              [("symbol", .text input.market.symbol), ("gridIndex", .int target.level),
               ("quantity", .decimal quantity),
               ("canceledStale", .int (openBuysFor input).length)])
            target.level

/-- The gates between a target rung and its emission. -/
def gateGridBuy (input : TTInput) (state : TTState) (now : ℤ) (forceTvOpen : Bool)
    (target : GridTarget) (level : GridLevel) (stopLimit : Option StopLimit) :
    Except String GridBuyResult :=
  match if target.isEntry then entryGuards input else none with
  | some skip => .ok skip
  | none =>
      match if target.isEntry && !forceTvOpen then entryTechnicals input now else none with
      | some skip => .ok skip
      | none => do
          match ← indicatorGates input with
          | some veto => return .skipIndicator veto
          | none =>
              match promotionRegime input state with
              | some skip => return skip
              | none => return emitGridBuy input state now target level stopLimit

/-- One look at the ladder: which rung, whether its order already rests, and then the gates. -/
def evaluateGridBuy (input : TTInput) (state : TTState) (now : ℤ) (forceTvOpen : Bool) :
    Except String GridBuyResult :=
  match gridTarget input state with
  | .error result => .ok result
  | .ok target =>
      match input.config.buy.gridLevels[target.level]? with
      | none => .ok .noop
      | some level =>
          let stopLimit := gridStopLimit input level
          if (restingGridBuy input target.level).any (keepsResting input.config · stopLimit) then
            .ok (.wait none)
          else gateGridBuy input state now forceTvOpen target level stopLimit

/-! ### Forced entries -/

/-- A single forced buy of a profile without a ladder. -/
def emitFirstBuyTvForced (input : TTInput) (state : TTState) :
    Except String (Decision × DecimalString) :=
  if state.disabledUntilMs.isSome then .error "disabled-until"
  else if hasOpenBuyForSymbol input.openOrders input.market.symbol then .error "open-buy"
  else
    match resolveEntryBudget input.config input.account input.market.symbolInfo.quoteAsset with
    | .error skip => .error skip.text
    | .ok budget =>
        match computeFirstBuyQuantity (.printed budget) input.market.currentPrice
            input.market.symbolInfo.filters ""
            (if state.avgEntryPrice.isNone then ttEntryStopFloor input.config else none) with
        | .error skip => .error skip.text
        | .ok quantity => .ok (buildFirstBuyDecision input quantity, quantity)

inductive ForcedEntryResult where
  | wait
  | emit (state : TTState) (decisions : List Decision) (quantity : Option DecimalString)
      (level : Option ℕ) (canceledStale : ℕ)
  | skip (reason : String) (context : Detail)

def isCancel : Decision → Bool
  | .cancelOrder .. => true
  | _ => false

/-- What a forced entry makes of the ladder's answer. -/
def forcedGridEntry (input : TTInput) : GridBuyResult → ForcedEntryResult
  | .emit state decisions _ level =>
      .emit state decisions none (some level) (decisions.filter isCancel).length
  | .skipFilter skip => .skip skip.text []
  | .skipIndicator veto => .skip veto.reason.text veto.context
  | .skipRiskCap veto => .skip veto.reason.text veto.context
  | .skipRegime veto => .skip veto.reason.text veto.context
  | .wait _ =>
      if hasOpenBuyForSymbol input.openOrders input.market.symbol then .skip "open-buy" []
      else .wait
  | _ => .skip "grid-not-flat" []

/-- An entry asked for from outside the gates: the ladder's entry rung, or a single buy. -/
def emitForcedFirstEntry (input : TTInput) (state : TTState) (now : ℤ) :
    Except String ForcedEntryResult :=
  if state.disabledUntilMs.isSome then .ok (.skip "disabled-until" [])
  else if !input.config.buy.gridLevels.isEmpty then do
    -- a forced entry is a fresh one, whatever an earlier entry left behind
    let entryState :=
      { state with currentGridTradeIndex := none, discoveryEntry := false, entryAtMs := none }
    let grid ← evaluateGridBuy input entryState now true
    return forcedGridEntry input grid
  else
    match emitFirstBuyTvForced input state with
    | .ok (decision, quantity) => .ok (.emit state [decision] (some quantity) none 0)
    | .error reason => .ok (.skip reason [])

/-- When the next automatic entry is due, if they are on. -/
def armAutoTriggerBuy (config : TTConfig) (now : ℤ) : Option ℤ :=
  if config.buy.autoTriggerBuy.enabled then
    some (now + config.buy.autoTriggerBuy.triggerAfterMinutes * 60000)
  else none

/-! ### Adding to a winner -/

def accountExposureCapArmed (config : TTConfig) : Bool :=
  config.buy.accountCap.any fun cap =>
    match cap.mode with
    | .off => false
    | .amount => isCapArmed cap.amount
    | .percent => isCapArmed cap.percent

inductive BullPyramidResult where
  | add (decisions : List Decision) (log : LogEntry) (nextState : TTState) (addIndex : ℕ)
  | skipCap (veto : EntryVeto)
  | noop

/-- Whether the price has climbed a full step above the last add. -/
def clearsPyramidStep (input : TTInput) (state : TTState) (pyramid : BullPyramid) : Bool :=
  match parse input.market.currentPrice,
      safeDecimal (state.lastBullAddPrice.or state.avgEntryPrice), parse pyramid.stepPercentage with
  | some price, some anchor, some step => !price.lt (anchor.mul ((num 1).add step))
  | _, _, _ => false

def evaluateBullPyramid (input : TTInput) (state : TTState) : BullPyramidResult :=
  match input.config.regime with
  | none => .noop
  | some regime =>
      match regime.onBull.bind (·.pyramid) with
      | none => .noop
      | some pyramid =>
          let count := state.bullAddCount.getD 0
          if !pyramid.enabled || state.avgEntryPrice.isNone || state.discoveryEntry then .noop
          else if !isCapArmed input.config.buy.maxSymbolExposureQuote &&
              !accountExposureCapArmed input.config then .noop
          else if (classifyRegime input.market regime.params).regime ≠ .bull then .noop
          else if count ≥ pyramid.maxAdds then .noop
          else if !clearsPyramidStep input state pyramid then .noop
          else if hasOpenBuyForSymbol input.openOrders input.market.symbol then .noop
          else
            match computeFirstBuyQuantity (.raw pyramid.maxPurchaseAmount)
                input.market.currentPrice input.market.symbolInfo.filters "" none with
            | .error _ => .noop
            | .ok quantity =>
                match evaluateRiskCaps input.config state quantity input.market.currentPrice
                    input.account input.market.symbolInfo.quoteAsset with
                | some veto => .skipCap veto
                | none =>
                    .add [buildPyramidBuyDecision input quantity (count + 1)]
                      (log .info "tt-bull-pyramid-add"
                        [("symbol", .text input.market.symbol), ("addIndex", .int (count + 1)),
                         ("maxAdds", .int pyramid.maxAdds), ("quantity", .decimal quantity),
                         ("currentPrice", .text input.market.currentPrice)])
                      { state with
                        bullAddCount := some (count + 1)
                        lastBullAddPrice := some (.raw input.market.currentPrice) }
                      (count + 1)

end TradingBot.TrailingTrade
