import TradingBot.TrailingTrade.Gates

/-!
# Sizing, pricing and building orders

The entry budget and the quantities of first buys, manual orders and sells; the
stop level and the price an exchange-side stop sells at; the maker price of an
entry; the decisions themselves with their client order ids, which hash the
profile, the symbol and what the order is for.
-/

namespace TradingBot.TrailingTrade

open Decimal Grid

/-! ### The stop level -/

def defaultLimitOffset : String := "0.995"

/-- The limit offset an armed protective stop sells at;
without one the stop sells at its trigger. -/
def ttStopLimitOffset (protectiveStop : Option ProtectiveStopConfig) : Decimal :=
  match protectiveStop with
  | none => num 1
  | some ps =>
      if !ps.enabled then num 1
      else
        match ps.limitOffsetPercentage with
        | none => num 1
        | some raw =>
            match parse raw with
            | none => num 1
            | some offset => if offset.gt (num 0) && offset.lte (num 1) then offset else num 1

structure TTStopResolution where
  stop : Decimal
  floorClamped : Bool

/-- The stop-loss level: the fraction of the cost basis, lifted onto the band in clamp mode. -/
def resolveTTStopLevel (avgEntry stopPct : Decimal) (protectiveStop : Option ProtectiveStopConfig)
    (bandContext : StopBandContext) : TTStopResolution :=
  let stop := avgEntry.mul stopPct
  match protectiveStop with
  | none => ⟨stop, false⟩
  | some ps =>
      if !ps.enabled || ps.onBandBlock ≠ some .clamp then ⟨stop, false⟩
      else
        match decOrNull (some (.raw (ps.limitOffsetPercentage.getD defaultLimitOffset))) with
        | none => ⟨stop, false⟩
        | some limitOffset =>
            let clamped := clampStopToExchangeFloor stop (bandContext.reference.getD "")
              bandContext.band limitOffset
            ⟨clamped.1, clamped.2⟩

/-- The band a tick judges its stop against. -/
def marketBand (market : MarketSnapshot) : StopBandContext :=
  { reference := some market.currentPrice, band := market.symbolInfo.filters.percentPriceBySide }

/-- The price the exchange-side stop of a position sells at, where all of it reads. -/
def ttStopSellPrice (config : TTConfig) (state : TTState) (market : MarketSnapshot) :
    Option Decimal :=
  match decOrNull state.avgEntryPrice, decOrNull (some (.raw config.sell.stopLossPercentage)),
      decOrNull (some (.raw market.symbolInfo.filters.tickSize)) with
  | some avgEntry, some stopPct, some tick =>
      if !avgEntry.gt (num 0) || !stopPct.gt (num 0) || !stopPct.lte (num 1) ||
          !tick.gt (num 0) then none
      else
        let level :=
          resolveTTStopLevel avgEntry stopPct config.sell.protectiveStop (marketBand market)
        let limitOffset := ttStopLimitOffset config.sell.protectiveStop
        let sellPrice := roundToTick ((roundToTick level.stop tick).mul limitOffset) tick
        if sellPrice.gt (num 0) then some sellPrice else none
  | _, _, _ => none

/-! ### Budgets and quantities -/

/-- The share of the account one risk-sized buy may deploy. -/
def maxDeployFraction : Decimal := num (1 / 2)

def resolveAccountCapQuote (cap : Option AccountCap) (equity : Decimal) : Option Decimal :=
  match cap with
  | none => none
  | some cap =>
      match cap.mode with
      | .off => none
      | .amount => decOrNull (some (.raw cap.amount))
      | .percent => (decOrNull (some (.raw cap.percent))).map (·.mul equity)

/-- How far below the entry the stop sits, where a stop is configured. -/
def stopDistanceFraction (config : TTConfig) : Option Decimal :=
  if !config.sell.enabled then none
  else
    match decOrNull (some (.raw config.sell.stopLossPercentage)) with
    | none => none
    | some stop => if !stop.gt (num 0) || !stop.lt (num 1) then none else some ((num 1).sub stop)

/-- The spend asked for, and whether it was sized against the stop. -/
def desiredBudget (config : TTConfig) (sizing : EntrySizing) (equity : Decimal) :
    Option (Decimal × Bool) :=
  match sizing.mode with
  | .fixed => (decOrNull (some (.raw sizing.amount))).map (·, false)
  | .percentOfAccount =>
      match decOrNull (some (.raw sizing.percent)) with
      | none => none
      | some pct =>
          match stopDistanceFraction config with
          | none => some (pct.mul equity, false)
          | some dist => some ((pct.mul equity).div dist, true)

/-- The quote the first buy may spend, or why it may not. -/
def resolveEntryBudget (config : TTConfig) (account : AccountSnapshot) (quoteAsset : String) :
    Except EntryBlockerReason Decimal :=
  match config.buy.entrySizing with
  | none => .error .sizingUnconfigured
  | some sizing =>
      let equity := accountEquity account quoteAsset
      match desiredBudget config sizing equity with
      | none => .error .sizingUnconfigured
      | some (desired, riskBased) =>
          let wanted := desired.max (num 0)
          -- a share of the account cannot spend cash it does not have; a fixed amount is not capped
          let funded :=
            if sizing.mode = .percentOfAccount then
              let free := (account.balances quoteAsset).elim (num 0) (·.free)
              let freeCash := if free.gt (num 0) then free else num 0
              let cashed := wanted.min freeCash
              if riskBased then cashed.min (equity.mul maxDeployFraction) else cashed
            else wanted
          match resolveAccountCapQuote config.buy.accountCap equity with
          | none => .ok funded
          | some capQuote =>
              let deployed :=
                (decOrNull (some (.raw (account.deployedQuoteAcrossProfiles.getD "0")))).getD
                  (num 0)
              let headroom := capQuote.sub deployed
              if headroom.lte (num 0) then .error .capReached else .ok (funded.min headroom)

def SizeSkip.entryReason : SizeSkip → EntryBlockerReason
  | .minQty => .minQty
  | .minNotional => .minNotional

def EntryStopSkip.entryReason : EntryStopSkip → EntryBlockerReason
  | .entryBelowStopNotional => .entryBelowStopNotional
  | .invalidFilters => .invalidFilters

/-- The quantity a budget buys at a price, refused where a minimum or the stop floor is missed. -/
def computeFirstBuyQuantity (maxPurchaseAmount : DecimalString) (currentPrice : String)
    (filters : SymbolFilters) (minPurchaseAmount : String) (stop : Option EntryStopFloor) :
    Except EntryBlockerReason DecimalString :=
  match parseFilters filters with
  | none => .error .invalidFilters
  | some parsed =>
      match parse currentPrice, maxPurchaseAmount.toDecimal with
      | some price, some budget =>
          if price.lte (num 0) then .error .invalidFilters
          else
            let quantity := roundToStep (budget.div price) parsed.step
            match finalise quantity price parsed with
            | .error skip => .error (SizeSkip.entryReason skip)
            | .ok sized =>
                match applyEntryStopFloor quantity price parsed stop with
                | .error skip => .error (EntryStopSkip.entryReason skip)
                | .ok _ =>
                    if minPurchaseAmount = "" then .ok sized
                    else
                      match parse minPurchaseAmount with
                      | none => .error .invalidFilters
                      | some minSpend =>
                          if minSpend.gt (num 0) && (quantity.mul price).lt minSpend then
                            .error .minPurchase
                          else .ok sized
      | _, _ => .error .invalidFilters

/-- The floor an entry is held to: where its stop will sell. -/
def ttEntryStopFloor (config : TTConfig) : Option EntryStopFloor :=
  if !config.sell.enabled then none
  else
    match decOrNull (some (.raw config.sell.stopLossPercentage)) with
    | none => none
    | some stopPct =>
        if !stopPct.gt (num 0) || stopPct.gt (num 1) then none
        else
          some
            { distanceFraction := (num 1).sub stopPct
              limitOffset := ttStopLimitOffset config.sell.protectiveStop }

inductive ManualOrderSkip where
  | missingAmount
  | missingPrice
  | unsupportedType
  | invalidFilters
  | minQty
  | minNotional

def ManualOrderSkip.text : ManualOrderSkip → String
  | missingAmount => "missing-amount"
  | missingPrice => "missing-price"
  | unsupportedType => "unsupported-type"
  | invalidFilters => "invalid-filters"
  | minQty => "min-qty"
  | minNotional => "min-notional"

def isBlank (s : String) : Bool := s.toList.all Char.isWhitespace

/-- The price a manual order is sized at: its own for a limit order, the market's otherwise. -/
def manualRefPrice (payload : ManualOrderRequest) (marketPrice : String) :
    Except ManualOrderSkip Decimal :=
  let read := fun (raw : String) =>
    match parse raw with
    | none => .error .invalidFilters
    | some price => if price.lte (num 0) then .error .invalidFilters else .ok price
  match payload.type with
  | .limit =>
      match payload.price with
      | none => .error .missingPrice
      | some raw => if isBlank raw then .error .missingPrice else read raw
  | .market => read marketPrice
  | _ => .error .unsupportedType

def computeManualOrderQuantity (payload : ManualOrderRequest) (marketPrice : String)
    (filters : SymbolFilters) : Except ManualOrderSkip DecimalString := do
  let refPrice ← manualRefPrice payload marketPrice
  match parseFilters filters with
  | none => .error .invalidFilters
  | some parsed =>
      let sized := fun (amount : Option Decimal) =>
        match amount with
        | none => Except.error ManualOrderSkip.invalidFilters
        | some quantity =>
            match finalise (roundToStep quantity parsed.step) refPrice parsed with
            | .ok sized => .ok sized
            | .error .minQty => .error .minQty
            | .error .minNotional => .error .minNotional
      -- a base quantity wins over a quote amount when both are given
      match payload.quantity.filter (!isBlank ·), payload.quoteAmount.filter (!isBlank ·) with
      | some quantity, _ => sized (parse quantity)
      | none, some quote => sized ((parse quote).map (·.div refPrice))
      | none, none => .error .missingAmount

inductive SellSkipReason where
  | noBalance
  | minQty
  | minNotional
  | invalidFilters
deriving DecidableEq

def SellSkipReason.text : SellSkipReason → String
  | noBalance => "no-balance"
  | minQty => "min-qty"
  | minNotional => "min-notional"
  | invalidFilters => "invalid-filters"

/-- The quantity a closing sell can move at the current price. -/
def computeSellQuantity (freeBase : DecimalString) (currentPrice : String)
    (filters : SymbolFilters) : Except SellSkipReason DecimalString :=
  match parseFilters filters with
  | none => .error .invalidFilters
  | some parsed =>
      match freeBase.toDecimal, parse currentPrice with
      | some free, some price =>
          if price.lte (num 0) then .error .invalidFilters
          else if free.lte (num 0) then .error .noBalance
          else
            match finalise (roundToStep free parsed.step) price parsed with
            | .ok sized => .ok sized
            | .error .minQty => .error .minQty
            | .error .minNotional => .error .minNotional
      | _, _ => .error .invalidFilters

/-! ### Client order ids -/

def firstBuyClientOrderId (profileId symbol : String) : String :=
  "tt-" ++ djb2Hex (profileId ++ "|" ++ symbol) ++ "-b"

def gridBuyClientOrderId (profileId symbol : String) (gridIndex : ℕ) : String :=
  "tt-" ++ djb2Hex (profileId ++ "|" ++ symbol ++ "|" ++ toString gridIndex) ++ "-g"

def manualOrderClientOrderId (overrideActionId : String) : String :=
  "tt-" ++ String.ofList ((overrideActionId.toList.filter (· ≠ '-')).take 8) ++ "-m"

def pyramidBuyClientOrderId (profileId symbol : String) (addIndex : ℕ) : String :=
  "tt-" ++ djb2Hex (profileId ++ "|" ++ symbol ++ "|pyr-" ++ toString addIndex) ++ "-p"

def protectiveStopClientOrderId (profileId symbol : String) : String :=
  "tt-" ++ djb2Hex (profileId ++ "|" ++ symbol) ++ "-x"

def sellClientOrderId (profileId symbol seed : String) : String :=
  "tt-" ++ djb2Hex (profileId ++ "|" ++ symbol ++ "|" ++ seed) ++ "-s"

/-! ### Decisions -/

def hasOpenBuyForSymbol (orders : List OpenOrder) (symbol : String) : Bool :=
  orders.any fun o => o.symbol == symbol && o.side == .buy

/-- An open SELL on the symbol other than our own protective stop. -/
def hasOpenSellForSymbol (orders : List OpenOrder) (symbol profileId : String) : Bool :=
  orders.any fun o =>
    o.symbol == symbol && o.side == .sell &&
      o.clientOrderId != protectiveStopClientOrderId profileId symbol

/-- The limit of a maker entry: just below the price and on the tick, if that is a price at all. -/
def resolveMakerEntryLimit (input : TTInput) : Option DecimalString :=
  match input.config.execution with
  | none => none
  | some execution =>
      if execution.entryMode ≠ .maker then none
      else
        let filters := input.market.symbolInfo.filters
        match parse input.market.currentPrice, parse (execution.makerOffsetBps.getD "0"),
            parse filters.tickSize with
        | some price, some offsetBps, some tick =>
            if tick.lte (num 0) then none
            else
              let rounded :=
                roundToStep (price.mul ((num 1).sub (offsetBps.div (num 10000)))) tick
              let belowMin :=
                match parse filters.minPrice with
                | none => false
                | some minPrice => minPrice.gt (num 0) && rounded.lt minPrice
              if rounded.lte (num 0) || belowMin then none else some (toFixedStep rounded tick)
        | _, _, _ => none

def marketParams (quantity : DecimalString) : OrderParams :=
  { type := .market, quantity, price := none, stopPrice := none, trailingDelta := none
    timeInForce := none }

/-- A market entry, or a resting limit entry where a maker price is available. -/
def entryParams (quantity : DecimalString) (makerLimit : Option DecimalString) : OrderParams :=
  match makerLimit with
  | some price =>
      { type := .limit, quantity, price := some price, stopPrice := none, trailingDelta := none
        timeInForce := some .gtc }
  | none => marketParams quantity

/-- The two prices of a stop-limit order. -/
structure StopLimit where
  stopPrice : DecimalString
  price : DecimalString

def stopLimitParams (quantity : DecimalString) (stopLimit : StopLimit) : OrderParams :=
  { type := .stopLossLimit, quantity, price := some stopLimit.price
    stopPrice := some stopLimit.stopPrice, trailingDelta := none, timeInForce := some .gtc }

def buyIntent (input : TTInput) (reason clientOrderId : String) (info : Detail) : OrderIntent :=
  { symbol := input.market.symbol, side := .buy, reason, clientOrderId, info
    overrideActionId := none, deferrable := false }

def buildFirstBuyDecision (input : TTInput) (quantity : DecimalString) : Decision :=
  .placeOrder
    (buyIntent input "grid-buy" (firstBuyClientOrderId input.profile.id input.market.symbol) [])
    (entryParams quantity (resolveMakerEntryLimit input))

def buildGridBuyDecision (input : TTInput) (quantity : DecimalString) (gridIndex : ℕ)
    (stopLimit : Option StopLimit) : Decision :=
  .placeOrder
    (buyIntent input "grid-buy"
      (gridBuyClientOrderId input.profile.id input.market.symbol gridIndex)
      [("gridTradeIndex", .int gridIndex)])
    (match stopLimit with
      | some stopLimit => stopLimitParams quantity stopLimit
      | none => entryParams quantity (resolveMakerEntryLimit input))

def buildPyramidBuyDecision (input : TTInput) (quantity : DecimalString) (addIndex : ℕ) :
    Decision :=
  .placeOrder
    (buyIntent input "bull-pyramid"
      (pyramidBuyClientOrderId input.profile.id input.market.symbol addIndex)
      [("bullAddIndex", .int addIndex)])
    (marketParams quantity)

def buildManualOrderDecision (input : TTInput) (payload : ManualOrderRequest)
    (quantity : DecimalString) (overrideActionId : String) : Decision :=
  .placeOrder
    { symbol := input.market.symbol, side := payload.side, reason := "manual"
      clientOrderId := manualOrderClientOrderId overrideActionId, info := []
      overrideActionId := none, deferrable := false }
    (if payload.type = .limit then
      { type := .limit, quantity, price := some (.raw (payload.price.getD "0")), stopPrice := none
        trailingDelta := none, timeInForce := some .gtc }
    else marketParams quantity)

def sellIntent (input : TTInput) (reason clientOrderId : String) (deferrable : Bool) :
    OrderIntent :=
  { symbol := input.market.symbol, side := .sell, reason, clientOrderId, info := []
    overrideActionId := none, deferrable }

/-- A market sell under an id derived from why it sells. -/
def buildSellDecision (input : TTInput) (reason : String) (quantity : DecimalString)
    (clientOrderIdSeed : String) : Decision :=
  .placeOrder
    (sellIntent input reason
      (sellClientOrderId input.profile.id input.market.symbol clientOrderIdSeed) false)
    (marketParams quantity)

def buildProtectiveStopCancel (order : OpenOrder) (reason : String) : Decision :=
  .cancelOrder order.orderId reason (some order.symbol)

/-- Only an order placement can succeed a resting stop; the source throws on anything else. -/
def buildProtectiveStopReplace (resting : OpenOrder) (place : Decision) (reason : String) :
    Decision :=
  match place with
  | .placeOrder intent params => .replaceOrder resting.orderId reason intent params
  | other => other

end TradingBot.TrailingTrade
