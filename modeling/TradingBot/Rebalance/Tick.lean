import TradingBot.Core.Sizing
import TradingBot.Indicators

/-!
# The rebalance strategy

A basket of symbols held at target weights. Each symbol ticks on its own: it
publishes its value to the profile's key-value store, reads there what its
siblings last published, and trades back towards its weight once its share of
the basket has drifted. The weights are the configured ones, or equal shares of
the symbols whose price rose most.
-/

namespace TradingBot.Rebalance

open Decimal Grid

/-! ### Configuration and state -/

inductive WeightMode where
  | fixed
  | momentum

structure RebalanceTarget where
  symbol : String
  weight : String

/-- Fields of the stored configuration that may be absent or of another type are optional. -/
structure RebalanceMomentum where
  lookbackCandles : Option ℤ
  topK : Option ℤ

structure RebalanceConfig where
  enabled : Bool
  weightMode : WeightMode
  momentum : RebalanceMomentum
  candleInterval : CandleInterval
  targets : List RebalanceTarget
  driftThreshold : Option String
  minTradeQuote : Option String
  basketBudgetQuote : Option String

structure RebalanceState where
  avgEntryPrice : Option DecimalString
  heldQuantity : Option DecimalString

/-- A value of the key-value store: a text, or something else with the text it shows as. -/
inductive KvValue where
  | text (s : DecimalString)
  | other (shown : String)
deriving DecidableEq

abbrev ProfileKv := List (String × KvValue)

structure RebalanceTickInput extends TickInput RebalanceConfig RebalanceState Unit where
  profileKv : ProfileKv

/-- A decimal read from a text, or the fallback where there is none to read. -/
def dec (v : Option DecimalString) (fallback : ℚ) : Decimal :=
  (v.bind (·.toDecimal)).getD (num fallback)

/-- A positive integer of the configuration, or the fallback. -/
def intField (v : Option ℤ) (fallback : ℕ) : ℕ :=
  match v with
  | none => fallback
  | some n => if 0 < n then n.toNat else fallback

/-! ### Momentum -/

/-- The trailing return over a window of candles, where it spans the lookback. -/
def momentumScore (window : List Candle) (lookbackCandles : ℕ) : Option Decimal :=
  if window.length ≤ lookbackCandles then none
  else
    match window[window.length - 1]?, window[window.length - 1 - lookbackCandles]? with
    | some last, some past =>
        match parse last.close, parse past.close with
        | some lastClose, some pastClose =>
            if pastClose.lte (num 0) || lastClose.lte (num 0) then none
            else some ((lastClose.div pastClose).sub (num 1))
        | _, _ => none
    | _, _ => none

structure MomentumEntry where
  symbol : String
  score : Decimal
deriving DecidableEq

/-- The stronger score first, then the lesser symbol by its code units. -/
def ranksBefore (a b : MomentumEntry) : Bool :=
  b.score.lt a.score ||
    (!a.score.lt b.score && decide (charCodes a.symbol < charCodes b.symbol))

/-- An equal share for a symbol among the strongest, and nothing for the others. -/
def momentumTargetWeight (self : MomentumEntry) (siblings : List MomentumEntry) (topK : ℕ) :
    Decimal :=
  let ranked := (self :: siblings).mergeSort ranksBefore
  let held := if topK < ranked.length then topK else ranked.length
  let rank := ranked.findIdx fun e => e.symbol = self.symbol
  if held ≤ rank then num 0 else (num 1).div (num held)

/-! ### One symbol's plan -/

inductive RebalanceReason where
  | disabled
  | noTarget
  | noBasketValue
  | withinDrift
  | belowMinTrade
  | noQuote
  | belowStep
  | rotateExit
  | rebalance

def RebalanceReason.text : RebalanceReason → String
  | disabled => "disabled"
  | noTarget => "no-target"
  | noBasketValue => "no-basket-value"
  | withinDrift => "within-drift"
  | belowMinTrade => "below-min-trade"
  | noQuote => "no-quote"
  | belowStep => "below-step"
  | rotateExit => "rotate-exit"
  | rebalance => "rebalance"

structure Trade where
  side : OrderSide
  quantity : DecimalString
deriving DecidableEq

structure RebalancePlan where
  ownValueQuote : DecimalString
  trade : Option Trade
  reason : RebalanceReason

structure RebalanceInput where
  currentPrice : Decimal
  heldQty : Decimal
  targetWeight : Decimal
  siblingValuesQuote : List Decimal
  driftThreshold : Decimal
  minTradeQuote : Decimal
  basketBudgetQuote : Decimal
  availableQuote : Decimal
  stepSize : Decimal
  enabled : Bool
  exitWhenZeroWeight : Bool

/-- A quantity floored to the lot; a step that is not positive leaves it whole. -/
def floorToStep (qty step : Decimal) : Decimal :=
  if step.lte (num 0) then qty else roundDown qty step

namespace RebalanceInput

variable (input : RebalanceInput)

def ownValue : Decimal := input.currentPrice.mul input.heldQty

def basketValue : Decimal := input.siblingValuesQuote.foldl (·.add ·) input.ownValue

/-- The basket with the cash it may count: free cash up to the budget's headroom. -/
def total : Decimal :=
  let headroom := (num 0).max (input.basketBudgetQuote.sub input.basketValue)
  input.basketValue.add (input.availableQuote.min headroom)

def hold (reason : RebalanceReason) : RebalancePlan :=
  { ownValueQuote := .printed input.ownValue, trade := none, reason }

def trading (side : OrderSide) (qty : Decimal) (reason : RebalanceReason) : RebalancePlan :=
  { ownValueQuote := .printed input.ownValue, trade := some ⟨side, .printed qty⟩, reason }

/-- A symbol without a weight is left alone, or sold whole where it lost its rank. -/
def planWithoutTarget : RebalancePlan :=
  if input.exitWhenZeroWeight && input.heldQty.gt (num 0) then
    if input.ownValue.lt input.minTradeQuote then input.hold .belowMinTrade
    else
      let qty := floorToStep input.heldQty input.stepSize
      if qty.lte (num 0) then input.hold .belowStep else input.trading .sell qty .rotateExit
  else input.hold .noTarget

def planBuy (delta : Decimal) : RebalancePlan :=
  let notional := delta.min input.availableQuote
  if notional.lt input.minTradeQuote then
    input.hold (if input.availableQuote.lt input.minTradeQuote then .noQuote else .belowMinTrade)
  else
    let qty := floorToStep (notional.div input.currentPrice) input.stepSize
    if qty.lte (num 0) then input.hold .belowStep else input.trading .buy qty .rebalance

def planSell (delta : Decimal) : RebalancePlan :=
  let sellNotional := delta.abs
  if sellNotional.lt input.minTradeQuote then input.hold .belowMinTrade
  else
    let wantQty := sellNotional.div input.currentPrice
    let qty := floorToStep (wantQty.min input.heldQty) input.stepSize
    if qty.lte (num 0) then input.hold .belowStep else input.trading .sell qty .rebalance

end RebalanceInput

def computeRebalance (input : RebalanceInput) : RebalancePlan :=
  if !input.enabled then input.hold .disabled
  else if input.targetWeight.lte (num 0) then input.planWithoutTarget
  else
    let total := input.total
    if total.lte (num 0) || input.currentPrice.lte (num 0) then input.hold .noBasketValue
    else
      let drift := ((input.ownValue.div total).sub input.targetWeight).abs
      if drift.lt input.driftThreshold then input.hold .withinDrift
      else
        let delta := (input.targetWeight.mul total).sub input.ownValue
        if delta.gt (num 0) then input.planBuy delta else input.planSell delta

/-! ### The key-value store -/

def kvValueTag : String := "rebalance:value:"

def kvMomentumTag : String := "rebalance:momentum:"

/-- The symbol a key of the store names under a tag. -/
def taggedSymbol (tag key : String) : Option String :=
  if tag.toList.isPrefixOf key.toList then
    some (String.ofList (key.toList.drop tag.toList.length))
  else none

/-- A stored value as a number: only texts are read. -/
def storedValue : KvValue → Decimal
  | .text s => dec (some s) 0
  | .other _ => dec none 0

/-- What an entry of the store says another symbol is worth. -/
def siblingValue (symbol : String) (entry : String × KvValue) : Option Decimal :=
  match taggedSymbol kvValueTag entry.1 with
  | none => none
  | some sibling => if sibling = symbol then none else some (storedValue entry.2)

/-- What the other symbols of the profile last published as their values. -/
def siblingValues (profileKv : ProfileKv) (symbol : String) : List Decimal :=
  profileKv.filterMap (siblingValue symbol)

/-- The finite scores the other symbols of the profile last published. -/
def siblingMomentum (profileKv : ProfileKv) (symbol : String) : List MomentumEntry :=
  profileKv.filterMap fun entry =>
    match taggedSymbol kvMomentumTag entry.1 with
    | none => none
    | some sibling =>
        if sibling = symbol then none
        else
          let score :=
            match entry.2 with
            | .text s => s.toDecimal
            | .other shown => parse shown
          match score with
          | none => none
          | some score => if score.isFinite then some ⟨sibling, score⟩ else none

/-! ### The tick -/

/-- A symbol's weight in the configured basket, or none. -/
def targetWeightFor (config : RebalanceConfig) (symbol : String) : Decimal :=
  match config.targets.find? (·.symbol = symbol) with
  | some hit => dec (some (.raw hit.weight)) 0
  | none => num 0

/-- The weight a tick aims for, with what it publishes on the way and whether it may exit. -/
structure TargetChoice where
  decisions : List Decision
  targetWeight : Decimal
  exitWhenZeroWeight : Bool

def momentumChoice (input : RebalanceTickInput) : TargetChoice :=
  let symbol := input.market.symbol
  let window := (input.market.candlesByInterval input.config.candleInterval).getD []
  let key := kvMomentumTag ++ symbol
  match momentumScore window (intField input.config.momentum.lookbackCandles 30) with
  -- too little history: the symbol leaves the ranking and holds what it has
  | none => ⟨[.deleteKv key], num 0, false⟩
  | some selfScore =>
      let published : Decision := .setKv key (.decimal (.printed selfScore))
      let siblings := siblingMomentum input.profileKv symbol
      let universeSize := input.config.targets.length
      let topK := intField input.config.momentum.topK 3
      let needed := if topK < universeSize then topK else universeSize
      if siblings.length + 1 < needed then ⟨[published], num 0, false⟩
      else ⟨[published], momentumTargetWeight ⟨symbol, selfScore⟩ siblings topK, true⟩

def targetChoice (input : RebalanceTickInput) : TargetChoice :=
  match input.config.weightMode with
  | .momentum => momentumChoice input
  | .fixed => ⟨[], targetWeightFor input.config input.market.symbol, false⟩

/-- What the plan of a tick at a price is computed from. -/
def rebalanceInput (input : RebalanceTickInput) (price : Decimal) : RebalanceInput where
  currentPrice := price
  heldQty := dec input.state.heldQuantity 0
  targetWeight := (targetChoice input).targetWeight
  siblingValuesQuote := siblingValues input.profileKv input.market.symbol
  driftThreshold := dec (input.config.driftThreshold.map .raw) (5 / 100)
  minTradeQuote := dec (input.config.minTradeQuote.map .raw) 10
  basketBudgetQuote := dec (input.config.basketBudgetQuote.map .raw) 0
  availableQuote :=
    (input.account.balances input.market.symbolInfo.quoteAsset).elim (num 0) (·.free)
  stepSize := dec (some (.raw input.market.symbolInfo.filters.stepSize)) 0
  enabled := input.config.enabled
  exitWhenZeroWeight := (targetChoice input).exitWhenZeroWeight

def rebalanceClientOrderId (profileId symbol : String) (candleCloseMs : ℤ) (side : OrderSide) :
    String :=
  "rb-" ++ djb2Hex (profileId ++ "|" ++ symbol ++ "|" ++ toString candleCloseMs ++ "|" ++
    side.text) ++ "-" ++ (match side with | .buy => "b" | .sell => "s")

def rebalanceOrder (input : RebalanceTickInput) (trade : Trade) : Decision :=
  let window := (input.market.candlesByInterval input.config.candleInterval).getD []
  let candleCloseMs := window.getLast?.elim 0 (·.closeTimeMs)
  .placeOrder
    { symbol := input.market.symbol, side := trade.side, reason := "rebalance"
      clientOrderId := rebalanceClientOrderId input.profile.id input.market.symbol candleCloseMs
        trade.side
      info := [], overrideActionId := none, deferrable := false }
    { type := .market, quantity := trade.quantity, price := none, stopPrice := none
      trailingDelta := none, timeInForce := none }

def tradeLog (input : RebalanceTickInput) (trade : Trade) : LogEntry :=
  log .info "rebalance: trading toward target"
    [("symbol", .text input.market.symbol), ("side", .text trade.side.text),
      ("quantity", .decimal trade.quantity)]

def computeTick (input : RebalanceTickInput) : Except String (TickOutput RebalanceState) := do
  let price ← newDecimal input.market.currentPrice
  let plan := computeRebalance (rebalanceInput input price)
  return {
    nextState := input.state
    decisions := (targetChoice input).decisions ++
      .setKv (kvValueTag ++ input.market.symbol) (.decimal plan.ownValueQuote) ::
        (plan.trade.map (rebalanceOrder input)).toList
    logs := (plan.trade.map (tradeLog input)).toList
    metrics := [metric "rebalance.decision"
      [("symbol", input.market.symbol), ("reason", plan.reason.text)]]
    overrideDeclineReason := none }

end TradingBot.Rebalance
