import TradingBot.Core.Contract
import TradingBot.Lib.ReservedWallet

/-!
# Fill models of the backtest

How the simulated exchange prices, sizes and refuses an order: the candle
granularity model with fees, slippage, spread and a volume cap, and the
frictionless one. The decimal texts of the wire are the rationals they denote
here, and `none` stands for a call that throws.
-/

namespace TradingBot.Backtest

open Grid ReservedWallet

/-! ### What a fill model reads -/

structure Candle where
  openTimeMs : ℤ
  closeTimeMs : ℤ
  openPrice : ℚ
  high : ℚ
  low : ℚ
  close : ℚ
  volume : ℚ
deriving DecidableEq

structure SymbolFilters where
  tickSize : ℚ
  stepSize : ℚ
  minQty : ℚ
  minNotional : ℚ
deriving DecidableEq

structure SymbolInfo where
  symbol : String
  baseAsset : String
  quoteAsset : String
  filters : SymbolFilters
deriving DecidableEq

structure OrderParams where
  type : OrderType
  quantity : ℚ
  price : Option ℚ
  stopPrice : Option ℚ
  timeInForce : Option TimeInForce
deriving DecidableEq

structure MarketContext where
  lastPrice : ℚ
  lastCandle : Candle
  detailCandles : Option (List Candle)

/-- The balances of the account, by asset. -/
abbrev Wallet := List (String × Holding ℚ)

inductive FillPhase where
  | place
  | resting

structure FillInput where
  intent : OrderIntent
  params : OrderParams
  market : MarketContext
  account : Wallet
  symbolInfo : SymbolInfo
  nowMs : ℤ
  phase : FillPhase
  armed : Bool

structure Fill where
  price : ℚ
  qty : ℚ
  feeBps : ℚ
  tsMs : ℤ
deriving DecidableEq

inductive FillRejectReason where
  | minNotional
  | stepSize
  | insufficientBalance
  | liquidity
  | noFill
deriving DecidableEq

inductive FillOutcome where
  | filled (fills : List Fill)
  | partialFill (fills : List Fill) (remainingQty : ℚ)
  | rejected (reason : FillRejectReason)
  | rest (armed : Bool)
deriving DecidableEq

/-- What an order locks while it rests. -/
structure FillReservation where
  asset : String
  amount : ℚ

structure FillModel where
  fill : FillInput → Option FillOutcome
  reserve : OrderIntent → OrderParams → SymbolInfo → Option FillReservation

/-- What a fill is worth before its fee. -/
def Fill.notional (fill : Fill) : ℚ := fill.price * fill.qty

def Fill.fee (fill : Fill) : ℚ := fill.notional * fill.feeBps / 10000

/-! ### Quantising

The source throws where the unit is not positive. -/

def roundToStep (value step : ℚ) : Option ℚ := if step ≤ 0 then none else some (floorTo step value)

def roundToTick (price tickSize : ℚ) : Option ℚ :=
  if tickSize ≤ 0 then none else some (floorTo tickSize price)

def meetsMinNotional (quantity price minNotional : ℚ) : Bool := minNotional ≤ quantity * price

/-! ### The candle granularity model -/

structure OhlcvFillModelOptions where
  makerBps : ℚ
  takerBps : ℚ
  slippageBps : ℚ
  spreadBps : ℚ
  volumeCapPct : Option ℚ

/-- A bar trades through the limit, rather than only touching it. -/
def crossesLimit (side : OrderSide) (limit : ℚ) (bar : Candle) : Bool :=
  match side with
  | .buy => bar.low < limit
  | .sell => limit < bar.high

def firstCrossBar (side : OrderSide) (limit : ℚ) (bars : List Candle) : Option Candle :=
  bars.find? (crossesLimit side limit)

def reachesStop (side : OrderSide) (stop : ℚ) (bar : Candle) : Bool :=
  match side with
  | .sell => bar.low ≤ stop
  | .buy => stop ≤ bar.high

def firstStopBar (side : OrderSide) (stop : ℚ) (bars : List Candle) : Option Candle :=
  bars.find? (reachesStop side stop)

/-- The stop, or the open of a bar that gapped past it. -/
def stopTrigger (side : OrderSide) (stop : ℚ) (bar : Candle) : ℚ :=
  match side with
  | .sell => min stop bar.openPrice
  | .buy => max stop bar.openPrice

/-- The trigger is still on the right side of the limit. -/
def isMarketable (side : OrderSide) (trigger limit : ℚ) : Bool :=
  match side with
  | .sell => limit ≤ trigger
  | .buy => trigger ≤ limit

/-- Where an order executes: its price, its fee and the bar that filled it. -/
structure Priced where
  price : ℚ
  feeBps : ℚ
  bar : Candle

inductive FillPrice where
  | priced (fill : Priced)
  | armed
  | uncrossed

namespace OhlcvFillModelOptions

variable (opts : OhlcvFillModelOptions)

def slippageFactor : OrderSide → ℚ
  | .buy => 1 + opts.slippageBps / 10000
  | .sell => 1 - opts.slippageBps / 10000

def spreadFactor : OrderSide → ℚ
  | .buy => 1 + opts.spreadBps / 10000 / 2
  | .sell => 1 - opts.spreadBps / 10000 / 2

/-- The most a fill can cost locks a buy; a sell locks what it will deliver. -/
def reserve (intent : OrderIntent) (params : OrderParams) (symbolInfo : SymbolInfo) :
    Option FillReservation :=
  if params.type = .stopLoss then none
  else
    match intent.side with
    | .sell => some ⟨symbolInfo.baseAsset, params.quantity⟩
    | .buy =>
        let price := ((params.price.or params.stopPrice).getD 0) * opts.spreadFactor .buy
        let notional := price * params.quantity
        let feeBps := if params.type = .limit then opts.makerBps else opts.takerBps
        some ⟨symbolInfo.quoteAsset, notional + notional * feeBps / 10000⟩

/-- The fill of a resting limit the first time a bar trades through it. -/
def limitFill (side : OrderSide) (limit feeBps : ℚ) (bars : List Candle) : Option Priced :=
  (firstCrossBar side limit bars).map fun bar => ⟨limit * opts.spreadFactor side, feeBps, bar⟩

/-- The fill of a stop-limit whose stop was reached while its limit is still marketable. -/
def triggerPrice (side : OrderSide) (trigger limit : ℚ) : ℚ :=
  let raw := trigger * opts.slippageFactor side * opts.spreadFactor side
  let floor := limit * opts.spreadFactor side
  match side with
  | .sell => max floor raw
  | .buy => min floor raw

def resolveFillPrice (side : OrderSide) (params : OrderParams) (bars : List Candle) (tick : ℚ)
    (armed : Bool) : Option FillPrice :=
  match params.type with
  | .market =>
      match bars.head? with
      | none => some .uncrossed
      | some bar =>
          if bar.openPrice ≤ 0 then some .uncrossed
          else
            let price := bar.openPrice * opts.slippageFactor side * opts.spreadFactor side
            some (.priced ⟨price, opts.takerBps, bar⟩)
  | .limit => do
      let limit ← roundToTick (params.price.getD 0) tick
      if limit ≤ 0 then return .uncrossed
      return (opts.limitFill side limit opts.makerBps bars).elim .uncrossed .priced
  | _ => do
      let stop ← roundToTick ((params.stopPrice.or params.price).getD 0) tick
      let limit ← roundToTick ((params.price.or params.stopPrice).getD 0) tick
      if stop ≤ 0 ∨ limit ≤ 0 then return .uncrossed
      if armed then
        return (opts.limitFill side limit opts.takerBps bars).elim .armed .priced
      match firstStopBar side stop bars with
      | none => return .uncrossed
      | some armBar =>
          let trigger := stopTrigger side stop armBar
          if isMarketable side trigger limit then
            return .priced ⟨opts.triggerPrice side trigger limit, opts.takerBps, armBar⟩
          -- the bars from the arming one on
          let later := bars.dropWhile fun bar => !reachesStop side stop bar
          return (opts.limitFill side limit opts.takerBps later).elim .armed .priced

/-- Shrink a quantity to the bar's share of volume. -/
def volumeCapped (qty : ℚ) (bar : Candle) (step : ℚ) : Option ℚ :=
  match opts.volumeCapPct with
  | none => some qty
  | some pct => do
      let cap ← roundToStep (bar.volume * pct / 100) step
      return min qty cap

end OhlcvFillModelOptions

/-- Whether the balance covers the order at its own price. -/
def canFundAtOrderPrice (side : OrderSide) (qty : ℚ) (params : OrderParams) (fillPrice feeBps : ℚ)
    (account : Wallet) (symbolInfo : SymbolInfo) : Bool :=
  match side with
  | .sell => qty ≤ (holding account symbolInfo.baseAsset).free
  | .buy =>
      let refPrice := (params.price.or params.stopPrice).getD fillPrice
      let cost := refPrice * qty * (1 + feeBps / 10000)
      cost ≤ (holding account symbolInfo.quoteAsset).free

/-- What the account can transact of the requested quantity. -/
def affordableQty (side : OrderSide) (requestedQty price feeBps : ℚ) (account : Wallet)
    (symbolInfo : SymbolInfo) (step : ℚ) : Option ℚ :=
  match side with
  | .buy =>
      let unitCost := price * (1 + feeBps / 10000)
      if unitCost ≤ 0 then some 0
      else do
        let maxByBalance ←
          roundToStep ((holding account symbolInfo.quoteAsset).free / unitCost) step
        return min requestedQty maxByBalance
  | .sell => do
      let held ← roundToStep (holding account symbolInfo.baseAsset).free step
      return min requestedQty held

namespace OhlcvFillModelOptions

variable (opts : OhlcvFillModelOptions)

/-- Size an order that crossed at a price: refused, filled, or filled in part. -/
def settle (input : FillInput) (requestedQty step : ℚ) (priced : Priced) : Option FillOutcome := do
  let side := input.intent.side
  let filters := input.symbolInfo.filters
  if !canFundAtOrderPrice side requestedQty input.params priced.price priced.feeBps input.account
      input.symbolInfo then
    return .rejected .insufficientBalance
  let affordable ← affordableQty side requestedQty priced.price priced.feeBps input.account
    input.symbolInfo step
  if affordable ≤ 0 then return .rejected .insufficientBalance
  let fillable ← opts.volumeCapped affordable priced.bar step
  let capBit : Bool := fillable < affordable
  if fillable ≤ 0 then return .rejected .liquidity
  if fillable < filters.minQty then
    return .rejected (if capBit then .liquidity else .stepSize)
  if !meetsMinNotional fillable priced.price filters.minNotional then
    return .rejected (if capBit then .liquidity else .minNotional)
  let fill : Fill := ⟨priced.price, fillable, priced.feeBps, input.nowMs⟩
  if fillable < requestedQty then return .partialFill [fill] (requestedQty - fillable)
  return .filled [fill]

def fill (input : FillInput) : Option FillOutcome :=
  if input.params.type = .stopLoss then none
  else
    match input.phase with
    | .place => some (.rest false)
    | .resting => do
        let filters := input.symbolInfo.filters
        let requestedQty ← roundToStep input.params.quantity filters.stepSize
        if requestedQty ≤ 0 then return .rejected .stepSize
        let bars :=
          match input.market.detailCandles with
          | some (bar :: rest) => bar :: rest
          | _ => [input.market.lastCandle]
        let price ← opts.resolveFillPrice input.intent.side input.params bars filters.tickSize
          input.armed
        match price with
        | .uncrossed => return .rest false
        | .armed => return .rest true
        | .priced priced => opts.settle input requestedQty filters.stepSize priced

end OhlcvFillModelOptions

def ohlcvFillModel (opts : OhlcvFillModelOptions) : FillModel where
  fill := opts.fill
  reserve := opts.reserve

/-! ### The frictionless model -/

def idealPrice (input : FillInput) : ℚ :=
  match input.params.type with
  | .market => input.market.lastPrice
  | _ => input.params.price.getD 0

/-- The account holds what the order takes at the price. -/
def idealFunded (input : FillInput) (qty price : ℚ) : Bool :=
  match input.intent.side with
  | .buy => qty * price ≤ (holding input.account input.symbolInfo.quoteAsset).free
  | .sell => qty ≤ (holding input.account input.symbolInfo.baseAsset).free

def idealFill (input : FillInput) : Option FillOutcome :=
  let qty := input.params.quantity
  let price := idealPrice input
  if qty ≤ 0 ∨ price ≤ 0 then some (.rejected .noFill)
  else if idealFunded input qty price then some (.filled [⟨price, qty, 0, input.nowMs⟩])
  else some (.rejected .insufficientBalance)

def idealReserve (intent : OrderIntent) (params : OrderParams) (symbolInfo : SymbolInfo) :
    Option FillReservation :=
  match intent.side with
  | .sell => some ⟨symbolInfo.baseAsset, params.quantity⟩
  | .buy => some ⟨symbolInfo.quoteAsset, params.price.getD 0 * params.quantity⟩

def idealFillModel : FillModel where
  fill := idealFill
  reserve := idealReserve

end TradingBot.Backtest
