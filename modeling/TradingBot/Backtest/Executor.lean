import TradingBot.Backtest.FillModel

/-!
# The simulated exchange

The account, the book of resting orders and the record of trades a backtest
keeps. Orders are handed to the fill model when they are placed and again on
every candle of their symbol while they rest; what they commit is locked until
then. Everything the executor never writes is the `Exchange` it is built on,
and `none` stands for a call that throws.
-/

namespace TradingBot.Backtest

open InsertionMap ReservedWallet

/-- What an executor is built on. -/
structure Exchange where
  fillModel : FillModel
  symbolInfos : List SymbolInfo

/-- The symbols by name; a later entry of a name replaces an earlier one. -/
def Exchange.symbols (x : Exchange) (symbol : String) : Option SymbolInfo :=
  x.symbolInfos.reverse.find? (·.symbol = symbol)

/-- An order on the book, with what it has locked and what it has filled. -/
structure RestingOrder where
  orderId : ℕ
  symbol : String
  intent : OrderIntent
  params : OrderParams
  placedTsMs : ℤ
  reservedAsset : String
  reservedAmount : ℚ
  originalQty : ℚ
  filledQty : ℚ
  armed : Bool
deriving DecidableEq

structure BacktestTrade where
  symbol : String
  side : OrderSide
  reason : String
  price : ℚ
  qty : ℚ
  feeQuote : ℚ
  tsMs : ℤ

/-- A fill the run loop has not read yet. -/
structure DrainedFill where
  symbol : String
  side : OrderSide
  price : ℚ
  qty : ℚ

inductive Decision where
  | noop
  | placeOrder (intent : OrderIntent) (params : OrderParams)
  | cancelOrder (orderId : ℕ)
  | replaceOrder (cancelOrderId : ℕ) (intent : OrderIntent) (params : OrderParams)
  | emitEvent (eventType : String) (payload : Detail)
  | setKv (key : String) (value : Detail)
  | deleteKv (key : String)

inductive DecisionResult where
  | ok
  | refused (reason : String)
deriving DecidableEq

structure BacktestExecutor where
  balances : Wallet
  market : List (String × MarketContext)
  trades : List BacktestTrade
  events : List (String × Detail)
  kv : List (String × Detail)
  restingOrders : List RestingOrder
  pendingFills : List DrainedFill
  rejected : List (OrderSide × String)
  nextOrderId : ℕ

namespace BacktestExecutor

/-- The executor over the opening balances. -/
def create (initialBalances : List (String × ℚ)) : BacktestExecutor where
  balances := initialBalances.foldl (fun w entry => set entry.1 ⟨entry.2, 0⟩ w) []
  market := []
  trades := []
  events := []
  kv := []
  restingOrders := []
  pendingFills := []
  rejected := []
  nextOrderId := 1

/-! ### Moving funds -/

def lock (asset : String) (amount : ℚ) (ex : BacktestExecutor) : BacktestExecutor :=
  { ex with balances := adjust asset (Holding.lock amount) ex.balances }

def unlock (asset : String) (amount : ℚ) (ex : BacktestExecutor) : BacktestExecutor :=
  { ex with balances := adjust asset (Holding.unlock amount) ex.balances }

/-- As much of the desired amount as there is free. -/
def lockUpTo (asset : String) (desired : ℚ) (ex : BacktestExecutor) : ℚ × BacktestExecutor :=
  let amount := (holding ex.balances asset).lockable desired
  (amount, ex.lock asset amount)

def reject (side : OrderSide) (symbol : String) (ex : BacktestExecutor) : BacktestExecutor :=
  { ex with
    rejected :=
      if (side, symbol) ∈ ex.rejected then ex.rejected else ex.rejected ++ [(side, symbol)] }

/-- Settle a fill on the account, and record it. -/
def applyFill (side : OrderSide) (reason : String) (info : SymbolInfo) (ex : BacktestExecutor)
    (fill : Fill) : BacktestExecutor :=
  let balances :=
    match side with
    | .buy =>
        adjust info.baseAsset (Holding.credit fill.qty)
          (adjust info.quoteAsset (Holding.credit (-(fill.notional + fill.fee))) ex.balances)
    | .sell =>
        adjust info.quoteAsset (Holding.credit (fill.notional - fill.fee))
          (adjust info.baseAsset (Holding.credit (-fill.qty)) ex.balances)
  { ex with
    balances
    trades := ex.trades ++ [⟨info.symbol, side, reason, fill.price, fill.qty, fill.fee, fill.tsMs⟩]
    pendingFills := ex.pendingFills ++ [⟨info.symbol, side, fill.price, fill.qty⟩] }

def applyFills (side : OrderSide) (reason : String) (info : SymbolInfo) (fills : List Fill)
    (ex : BacktestExecutor) : BacktestExecutor :=
  fills.foldl (applyFill side reason info) ex

/-! ### Placing and cancelling -/

/-- Hold an order on the book, with what it commits locked. -/
def rest (x : Exchange) (intent : OrderIntent) (params : OrderParams) (placedTsMs : ℤ)
    (info : SymbolInfo) (ex : BacktestExecutor) : Option BacktestExecutor := do
  let reservation ← x.fillModel.reserve intent params info
  let (reservedAmount, locked) := ex.lockUpTo reservation.asset reservation.amount
  return { locked with
    restingOrders := ex.restingOrders ++
      [{ orderId := ex.nextOrderId
         symbol := intent.symbol
         intent
         params
         placedTsMs
         reservedAsset := reservation.asset
         reservedAmount
         originalQty := params.quantity
         filledQty := 0
         armed := false }]
    nextOrderId := ex.nextOrderId + 1 }

def placeOrder (x : Exchange) (nowMs : ℤ) (intent : OrderIntent) (params : OrderParams)
    (ex : BacktestExecutor) : Option (BacktestExecutor × DecisionResult) :=
  match x.symbols intent.symbol with
  | none => some (ex, .refused s!"unknown symbol {intent.symbol}")
  | some info =>
      match get intent.symbol ex.market with
      | none => some (ex, .refused s!"no market context for {intent.symbol}")
      | some market => do
          let outcome ← x.fillModel.fill
            { intent, params, market, account := ex.balances, symbolInfo := info, nowMs
              phase := .place, armed := false }
          match outcome with
          | .rest _ => return (← ex.rest x intent params nowMs info, .ok)
          | .rejected _ => return (ex.reject intent.side intent.symbol, .ok)
          | .filled fills | .partialFill fills _ =>
              return (ex.applyFills intent.side intent.reason info fills, .ok)

/-- Take an order off the book and release what it has locked. -/
def cancel (orderId : ℕ) (ex : BacktestExecutor) : BacktestExecutor :=
  let released :=
    match ex.restingOrders.find? (·.orderId = orderId) with
    | none => ex
    | some cancelled => ex.unlock cancelled.reservedAsset cancelled.reservedAmount
  { released with restingOrders := ex.restingOrders.filter (·.orderId ≠ orderId) }

def eventRingCap : ℕ := 1000

def apply (x : Exchange) (nowMs : ℤ) (decision : Decision) (ex : BacktestExecutor) :
    Option (BacktestExecutor × DecisionResult) :=
  match decision with
  | .noop => some (ex, .ok)
  | .cancelOrder orderId => some (ex.cancel orderId, .ok)
  | .replaceOrder cancelOrderId intent params =>
      match ex.restingOrders.find? (·.orderId = cancelOrderId) with
      | none => (ex.cancel cancelOrderId).placeOrder x nowMs intent params
      | some cancelled =>
          if cancelled.symbol ≠ intent.symbol then
            some (ex, .refused (s!"replace-order: order {cancelOrderId} rests on " ++
              s!"{cancelled.symbol}, not {intent.symbol}"))
          else (ex.cancel cancelOrderId).placeOrder x nowMs intent params
  | .emitEvent eventType payload =>
      let events := if ex.events.length ≥ eventRingCap then ex.events.tail else ex.events
      some ({ ex with events := events ++ [(eventType, payload)] }, .ok)
  | .setKv key value => some ({ ex with kv := set key value ex.kv }, .ok)
  | .deleteKv key => some ({ ex with kv := delete key ex.kv }, .ok)
  | .placeOrder intent params => ex.placeOrder x nowMs intent params

/-! ### Candles -/

/-- What became of a resting order on a candle: the executor, what stays of it, the outcome. -/
structure Evaluated where
  executor : BacktestExecutor
  kept : Option RestingOrder
  outcome : FillOutcome

def evaluateOrder (x : Exchange) (ctx : MarketContext) (info : SymbolInfo) (symbol : String)
    (ord : RestingOrder) (ex : BacktestExecutor) : Option Evaluated := do
  let released := ex.unlock ord.reservedAsset ord.reservedAmount
  let outcome ← x.fillModel.fill
    { intent := ord.intent, params := ord.params, market := ctx, account := released.balances
      symbolInfo := info, nowMs := ctx.lastCandle.closeTimeMs, phase := .resting
      armed := ord.armed }
  match outcome with
  | .rest armed =>
      return { executor := (released.lockUpTo ord.reservedAsset ord.reservedAmount).2
               kept := some { ord with armed := ord.armed || armed }
               outcome }
  | .rejected _ =>
      return { executor := released.reject ord.intent.side symbol, kept := none, outcome }
  | .filled fills =>
      return { executor := released.applyFills ord.intent.side ord.intent.reason info fills
               kept := none
               outcome }
  | .partialFill fills remainingQty =>
      let settled := released.applyFills ord.intent.side ord.intent.reason info fills
      let params := { ord.params with quantity := remainingQty }
      let reservation ← x.fillModel.reserve ord.intent params info
      let (reservedAmount, locked) := settled.lockUpTo reservation.asset reservation.amount
      return { executor := locked
               kept := some { ord with
                 params
                 reservedAsset := reservation.asset
                 reservedAmount
                 filledQty := ord.filledQty + (fills.map Fill.qty).sum
                 armed := ord.armed || ord.params.type = .stopLossLimit }
               outcome }

/-- What a pass over the book leaves, with the outcome of every order it evaluated. -/
structure BookPass where
  executor : BacktestExecutor
  next : List RestingOrder
  outcomes : List (RestingOrder × FillOutcome)

/-- The orders of one symbol in turn, each on the account the ones before it left. -/
def evaluateBook (x : Exchange) (ctx : MarketContext) (info : SymbolInfo) (symbol : String) :
    List RestingOrder → BacktestExecutor → Option BookPass
  | [], ex => some ⟨ex, [], []⟩
  | ord :: rest, ex =>
      if ord.symbol ≠ symbol then do
        let pass ← evaluateBook x ctx info symbol rest ex
        return { pass with next := ord :: pass.next }
      else do
        let done ← ex.evaluateOrder x ctx info symbol ord
        let pass ← evaluateBook x ctx info symbol rest done.executor
        return { executor := pass.executor
                 next := done.kept.toList ++ pass.next
                 outcomes := (ord, done.outcome) :: pass.outcomes }

/-- The pass over the book on a candle of the symbol. -/
def evaluateResting (x : Exchange) (symbol : String) (ex : BacktestExecutor) : Option BookPass :=
  match get symbol ex.market, x.symbols symbol with
  | some ctx, some info =>
      if ex.restingOrders.any (·.symbol = symbol) then
        evaluateBook x ctx info symbol ex.restingOrders ex
      else some ⟨ex, ex.restingOrders, []⟩
  | _, _ => some ⟨ex, ex.restingOrders, []⟩

/-- The candle is the symbol's market, and its resting orders meet it. -/
def meetCandle (x : Exchange) (symbol : String) (ctx : MarketContext) (ex : BacktestExecutor) :
    Option BookPass :=
  evaluateResting x symbol { ex with market := set symbol ctx ex.market }

def setMarketContext (x : Exchange) (symbol : String) (ctx : MarketContext)
    (ex : BacktestExecutor) : Option BacktestExecutor :=
  (ex.meetCandle x symbol ctx).map fun pass => { pass.executor with restingOrders := pass.next }

/-! ### Reading the executor -/

/-- Remove and return the fills of one symbol. -/
def drainFills (symbol : String) (ex : BacktestExecutor) : List DrainedFill × BacktestExecutor :=
  (ex.pendingFills.filter (·.symbol = symbol),
    { ex with pendingFills := ex.pendingFills.filter (·.symbol ≠ symbol) })

/-- Whether an order of the symbol and side was refused, clearing the flag. -/
def drainRejected (symbol : String) (side : OrderSide) (ex : BacktestExecutor) :
    Bool × BacktestExecutor :=
  (decide ((side, symbol) ∈ ex.rejected),
    { ex with rejected := ex.rejected.filter (· ≠ (side, symbol)) })

/-- The orders of one symbol, as a strategy reads them. -/
def openOrders (symbol : String) (ex : BacktestExecutor) : List RestingOrder :=
  ex.restingOrders.filter (·.symbol = symbol)

def markPriceForBase (base quoteAsset : String) (ex : BacktestExecutor) : Option ℚ :=
  (get (base ++ quoteAsset) ex.market).map (·.lastPrice)

/-- What an asset adds to the equity. -/
def worthInQuote (quoteAsset : String) (ex : BacktestExecutor) (entry : String × Holding ℚ) : ℚ :=
  if entry.1 = quoteAsset then entry.2.total
  else (ex.markPriceForBase entry.1 quoteAsset).elim 0 (entry.2.total * ·)

def equityInQuote (quoteAsset : String) (ex : BacktestExecutor) : ℚ :=
  (ex.balances.map (ex.worthInQuote quoteAsset)).sum

end BacktestExecutor

end TradingBot.Backtest
