import TradingBot.Money

/-!
# The strategy contract

What a strategy reads on a tick and what it returns: the market and its
exchange filters, the account, the open orders, and the decisions, log lines
and metrics a tick answers with. Records carry the fields the modelled
functions read. A wire field that is read as a decimal is a `DecimalString`
where the program may have printed it itself and a `String` where it always
comes from outside. Clock readings and bar counts are integers.
-/

namespace TradingBot

inductive OrderSide where
  | buy
  | sell
deriving DecidableEq

def OrderSide.text : OrderSide → String
  | buy => "BUY"
  | sell => "SELL"

inductive OrderType where
  | limit
  | market
  | stopLoss
  | stopLossLimit
deriving DecidableEq

def OrderType.text : OrderType → String
  | limit => "LIMIT"
  | market => "MARKET"
  | stopLoss => "STOP_LOSS"
  | stopLossLimit => "STOP_LOSS_LIMIT"

inductive TimeInForce where
  | gtc
  | ioc
  | fok
deriving DecidableEq

inductive CandleInterval where
  | m1 | m3 | m5 | m15 | m30 | h1 | h2 | h4 | h6 | h8 | h12 | d1 | d3 | w1 | mo1
deriving DecidableEq

def CandleInterval.text : CandleInterval → String
  | m1 => "1m"
  | m3 => "3m"
  | m5 => "5m"
  | m15 => "15m"
  | m30 => "30m"
  | h1 => "1h"
  | h2 => "2h"
  | h4 => "4h"
  | h6 => "6h"
  | h8 => "8h"
  | h12 => "12h"
  | d1 => "1d"
  | d3 => "3d"
  | w1 => "1w"
  | mo1 => "1M"

/-- A value of a log context, a blocker detail or an event payload. -/
inductive DetailValue where
  | null
  | bool (b : Bool)
  | int (n : ℤ)
  | text (s : String)
  | decimal (d : DecimalString)
  | texts (ss : List String)
  | rows (rs : List (List (String × String)))
deriving DecidableEq

/-- A record of named values. -/
abbrev Detail := List (String × DetailValue)

structure Candle where
  openTimeMs : ℤ
  closeTimeMs : ℤ
  openPrice : String
  high : String
  low : String
  close : String
  volume : String
  isClosed : Bool
deriving DecidableEq

structure PercentPriceBySideFilter where
  askMultiplierUp : String
  askMultiplierDown : String
  avgPriceMins : ℤ

structure TrailingDeltaFilter where
  minTrailingBelowDelta : ℚ
  maxTrailingBelowDelta : ℚ

structure SymbolFilters where
  minNotional : String
  tickSize : String
  stepSize : String
  minQty : String
  minPrice : String
  percentPriceBySide : Option PercentPriceBySideFilter
  trailingDelta : Option TrailingDeltaFilter

structure SymbolInfo where
  symbol : String
  baseAsset : String
  quoteAsset : String
  filters : SymbolFilters

structure Balance where
  free : Decimal
  locked : Decimal
deriving DecidableEq

structure AccountSnapshot where
  balances : String → Option Balance
  readable : Bool
  deployedQuoteAcrossProfiles : Option String

structure OpenOrder where
  orderId : ℕ
  clientOrderId : String
  symbol : String
  side : OrderSide
  type : OrderType
  status : String
  price : DecimalString
  origQty : DecimalString
  executedQty : DecimalString
  stopPrice : Option DecimalString
  trailingDelta : Option ℤ
  transactTimeMs : ℤ
deriving DecidableEq

structure ProfileSnapshot where
  id : String

/-- The moving averages and oscillator of one interval, where its window was deep enough. -/
structure IndicatorSnapshot where
  sma20 : Option String
  ema20 : Option String
  rsi14 : Option String

structure MarketSnapshot where
  symbol : String
  currentPrice : String
  candlesByInterval : CandleInterval → Option (List Candle)
  indicatorsByInterval : CandleInterval → Option IndicatorSnapshot
  symbolInfo : SymbolInfo

structure OrderIntent where
  symbol : String
  side : OrderSide
  reason : String
  clientOrderId : String
  info : Detail
  overrideActionId : Option String
  deferrable : Bool
deriving DecidableEq

structure OrderParams where
  type : OrderType
  quantity : DecimalString
  price : Option DecimalString
  stopPrice : Option DecimalString
  trailingDelta : Option ℤ
  timeInForce : Option TimeInForce
deriving DecidableEq

inductive Decision where
  | noop
  | placeOrder (intent : OrderIntent) (params : OrderParams)
  | cancelOrder (orderId : ℕ) (reason : String) (symbol : Option String)
  | replaceOrder (cancelOrderId : ℕ) (reason : String) (intent : OrderIntent)
      (params : OrderParams)
  | emitEvent (eventType : String) (payload : Detail)
  | setKv (key : String) (value : DetailValue)
  | deleteKv (key : String)
deriving DecidableEq

namespace Decision

/-- The order a decision sends, whether placed on its own or in place of another. -/
def order : Decision → Option (OrderIntent × OrderParams)
  | placeOrder intent params => some (intent, params)
  | replaceOrder _ _ intent params => some (intent, params)
  | _ => none

/-- The order a decision takes off the book. -/
def cancels : Decision → Option ℕ
  | cancelOrder orderId _ _ => some orderId
  | replaceOrder cancelOrderId _ _ _ => some cancelOrderId
  | _ => none

end Decision

inductive LogLevel where
  | debug
  | info
  | warn
  | error

structure LogEntry where
  level : LogLevel
  message : String
  context : Detail

structure MetricEntry where
  name : String
  tags : List (String × String)
  value : ℕ

def log (level : LogLevel) (message : String) (context : Detail) : LogEntry :=
  { level, message, context }

def metric (name : String) (tags : List (String × String)) : MetricEntry :=
  { name, tags, value := 1 }

structure TickInput (Config State Bundle : Type) where
  nowMs : ℤ
  profile : ProfileSnapshot
  config : Config
  state : State
  market : MarketSnapshot
  account : AccountSnapshot
  openOrders : List OpenOrder
  bundle : Bundle

structure TickOutput (State : Type) where
  nextState : State
  decisions : List Decision
  logs : List LogEntry
  metrics : List MetricEntry
  overrideDeclineReason : Option String

/-! ### The operator's requests -/

structure ManualOrderRequest where
  side : OrderSide
  quantity : Option String
  quoteAmount : Option String
  price : Option String
  type : OrderType
deriving DecidableEq

inductive OverrideKind where
  | manualOrder (payload : ManualOrderRequest)
  | triggerBuy
  | triggerSell
deriving DecidableEq

structure Override where
  overrideActionId : String
  kind : OverrideKind
deriving DecidableEq

/-! ### The candle window -/

def defaultCandleWindow : ℕ := 200

/-- What one request for candles can supply. -/
def maxCandleWindow : ℕ := 999

/-- The candles a strategy is given for the lookback it asks for. -/
def resolveCandleWindow (required : Option ℕ) : ℕ :=
  let r := required.getD 0
  if r ≤ defaultCandleWindow then defaultCandleWindow
  else if r ≥ maxCandleWindow then maxCandleWindow else r

/-! ### Orders that still rest -/

/-- Statuses under which an order has left the book. -/
def terminalOrderStatuses : List String :=
  ["FILLED", "CANCELED", "REJECTED", "EXPIRED", "EXPIRED_IN_MATCH"]

def isTerminalOrderStatus (status : String) : Bool :=
  terminalOrderStatuses.contains status.toUpper

def isRestingStatus (status : String) : Bool := !isTerminalOrderStatus status

/-- Whether an order is a SELL that still holds coins on the exchange. -/
def isRestingSell (order : OpenOrder) : Bool :=
  order.side == .sell && isRestingStatus order.status

/-! ### Client order ids -/

/-- The UTF-16 code units of a text. -/
def charCodes (s : String) : List ℕ :=
  s.toList.flatMap fun c =>
    if c.toNat < 0x10000 then [c.toNat]
    else [0xD800 + (c.toNat - 0x10000) / 0x400, 0xDC00 + (c.toNat - 0x10000) % 0x400]

def djb2 (codes : List ℕ) : ℕ := codes.foldl (fun h c => (h * 33 + c) % 2 ^ 32) 5381

/-- The eight hexadecimal digits of the djb2 hash of a text. -/
def djb2Hex (s : String) : String :=
  let digits := Nat.toDigits 16 (djb2 (charCodes s))
  String.ofList (List.replicate (8 - digits.length) '0' ++ digits)

end TradingBot
