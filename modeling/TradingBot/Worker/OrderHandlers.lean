import TradingBot.Core.Contract

/-!
# Taking an order off the book

The two executor handlers that retire an order: a cancel, and a replacement
that cancels and places in one request. The exchange is its answers: to the
cancel, to the replacement, to the probe that asks what became of an order and
to the bare placement that repairs a half-done replacement. A handler is its
result and what it does to the worker's own records, in order. The two routines
that follow an accepted or a lost placement are parameters.
-/

namespace TradingBot.Worker

open Decimal

/-! ### What the exchange answers -/

/-- The exchange's record of an order, as the parsed body has it: nothing about it is validated. -/
structure OrderBody where
  status : Option String
  executedQty : Option String
  transactTime : Option ℤ
  updateTime : Option ℤ

/-- Whether the exchange provably refused a request, or may have executed it. -/
inductive BinanceCallPhase where
  | rejected
  | ambiguous
deriving DecidableEq

structure BinanceApiError where
  status : ℤ
  code : ℤ
  msg : String
  message : String
  phase : BinanceCallPhase
  cancelLegCode : Option ℤ
  cancelLeg : Option OrderBody

inductive ExchangeError where
  | api (err : BinanceApiError)
  | orderBudget (windowMs waitMs : ℤ)
  | transport (message : String)

def maxReserveWaitMs : ℤ := 60000

def ExchangeError.errorMessage : ExchangeError → String
  | .api err => err.message
  | .orderBudget windowMs waitMs =>
      "OrderRateGovernor: " ++ toString windowMs ++ "ms window is saturated for another " ++
        toString waitMs ++ "ms, which exceeds the " ++ toString maxReserveWaitMs ++
        "ms reserve ceiling"
  | .transport message => message

structure PlaceOrderDto where
  orderId : ℕ
  clientOrderId : String
  status : Option String

/-- Both legs of a replacement. A leg that is null or an error shape has no status or order id. -/
structure CancelReplaceDto where
  cancelResult : Option String
  newOrderResult : Option String
  cancelResponse : Option OrderBody
  newOrderResponse : Option PlaceOrderDto

/-! ### What a handler does -/

inductive DecisionPhase where
  | preCall
  | rejected
  | ambiguous
  | accepted
deriving DecidableEq

def BinanceCallPhase.ofCall : BinanceCallPhase → DecisionPhase
  | rejected => .rejected
  | ambiguous => .ambiguous

inductive DecisionResult where
  | ok
  | failed (retryable : Bool) (phase : DecisionPhase) (deferred : Bool) (reason : String)
deriving DecidableEq

inductive SymbolReconcileCause where
  | cancel2011Fill
  | replaceOrderFailed

/-- A write to the worker's own records. -/
inductive Effect where
  | recordWeight
  | markReleased (asset : String) (amount : Option DecimalString)
  | markUnresolved (symbol : String) (intent : Option String)
  | closeOrder (orderId : ℕ) (status : Option String) (closedAtMs : Option ℤ)
      (raw : Option OrderBody)
  | evictOpenOrder (symbol : String) (orderId : ℕ)
  | emitOrders (orderId : ℕ) (status : Option String) (reason : String)
  | enqueueReconcile (symbol : String) (cause : SymbolReconcileCause)
  | emergencyNotify (topic symbol : String)
  | registerOwner (clientOrderId : String)
  | forgetPlacements (symbol : String)
  | persistOrder (order : PlaceOrderDto)
  | persistTracking (orderId : ℕ) (clientOrderId status : String)
  | recordPlacement (clientOrderId symbol : String)
  | cacheOpenOrder (symbol : String) (orderId : ℕ)
  | emitPlaced (orderId : ℕ) (clientOrderId status : String)
  | recordBookkeepingFailure (symbol : String) (orderId : ℕ) (message : String)

structure Handled where
  result : DecisionResult
  effects : List Effect

def Handled.after (effects : List Effect) (handled : Handled) : Handled :=
  { handled with effects := effects ++ handled.effects }

/-! ### Errors -/

structure ClassifiedError where
  result : DecisionResult
  emergency : Bool

def transientCodes : List ℤ := [-1003, -1006, -1007, -1015]

def logicCodes : List ℤ := [-1013, -2010, -2011]

def classifyBinanceError (err : BinanceApiError) : ClassifiedError :=
  let refuse := fun (retryable : Bool) (kind : String) (emergency : Bool) =>
    { result := .failed retryable err.phase.ofCall false ("binance " ++ kind ++ ": " ++ err.message)
      emergency : ClassifiedError }
  -- a duplicate client order id is the retry of an order that is already there
  if err.code = -2026 then { result := .ok, emergency := false }
  else if err.code ∈ transientCodes ∨ (500 ≤ err.status ∧ err.status < 600) ∨ err.status = 429 then
    refuse true ("transient " ++ toString err.code) false
  else if err.code = -1021 then refuse false ("recvWindow " ++ toString err.code) false
  else if err.code ∈ logicCodes then refuse false ("logic " ++ toString err.code) false
  else if err.code ≤ -1100 ∧ -1199 ≤ err.code then
    refuse false ("illegal " ++ toString err.code) true
  else refuse false ("unknown " ++ toString err.status ++ "/" ++ toString err.code) false

/-! ### Cancelling -/

/-- The order actually moved base; a text that is no number moved nothing. -/
def executedSomething (executedQty : Option String) : Bool :=
  (executedQty.bind parse).any (·.gt (num 0))

/-- What the local row says of an order: its live slot, and what it is holding. -/
structure OrderSlot where
  symbol : String
  intent : String
  side : Option OrderSide
  remainingQty : Option String
  price : Option String

structure CancelDecision where
  orderId : ℕ
  reason : String
  symbol : Option String

/-- The worker's side of a cancel. -/
structure CancelContext where
  nowMs : ℤ
  quoteAsset : String
  slot : Option OrderSlot

def baseAssetOf (symbol quoteAsset : String) : Option String :=
  if quoteAsset.isEmpty || !symbol.endsWith quoteAsset then none
  else
    let base := (symbol.dropEnd quoteAsset.length).toString
    if base.isEmpty then none else some base

def isPlainDecimalString (s : String) : Bool :=
  let unsigned := if s.startsWith "-" then s.toList.tail else s.toList
  let whole := unsigned.takeWhile Char.isDigit
  match unsigned.dropWhile Char.isDigit with
  | [] => !whole.isEmpty
  | '.' :: fraction => fraction.all Char.isDigit && !(whole.isEmpty && fraction.isEmpty)
  | _ => false

/-- The quote a cancelled buy hands back: what is left of it, at the price it rested at. -/
def quoteReleased (remainingQty price : Option String) : Option DecimalString :=
  match remainingQty, price with
  | some remainingQty, some price =>
      if isPlainDecimalString remainingQty && isPlainDecimalString price then
        match parse remainingQty, parse price with
        | some quantity, some price => some (.printed (quantity.mul price))
        | _, _ => none
      else none
  | _, _ => none

/-- Credit what the order was holding; without a readable row, an unknown amount of either. -/
def markReleased (ctx : CancelContext) (symbol : String) : List Effect :=
  let base := baseAssetOf symbol ctx.quoteAsset
  match ctx.slot.bind (·.side) with
  | none => .markReleased ctx.quoteAsset none :: (base.map (.markReleased · none)).toList
  | some .buy =>
      [.markReleased ctx.quoteAsset (quoteReleased (ctx.slot.bind (·.remainingQty))
        (ctx.slot.bind (·.price)))]
  | some .sell =>
      (base.map (.markReleased · ((ctx.slot.bind (·.remainingQty)).map .raw))).toList

/-- The close of the local row and what the operator and the cache see of it. -/
def closeCancelled (decision : CancelDecision) (symbol : String) (status : Option String)
    (closedAtMs : Option ℤ) (raw : Option OrderBody) : List Effect :=
  [.closeOrder decision.orderId status closedAtMs raw, .evictOpenOrder symbol decision.orderId,
    .emitOrders decision.orderId status decision.reason]

/-- The status is one of an order that has left the book. -/
def OrderBody.isTerminal (order : OrderBody) : Bool := order.status.any isTerminalOrderStatus

/-- The cancel was refused because the order is not on the book: ask what became of it. -/
def cancelProbed (ctx : CancelContext) (decision : CancelDecision) (symbol : String) :
    Except ExchangeError OrderBody → Handled
  | .ok order =>
      if order.isTerminal then
        { result := .ok
          effects :=
            [.recordWeight, .recordWeight] ++
              (if executedSomething order.executedQty then
                [.enqueueReconcile symbol .cancel2011Fill]
              else []) ++
              markReleased ctx symbol ++
              closeCancelled decision symbol order.status order.updateTime (some order) }
      else
        { result := .ok
          effects := [.recordWeight, .recordWeight] ++ markReleased ctx symbol ++
            closeCancelled decision symbol (some "CANCELED") (some ctx.nowMs) none }
  | .error _ =>
      { result := .ok
        effects := [.recordWeight] ++ markReleased ctx symbol ++
          closeCancelled decision symbol (some "CANCELED") (some ctx.nowMs) none }

/-- The symbol a cancel goes out on, if the decision or the local row knows one. -/
def cancelSymbol (ctx : CancelContext) (decision : CancelDecision) : Option String :=
  (decision.symbol.or (ctx.slot.map (·.symbol))).filter (· ≠ "")

def cancelOrderHandler (ctx : CancelContext) (decision : CancelDecision)
    (answer probe : Except ExchangeError OrderBody) : Handled :=
  match cancelSymbol ctx decision with
  | none =>
      ⟨.failed false .preCall false
        ("order " ++ toString decision.orderId ++ " not found locally"), []⟩
  | some symbol =>
      match answer with
      | .ok dto =>
          ⟨.ok, .recordWeight :: markReleased ctx symbol ++
            closeCancelled decision symbol dto.status dto.transactTime none⟩
      | .error (.api err) =>
          if err.code = -2011 then cancelProbed ctx decision symbol probe
          else
            ⟨(classifyBinanceError err).result,
              [.recordWeight, .markUnresolved symbol (ctx.slot.map (·.intent))]⟩
      | .error err =>
          ⟨.failed true .ambiguous false ("cancel failed: " ++ err.errorMessage),
            [.recordWeight, .markUnresolved symbol (ctx.slot.map (·.intent))]⟩

/-! ### Replacing -/

structure ReplaceDecision where
  cancelOrderId : ℕ
  reason : String
  intent : OrderIntent
  params : OrderParams

/-- The worker's side of a replacement, with the routines that follow up a placement. -/
structure ReplaceContext where
  nowMs : ℤ
  slot : Option OrderSlot
  weight : ℕ
  weightLimit1m : ℕ
  recordPlacedOrder : OrderIntent → OrderParams → PlaceOrderDto → Handled
  resolveAmbiguousPlacement : OrderIntent → OrderParams → ExchangeError → Handled

/-- What the exchange answers to the replacement, to the probe and to the bare placement. -/
structure ReplaceAnswers where
  replace : Except ExchangeError CancelReplaceDto
  probe : Except ExchangeError OrderBody
  place : Except ExchangeError PlaceOrderDto

/-- The exchange's own record of the retired order; its clock has two spellings. -/
structure RetiredLeg where
  status : String
  atMs : Option ℤ
  executedQty : Option String
  raw : OrderBody

/-- A body is a record of an order when it carries a status. -/
def asRetiredLeg (body : OrderBody) : Option RetiredLeg :=
  body.status.map fun status =>
    { status, atMs := body.transactTime.or body.updateTime, executedQty := body.executedQty
      raw := body }

section Replace

variable (ctx : ReplaceContext) (decision : ReplaceDecision) (answers : ReplaceAnswers)

/-- Everything that must happen once the resting leg is gone: its body always reaches the row, its
status only when terminal, and a leg that moved base owes a reconcile. -/
def reportCancelledLeg (leg : Option RetiredLeg) : List Effect :=
  let adopted := leg.filter fun leg => isTerminalOrderStatus leg.status
  let status := (adopted.map (·.status)).getD "CANCELED"
  [.evictOpenOrder decision.intent.symbol decision.cancelOrderId,
    .closeOrder decision.cancelOrderId (some status)
      (some ((adopted.bind (·.atMs)).getD ctx.nowMs)) (leg.map (·.raw)),
    .emitOrders decision.cancelOrderId (some status) decision.reason] ++
    (if leg.any fun leg => executedSomething leg.executedQty then
      [.enqueueReconcile decision.intent.symbol .cancel2011Fill]
    else [])

def replaceUnresolved : List Effect :=
  [.markUnresolved decision.intent.symbol (ctx.slot.map (·.intent)),
    .enqueueReconcile decision.intent.symbol .replaceOrderFailed]

def notifyClassifiedEmergency (classified : ClassifiedError) : List Effect :=
  if classified.emergency then [.emergencyNotify "binance-emergency" decision.intent.symbol] else []

/-- The bare placement of the successor failed as well: the position is naked. -/
def rePlaceFailed (retiredBy : String) : ExchangeError → Handled
  | .orderBudget windowMs _ =>
      ⟨.failed true .preCall false
        ("cancelReplace: naked after " ++ retiredBy ++ ", order budget exhausted window=" ++
          toString windowMs ++ "ms"),
        [.recordWeight, .enqueueReconcile decision.intent.symbol .replaceOrderFailed]⟩
  | .transport message =>
      (ctx.resolveAmbiguousPlacement decision.intent decision.params (.transport message)).after
        [.recordWeight, .enqueueReconcile decision.intent.symbol .replaceOrderFailed]
  | .api err =>
      let classified := classifyBinanceError err
      let effects := .recordWeight :: notifyClassifiedEmergency decision classified ++
        [.enqueueReconcile decision.intent.symbol .replaceOrderFailed]
      match classified.result with
      | .ok =>
          ⟨.failed false .accepted false
            ("cancelReplace: naked after " ++ retiredBy ++ ", re-place reported an existing order"),
            effects⟩
      | .failed retryable phase deferred reason =>
          ⟨.failed retryable phase deferred
            ("cancelReplace: naked after " ++ retiredBy ++ ", re-place failed: " ++ reason),
            effects⟩

/-- The resting order is gone and the successor never reached the book: place it bare, unless the
retired leg moved base, which makes the successor's quantity stale. -/
def retireAndRePlaceSuccessor (retiredBy : String) (leg : Option RetiredLeg) : Handled :=
  if leg.any fun leg => executedSomething leg.executedQty then
    ⟨.failed true .rejected false
      ("cancelReplace: the retired leg partially filled (" ++
        (leg.bind (·.executedQty)).getD "" ++ ") after " ++ retiredBy ++
        "; successor withheld until the position reconciles"),
      reportCancelledLeg ctx decision leg⟩
  else
    Handled.after
      (reportCancelledLeg ctx decision leg ++ [.registerOwner decision.intent.clientOrderId])
      (match answers.place with
      | .error err => rePlaceFailed ctx decision retiredBy err
      | .ok dto =>
          (ctx.recordPlacedOrder decision.intent decision.params dto).after [.recordWeight])

/-- The probed record, where the exchange answers with a terminal status. -/
def probedLeg : Option RetiredLeg :=
  match answers.probe with
  | .ok order => (asRetiredLeg order).filter fun leg => isTerminalOrderStatus leg.status
  | .error _ => none

/-- The cancel leg was refused: the order is still on the book, or it was gone already. -/
def cancelLegRefused (err : BinanceApiError) : Handled :=
  let refused : Handled :=
    ⟨.failed true err.phase.ofCall false
      ("cancelReplace: cancel refused " ++ toString err.code ++ ": " ++ err.msg),
      replaceUnresolved ctx decision⟩
  if err.cancelLegCode = some (-2011) then
    Handled.after [.recordWeight]
      (match probedLeg answers with
      | none => refused
      | some leg =>
          if leg.status = "FILLED" && executedSomething leg.executedQty then
            ⟨.failed false .rejected false
              ("cancelReplace: the resting order filled rather than cancelling (" ++
                toString err.code ++
                "/-2011); successor withheld, position handed to reconcile"),
              reportCancelledLeg ctx decision (some leg)⟩
          else retireAndRePlaceSuccessor ctx decision answers "-2022/-2011" (some leg))
  else refused

def replaceClassified (err : BinanceApiError) : Handled :=
  let classified := classifyBinanceError err
  let accepted : DecisionResult :=
    .failed false .accepted false "cancelReplace: classified ok without a successor body"
  if err.phase = .ambiguous then
    ⟨if classified.result = .ok then accepted else classified.result,
      replaceUnresolved ctx decision⟩
  else if classified.result = .ok then
    ⟨accepted, notifyClassifiedEmergency decision classified ++
      [.enqueueReconcile decision.intent.symbol .replaceOrderFailed]⟩
  else ⟨classified.result, notifyClassifiedEmergency decision classified⟩

/-- The request was sent and the answer lost: settle the successor, then ask about the leg. -/
def replaceLost (err : ExchangeError) : Handled :=
  let successor := ctx.resolveAmbiguousPlacement decision.intent decision.params err
  ⟨successor.result,
    replaceUnresolved ctx decision ++ successor.effects ++ [.recordWeight] ++
      (match probedLeg answers with
      | none => []
      | some leg => reportCancelledLeg ctx decision (some leg))⟩

/-- Both legs answered; only an explicit failure of the cancel leg is believed. -/
def replaceAnswered (dto : CancelReplaceDto) : Handled :=
  if dto.cancelResult.any (· ≠ "SUCCESS") then
    ⟨.failed true .ambiguous false
      ("cancelReplace: 200 with cancelResult=" ++ dto.cancelResult.getD ""),
      replaceUnresolved ctx decision⟩
  else
    Handled.after (reportCancelledLeg ctx decision (dto.cancelResponse.bind asRetiredLeg))
      (match dto.newOrderResponse with
      | none =>
          ⟨.failed false .accepted false "cancelReplace: SUCCESS without a new order body",
            [.enqueueReconcile decision.intent.symbol .replaceOrderFailed]⟩
      | some successor => ctx.recordPlacedOrder decision.intent decision.params successor)

/-- A sell that is not itself a stop closes the position. -/
def closesPosition : Bool :=
  decision.intent.side == .sell &&
    !(decision.params.type == .stopLossLimit || decision.params.type == .stopLoss)

/-- What the handler makes of the answer to the replacement. -/
def replaceDispatch : Handled :=
  match answers.replace with
  | .ok dto => replaceAnswered ctx decision dto
  | .error (.orderBudget windowMs waitMs) =>
      ⟨.failed true .preCall decision.intent.deferrable
        ("order-budget-exhausted window=" ++ toString windowMs ++ "ms wait=" ++
          toString waitMs ++ "ms"), []⟩
  | .error (.transport message) => replaceLost ctx decision answers (.transport message)
  | .error (.api err) =>
      if err.code = -2022 then cancelLegRefused ctx decision answers err
      else if err.code = -2021 then
        retireAndRePlaceSuccessor ctx decision answers "-2021" (err.cancelLeg.bind asRetiredLeg)
      else replaceClassified ctx decision err

def replaceOrderHandler : Handled :=
  if ctx.weightLimit1m ≤ ctx.weight then
    ⟨.failed true .preCall decision.intent.deferrable
      ("weight-limit-throttle weight=" ++ toString ctx.weight ++ " limit=" ++
        toString ctx.weightLimit1m),
      [.emergencyNotify "binance-weight-throttle" decision.intent.symbol]⟩
  else
    Handled.after
      ((if closesPosition decision then [.forgetPlacements decision.intent.symbol] else []) ++
        [.registerOwner decision.intent.clientOrderId, .recordWeight])
      (replaceDispatch ctx decision answers)

end Replace

end TradingBot.Worker
