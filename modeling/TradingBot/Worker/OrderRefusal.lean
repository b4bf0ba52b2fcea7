import TradingBot.Core.Contract

/-!
# The order refusal circuit

An order the exchange has refused three times in the same words is held back
and sent again once a minute. An order is recognised by everything the exchange
sees of it, and by the resting order it replaces.
-/

namespace TradingBot.Worker

def isPlacement : Decision → Bool
  | .placeOrder _ _ => true
  | .replaceOrder _ _ _ _ => true
  | _ => false

structure OrderRequestIdentity where
  clientOrderId : String
  cancelOrderId : Option ℤ
  symbol : String
  side : OrderSide
  type : OrderType
  quantity : String
  price : Option String
  stopPrice : Option String
  trailingDelta : Option ℤ
  timeInForce : Option TimeInForce
deriving DecidableEq

structure OrderRejectionIdentity where
  code : ℤ
  msg : String
deriving DecidableEq

/-- How often the request was refused; from the third time on it is probed. -/
inductive RefusalCount where
  | once
  | twice
  | tripped (nextProbeAtMs : ℚ)
deriving DecidableEq

structure OrderRefusalState where
  request : OrderRequestIdentity
  rejection : OrderRejectionIdentity
  count : RefusalCount
deriving DecidableEq

def requestIdentity (cancelOrderId : Option ℤ) (intent : OrderIntent) (params : OrderParams) :
    OrderRequestIdentity where
  clientOrderId := intent.clientOrderId
  cancelOrderId
  symbol := intent.symbol
  side := intent.side
  type := params.type
  quantity := params.quantity.text
  price := params.price.map (·.text)
  stopPrice := params.stopPrice.map (·.text)
  trailingDelta := params.trailingDelta
  timeInForce := params.timeInForce

/-- What identifies a placement; no other decision has an identity. -/
def buildOrderRequestIdentity : Decision → Option OrderRequestIdentity
  | .placeOrder intent params => some (requestIdentity none intent params)
  | .replaceOrder cancelOrderId _ intent params =>
      some (requestIdentity (some cancelOrderId) intent params)
  | _ => none

structure RefusalGate where
  defer : Bool
  probe : Bool

def orderRefusalGate (state : Option OrderRefusalState) (decision : Decision) (nowMs : ℤ) :
    RefusalGate :=
  match state with
  | some { request, count := .tripped nextProbeAtMs, .. } =>
      if buildOrderRequestIdentity decision ≠ some request then ⟨false, false⟩
      else if nowMs < nextProbeAtMs then ⟨true, false⟩
      else ⟨false, true⟩
  | _ => ⟨false, false⟩

end TradingBot.Worker
