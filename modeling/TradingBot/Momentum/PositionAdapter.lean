import TradingBot.Momentum.Tick
import TradingBot.TrailingTrade.PositionAdapter

/-!
# The position adapter

How the worker moves a momentum position from outside a tick: adopting a fill,
pinning the held quantity, reviving the cost basis and clearing the position.
Every writer refuses a body of another schema version, and `none` stands for no
change.
-/

namespace TradingBot.Momentum

open TradingBot.TrailingTrade (AdoptedFill PositionView)

def isCurrentSchema (state : MomentumState) : Bool :=
  state.schemaVersion == momentumStateSchemaVersion

def readPosition (state : MomentumState) : Option PositionView :=
  if isCurrentSchema state then some ⟨state.entryPrice, state.heldQuantity⟩ else none

def hasPositionScopedFieldSet (state : MomentumState) : Bool :=
  state.protectiveStopBlocker.isSome || state.exitBlocker.isSome

/-- The body of an adopted buy: both marks and the profit
epoch start over, the entry stamp stays. -/
def adoptedBuy (state : MomentumState) (avgEntryPrice heldQuantity : DecimalString) :
    MomentumState :=
  { state with
    entryPrice := some avgEntryPrice
    heldQuantity := some heldQuantity
    highSinceEntry := none
    profitHigh := none
    profitTrailSinceMs := none }

/-- The body without its cost basis: no marks, no epoch, no layer. -/
def flattened (state : MomentumState) : MomentumState :=
  { state with
    entryPrice := none
    highSinceEntry := none
    profitHigh := none
    profitTrailSinceMs := none
    entryLayer := none }

/-- Merge an adopted fill; an empty fill of an already empty position changes nothing. -/
def applyFill (state : MomentumState) (fill : AdoptedFill) : Option MomentumState :=
  if !isCurrentSchema state then none
  else
    match fill with
    | .buy avgEntryPrice heldQuantity => some (adoptedBuy state avgEntryPrice heldQuantity)
    | .sellReduce heldQuantity => some { state with heldQuantity := some heldQuantity }
    | .empty =>
        if state.entryPrice.isNone && state.highSinceEntry.isNone && state.heldQuantity.isNone &&
            !hasPositionScopedFieldSet state then none
        else some (clearPositionScopedFields { flattened state with heldQuantity := none })

def setHeldQuantity (state : MomentumState) (heldQuantity : Option DecimalString) :
    Option MomentumState :=
  if isCurrentSchema state then some { state with heldQuantity } else none

def setAvgEntryPrice (state : MomentumState) (avgEntryPrice : DecimalString) :
    Option MomentumState :=
  if isCurrentSchema state then some { state with entryPrice := some avgEntryPrice } else none

/-- Forget the cost basis and keep the coins; a refusal stays while coins are held. -/
def clearPosition (state : MomentumState) : Option MomentumState :=
  if !isCurrentSchema state then none
  else if state.heldQuantity.isNone then some (clearPositionScopedFields (flattened state))
  else some (flattened state)

end TradingBot.Momentum
