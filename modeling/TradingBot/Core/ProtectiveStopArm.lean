import TradingBot.Core.ProtectiveStop

/-!
# The arm

`evaluateProtectiveStopArm` in the stages of its source: the prices an order is
judged at, the size of full protection, the size the wallet can fund, and then
either the native-primary decision or the priced one with its band escape.
-/

namespace TradingBot

open Decimal Grid

/-- The stop a strategy wants to rest, with the position and filters that size it. -/
structure ProtectiveStopLevel where
  stop : Decimal
  limit : Decimal
  held : Decimal
  filters : SizeFilters
  tick : Decimal

structure ProtectiveStopArm where
  decisions : List Decision
  blocker : Option ProtectiveStopBlocker
deriving DecidableEq

/-- The native-primary inputs: the distance, the mark and the high since the order rested. -/
structure PrimaryTrail where
  desiredDistancePct : Decimal
  markPrice : Decimal
  restingHigh : Option Decimal

/-- The native-trail escape: its distance and its order builder. -/
structure NativeTrail where
  stopDistancePct : Decimal
  build : DesiredNativeTrailingStop → Bool → Decision

/-- The seams a strategy hands to the arm. -/
structure ProtectiveStopArmParams (Config State Bundle : Type) where
  input : TickInput Config State Bundle
  enabled : Bool
  level : Option ProtectiveStopLevel
  reclaimableBase : Decimal
  ourClientOrderId : String
  buildPlace : DesiredProtectiveStop → Bool → Decision
  buildCancel : OpenOrder → Decision
  buildReplace : OpenOrder → Decision → Decision
  primaryTrail : Option PrimaryTrail
  nativeTrail : Option NativeTrail
  minStopDrift : Option Decimal

section Arm

variable {Config State Bundle : Type}

namespace ProtectiveStopArmParams

variable (params : ProtectiveStopArmParams Config State Bundle)

/-- Our own resting stop, as this tick's open orders show it. -/
def resting : Option OpenOrder :=
  findRestingProtectiveStop params.input.openOrders params.ourClientOrderId

/-- The delta the native primary mode would rest at; it needs both native seams. -/
def primaryNativeDelta : Option ℤ :=
  match params.primaryTrail, params.nativeTrail with
  | some trail, some _ =>
      nativeTrailingDelta trail.desiredDistancePct
        params.input.market.symbolInfo.filters.trailingDelta
  | _, _ => none

/-- The delta of the configured stop distance, where the trailing escape is offered. -/
def trailingDelta : Option ℤ :=
  params.nativeTrail.bind fun trail =>
    nativeTrailingDelta trail.stopDistancePct
      params.input.market.symbolInfo.filters.trailingDelta

def marketReference : Option Decimal := positiveDecimal params.input.market.currentPrice

/-- A printed amount, read back. -/
def wire (value unit : Decimal) : Decimal := value.toDecimalPlaces unit.decimalPlaces

/-- The price a native trailing order is judged at: the market, or the trigger if unreadable. -/
def nativeNotionalPrice (level : ProtectiveStopLevel) : Decimal :=
  wire (params.marketReference.getD level.stop) level.tick

/-- The price the order about to rest is judged at: its own limit leg, or the native price. -/
def notionalPrice (level : ProtectiveStopLevel) : Decimal :=
  match params.primaryNativeDelta with
  | none => wire level.limit level.tick
  | some _ => params.nativeNotionalPrice level

def checkedAtLeg : String :=
  match params.primaryNativeDelta, params.marketReference with
  | none, _ => "limit"
  | some _, none => "trigger"
  | some _, some _ => "market"

def sizable : SizableBase :=
  sizableBase params.input.account params.input.market.symbolInfo.baseAsset params.reclaimableBase

/-- The base the wallet lets this tick commit. -/
def available (level : ProtectiveStopLevel) : Decimal :=
  armableBaseQuantity level.held params.sizable.free params.sizable.reclaimable

/-- The quantity a working stop of ours still sells, where all of it reads back. -/
def restingQuantity : Option Decimal :=
  match params.resting with
  | none => none
  | some resting =>
      if guardingStatuses.contains resting.status.toUpper &&
          (safeDecimal resting.origQty).isSome && (safeDecimal resting.executedQty).isSome then
        (unfilledQuantity resting).filter (·.gt (num 0))
      else none

/-- The refusal of a position whose full size misses an exchange minimum. -/
def belowMinimum (level : ProtectiveStopLevel) (skip : SizeSkip) : ProtectiveStopBlocker :=
  { reason := .baseBelowExchangeMinimum
    detail :=
      [("symbol", .text params.input.market.symbol),
       ("required",
         .ofDecimal? ((minSellableHeldQuantity level.filters (params.notionalPrice level)).map
           (toFixedStep · level.filters.step))),
       ("free", .ofDecimal? (params.sizable.free.map .printed)),
       ("available", .decimal (.printed (params.available level))),
       ("held", .decimal (.printed level.held)),
       ("stop", .decimal (.printed level.stop)),
       ("checkedAt", .decimal (.printed (params.notionalPrice level))),
       ("checkedAtLeg", .text params.checkedAtLeg),
       ("skip", .text skip.text),
       ("resting", .ofDecimal? (params.restingQuantity.map .printed)),
       ("guarded", .bool (stillGuarding params.resting (.printed level.held)))] }

/-- The size of full protection, and the refusal it carries forward if only the trail can rest. -/
structure FullSize where
  quantity : DecimalString
  pendingMinNotional : Option ProtectiveStopBlocker

/--
Size the whole tracked position. A minimum-notional failure of the priced order
is deferred when a trailing successor is reachable and feasible at its own price.
-/
def sizeFull (level : ProtectiveStopLevel) : Except ProtectiveStopBlocker FullSize :=
  let quantity := roundToStep level.held level.filters.step
  match finalise quantity (params.notionalPrice level) level.filters with
  | .ok sized => .ok ⟨sized, none⟩
  | .error skip =>
      let blocker := params.belowMinimum level skip
      -- too small at its own limit leg, but a trail would be judged at the market
      if params.primaryNativeDelta.isNone && skip == .minNotional &&
          params.trailingDelta.isSome then
        match finalise quantity (params.nativeNotionalPrice level) level.filters with
        | .ok sized => .ok ⟨sized, some blocker⟩
        | .error _ => .error blocker
      else .error blocker

/-- The price a partial size is judged at: the one its order will be measured against. -/
def sizingPrice (level : ProtectiveStopLevel) (full : FullSize) : Decimal :=
  match full.pendingMinNotional with
  | none => params.notionalPrice level
  | some _ => params.nativeNotionalPrice level

/-- The quantity this tick can arm: full protection, or what the readable wallet leaves of it. -/
def sizeArm (level : ProtectiveStopLevel) (full : FullSize) :
    Except ProtectiveStopBlocker DecimalString :=
  -- an unreadable wallet caps nothing: the tracked position is protected whole
  match params.sizable.free with
  | none => .ok full.quantity
  | some free =>
      if (params.available level).lt level.held then
        match finalise (roundToStep (params.available level) level.filters.step)
            (params.sizingPrice level full) level.filters with
        | .ok partialSize => .ok partialSize
        | .error _ =>
            .error (classifyProtectiveStopRefusal params.input.market.symbol
              params.input.openOrders params.ourClientOrderId free full.quantity
              (params.available level))
      else .ok full.quantity

/-- Nothing is sent, and this is why. -/
def refuse (blocker : ProtectiveStopBlocker) : ProtectiveStopArm := ⟨[], some blocker⟩

/-- Nothing has to be sent. -/
def settled : ProtectiveStopArm := ⟨[], none⟩

/-- Send an order: on its own, or in one request with the retraction of what rests. -/
def send (place : Bool → Decision) : ProtectiveStopArm :=
  match params.resting with
  | none => ⟨[place false], none⟩
  | some resting => ⟨[params.buildReplace resting (place true)], none⟩

/-- The trigger a native order implies: the mark less the delta's fraction. -/
def trailTrigger (mark : Decimal) (delta : ℤ) : Decimal :=
  mark.mul ((num 1).sub ((num delta).div (num 10000)))

/-- The resting size that materially under-covers the desired one. -/
def underQuantity (resting : OpenOrder) (desired : Decimal) : Option Decimal :=
  (unfilledQuantity resting).filter fun restingQty =>
    (desired.sub restingQty).gte (desired.mul minQtyDrift)

/-- Whether the resting size materially over-covers the desired one. -/
def overQuantity (resting : OpenOrder) (desired : Decimal) : Bool :=
  (unfilledQuantity resting).any fun restingQty =>
    (restingQty.sub desired).gte (desired.mul minQtyDrift)

/-- Whether replacing a resting trail would not lower the trigger it has climbed to. -/
def highWaterGuard (trail : PrimaryTrail) (effective restingDelta : ℤ) : Bool :=
  let high := (trail.restingHigh.getD trail.markPrice).max trail.markPrice
  (trailTrigger trail.markPrice effective).gte (trailTrigger high restingDelta)

/-- The delta a re-armed trail carries: a tighter one is adopted, a looser one never. -/
def effectiveDelta (delta restingDelta : ℤ) : ℤ :=
  if delta < restingDelta then delta else restingDelta

/-- The native primary mode over a resting trail: tighten, resize, or keep its high-water mark. -/
def rearmNative (level : ProtectiveStopLevel) (trail : PrimaryTrail) (native : NativeTrail)
    (delta restingDelta : ℤ) (resting : OpenOrder) (sized : DecimalString) : ProtectiveStopArm :=
  let tightening := decide (delta < restingDelta)
  let effective := effectiveDelta delta restingDelta
  let desired := sized.toDecimal.getD nan
  let isOver := overQuantity resting desired
  let under := underQuantity resting desired
  -- an oversized trail is cut at once; only tightening and topping up mind the high-water mark
  let guard :=
    !isOver && (tightening || under.isSome) && highWaterGuard trail effective restingDelta
  if isOver || ((tightening || under.isSome) && guard) then
    ⟨[params.buildReplace resting (native.build ⟨sized, effective⟩ true)], none⟩
  else
    match under with
    | none => settled
    | some short =>
        refuse
          { reason := .restingStopShortOfPosition
            detail :=
              [("symbol", .text params.input.market.symbol),
               ("required", .decimal sized),
               ("resting", .decimal (.printed short)),
               ("held", .decimal (.printed level.held)),
               ("trailingDelta", .int restingDelta),
               ("desiredTrailingDelta", .int delta)] }

/-- The native primary mode with an accepted delta. -/
def decideNative (level : ProtectiveStopLevel) (trail : PrimaryTrail) (native : NativeTrail)
    (delta : ℤ) (sized : DecimalString) : ProtectiveStopArm :=
  match params.resting with
  | none => params.send (native.build ⟨sized, delta⟩)
  | some resting =>
      match resting.trailingDelta with
      -- a priced stop rests from before the mode was switched
      | none => params.send (native.build ⟨sized, delta⟩)
      | some restingDelta => params.rearmNative level trail native delta restingDelta resting sized

/-- The priced stop's bytes. -/
def desiredStop (level : ProtectiveStopLevel) (sized : DecimalString) : DesiredProtectiveStop :=
  { stopPrice := toFixedStep level.stop level.tick
    price := toFixedStep level.limit level.tick
    quantity := sized }

/--
The delta a resting trail is compared against: none when no trail rests or the
mode was left, and the resting delta itself while the symbol publishes no bounds.
-/
def restingTrailDelta : Option ℤ :=
  match params.resting.bind (·.trailingDelta), params.nativeTrail with
  | some restingDelta, some _ => some (params.trailingDelta.getD restingDelta)
  | _, _ => none

def settledAt (desired : DesiredProtectiveStop) : Bool :=
  params.resting.any fun resting =>
    !protectiveStopNeedsRearm resting desired.stopPrice desired.quantity
      (params.minStopDrift.getD TradingBot.minStopDrift) params.restingTrailDelta

/-- The refusal of the priced stop by the symbol's price band. -/
def outsideBand (full : FullSize) (desired : DesiredProtectiveStop) :
    Option ProtectiveStopBlocker :=
  percentPriceBySideRefusal params.input.market.symbol params.input.market.currentPrice
    params.input.market.symbolInfo.filters.percentPriceBySide desired
    (stillGuarding params.resting full.quantity)

/-- The priced path: settled, banded with or without its escape, deferred, or sent. -/
def decidePriced (level : ProtectiveStopLevel) (full : FullSize) (sized : DecimalString) :
    ProtectiveStopArm :=
  let desired := desiredStop level sized
  if params.settledAt desired then settled
  else
    match params.outsideBand full desired with
    | some outside =>
        match params.nativeTrail, params.trailingDelta with
        | some native, some delta =>
            -- a trail sells at market, which the floor of the band does not judge
            if outside.detail.lookup "bound" = some (.text "floor") then
              params.send (native.build ⟨desired.quantity, delta⟩)
            else refuse (full.pendingMinNotional.getD outside)
        | _, _ => refuse (full.pendingMinNotional.getD outside)
    | none =>
        match full.pendingMinNotional with
        | some blocker => refuse blocker
        | none => params.send (params.buildPlace desired)

/-- What is sent once the order is sized. -/
def decide (level : ProtectiveStopLevel) (full : FullSize) (sized : DecimalString) :
    ProtectiveStopArm :=
  match params.primaryTrail, params.nativeTrail, params.primaryNativeDelta with
  | some trail, some native, some delta => params.decideNative level trail native delta sized
  | _, _, _ => params.decidePriced level full sized

end ProtectiveStopArmParams

/-- Arm or re-arm the exchange-side protective stop from a strategy's seams. -/
def evaluateProtectiveStopArm (params : ProtectiveStopArmParams Config State Bundle) :
    ProtectiveStopArm :=
  if !params.enabled then ⟨[], none⟩
  else
    match params.level with
    -- no level to protect: what rests is taken off the book
    | none => ⟨(params.resting.map params.buildCancel).toList, none⟩
    | some level =>
        match params.sizeFull level with
        | .error blocker => ProtectiveStopArmParams.refuse blocker
        | .ok full =>
            match params.sizeArm level full with
            | .error blocker => ProtectiveStopArmParams.refuse blocker
            | .ok sized => params.decide level full sized

end Arm

end TradingBot
