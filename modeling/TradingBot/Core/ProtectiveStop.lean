import TradingBot.Core.Sizing

/-!
# The exchange-side protective stop

The shared arm that rests, re-prices or refuses the stop order standing behind
an open position. A strategy supplies its level, the base its own resting stop
locks, its order builders and, if it wants them, the exchange-native trailing
seams; the arm sizes the order, judges it against the exchange's minimums and
price band, and decides whether anything has to be sent.
-/

namespace TradingBot

open Decimal Grid

/-- A field of an order or a filter as a decimal, or `none` where it is absent or unreadable. -/
def safeDecimal (value : Option DecimalString) : Option Decimal :=
  value.bind (·.toDecimal)

/-- The unfilled remainder of an order; an unreadable fill count reads as no fills. -/
def unfilledQuantity (order : OpenOrder) : Option Decimal :=
  (safeDecimal order.origQty).map fun orig =>
    orig.sub ((safeDecimal order.executedQty).getD (num 0))

/-- What one open order contributes to the base our own resting stops lock. -/
def ownRestingRemainder (ourClientOrderId symbol : String) (order : OpenOrder) : Option Decimal :=
  if order.symbol != symbol || order.clientOrderId != ourClientOrderId || !isRestingSell order then
    none
  else (unfilledQuantity order).filter (·.gt (num 0))

/-- One step of the sum over open orders. -/
def addOwnRemainder (ourClientOrderId symbol : String) (sum : Decimal) (order : OpenOrder) :
    Decimal :=
  match ownRestingRemainder ourClientOrderId symbol order with
  | some remaining => sum.add remaining
  | none => sum

/-- The base our own resting stops still lock on the exchange. -/
def ownRestingSellBase (openOrders : List OpenOrder) (ourClientOrderId symbol : String) :
    Decimal :=
  openOrders.foldl (addOwnRemainder ourClientOrderId symbol) (num 0)

def findForeignRestingSell (openOrders : List OpenOrder) (ourClientOrderId symbol : String) :
    Option OpenOrder :=
  openOrders.find? fun o =>
    o.symbol == symbol && isRestingSell o && o.clientOrderId != ourClientOrderId

/-- The base available to a stop: the tracked position where the wallet is unreadable. -/
def armableBaseQuantity (held : Decimal) (free : Option Decimal) (ownLocked : Decimal) : Decimal :=
  match free with
  | none => held
  | some free => held.min (free.add ownLocked)

/-! ### Refusals -/

inductive ProtectiveStopBlockerReason where
  | baseLockedByForeignOrder
  | baseBelowExchangeMinimum
  | baseShortOfTrackedPosition
  | priceOutsideExchangeBand
  | restingStopShortOfPosition
deriving DecidableEq

structure ProtectiveStopBlocker where
  reason : ProtectiveStopBlockerReason
  detail : Detail
deriving DecidableEq

/-- Why nothing could be armed once the available base went through the filters. -/
def classifyProtectiveStopRefusal (symbol : String) (openOrders : List OpenOrder)
    (ourClientOrderId : String) (free : Decimal) (required : DecimalString)
    (available : Decimal) : ProtectiveStopBlocker :=
  let base : Detail :=
    [("symbol", .text symbol), ("required", .decimal required),
     ("free", .decimal (.printed free)), ("available", .decimal (.printed available))]
  match findForeignRestingSell openOrders ourClientOrderId symbol with
  | some foreign =>
      { reason := .baseLockedByForeignOrder
        detail := base ++
          [("foreignClientOrderId", .text foreign.clientOrderId),
           ("foreignOrderId", .int foreign.orderId)] }
  | none =>
      if available.lte (num 0) then { reason := .baseShortOfTrackedPosition, detail := base }
      else { reason := .baseBelowExchangeMinimum, detail := base }

/-- A band multiplier or reference price: positive and finite, or unusable. -/
def positiveDecimal (value : DecimalString) : Option Decimal :=
  value.toDecimal.filter fun d => d.isFinite && d.gt (num 0)

/-- The deepest stop, as a fraction below the reference, that the price band accepts. -/
def maxStopDistancePct (band : Option PercentPriceBySideFilter) (limitOffset : Decimal) :
    Option Decimal :=
  match band with
  | none => none
  | some band =>
      if !limitOffset.isFinite || limitOffset.lte (num 0) then none
      else
        (positiveDecimal band.askMultiplierDown).map fun down =>
          (num 1).sub (down.div limitOffset)

/-- One metric on a tick whose stop the price band moved off the configured one. -/
def protectiveStopBandAdjustment (symbol : String) (floorClamped nativeTrailed : Bool) :
    List MetricEntry :=
  if nativeTrailed then
    [metric "protective_stop_band_adjusted" [("symbol", symbol), ("reason", "native-trail")]]
  else if floorClamped then
    [metric "protective_stop_band_adjusted" [("symbol", symbol), ("reason", "floor-clamped")]]
  else []

/-- Trigger and limit price of a resting stop, with its size. -/
structure DesiredProtectiveStop where
  stopPrice : DecimalString
  price : DecimalString
  quantity : DecimalString

def DetailValue.ofDecimal? : Option DecimalString → DetailValue
  | some d => .decimal d
  | none => .null

/-- Whether the percent-price band refuses a priced stop. An unreadable band refuses nothing. -/
def percentPriceBySideRefusal (symbol reference : String)
    (band : Option PercentPriceBySideFilter) (desired : DesiredProtectiveStop)
    (guarded : Bool) : Option ProtectiveStopBlocker :=
  match band with
  | none => none
  | some band =>
      match positiveDecimal reference, positiveDecimal desired.stopPrice,
          positiveDecimal desired.price with
      | some ref, some stopPrice, some price =>
          let down := positiveDecimal band.askMultiplierDown
          let floor := down.map ref.mul
          let ceiling := (positiveDecimal band.askMultiplierUp).map ref.mul
          let belowFloor := floor.any price.lt
          let aboveCeiling := ceiling.any fun c => stopPrice.gt c || price.gt c
          if !belowFloor && !aboveCeiling then none
          else
            let ratio := price.div stopPrice
            let places6 := fun (d : Decimal) => DecimalString.printed (d.toDecimalPlaces 6)
            some
              { reason := .priceOutsideExchangeBand
                detail :=
                  [("symbol", .text symbol),
                   ("stopPrice", .decimal desired.stopPrice),
                   ("price", .decimal desired.price),
                   ("reference", .text reference),
                   ("floor", .ofDecimal? (floor.map .printed)),
                   ("ceiling", .ofDecimal? (ceiling.map .printed)),
                   ("askMultiplierDown", .text band.askMultiplierDown),
                   ("askMultiplierUp", .text band.askMultiplierUp),
                   ("avgPriceMins", .int band.avgPriceMins),
                   ("limitOffsetRatio", .decimal (places6 ratio)),
                   ("maxStopDistancePct",
                     .ofDecimal? ((maxStopDistancePct (some band) ratio).map places6)),
                   ("requiredStopDistancePct",
                     .decimal (places6 ((num 1).sub (stopPrice.div ref)))),
                   ("terminal", .bool (belowFloor && down.any ratio.lte)),
                   ("bound", .text (if belowFloor then "floor" else "ceiling")),
                   ("guarded", .bool guarded)] }
      | _, _, _ => none

/-! ### The band's floor -/

inductive OnBandBlock where
  | notify
  | clamp
  | nativeTrail
deriving DecidableEq

structure ProtectiveStopBandSettings where
  stopDistancePct : Decimal
  limitOffsetPct : Decimal
  onBandBlock : OnBandBlock
  path : List String

/-- The lift that keeps a clamped trigger clear of the exchange's averaged reference. -/
def exchangeFloorMargin : Decimal := num (101 / 100)

structure StopBandContext where
  reference : Option String
  band : Option PercentPriceBySideFilter

/-- Raise a trigger to the lowest level the band accepts, or leave it. -/
def clampStopToExchangeFloor (stop : Decimal) (reference : String)
    (band : Option PercentPriceBySideFilter) (limitOffset : Decimal) : Decimal × Bool :=
  match band with
  | none => (stop, false)
  | some band =>
      if !limitOffset.isFinite || limitOffset.lte (num 0) then (stop, false)
      else
        match positiveDecimal reference, positiveDecimal band.askMultiplierDown with
        | some ref, some down =>
            let floor := ((ref.mul down).div limitOffset).mul exchangeFloorMargin
            -- a floor at the market or above it would sell at once
            if !floor.lt ref || stop.gte floor then (stop, false) else (floor, true)
        | _, _ => (stop, false)

/-! ### The exchange-native trailing stop -/

/-- Size and trailing distance, in basis points, of a native trailing stop. -/
structure DesiredNativeTrailingStop where
  quantity : DecimalString
  trailingDelta : ℤ

/-- The basis points of a configured distance, or `none` when the symbol will not accept it. -/
def nativeTrailingDelta (stopDistancePct : Decimal) (filter : Option TrailingDeltaFilter) :
    Option ℤ :=
  match filter with
  | none => none
  | some filter =>
      if !filter.minTrailingBelowDelta.isInt || !filter.maxTrailingBelowDelta.isInt then none
      else if !stopDistancePct.isFinite || stopDistancePct.lte (num 0) ||
          stopDistancePct.gte (num 1) then none
      else
        match (stopDistancePct.mul (num 10000)).toDecimalPlaces 0 with
        | num bips =>
            if filter.minTrailingBelowDelta ≤ bips ∧ bips ≤ filter.maxTrailingBelowDelta then
              some ⌊bips⌋
            else none
        | _ => none

/-- The sentence a preview shows for a resting exchange trail. -/
def nativeTrailDistanceSentence (delta : ℤ) : String :=
  "No fixed trigger price — Binance trails this stop " ++ ((num delta).div (num 100)).toText ++
    "% below the highest price seen since it was placed, then sells at market."

/-- The preview's note for a stop that will rest as a native trail, or `none` for a priced one. -/
def nativeTrailPreviewNote (stop limit : Decimal) (tick : Option Decimal)
    (reference : Option String) (stopDistancePct : Decimal)
    (band : Option PercentPriceBySideFilter) (trailing : Option TrailingDeltaFilter) :
    Option String :=
  match reference with
  | none => none
  | some reference =>
      let onGrid := fun (value : Decimal) =>
        match tick with
        | none => DecimalString.printed value
        | some tick => toFixedStep value tick
      match percentPriceBySideRefusal "" reference band
          { stopPrice := onGrid stop, price := onGrid limit, quantity := .raw "0" } false with
      | none => none
      | some refused =>
          if refused.detail.lookup "bound" ≠ some (.text "floor") then none
          else (nativeTrailingDelta stopDistancePct trailing).map nativeTrailDistanceSentence

/-! ### Whether a resting stop still serves -/

def minStopDrift : Decimal := num (1 / 1000)

def minQtyDrift : Decimal := num (1 / 100)

def clampedStopDriftBand : Decimal := num (1 / 100)

/-- The re-arm band of a stop the exchange floor is holding up. -/
def clampedStopDrift (operatorBand : Option Decimal) : Decimal :=
  match operatorBand with
  | none => clampedStopDriftBand
  | some band => band.max clampedStopDriftBand

/-- Whether a resting order's remainder is off the desired size by the quantity band. -/
def quantityDrifted (resting : OpenOrder) (desiredQuantity : DecimalString) : Bool :=
  match unfilledQuantity resting, desiredQuantity.toDecimal with
  | some restingQty, some desiredQty =>
      ((restingQty.sub desiredQty).abs).gte (desiredQty.mul minQtyDrift)
  | _, _ => false

/-- Whether a resting order's trigger is off the desired one by the drift band. -/
def triggerDrifted (restingStop : Decimal) (desiredStopPrice : DecimalString)
    (drift : Decimal) : Bool :=
  match desiredStopPrice.toDecimal with
  | some desiredStop => ((restingStop.sub desiredStop).abs).gte (desiredStop.mul drift)
  | none => false

/--
Whether a resting stop must be replaced to match what is desired. A trail is
compared on its distance, a priced stop on its trigger, and either on its size;
an unreadable trigger or size leaves the resting order alone.
-/
def protectiveStopNeedsRearm (resting : OpenOrder)
    (desiredStopPrice desiredQuantity : DecimalString)
    (drift : Decimal) (desiredTrailingDelta : Option ℤ) : Bool :=
  match desiredTrailingDelta, resting.trailingDelta with
  -- a trail is wanted: its distance decides before its size
  | some desiredDelta, restingDelta =>
      if restingDelta ≠ some desiredDelta then true
      else quantityDrifted resting desiredQuantity
  -- a trail is resting and a priced stop is wanted: the wrong order type
  | none, some _ => true
  | none, none =>
      match safeDecimal resting.stopPrice with
      | none => false
      | some restingStop =>
          if triggerDrifted restingStop desiredStopPrice drift then true
          else quantityDrifted resting desiredQuantity

/-- Our own resting stop: the first order that carries our id and still rests as a SELL. -/
def findRestingProtectiveStop (openOrders : List OpenOrder) (ourClientOrderId : String) :
    Option OpenOrder :=
  openOrders.find? fun o => o.clientOrderId == ourClientOrderId && isRestingSell o

/-- Statuses under which a stop is working on the book. -/
def guardingStatuses : List String := ["NEW", "PARTIALLY_FILLED"]

/-- Whether a resting order still covers the desired size; anything unreadable does not. -/
def stillGuarding (resting : Option OpenOrder) (desiredQuantity : DecimalString) : Bool :=
  match resting with
  | none => false
  | some resting =>
      if !guardingStatuses.contains resting.status.toUpper then false
      else
        match safeDecimal resting.origQty, desiredQuantity.toDecimal,
            safeDecimal resting.executedQty with
        | some orig, some desired, some executed =>
            if !desired.gt (num 0) then false
            else (orig.sub executed).gte (desired.mul ((num 1).sub minQtyDrift))
        | _, _, _ => false

end TradingBot
