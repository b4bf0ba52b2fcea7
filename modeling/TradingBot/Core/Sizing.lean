import TradingBot.Core.Contract

/-!
# Balances and order sizing

The base a SELL may size against, and the minimum-quantity, minimum-notional
and step epilogue every sizing function ends with. An unreadable wallet has no
free balance at all, which is not the same as a balance of zero.
-/

namespace TradingBot

open Decimal Grid

/-! ### Balances -/

/-- A parse failure, worded as the decimal library words it. -/
def invalidDecimal (raw : String) : String := "[DecimalError] Invalid argument: " ++ raw

/-- A decimal the source builds outside any guard: a text that does not parse throws. -/
def newDecimal (raw : String) : Except String Decimal :=
  match parse raw with
  | some d => .ok d
  | none => .error (invalidDecimal raw)

/-- A text as a finite decimal, or `none`. -/
def decOrNull (raw : Option DecimalString) : Option Decimal :=
  match raw with
  | none => none
  | some s =>
      if s.isEmpty then none
      else s.toDecimal.filter (·.isFinite)

theorem decOrNull_eq_some {raw : Option DecimalString} {d : Decimal} :
    decOrNull raw = some d ↔ raw.bind (·.toDecimal) = some d ∧ d.isFinite = true := by
  cases raw with
  | none => simp [decOrNull]
  | some s =>
      by_cases hempty : s.isEmpty = true
      · simp [decOrNull, hempty, DecimalString.toDecimal_of_isEmpty hempty]
      · simp only [decOrNull, if_neg hempty, Option.bind_some, Option.filter_eq_some_iff]

theorem decOrNull_raw {text : String} {q : ℚ} (h : parse text = some (num q)) :
    decOrNull (some (.raw text)) = some (num q) :=
  decOrNull_eq_some.mpr ⟨h, rfl⟩

theorem decOrNull_finite {raw : Option DecimalString} {d : Decimal} (h : decOrNull raw = some d) :
    ∃ q : ℚ, d = num q :=
  isFinite_iff.mp (decOrNull_eq_some.mp h).2

/-- Cash in the quote asset, free and locked, plus what all profiles have deployed. -/
def accountEquity (account : AccountSnapshot) (quoteAsset : String) : Decimal :=
  let cash :=
    match account.balances quoteAsset with
    | some bal => bal.free.add bal.locked
    | none => num 0
  cash.add ((decOrNull (account.deployedQuoteAcrossProfiles.map .raw)).getD (num 0))

/-- The wallet's free balance: unknown when the wallet is unreadable, zero when it has no line. -/
def freeBalance (account : AccountSnapshot) (asset : String) : Option Decimal :=
  if !account.readable then none
  else
    match account.balances asset with
    | some line => some line.free
    | none => some (num 0)

/-- The balance a wallet line locks; a missing line locks nothing. -/
def walletLocked (account : AccountSnapshot) (asset : String) : Decimal :=
  match account.balances asset with
  | some line => line.locked
  | none => num 0

structure SizableBase where
  free : Option Decimal
  reclaimable : Decimal

/-- Free base, and our own locked base capped by what the wallet really locks. -/
def sizableBase (account : AccountSnapshot) (asset : String) (ownLocked : Decimal) :
    SizableBase :=
  { free := freeBalance account asset
    reclaimable := ownLocked.min (walletLocked account asset) }

/-! ### Optional limits -/

/-- Whether the text of an optional decimal is set: neither empty nor zero. -/
def isCapArmed (raw : String) : Bool := raw ≠ "" && raw ≠ "0"

/-- A text that reads as a positive number is armed. -/
theorem isCapArmed_of_pos {raw : String} {q : ℚ} (hraw : parse raw = some (num q)) (hq : 0 < q) :
    isCapArmed raw = true := by
  unfold isCapArmed
  rw [Bool.and_eq_true, decide_eq_true_eq, decide_eq_true_eq]
  constructor
  · rintro rfl
    cases hraw.symm.trans (by decide +kernel : parse "" = none)
  · rintro rfl
    have hzero := hraw.symm.trans (by decide +kernel : parse "0" = some (num 0))
    injection hzero with hzero
    injection hzero with hzero
    exact hq.ne' hzero

/-! ### Filters -/

/-- Parsed exchange filters. The step has been checked, so quantising by it is defined. -/
structure SizeFilters where
  step : Decimal
  minQty : Decimal
  minNotional : Decimal
  tick : Option Decimal
  step_pos : step.lte (num 0) = false
  tick_pos : ∀ t, tick = some t → t.gt (num 0) = true

def parseTick (tickSize : String) : Option Decimal :=
  (parse tickSize).filter (·.gt (num 0))

theorem parseTick_pos {tickSize : String} {t : Decimal} (h : parseTick tickSize = some t) :
    t.gt (num 0) = true := by
  simp only [parseTick, Option.filter_eq_some_iff] at h
  exact h.2

/-- The lot filters of a symbol, or `none` when one does not parse or the step is not positive. -/
def parseFilters (filters : SymbolFilters) : Option SizeFilters :=
  match parse filters.stepSize, parse filters.minQty, parse filters.minNotional with
  | some step, some minQty, some minNotional =>
      if h : step.lte (num 0) = true then none
      else
        some
          { step, minQty, minNotional
            tick := parseTick filters.tickSize
            step_pos := by simpa using h
            tick_pos := fun _ => parseTick_pos }
  | _, _, _ => none

inductive SizeSkip where
  | minQty
  | minNotional
deriving DecidableEq

def SizeSkip.text : SizeSkip → String
  | minQty => "min-qty"
  | minNotional => "min-notional"

/-- The shared epilogue: minimum quantity, then minimum notional, then the step's text. -/
def finalise (quantity price : Decimal) (filters : SizeFilters) :
    Except SizeSkip DecimalString :=
  if quantity.lte (num 0) || quantity.lt filters.minQty then .error .minQty
  else if !meetsMinNotional quantity price filters.minNotional then .error .minNotional
  else .ok (toFixedStep quantity filters.step)

/-! ### Quantities that stay sellable at the stop -/

/-- The base a fill may lose to a fee taken in the base asset. -/
def entryFeeMargin : Decimal := num (1 / 1000)

structure EntryStopFloor where
  distanceFraction : Decimal
  limitOffset : Decimal

inductive EntryStopSkip where
  | entryBelowStopNotional
  | invalidFilters

/-- The smallest pre-fee entry whose fee-reduced, step-rounded SELL clears the minimums. -/
def minSellableQuantityAtStop (filters : SizeFilters) (stopPrice : Decimal) : Option Decimal :=
  if stopPrice.lte (num 0) then none
  else
    -- one more step than the minimum, for the step the fee-reduced quantity is floored by
    some (ceilToStep
      (((filters.minQty.max (filters.minNotional.div stopPrice)).add filters.step).div
        ((num 1).sub entryFeeMargin))
      filters.step)

/-- The smallest held quantity whose step-rounded SELL clears the minimums. -/
def minSellableHeldQuantity (filters : SizeFilters) (stopPrice : Decimal) : Option Decimal :=
  if stopPrice.lte (num 0) then none
  else
    some (filters.minQty.max
      (ceilToStep (filters.minNotional.div stopPrice) filters.step))

def sellableAtStop (quantity stopPrice : Decimal) (filters : SizeFilters) : Bool :=
  (finalise (roundToStep quantity filters.step) stopPrice filters).isOk

/-- Refuse an entry too small to be sold at its stop, priced as the arm will price it. -/
def applyEntryStopFloor (quantity price : Decimal) (filters : SizeFilters)
    (stop : Option EntryStopFloor) : Except EntryStopSkip Decimal :=
  match stop with
  | none => .ok quantity
  | some stop =>
      match filters.tick with
      | none => .error .invalidFilters
      | some tick =>
          -- both legs are floored onto the tick grid, as the arm floors them
          let trigger := roundToTick (price.mul ((num 1).sub stop.distanceFraction)) tick
          let stopPrice := roundToTick (trigger.mul stop.limitOffset) tick
          match minSellableQuantityAtStop filters stopPrice with
          | none => .error .invalidFilters
          | some floor =>
              if quantity.gte floor then .ok quantity else .error .entryBelowStopNotional

end TradingBot
