import TradingBot.Core.ArmOutcome
import TradingBot.Momentum.StopLevel

/-!
# Entry and exit sizing

The quote budget of an entry, the base quantity it buys under the exchange's
filters, and the quantity an exit sells. The risk cap divides by the distance of
the first stop, so an entry whose distance has no value is refused, not guessed.
-/

namespace TradingBot.Momentum

open Decimal Grid

/-! ### The entry budget -/

/-- Every reason an entry was not budgeted. -/
inductive EntrySizingSkip where
  | sizingUnconfigured
  | capReached
  | riskSizingUnavailable

/-- The fraction of equity risked on a trade. -/
def riskPct (raw : Option String) : Decimal :=
  let d := coerceDec raw (1 / 100)
  if d.lt (num 1) then d else num (1 / 100)

/-- The share of the free quote balance an entry may spend. -/
def freeCashCushion : Decimal := num (995 / 1000)

/-- The enabled block of the risk cap. -/
def MomentumConfig.riskCap (config : MomentumConfig) : Option MomentumRiskSizing :=
  config.riskSizing.filter (·.enabled)

/-- The budget the sizing block asks for, before any cap. -/
def desiredBudget (config : MomentumConfig) (equity : Decimal) : Option Decimal :=
  match config.entrySizing with
  | none => none
  | some sizing =>
      match sizing.mode with
      | .fixed => decOrNull (sizing.amount.map .raw)
      | .percentOfAccount => (decOrNull (sizing.percent.map .raw)).map (·.mul equity)

/-- The distance of the first stop at a price text; a price that is no number has none. -/
def entryStopDistance (config : MomentumConfig) (candles : List Candle) (price : String) :
    Option (Option Decimal) :=
  match decOrNull (some (.raw price)) with
  | none => some none
  | some price => initialStopDistanceFraction config candles price

/-- The desired budget under the risk cap, or `none` where the distance has no value. -/
def riskCapped (config : MomentumConfig) (equity desired : Decimal) (candles : List Candle)
    (price : String) : Option (Option Decimal) :=
  match config.riskCap with
  | none => some (some desired)
  | some risk => do
      let distance ← entryStopDistance config candles price
      return distance.map fun d => desired.min (((riskPct risk.riskPct).mul equity).div d)

/-- The free quote balance, or nothing where there is none to spend. -/
def freeCash (account : AccountSnapshot) (quoteAsset : String) : Decimal :=
  match account.balances quoteAsset with
  | none => num 0
  | some bal => if bal.free.gt (num 0) then bal.free else num 0

/-- What all profiles have deployed, where that is a number. -/
def deployedQuote (account : AccountSnapshot) : Decimal :=
  (decOrNull (account.deployedQuoteAcrossProfiles.map .raw)).getD (num 0)

/-- The share of the account that may be deployed, where the cap is on and has a number. -/
def MomentumConfig.capShare (config : MomentumConfig) : Option Decimal :=
  match config.accountCap with
  | some ⟨.percentOfAccount, percent⟩ => decOrNull (percent.map .raw)
  | _ => none

/-- The budget within the account's reserve cap. -/
def withinAccountCap (config : MomentumConfig) (account : AccountSnapshot)
    (equity budget : Decimal) : Except EntrySizingSkip Decimal :=
  match config.capShare with
  | none => .ok budget
  | some share =>
      let headroom := (share.mul equity).sub (deployedQuote account)
      if headroom.lte (num 0) then .error .capReached else .ok (budget.min headroom)

/-- The quote budget of an entry, or why it has none; `none` where a candle does not parse. -/
def resolveEntryBudget (config : MomentumConfig) (account : AccountSnapshot) (quoteAsset : String)
    (price : String) (candles : List Candle) : Option (Except EntrySizingSkip DecimalString) :=
  let equity := accountEquity account quoteAsset
  match desiredBudget config equity with
  | none => some (.error .sizingUnconfigured)
  | some desired => do
      match ← riskCapped config equity desired candles price with
      | none => return .error .riskSizingUnavailable
      | some desired =>
          let budget := (desired.max (num 0)).min
            ((freeCash account quoteAsset).mul freeCashCushion)
          return (withinAccountCap config account equity budget).map .printed

/-! ### Quantities -/

/-- Every reason a size was refused. -/
inductive SizeSkipReason where
  | minQty
  | minNotional
  | invalidFilters
  | entryBelowStopNotional

def SizeSkipReason.text : SizeSkipReason → String
  | minQty => "min-qty"
  | minNotional => "min-notional"
  | invalidFilters => "invalid-filters"
  | entryBelowStopNotional => "entry-below-stop-notional"

def SizeSkipReason.ofSizeSkip : SizeSkip → SizeSkipReason
  | .minQty => minQty
  | .minNotional => minNotional

def SizeSkipReason.ofEntryStopSkip : EntryStopSkip → SizeSkipReason
  | .entryBelowStopNotional => entryBelowStopNotional
  | .invalidFilters => invalidFilters

/-- The base quantity a quote budget buys, sellable at the first stop. -/
def computeEntryQuantity (quoteAmount : DecimalString) (currentPrice : String)
    (filters : SymbolFilters) (stop : Option EntryStopFloor) :
    Except SizeSkipReason DecimalString :=
  match parseFilters filters with
  | none => .error .invalidFilters
  | some parsed =>
      match parse currentPrice, quoteAmount.toDecimal with
      | some price, some budget =>
          if price.lte (num 0) then .error .invalidFilters
          else
            let quantity := roundToStep (budget.div price) parsed.step
            match finalise quantity price parsed with
            | .error skip => .error (.ofSizeSkip skip)
            | .ok sized =>
                match applyEntryStopFloor quantity price parsed stop with
                | .error skip => .error (.ofEntryStopSkip skip)
                | .ok _ => .ok sized
      | _, _ => .error .invalidFilters

/-- The multiplier between a trigger and its limit leg; a native trail has no limit leg. -/
def entryLimitOffset (config : MomentumConfig) : Decimal :=
  match config.protectiveStop with
  | some ps =>
      if ps.enabled && ps.mode ≠ some .nativeTrail then
        (unitFraction (decOrNull (some (.raw
          (ps.limitOffsetPercentage.getD defaultLimitOffset))))).getD (num 1)
      else num 1
  | none => num 1

/-- The first stop an entry is judged against; the open position's fallback stands in here. -/
def entryStopFloor (config : MomentumConfig) (candles : List Candle) (price : String) :
    Option (Option EntryStopFloor) :=
  match (decOrNull (some (.raw price))).filter (·.gt (num 0)) with
  | none => some none
  | some parsedPrice => do
      let initial ← initialStopDistanceFraction config candles parsedPrice
      let distance := initial.or (unitFraction (decOrNull (config.trailingStopPct.map .raw)))
      return distance.map fun d => ⟨d, entryLimitOffset config⟩

def EntryBlockerReason.ofSizingSkip : EntrySizingSkip → EntryBlockerReason
  | .sizingUnconfigured => sizingUnconfigured
  | .capReached => capReached
  | .riskSizingUnavailable => riskSizingUnavailable

def EntryBlockerReason.ofSizeSkip : SizeSkipReason → EntryBlockerReason
  | .minQty => minQty
  | .minNotional => minNotional
  | .invalidFilters => invalidFilters
  | .entryBelowStopNotional => entryBelowStopNotional

/-- The quantity of an entry at a price, or the reason it is not placed. -/
def sizeEntry (config : MomentumConfig) (account : AccountSnapshot) (quoteAsset price : String)
    (filters : SymbolFilters) (candles : List Candle) :
    Option (Except EntryBlockerReason DecimalString) := do
  match ← resolveEntryBudget config account quoteAsset price candles with
  | .error skip => return .error (.ofSizingSkip skip)
  | .ok budget =>
      let stop ← entryStopFloor config candles price
      return (computeEntryQuantity budget price filters stop).mapError .ofSizeSkip

/-- The layer a new position is stamped with: the weekend-gap trigger has none of its own. -/
def stampedLayer (config : MomentumConfig) (layer : Option EntryLayer) : Option EntryLayer :=
  layer.or (if config.entryTrigger = some .weekendGap then some .weekendGap else none)

/-- The held quantity an exit sells, rounded down to the lot step. -/
def computeExitQuantity (heldQuantity : DecimalString) (currentPrice : String)
    (filters : SymbolFilters) : Except SizeSkipReason DecimalString :=
  match parseFilters filters with
  | none => .error .invalidFilters
  | some parsed =>
      match parse currentPrice, heldQuantity.toDecimal with
      | some price, some held =>
          if price.lte (num 0) then .error .invalidFilters
          else
            match finalise (roundToStep held parsed.step) price parsed with
            | .error skip => .error (.ofSizeSkip skip)
            | .ok sized => .ok sized
      | _, _ => .error .invalidFilters

/-! ### Sized orders -/

/-- A rounded amount that passed the exchange's size check is the grid point under it. -/
theorem toDecimal_of_finalise {filters : SymbolFilters} {parsed : SizeFilters} {amount : ℚ}
    {price : Decimal} {sized : DecimalString} (hparsed : parseFilters filters = some parsed)
    (h : finalise (roundToStep (num amount) parsed.step) price parsed = .ok sized) :
    ∃ step : ℚ, 0 < step ∧ parsed.step = num step ∧
      sized = .printed (num (floorTo step amount)) ∧ 0 < floorTo step amount := by
  obtain ⟨hpos, -, hnotional, rfl⟩ := finalise_eq_ok h
  have hstep : parse filters.stepSize = some parsed.step := by
    unfold parseFilters at hparsed
    split at hparsed
    · next step minQty minNotional hstep _ _ =>
        split at hparsed
        · cases hparsed
        · cases hparsed
          exact hstep
    · cases hparsed
  have hstep_pos := parsed.step_pos
  generalize parsed.step = step at *
  cases step with
  | nan => simp [roundToStep, roundDown, div, floor, meetsMinNotional, gte] at hnotional
  | inf s => simp [roundToStep, roundDown, div, floor, mul, meetsMinNotional, gte] at hnotional
  | num u =>
      have hu : 0 < u := by simpa using hstep_pos
      rw [roundToStep_num hu] at hpos ⊢
      refine ⟨u, hu, rfl, toFixedStep_onGrid (parse_terminating hstep)
        (onGrid_floorTo u amount), ?_⟩
      simpa using hpos

/-- A sized entry went through the exchange's own size check. -/
theorem computeEntryQuantity_eq_ok {quoteAmount sized : DecimalString} {currentPrice : String}
    {filters : SymbolFilters} {stop : Option EntryStopFloor}
    (h : computeEntryQuantity quoteAmount currentPrice filters stop = .ok sized) :
    ∃ parsed price budget, parseFilters filters = some parsed ∧
      parse currentPrice = some price ∧ quoteAmount.toDecimal = some budget ∧
      price.lte (num 0) = false ∧
      finalise (roundToStep (budget.div price) parsed.step) price parsed = .ok sized := by
  unfold computeEntryQuantity at h
  split at h
  · cases h
  · next parsed hparsed =>
      split at h
      · next price budget hprice hbudget =>
          split at h
          · cases h
          · next hpos =>
              dsimp only at h
              split at h
              · cases h
              · next printed hfinal =>
                  split at h
                  · cases h
                  · cases h
                    exact ⟨parsed, price, budget, hparsed, hprice, hbudget,
                      Bool.eq_false_iff.mpr hpos, hfinal⟩
      · cases h

end TradingBot.Momentum
