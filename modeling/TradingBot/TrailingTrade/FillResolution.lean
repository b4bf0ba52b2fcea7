import TradingBot.Core.PreviewDrift
import TradingBot.TrailingTrade.PositionAdapter

/-!
# Folding fills

One raw fill folded onto a position: the adoption the position adapter is
handed, and the profit a sale realises against the cost basis. The fold is
shared by the live executor and the backtest engine; a text the decimal library
rejects throws.
-/

namespace TradingBot.TrailingTrade

open Decimal

/-- One exchange fill; on a sale the price only values what is left over. -/
structure RawFill where
  side : OrderSide
  price : Decimal
  quantity : Decimal

/-- The largest share of a position a leftover may be and still count as residue. -/
def crumbRatio : Decimal := num (1 / 100)

def isBelowMinNotional (quantity : Decimal) (price minNotional : Option Decimal) : Bool :=
  match minNotional, price with
  | some minNotional, some price =>
      minNotional.gt (num 0) && price.gt (num 0) && (quantity.mul price).lt minNotional
  | _, _ => false

/-- What a sale left is residue the exchange will not take, rather than a position. -/
def isUnsellableDust (remaining priorQuantity : Decimal)
    (price stepSize minNotional : Option Decimal) :
    Bool :=
  if remaining.lte (num 0) then true
  else if stepSize.any fun step => step.gt (num 0) && remaining.lt step then true
  else
    let isCrumb := priorQuantity.gt (num 0) && (remaining.div priorQuantity).lt crumbRatio
    isCrumb && isBelowMinNotional remaining price minNotional

/-- A field of the position, unless it is absent or the empty text. -/
def filled (field : PositionView → Option DecimalString) (prior : Option PositionView) :
    Option DecimalString :=
  (prior.bind field).filter fun text => !text.isEmpty

/-- Fold one fill onto a position. -/
def resolveFill (prior : Option PositionView) (fill : RawFill)
    (stepSize minNotional : Option Decimal) :
    Except String AdoptedFill := do
  let prevQty ← ((filled (·.heldQuantity) prior).mapM newDecimalString).map (·.getD (num 0))
  let prevLbp ← (filled (·.avgEntryPrice) prior).mapM newDecimalString
  match fill.side with
  | .buy =>
      let nextQty := prevQty.add fill.quantity
      let nextLbp :=
        match prevLbp with
        | some prevLbp =>
            if prevQty.gt (num 0) then
              ((prevLbp.mul prevQty).add (fill.price.mul fill.quantity)).div nextQty
            else fill.price
        | none => fill.price
      return .buy (.printed nextLbp) (.printed nextQty)
  | .sell =>
      let remaining := prevQty.sub fill.quantity
      return if isUnsellableDust remaining prevQty (some fill.price) stepSize minNotional then
        .empty
        else .sellReduce (.printed remaining)

/-- The profit of one sale against the cost basis it consumed. -/
structure RealizedPnl where
  realizedPnl : DecimalString
  costBasisQuote : DecimalString

/-- What a sale realises; `none` where the position has no known cost basis. -/
def realizedPnlOnSell (prior : Option PositionView) (soldQty proceeds : Decimal) :
    Except String (Option RealizedPnl) :=
  match filled (·.avgEntryPrice) prior, filled (·.heldQuantity) prior with
  | some avgEntryPrice, some heldQuantity => do
      let avgEntry ← newDecimalString avgEntryPrice
      let heldBefore ← newDecimalString heldQuantity
      if heldBefore.lte (num 0) || soldQty.lte (num 0) then return none
      else
        let matchedQty := soldQty.min heldBefore
        let costBasisQuote := matchedQty.mul avgEntry
        let matchedProceeds := (proceeds.mul matchedQty).div soldQty
        return some
          { realizedPnl := .printed (matchedProceeds.sub costBasisQuote)
            costBasisQuote := .printed costBasisQuote }
  | _, _ => .ok none

/-- Adopt a fill as the replay engine does: without filters, and no change where none is due. -/
def adoptFill (state : TTState) (fill : RawFill) : Except String TTState := do
  let adopted ← resolveFill (readPosition state) fill none none
  return (applyFill state adopted).getD state

/-! ### The fold on numbers -/

section Numbers

variable {prior : Option PositionView} {prevQty price quantity : ℚ}

theorem filled_printed {field : PositionView → Option DecimalString} {view : PositionView}
    {d : Decimal} (hfield : field view = some (.printed d)) :
    filled field (some view) = some (.printed d) := by
  rw [filled, Option.bind_some, hfield]
  rfl

@[simp] theorem newDecimalString_printed (d : Decimal) :
    newDecimalString (.printed d) = .ok d := rfl

/-- What the position reads as: the held quantity, zero when absent, and the cost basis. -/
structure Reads (prior : Option PositionView) (prevQty : Decimal) (prevLbp : Option Decimal) :
    Prop where
  quantity : ((filled (·.heldQuantity) prior).mapM newDecimalString).map (·.getD (num 0)) =
    .ok prevQty
  basis : (filled (·.avgEntryPrice) prior).mapM newDecimalString = .ok prevLbp

theorem reads_empty : Reads (some ⟨none, none⟩) (num 0) none := ⟨rfl, rfl⟩

theorem reads_printed (average quantity : ℚ) :
    Reads (some ⟨some (.printed (num average)), some (.printed (num quantity))⟩)
      (num quantity) (some (num average)) :=
  ⟨rfl, rfl⟩

/-- A buy of nothing held sets the cost basis to its price. -/
theorem resolveFill_buy_fresh (reads : Reads prior (num 0) none)
    (stepSize minNotional : Option Decimal) :
    resolveFill prior ⟨.buy, num price, num quantity⟩ stepSize minNotional =
      .ok (.buy (.printed (num price)) (.printed (num quantity))) := by
  unfold resolveFill
  rw [reads.quantity, reads.basis]
  simp [bind, Except.bind, pure, Except.pure]

theorem resolveFill_buy_add {prevLbp : ℚ} (reads : Reads prior (num prevQty) (some (num prevLbp)))
    (hprev : 0 < prevQty) (hquantity : 0 < quantity) (stepSize minNotional : Option Decimal) :
    resolveFill prior ⟨.buy, num price, num quantity⟩ stepSize minNotional =
      .ok (.buy (.printed (num ((prevLbp * prevQty + price * quantity) / (prevQty + quantity))))
        (.printed (num (prevQty + quantity)))) := by
  have hnext : prevQty + quantity ≠ 0 := (add_pos hprev hquantity).ne'
  unfold resolveFill
  rw [reads.quantity, reads.basis]
  simp [bind, Except.bind, pure, Except.pure, hprev, div_num hnext]

/-- Without filters a sale flattens exactly when nothing is left. -/
theorem resolveFill_sell {prevLbp : Option Decimal} (reads : Reads prior (num prevQty) prevLbp)
    (price quantity : ℚ) :
    resolveFill prior ⟨.sell, num price, num quantity⟩ none none =
      .ok (if prevQty - quantity ≤ 0 then .empty
        else .sellReduce (.printed (num (prevQty - quantity)))) := by
  unfold resolveFill
  rw [reads.quantity, reads.basis]
  by_cases hleft : prevQty - quantity ≤ 0
  · simp [bind, Except.bind, pure, Except.pure, isUnsellableDust, hleft]
  · simp [bind, Except.bind, pure, Except.pure, isUnsellableDust, isBelowMinNotional, hleft]

/-- A sale of at most what is held consumes its share of the cost basis. -/
theorem realizedPnlOnSell_matched {average sold held proceeds : ℚ} (hsold : 0 < sold)
    (hle : sold ≤ held) :
    realizedPnlOnSell (some ⟨some (.printed (num average)), some (.printed (num held))⟩)
        (num sold) (num proceeds) =
      .ok (some ⟨.printed (num (proceeds - sold * average)), .printed (num (sold * average))⟩) := by
  have hheld : 0 < held := hsold.trans_le hle
  have hproceeds : proceeds * sold / sold = proceeds := mul_div_cancel_right₀ _ hsold.ne'
  unfold realizedPnlOnSell
  rw [filled_printed rfl, filled_printed rfl]
  simp [bind, Except.bind, pure, Except.pure, hheld, hsold, min_eq_left hle, div_num hsold.ne',
    hproceeds]

end Numbers

/-! ### Positions that are flat, or held at a known cost -/

section Held

variable {state : TTState} {average quantity : ℚ}

/-- A current-schema body without a position. -/
structure Flat (state : TTState) : Prop where
  schema : isCurrentSchema state = true
  avgEntryPrice : state.avgEntryPrice = none
  heldQuantity : state.heldQuantity = none

/-- A current-schema body that holds a quantity at an average cost. -/
structure Held (state : TTState) (average quantity : ℚ) : Prop where
  schema : isCurrentSchema state = true
  avgEntryPrice : state.avgEntryPrice = some (.printed (num average))
  heldQuantity : state.heldQuantity = some (.printed (num quantity))
  quantity_pos : 0 < quantity

theorem Flat.readPosition (flat : Flat state) : readPosition state = some ⟨none, none⟩ := by
  simp [TrailingTrade.readPosition, flat.schema, flat.avgEntryPrice, flat.heldQuantity]

theorem Held.readPosition (held : Held state average quantity) :
    readPosition state =
      some ⟨some (.printed (num average)), some (.printed (num quantity))⟩ := by
  simp [TrailingTrade.readPosition, held.schema, held.avgEntryPrice, held.heldQuantity]

end Held

end TradingBot.TrailingTrade
