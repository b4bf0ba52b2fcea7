import TradingBot.Backtest.FillModel
import Mathlib.Tactic.Linarith
import Mathlib.Tactic.FieldSimp
import Mathlib.Tactic.Ring

/-!
# Fills the account covers

Both fill models answer with at most one fill, and one the account can pay for:
a buy costs no more than the free quote and a sell delivers no more than the
free base. Under fees of at most the whole notional a sell of the candle model
never costs money.
-/

namespace TradingBot.Backtest

open Grid ReservedWallet

def FillOutcome.fills : FillOutcome → List Fill
  | .filled fills | .partialFill fills _ => fills
  | .rejected _ | .rest _ => []

/-- The account of the input pays for the fill. -/
structure Covered (input : FillInput) (fill : Fill) : Prop where
  qty_pos : 0 < fill.qty
  buy : input.intent.side = .buy →
    fill.notional + fill.fee ≤ (holding input.account input.symbolInfo.quoteAsset).free
  sell : input.intent.side = .sell →
    fill.qty ≤ (holding input.account input.symbolInfo.baseAsset).free

def FillModel.Covers (model : FillModel) : Prop :=
  ∀ input outcome, model.fill input = some outcome →
    outcome.fills = [] ∨ ∃ fill, outcome.fills = [fill] ∧ Covered input fill

/-! ### Quantities the account affords -/

section Affordable

variable {value step q : ℚ} {side : OrderSide} {requestedQty price feeBps : ℚ} {account : Wallet}
  {info : SymbolInfo}

theorem roundToStep_le (h : roundToStep value step = some q) : q ≤ value := by
  unfold roundToStep at h
  split at h
  · cases h
  · next hstep =>
      cases h
      exact floorTo_le (not_le.mp hstep) value

theorem Fill.cost_eq (fill : Fill) :
    fill.notional + fill.fee = fill.qty * (fill.price * (1 + fill.feeBps / 10000)) := by
  simp only [Fill.fee, Fill.notional]
  ring

theorem affordableQty_buy
    (hq : affordableQty .buy requestedQty price feeBps account info step = some q)
    (hpos : 0 < q) :
    0 < price * (1 + feeBps / 10000) ∧
      q * (price * (1 + feeBps / 10000)) ≤ (holding account info.quoteAsset).free := by
  simp only [affordableQty] at hq
  split at hq
  · cases hq
    exact absurd hpos (lt_irrefl 0)
  · next hunit =>
      obtain ⟨maxByBalance, hmax, hq⟩ := Option.bind_eq_some_iff.mp hq
      cases hq
      have hcost : 0 < price * (1 + feeBps / 10000) := not_le.mp hunit
      refine ⟨hcost, ?_⟩
      rw [← le_div_iff₀ hcost]
      exact (min_le_right _ _).trans (roundToStep_le hmax)

theorem affordableQty_sell
    (hq : affordableQty .sell requestedQty price feeBps account info step = some q) :
    q ≤ (holding account info.baseAsset).free := by
  obtain ⟨held, hheld, hq⟩ := Option.bind_eq_some_iff.mp hq
  cases hq
  exact (min_le_right _ _).trans (roundToStep_le hheld)

end Affordable

/-! ### The candle model -/

section Ohlcv

variable {opts : OhlcvFillModelOptions} {input : FillInput} {requestedQty step : ℚ}
  {priced : Priced} {outcome : FillOutcome} {bar : Candle} {qty capped : ℚ}

theorem volumeCapped_le (h : opts.volumeCapped qty bar step = some capped) : capped ≤ qty := by
  unfold OhlcvFillModelOptions.volumeCapped at h
  split at h
  · cases h
    exact le_rfl
  · obtain ⟨cap, -, h⟩ := Option.bind_eq_some_iff.mp h
    cases h
    exact min_le_left _ _

/-- What sizing an order can come to: a refusal, or one fill that passed the filters. -/
theorem settle_cases (h : opts.settle input requestedQty step priced = some outcome) :
    outcome.fills = [] ∨ ∃ affordable fillable,
      affordableQty input.intent.side requestedQty priced.price priced.feeBps input.account
        input.symbolInfo step = some affordable ∧
      0 < affordable ∧ fillable ≤ affordable ∧ 0 < fillable ∧
      input.symbolInfo.filters.minNotional ≤ fillable * priced.price ∧
      outcome.fills = [⟨priced.price, fillable, priced.feeBps, input.nowMs⟩] := by
  unfold OhlcvFillModelOptions.settle at h
  dsimp only at h
  split at h
  · cases h
    exact .inl rfl
  obtain ⟨affordable, haffordable, h⟩ := Option.bind_eq_some_iff.mp h
  split at h
  · cases h
    exact .inl rfl
  next hpositive =>
  obtain ⟨fillable, hfillable, h⟩ := Option.bind_eq_some_iff.mp h
  split at h
  · cases h
    exact .inl rfl
  next hfills =>
  split at h
  · cases h
    exact .inl rfl
  split at h
  · cases h
    exact .inl rfl
  next hnotional =>
  have hworth : input.symbolInfo.filters.minNotional ≤ fillable * priced.price := by
    simpa [meetsMinNotional] using hnotional
  refine .inr ⟨affordable, fillable, haffordable, not_le.mp hpositive, volumeCapped_le hfillable,
    not_le.mp hfills, hworth, ?_⟩
  split at h
  · cases h
    rfl
  · cases h
    rfl

theorem fill_settles (h : opts.fill input = some outcome) :
    outcome.fills = [] ∨ ∃ requestedQty step bars priced,
      opts.resolveFillPrice input.intent.side input.params bars input.symbolInfo.filters.tickSize
        input.armed = some (.priced priced) ∧
      opts.settle input requestedQty step priced = some outcome := by
  unfold OhlcvFillModelOptions.fill at h
  split at h
  · cases h
  split at h
  · cases h
    exact .inl rfl
  obtain ⟨requestedQty, -, h⟩ := Option.bind_eq_some_iff.mp h
  split at h
  · cases h
    exact .inl rfl
  obtain ⟨price, hprice, h⟩ := Option.bind_eq_some_iff.mp h
  cases price with
  | uncrossed =>
      cases h
      exact .inl rfl
  | armed =>
      cases h
      exact .inl rfl
  | priced priced => exact .inr ⟨requestedQty, _, _, priced, hprice, h⟩

theorem settle_covered (h : opts.settle input requestedQty step priced = some outcome) :
    outcome.fills = [] ∨ ∃ fill, outcome.fills = [fill] ∧ Covered input fill := by
  rcases settle_cases h with hnone |
    ⟨affordable, fillable, haffordable, hpositive, hle, hfills, -, hfill⟩
  · exact .inl hnone
  refine .inr ⟨_, hfill, hfills, ?_, ?_⟩
  · intro hside
    rw [hside] at haffordable
    obtain ⟨hunit, hcost⟩ := affordableQty_buy haffordable hpositive
    rw [Fill.cost_eq]
    exact (mul_le_mul_of_nonneg_right hle hunit.le).trans hcost
  · intro hside
    rw [hside] at haffordable
    exact hle.trans (affordableQty_sell haffordable)

theorem ohlcv_covers (opts : OhlcvFillModelOptions) : (ohlcvFillModel opts).Covers := by
  intro input outcome h
  rcases fill_settles h with hnone | ⟨requestedQty, step, bars, priced, -, hsettle⟩
  · exact .inl hnone
  · exact settle_covered hsettle

theorem limitFill_feeBps {side : OrderSide} {limit feeBps : ℚ} {bars : List Candle}
    {other : FillPrice} (hother : other = .uncrossed ∨ other = .armed)
    (h : some ((opts.limitFill side limit feeBps bars).elim other .priced) =
      some (.priced priced)) :
    priced.feeBps = feeBps := by
  unfold OhlcvFillModelOptions.limitFill at h
  cases hcross : firstCrossBar side limit bars with
  | none =>
      rw [hcross] at h
      rcases hother with rfl | rfl
      · cases h
      · cases h
  | some bar =>
      rw [hcross] at h
      cases h
      rfl

theorem resolveFillPrice_feeBps {side : OrderSide} {params : OrderParams} {bars : List Candle}
    {tick : ℚ} {armed : Bool}
    (h : opts.resolveFillPrice side params bars tick armed = some (.priced priced)) :
    priced.feeBps = opts.makerBps ∨ priced.feeBps = opts.takerBps := by
  unfold OhlcvFillModelOptions.resolveFillPrice at h
  split at h
  · split at h
    · cases h
    · split at h
      · cases h
      · cases h
        exact .inr rfl
  · obtain ⟨limit, -, h⟩ := Option.bind_eq_some_iff.mp h
    split at h
    · cases h
    · exact .inl (limitFill_feeBps (.inl rfl) h)
  · obtain ⟨stop, -, h⟩ := Option.bind_eq_some_iff.mp h
    obtain ⟨limit, -, h⟩ := Option.bind_eq_some_iff.mp h
    split at h
    · cases h
    split at h
    · exact .inr (limitFill_feeBps (.inr rfl) h)
    split at h
    · cases h
    dsimp only at h
    split at h
    · cases h
      exact .inr rfl
    · exact .inr (limitFill_feeBps (.inr rfl) h)

/-- A sell whose fee is at most its notional brings money in, where the filter is not negative. -/
theorem ohlcv_proceeds_nonneg (hmaker : opts.makerBps ≤ 10000) (htaker : opts.takerBps ≤ 10000)
    (hfilter : 0 ≤ input.symbolInfo.filters.minNotional)
    (h : (ohlcvFillModel opts).fill input = some outcome) {fill : Fill}
    (hfill : fill ∈ outcome.fills) : 0 ≤ fill.notional - fill.fee := by
  rcases fill_settles h with hnone | ⟨requestedQty, step, bars, priced, hprice, hsettle⟩
  · rw [hnone] at hfill
    cases hfill
  rcases settle_cases hsettle with hnone | ⟨affordable, fillable, -, -, -, -, hworth, hfills⟩
  · rw [hnone] at hfill
    cases hfill
  rw [hfills, List.mem_singleton] at hfill
  subst hfill
  have hfee : priced.feeBps ≤ 10000 := by
    rcases resolveFillPrice_feeBps hprice with heq | heq
    · rw [heq]
      exact hmaker
    · rw [heq]
      exact htaker
  have hnotional : 0 ≤ priced.price * fillable := by
    rw [mul_comm]
    exact hfilter.trans hworth
  have hkept : 0 ≤ 1 - priced.feeBps / 10000 := by linarith
  calc (0 : ℚ) ≤ priced.price * fillable * (1 - priced.feeBps / 10000) := mul_nonneg hnotional hkept
    _ = _ := by
      simp only [Fill.fee, Fill.notional]
      ring

end Ohlcv

/-! ### The frictionless model -/

theorem ideal_covers : idealFillModel.Covers := by
  intro input outcome h
  simp only [idealFillModel, idealFill] at h
  split at h
  · cases h
    exact .inl rfl
  next hpositive =>
  rw [not_or, not_le, not_le] at hpositive
  split at h
  · next hfunded =>
      cases h
      refine .inr ⟨_, rfl, hpositive.1, ?_, ?_⟩
      · intro hside
        rw [idealFunded, hside] at hfunded
        simpa [Fill.notional, Fill.fee, mul_comm] using hfunded
      · intro hside
        rw [idealFunded, hside] at hfunded
        simpa using hfunded
  · cases h
    exact .inl rfl

end TradingBot.Backtest
