import TradingBot.Backtest.Conservation
import TradingBot.Backtest.BarByBar

/-!
# An order and the funds it has locked

A resting buy locks the most any fill of it can cost: its order price lifted by
the half-spread, and the fee. While nothing free is negative, the order that has
locked all of it fills in full wherever it crosses, but for the volume cap and
the minimums of the exchange; what a partial fill leaves has locked all of its
own cost again.
-/

namespace TradingBot.Backtest

open Grid InsertionMap ReservedWallet LabelledRun

namespace OhlcvFillModelOptions

variable {opts : OhlcvFillModelOptions} {params : OrderParams} {bars : List Candle} {bar : Candle}
  {tick price limit feeBps : ℚ} {armed : Bool} {priced : Priced} {info : SymbolInfo}
  {intent : OrderIntent}

/-- No fee and no haircut is negative. -/
structure Sane (opts : OhlcvFillModelOptions) : Prop where
  makerBps : 0 ≤ opts.makerBps
  takerBps : 0 ≤ opts.takerBps
  slippageBps : 0 ≤ opts.slippageBps
  spreadBps : 0 ≤ opts.spreadBps

theorem Sane.one_le_spread (h : opts.Sane) : 1 ≤ opts.spreadFactor .buy := by
  have := h.spreadBps
  rw [spreadFactor]
  linarith

theorem Sane.one_le_slippage (h : opts.Sane) : 1 ≤ opts.slippageFactor .buy := by
  have := h.slippageBps
  rw [slippageFactor]
  linarith

/-- The fee an order of the type is charged. -/
def feeOf (opts : OhlcvFillModelOptions) (type : OrderType) : ℚ :=
  if type = .limit then opts.makerBps else opts.takerBps

theorem Sane.feeOf_nonneg (h : opts.Sane) (type : OrderType) : 0 ≤ opts.feeOf type := by
  unfold feeOf
  split
  · exact h.makerBps
  · exact h.takerBps

def RestsAt (params : OrderParams) (price : ℚ) : Prop :=
  (params.type = .limit ∨ params.type = .stopLossLimit) ∧ 0 < price ∧
    params.price.or params.stopPrice = some price

/-- What a unit of a buy at the price can cost at most. -/
def unitLock (opts : OhlcvFillModelOptions) (type : OrderType) (price : ℚ) : ℚ :=
  price * opts.spreadFactor .buy * (1 + opts.feeOf type / 10000)

theorem reserve_buy (hside : intent.side = .buy) (hrests : RestsAt params price) :
    opts.reserve intent params info =
      some ⟨info.quoteAsset, opts.unitLock params.type price * params.quantity⟩ := by
  have hkind : params.type ≠ .stopLoss := by
    rcases hrests.1 with h | h
    · rw [h]
      decide
    · rw [h]
      decide
  rw [reserve, if_neg hkind, hside]
  simp only [hrests.2.2, Option.getD_some, unitLock, feeOf]
  congr 2
  ring

theorem Sane.unitLock_pos (h : opts.Sane) (hprice : 0 < price) (type : OrderType) :
    0 < opts.unitLock type price := by
  have hspread := h.one_le_spread
  have hfee := h.feeOf_nonneg type
  rw [unitLock]
  positivity

/-! ### What a fill can cost -/

theorem roundToTick_bounds (h : roundToTick price tick = some limit) :
    limit ≤ price ∧ limit = floorTo tick price := by
  unfold roundToTick at h
  split at h
  · cases h
  · next htick =>
      cases h
      exact ⟨floorTo_le (not_le.mp htick) price, rfl⟩

theorem limitFill_bounds (h : opts.limitFill .buy limit feeBps bars = some priced) :
    priced.price = limit * opts.spreadFactor .buy ∧ priced.feeBps = feeBps ∧ priced.bar ∈ bars := by
  obtain ⟨bar, hbar, rfl⟩ := Option.map_eq_some_iff.mp h
  exact ⟨rfl, rfl, List.mem_of_find?_eq_some hbar⟩

/-- Where a buy can execute: above nothing, and at most at its own price after the half-spread. -/
structure WithinLock (opts : OhlcvFillModelOptions) (params : OrderParams) (price : ℚ)
    (bars : List Candle) (priced : Priced) : Prop where
  pos : 0 < priced.price
  le : priced.price ≤ price * opts.spreadFactor .buy
  feeBps : priced.feeBps = opts.feeOf params.type
  bar : priced.bar ∈ bars

theorem withinLock_limitFill {other : FillPrice} (hsane : opts.Sane) (hlimit : 0 < limit)
    (hle : limit ≤ price) (hother : ∀ fill, other ≠ .priced fill)
    {later : List Candle} (hlater : ∀ bar ∈ later, bar ∈ bars)
    (h : some ((opts.limitFill .buy limit (opts.feeOf params.type) later).elim other .priced) =
      some (.priced priced)) : opts.WithinLock params price bars priced := by
  have hspread := hsane.one_le_spread
  cases hfill : opts.limitFill .buy limit (opts.feeOf params.type) later with
  | none =>
      rw [hfill] at h
      exact absurd (Option.some.inj h) (hother priced)
  | some fill =>
      rw [hfill] at h
      cases h
      obtain ⟨hprice, hfee, hbar⟩ := limitFill_bounds hfill
      refine ⟨?_, ?_, hfee, hlater _ hbar⟩
      · rw [hprice]
        positivity
      · rw [hprice]
        exact mul_le_mul_of_nonneg_right hle (by linarith)

theorem withinLock (hsane : opts.Sane) (hrests : RestsAt params price)
    (h : opts.resolveFillPrice .buy params bars tick armed = some (.priced priced)) :
    opts.WithinLock params price bars priced := by
  obtain ⟨htype | htype, hpos, hprice⟩ := hrests
  · have hfee : opts.feeOf params.type = opts.makerBps := by rw [feeOf, if_pos htype]
    unfold resolveFillPrice at h
    rw [htype] at h
    obtain ⟨limit, hlimit, h⟩ := Option.bind_eq_some_iff.mp h
    split at h
    · cases h
    next hpositive =>
    have hown : params.price.getD 0 ≤ price := by
      cases hlisted : params.price with
      | none => exact hpos.le
      | some listed =>
          rw [hlisted] at hprice
          exact (Option.some.inj hprice).le
    rw [← hfee] at h
    exact withinLock_limitFill hsane (not_le.mp hpositive)
      ((roundToTick_bounds hlimit).1.trans hown) (fun _ => FillPrice.noConfusion)
      (fun _ hbar => hbar) h
  · have hfee : opts.feeOf params.type = opts.takerBps := by
      rw [feeOf, if_neg (by rw [htype]; decide)]
    rw [resolveFillPrice_stopLimit htype, hprice] at h
    obtain ⟨stop, -, h⟩ := Option.bind_eq_some_iff.mp h
    obtain ⟨limit, hlimit, h⟩ := Option.bind_eq_some_iff.mp h
    have hle : limit ≤ price := (roundToTick_bounds hlimit).1
    have hspread := hsane.one_le_spread
    have hslippage := hsane.one_le_slippage
    unfold stopLimitPrice at h
    rw [← hfee] at h
    split at h
    · cases h
    next hpositive =>
    rw [not_or, not_le, not_le] at hpositive
    obtain ⟨hstop, hlimit⟩ := hpositive
    split at h
    · exact withinLock_limitFill hsane hlimit hle (fun _ => FillPrice.noConfusion)
        (fun _ hbar => hbar) h
    split at h
    · cases h
    next armBar harm =>
    dsimp only at h
    split at h
    · -- a marketable trigger executes at most at the limit
      cases h
      have htrigger : 0 < stopTrigger .buy stop armBar := lt_max_of_lt_left hstop
      refine ⟨lt_min (by positivity) (by positivity), ?_, rfl, List.mem_of_find?_eq_some harm⟩
      exact (min_le_left _ _).trans (mul_le_mul_of_nonneg_right hle (by linarith))
    · exact withinLock_limitFill hsane hlimit hle (fun _ => FillPrice.noConfusion)
        (fun _ hbar => (List.dropWhile_sublist _).subset hbar) h

/-- No fill of an order costs more than the order locks for it. -/
theorem WithinLock.cost_le (h : opts.WithinLock params price bars priced) (hsane : opts.Sane)
    {quantity : ℚ} (hquantity : 0 ≤ quantity) :
    quantity * (priced.price * (1 + priced.feeBps / 10000)) ≤
      opts.unitLock params.type price * quantity := by
  have hfee := hsane.feeOf_nonneg params.type
  have hle := h.le
  rw [h.feeBps, unitLock, mul_comm quantity]
  refine mul_le_mul_of_nonneg_right ?_ hquantity
  exact mul_le_mul_of_nonneg_right hle (by positivity)

/-! ### Sizing a funded order -/

/-- The order fills in full, or for the share of the bar's volume, or is refused for something else
than its funds. -/
inductive Honoured (opts : OhlcvFillModelOptions) (info : SymbolInfo) (quantity : ℚ)
    (bars : List Candle) : FillOutcome → Prop
  | rested (armed : Bool) : Honoured opts info quantity bars (.rest armed)
  | filled (fill : Fill) (hquantity : fill.qty = quantity) :
      Honoured opts info quantity bars (.filled [fill])
  | capped (fill : Fill) (pct : ℚ) (bar : Candle) (hpct : opts.volumeCapPct = some pct)
      (hbar : bar ∈ bars)
      (hshare : fill.qty = floorTo info.filters.stepSize (bar.volume * pct / 100))
      (hless : fill.qty < quantity) :
      Honoured opts info quantity bars (.partialFill [fill] (quantity - fill.qty))
  | thin (pct : ℚ) (bar : Candle) (hpct : opts.volumeCapPct = some pct) (hbar : bar ∈ bars)
      (hless : floorTo info.filters.stepSize (bar.volume * pct / 100) < quantity) :
      Honoured opts info quantity bars (.rejected .liquidity)
  | belowMinQty (hmin : quantity < info.filters.minQty) :
      Honoured opts info quantity bars (.rejected .stepSize)
  | belowMinNotional (price : ℚ) (hmin : quantity * price < info.filters.minNotional) :
      Honoured opts info quantity bars (.rejected .minNotional)

variable {input : FillInput} {quantity : ℚ} {outcome : FillOutcome}

theorem volumeCapped_cases {capped step : ℚ}
    (h : opts.volumeCapped quantity bar step = some capped) :
    capped = quantity ∨ ∃ pct, opts.volumeCapPct = some pct ∧
      capped = floorTo step (bar.volume * pct / 100) ∧ capped < quantity := by
  unfold volumeCapped at h
  split at h
  · cases h
    exact .inl rfl
  next pct hpct =>
  obtain ⟨cap, hcap, h⟩ := Option.bind_eq_some_iff.mp h
  cases h
  have hshare : cap = floorTo step (bar.volume * pct / 100) := by
    unfold roundToStep at hcap
    split at hcap
    · cases hcap
    · cases hcap
      rfl
  rcases le_or_gt quantity cap with hle | hlt
  · exact .inl (min_eq_left hle)
  · rw [min_eq_right hlt.le]
    exact .inr ⟨pct, hpct, hshare, hlt⟩

theorem canFund_locked {account : Wallet} (hsane : opts.Sane) (hrests : RestsAt params price)
    (hfee : priced.feeBps = opts.feeOf params.type) (hquantity : 0 < quantity)
    (hfree : opts.unitLock params.type price * quantity ≤ (holding account info.quoteAsset).free) :
    canFundAtOrderPrice .buy quantity params priced.price priced.feeBps account info = true := by
  have hspread := hsane.one_le_spread
  have hnonneg := hsane.feeOf_nonneg params.type
  have hpos := hrests.2.1
  rw [canFundAtOrderPrice, hrests.2.2, Option.getD_some, hfee]
  have hunit : price * (1 + opts.feeOf params.type / 10000) ≤ opts.unitLock params.type price := by
    rw [unitLock]
    refine mul_le_mul_of_nonneg_right ?_ (by positivity)
    exact le_mul_of_one_le_right hpos.le hspread
  have hcost : price * quantity * (1 + opts.feeOf params.type / 10000) ≤
      opts.unitLock params.type price * quantity := by
    rw [mul_right_comm]
    exact mul_le_mul_of_nonneg_right hunit hquantity.le
  exact decide_eq_true (hcost.trans hfree)

theorem affordable_locked {account : Wallet} {affordable step : ℚ} (hsane : opts.Sane)
    (hwithin : opts.WithinLock params price bars priced) (hquantity : 0 < quantity)
    (hlots : OnGrid step quantity)
    (hfree : opts.unitLock params.type price * quantity ≤ (holding account info.quoteAsset).free)
    (h : affordableQty .buy quantity priced.price priced.feeBps account info step =
      some affordable) : affordable = quantity := by
  have hcost := (hwithin.cost_le hsane hquantity.le).trans hfree
  have hfee := hsane.feeOf_nonneg params.type
  have hprice := hwithin.pos
  have hunit : 0 < priced.price * (1 + priced.feeBps / 10000) := by
    rw [hwithin.feeBps]
    positivity
  simp only [affordableQty, if_neg (not_le.mpr hunit)] at h
  obtain ⟨maxByBalance, hmax, h⟩ := Option.bind_eq_some_iff.mp h
  cases h
  unfold roundToStep at hmax
  split at hmax
  · cases hmax
  next hstep =>
  cases hmax
  refine min_eq_left (hlots.le_floorTo (not_le.mp hstep) ?_)
  rw [le_div_iff₀ hunit]
  exact hcost

theorem settle_honoured (hside : input.intent.side = .buy) (hsane : opts.Sane)
    (hrests : RestsAt input.params price)
    (hwithin : opts.WithinLock input.params price bars priced)
    (hquantity : 0 < quantity) (hlots : OnGrid input.symbolInfo.filters.stepSize quantity)
    (hfree : opts.unitLock input.params.type price * quantity ≤
      (holding input.account input.symbolInfo.quoteAsset).free)
    (h : opts.settle input quantity input.symbolInfo.filters.stepSize priced = some outcome) :
    Honoured opts input.symbolInfo quantity bars outcome := by
  unfold settle at h
  dsimp only at h
  rw [hside, canFund_locked hsane hrests hwithin.feeBps hquantity hfree] at h
  obtain ⟨affordable, haffordable, h⟩ := Option.bind_eq_some_iff.mp h
  have hall := affordable_locked hsane hwithin hquantity hlots hfree haffordable
  subst hall
  split at h
  · next hnone => exact absurd hquantity (not_lt.mpr hnone)
  obtain ⟨fillable, hfillable, h⟩ := Option.bind_eq_some_iff.mp h
  rcases volumeCapped_cases hfillable with rfl | ⟨pct, hpct, hshare, hless⟩
  · rw [if_neg (not_le.mpr hquantity)] at h
    split at h
    · next hmin =>
        rw [decide_eq_false (lt_irrefl fillable)] at h
        cases h
        exact .belowMinQty hmin
    split at h
    · next hmin =>
        rw [decide_eq_false (lt_irrefl fillable)] at h
        cases h
        have hbelow : fillable * priced.price < input.symbolInfo.filters.minNotional := by
          simpa [meetsMinNotional] using hmin
        exact .belowMinNotional priced.price hbelow
    · rw [if_neg (lt_irrefl fillable)] at h
      cases h
      exact .filled _ rfl
  · have hthin : Honoured opts input.symbolInfo affordable bars (.rejected .liquidity) := by
      refine .thin pct priced.bar hpct hwithin.bar ?_
      rw [← hshare]
      exact hless
    rw [decide_eq_true hless] at h
    split at h
    · cases h
      exact hthin
    split at h
    · cases h
      exact hthin
    split at h
    · cases h
      exact hthin
    · cases h
      exact .capped ⟨priced.price, fillable, priced.feeBps, input.nowMs⟩ pct priced.bar hpct
        hwithin.bar hshare hless

/-- An evaluation of an order that finds its lock free rests it, or prices and sizes it. -/
theorem fill_locked (hquantity : 0 < input.params.quantity)
    (hlots : OnGrid input.symbolInfo.filters.stepSize input.params.quantity)
    (hside : input.intent.side = .buy) (hsane : opts.Sane)
    (hrests : RestsAt input.params price) (h : opts.fill input = some outcome) :
    (∃ armed, outcome = .rest armed) ∨
      ∃ priced, opts.WithinLock input.params price input.market.bars priced ∧
        opts.settle input input.params.quantity input.symbolInfo.filters.stepSize priced =
          some outcome := by
  have hround : ∀ requestedQty,
      roundToStep input.params.quantity input.symbolInfo.filters.stepSize = some requestedQty →
      requestedQty = input.params.quantity := by
    intro requestedQty hrounded
    unfold roundToStep at hrounded
    split at hrounded
    · cases hrounded
    next hstep =>
    cases hrounded
    exact le_antisymm (floorTo_le (not_le.mp hstep) _) (hlots.le_floorTo (not_le.mp hstep) le_rfl)
  rcases fill_cases h with hrest | ⟨-, requestedQty, hrounded, hempty⟩ |
    ⟨requestedQty, priced, hrounded, -, hprice, hsettle⟩
  · exact .inl hrest
  · rw [hround requestedQty hrounded] at hempty
    exact absurd hquantity (not_lt.mpr hempty)
  · rw [hround requestedQty hrounded] at hsettle
    rw [hside] at hprice
    exact .inr ⟨priced, withinLock hsane hrests hprice, hsettle⟩

end OhlcvFillModelOptions

/-! ### The lock over a run -/

namespace BacktestExecutor

variable {x : Exchange} {ex ex' : BacktestExecutor} {asset : String} {book : List RestingOrder}
  {ord : RestingOrder} {info : SymbolInfo} {symbol : String} {ctx : MarketContext}

/-- Nothing of the asset that is free is negative, and no order has locked a negative amount. -/
structure Solvent (asset : String) (ex : BacktestExecutor) (book : List RestingOrder) : Prop where
  free : 0 ≤ (holding ex.balances asset).free
  nonneg : ∀ ord ∈ book, 0 ≤ ord.reservedAmount

theorem free_adjust {w : Wallet} {other : String} {f : Holding ℚ → Holding ℚ}
    (h : 0 ≤ (holding w asset).free)
    (hf : other = asset → 0 ≤ (f (holding w asset)).free) :
    0 ≤ (holding (adjust other f w) asset).free := by
  rw [holding_adjust]
  split
  · next heq =>
      subst heq
      exact hf rfl
  · exact h

theorem Solvent.unlock (h : Solvent asset ex (ord :: book)) :
    Solvent asset (ex.unlock ord.reservedAsset ord.reservedAmount) book where
  free := free_adjust h.free fun _ => add_nonneg h.free (h.nonneg ord List.mem_cons_self)
  nonneg := fun other hother => h.nonneg other (List.mem_cons_of_mem ord hother)

theorem free_lockUpTo (h : 0 ≤ (holding ex.balances asset).free) (locked : String) (desired : ℚ) :
    0 ≤ (holding (ex.lockUpTo locked desired).2.balances asset).free := by
  refine free_adjust h ?_
  rintro rfl
  exact sub_nonneg.mpr (Holding.lockable_le h)

theorem Solvent.lockUpTo (h : Solvent asset ex book) {locked : String} {desired : ℚ}
    (hlocked : ord.reservedAmount = (ex.lockUpTo locked desired).1) :
    Solvent asset (ex.lockUpTo locked desired).2 (ord :: book) where
  free := free_lockUpTo h.free locked desired
  nonneg := by
    intro other hother
    rcases List.mem_cons.mp hother with rfl | hother
    · rw [hlocked]
      exact Holding.lockable_nonneg
    · exact h.nonneg other hother

/-- A fill the account covers takes nothing below zero, where sells of it pay. -/
theorem Solvent.applyFills (h : Solvent asset ex book) (hcovers : x.fillModel.Covers)
    (hpays : x.Pays asset) {input : FillInput} {outcome : FillOutcome}
    (hinfo : x.symbols symbol = some input.symbolInfo) (haccount : input.account = ex.balances)
    (houtcome : x.fillModel.fill input = some outcome) (reason : String) :
    Solvent asset (ex.applyFills input.intent.side reason input.symbolInfo outcome.fills) book := by
  rcases hcovers input outcome houtcome with hnone | ⟨fill, hfill, hcovered⟩
  · rw [hnone]
    exact h
  refine ⟨?_, h.nonneg⟩
  have hproceeds := fun hside hquote => hpays input outcome houtcome hside
    (Exchange.symbols_mem hinfo) hquote fill (by rw [hfill]; exact List.mem_singleton_self fill)
  rw [hfill]
  change 0 ≤
    (holding (ex.applyFill input.intent.side reason input.symbolInfo fill).balances asset).free
  unfold BacktestExecutor.applyFill
  cases hside : input.intent.side with
  | buy =>
      have hcost := hcovered.buy hside
      rw [haccount] at hcost
      have hspent : 0 ≤ (holding (adjust input.symbolInfo.quoteAsset
          (Holding.credit (-(fill.notional + fill.fee))) ex.balances) asset).free := by
        refine free_adjust h.free ?_
        rintro rfl
        change 0 ≤ _ + -(fill.notional + fill.fee)
        linarith
      exact free_adjust hspent fun _ => add_nonneg hspent hcovered.qty_pos.le
  | sell =>
      have hheld := hcovered.sell hside
      rw [haccount] at hheld
      have hdelivered : 0 ≤ (holding (adjust input.symbolInfo.baseAsset
          (Holding.credit (-fill.qty)) ex.balances) asset).free := by
        refine free_adjust h.free ?_
        rintro rfl
        change 0 ≤ _ + -fill.qty
        linarith
      exact free_adjust hdelivered fun hquote => add_nonneg hdelivered (hproceeds hside hquote)

theorem Solvent.evaluateOrder (h : Solvent asset ex (ord :: book)) (hcovers : x.fillModel.Covers)
    (hpays : x.Pays asset) (hinfo : x.symbols symbol = some info) {done : Evaluated}
    (hdone : ex.evaluateOrder x ctx info symbol ord = some done) :
    Solvent asset done.executor (done.kept.toList ++ book) := by
  obtain ⟨outcome, houtcome, hdone⟩ := Option.bind_eq_some_iff.mp hdone
  have hreleased := h.unlock
  cases outcome with
  | rest armed =>
      cases hdone
      have hamount := h.nonneg ord List.mem_cons_self
      refine ⟨free_lockUpTo hreleased.free _ _, ?_⟩
      intro other hother
      rcases List.mem_cons.mp hother with rfl | hother
      · exact hamount
      · exact hreleased.nonneg other hother
  | rejected reason =>
      cases hdone
      exact ⟨hreleased.free, hreleased.nonneg⟩
  | filled fills =>
      cases hdone
      exact hreleased.applyFills hcovers hpays hinfo rfl houtcome _
  | partialFill fills remainingQty =>
      obtain ⟨reservation, -, hdone⟩ := Option.bind_eq_some_iff.mp hdone
      cases hdone
      have hsettled := hreleased.applyFills hcovers hpays hinfo rfl houtcome ord.intent.reason
      exact hsettled.lockUpTo rfl

/-- A resting buy that has locked the most it can cost. -/
structure Secured (opts : OhlcvFillModelOptions) (x : Exchange) (info : SymbolInfo) (price : ℚ)
    (ord : RestingOrder) : Prop where
  symbol : x.symbols ord.symbol = some info
  side : ord.intent.side = .buy
  rests : OhlcvFillModelOptions.RestsAt ord.params price
  quantity : 0 < ord.params.quantity
  lots : OnGrid info.filters.stepSize ord.params.quantity
  asset : ord.reservedAsset = info.quoteAsset
  locked : opts.unitLock ord.params.type price * ord.params.quantity ≤ ord.reservedAmount

variable {opts : OhlcvFillModelOptions} {price : ℚ}

theorem Secured.released (hsecured : Secured opts x info price ord)
    (h : 0 ≤ (holding ex.balances info.quoteAsset).free) :
    opts.unitLock ord.params.type price * ord.params.quantity ≤
      (holding (ex.unlock ord.reservedAsset ord.reservedAmount).balances info.quoteAsset).free := by
  have hfree : (holding (ex.unlock ord.reservedAsset ord.reservedAmount).balances
      info.quoteAsset).free = (holding ex.balances info.quoteAsset).free + ord.reservedAmount := by
    rw [BacktestExecutor.unlock, hsecured.asset, holding_adjust_self]
    rfl
  rw [hfree]
  have hlocked := hsecured.locked
  linarith

theorem free_applyFill_buy {reason : String} {fill : Fill} (hqty : 0 ≤ fill.qty) :
    (holding ex.balances info.quoteAsset).free - (fill.notional + fill.fee) ≤
      (holding (ex.applyFill .buy reason info fill).balances info.quoteAsset).free := by
  rw [BacktestExecutor.applyFill]
  dsimp only
  rw [holding_adjust]
  split
  · next heq =>
      rw [← heq, holding_adjust_self]
      change _ ≤ _ + -(fill.notional + fill.fee) + fill.qty
      linarith
  · rw [holding_adjust_self]
    change _ ≤ _ + -(fill.notional + fill.fee)
    linarith

theorem lockable_remainder (hsane : opts.Sane) {params : OrderParams} {bars : List Candle}
    {priced : Priced} {quantity : ℚ} {fill : Fill} (reason : String)
    (hwithin : opts.WithinLock params price bars priced) (hprice : fill.price = priced.price)
    (hfee : fill.feeBps = priced.feeBps) (hqty : 0 < fill.qty)
    (hfree : opts.unitLock params.type price * quantity ≤
      (holding ex.balances info.quoteAsset).free) :
    opts.unitLock params.type price * (quantity - fill.qty) ≤
      (holding (ex.applyFill .buy reason info fill).balances info.quoteAsset).lockable
        (opts.unitLock params.type price * (quantity - fill.qty)) := by
  have hcost := hwithin.cost_le hsane hqty.le
  rw [← hprice, ← hfee, ← Fill.cost_eq] at hcost
  refine le_max_of_le_right (le_min le_rfl ?_)
  calc opts.unitLock params.type price * (quantity - fill.qty)
      = opts.unitLock params.type price * quantity
        - opts.unitLock params.type price * fill.qty := by
        ring
    _ ≤ (holding ex.balances info.quoteAsset).free - (fill.notional + fill.fee) :=
        sub_le_sub hfree hcost
    _ ≤ _ := free_applyFill_buy hqty.le

theorem Secured.evaluateOrder (hsecured : Secured opts x info price ord) (hsane : opts.Sane)
    (hmodel : x.fillModel = ohlcvFillModel opts)
    (hfree : 0 ≤ (holding ex.balances info.quoteAsset).free) {done : Evaluated}
    (hdone : ex.evaluateOrder x ctx info symbol ord = some done) :
    opts.Honoured info ord.params.quantity ctx.bars done.outcome ∧
      ∀ kept ∈ done.kept, Secured opts x info price kept := by
  have hreleased := hsecured.released hfree
  obtain ⟨outcome, houtcome, hdone⟩ := Option.bind_eq_some_iff.mp hdone
  rw [hmodel] at houtcome
  rcases OhlcvFillModelOptions.fill_locked hsecured.quantity hsecured.lots hsecured.side hsane
    hsecured.rests houtcome with ⟨armed, rfl⟩ | ⟨priced, hwithin, hsettle⟩
  · cases hdone
    refine ⟨.rested armed, ?_⟩
    intro kept hkept
    cases hkept
    exact ⟨hsecured.symbol, hsecured.side, hsecured.rests, hsecured.quantity, hsecured.lots,
      hsecured.asset, hsecured.locked⟩
  · have hhonoured := OhlcvFillModelOptions.settle_honoured hsecured.side hsane hsecured.rests
      hwithin hsecured.quantity hsecured.lots hreleased hsettle
    have hgone : ∀ kept : RestingOrder, kept ∉ (none : Option RestingOrder) := Option.not_mem_none
    cases outcome with
    | rest armed => exact (OhlcvFillModelOptions.settle_ne_rest hsettle).elim
    | rejected reason =>
        cases hdone
        exact ⟨hhonoured, fun kept hkept => absurd hkept (hgone kept)⟩
    | filled fills =>
        cases hdone
        exact ⟨hhonoured, fun kept hkept => absurd hkept (hgone kept)⟩
    | partialFill fills remainingQty =>
        obtain ⟨reservation, hreservation, hdone⟩ := Option.bind_eq_some_iff.mp hdone
        cases hdone
        refine ⟨hhonoured, ?_⟩
        intro kept hkept
        cases hkept
        rw [hmodel] at hreservation
        obtain ⟨fill, rfl, hqty, hless, rfl⟩ := OhlcvFillModelOptions.settle_partialFill hsettle
        obtain ⟨hprice, hfee⟩ : fill.price = priced.price ∧ fill.feeBps = priced.feeBps := by
          rcases settle_cases hsettle with hnone | ⟨affordable, fillable, -, -, -, -, -, hfills⟩
          · cases hnone
          · cases hfills
            exact ⟨rfl, rfl⟩
        have hshare : OnGrid info.filters.stepSize fill.qty := by
          cases hhonoured with
          | capped _ pct bar hpct hbar hshare hless =>
              rw [hshare]
              exact onGrid_floorTo _ _
        have hrests : OhlcvFillModelOptions.RestsAt
            { ord.params with quantity := ord.params.quantity - fill.qty } price := hsecured.rests
        have hlocks := @OhlcvFillModelOptions.reserve_buy opts
          { ord.params with quantity := ord.params.quantity - fill.qty } price info ord.intent
          hsecured.side hrests
        have hreserves : opts.reserve ord.intent
            { ord.params with quantity := ord.params.quantity - fill.qty } info =
              some reservation := hreservation
        rw [hlocks] at hreserves
        cases hreserves
        have hcovers :=
          lockable_remainder hsane ord.intent.reason hwithin hprice hfee hqty hreleased
        refine ⟨hsecured.symbol, hsecured.side, hrests, sub_pos.mpr hless, ?_, rfl, ?_⟩
        · obtain ⟨k, hk⟩ := hsecured.lots
          obtain ⟨j, hj⟩ := hshare
          refine ⟨k - j, ?_⟩
          rw [hk, hj]
          push_cast
          ring
        · rw [← hsecured.side] at hcovers
          exact hcovers

theorem secured_evaluateBook {orderId : ℕ} {book' : List RestingOrder} {info' : SymbolInfo}
    {pass : BookPass} (hsane : opts.Sane) (hmodel : x.fillModel = ohlcvFillModel opts)
    (hpays : x.Pays info.quoteAsset) (h : Solvent info.quoteAsset ex (book ++ book'))
    (hsecured : ∀ ord ∈ book, ord.orderId = orderId → Secured opts x info price ord)
    (hinfo : x.symbols symbol = some info')
    (hpass : evaluateBook x ctx info' symbol book ex = some pass) :
    Solvent info.quoteAsset pass.executor (pass.next ++ book') ∧
      (∀ kept ∈ pass.next, kept.orderId = orderId → Secured opts x info price kept) ∧
      ∀ entry ∈ pass.outcomes, entry.1.orderId = orderId →
        opts.Honoured info entry.1.params.quantity ctx.bars entry.2 := by
  have hcovers : x.fillModel.Covers := by
    rw [hmodel]
    exact ohlcv_covers opts
  induction book generalizing ex book' pass with
  | nil =>
      cases hpass
      exact ⟨h, List.forall_mem_nil _, List.forall_mem_nil _⟩
  | cons ord rest ih =>
      obtain ⟨hhead, hothers⟩ := List.forall_mem_cons.mp hsecured
      rcases BacktestExecutor.evaluateBook_cons hpass with ⟨-, later, hlater, rfl⟩ |
        ⟨hsymbol, done, later, hdone, hlater, rfl⟩
      · have hmoved : Solvent info.quoteAsset ex (rest ++ ord :: book') :=
          ⟨h.free, fun other hother => h.nonneg other (List.perm_middle.mem_iff.mp hother)⟩
        obtain ⟨hsolvent, hnext, houtcomes⟩ := ih hmoved hothers hlater
        refine ⟨⟨hsolvent.free, fun other hother => ?_⟩, List.forall_mem_cons.mpr ⟨hhead, hnext⟩,
          houtcomes⟩
        exact hsolvent.nonneg other (List.perm_middle.mem_iff.mpr hother)
      · have hdone' := h.evaluateOrder hcovers hpays hinfo hdone
        have hmoved : Solvent info.quoteAsset done.executor
            (rest ++ (done.kept.toList ++ book')) :=
          ⟨hdone'.free, fun other hother =>
            hdone'.nonneg other ((List.perm_append_comm_assoc _ _ _).mem_iff.mp hother)⟩
        obtain ⟨hsolvent, hnext, houtcomes⟩ := ih hmoved hothers hlater
        have hown : ord.orderId = orderId →
            opts.Honoured info ord.params.quantity ctx.bars done.outcome ∧
              ∀ kept ∈ done.kept, Secured opts x info price kept := by
          intro hid
          have hord := hhead hid
          have hsame : info' = info := by
            have heq := hord.symbol
            rw [hsymbol, hinfo] at heq
            exact Option.some.inj heq
          rw [hsame] at hdone
          exact hord.evaluateOrder hsane hmodel h.free hdone
        refine ⟨⟨hsolvent.free, fun other hother => ?_⟩, ?_, ?_⟩
        · rw [List.append_assoc] at hother
          exact hsolvent.nonneg other ((List.perm_append_comm_assoc _ _ _).mem_iff.mp hother)
        · intro kept hkept hid
          rcases List.mem_append.mp hkept with hkept | hkept
          · have hmem := Option.mem_toList.mp hkept
            exact (hown ((evaluateOrder_orderId hdone kept hmem).symm.trans hid)).2 kept hmem
          · exact hnext kept hkept hid
        · exact List.forall_mem_cons.mpr ⟨fun hid => (hown hid).1, houtcomes⟩

/-- The order is secured while it is on the book, and nothing is below zero. -/
structure Backed (opts : OhlcvFillModelOptions) (x : Exchange) (info : SymbolInfo) (price : ℚ)
    (orderId : ℕ) (ex : BacktestExecutor) : Prop where
  below : orderId < ex.nextOrderId
  solvent : Solvent info.quoteAsset ex ex.restingOrders
  secured : ∀ ord ∈ ex.restingOrders, ord.orderId = orderId → Secured opts x info price ord

variable {orderId : ℕ} {nowMs : ℤ} {intent : OrderIntent} {params : OrderParams}
  {result : DecisionResult} {balances : List (String × ℚ)} {infos : List SymbolInfo}

theorem Backed.congr (h : Backed opts x info price orderId ex)
    (hbalances : ex'.balances = ex.balances) (horders : ex'.restingOrders = ex.restingOrders)
    (hnext : ex'.nextOrderId = ex.nextOrderId) : Backed opts x info price orderId ex' where
  below := by
    rw [hnext]
    exact h.below
  solvent := by
    refine ⟨?_, ?_⟩
    · rw [hbalances]
      exact h.solvent.free
    · rw [horders]
      exact h.solvent.nonneg
  secured := by
    rw [horders]
    exact h.secured

theorem Backed.cancel (h : Backed opts x info price orderId ex) (cancelled : ℕ) :
    Backed opts x info price orderId (ex.cancel cancelled) := by
  have hmem : ∀ ord ∈ (ex.cancel cancelled).restingOrders, ord ∈ ex.restingOrders :=
    fun ord hord => List.mem_of_mem_filter hord
  refine ⟨?_, ⟨?_, fun ord hord => h.solvent.nonneg ord (hmem ord hord)⟩,
    fun ord hord => h.secured ord (hmem ord hord)⟩
  · unfold BacktestExecutor.cancel
    split
    · exact h.below
    · exact h.below
  · unfold BacktestExecutor.cancel
    split
    · exact h.solvent.free
    · next found hfound =>
        have hamount := h.solvent.nonneg found (List.mem_of_find?_eq_some hfound)
        exact free_adjust h.solvent.free fun _ => add_nonneg h.solvent.free hamount

theorem ohlcv_placeOrder_rests (hmodel : x.fillModel = ohlcvFillModel opts)
    (hplaced : ex.placeOrder x nowMs intent params = some (ex', result)) :
    (ex' = ex ∧ result ≠ .ok) ∨ ∃ info, x.symbols intent.symbol = some info ∧ result = .ok ∧
      ex.rest x intent params nowMs info = some ex' := by
  unfold BacktestExecutor.placeOrder at hplaced
  split at hplaced
  · cases hplaced
    exact .inl ⟨rfl, DecisionResult.noConfusion⟩
  next info hinfo =>
  split at hplaced
  · cases hplaced
    exact .inl ⟨rfl, DecisionResult.noConfusion⟩
  next market hmarket =>
  obtain ⟨outcome, houtcome, hplaced⟩ := Option.bind_eq_some_iff.mp hplaced
  have hrests : outcome = .rest false := by
    rw [hmodel] at houtcome
    simp only [ohlcvFillModel, OhlcvFillModelOptions.fill] at houtcome
    split at houtcome
    · cases houtcome
    · cases houtcome
      rfl
  subst hrests
  obtain ⟨rested, hrested, hplaced⟩ := Option.bind_eq_some_iff.mp hplaced
  cases hplaced
  exact .inr ⟨info, hinfo, rfl, hrested⟩

theorem Backed.placeOrder (h : Backed opts x info price orderId ex)
    (hmodel : x.fillModel = ohlcvFillModel opts)
    (hplaced : ex.placeOrder x nowMs intent params = some (ex', result)) :
    Backed opts x info price orderId ex' := by
  rcases ohlcv_placeOrder_rests hmodel hplaced with ⟨rfl, -⟩ | ⟨info', -, -, hrested⟩
  · exact h
  obtain ⟨reservation, -, hrested⟩ := Option.bind_eq_some_iff.mp hrested
  cases hrested
  refine ⟨Nat.lt_succ_of_lt h.below, ⟨free_lockUpTo h.solvent.free _ _, ?_⟩, ?_⟩
  · intro ord hord
    rcases List.mem_append.mp hord with hord | hord
    · exact h.solvent.nonneg ord hord
    · rw [List.mem_singleton.mp hord]
      exact Holding.lockable_nonneg
  · intro ord hord hid
    rcases List.mem_append.mp hord with hord | hord
    · exact h.secured ord hord hid
    · rw [List.mem_singleton.mp hord] at hid
      exact absurd hid.symm h.below.ne

theorem Backed.apply (h : Backed opts x info price orderId ex)
    (hmodel : x.fillModel = ohlcvFillModel opts) {decision : Decision}
    (happlied : ex.apply x nowMs decision = some (ex', result)) :
    Backed opts x info price orderId ex' := by
  cases decision with
  | noop =>
      cases happlied
      exact h
  | placeOrder intent params => exact h.placeOrder hmodel happlied
  | cancelOrder cancelled =>
      cases happlied
      exact h.cancel cancelled
  | replaceOrder cancelled intent params =>
      rw [BacktestExecutor.apply] at happlied
      split at happlied
      · exact (h.cancel cancelled).placeOrder hmodel happlied
      · split at happlied
        · cases happlied
          exact h
        · exact (h.cancel cancelled).placeOrder hmodel happlied
  | emitEvent eventType payload =>
      cases happlied
      exact h.congr rfl rfl rfl
  | setKv key value =>
      cases happlied
      exact h.congr rfl rfl rfl
  | deleteKv key =>
      cases happlied
      exact h.congr rfl rfl rfl

theorem Backed.meetCandle {pass : BookPass} (h : Backed opts x info price orderId ex)
    (hsane : opts.Sane) (hmodel : x.fillModel = ohlcvFillModel opts)
    (hpays : x.Pays info.quoteAsset) (hmeet : ex.meetCandle x symbol ctx = some pass) :
    Backed opts x info price orderId { pass.executor with restingOrders := pass.next } ∧
      ∀ entry ∈ pass.outcomes, entry.1.orderId = orderId →
        opts.Honoured info entry.1.params.quantity ctx.bars entry.2 := by
  have hmarket : Backed opts x info price orderId { ex with market := set symbol ctx ex.market } :=
    h.congr rfl rfl rfl
  rcases evaluateResting_cases hmeet with rfl | ⟨met, info', hinfo, hctx, hpass⟩
  · exact ⟨hmarket, List.forall_mem_nil _⟩
  have hsame : met = ctx := Option.some.inj (hctx.symm.trans get_set_self)
  subst hsame
  have hbook : Solvent info.quoteAsset { ex with market := set symbol met ex.market }
      (ex.restingOrders ++ []) := by
    rw [List.append_nil]
    exact hmarket.solvent
  obtain ⟨hsolvent, hsecured, houtcomes⟩ :=
    secured_evaluateBook hsane hmodel hpays hbook hmarket.secured hinfo hpass
  rw [List.append_nil] at hsolvent
  refine ⟨⟨?_, ⟨hsolvent.free, hsolvent.nonneg⟩, hsecured⟩, houtcomes⟩
  exact h.below.trans_eq (evaluateBook_orderIds hpass).2.symm

theorem Backed.step (h : Backed opts x info price orderId ex) (hsane : opts.Sane)
    (hmodel : x.fillModel = ohlcvFillModel opts) (hpays : x.Pays info.quoteAsset) {call : Call}
    (hstep : ex.step x call = some ex') : Backed opts x info price orderId ex' := by
  cases call with
  | apply nowMs decision =>
      obtain ⟨⟨applied, result⟩, happlied, rfl⟩ := Option.map_eq_some_iff.mp hstep
      exact h.apply hmodel happlied
  | setMarketContext symbol ctx =>
      obtain ⟨pass, hpass, rfl⟩ := Option.map_eq_some_iff.mp hstep
      exact (h.meetCandle hsane hmodel hpays hpass).1

theorem backed_placed (hsane : opts.Sane) (hmodel : x.fillModel = ohlcvFillModel opts)
    (hnonneg : ∀ ord ∈ ex.restingOrders, 0 ≤ ord.reservedAmount)
    (hbelow : ∀ ord ∈ ex.restingOrders, ord.orderId < ex.nextOrderId)
    (hinfo : x.symbols intent.symbol = some info) (hside : intent.side = .buy)
    (hrests : OhlcvFillModelOptions.RestsAt params price) (hquantity : 0 < params.quantity)
    (hlots : OnGrid info.filters.stepSize params.quantity)
    (hfree : opts.unitLock params.type price * params.quantity ≤
      (holding ex.balances info.quoteAsset).free)
    (hplaced : ex.placeOrder x nowMs intent params = some (ex', .ok)) :
    Backed opts x info price ex.nextOrderId ex' := by
  have hcost : 0 ≤ opts.unitLock params.type price * params.quantity :=
    mul_nonneg (hsane.unitLock_pos hrests.2.1 params.type).le hquantity.le
  have hopen : 0 ≤ (holding ex.balances info.quoteAsset).free := hcost.trans hfree
  rcases ohlcv_placeOrder_rests hmodel hplaced with ⟨-, hok⟩ | ⟨info', hinfo', -, hrested⟩
  · exact absurd rfl hok
  rw [hinfo] at hinfo'
  cases hinfo'
  have hlocks := @OhlcvFillModelOptions.reserve_buy opts params price info intent hside hrests
  obtain ⟨reservation, hreservation, hrested⟩ := Option.bind_eq_some_iff.mp hrested
  rw [hmodel] at hreservation
  cases hlocks.symm.trans hreservation
  cases hrested
  refine ⟨Nat.lt_succ_self _, ⟨free_lockUpTo hopen _ _, ?_⟩, ?_⟩
  · intro ord hord
    rcases List.mem_append.mp hord with hord | hord
    · exact hnonneg ord hord
    · rw [List.mem_singleton.mp hord]
      exact Holding.lockable_nonneg
  · intro ord hord hid
    rcases List.mem_append.mp hord with hord | hord
    · exact absurd hid (hbelow ord hord).ne
    · rw [List.mem_singleton.mp hord]
      exact ⟨hinfo, hside, hrests, hquantity, hlots, rfl,
        le_max_of_le_right (le_min le_rfl hfree)⟩

open LabelledRun

/-- A limit or stop-limit buy locks at least what any fill of it can cost. Placed with that much
free, on an exchange whose fees are at most the notional, it is honoured on every later candle, and
so is what partial fills leave of it. -/
theorem order_funds_itself (hsane : opts.Sane) (hside : intent.side = .buy)
    (hrests : OhlcvFillModelOptions.RestsAt params price) (hquantity : 0 < params.quantity)
    {reservation : FillReservation}
    (hreserve : opts.reserve intent params info = some reservation) :
    (∀ bars tick armed priced,
      opts.resolveFillPrice .buy params bars tick armed = some (.priced priced) →
      params.quantity * (priced.price * (1 + priced.feeBps / 10000)) ≤ reservation.amount) ∧
    ∀ (infos : List SymbolInfo) (balances : List (String × ℚ)) (ex placed later : BacktestExecutor)
      (nowMs : ℤ) (symbol : String) (ctx : MarketContext) (pass : BookPass) (ord : RestingOrder)
      (outcome : FillOutcome), opts.makerBps ≤ 10000 → opts.takerBps ≤ 10000 →
      (∀ info ∈ infos, 0 ≤ info.filters.minNotional) →
      OnGrid info.filters.stepSize params.quantity →
      Reach (step ⟨ohlcvFillModel opts, infos⟩) (fun _ _ => True) (create balances) ex →
      Exchange.symbols ⟨ohlcvFillModel opts, infos⟩ intent.symbol = some info →
      reservation.amount ≤ (holding ex.balances reservation.asset).free →
      ex.placeOrder ⟨ohlcvFillModel opts, infos⟩ nowMs intent params = some (placed, .ok) →
      Reach (step ⟨ohlcvFillModel opts, infos⟩) (fun _ _ => True) placed later →
      later.meetCandle ⟨ohlcvFillModel opts, infos⟩ symbol ctx = some pass →
      (ord, outcome) ∈ pass.outcomes → ord.orderId = ex.nextOrderId →
      opts.Honoured info ord.params.quantity ctx.bars outcome := by
  have hlocks := @OhlcvFillModelOptions.reserve_buy opts params price info intent hside hrests
  rw [hlocks] at hreserve
  cases hreserve
  refine ⟨?_, ?_⟩
  · intro bars tick armed priced hpriced
    exact (OhlcvFillModelOptions.withinLock hsane hrests hpriced).cost_le hsane hquantity.le
  · intro infos balances ex placed later nowMs symbol ctx pass ord outcome hmaker htaker hfilters
      hlots hrun hinfo hfree hplaced hlater hmeet hmet hid
    have hpays : Exchange.Pays ⟨ohlcvFillModel opts, infos⟩ info.quoteAsset := by
      intro input outcome houtcome _ hinfo _ fill hfill
      exact ohlcv_proceeds_nonneg hmaker htaker (hfilters _ hinfo) houtcome hfill
    have hkept := hrun.invariant (Kept.create _ "" balances)
      fun _ call _ hbefore _ hstep => hbefore.step (ohlcv_covers opts) hstep
    have hplaced := backed_placed hsane rfl hkept.sound.nonneg hkept.numbered.below hinfo hside
      hrests hquantity hlots hfree hplaced
    have hbacked := hlater.invariant hplaced
      fun _ call _ hbefore _ hstep => hbefore.step hsane rfl hpays hstep
    exact (hbacked.meetCandle hsane rfl hpays hmeet).2 _ hmet hid

/-- A buy of two, and one of fifty beside it that locks what is left. -/
def besideUnfunded : List Call :=
  [.apply 60000 (.placeOrder (orderIntent .buy) (limitOrder 50 95)),
   .setMarketContext "BTCUSDT" (minute 60000 90 100)]

set_option synthInstance.maxSize 400 in
/-- A thin candle fills one of the two, and the next one the other. -/
theorem remainder_funds_itself :
    ∃ (ord : RestingOrder) (outcome : FillOutcome) (pass : BookPass),
      (ord, outcome) ∈ pass.outcomes ∧ ord.filledQty = 1 ∧ outcome.fills.map Fill.qty = [1] ∧
      OhlcvFillModelOptions.Honoured ⟨10, 10, 5, 2, some 20⟩ btcusdt ord.params.quantity
        (minute 120000 90 100).bars outcome := by
  obtain ⟨ex, hex, reservation, hreserve, hfree, ⟨placed, result⟩, hplaced, hok,
    later, hlater, pass,
    hpass, ⟨ord, outcome⟩, hmet, hid, hfilled, hfills⟩ :
      ∃ ex, run (step ⟨ohlcvFillModel ⟨10, 10, 5, 2, some 20⟩, [btcusdt]⟩) (fun _ _ => true)
        (create [("USDT", 1000)]) [.setMarketContext "BTCUSDT" (minute 0 90 100)] = some ex ∧
      ∃ reservation, OhlcvFillModelOptions.reserve ⟨10, 10, 5, 2, some 20⟩ (orderIntent .buy)
        (limitOrder 2 95) btcusdt = some reservation ∧
      reservation.amount ≤ (holding ex.balances reservation.asset).free ∧
      ∃ placed, ex.placeOrder ⟨ohlcvFillModel ⟨10, 10, 5, 2, some 20⟩, [btcusdt]⟩ 60000
        (orderIntent .buy) (limitOrder 2 95) = some placed ∧ placed.2 = .ok ∧
      ∃ later, run (step ⟨ohlcvFillModel ⟨10, 10, 5, 2, some 20⟩, [btcusdt]⟩) (fun _ _ => true)
        placed.1 besideUnfunded = some later ∧
      ∃ pass, later.meetCandle ⟨ohlcvFillModel ⟨10, 10, 5, 2, some 20⟩, [btcusdt]⟩ "BTCUSDT"
        (minute 120000 90 100) = some pass ∧
      ∃ entry ∈ pass.outcomes, entry.1.orderId = ex.nextOrderId ∧ entry.1.filledQty = 1 ∧
        entry.2.fills.map Fill.qty = [1] := by
    decide +kernel
  cases hok
  have hsane : OhlcvFillModelOptions.Sane ⟨10, 10, 5, 2, some 20⟩ := by
    constructor <;> norm_num
  have hrests : OhlcvFillModelOptions.RestsAt (limitOrder 2 95) 95 :=
    ⟨.inl rfl, by norm_num, rfl⟩
  have hlots : OnGrid btcusdt.filters.stepSize (limitOrder 2 95).quantity :=
    ⟨200, by norm_num [btcusdt, limitOrder]⟩
  have hinfo : Exchange.symbols ⟨ohlcvFillModel ⟨10, 10, 5, 2, some 20⟩, [btcusdt]⟩ "BTCUSDT" =
      some btcusdt := by
    decide +kernel
  have hhonoured :=
    (order_funds_itself hsane rfl hrests (by norm_num [limitOrder]) hreserve).2 _ _ _
    _ _ _ _ _ _ _ _ (by norm_num) (by norm_num) (by simp [btcusdt]) hlots
    (reach_of_run (fun _ _ _ => trivial) hex) hinfo hfree hplaced
    (reach_of_run (fun _ _ _ => trivial) hlater) hpass hmet hid
  exact ⟨ord, outcome, pass, hmet, hfilled, hfills, hhonoured⟩

/-- Under a fee of twice the notional a sale takes the quote below zero, and the
buy beside it, fully locked, is refused for its funds. -/
theorem sale_fee_starves_buy :
    ∃ ex, run (step ⟨ohlcvFillModel ⟨0, 20000, 0, 0, none⟩, [btcusdt]⟩) (fun _ _ => true)
        (create [("USDT", 950), ("BTC", 1)])
        [.setMarketContext "BTCUSDT" (minute 0 96 100),
         .apply 60000 (.placeOrder (orderIntent .buy) (limitOrder 10 95)),
         .apply 60000 (.placeOrder (orderIntent .sell) (marketOrder 1)),
         .setMarketContext "BTCUSDT" (minute 60000 96 100)] = some ex ∧
      ex.restingOrders.map (·.reservedAmount) = [950] ∧
      ((OhlcvFillModelOptions.reserve ⟨0, 20000, 0, 0, none⟩ (orderIntent .buy) (limitOrder 10 95)
        btcusdt).map (·.amount)) = some 950 ∧
      ∃ pass, ex.meetCandle ⟨ohlcvFillModel ⟨0, 20000, 0, 0, none⟩, [btcusdt]⟩ "BTCUSDT"
          (minute 120000 90 100) = some pass ∧
        pass.outcomes.map Prod.snd = [.rejected .insufficientBalance] := by
  decide +kernel

end BacktestExecutor

end TradingBot.Backtest
