import TradingBot.Backtest.BarByBar
import TradingBot.Backtest.Report

/-!
# A limit against the bars of a candle

A limit that rests before a candle leaves the book on it, or fills in part,
exactly if one of the bars the candle is crossed against trades through it.
These are the candle's detail bars wherever there are any, so that a hole in
them hides what the candle itself shows; only a run that ticks within the
candle crosses the whole candle then.
-/

namespace TradingBot.Backtest

open Grid InsertionMap LabelledRun
open TradingBot.TrailingTrade (PositionView)

namespace RestingOrder

def roundedLimit (info : SymbolInfo) (ord : RestingOrder) : ℚ :=
  floorTo info.filters.tickSize (ord.params.price.getD 0)

def roundedQuantity (info : SymbolInfo) (ord : RestingOrder) : ℚ :=
  floorTo info.filters.stepSize ord.params.quantity

/-- The bar trades through the limit, or there is nothing left to wait with. -/
def MetBy (info : SymbolInfo) (ord : RestingOrder) (bar : Candle) : Prop :=
  ord.roundedQuantity info ≤ 0 ∨
    0 < ord.roundedLimit info ∧ crossesLimit ord.intent.side (ord.roundedLimit info) bar = true

end RestingOrder

/-! ### One evaluation -/

section Outcome

variable {opts : OhlcvFillModelOptions} {input : FillInput} {outcome : FillOutcome}
  {ord : RestingOrder}

theorem roundToStep_eq {value step q : ℚ} (h : roundToStep value step = some q) :
    q = floorTo step value := by
  unfold roundToStep at h
  split at h
  · cases h
  · cases h
    rfl

theorem limit_price {params : OrderParams} {side : OrderSide} {bars : List Candle} {tick : ℚ}
    {armed : Bool} {price : FillPrice} (htype : params.type = .limit)
    (h : opts.resolveFillPrice side params bars tick armed = some price) :
    ((0 < floorTo tick (params.price.getD 0) ∧
        ∃ bar ∈ bars, crossesLimit side (floorTo tick (params.price.getD 0)) bar = true) ∧
          ∃ fill, price = .priced fill) ∨
      (¬(0 < floorTo tick (params.price.getD 0) ∧
        ∃ bar ∈ bars, crossesLimit side (floorTo tick (params.price.getD 0)) bar = true) ∧
          price = .uncrossed) := by
  unfold OhlcvFillModelOptions.resolveFillPrice at h
  rw [htype] at h
  obtain ⟨limit, hlimit, h⟩ := Option.bind_eq_some_iff.mp h
  have heq : limit = floorTo tick (params.price.getD 0) := by
    unfold roundToTick at hlimit
    split at hlimit
    · cases hlimit
    · cases hlimit
      rfl
  rw [← heq]
  split at h
  · next hpos =>
      cases h
      exact .inr ⟨fun hcross => absurd hcross.1 (not_lt.mpr hpos), rfl⟩
  next hpos =>
  unfold OhlcvFillModelOptions.limitFill firstCrossBar at h
  cases hfound : bars.find? (crossesLimit side limit) with
  | none =>
      rw [hfound] at h
      cases h
      refine .inr ⟨?_, rfl⟩
      rintro ⟨-, bar, hbar, hcross⟩
      exact absurd hcross (List.find?_eq_none.mp hfound bar hbar)
  | some bar =>
      rw [hfound] at h
      cases h
      exact .inl ⟨⟨not_le.mp hpos, bar, List.mem_of_find?_eq_some hfound,
        List.find?_some hfound⟩, _, rfl⟩

theorem limit_outcome (hintent : input.intent = ord.intent) (hparams : input.params = ord.params)
    (htype : ord.params.type = .limit) (hphase : input.phase = .resting)
    (h : opts.fill input = some outcome) :
    ((∃ bar ∈ input.market.bars, ord.MetBy input.symbolInfo bar) ∧ ∀ armed, outcome ≠ .rest armed) ∨
      ((∀ bar ∈ input.market.bars, ¬ord.MetBy input.symbolInfo bar) ∧ outcome = .rest false) := by
  have hkind : input.params.type = .limit := by rw [hparams, htype]
  unfold OhlcvFillModelOptions.fill at h
  rw [if_neg (by rw [hkind]; decide), hphase] at h
  obtain ⟨requestedQty, hround, h⟩ := Option.bind_eq_some_iff.mp h
  have hqty : ord.roundedQuantity input.symbolInfo = requestedQty := by
    rw [roundToStep_eq hround, RestingOrder.roundedQuantity, hparams]
  have hlimit : ord.roundedLimit input.symbolInfo =
      floorTo input.symbolInfo.filters.tickSize (input.params.price.getD 0) := by
    rw [RestingOrder.roundedLimit, hparams]
  split at h
  · next hempty =>
      cases h
      obtain ⟨bar, hbar⟩ := List.exists_mem_of_ne_nil _ input.market.bars_ne_nil
      refine .inl ⟨⟨bar, hbar, .inl ?_⟩, fun armed heq => by cases heq⟩
      rw [hqty]
      exact hempty
  next hrequested =>
  obtain ⟨price, hprice, h⟩ := Option.bind_eq_some_iff.mp h
  have hprice' : opts.resolveFillPrice input.intent.side input.params input.market.bars
    input.symbolInfo.filters.tickSize input.armed = some price := hprice
  rcases limit_price hkind hprice' with ⟨⟨hpos, bar, hbar, hcross⟩, fill, rfl⟩ | ⟨huncrossed, rfl⟩
  · refine .inl ⟨⟨bar, hbar, .inr ⟨?_, ?_⟩⟩, ?_⟩
    · rw [hlimit]
      exact hpos
    · rw [hlimit, ← hintent]
      exact hcross
    · rintro armed rfl
      exact OhlcvFillModelOptions.settle_ne_rest h
  · cases h
    refine .inr ⟨?_, rfl⟩
    rintro bar hbar (hempty | ⟨hpos, hcross⟩)
    · rw [hqty] at hempty
      exact hrequested hempty
    · rw [hlimit] at hpos hcross
      rw [← hintent] at hcross
      exact huncrossed ⟨hpos, bar, hbar, hcross⟩

end Outcome

namespace BacktestExecutor

variable {x : Exchange} {ex ex' : BacktestExecutor} {symbol : String} {info : SymbolInfo}
  {ctx : MarketContext} {ord : RestingOrder} {book : List RestingOrder} {orderId : ℕ}
  {filledQty : ℚ}

/-! ### One pass over the book -/

/-- The order has left the book, or has filled more than it had. -/
def Left (orderId : ℕ) (filledQty : ℚ) (ex : BacktestExecutor) : Prop :=
  orderId < ex.nextOrderId ∧
    ∀ ord ∈ ex.restingOrders, ord.orderId = orderId → filledQty < ord.filledQty

theorem evaluateOrder_filledQty {opts : OhlcvFillModelOptions}
    (hmodel : x.fillModel = ohlcvFillModel opts) {done : Evaluated}
    (hdone : ex.evaluateOrder x ctx info symbol ord = some done) :
    (∀ kept ∈ done.kept, ord.filledQty ≤ kept.filledQty) ∧
      ((∀ armed, done.outcome ≠ .rest armed) →
        ∀ kept ∈ done.kept, ord.filledQty < kept.filledQty) := by
  obtain ⟨outcome, houtcome, hdone⟩ := Option.bind_eq_some_iff.mp hdone
  rw [hmodel] at houtcome
  cases outcome with
  | rest armed =>
      cases hdone
      refine ⟨?_, fun hrests => absurd rfl (hrests armed)⟩
      intro kept hkept
      cases hkept
      exact le_rfl
  | rejected reason =>
      cases hdone
      have hgone : ∀ kept : RestingOrder, kept ∉ (none : Option RestingOrder) := Option.not_mem_none
      exact ⟨fun kept hkept => absurd hkept (hgone kept),
        fun _ kept hkept => absurd hkept (hgone kept)⟩
  | filled fills =>
      cases hdone
      have hgone : ∀ kept : RestingOrder, kept ∉ (none : Option RestingOrder) := Option.not_mem_none
      exact ⟨fun kept hkept => absurd hkept (hgone kept),
        fun _ kept hkept => absurd hkept (hgone kept)⟩
  | partialFill fills remainingQty =>
      obtain ⟨reservation, -, hdone⟩ := Option.bind_eq_some_iff.mp hdone
      cases hdone
      have hmore : ord.filledQty < ord.filledQty + (fills.map Fill.qty).sum := by
        rcases OhlcvFillModelOptions.fill_cases houtcome with
          ⟨armed, heq⟩ | ⟨heq, -⟩ | ⟨requestedQty, priced, -, -, -, hsettle⟩
        · cases heq
        · cases heq
        · obtain ⟨fill, rfl, hqty, -⟩ := OhlcvFillModelOptions.settle_partialFill hsettle
          simpa using hqty
      refine ⟨?_, fun _ => ?_⟩
      · intro kept hkept
        cases hkept
        exact hmore.le
      · intro kept hkept
        cases hkept
        exact hmore

theorem evaluateOrder_limit {opts : OhlcvFillModelOptions}
    (hmodel : x.fillModel = ohlcvFillModel opts) (htype : ord.params.type = .limit)
    {done : Evaluated} (hdone : ex.evaluateOrder x ctx info symbol ord = some done) :
    ((∃ bar ∈ ctx.bars, ord.MetBy info bar) → ∀ kept ∈ done.kept, ord.filledQty < kept.filledQty) ∧
      ((∀ bar ∈ ctx.bars, ¬ord.MetBy info bar) → done.kept = some ord) := by
  have hfilled := (evaluateOrder_filledQty hmodel hdone).2
  obtain ⟨outcome, houtcome, hdone⟩ := Option.bind_eq_some_iff.mp hdone
  rw [hmodel] at houtcome
  rcases limit_outcome rfl rfl htype rfl houtcome with ⟨hmet, hrests⟩ | ⟨hunmet, rfl⟩
  · have houtcome : done.outcome = outcome := by
      cases outcome with
      | rest armed => exact absurd rfl (hrests armed)
      | rejected reason =>
          cases hdone
          rfl
      | filled fills =>
          cases hdone
          rfl
      | partialFill fills remainingQty =>
          obtain ⟨reservation, -, hdone⟩ := Option.bind_eq_some_iff.mp hdone
          cases hdone
          rfl
    rw [← houtcome] at hrests
    refine ⟨fun _ => hfilled hrests, ?_⟩
    intro hunmet
    obtain ⟨bar, hbar, hmeets⟩ := hmet
    exact absurd hmeets (hunmet bar hbar)
  · refine ⟨?_, fun _ => ?_⟩
    · rintro ⟨bar, hbar, hmeets⟩
      exact absurd hmeets (hunmet bar hbar)
    · cases hdone
      simp

theorem evaluateBook_filledQty {opts : OhlcvFillModelOptions}
    (hmodel : x.fillModel = ohlcvFillModel opts) {pass : BookPass}
    (hpass : evaluateBook x ctx info symbol book ex = some pass) :
    ∀ kept ∈ pass.next, ∃ old ∈ book, old.orderId = kept.orderId ∧
      old.filledQty ≤ kept.filledQty := by
  induction book generalizing ex pass with
  | nil =>
      cases hpass
      exact List.forall_mem_nil _
  | cons ord rest ih =>
      rcases BacktestExecutor.evaluateBook_cons hpass with ⟨-, later, hlater, rfl⟩ |
        ⟨-, done, later, hdone, hlater, rfl⟩
      · intro kept hkept
        rcases List.mem_cons.mp hkept with rfl | hkept
        · exact ⟨_, List.mem_cons_self, rfl, le_rfl⟩
        · obtain ⟨old, hold, hsame⟩ := ih hlater kept hkept
          exact ⟨old, List.mem_cons_of_mem _ hold, hsame⟩
      · intro kept hkept
        rcases List.mem_append.mp hkept with hkept | hkept
        · have hsame := Option.mem_toList.mp hkept
          exact ⟨ord, List.mem_cons_self, (evaluateOrder_orderId hdone kept hsame).symm,
            (evaluateOrder_filledQty hmodel hdone).1 kept hsame⟩
        · obtain ⟨old, hold, hsame⟩ := ih hlater kept hkept
          exact ⟨old, List.mem_cons_of_mem _ hold, hsame⟩

theorem evaluateBook_limit {opts : OhlcvFillModelOptions}
    (hmodel : x.fillModel = ohlcvFillModel opts) (htype : ord.params.type = .limit)
    (hsymbol : ord.symbol = symbol) (hnodup : (book.map RestingOrder.orderId).Nodup)
    (hord : ord ∈ book) {pass : BookPass}
    (hpass : evaluateBook x ctx info symbol book ex = some pass) :
    ((∃ bar ∈ ctx.bars, ord.MetBy info bar) → ∀ kept ∈ pass.next, kept.orderId = ord.orderId →
        ord.filledQty < kept.filledQty) ∧
      ((∀ bar ∈ ctx.bars, ¬ord.MetBy info bar) → ord ∈ pass.next) := by
  induction book generalizing ex pass with
  | nil => cases hord
  | cons head rest ih =>
      obtain ⟨hfresh, hrest⟩ := List.nodup_cons.mp hnodup
      rcases BacktestExecutor.evaluateBook_cons hpass with ⟨hother, later, hlater, rfl⟩ |
        ⟨hsymbol, done, later, hdone, hlater, rfl⟩
      · have hmem : ord ∈ rest := by
          rcases List.mem_cons.mp hord with rfl | hmem
          · exact absurd hsymbol hother
          · exact hmem
        obtain ⟨hmet, hunmet⟩ := ih hrest hmem hlater
        refine ⟨?_, fun hbars => List.mem_cons_of_mem head (hunmet hbars)⟩
        intro hbars kept hkept hid
        rcases List.mem_cons.mp hkept with rfl | hkept
        · rw [hid] at hfresh
          exact absurd (List.mem_map_of_mem hmem) hfresh
        · exact hmet hbars kept hkept hid
      · rcases List.mem_cons.mp hord with rfl | hmem
        · obtain ⟨hmet, hunmet⟩ := evaluateOrder_limit hmodel htype hdone
          refine ⟨?_, ?_⟩
          · intro hbars kept hkept hid
            rcases List.mem_append.mp hkept with hkept | hkept
            · exact hmet hbars kept (Option.mem_toList.mp hkept)
            · obtain ⟨old, hold, hsame, -⟩ := evaluateBook_filledQty hmodel hlater kept hkept
              rw [← hid, ← hsame] at hfresh
              exact absurd (List.mem_map_of_mem hold) hfresh
          · intro hbars
            rw [hunmet hbars]
            exact List.mem_cons_self
        · obtain ⟨hmet, hunmet⟩ := ih hrest hmem hlater
          refine ⟨?_, fun hbars => List.mem_append_right _ (hunmet hbars)⟩
          intro hbars kept hkept hid
          rcases List.mem_append.mp hkept with hkept | hkept
          · have hsame := evaluateOrder_orderId hdone kept (Option.mem_toList.mp hkept)
            rw [← hsame, hid] at hfresh
            exact absurd (List.mem_map_of_mem hmem) hfresh
          · exact hmet hbars kept hkept hid

theorem evaluateResting_market {pass : BookPass} (hctx : get symbol ex.market = some ctx)
    (hinfo : x.symbols symbol = some info) (hord : ord ∈ ex.restingOrders)
    (hsymbol : ord.symbol = symbol) (hpass : ex.evaluateResting x symbol = some pass) :
    evaluateBook x ctx info symbol ex.restingOrders ex = some pass := by
  have hany : (ex.restingOrders.any fun other => other.symbol = symbol) = true := by
    rw [List.any_eq_true]
    exact ⟨ord, hord, by simpa using hsymbol⟩
  simpa [evaluateResting, hctx, hinfo, hany] using hpass

theorem setMarketContext_limit {opts : OhlcvFillModelOptions}
    (hmodel : x.fillModel = ohlcvFillModel opts) (hinfo : x.symbols symbol = some info)
    (htype : ord.params.type = .limit) (hsymbol : ord.symbol = symbol) (hnumbered : Numbered ex)
    (hord : ord ∈ ex.restingOrders) (hset : ex.setMarketContext x symbol ctx = some ex') :
    ((∃ bar ∈ ctx.bars, ord.MetBy info bar) → ex'.Left ord.orderId ord.filledQty) ∧
      ((∀ bar ∈ ctx.bars, ¬ord.MetBy info bar) → ord ∈ ex'.restingOrders) := by
  obtain ⟨pass, hpass, rfl⟩ := Option.map_eq_some_iff.mp hset
  have hmarket : get symbol (set symbol ctx ex.market) = some ctx := get_set_self
  have hbook := @evaluateResting_market x { ex with market := set symbol ctx ex.market } symbol info
    ctx ord pass hmarket hinfo hord hsymbol hpass
  obtain ⟨hmet, hunmet⟩ := evaluateBook_limit hmodel htype hsymbol hnumbered.nodup hord hbook
  refine ⟨fun hbars => ⟨?_, hmet hbars⟩, hunmet⟩
  have hnext : pass.executor.nextOrderId = ex.nextOrderId := (evaluateBook_orderIds hbook).2
  change ord.orderId < pass.executor.nextOrderId
  rw [hnext]
  exact hnumbered.below ord hord

/-! ### What has left stays away -/

theorem Left.setMarketContext {opts : OhlcvFillModelOptions}
    (hmodel : x.fillModel = ohlcvFillModel opts) (h : ex.Left orderId filledQty)
    (hset : ex.setMarketContext x symbol ctx = some ex') : ex'.Left orderId filledQty := by
  obtain ⟨pass, hpass, rfl⟩ := Option.map_eq_some_iff.mp hset
  rcases evaluateResting_cases hpass with rfl | ⟨ctx, info, -, -, hpass⟩
  · exact h
  refine ⟨h.1.trans_eq (evaluateBook_orderIds hpass).2.symm, ?_⟩
  intro kept hkept hid
  obtain ⟨old, hold, hsame, hle⟩ := evaluateBook_filledQty hmodel hpass kept hkept
  exact (h.2 old hold (hsame.trans hid)).trans_le hle

theorem placeOrder_orders {nowMs : ℤ} {intent : OrderIntent} {params : OrderParams}
    {result : DecisionResult} (hplaced : ex.placeOrder x nowMs intent params = some (ex', result)) :
    ex.nextOrderId ≤ ex'.nextOrderId ∧ ∃ new : List RestingOrder,
      ex'.restingOrders = ex.restingOrders ++ new ∧ ∀ ord ∈ new, ex.nextOrderId ≤ ord.orderId := by
  have hsame : ∀ {ex' : BacktestExecutor}, ex'.nextOrderId = ex.nextOrderId →
      ex'.restingOrders = ex.restingOrders →
      ex.nextOrderId ≤ ex'.nextOrderId ∧ ∃ new : List RestingOrder,
        ex'.restingOrders = ex.restingOrders ++ new ∧
          ∀ ord ∈ new, ex.nextOrderId ≤ ord.orderId := by
    intro ex' hnext horders
    exact ⟨hnext.ge, [], by rw [horders, List.append_nil], List.forall_mem_nil _⟩
  unfold BacktestExecutor.placeOrder at hplaced
  split at hplaced
  · cases hplaced
    exact hsame rfl rfl
  split at hplaced
  · cases hplaced
    exact hsame rfl rfl
  obtain ⟨outcome, -, hplaced⟩ := Option.bind_eq_some_iff.mp hplaced
  cases outcome with
  | rest armed =>
      obtain ⟨rested, hrested, hplaced⟩ := Option.bind_eq_some_iff.mp hplaced
      cases hplaced
      obtain ⟨reservation, -, hrested⟩ := Option.bind_eq_some_iff.mp hrested
      cases hrested
      refine ⟨Nat.le_succ _, _, rfl, ?_⟩
      rw [List.forall_mem_singleton]
  | rejected reason =>
      cases hplaced
      exact hsame rfl rfl
  | filled fills =>
      cases hplaced
      exact hsame applyFills_frame.2.1 applyFills_frame.1
  | partialFill fills remainingQty =>
      cases hplaced
      exact hsame applyFills_frame.2.1 applyFills_frame.1

theorem Left.placeOrder {nowMs : ℤ} {intent : OrderIntent} {params : OrderParams}
    {result : DecisionResult} (h : ex.Left orderId filledQty)
    (hplaced : ex.placeOrder x nowMs intent params = some (ex', result)) :
    ex'.Left orderId filledQty := by
  obtain ⟨hnext, new, horders, hnew⟩ := placeOrder_orders hplaced
  refine ⟨h.1.trans_le hnext, ?_⟩
  intro ord hord hid
  rw [horders] at hord
  rcases List.mem_append.mp hord with hord | hord
  · exact h.2 ord hord hid
  · have habove := (h.1.trans_le (hnew ord hord)).ne
    exact absurd hid.symm habove

theorem cancel_nextOrderId (cancelled : ℕ) :
    (ex.cancel cancelled).nextOrderId = ex.nextOrderId := by
  unfold BacktestExecutor.cancel
  split
  · rfl
  · rfl

theorem Left.cancel (h : ex.Left orderId filledQty) (cancelled : ℕ) :
    (ex.cancel cancelled).Left orderId filledQty := by
  refine ⟨h.1.trans_eq (cancel_nextOrderId cancelled).symm, ?_⟩
  intro ord hord hid
  exact h.2 ord (List.mem_of_mem_filter hord) hid

/-- The decision does not ask for the order. -/
def Spares (orderId : ℕ) : Decision → Prop
  | .cancelOrder cancelled | .replaceOrder cancelled _ _ => cancelled ≠ orderId
  | _ => True

theorem cancel_stands (hnumbered : Numbered ex) (hord : ord ∈ ex.restingOrders) (cancelled : ℕ) :
    (ord ∈ (ex.cancel cancelled).restingOrders ∨
        (ex.cancel cancelled).Left ord.orderId ord.filledQty) ∧
      (cancelled ≠ ord.orderId → ord ∈ (ex.cancel cancelled).restingOrders) := by
  by_cases heq : cancelled = ord.orderId
  · subst heq
    refine ⟨.inr ⟨?_, ?_⟩, fun hne => absurd rfl hne⟩
    · exact (hnumbered.below ord hord).trans_eq (cancel_nextOrderId _).symm
    · intro other hother hid
      have hkept := (List.mem_filter.mp hother).2
      simp [hid] at hkept
  · have hkept : ord ∈ (ex.cancel cancelled).restingOrders :=
      List.mem_filter.mpr ⟨hord, by simpa using Ne.symm heq⟩
    exact ⟨.inl hkept, fun _ => hkept⟩

theorem placeOrder_stands {nowMs : ℤ} {intent : OrderIntent} {params : OrderParams}
    {result : DecisionResult} (hplaced : ex.placeOrder x nowMs intent params = some (ex', result))
    (hord : ord ∈ ex.restingOrders) : ord ∈ ex'.restingOrders := by
  obtain ⟨-, new, horders, -⟩ := placeOrder_orders hplaced
  rw [horders]
  exact List.mem_append_left new hord

/-- A decision leaves an order as it is, unless it asks for it. -/
theorem apply_stands {nowMs : ℤ} {decision : Decision} {result : DecisionResult}
    (hnumbered : Numbered ex) (hord : ord ∈ ex.restingOrders)
    (happlied : ex.apply x nowMs decision = some (ex', result)) :
    (ord ∈ ex'.restingOrders ∨ ex'.Left ord.orderId ord.filledQty) ∧
      (Spares ord.orderId decision → ord ∈ ex'.restingOrders) := by
  have hsame : ∀ {ex' : BacktestExecutor}, ex'.restingOrders = ex.restingOrders →
      (ord ∈ ex'.restingOrders ∨ ex'.Left ord.orderId ord.filledQty) ∧
        (Spares ord.orderId decision → ord ∈ ex'.restingOrders) := by
    intro ex' horders
    rw [← horders] at hord
    exact ⟨.inl hord, fun _ => hord⟩
  have hreplaced : ∀ {cancelled : ℕ} {intent : OrderIntent} {params : OrderParams},
      (ex.cancel cancelled).placeOrder x nowMs intent params = some (ex', result) →
      (ord ∈ ex'.restingOrders ∨ ex'.Left ord.orderId ord.filledQty) ∧
        (cancelled ≠ ord.orderId → ord ∈ ex'.restingOrders) := by
    intro cancelled intent params hplaced
    obtain ⟨hkept, hspared⟩ := cancel_stands hnumbered hord cancelled
    refine ⟨?_, fun hne => placeOrder_stands hplaced (hspared hne)⟩
    rcases hkept with hkept | hleft
    · exact .inl (placeOrder_stands hplaced hkept)
    · exact .inr (hleft.placeOrder hplaced)
  cases decision with
  | noop =>
      cases happlied
      exact hsame rfl
  | placeOrder intent params =>
      have hkept := placeOrder_stands happlied hord
      exact ⟨.inl hkept, fun _ => hkept⟩
  | cancelOrder cancelled =>
      cases happlied
      exact cancel_stands hnumbered hord cancelled
  | replaceOrder cancelled intent params =>
      rw [BacktestExecutor.apply] at happlied
      split at happlied
      · exact hreplaced happlied
      · split at happlied
        · cases happlied
          exact hsame rfl
        · exact hreplaced happlied
  | emitEvent eventType payload =>
      cases happlied
      exact hsame rfl
  | setKv key value =>
      cases happlied
      exact hsame rfl
  | deleteKv key =>
      cases happlied
      exact hsame rfl

theorem Left.apply {nowMs : ℤ} {decision : Decision} {result : DecisionResult}
    (h : ex.Left orderId filledQty) (happlied : ex.apply x nowMs decision = some (ex', result)) :
    ex'.Left orderId filledQty := by
  cases decision with
  | noop =>
      cases happlied
      exact h
  | placeOrder intent params => exact h.placeOrder happlied
  | cancelOrder cancelled =>
      cases happlied
      exact h.cancel cancelled
  | replaceOrder cancelled intent params =>
      rw [BacktestExecutor.apply] at happlied
      split at happlied
      · exact (h.cancel cancelled).placeOrder happlied
      · split at happlied
        · cases happlied
          exact h
        · exact (h.cancel cancelled).placeOrder happlied
  | emitEvent eventType payload =>
      cases happlied
      exact h
  | setKv key value =>
      cases happlied
      exact h
  | deleteKv key =>
      cases happlied
      exact h

end BacktestExecutor

/-- The strategy never asks for the order. -/
def Strategy.Spares {S : Type} (strategy : Strategy S) (orderId : ℕ) : Prop :=
  ∀ run args state decisions, strategy.tick run args = some (state, decisions) →
    ∀ decision ∈ decisions, BacktestExecutor.Spares orderId decision

namespace Run

variable {S : Type} {opts : RunBacktestOptions S} {run run' : Run S} {tick : MarketTick}
  {symbol : String} {ctx : MarketContext} {args : TickArgs} {met : Candle → Prop}
  {P Q : Run S → Prop}

/-! ### The bars of a candle -/

/-- The bars a candle is crossed against. -/
def crossedBars (opts : RunBacktestOptions S) (tick : MarketTick) : List Candle :=
  match tick.detailCandles with
  | some (first :: rest) =>
      if opts.intraCandle.isSome && !coversCandle (first :: rest) tick.candle then [tick.candle]
      else first :: rest
  | _ => [tick.candle]

/-- What ticks of the symbol and the bookkeeping keep. -/
structure KeepsTicks (opts : RunBacktestOptions S) (symbol : String) (P : Run S → Prop) : Prop where
  tick : ∀ run run' args, args.symbol = symbol → P run → run.runTick opts args = some run' → P run'
  noted : ∀ run run', Noted run run' → P run → P run'

theorem Keeps.ticks (h : Keeps opts symbol P) : KeepsTicks opts symbol P := ⟨h.tick, h.noted⟩

theorem replayBar_moved {bar : Candle} (hbar : run.replayBar opts tick bar = some run') :
    ∃ moved, { run with nowMs := bar.closeTimeMs }.advance opts tick.symbol
        ⟨bar.close, bar, some [bar]⟩ = some moved ∧
      ∀ P : Run S → Prop, KeepsTicks opts tick.symbol P → P moved → P run' := by
  obtain ⟨moved, hmoved, hbar⟩ := Option.bind_eq_some_iff.mp hbar
  refine ⟨moved, hmoved, ?_⟩
  intro P hticks hP
  have hafter := hticks.noted moved (moved.addPendingBar tick.symbol bar) noted_addPendingBar hP
  dsimp only at hbar
  split at hbar
  · exact hticks.tick _ run' _ rfl hafter hbar
  · cases hbar
    exact hafter

theorem closeCandle_moved {closeBars : Option (List Candle)}
    (hclose : run.closeCandle opts tick closeBars = some run') :
    ∃ moved, { run.pushCandle opts tick with nowMs := tick.candle.closeTimeMs }.advance opts
        tick.symbol ⟨tick.candle.close, tick.candle, closeBars⟩ = some moved ∧
      ∀ P : Run S → Prop, KeepsTicks opts tick.symbol P → P moved → P run' := by
  obtain ⟨moved, hmoved, hclose⟩ := Option.bind_eq_some_iff.mp hclose
  refine ⟨moved, hmoved, ?_⟩
  intro P hticks hP
  dsimp only at hclose
  split at hclose
  · cases hclose
    exact hticks.noted moved _ ⟨rfl, rfl, rfl, rfl⟩ hP
  · obtain ⟨ticked, hticked, hclose⟩ := Option.bind_eq_some_iff.mp hclose
    cases hclose
    refine hticks.noted ticked _ ⟨rfl, rfl, rfl, rfl⟩ (hticks.tick _ ticked _ rfl ?_ hticked)
    exact hticks.noted moved _ ⟨rfl, rfl, rfl, rfl⟩ hP

/-- What a crossing bar turns from `P` into `Q`, and what nothing else of the candle changes. -/
structure Meeting (opts : RunBacktestOptions S) (symbol : String) (met : Candle → Prop)
    (P Q : Run S → Prop) : Prop where
  advance : ∀ run run' ctx, P run → run.advance opts symbol ctx = some run' →
    ((∃ bar ∈ ctx.bars, met bar) → Q run') ∧ ((∀ bar ∈ ctx.bars, ¬met bar) → P run')
  ticks : KeepsTicks opts symbol P
  stays : Keeps opts symbol Q

theorem Meeting.replayBar (h : Meeting opts tick.symbol met P Q) (hP : P run) {bar : Candle}
    (hbar : run.replayBar opts tick bar = some run') :
    (met bar → Q run') ∧ (¬met bar → P run') := by
  obtain ⟨moved, hmoved, hafter⟩ := replayBar_moved hbar
  have hbefore := h.ticks.noted run { run with nowMs := bar.closeTimeMs } ⟨rfl, rfl, rfl, rfl⟩ hP
  obtain ⟨hmet, hunmet⟩ := h.advance _ moved _ hbefore hmoved
  refine ⟨fun hmeets => hafter Q h.stays.ticks (hmet ⟨bar, ?_, hmeets⟩),
    fun hmeets => hafter P h.ticks (hunmet ?_)⟩
  · exact List.mem_singleton_self bar
  · exact List.forall_mem_singleton.mpr hmeets

theorem Meeting.foldBars (h : Meeting opts tick.symbol met P Q) {bars : List Candle} (hP : P run)
    (hbars : bars.foldlM (Run.replayBar opts tick) run = some run') :
    ((∃ bar ∈ bars, met bar) → Q run') ∧ ((∀ bar ∈ bars, ¬met bar) → P run') := by
  induction bars generalizing run with
  | nil =>
      cases hbars
      refine ⟨?_, fun _ => hP⟩
      rintro ⟨bar, hbar, -⟩
      cases hbar
  | cons bar rest ih =>
      rw [List.foldlM_cons] at hbars
      obtain ⟨next, hnext, hrest⟩ := Option.bind_eq_some_iff.mp hbars
      obtain ⟨hmet, hunmet⟩ := h.replayBar hP hnext
      by_cases hmeets : met bar
      · have hQ : Q run' := foldlM_preserves
          (fun _ _ _ _ hQ hstep => h.stays.replayBar hQ hstep) (hmet hmeets) hrest
        exact ⟨fun _ => hQ, fun hall => absurd hmeets (hall bar List.mem_cons_self)⟩
      · obtain ⟨hlater, hnone⟩ := ih (hunmet hmeets) hrest
        refine ⟨?_, fun hall =>
          hnone fun other hother => hall other (List.mem_cons_of_mem _ hother)⟩
        rintro ⟨other, hother, hcross⟩
        rcases List.mem_cons.mp hother with rfl | hother
        · exact absurd hcross hmeets
        · exact hlater ⟨other, hother, hcross⟩

theorem Meeting.closeCandle (h : Meeting opts tick.symbol met P Q) (hP : P run)
    {closeBars : Option (List Candle)}
    (hclose : run.closeCandle opts tick closeBars = some run') :
    ((∃ bar ∈ (⟨tick.candle.close, tick.candle, closeBars⟩ : MarketContext).bars, met bar) →
        Q run') ∧
      ((∀ bar ∈ (⟨tick.candle.close, tick.candle, closeBars⟩ : MarketContext).bars, ¬met bar) →
        P run') := by
  obtain ⟨moved, hmoved, hafter⟩ := closeCandle_moved hclose
  have hbefore := h.ticks.noted run
    { run.pushCandle opts tick with nowMs := tick.candle.closeTimeMs } ⟨rfl, rfl, rfl, rfl⟩ hP
  obtain ⟨hmet, hunmet⟩ := h.advance _ moved _ hbefore hmoved
  exact ⟨fun hbars => hafter Q h.stays.ticks (hmet hbars),
    fun hbars => hafter P h.ticks (hunmet hbars)⟩

theorem KeepsTicks.addPendingBars (h : KeepsTicks opts symbol P) {bars : List Candle} (hP : P run) :
    P (bars.foldl (fun run bar => run.addPendingBar symbol bar) run) := by
  induction bars generalizing run with
  | nil => exact hP
  | cons bar rest ih => exact ih (h.noted run _ noted_addPendingBar hP)

theorem Meeting.replay (h : Meeting opts tick.symbol met P Q) (hP : P run)
    (hreplay : run.replay opts tick = some run') :
    ((∃ bar ∈ crossedBars opts tick, met bar) → Q run') ∧
      ((∀ bar ∈ crossedBars opts tick, ¬met bar) → P run') := by
  obtain ⟨barred, closeBars, hbars, hclose⟩ := replay_parts hreplay
  have hstart := h.ticks.noted run
    { run with
      lastCloseMs := some tick.candle.closeTimeMs
      intervalOf := set tick.symbol tick.interval run.intervalOf
      streamed := run.streamed ++ [tick] } ⟨rfl, rfl, rfl, rfl⟩ hP
  unfold Run.replayBars at hbars
  split at hbars
  · next interval first rest hintra hdetail =>
      split at hbars
      · cases hbars
      dsimp only at hbars
      cases hcovers : coversCandle (first :: rest) tick.candle with
      | false =>
          rw [hcovers] at hbars
          cases hbars
          have hcrossed : crossedBars opts tick = [tick.candle] := by
            simp [crossedBars, hdetail, hintra, hcovers]
          rw [hcrossed]
          exact h.closeCandle (h.ticks.addPendingBars hstart) hclose
      | true =>
          rw [hcovers] at hbars
          obtain ⟨replayed, hreplayed, hbars⟩ := Option.bind_eq_some_iff.mp hbars
          cases hbars
          have hcrossed : crossedBars opts tick = first :: rest := by
            simp [crossedBars, hdetail, hcovers]
          -- the last bar is left for the close
          have hlast : (first :: rest).getLast? =
              some ((first :: rest).getLast (List.cons_ne_nil first rest)) :=
            List.getLast?_eq_some_getLast _
          have hsplit := List.dropLast_append_getLast (List.cons_ne_nil first rest)
          rw [hlast] at hclose
          rw [hcrossed, ← hsplit]
          obtain ⟨hmet, hunmet⟩ := h.foldBars hstart hreplayed
          by_cases hwithin : ∃ bar ∈ (first :: rest).dropLast, met bar
          · refine ⟨fun _ => ?_, fun hall => ?_⟩
            · exact h.stays.closeCandle (h.stays.addPendingBars (hmet hwithin)) hclose
            · obtain ⟨bar, hbar, hmeets⟩ := hwithin
              exact absurd hmeets (hall bar (List.mem_append_left _ hbar))
          · have hnone : ∀ bar ∈ (first :: rest).dropLast, ¬met bar :=
              fun bar hbar hmeets => hwithin ⟨bar, hbar, hmeets⟩
            obtain ⟨hclosing, hquiet⟩ :=
              h.closeCandle (h.ticks.addPendingBars (hunmet hnone)) hclose
            refine ⟨?_, fun hall => hquiet fun bar hbar => hall bar (List.mem_append_right _ hbar)⟩
            rintro ⟨bar, hbar, hmeets⟩
            rcases List.mem_append.mp hbar with hbar | hbar
            · exact absurd hmeets (hnone bar hbar)
            · exact hclosing ⟨bar, hbar, hmeets⟩
  · next hplain =>
      cases hbars
      have hcrossed : crossedBars opts tick =
          (⟨tick.candle.close, tick.candle, tick.detailCandles⟩ : MarketContext).bars := by
        cases hdetail : tick.detailCandles with
        | none => simp [crossedBars, MarketContext.bars, hdetail]
        | some bars =>
            cases bars with
            | nil => simp [crossedBars, MarketContext.bars, hdetail]
            | cons first rest =>
                have hintra : opts.intraCandle = none := by
                  rw [Option.eq_none_iff_forall_not_mem]
                  intro interval hinterval
                  exact hplain interval first rest hinterval hdetail
                simp [crossedBars, MarketContext.bars, hdetail, hintra]
      rw [hcrossed]
      exact h.closeCandle hstart hclose

/-! ### A limit over a candle -/

variable {info : SymbolInfo} {ord : RestingOrder} {asset : String} {initial : ℚ}
  {fillOpts : OhlcvFillModelOptions} {stream : List MarketTick} {orderId : ℕ} {filledQty : ℚ}

theorem adoptFills_book (hadopt : run.adoptFills opts symbol = some run') :
    run'.executor.restingOrders = run.executor.restingOrders ∧
      run'.executor.nextOrderId = run.executor.nextOrderId := by
  cases hposition : opts.strategy.position with
  | none =>
      rw [adoptFills_none hposition hadopt]
      exact ⟨rfl, rfl⟩
  | some position =>
      have hdrained := (adoptFills_adopted hposition hadopt).drained
      exact ⟨hdrained.restingOrders, hdrained.nextOrderId⟩

theorem left_adoptFills (h : run.executor.Left orderId filledQty)
    (hadopt : run.adoptFills opts symbol = some run') : run'.executor.Left orderId filledQty := by
  obtain ⟨horders, hnext⟩ := adoptFills_book hadopt
  rw [BacktestExecutor.Left, horders, hnext]
  exact h

theorem keeps_left (hmodel : opts.exchange.fillModel = ohlcvFillModel fillOpts)
    (symbol : String) (orderId : ℕ) (filledQty : ℚ) :
    Keeps opts symbol fun run => run.executor.Left orderId filledQty where
  advance := by
    intro run run' ctx h hadvance
    obtain ⟨ex, hex, hadopt⟩ := advance_parts hadvance
    exact left_adoptFills (h.setMarketContext hmodel hex) hadopt
  tick := by
    intro run run' args _ h htick
    obtain ⟨ticked, nextState, decisions, hticked, hadopt⟩ := runTick_parts htick
    refine left_adoptFills (hticked.preserves ?_ h) hadopt
    intro ex decision ex' result _ hleft happlied
    exact hleft.apply happlied
  noted := by
    intro run run' hnoted h
    rw [hnoted.executor]
    exact h

/-- What the book of a reachable run is. -/
theorem keeps_kept (hcovers : opts.exchange.fillModel.Covers)
    (symbol asset : String) (initial : ℚ) :
    Keeps opts symbol fun run =>
      BacktestExecutor.Kept opts.exchange asset initial run.executor where
  advance := by
    intro run run' ctx h hadvance
    obtain ⟨ex, hex, hadopt⟩ := advance_parts hadvance
    exact kept_adoptFills (h.setMarketContext hcovers hex) hadopt
  tick := by
    intro run run' args _ h htick
    obtain ⟨ticked, nextState, decisions, hticked, hadopt⟩ := runTick_parts htick
    refine kept_adoptFills (hticked.preserves ?_ h) hadopt
    intro ex decision ex' result _ hkept happlied
    exact hkept.apply hcovers happlied
  noted := by
    intro run run' hnoted h
    rw [hnoted.executor]
    exact h

theorem kept_replayAll (hcovers : opts.exchange.fillModel.Covers)
    (hrun : replayAll opts stream = some run) (asset : String) :
    ∃ initial, BacktestExecutor.Kept opts.exchange asset initial run.executor := by
  have hcreate := BacktestExecutor.Kept.create opts.exchange asset opts.initialBalances
  refine ⟨_, foldlM_preserves (P := fun run : Run S =>
    BacktestExecutor.Kept opts.exchange asset _ run.executor) ?_ hcreate hrun⟩
  intro before tick after _ hkept hreplay
  exact (keeps_kept hcovers tick.symbol asset _).replay hkept hreplay

/-- The books are kept and the order stands as it was. -/
structure Standing (opts : RunBacktestOptions S) (initial : ℚ) (ord : RestingOrder) (run : Run S) :
    Prop where
  kept : BacktestExecutor.Kept opts.exchange "" initial run.executor
  order : ord ∈ run.executor.restingOrders

/-- The books are kept, and the order stands as it was or has left. -/
structure Pending (opts : RunBacktestOptions S) (initial : ℚ) (ord : RestingOrder) (run : Run S) :
    Prop where
  kept : BacktestExecutor.Kept opts.exchange "" initial run.executor
  order : ord ∈ run.executor.restingOrders ∨ run.executor.Left ord.orderId ord.filledQty

theorem Standing.advance (hmodel : opts.exchange.fillModel = ohlcvFillModel fillOpts)
    (hinfo : opts.exchange.symbols symbol = some info) (htype : ord.params.type = .limit)
    (hsymbol : ord.symbol = symbol) (h : Standing opts initial ord run)
    (hadvance : run.advance opts symbol ctx = some run') :
    ((∃ bar ∈ ctx.bars, ord.MetBy info bar) → run'.executor.Left ord.orderId ord.filledQty) ∧
      ((∀ bar ∈ ctx.bars, ¬ord.MetBy info bar) → Standing opts initial ord run') := by
  have hcovers : opts.exchange.fillModel.Covers := by
    rw [hmodel]
    exact ohlcv_covers fillOpts
  have hkept := (keeps_kept hcovers symbol "" initial).advance run run' ctx h.kept hadvance
  obtain ⟨ex, hex, hadopt⟩ := advance_parts hadvance
  obtain ⟨hmet, hunmet⟩ := BacktestExecutor.setMarketContext_limit hmodel hinfo htype hsymbol
    h.kept.numbered h.order hex
  refine ⟨fun hbars => left_adoptFills (hmet hbars) hadopt, fun hbars => ⟨hkept, ?_⟩⟩
  rw [(adoptFills_book hadopt).1]
  exact hunmet hbars

theorem meeting_pending (hmodel : opts.exchange.fillModel = ohlcvFillModel fillOpts)
    (hinfo : opts.exchange.symbols symbol = some info) (htype : ord.params.type = .limit)
    (hsymbol : ord.symbol = symbol) (initial : ℚ) :
    Meeting opts symbol (ord.MetBy info) (Pending opts initial ord)
      fun run => run.executor.Left ord.orderId ord.filledQty where
  advance := by
    intro run run' ctx h hadvance
    have hcovers : opts.exchange.fillModel.Covers := by
      rw [hmodel]
      exact ohlcv_covers fillOpts
    have hkept := (keeps_kept hcovers symbol "" initial).advance run run' ctx h.kept hadvance
    rcases h.order with hord | hleft
    · obtain ⟨hmet, hunmet⟩ :=
        Standing.advance hmodel hinfo htype hsymbol ⟨h.kept, hord⟩ hadvance
      exact ⟨hmet, fun hbars => ⟨hkept, .inl (hunmet hbars).order⟩⟩
    · have hleft' := (keeps_left hmodel symbol _ _).advance run run' ctx hleft hadvance
      exact ⟨fun _ => hleft', fun _ => ⟨hkept, .inr hleft'⟩⟩
  ticks := by
    have hcovers : opts.exchange.fillModel.Covers := by
      rw [hmodel]
      exact ohlcv_covers fillOpts
    refine ⟨?_, ?_⟩
    · intro run run' args _ h htick
      obtain ⟨ticked, nextState, decisions, hticked, hadopt⟩ := runTick_parts htick
      obtain ⟨hkept, hord⟩ : BacktestExecutor.Kept opts.exchange "" initial ticked.executor ∧
          (ord ∈ ticked.executor.restingOrders ∨
            ticked.executor.Left ord.orderId ord.filledQty) := by
        refine hticked.preserves (P := fun ex => BacktestExecutor.Kept opts.exchange "" initial ex ∧
          (ord ∈ ex.restingOrders ∨ ex.Left ord.orderId ord.filledQty)) ?_ ⟨h.kept, h.order⟩
        rintro ex decision ex' result - ⟨hkept, hord | hleft⟩ happlied
        · exact ⟨hkept.apply hcovers happlied,
            (BacktestExecutor.apply_stands hkept.numbered hord happlied).1⟩
        · exact ⟨hkept.apply hcovers happlied, .inr (hleft.apply happlied)⟩
      refine ⟨kept_adoptFills hkept hadopt, ?_⟩
      rcases hord with hord | hleft
      · refine .inl ?_
        rw [(adoptFills_book hadopt).1]
        exact hord
      · exact .inr (left_adoptFills hleft hadopt)
    · rintro run run' hnoted ⟨hkept, hord⟩
      rw [← hnoted.executor] at hkept hord
      exact ⟨hkept, hord⟩
  stays := keeps_left hmodel symbol ord.orderId ord.filledQty

theorem meeting_standing (hmodel : opts.exchange.fillModel = ohlcvFillModel fillOpts)
    (hinfo : opts.exchange.symbols symbol = some info) (htype : ord.params.type = .limit)
    (hsymbol : ord.symbol = symbol) (hspares : opts.strategy.Spares ord.orderId) (initial : ℚ) :
    Meeting opts symbol (ord.MetBy info) (Standing opts initial ord) fun _ => True where
  advance := by
    intro run run' ctx h hadvance
    exact ⟨fun _ => trivial, (Standing.advance hmodel hinfo htype hsymbol h hadvance).2⟩
  ticks := by
    have hcovers : opts.exchange.fillModel.Covers := by
      rw [hmodel]
      exact ohlcv_covers fillOpts
    refine ⟨?_, ?_⟩
    · intro run run' args _ h htick
      obtain ⟨ticked, nextState, decisions, hticked, hadopt⟩ := runTick_parts htick
      obtain ⟨hkept, hord⟩ : BacktestExecutor.Kept opts.exchange "" initial ticked.executor ∧
          ord ∈ ticked.executor.restingOrders := by
        refine hticked.preserves (P := fun ex => BacktestExecutor.Kept opts.exchange "" initial ex ∧
          ord ∈ ex.restingOrders) ?_ ⟨h.kept, h.order⟩
        rintro ex decision ex' result hmem ⟨hkept, hord⟩ happlied
        have hspared := hspares run args nextState decisions hticked.answer decision hmem
        exact ⟨hkept.apply hcovers happlied,
          (BacktestExecutor.apply_stands hkept.numbered hord happlied).2 hspared⟩
      refine ⟨kept_adoptFills hkept hadopt, ?_⟩
      rw [(adoptFills_book hadopt).1]
      exact hord
    · rintro run run' hnoted ⟨hkept, hord⟩
      rw [← hnoted.executor] at hkept hord
      exact ⟨hkept, hord⟩
  stays := ⟨fun _ _ _ _ _ => trivial, fun _ _ _ _ _ _ => trivial, fun _ _ _ _ => trivial⟩

theorem Standing.not_left (h : Standing opts initial ord run) :
    ¬run.executor.Left ord.orderId ord.filledQty :=
  fun hleft => absurd (hleft.2 ord h.order rfl) (lt_irrefl _)

/-- Bar by bar and at once come to the same outcome. In every run a resting limit that one of the
bars of a candle trades through leaves the book by its end, or fills some more; where the strategy
does not ask for the order, only then. -/
theorem limit_leaves_iff (hmodel : opts.exchange.fillModel = ohlcvFillModel fillOpts)
    (hrun : replayAll opts stream = some run) (hreplay : run.replay opts tick = some run')
    (hinfo : opts.exchange.symbols tick.symbol = some info)
    (hord : ord ∈ run.executor.restingOrders) (hsymbol : ord.symbol = tick.symbol)
    (htype : ord.params.type = .limit) :
    (∀ (input : FillInput) (bars : List Candle), bars ≠ [] → (∀ bar ∈ bars, 0 < bar.openPrice) →
      (fillOpts.fillBarByBar input input.armed bars).map FillOutcome.undated =
        (fillOpts.fill (input.onBars bars)).map FillOutcome.undated) ∧
      ((∃ bar ∈ crossedBars opts tick, ord.MetBy info bar) →
        run'.executor.Left ord.orderId ord.filledQty) ∧
      (opts.strategy.Spares ord.orderId →
        (run'.executor.Left ord.orderId ord.filledQty ↔
          ∃ bar ∈ crossedBars opts tick, ord.MetBy info bar)) := by
  have hcovers : opts.exchange.fillModel.Covers := by
    rw [hmodel]
    exact ohlcv_covers fillOpts
  obtain ⟨initial, hkept⟩ := kept_replayAll hcovers hrun ""
  have hleaves := ((meeting_pending hmodel hinfo htype hsymbol initial).replay
    ⟨hkept, .inl hord⟩ hreplay).1
  refine ⟨?_, hleaves, ?_⟩
  · intro input bars hbars hopen
    exact OhlcvFillModelOptions.fillBarByBar_eq hbars hopen
  · intro hspares
    refine ⟨fun hleft => ?_, hleaves⟩
    by_contra hunmet
    have hstands := ((meeting_standing hmodel hinfo htype hsymbol hspares initial).replay
      ⟨hkept, hord⟩ hreplay).2 fun bar hbar hmet => hunmet ⟨bar, hbar, hmet⟩
    exact hstands.not_left hleft

/-! ### An hour with a hole -/

/-- A quarter of the second hour, between two prices. -/
def quarterOf (quarter : ℤ) (low high : ℚ) : Candle :=
  ⟨3600000 + quarter * 900000, 3600000 + quarter * 900000 + 899999, high, high, low, high, 5⟩

/-- An hour between two prices, with its quarters. -/
def hourOf (hour : ℤ) (low high : ℚ) (quarters : Option (List Candle)) : MarketTick where
  symbol := "BTCUSDT"
  interval := .h1
  candle := ⟨hour * 3600000, hour * 3600000 + 3599999, high, high, low, high, 5⟩
  detailCandles := quarters

/-- The quarter in which the hour traded down to 90 is missing. -/
def holedHour : MarketTick :=
  hourOf 1 90 100 (some [quarterOf 0 96 100, quarterOf 2 96 100, quarterOf 3 96 100])

def fullHour : MarketTick :=
  hourOf 1 90 100
    (some [quarterOf 0 96 100, quarterOf 1 90 100, quarterOf 2 96 100, quarterOf 3 96 100])

/-- A limit buy at 95, placed on the first hour. -/
def bidAt95 : ℕ → List Decision
  | 1 => [.placeOrder (BacktestExecutor.orderIntent .buy) (BacktestExecutor.limitOrder 2 95)]
  | _ => []

def bidOptions (intraCandle : Option CandleInterval) : RunBacktestOptions PositionView :=
  { plannedOptions (planned none bidAt95) [BacktestExecutor.btcusdt] 0 with
    intraCandle
    benchmarkSymbol := some "BTCUSDT" }

theorem spares_bid : (bidOptions none).strategy.Spares 1 := by
  intro run args state decisions htick decision hmem
  have hdecisions : decisions = bidAt95 run.streamed.length :=
    (congrArg Prod.snd (Option.some.inj htick)).symm
  rw [hdecisions] at hmem
  unfold bidAt95 at hmem
  split at hmem
  · rw [List.mem_singleton.mp hmem]
    trivial
  · cases hmem

/-- With all its quarters, the hour takes the bid. -/
theorem full_hour_takes_bid :
    ∃ run run' ord, replayAll (bidOptions none) [hourOf 0 90 100 none] = some run ∧
      run.replay (bidOptions none) fullHour = some run' ∧ ord ∈ run.executor.restingOrders ∧
      run'.executor.Left ord.orderId ord.filledQty := by
  obtain ⟨run, hrun, run', hreplay, ord, hord, hid, hsymbol, htype, hmet⟩ :
      ∃ run, replayAll (bidOptions none) [hourOf 0 90 100 none] = some run ∧
      ∃ run', run.replay (bidOptions none) fullHour = some run' ∧
      ∃ ord ∈ run.executor.restingOrders, ord.orderId = 1 ∧ ord.symbol = "BTCUSDT" ∧
        ord.params.type = .limit ∧
        (0 < ord.roundedLimit BacktestExecutor.btcusdt ∧
          crossesLimit ord.intent.side (ord.roundedLimit BacktestExecutor.btcusdt)
            (quarterOf 1 90 100) = true) := by
    decide +kernel
  have hinfo : (bidOptions none).exchange.symbols "BTCUSDT" = some BacktestExecutor.btcusdt := by
    decide +kernel
  have hleaves := limit_leaves_iff rfl hrun hreplay hinfo hord hsymbol htype
  have hspares : (bidOptions none).strategy.Spares ord.orderId := by
    rw [hid]
    exact spares_bid
  refine ⟨run, run', ord, hrun, hreplay, hord, (hleaves.2.2 hspares).mpr ?_⟩
  exact ⟨quarterOf 1 90 100, by decide +kernel, .inr hmet⟩

/-- The hour trades down to 90 and the bid at 95 still stands, as the quarter is missing; a run that
ticks within the hour takes it on the same data. -/
theorem holed_hour_leaves_bid :
    ∃ run, replayAll (bidOptions none) [hourOf 0 90 100 none] = some run ∧
      ∃ run', run.replay (bidOptions none) holedHour = some run' ∧
      ∃ ord ∈ run.executor.restingOrders, ord.symbol = "BTCUSDT" ∧ ord.params.type = .limit ∧
        crossesLimit ord.intent.side (ord.roundedLimit BacktestExecutor.btcusdt) holedHour.candle ∧
        ord ∈ run'.executor.restingOrders ∧
      ∃ within, replayAll (bidOptions (some .m15)) [hourOf 0 90 100 none, holedHour] = some within ∧
        within.executor.restingOrders = [] := by
  decide +kernel

end Run

end TradingBot.Backtest
