import TradingBot.Backtest.Executor
import TradingBot.Backtest.FillCover
import TradingBot.Lib.LabelledRun

/-!
# The simulated exchange conserves money

Over every run of the executor the resting orders are backed by what is locked,
nothing goes below zero, and each asset holds its opening amount plus what the
recorded trades moved. Each order's reservation is released, kept, sized again
or dropped by one of five outcomes; one lemma says what the outcome leaves of
the books, and the pass over the book and the run follow by induction.
-/

namespace TradingBot.Backtest

open InsertionMap ReservedWallet

/-! ### What trades move -/

namespace BacktestTrade

def baseMove (t : BacktestTrade) : ℚ :=
  match t.side with
  | .buy => t.qty
  | .sell => -t.qty

def quoteMove (t : BacktestTrade) : ℚ :=
  match t.side with
  | .buy => -(t.price * t.qty + t.feeQuote)
  | .sell => t.price * t.qty - t.feeQuote

def moved (x : Exchange) (asset : String) (t : BacktestTrade) : ℚ :=
  match x.symbols t.symbol with
  | none => 0
  | some info =>
      (if info.baseAsset = asset then t.baseMove else 0) +
        if info.quoteAsset = asset then t.quoteMove else 0

end BacktestTrade

def RestingOrder.reservation (ord : RestingOrder) : String × ℚ :=
  (ord.reservedAsset, ord.reservedAmount)

theorem Exchange.symbols_name {x : Exchange} {symbol : String} {info : SymbolInfo}
    (h : x.symbols symbol = some info) : info.symbol = symbol := by
  simpa using List.find?_some h

theorem Exchange.symbols_mem {x : Exchange} {symbol : String} {info : SymbolInfo}
    (h : x.symbols symbol = some info) : info ∈ x.symbolInfos :=
  List.mem_reverse.mp (List.mem_of_find?_eq_some h)

/-- Sells of the symbols quoted in the asset do not cost any of it. -/
def Exchange.Pays (x : Exchange) (asset : String) : Prop :=
  ∀ input outcome, x.fillModel.fill input = some outcome → input.intent.side = .sell →
    input.symbolInfo ∈ x.symbolInfos → input.symbolInfo.quoteAsset = asset →
      ∀ fill ∈ outcome.fills, 0 ≤ fill.notional - fill.fee

namespace BacktestExecutor

/-- The account of one asset while the orders of `book` rest: its total is what the trades made of
the opening amount, and it backs the orders where that was not negative and sells do not cost any
of it. -/
structure Sound (x : Exchange) (asset : String) (initial : ℚ) (ex : BacktestExecutor)
    (book : List RestingOrder) : Prop where
  backs : x.Pays asset → 0 ≤ initial → Backs ex.balances (book.map RestingOrder.reservation) asset
  nonneg : ∀ ord ∈ book, 0 ≤ ord.reservedAmount
  distinct : (keys ex.balances).Nodup
  recorded : ∀ t ∈ ex.trades, 0 < t.qty ∧ ∃ info, x.symbols t.symbol = some info
  total : (holding ex.balances asset).total =
    initial + (ex.trades.map (BacktestTrade.moved x asset)).sum
  running : x.Pays asset → 0 ≤ initial → ∀ earlier, earlier <+: ex.trades →
    0 ≤ initial + (earlier.map (BacktestTrade.moved x asset)).sum

variable {x : Exchange} {asset : String} {initial : ℚ} {ex ex' : BacktestExecutor}
  {book book' : List RestingOrder} {ord : RestingOrder} {info : SymbolInfo} {symbol : String}
  {ctx : MarketContext}

/-! ### One movement of funds -/

theorem Sound.congr (h : Sound x asset initial ex book) (hbalances : ex'.balances = ex.balances)
    (htrades : ex'.trades = ex.trades) : Sound x asset initial ex' book where
  backs := by
    rw [hbalances]
    exact h.backs
  nonneg := h.nonneg
  distinct := by
    rw [hbalances]
    exact h.distinct
  recorded := by
    rw [htrades]
    exact h.recorded
  total := by
    rw [hbalances, htrades]
    exact h.total
  running := by
    rw [htrades]
    exact h.running

theorem Sound.perm (h : Sound x asset initial ex book) (hperm : book.Perm book') :
    Sound x asset initial ex book' where
  backs := fun hpays hopening => (h.backs hpays hopening).perm (hperm.map _)
  nonneg := fun ord hord => h.nonneg ord (hperm.mem_iff.mpr hord)
  distinct := h.distinct
  recorded := h.recorded
  total := h.total
  running := h.running

theorem Sound.unlock (h : Sound x asset initial ex (ord :: book)) :
    Sound x asset initial (ex.unlock ord.reservedAsset ord.reservedAmount) book where
  backs := fun hpays hopening => (h.backs hpays hopening).release (h.nonneg ord List.mem_cons_self)
  nonneg := fun other hother => h.nonneg other (List.mem_cons_of_mem ord hother)
  distinct := nodup_keys_adjust h.distinct
  recorded := h.recorded
  total := by
    rw [BacktestExecutor.unlock, total_adjust fun _ => Holding.total_unlock]
    exact h.total
  running := h.running

theorem Sound.lockUpTo (h : Sound x asset initial ex book) {locked : String} {desired : ℚ}
    (hlocked : ord.reservation = (locked, (ex.lockUpTo locked desired).1)) :
    Sound x asset initial (ex.lockUpTo locked desired).2 (ord :: book) where
  backs := by
    intro hpays hopening
    rw [List.map_cons, hlocked]
    exact (h.backs hpays hopening).reserve locked desired
  nonneg := by
    intro other hother
    rcases List.mem_cons.mp hother with rfl | hother
    · have hamount : other.reservedAmount = _ := congrArg Prod.snd hlocked
      rw [hamount]
      exact Holding.lockable_nonneg
    · exact h.nonneg other hother
  distinct := nodup_keys_adjust h.distinct
  recorded := h.recorded
  total := by
    rw [BacktestExecutor.lockUpTo, BacktestExecutor.lock, total_adjust fun _ => Holding.total_lock]
    exact h.total
  running := h.running

theorem Sound.relock (h : Sound x asset initial ex (ord :: book)) :
    Sound x asset initial
      ((ex.unlock ord.reservedAsset ord.reservedAmount).lockUpTo ord.reservedAsset
        ord.reservedAmount).2 (ord :: book) where
  backs :=
    fun hpays hopening => (h.backs hpays hopening).relock (h.nonneg ord List.mem_cons_self) _ rfl
  nonneg := h.nonneg
  distinct := nodup_keys_adjust h.unlock.distinct
  recorded := h.recorded
  total := by
    rw [BacktestExecutor.lockUpTo, BacktestExecutor.lock, total_adjust fun _ => Holding.total_lock]
    exact h.unlock.total
  running := h.running

/-! ### One fill -/

section Fills

variable {side : OrderSide} {reason : String} {fill : Fill} {fills : List Fill}

theorem moved_applyFill (hinfo : x.symbols info.symbol = some info) :
    (ex.applyFill side reason info fill).trades.map (BacktestTrade.moved x asset) =
      ex.trades.map (BacktestTrade.moved x asset) ++
        [match side with
          | .buy => (if info.baseAsset = asset then fill.qty else 0) +
              if info.quoteAsset = asset then -(fill.notional + fill.fee) else 0
          | .sell => (if info.baseAsset = asset then -fill.qty else 0) +
              if info.quoteAsset = asset then fill.notional - fill.fee else 0] := by
  cases side with
  | buy =>
      simp [applyFill, BacktestTrade.moved, hinfo, BacktestTrade.baseMove, BacktestTrade.quoteMove,
        Fill.notional]
  | sell =>
      simp [applyFill, BacktestTrade.moved, hinfo, BacktestTrade.baseMove, BacktestTrade.quoteMove,
        Fill.notional]

theorem total_applyFill :
    (holding (ex.applyFill side reason info fill).balances asset).total =
      (holding ex.balances asset).total +
        match side with
        | .buy => (if info.baseAsset = asset then fill.qty else 0) +
            if info.quoteAsset = asset then -(fill.notional + fill.fee) else 0
        | .sell => (if info.baseAsset = asset then -fill.qty else 0) +
            if info.quoteAsset = asset then fill.notional - fill.fee else 0 := by
  cases side with
  | buy =>
      simp only [applyFill, total_credit]
      ring
  | sell =>
      simp only [applyFill, total_credit]
      ring

theorem Sound.backs_applyFill (h : Sound x asset initial ex book) (hqty : 0 < fill.qty)
    (hbuy : side = .buy → fill.notional + fill.fee ≤ (holding ex.balances info.quoteAsset).free)
    (hsell : side = .sell → fill.qty ≤ (holding ex.balances info.baseAsset).free)
    (hproceeds : x.Pays asset → side = .sell → info.quoteAsset = asset →
      0 ≤ fill.notional - fill.fee)
    (reason : String) (hpays : x.Pays asset) (hopening : 0 ≤ initial) :
    Backs (ex.applyFill side reason info fill).balances (book.map RestingOrder.reservation)
      asset := by
  have hbacks := h.backs hpays hopening
  cases side with
  | buy =>
      have hspent : Backs
          (adjust info.quoteAsset (Holding.credit (-(fill.notional + fill.fee))) ex.balances)
          (book.map RestingOrder.reservation) asset := by
        refine hbacks.credit ?_
        intro heq
        have hcost := hbuy rfl
        rw [heq] at hcost
        linarith
      exact hspent.credit fun _ => add_nonneg hspent.free hqty.le
  | sell =>
      have hsold : Backs (adjust info.baseAsset (Holding.credit (-fill.qty)) ex.balances)
          (book.map RestingOrder.reservation) asset := by
        refine hbacks.credit ?_
        intro heq
        have hheld := hsell rfl
        rw [heq] at hheld
        linarith
      exact hsold.credit fun heq => add_nonneg hsold.free (hproceeds hpays rfl heq)

theorem reservations_nonneg (hnonneg : ∀ ord ∈ book, 0 ≤ ord.reservedAmount) :
    0 ≤ reserved (book.map RestingOrder.reservation) asset := by
  refine reserved_nonneg ?_
  intro reservation hreservation
  obtain ⟨ord, hord, rfl⟩ := List.mem_map.mp hreservation
  exact hnonneg ord hord

theorem total_nonneg (hbacks : Backs ex.balances (book.map RestingOrder.reservation) asset)
    (hnonneg : ∀ ord ∈ book, 0 ≤ ord.reservedAmount) :
    0 ≤ (holding ex.balances asset).total := by
  refine add_nonneg hbacks.free ?_
  rw [hbacks.locked]
  exact reservations_nonneg hnonneg

theorem Sound.applyFill (h : Sound x asset initial ex book)
    (hinfo : x.symbols info.symbol = some info) (hqty : 0 < fill.qty)
    (hbuy : side = .buy → fill.notional + fill.fee ≤ (holding ex.balances info.quoteAsset).free)
    (hsell : side = .sell → fill.qty ≤ (holding ex.balances info.baseAsset).free)
    (hproceeds : x.Pays asset → side = .sell → info.quoteAsset = asset →
      0 ≤ fill.notional - fill.fee) :
    Sound x asset initial (ex.applyFill side reason info fill) book := by
  have hbacks := h.backs_applyFill hqty hbuy hsell hproceeds reason
  have htotal : (holding (ex.applyFill side reason info fill).balances asset).total =
      initial + ((ex.applyFill side reason info fill).trades.map
        (BacktestTrade.moved x asset)).sum := by
    rw [total_applyFill, moved_applyFill hinfo, h.total, List.sum_append, List.sum_singleton]
    ring
  refine ⟨hbacks, h.nonneg, ?_, ?_, htotal, ?_⟩
  · cases side with
    | buy => exact nodup_keys_adjust (nodup_keys_adjust h.distinct)
    | sell => exact nodup_keys_adjust (nodup_keys_adjust h.distinct)
  · intro t ht
    rcases List.mem_append.mp ht with ht | ht
    · exact h.recorded t ht
    · rw [List.mem_singleton.mp ht]
      exact ⟨hqty, info, hinfo⟩
  · intro hpays hopening earlier hearlier
    rcases List.prefix_concat_iff.mp hearlier with rfl | hearlier
    · exact (total_nonneg (hbacks hpays hopening) h.nonneg).trans_eq htotal
    · exact h.running hpays hopening earlier hearlier

theorem Sound.applyFills {input : FillInput} {outcome : FillOutcome}
    (h : Sound x asset initial ex book) (hcovers : x.fillModel.Covers)
    (hinfo : x.symbols symbol = some input.symbolInfo) (haccount : input.account = ex.balances)
    (houtcome : x.fillModel.fill input = some outcome) (reason : String) :
    Sound x asset initial
      (ex.applyFills input.intent.side reason input.symbolInfo outcome.fills) book := by
  rcases hcovers input outcome houtcome with hnone | ⟨fill, hfill, hcovered⟩
  · rw [hnone]
    exact h
  rw [hfill]
  have hname := Exchange.symbols_name hinfo
  refine h.applyFill (by rw [hname]; exact hinfo) hcovered.qty_pos ?_ ?_ ?_
  · intro hside
    rw [← haccount]
    exact hcovered.buy hside
  · intro hside
    rw [← haccount]
    exact hcovered.sell hside
  · intro hpays hside hquote
    refine hpays input outcome houtcome hside (Exchange.symbols_mem hinfo) hquote fill ?_
    rw [hfill]
    exact List.mem_singleton_self fill

theorem applyFills_frame :
    (ex.applyFills side reason info fills).restingOrders = ex.restingOrders ∧
      (ex.applyFills side reason info fills).nextOrderId = ex.nextOrderId ∧
      (ex.applyFills side reason info fills).market = ex.market ∧
      (ex.applyFills side reason info fills).rejected = ex.rejected := by
  induction fills generalizing ex with
  | nil => exact ⟨rfl, rfl, rfl, rfl⟩
  | cons fill rest ih => exact ih

end Fills

/-! ### A pass over the book -/

/-- Whatever the outcome of an order, what it leaves is sound with what stays of it. -/
theorem Sound.evaluateOrder {done : Evaluated} (h : Sound x asset initial ex (ord :: book))
    (hcovers : x.fillModel.Covers) (hinfo : x.symbols symbol = some info)
    (hdone : ex.evaluateOrder x ctx info symbol ord = some done) :
    Sound x asset initial done.executor (done.kept.toList ++ book) := by
  obtain ⟨outcome, houtcome, hdone⟩ := Option.bind_eq_some_iff.mp hdone
  have hreleased := h.unlock
  cases outcome with
  | rest armed =>
      cases hdone
      have hkept := h.relock
      exact ⟨hkept.backs, by simpa using hkept.nonneg, hkept.distinct, hkept.recorded, hkept.total,
        hkept.running⟩
  | rejected reason =>
      cases hdone
      exact hreleased.congr rfl rfl
  | filled fills =>
      cases hdone
      exact hreleased.applyFills hcovers hinfo rfl houtcome _
  | partialFill fills remainingQty =>
      obtain ⟨reservation, -, hdone⟩ := Option.bind_eq_some_iff.mp hdone
      cases hdone
      have hsettled := hreleased.applyFills hcovers hinfo rfl houtcome ord.intent.reason
      refine Sound.lockUpTo hsettled ?_
      rfl

/-- A pass goes on behind an order of another symbol, and behind what it evaluated of its own. -/
theorem evaluateBook_cons {pass : BookPass}
    (hpass : evaluateBook x ctx info symbol (ord :: book) ex = some pass) :
    (ord.symbol ≠ symbol ∧ ∃ later, evaluateBook x ctx info symbol book ex = some later ∧
      pass = { later with next := ord :: later.next }) ∨
    ord.symbol = symbol ∧ ∃ done later, ex.evaluateOrder x ctx info symbol ord = some done ∧
      evaluateBook x ctx info symbol book done.executor = some later ∧
      pass =
        { executor := later.executor
          next := done.kept.toList ++ later.next
          outcomes := (ord, done.outcome) :: later.outcomes } := by
  rw [evaluateBook] at hpass
  split at hpass
  · next hother =>
      obtain ⟨later, hlater, hpass⟩ := Option.bind_eq_some_iff.mp hpass
      exact .inl ⟨hother, later, hlater, (Option.some.inj hpass).symm⟩
  · next hsame =>
      obtain ⟨done, hdone, hpass⟩ := Option.bind_eq_some_iff.mp hpass
      obtain ⟨later, hlater, hpass⟩ := Option.bind_eq_some_iff.mp hpass
      exact .inr ⟨not_not.mp hsame, done, later, hdone, hlater, (Option.some.inj hpass).symm⟩

theorem Sound.evaluateBook {pass : BookPass} (h : Sound x asset initial ex (book ++ book'))
    (hcovers : x.fillModel.Covers) (hinfo : x.symbols symbol = some info)
    (hpass : evaluateBook x ctx info symbol book ex = some pass) :
    Sound x asset initial pass.executor (pass.next ++ book') := by
  induction book generalizing ex book' pass with
  | nil =>
      cases hpass
      exact h
  | cons ord rest ih =>
      rcases BacktestExecutor.evaluateBook_cons hpass with ⟨-, later, hlater, rfl⟩ |
        ⟨-, done, later, hdone, hlater, rfl⟩
      · have hmoved : Sound x asset initial ex (rest ++ ord :: book') :=
          h.perm List.perm_middle.symm
        exact (ih hmoved hlater).perm List.perm_middle
      · have hhead := h.evaluateOrder hcovers hinfo hdone
        have hmoved : Sound x asset initial done.executor (rest ++ (done.kept.toList ++ book')) :=
          hhead.perm (List.perm_append_comm_assoc _ _ _)
        have htail := ih hmoved hlater
        refine htail.perm ?_
        rw [List.append_assoc]
        exact List.perm_append_comm_assoc _ _ _

/-- The order a candle leaves of another is the same order, by its number. -/
theorem evaluateOrder_orderId {done : Evaluated}
    (hdone : ex.evaluateOrder x ctx info symbol ord = some done) :
    ∀ kept ∈ done.kept, kept.orderId = ord.orderId := by
  obtain ⟨outcome, -, hdone⟩ := Option.bind_eq_some_iff.mp hdone
  intro kept hkept
  cases outcome with
  | rest armed =>
      cases hdone
      cases hkept
      rfl
  | rejected reason =>
      cases hdone
      cases hkept
  | filled fills =>
      cases hdone
      cases hkept
  | partialFill fills remainingQty =>
      obtain ⟨reservation, -, hdone⟩ := Option.bind_eq_some_iff.mp hdone
      cases hdone
      cases hkept
      rfl

theorem evaluateOrder_nextOrderId {done : Evaluated}
    (hdone : ex.evaluateOrder x ctx info symbol ord = some done) :
    done.executor.nextOrderId = ex.nextOrderId := by
  obtain ⟨outcome, -, hdone⟩ := Option.bind_eq_some_iff.mp hdone
  cases outcome with
  | rest armed =>
      cases hdone
      rfl
  | rejected reason =>
      cases hdone
      rfl
  | filled fills =>
      cases hdone
      exact applyFills_frame.2.1
  | partialFill fills remainingQty =>
      obtain ⟨reservation, -, hdone⟩ := Option.bind_eq_some_iff.mp hdone
      cases hdone
      exact applyFills_frame.2.1

/-- A pass over the book adds no order and numbers none anew. -/
theorem evaluateBook_orderIds {pass : BookPass}
    (hpass : evaluateBook x ctx info symbol book ex = some pass) :
    (pass.next.map RestingOrder.orderId).Sublist (book.map RestingOrder.orderId) ∧
      pass.executor.nextOrderId = ex.nextOrderId := by
  induction book generalizing ex pass with
  | nil =>
      cases hpass
      exact ⟨.slnil, rfl⟩
  | cons ord rest ih =>
      rcases BacktestExecutor.evaluateBook_cons hpass with ⟨-, later, hlater, rfl⟩ |
        ⟨-, done, later, hdone, hlater, rfl⟩
      · obtain ⟨hids, hnext⟩ := ih hlater
        exact ⟨hids.cons_cons _, hnext⟩
      · obtain ⟨hids, hnext⟩ := ih hlater
        refine ⟨?_, hnext.trans (evaluateOrder_nextOrderId hdone)⟩
        cases hkept : done.kept with
        | none => exact hids.cons _
        | some kept =>
            have hid := evaluateOrder_orderId hdone kept hkept
            rw [Option.toList_some, List.singleton_append, List.map_cons, List.map_cons, hid]
            exact hids.cons_cons _

/-! ### Runs -/

/-- The orders on the book are numbered apart, below the next number. -/
structure Numbered (ex : BacktestExecutor) : Prop where
  nodup : (ex.restingOrders.map RestingOrder.orderId).Nodup
  below : ∀ ord ∈ ex.restingOrders, ord.orderId < ex.nextOrderId

/-- The account of one asset and the book, between two calls. -/
structure Kept (x : Exchange) (asset : String) (initial : ℚ) (ex : BacktestExecutor) : Prop where
  sound : Sound x asset initial ex ex.restingOrders
  numbered : Numbered ex

theorem Numbered.sublist (h : Numbered ex) {orders : List RestingOrder}
    (hsub : (orders.map RestingOrder.orderId).Sublist (ex.restingOrders.map RestingOrder.orderId))
    (hnext : ex'.nextOrderId = ex.nextOrderId) (horders : ex'.restingOrders = orders) :
    Numbered ex' where
  nodup := by
    rw [horders]
    exact h.nodup.sublist hsub
  below := by
    intro ord hord
    rw [horders] at hord
    obtain ⟨old, hold, hid⟩ := List.mem_map.mp (hsub.subset (List.mem_map_of_mem hord))
    rw [← hid, hnext]
    exact h.below old hold

theorem Kept.congr (h : Kept x asset initial ex) (hbalances : ex'.balances = ex.balances)
    (htrades : ex'.trades = ex.trades) (horders : ex'.restingOrders = ex.restingOrders)
    (hnext : ex'.nextOrderId = ex.nextOrderId) : Kept x asset initial ex' where
  sound := by
    rw [horders]
    exact h.sound.congr hbalances htrades
  numbered := h.numbered.sublist (List.Sublist.refl _) hnext horders

theorem Kept.cancel (h : Kept x asset initial ex) (orderId : ℕ) :
    Kept x asset initial (ex.cancel orderId) := by
  have hids : ((ex.restingOrders.filter (·.orderId ≠ orderId)).map RestingOrder.orderId).Sublist
      (ex.restingOrders.map RestingOrder.orderId) := List.filter_sublist.map _
  unfold BacktestExecutor.cancel
  cases hfound : ex.restingOrders.find? (·.orderId = orderId) with
  | none =>
      have hall : ex.restingOrders.filter (·.orderId ≠ orderId) = ex.restingOrders := by
        refine List.filter_eq_self.mpr ?_
        intro ord hord
        simpa using List.find?_eq_none.mp hfound ord hord
      refine h.congr rfl rfl ?_ rfl
      exact hall
  | some cancelled =>
      have hmem := List.mem_of_find?_eq_some hfound
      have hid : cancelled.orderId = orderId := by simpa using List.find?_some hfound
      -- the numbers are distinct, so the filter drops exactly the order that was found
      have hsplit : (cancelled :: ex.restingOrders.filter (·.orderId ≠ orderId)).Perm
          ex.restingOrders := by
        have hnodup := h.numbered.nodup
        have herase : ex.restingOrders.filter (·.orderId ≠ orderId) =
            ex.restingOrders.erase cancelled := by
          rw [List.Nodup.erase_eq_filter (hnodup.of_map _)]
          refine List.filter_congr ?_
          intro ord hord
          have hsame : ord.orderId = orderId ↔ ord = cancelled := by
            rw [← hid]
            exact ⟨fun heq => List.inj_on_of_nodup_map hnodup hord hmem heq, fun heq => by rw [heq]⟩
          by_cases heq : ord = cancelled
          · simp [heq, hid]
          · simp [heq, hsame]
        rw [herase]
        exact (List.perm_cons_erase hmem).symm
      have hreleased := (h.sound.perm hsplit.symm).unlock
      exact ⟨hreleased.congr rfl rfl, h.numbered.sublist hids rfl rfl⟩

theorem Kept.rest (h : Kept x asset initial ex) {intent : OrderIntent} {params : OrderParams}
    {nowMs : ℤ} (hrested : ex.rest x intent params nowMs info = some ex') :
    Kept x asset initial ex' := by
  obtain ⟨reservation, -, hrested⟩ := Option.bind_eq_some_iff.mp hrested
  cases hrested
  have hjoins : ∀ ord : RestingOrder,
      ord.reservation = (reservation.asset, (ex.lockUpTo reservation.asset reservation.amount).1) →
      Sound x asset initial (ex.lockUpTo reservation.asset reservation.amount).2
        (ex.restingOrders ++ [ord]) := by
    intro ord hord
    exact (Sound.lockUpTo h.sound hord).perm (List.perm_append_singleton _ _).symm
  refine ⟨(hjoins _ rfl).congr rfl rfl, ?_, ?_⟩
  · rw [List.map_append, List.nodup_append]
    refine ⟨h.numbered.nodup, List.nodup_singleton _, ?_⟩
    intro orderId hold fresh hfresh
    obtain ⟨ord, hord, rfl⟩ := List.mem_map.mp hold
    rw [List.map_singleton, List.mem_singleton] at hfresh
    rw [hfresh]
    exact (h.numbered.below ord hord).ne
  · intro ord hord
    rcases List.mem_append.mp hord with hold | hnew
    · exact Nat.lt_succ_of_lt (h.numbered.below ord hold)
    · rw [List.mem_singleton.mp hnew]
      exact Nat.lt_succ_self _

theorem Kept.placeOrder (h : Kept x asset initial ex) (hcovers : x.fillModel.Covers)
    {nowMs : ℤ} {intent : OrderIntent} {params : OrderParams}
    {result : DecisionResult} (hplaced : ex.placeOrder x nowMs intent params = some (ex', result)) :
    Kept x asset initial ex' := by
  unfold BacktestExecutor.placeOrder at hplaced
  split at hplaced
  · cases hplaced
    exact h
  next info hinfo =>
  split at hplaced
  · cases hplaced
    exact h
  next market hmarket =>
  obtain ⟨outcome, houtcome, hplaced⟩ := Option.bind_eq_some_iff.mp hplaced
  have hfills : Kept x asset initial
      (ex.applyFills intent.side intent.reason info outcome.fills) := by
    have hsound := h.sound.applyFills hcovers hinfo rfl houtcome intent.reason
    obtain ⟨horders, hnext, -, -⟩ :=
      @applyFills_frame ex info intent.side intent.reason outcome.fills
    refine ⟨?_, h.numbered.sublist (List.Sublist.refl _) hnext horders⟩
    rw [horders]
    exact hsound
  cases outcome with
  | rest armed =>
      obtain ⟨rested, hrested, hplaced⟩ := Option.bind_eq_some_iff.mp hplaced
      cases hplaced
      exact h.rest hrested
  | rejected reason =>
      cases hplaced
      exact h.congr rfl rfl rfl rfl
  | filled fills =>
      cases hplaced
      exact hfills
  | partialFill fills remainingQty =>
      cases hplaced
      exact hfills

theorem Kept.apply (h : Kept x asset initial ex) (hcovers : x.fillModel.Covers)
    {nowMs : ℤ} {decision : Decision} {result : DecisionResult}
    (happlied : ex.apply x nowMs decision = some (ex', result)) : Kept x asset initial ex' := by
  cases decision with
  | noop =>
      cases happlied
      exact h
  | placeOrder intent params => exact h.placeOrder hcovers happlied
  | cancelOrder orderId =>
      cases happlied
      exact h.cancel orderId
  | replaceOrder cancelOrderId intent params =>
      rw [BacktestExecutor.apply] at happlied
      split at happlied
      · exact (h.cancel cancelOrderId).placeOrder hcovers happlied
      · split at happlied
        · cases happlied
          exact h
        · exact (h.cancel cancelOrderId).placeOrder hcovers happlied
  | emitEvent eventType payload =>
      cases happlied
      exact h.congr rfl rfl rfl rfl
  | setKv key value =>
      cases happlied
      exact h.congr rfl rfl rfl rfl
  | deleteKv key =>
      cases happlied
      exact h.congr rfl rfl rfl rfl

theorem evaluateResting_cases {pass : BookPass} (hpass : ex.evaluateResting x symbol = some pass) :
    pass = ⟨ex, ex.restingOrders, []⟩ ∨ ∃ ctx info, x.symbols symbol = some info ∧
      get symbol ex.market = some ctx ∧
      evaluateBook x ctx info symbol ex.restingOrders ex = some pass := by
  unfold evaluateResting at hpass
  split at hpass
  · next ctx info hctx hinfo =>
      split at hpass
      · exact .inr ⟨ctx, info, hinfo, hctx, hpass⟩
      · cases hpass
        exact .inl rfl
  · cases hpass
    exact .inl rfl

theorem Kept.evaluateResting {pass : BookPass} (h : Kept x asset initial ex)
    (hcovers : x.fillModel.Covers) (hpass : ex.evaluateResting x symbol = some pass) :
    Kept x asset initial { pass.executor with restingOrders := pass.next } := by
  rcases evaluateResting_cases hpass with rfl | ⟨ctx, info, hinfo, -, hpass⟩
  · exact h
  have hbook : Sound x asset initial ex (ex.restingOrders ++ []) := by
    rw [List.append_nil]
    exact h.sound
  have hsound := hbook.evaluateBook hcovers hinfo hpass
  rw [List.append_nil] at hsound
  obtain ⟨hids, hnext⟩ := evaluateBook_orderIds hpass
  exact ⟨hsound.congr rfl rfl, h.numbered.sublist hids hnext rfl⟩

theorem Kept.setMarketContext (h : Kept x asset initial ex) (hcovers : x.fillModel.Covers)
    (hset : ex.setMarketContext x symbol ctx = some ex') :
    Kept x asset initial ex' := by
  obtain ⟨pass, hpass, rfl⟩ := Option.map_eq_some_iff.mp hset
  have hmarket : Kept x asset initial { ex with market := set symbol ctx ex.market } :=
    h.congr rfl rfl rfl rfl
  exact hmarket.evaluateResting hcovers hpass

/-- One call of the executor. -/
inductive Call where
  | apply (nowMs : ℤ) (decision : Decision)
  | setMarketContext (symbol : String) (ctx : MarketContext)

def step (x : Exchange) (ex : BacktestExecutor) : Call → Option BacktestExecutor
  | .apply nowMs decision => (ex.apply x nowMs decision).map Prod.fst
  | .setMarketContext symbol ctx => ex.setMarketContext x symbol ctx

theorem Kept.step (h : Kept x asset initial ex) (hcovers : x.fillModel.Covers)
    {call : Call} (hstep : ex.step x call = some ex') :
    Kept x asset initial ex' := by
  cases call with
  | apply nowMs decision =>
      obtain ⟨⟨applied, result⟩, happlied, rfl⟩ := Option.map_eq_some_iff.mp hstep
      exact h.apply hcovers happlied
  | setMarketContext symbol ctx => exact h.setMarketContext hcovers hstep

theorem holding_create_locked (balances : List (String × ℚ)) (asset : String) :
    (holding (create balances).balances asset).locked = 0 := by
  have hkept : ∀ (w : Wallet), (holding w asset).locked = 0 →
      (holding (balances.foldl (fun w entry => set entry.1 ⟨entry.2, 0⟩ w) w) asset).locked
        = 0 := by
    induction balances with
    | nil => exact fun w hw => hw
    | cons entry rest ih =>
        intro w hw
        refine ih _ ?_
        by_cases heq : asset = entry.1
        · rw [heq, holding, get_set_self]
          rfl
        · rw [holding, get_set_other heq]
          exact hw
  exact hkept [] rfl

theorem nodup_keys_create (balances : List (String × ℚ)) :
    (keys (create balances).balances).Nodup := by
  have hkept : ∀ w : Wallet, (keys w).Nodup →
      (keys (balances.foldl (fun w entry => set entry.1 ⟨entry.2, 0⟩ w) w)).Nodup := by
    induction balances with
    | nil => exact fun w hw => hw
    | cons entry rest ih => exact fun w hw => ih _ (nodup_keys_set hw)
  exact hkept [] List.nodup_nil

theorem Kept.create (x : Exchange) (asset : String) (balances : List (String × ℚ)) :
    Kept x asset (holding (create balances).balances asset).free (create balances) where
  sound :=
    { backs := fun _ hopening => ⟨hopening, holding_create_locked balances asset⟩
      nonneg := by simp [BacktestExecutor.create]
      distinct := nodup_keys_create balances
      recorded := by simp [BacktestExecutor.create]
      total := by
        have hnone : (BacktestExecutor.create balances).trades = [] := rfl
        rw [Holding.total, holding_create_locked, hnone, List.map_nil, List.sum_nil]
      running := by
        intro _ hopening earlier hearlier
        rw [List.prefix_nil.mp hearlier, List.map_nil, List.sum_nil, add_zero]
        exact hopening }
  numbered :=
    { nodup := by simp [BacktestExecutor.create]
      below := by simp [BacktestExecutor.create] }

theorem reserved_orders (orders : List RestingOrder) (asset : String) :
    reserved (orders.map RestingOrder.reservation) asset =
      ((orders.filter (·.reservedAsset = asset)).map (·.reservedAmount)).sum := by
  induction orders with
  | nil => rfl
  | cons ord rest ih =>
      rw [List.map_cons, reserved_cons, ih]
      by_cases heq : ord.reservedAsset = asset
      · simp [RestingOrder.reservation, heq]
      · simp [RestingOrder.reservation, heq]

open LabelledRun

/-- Under fees of at most the notional, every run of the executor keeps every balance non-negative,
locks exactly what its resting orders reserve, and moves only what its trades record. -/
theorem money_is_conserved (opts : OhlcvFillModelOptions) (infos : List SymbolInfo)
    (balances : List (String × ℚ)) (hmaker : opts.makerBps ≤ 10000)
    (htaker : opts.takerBps ≤ 10000) (hfilters : ∀ info ∈ infos, 0 ≤ info.filters.minNotional)
    (hopening : ∀ asset, 0 ≤ (holding (create balances).balances asset).free)
    (hrun : Reach (step ⟨ohlcvFillModel opts, infos⟩) (fun _ _ => True) (create balances) ex)
    (asset : String) :
    0 ≤ (holding ex.balances asset).free ∧ 0 ≤ (holding ex.balances asset).locked ∧
      (holding ex.balances asset).locked =
        ((ex.restingOrders.filter (·.reservedAsset = asset)).map (·.reservedAmount)).sum ∧
      (holding ex.balances asset).total = (holding (create balances).balances asset).free +
        (ex.trades.map (BacktestTrade.moved ⟨ohlcvFillModel opts, infos⟩ asset)).sum := by
  have hpays : Exchange.Pays ⟨ohlcvFillModel opts, infos⟩ asset := by
    intro input outcome houtcome _ hinfo _ fill hfill
    exact ohlcv_proceeds_nonneg hmaker htaker (hfilters _ hinfo) houtcome hfill
  have hkept := hrun.invariant (Kept.create _ asset balances)
    fun _ call _ hbefore _ hstep => hbefore.step (ohlcv_covers opts) hstep
  have hbacks := hkept.sound.backs hpays (hopening asset)
  refine ⟨hbacks.free, ?_, ?_, hkept.sound.total⟩
  · rw [hbacks.locked]
    exact reservations_nonneg hkept.sound.nonneg
  · rw [hbacks.locked]
    exact reserved_orders ex.restingOrders asset

/-! ### Runs on one symbol -/

def btcusdt : SymbolInfo := ⟨"BTCUSDT", "BTC", "USDT", ⟨1 / 100, 1 / 100, 1 / 100, 10⟩⟩

/-- A minute that trades between two prices. -/
def minute (openTimeMs : ℤ) (low high : ℚ) : MarketContext where
  lastPrice := high
  lastCandle := ⟨openTimeMs, openTimeMs + 59999, high, high, low, high, 5⟩
  detailCandles := none

def orderIntent (side : OrderSide) : OrderIntent where
  symbol := "BTCUSDT"
  side
  reason := "test"
  clientOrderId := "t-1"
  info := []
  overrideActionId := none
  deferrable := false

def marketOrder (quantity : ℚ) : OrderParams := ⟨.market, quantity, none, none, none⟩

def limitOrder (quantity price : ℚ) : OrderParams := ⟨.limit, quantity, some price, none, none⟩

/-- A buy that half fills on a thin candle, and an unfunded one beside it. -/
def stackedBuys : List Call :=
  [.setMarketContext "BTCUSDT" (minute 0 90 100),
   .apply 60000 (.placeOrder (orderIntent .buy) (limitOrder 2 95)),
   .apply 60000 (.placeOrder (orderIntent .buy) (limitOrder 50 95)),
   .setMarketContext "BTCUSDT" (minute 60000 90 100),
   .apply 120000 (.replaceOrder 1 (orderIntent .sell) (marketOrder (1 / 2)))]

theorem stacked_buys_conserved :
    ∃ ex, Reach (step ⟨ohlcvFillModel ⟨10, 10, 5, 2, some 20⟩, [btcusdt]⟩) (fun _ _ => True)
        (create [("USDT", 1000)]) ex ∧ ex.trades.length = 1 ∧ ex.restingOrders.length = 1 ∧
      0 ≤ (holding ex.balances "USDT").free := by
  obtain ⟨ex, hex, hshape⟩ : ∃ ex, run (step ⟨ohlcvFillModel ⟨10, 10, 5, 2, some 20⟩, [btcusdt]⟩)
      (fun _ _ => true) (create [("USDT", 1000)]) stackedBuys = some ex ∧
      ex.trades.length = 1 ∧ ex.restingOrders.length = 1 := by
    decide +kernel
  have hrun := reach_of_run (fun _ _ _ => trivial) hex
  refine ⟨ex, hrun, hshape.1, hshape.2, ?_⟩
  have hopening : ∀ asset, 0 ≤ (holding (create [("USDT", 1000)]).balances asset).free := by
    intro asset
    by_cases heq : "USDT" = asset
    · subst heq
      decide +kernel
    · simp [create, holding, InsertionMap.set, InsertionMap.get, heq]
  exact (money_is_conserved ⟨10, 10, 5, 2, some 20⟩ [btcusdt] [("USDT", 1000)] (by norm_num)
    (by norm_num) (by simp [btcusdt]) hopening hrun "USDT").1

/-- A fee of twice the notional takes the quote below zero. -/
theorem sold_at_a_loss :
    ∃ ex, run (step ⟨ohlcvFillModel ⟨0, 20000, 0, 0, none⟩, [btcusdt]⟩) (fun _ _ => true)
        (create [("BTC", 1)])
        [.setMarketContext "BTCUSDT" (minute 0 90 100),
         .apply 60000 (.placeOrder (orderIntent .sell) (marketOrder 1)),
         .setMarketContext "BTCUSDT" (minute 60000 90 100)] = some ex ∧
      (holding ex.balances "USDT").free = -100 := by
  decide +kernel

end BacktestExecutor

end TradingBot.Backtest
