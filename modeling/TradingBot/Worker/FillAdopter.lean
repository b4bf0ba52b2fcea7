import Mathlib.Data.List.Sort
import TradingBot.TrailingTrade.FillConservation

/-!
# Adopting fills

How an execution report reaches the cost-basis ledger. The adopter folds the
whole of a filled order at once and remembers it under the order's last trade;
after a reconnect the backfiller rebuilds the reports it missed from the
account's trades past the last one adopted. Fees are not part of the model, and
quantities are numbers.
-/

namespace TradingBot.Worker

open Decimal TrailingTrade

/-! ### The adopter -/

/-- A report on an order: the totals of everything it has executed. -/
structure FillEvent where
  orderId : ℕ
  tradeId : ℕ
  orderStatus : String
  side : OrderSide
  cumQty : ℚ
  cumQuoteQty : ℚ
deriving DecidableEq

/-- The exchange's filters a sale is folded with; absent where they could not be read. -/
structure SellFilters where
  stepSize : Option Decimal
  minNotional : Option Decimal

/-- A row of the cost-basis table; its columns are numbers. -/
structure AvgEntryRow where
  avgEntryPrice : Decimal
  quantity : Decimal
deriving DecidableEq

def AvgEntryRow.view (row : AvgEntryRow) : PositionView :=
  ⟨some (.printed row.avgEntryPrice), some (.printed row.quantity)⟩

/-- The applied fills, by order and trade, and the row they fold into. The folds are what was ever
folded, order by order; nothing reads them. -/
structure Ledger where
  appliedFills : List (ℕ × ℕ)
  row : Option AvgEntryRow
  folds : List (ℕ × ℚ)
deriving DecidableEq

def maxTradeId (appliedFills : List (ℕ × ℕ)) : Option ℕ := (appliedFills.map Prod.snd).max?

/-- The row an adoption leaves. -/
def rowAfter (row : Option AvgEntryRow) : AdoptedFill → Option AvgEntryRow
  | .buy avgEntryPrice heldQuantity => some ⟨amount avgEntryPrice, amount heldQuantity⟩
  | .sellReduce heldQuantity => row.map fun row => { row with quantity := amount heldQuantity }
  | .empty => none

def resolveBuy (row : Option AvgEntryRow) (event : FillEvent) (isFirstApply : Bool) :
    Except String (Option AvgEntryRow) :=
  if isFirstApply then do
    let fillAvgPrice := (num event.cumQuoteQty).div (num event.cumQty)
    let adopted ← resolveFill (row.map (·.view)) ⟨.buy, fillAvgPrice, num event.cumQty⟩ none none
    return rowAfter row adopted
  else return row

def resolveSell (row : Option AvgEntryRow) (event : FillEvent) (isFirstApply : Bool)
    (filters : SellFilters) : Except String (Option AvgEntryRow) :=
  match row with
  | none => return none
  | some existing =>
      if isFirstApply then do
        let _ ← realizedPnlOnSell (some existing.view) (num event.cumQty) (num event.cumQuoteQty)
        let sellVwap :=
          if 0 < event.cumQty then (num event.cumQuoteQty).div (num event.cumQty) else num 0
        let adopted ← resolveFill (some existing.view) ⟨.sell, sellVwap, num event.cumQty⟩
          filters.stepSize filters.minNotional
        return rowAfter (some existing) adopted
      else return some existing

def resolveRow (row : Option AvgEntryRow) (event : FillEvent) (isFirstApply : Bool)
    (filters : SellFilters) : Except String (Option AvgEntryRow) :=
  match event.side with
  | .buy => resolveBuy row event isFirstApply
  | .sell => resolveSell row event isFirstApply filters

/-- The first report of an order and trade is folded; a sale of nothing held has nothing to fold
into. -/
def foldsFill (ledger : Ledger) (event : FillEvent) : Bool :=
  !ledger.appliedFills.contains (event.orderId, event.tradeId) &&
    (event.side == .buy || ledger.row.isSome)

/-- The transaction of an adoption: the applied fill and the row, both or neither. -/
def recordFill (ledger : Ledger) (event : FillEvent) (filters : SellFilters) :
    Except String Ledger := do
  let isFirstApply := !ledger.appliedFills.contains (event.orderId, event.tradeId)
  let row ← resolveRow ledger.row event isFirstApply filters
  return { appliedFills :=
             if isFirstApply then ledger.appliedFills ++ [(event.orderId, event.tradeId)]
             else ledger.appliedFills
           row
           folds :=
             if foldsFill ledger event then ledger.folds ++ [(event.orderId, event.cumQty)]
             else ledger.folds }

def adopt (ledger : Ledger) (event : FillEvent) (filters : SellFilters) : Except String Ledger :=
  if event.orderStatus ≠ "FILLED" then return ledger
  else if event.cumQty ≤ 0 ∨ event.cumQuoteQty ≤ 0 then return ledger
  else if event.tradeId = 0 ∨ event.orderId = 0 then return ledger
  else recordFill ledger event filters

/-! ### The backfiller -/

/-- A trade of the account on the symbol. -/
structure Trade where
  id : ℕ
  orderId : ℕ
  isBuyer : Bool
  qty : ℚ
  quoteQty : ℚ
deriving DecidableEq

def myTradesPageLimit : ℕ := 1000

/-- The exchange's page of trades from an id on, oldest first. -/
def getMyTrades (trades : List Trade) (fromId limit : ℕ) : List Trade :=
  (trades.filter fun t => fromId ≤ t.id).take limit

/-- A row that repeats another exactly is dropped; a row that is invalid, or
repeats an id with other contents, spoils the page. -/
def addUnique (seen : List Trade) (t : Trade) : Option (List Trade) :=
  if t.qty < 0 ∨ t.quoteQty < 0 then none
  else
    match seen.find? fun original => original.id == t.id with
    | none => some (seen ++ [t])
    | some original => if original = t then some seen else none

def uniqueTrades (rows : List Trade) : Option (List Trade) := rows.foldlM addUnique []

/-- One order's trades folded into the shape of its report. -/
structure AggregatedOrder where
  orderId : ℕ
  side : OrderSide
  terminalTradeId : ℕ
  cumQty : ℚ
  cumQuoteQty : ℚ

def AggregatedOrder.add (order : AggregatedOrder) (t : Trade) : AggregatedOrder :=
  { order with
    cumQty := order.cumQty + t.qty
    cumQuoteQty := order.cumQuoteQty + t.quoteQty
    terminalTradeId := max order.terminalTradeId t.id }

def addTrade (byOrder : List AggregatedOrder) (t : Trade) : List AggregatedOrder :=
  if byOrder.any fun order => order.orderId == t.orderId then
    byOrder.map fun order => if order.orderId = t.orderId then order.add t else order
  else
    byOrder ++
      [{ orderId := t.orderId, side := if t.isBuyer then .buy else .sell, terminalTradeId := t.id
         cumQty := t.qty, cumQuoteQty := t.quoteQty }]

def aggregate (trades : List Trade) : List AggregatedOrder := trades.foldl addTrade []

/-- Whatever trades the page held of an order are reported as the whole of it. -/
def AggregatedOrder.event (order : AggregatedOrder) : FillEvent where
  orderId := order.orderId
  tradeId := order.terminalTradeId
  orderStatus := "FILLED"
  side := order.side
  cumQty := order.cumQty
  cumQuoteQty := order.cumQuoteQty

/-- The reports a page of trades stands for, in the order the adopter is handed them. -/
def backfillEvents (rows : List Trade) : List FillEvent :=
  match uniqueTrades rows with
  | none => []
  | some unique =>
      ((aggregate unique).insertionSort fun a b => a.terminalTradeId ≤ b.terminalTradeId).map
        (·.event)

/-! ### Adoption -/

section Adopt

variable {ledger : Ledger} {event : FillEvent} {filters : SellFilters}

/-- A fold onto the ledger never fails: its columns are numbers. -/
theorem resolveFill_view (row : Option AvgEntryRow) (fill : RawFill)
    (stepSize minNotional : Option Decimal) :
    ∃ adopted, resolveFill (row.map (·.view)) fill stepSize minNotional = .ok adopted := by
  have hreads : ∃ quantity basis, Reads (row.map (·.view)) quantity basis := by
    cases row with
    | none => exact ⟨num 0, none, rfl, rfl⟩
    | some row => exact ⟨row.quantity, some row.avgEntryPrice, rfl, rfl⟩
  obtain ⟨quantity, basis, hreads⟩ := hreads
  rw [resolveFill, hreads.quantity, hreads.basis]
  cases fill.side with
  | buy => exact ⟨_, rfl⟩
  | sell => exact ⟨_, rfl⟩

theorem realizedPnlOnSell_view (row : AvgEntryRow) (soldQty proceeds : Decimal) :
    ∃ pnl, realizedPnlOnSell (some row.view) soldQty proceeds = .ok pnl := by
  have havg : filled (·.avgEntryPrice) (some row.view) = some (.printed row.avgEntryPrice) := rfl
  have hheld : filled (·.heldQuantity) (some row.view) = some (.printed row.quantity) := rfl
  rw [realizedPnlOnSell, havg, hheld]
  simp only [newDecimalString_printed, bind, Except.bind, pure, Except.pure]
  split
  · exact ⟨_, rfl⟩
  · exact ⟨_, rfl⟩

theorem resolveRow_ok (row : Option AvgEntryRow) (event : FillEvent) (isFirstApply : Bool)
    (filters : SellFilters) : ∃ next, resolveRow row event isFirstApply filters = .ok next := by
  unfold resolveRow
  split
  · unfold resolveBuy
    split
    · obtain ⟨adopted, hadopted⟩ := resolveFill_view row
        ⟨.buy, (num event.cumQuoteQty).div (num event.cumQty), num event.cumQty⟩ none none
      dsimp only
      rw [hadopted]
      exact ⟨_, rfl⟩
    · exact ⟨_, rfl⟩
  · unfold resolveSell
    split
    · exact ⟨_, rfl⟩
    · next existing =>
        split
        · obtain ⟨pnl, hpnl⟩ := realizedPnlOnSell_view existing (num event.cumQty)
            (num event.cumQuoteQty)
          obtain ⟨adopted, hadopted⟩ := resolveFill_view (some existing)
            ⟨.sell, if 0 < event.cumQty then (num event.cumQuoteQty).div (num event.cumQty)
              else num 0, num event.cumQty⟩ filters.stepSize filters.minNotional
          rw [Option.map_some] at hadopted
          rw [hpnl]
          dsimp only [bind, Except.bind]
          rw [hadopted]
          exact ⟨_, rfl⟩
        · exact ⟨_, rfl⟩

/-- What the adopter makes of the whole of a filled order: it is applied under its last trade, and
folded unless it was applied before. -/
theorem adopt_whole (hstatus : event.orderStatus = "FILLED") (hqty : 0 < event.cumQty)
    (hquote : 0 < event.cumQuoteQty) (htrade : event.tradeId ≠ 0) (horder : event.orderId ≠ 0) :
    ∃ row, adopt ledger event filters = .ok
      { appliedFills :=
          if !ledger.appliedFills.contains (event.orderId, event.tradeId) then
            ledger.appliedFills ++ [(event.orderId, event.tradeId)]
          else ledger.appliedFills
        row
        folds :=
          if foldsFill ledger event then ledger.folds ++ [(event.orderId, event.cumQty)]
          else ledger.folds } := by
  obtain ⟨row, hrow⟩ := resolveRow_ok ledger.row event
    (!ledger.appliedFills.contains (event.orderId, event.tradeId)) filters
  refine ⟨row, ?_⟩
  rw [adopt, if_neg (not_not.mpr hstatus), if_neg (by simp [hqty, hquote]),
    if_neg (by simp [htrade, horder]), recordFill, hrow]
  rfl

end Adopt

/-! ### What a page says of an order -/

section Orders

variable {trades : List Trade} {o : ℕ} {t : Trade}

def ofOrder (o : ℕ) (trades : List Trade) : List Trade := trades.filter fun t => t.orderId == o

def executedQty (o : ℕ) (trades : List Trade) : ℚ := ((ofOrder o trades).map (·.qty)).sum

def executedQuote (o : ℕ) (trades : List Trade) : ℚ := ((ofOrder o trades).map (·.quoteQty)).sum

/-- The last trade of the order. -/
def terminalId (o : ℕ) (trades : List Trade) : ℕ := ((ofOrder o trades).map (·.id)).foldl max 0

theorem ofOrder_concat_self (htrade : t.orderId = o) :
    ofOrder o (trades ++ [t]) = ofOrder o trades ++ [t] := by
  simp [ofOrder, htrade]

theorem ofOrder_concat_other (htrade : t.orderId ≠ o) :
    ofOrder o (trades ++ [t]) = ofOrder o trades := by
  simp [ofOrder, htrade]

/-- The totals of a list of trades depend on the order's own trades only. -/
structure SameTotals (o : ℕ) (before after : List Trade) : Prop where
  qty : executedQty o after = executedQty o before
  quote : executedQuote o after = executedQuote o before
  terminal : terminalId o after = terminalId o before

theorem sameTotals_of_ofOrder {before after : List Trade} (h : ofOrder o after = ofOrder o before) :
    SameTotals o before after :=
  ⟨by rw [executedQty, h, executedQty], by rw [executedQuote, h, executedQuote],
    by rw [terminalId, h, terminalId]⟩

/-- The aggregate of an order carries the totals of its trades. -/
structure Totals (trades : List Trade) (order : AggregatedOrder) : Prop where
  traded : ∃ t ∈ trades, t.orderId = order.orderId
  qty : order.cumQty = executedQty order.orderId trades
  quote : order.cumQuoteQty = executedQuote order.orderId trades
  terminal : order.terminalTradeId = terminalId order.orderId trades

theorem Totals.add {order : AggregatedOrder} (h : Totals trades order)
    (htrade : t.orderId = order.orderId) : Totals (trades ++ [t]) (order.add t) := by
  have hself := @ofOrder_concat_self trades _ t htrade
  refine ⟨⟨t, by simp, htrade⟩, ?_, ?_, ?_⟩
  · simp only [AggregatedOrder.add, executedQty, hself, h.qty, List.map_append, List.sum_append]
    simp
  · simp only [AggregatedOrder.add, executedQuote, hself, h.quote, List.map_append,
      List.sum_append]
    simp
  · simp only [AggregatedOrder.add, terminalId, hself, h.terminal, List.map_append,
      List.foldl_append]
    simp

theorem Totals.other {order : AggregatedOrder} (h : Totals trades order)
    (htrade : t.orderId ≠ order.orderId) : Totals (trades ++ [t]) order := by
  have hsame := sameTotals_of_ofOrder (@ofOrder_concat_other trades _ t htrade)
  obtain ⟨t', ht', horder⟩ := h.traded
  exact ⟨⟨t', List.mem_append_left _ ht', horder⟩, h.qty.trans hsame.qty.symm,
    h.quote.trans hsame.quote.symm, h.terminal.trans hsame.terminal.symm⟩

theorem aggregate_totals (trades : List Trade) :
    (∀ order ∈ aggregate trades, Totals trades order) ∧
      ∀ t ∈ trades, ∃ order ∈ aggregate trades, order.orderId = t.orderId := by
  induction trades using List.reverseRecOn with
  | nil => exact ⟨by simp [aggregate], by simp⟩
  | append_singleton trades t ih =>
      obtain ⟨htotals, hfound⟩ := ih
      have hsnoc : aggregate (trades ++ [t]) = addTrade (aggregate trades) t := by
        simp [aggregate]
      rw [hsnoc, addTrade]
      split
      · next hknown =>
          constructor
          · intro order horder
            obtain ⟨before, hbefore, rfl⟩ := List.mem_map.mp horder
            by_cases htrade : before.orderId = t.orderId
            · rw [if_pos htrade]
              exact (htotals before hbefore).add htrade.symm
            · rw [if_neg htrade]
              exact (htotals before hbefore).other (Ne.symm htrade)
          · intro t' ht'
            obtain ⟨before, hbefore, horder⟩ :
                ∃ order ∈ aggregate trades, order.orderId = t'.orderId := by
              rcases List.mem_append.mp ht' with ht' | ht'
              · exact hfound t' ht'
              · rw [List.mem_singleton.mp ht']
                obtain ⟨order, horder, hsame⟩ := List.any_eq_true.mp hknown
                exact ⟨order, horder, by simpa using hsame⟩
            refine ⟨_, List.mem_map.mpr ⟨before, hbefore, rfl⟩, ?_⟩
            split
            · exact horder
            · exact horder
      · next hunknown =>
          -- the first trade of its order on this page
          have hfresh : ∀ t' ∈ trades, t'.orderId ≠ t.orderId := by
            intro t' ht' hsame
            obtain ⟨order, horder, horderId⟩ := hfound t' ht'
            exact hunknown (List.any_eq_true.mpr ⟨order, horder, by simp [horderId, hsame]⟩)
          have hnone : ofOrder t.orderId trades = [] := by
            rw [ofOrder, List.filter_eq_nil_iff]
            intro t' ht'
            simpa using hfresh t' ht'
          have hself := @ofOrder_concat_self trades _ t rfl
          rw [hnone, List.nil_append] at hself
          constructor
          · intro order horder
            rcases List.mem_append.mp horder with horder | horder
            · obtain ⟨t', ht', hsame⟩ := (htotals order horder).traded
              exact (htotals order horder).other fun htrade =>
                hfresh t' ht' (hsame.trans htrade.symm)
            · rw [List.mem_singleton.mp horder]
              exact ⟨⟨t, by simp, rfl⟩, by simp [executedQty, hself],
                by simp [executedQuote, hself], by simp [terminalId, hself]⟩
          · intro t' ht'
            rcases List.mem_append.mp ht' with ht' | ht'
            · obtain ⟨order, horder, horderId⟩ := hfound t' ht'
              exact ⟨order, List.mem_append_left _ horder, horderId⟩
            · rw [List.mem_singleton.mp ht']
              exact ⟨_, List.mem_append_right _ (List.mem_singleton_self _), rfl⟩

/-- A page of distinct, valid rows is taken as it is. -/
theorem uniqueTrades_of_increasing (hincreasing : (trades.map (·.id)).Pairwise (· < ·))
    (hvalid : ∀ t ∈ trades, 0 ≤ t.qty ∧ 0 ≤ t.quoteQty) : uniqueTrades trades = some trades := by
  induction trades using List.reverseRecOn with
  | nil => rfl
  | append_singleton trades t ih =>
      rw [List.map_append, List.pairwise_append] at hincreasing
      have hvalidT := hvalid t (by simp)
      have hnew : trades.find? (fun original => original.id == t.id) = none := by
        rw [List.find?_eq_none]
        intro t' ht' hsame
        have hlt := hincreasing.2.2 t'.id (List.mem_map_of_mem ht') t.id (by simp)
        exact hlt.ne (by simpa using hsame)
      rw [uniqueTrades, List.foldlM_append, ← uniqueTrades,
        ih hincreasing.1 fun t' ht' => hvalid t' (List.mem_append_left _ ht')]
      simp [addUnique, hnew, hvalidT.1, hvalidT.2]

/-- The reports of a page: one of each of its orders, with what the page holds of it. -/
theorem mem_backfillEvents (hincreasing : (trades.map (·.id)).Pairwise (· < ·))
    (hvalid : ∀ t ∈ trades, 0 ≤ t.qty ∧ 0 ≤ t.quoteQty) :
    (∀ event ∈ backfillEvents trades, ∃ order, Totals trades order ∧ event = order.event) ∧
      ∀ t ∈ trades, ∃ event ∈ backfillEvents trades, event.orderId = t.orderId := by
  obtain ⟨htotals, hfound⟩ := aggregate_totals trades
  rw [backfillEvents, uniqueTrades_of_increasing hincreasing hvalid]
  constructor
  · intro event hevent
    obtain ⟨order, horder, rfl⟩ := List.mem_map.mp hevent
    exact ⟨order, htotals order ((List.mem_insertionSort _).mp horder), rfl⟩
  · intro t ht
    obtain ⟨order, horder, hsame⟩ := hfound t ht
    exact ⟨_, List.mem_map.mpr ⟨order, (List.mem_insertionSort _).mpr horder, rfl⟩, hsame⟩

end Orders

end TradingBot.Worker
