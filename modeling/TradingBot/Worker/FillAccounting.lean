import TradingBot.Lib.LabelledRun
import TradingBot.Worker.FillAdopter

/-!
# Every fill counted once

The orders of one profile on one symbol, the trades they execute, and the two
ways a trade reaches the ledger. A report can be delivered any number of times,
in any order, or never; a backfill reads its anchor, its page of trades and
then adopts one order at a time, while trades, reports and other backfills go
on.
-/

namespace TradingBot.Worker

open TrailingTrade LabelledRun

/-- A trade, and whether it filled its order. -/
structure Execution extends Trade where
  fills : Bool

/-- Where a backfill is. The orders it owes are those filled when it began; nothing reads them. -/
inductive BackfillPhase where
  | idle
  | anchored (anchor : ℕ) (owes : List ℕ)
  | adopting (queue : List FillEvent) (owes : List ℕ)

/-- The exchange's executions, oldest first, and the orders it took off the book; the ledger and the
backfills. An order is processed once its last report or a backfill that began after it was filled
has been. -/
structure Accounting where
  executions : List Execution
  cancelled : List ℕ
  ledger : Ledger
  backfills : ℕ → BackfillPhase
  processed : List ℕ

inductive AccountingStep where
  | trade (execution : Execution)
  | cancel (orderId : ℕ)
  | deliver (index : ℕ) (filters : SellFilters)
  | beginBackfill (run : ℕ)
  | fetch (run : ℕ)
  | adoptNext (run : ℕ) (filters : SellFilters)
  | abandon (run : ℕ)

/-- The exchange's report on an execution, the last of those listed. -/
def executionReport (executions : List Execution) (execution : Execution) : FillEvent :=
  let trades := executions.map (·.toTrade)
  { orderId := execution.orderId
    tradeId := execution.id
    orderStatus := if execution.fills then "FILLED" else "PARTIALLY_FILLED"
    side := if execution.isBuyer then .buy else .sell
    cumQty := executedQty execution.orderId trades
    cumQuoteQty := executedQuote execution.orderId trades }

/-- A failed adoption is rolled back. -/
def Ledger.adopted (ledger : Ledger) (event : FillEvent) (filters : SellFilters) : Ledger :=
  (adopt ledger event filters).toOption.getD ledger

namespace Accounting

variable (s : Accounting)

def trades : List Trade := s.executions.map (·.toTrade)

def filledOrders : List ℕ := (s.executions.filter (·.fills)).map (·.orderId)

/-- The order has left the book, and will not trade again. -/
def closed (orderId : ℕ) : Bool := s.filledOrders.contains orderId || s.cancelled.contains orderId

/-- The exchange executes in order, positive quantities of orders that are on the book. -/
def executes (execution : Execution) : Bool :=
  !s.closed execution.orderId && s.executions.all (fun e => decide (e.id < execution.id)) &&
    decide (0 < execution.qty) && decide (0 < execution.quoteQty)

def setBackfill (run : ℕ) (phase : BackfillPhase) : Accounting :=
  { s with backfills := Function.update s.backfills run phase }

/-- The backfill is through, and with it the orders it owed. -/
def finish (run : ℕ) (owes : List ℕ) : Accounting :=
  { s.setBackfill run .idle with processed := s.processed ++ owes }

def advance (run : ℕ) (queue : List FillEvent) (owes : List ℕ) : Accounting :=
  if queue.isEmpty then s.finish run owes else s.setBackfill run (.adopting queue owes)

def step : AccountingStep → Option Accounting
  | .trade execution =>
      if s.executes execution then some { s with executions := s.executions ++ [execution] }
      else none
  | .cancel orderId => some { s with cancelled := s.cancelled ++ [orderId] }
  | .deliver index filters =>
      s.executions[index]?.map fun execution =>
        { s with
          ledger := s.ledger.adopted
            (executionReport (s.executions.take (index + 1)) execution) filters
          processed :=
            if execution.fills then s.processed ++ [execution.orderId] else s.processed }
  | .beginBackfill run =>
      match s.backfills run with
      | .idle =>
          match maxTradeId s.ledger.appliedFills with
          | none => some (s.finish run s.filledOrders)
          | some anchor => some (s.setBackfill run (.anchored anchor s.filledOrders))
      | _ => none
  | .fetch run =>
      match s.backfills run with
      | .anchored anchor owes =>
          let page := getMyTrades s.trades (anchor + 1) myTradesPageLimit
          some (s.advance run (backfillEvents page) owes)
      | _ => none
  | .adoptNext run filters =>
      match s.backfills run with
      | .adopting (event :: queue) owes =>
          some ({ s with ledger := s.ledger.adopted event filters }.advance run queue owes)
      | _ => none
  | .abandon run => some (s.setBackfill run .idle)

/-- What was ever folded on account of an order. -/
def foldedQty (orderId : ℕ) : ℚ :=
  ((s.ledger.folds.filter fun fold => fold.1 == orderId).map Prod.snd).sum

/-- Nothing has happened yet; the ledger may hold a position. -/
structure Fresh : Prop where
  executions : s.executions = []
  cancelled : s.cancelled = []
  appliedFills : s.ledger.appliedFills = []
  folds : s.ledger.folds = []
  backfills : ∀ run, s.backfills run = .idle
  processed : s.processed = []

/-- What is folded of an order never exceeds what it executed, and is all of it once the order is
filled and processed. -/
structure CountsOnce (orderId : ℕ) : Prop where
  atMost : s.foldedQty orderId ≤ executedQty orderId s.trades
  exactly : orderId ∈ s.filledOrders → orderId ∈ s.processed →
    s.foldedQty orderId = executedQty orderId s.trades

/-! ### When accounting holds -/

/-- An order whose whole report was adopted. -/
def Applied (orderId : ℕ) : Prop := ∃ tradeId, (orderId, tradeId) ∈ s.ledger.appliedFills

/-- A sale that is adopted for the first time finds a position to fold into. -/
def SellsHeld (event : FillEvent) : Prop :=
  event.side = .sell → (event.orderId, event.tradeId) ∉ s.ledger.appliedFills →
    s.ledger.row.isSome = true

/-- The trades past the anchor fit on a page and are whole orders that have left the book, and no
filled order was left behind the anchor. -/
structure FetchesWhole (anchor : ℕ) : Prop where
  fits : (s.trades.filter fun t => anchor + 1 ≤ t.id).length ≤ myTradesPageLimit
  closed : ∀ t ∈ s.trades, anchor < t.id → s.closed t.orderId = true
  whole : ∀ t ∈ s.trades, anchor < t.id → ∀ t' ∈ s.trades, t'.orderId = t.orderId → anchor < t'.id
  behind : ∀ t ∈ s.trades, t.id ≤ anchor → t.orderId ∈ s.filledOrders → s.Applied t.orderId

def Orderly : AccountingStep → Prop
  | .trade execution => execution.id ≠ 0 ∧ execution.orderId ≠ 0
  | .deliver index _ =>
      ∀ execution, s.executions[index]? = some execution → execution.fills = true →
        s.SellsHeld (executionReport (s.executions.take (index + 1)) execution)
  | .beginBackfill _ => s.ledger.appliedFills = [] → s.filledOrders = []
  | .fetch run => ∀ anchor owes, s.backfills run = .anchored anchor owes → s.FetchesWhole anchor
  | .adoptNext run _ =>
      ∀ event queue owes, s.backfills run = .adopting (event :: queue) owes → s.SellsHeld event
  | _ => True

instance (orderId : ℕ) : Decidable (s.Applied orderId) :=
  decidable_of_iff (orderId ∈ s.ledger.appliedFills.map Prod.fst) (by simp [Applied])

instance (event : FillEvent) : Decidable (s.SellsHeld event) := inferInstanceAs (Decidable (_ → _))

instance (anchor : ℕ) : Decidable (s.FetchesWhole anchor) :=
  decidable_of_iff
    ((s.trades.filter fun t => anchor + 1 ≤ t.id).length ≤ myTradesPageLimit ∧
      (∀ t ∈ s.trades, anchor < t.id → s.closed t.orderId = true) ∧
      (∀ t ∈ s.trades, anchor < t.id →
        ∀ t' ∈ s.trades, t'.orderId = t.orderId → anchor < t'.id) ∧
      ∀ t ∈ s.trades, t.id ≤ anchor → t.orderId ∈ s.filledOrders → s.Applied t.orderId)
    ⟨fun ⟨fits, closed, whole, behind⟩ => ⟨fits, closed, whole, behind⟩,
      fun h => ⟨h.fits, h.closed, h.whole, h.behind⟩⟩

instance : (label : AccountingStep) → Decidable (s.Orderly label)
  | .trade _ => inferInstanceAs (Decidable (_ ∧ _))
  | .cancel _ => isTrue trivial
  | .deliver index _ =>
      match h : s.executions[index]? with
      | none => isTrue fun e he => by rw [h] at he; cases he
      | some e =>
          decidable_of_iff (e.fills = true →
              s.SellsHeld (executionReport (s.executions.take (index + 1)) e))
            ⟨fun hsells e' he' => by rw [h] at he'; cases he'; exact hsells, fun hall => hall e h⟩
  | .beginBackfill _ => inferInstanceAs (Decidable (_ → _))
  | .fetch run =>
      match h : s.backfills run with
      | .anchored anchor owes =>
          decidable_of_iff (s.FetchesWhole anchor)
            ⟨fun hwhole anchor' owes' h' => by rw [h] at h'; cases h'; exact hwhole,
              fun hall => hall anchor owes h⟩
      | .idle => isTrue fun _ _ h' => by rw [h] at h'; cases h'
      | .adopting _ _ => isTrue fun _ _ h' => by rw [h] at h'; cases h'
  | .adoptNext run _ =>
      match h : s.backfills run with
      | .adopting (event :: queue) owes =>
          decidable_of_iff (s.SellsHeld event)
            ⟨fun hheld event' queue' owes' h' => by rw [h] at h'; cases h'; exact hheld,
              fun hall => hall event queue owes h⟩
      | .adopting [] _ => isTrue fun _ _ _ h' => by rw [h] at h'; cases h'
      | .anchored _ _ => isTrue fun _ _ _ h' => by rw [h] at h'; cases h'
      | .idle => isTrue fun _ _ _ h' => by rw [h] at h'; cases h'
  | .abandon _ => isTrue trivial

/-! ### The invariant -/

/-- A report of the whole of an order that has left the book. -/
structure Whole (event : FillEvent) : Prop where
  orderStatus : event.orderStatus = "FILLED"
  closed : s.closed event.orderId = true
  tradeId : event.tradeId = terminalId event.orderId s.trades
  cumQty : event.cumQty = executedQty event.orderId s.trades
  cumQty_pos : 0 < event.cumQty
  cumQuoteQty_pos : 0 < event.cumQuoteQty
  tradeId_ne : event.tradeId ≠ 0
  orderId_ne : event.orderId ≠ 0

/-- What a backfill still has to do for an order it owes. -/
def Owed (orderId : ℕ) : BackfillPhase → Prop
  | .idle => True
  | .anchored _ owes => orderId ∈ owes → orderId ∈ s.filledOrders
  | .adopting queue owes =>
      orderId ∈ owes → s.Applied orderId ∨ ∃ event ∈ queue, event.orderId = orderId

/-- Every order that was applied was applied once, whole, and under its last trade; what a backfill
has queued is whole; and what was processed was applied. -/
structure Exact : Prop where
  increasing : (s.trades.map (·.id)).Pairwise (· < ·)
  positive : ∀ t ∈ s.trades, 0 < t.qty ∧ 0 < t.quoteQty
  identified : ∀ t ∈ s.trades, t.id ≠ 0 ∧ t.orderId ≠ 0
  last : ∀ index e, s.executions[index]? = some e → e.fills = true →
    ofOrder e.orderId s.trades =
      ofOrder e.orderId ((s.executions.take (index + 1)).map (·.toTrade))
  applied : ∀ o t, (o, t) ∈ s.ledger.appliedFills →
    s.closed o = true ∧ t = terminalId o s.trades ∧ s.foldedQty o = executedQty o s.trades
  unapplied : ∀ o, ¬ s.Applied o → s.foldedQty o = 0
  queued : ∀ run queue owes, s.backfills run = .adopting queue owes → ∀ e ∈ queue, s.Whole e
  owed : ∀ run o, s.Owed o (s.backfills run)
  processed : ∀ o ∈ s.processed, s.Applied o

variable {s}

theorem exact_of_fresh (h : s.Fresh) : s.Exact where
  increasing := by simp [trades, h.executions]
  positive := by simp [trades, h.executions]
  identified := by simp [trades, h.executions]
  last := by simp [h.executions]
  applied := by simp [h.appliedFills]
  unapplied := by simp [foldedQty, h.folds]
  queued := by
    intro run queue owes hphase
    rw [h.backfills run] at hphase
    cases hphase
  owed := by
    intro run o
    rw [h.backfills run]
    trivial
  processed := by simp [h.processed]

theorem executedQty_nonneg (h : s.Exact) (o : ℕ) : 0 ≤ executedQty o s.trades := by
  apply List.sum_nonneg
  intro q hq
  obtain ⟨t, ht, rfl⟩ := List.mem_map.mp hq
  exact (h.positive t (List.mem_filter.mp ht).1).1.le

/-- The invariant is the claim. -/
theorem Exact.countsOnce (h : s.Exact) (o : ℕ) : s.CountsOnce o := by
  have happlied : s.Applied o → s.foldedQty o = executedQty o s.trades := by
    rintro ⟨t, ht⟩
    exact (h.applied o t ht).2.2
  refine ⟨?_, fun _ hprocessed => happlied (h.processed o hprocessed)⟩
  by_cases hfolded : s.Applied o
  · exact (happlied hfolded).le
  · rw [h.unapplied o hfolded]
    exact executedQty_nonneg h o

theorem Owed.mono {s' : Accounting} {o : ℕ} {phase : BackfillPhase} (h : s.Owed o phase)
    (hfilled : o ∈ s.filledOrders → o ∈ s'.filledOrders) (happlied : s.Applied o → s'.Applied o) :
    s'.Owed o phase := by
  cases phase with
  | idle => trivial
  | anchored anchor owes => exact fun ho => hfilled (h ho)
  | adopting queue owes => exact fun ho => (h ho).imp_left happlied

@[simp] theorem backfills_setBackfill_self (s : Accounting) (run : ℕ) (phase : BackfillPhase) :
    (s.setBackfill run phase).backfills run = phase := Function.update_self ..

@[simp] theorem backfills_setBackfill_of_ne {run run' : ℕ} (h : run' ≠ run) (s : Accounting)
    (phase : BackfillPhase) : (s.setBackfill run phase).backfills run' = s.backfills run' :=
  Function.update_of_ne h ..

/-! ### Trades and cancels -/

theorem trades_concat (s : Accounting) (e : Execution) :
    ({ s with executions := s.executions ++ [e] } : Accounting).trades =
      s.trades ++ [e.toTrade] := by
  simp [trades]

/-- An order that has left the book stays off it. -/
theorem closed_concat {e : Execution} {o : ℕ} (h : s.closed o = true) :
    ({ s with executions := s.executions ++ [e] } : Accounting).closed o = true := by
  simp only [closed, filledOrders, Bool.or_eq_true, List.contains_iff_mem, List.filter_append,
    List.map_append, List.mem_append] at h ⊢
  exact h.imp_left .inl

theorem sameTotals_concat {e : Execution} (hopen : s.closed e.orderId = false) {o : ℕ}
    (hclosed : s.closed o = true) :
    ofOrder o ({ s with executions := s.executions ++ [e] } : Accounting).trades =
      ofOrder o s.trades := by
  rw [trades_concat]
  apply ofOrder_concat_other
  intro hsame
  rw [← hsame] at hclosed
  cases hopen.symm.trans hclosed

theorem closed_of_fills {index : ℕ} {e : Execution} (h : s.executions[index]? = some e)
    (hfills : e.fills = true) : s.closed e.orderId = true := by
  have hmem : e.orderId ∈ s.filledOrders :=
    List.mem_map.mpr ⟨e, List.mem_filter.mpr ⟨List.mem_of_getElem? h, hfills⟩, rfl⟩
  simp [closed, hmem]

theorem Whole.concat {e : Execution} {event : FillEvent} (hopen : s.closed e.orderId = false)
    (h : s.Whole event) :
    ({ s with executions := s.executions ++ [e] } : Accounting).Whole event := by
  have hsame := sameTotals_of_ofOrder (sameTotals_concat hopen h.closed)
  exact ⟨h.orderStatus, closed_concat h.closed, h.tradeId.trans hsame.terminal.symm,
    h.cumQty.trans hsame.qty.symm, h.cumQty_pos, h.cumQuoteQty_pos, h.tradeId_ne, h.orderId_ne⟩

theorem Exact.trade {e : Execution} (h : s.Exact) (hexecutes : s.executes e = true)
    (hid : e.id ≠ 0) (horder : e.orderId ≠ 0) :
    ({ s with executions := s.executions ++ [e] } : Accounting).Exact := by
  simp only [executes, Bool.and_eq_true, Bool.not_eq_true', List.all_eq_true,
    decide_eq_true_eq] at hexecutes
  obtain ⟨⟨⟨hopen, hlater⟩, hqty⟩, hquote⟩ := hexecutes
  have hmem : ∀ t ∈ ({ s with executions := s.executions ++ [e] } : Accounting).trades,
      t ∈ s.trades ∨ t = e.toTrade := by
    intro t ht
    rw [trades_concat] at ht
    simpa using ht
  exact
    { increasing := by
        rw [trades_concat, List.map_append, List.pairwise_append]
        refine ⟨h.increasing, List.pairwise_singleton _ _, ?_⟩
        intro id hid id' hid'
        obtain ⟨t, ht, rfl⟩ := List.mem_map.mp hid
        obtain ⟨e', he', rfl⟩ := List.mem_map.mp ht
        rw [List.map_singleton, List.mem_singleton] at hid'
        rw [hid']
        exact hlater e' he'
      positive := by
        intro t ht
        rcases hmem t ht with ht | rfl
        · exact h.positive t ht
        · exact ⟨hqty, hquote⟩
      identified := by
        intro t ht
        rcases hmem t ht with ht | rfl
        · exact h.identified t ht
        · exact ⟨hid, horder⟩
      last := by
        intro index e' he' hfills
        by_cases hold : index < s.executions.length
        · have he' : s.executions[index]? = some e' := by
            rw [← he', List.getElem?_append_left hold]
          have htake : (s.executions ++ [e]).take (index + 1) = s.executions.take (index + 1) :=
            List.take_append_of_le_length hold
          rw [sameTotals_concat hopen (closed_of_fills he' hfills), h.last index e' he' hfills,
            htake]
        · -- the new execution is the last of all
          have htake : (s.executions ++ [e]).take (index + 1) = s.executions ++ [e] := by
            apply List.take_of_length_le
            rw [List.length_append, List.length_singleton]
            omega
          rw [htake]
          rfl
      applied := by
        intro o t ht
        obtain ⟨hclosed, hterminal, hfolded⟩ := h.applied o t ht
        have hsame := sameTotals_of_ofOrder (sameTotals_concat hopen hclosed)
        exact ⟨closed_concat hclosed, hterminal.trans hsame.terminal.symm,
          hfolded.trans hsame.qty.symm⟩
      unapplied := h.unapplied
      queued := fun run queue owes hphase event hevent =>
        (h.queued run queue owes hphase event hevent).concat hopen
      owed := by
        intro run o
        refine (h.owed run o).mono (fun hfilled => ?_) id
        simp only [filledOrders, List.filter_append, List.map_append, List.mem_append]
        exact .inl hfilled
      processed := h.processed }

theorem Exact.cancel (h : s.Exact) (o : ℕ) :
    ({ s with cancelled := s.cancelled ++ [o] } : Accounting).Exact := by
  have hclosed : ∀ o', s.closed o' = true →
      ({ s with cancelled := s.cancelled ++ [o] } : Accounting).closed o' = true := by
    intro o' ho'
    simp only [closed, Bool.or_eq_true, List.contains_iff_mem, List.mem_append] at ho' ⊢
    exact ho'.imp_right .inl
  exact
    { h with
      applied := fun o' t ht => ⟨hclosed o' (h.applied o' t ht).1, (h.applied o' t ht).2⟩
      queued := fun run queue owes hphase event hevent =>
        let hwhole := h.queued run queue owes hphase event hevent
        { hwhole with closed := hclosed _ hwhole.closed } }

/-! ### Adoptions -/

/-- The whole of an order is either new to the ledger, and then recorded and folded, or changes
nothing the accounts depend on. -/
theorem Whole.adopted {event : FillEvent} (h : s.Whole event) (hheld : s.SellsHeld event)
    (filters : SellFilters) :
    ((event.orderId, event.tradeId) ∈ s.ledger.appliedFills ∧
      (s.ledger.adopted event filters).appliedFills = s.ledger.appliedFills ∧
      (s.ledger.adopted event filters).folds = s.ledger.folds) ∨
    ((event.orderId, event.tradeId) ∉ s.ledger.appliedFills ∧
      (s.ledger.adopted event filters).appliedFills =
        s.ledger.appliedFills ++ [(event.orderId, event.tradeId)] ∧
      (s.ledger.adopted event filters).folds =
        s.ledger.folds ++ [(event.orderId, event.cumQty)]) := by
  obtain ⟨row, hadopt⟩ := @adopt_whole s.ledger event filters h.orderStatus h.cumQty_pos
    h.cumQuoteQty_pos h.tradeId_ne h.orderId_ne
  have hledger : ∀ next, adopt s.ledger event filters = .ok next →
      s.ledger.adopted event filters = next := by
    intro next hnext
    rw [Ledger.adopted, hnext]
    rfl
  rw [hledger _ hadopt]
  by_cases hseen : (event.orderId, event.tradeId) ∈ s.ledger.appliedFills
  · exact .inl ⟨hseen, by simp [hseen], by simp [foldsFill, hseen]⟩
  · have hfolds : foldsFill s.ledger event = true := by
      cases hside : event.side with
      | buy => simp [foldsFill, hseen, hside]
      | sell => simp [foldsFill, hseen, hheld hside hseen]
    exact .inr ⟨hseen, by simp [hseen], by simp [hfolds]⟩

theorem Whole.applied_mono {event : FillEvent} (h : s.Whole event) (hheld : s.SellsHeld event)
    (filters : SellFilters) {key : ℕ × ℕ} (hkey : key ∈ s.ledger.appliedFills) :
    key ∈ (s.ledger.adopted event filters).appliedFills := by
  rcases h.adopted hheld filters with ⟨-, happlied, -⟩ | ⟨-, happlied, -⟩
  · rw [happlied]
    exact hkey
  · rw [happlied]
    exact List.mem_append_left _ hkey

/-- The accounts with another ledger. -/
def withLedger (s : Accounting) (ledger : Ledger) : Accounting := { s with ledger }

theorem foldedQty_concat {ledger : Ledger} {orderId : ℕ} {qty : ℚ}
    (hfolds : ledger.folds = s.ledger.folds ++ [(orderId, qty)]) (o : ℕ) :
    (s.withLedger ledger).foldedQty o = s.foldedQty o + if orderId = o then qty else 0 := by
  simp only [foldedQty, withLedger, hfolds, List.filter_append, List.map_append, List.sum_append]
  by_cases hsame : orderId = o
  · simp [hsame]
  · simp [hsame]

/-- The accounts hold with a ledger that applies no less and accounts for what it applies. -/
theorem Exact.withLedger {ledger : Ledger} (h : s.Exact)
    (hmono : ∀ key ∈ s.ledger.appliedFills, key ∈ ledger.appliedFills)
    (happlied : ∀ o t, (o, t) ∈ ledger.appliedFills → s.closed o = true ∧
      t = terminalId o s.trades ∧ (s.withLedger ledger).foldedQty o = executedQty o s.trades)
    (hunapplied : ∀ o, ¬ (s.withLedger ledger).Applied o → (s.withLedger ledger).foldedQty o = 0) :
    (s.withLedger ledger).Exact := by
  have happly : ∀ o, s.Applied o → (s.withLedger ledger).Applied o :=
    fun o ⟨t, ht⟩ => ⟨t, hmono _ ht⟩
  exact
    { increasing := h.increasing
      positive := h.positive
      identified := h.identified
      last := h.last
      applied := happlied
      unapplied := hunapplied
      queued := fun run queue owes hphase event hevent =>
        { h.queued run queue owes hphase event hevent with }
      owed := fun run o => (h.owed run o).mono id (happly o)
      processed := fun o ho => happly o (h.processed o ho) }

theorem Exact.adopted {event : FillEvent} (h : s.Exact) (hwhole : s.Whole event)
    (hheld : s.SellsHeld event) (filters : SellFilters) :
    (s.withLedger (s.ledger.adopted event filters)).Exact ∧
      (s.withLedger (s.ledger.adopted event filters)).Applied event.orderId := by
  rcases hwhole.adopted hheld filters with ⟨hseen, happlied, hfolds⟩ | ⟨hnew, happlied, hfolds⟩
  · have hfolded : ∀ o, (s.withLedger (s.ledger.adopted event filters)).foldedQty o =
        s.foldedQty o := by
      intro o
      rw [foldedQty, Accounting.withLedger, hfolds, ← foldedQty]
    refine ⟨h.withLedger (fun _ => hwhole.applied_mono hheld filters) ?_ ?_, event.tradeId, ?_⟩
    · intro o t ht
      rw [happlied] at ht
      rw [hfolded]
      exact h.applied o t ht
    · rintro o hnone
      rw [hfolded]
      refine h.unapplied o ?_
      rintro ⟨t, ht⟩
      exact hnone ⟨t, by rw [Accounting.withLedger, happlied]; exact ht⟩
    · rw [Accounting.withLedger, happlied]
      exact hseen
  · have hfolded := @foldedQty_concat s _ _ _ hfolds
    -- an order applied under its last trade is not applied again
    have hfirst : ¬ s.Applied event.orderId := by
      rintro ⟨t, ht⟩
      rw [(h.applied _ _ ht).2.1, ← hwhole.tradeId] at ht
      exact hnew ht
    have hother : ∀ o, o ≠ event.orderId →
        (s.withLedger (s.ledger.adopted event filters)).foldedQty o = s.foldedQty o := by
      intro o ho
      rw [hfolded, if_neg (Ne.symm ho), add_zero]
    refine ⟨h.withLedger (fun _ => hwhole.applied_mono hheld filters) ?_ ?_, event.tradeId, ?_⟩
    · intro o t ht
      rw [happlied, List.mem_append, List.mem_singleton, Prod.mk.injEq] at ht
      rcases ht with ht | ⟨rfl, rfl⟩
      · rw [hother o fun hsame => hfirst ⟨t, by rw [← hsame]; exact ht⟩]
        exact h.applied o t ht
      · refine ⟨hwhole.closed, hwhole.tradeId, ?_⟩
        rw [hfolded, if_pos rfl, h.unapplied _ hfirst, zero_add]
        exact hwhole.cumQty
    · intro o hnone
      have happly : ∀ t, (o, t) ∈ s.ledger.appliedFills ++ [(event.orderId, event.tradeId)] →
          False := by
        intro t ht
        exact hnone ⟨t, by rw [Accounting.withLedger, happlied]; exact ht⟩
      rw [hother o fun hsame => happly event.tradeId (by simp [hsame])]
      exact h.unapplied o fun ⟨t, ht⟩ => happly t (List.mem_append_left _ ht)
    · rw [Accounting.withLedger, happlied]
      exact List.mem_append_right _ (List.mem_singleton_self _)

/-! ### Reports -/

theorem foldl_max_eq {ids : List ℕ} {bound : ℕ} (h : ∀ id ∈ ids, id < bound) (start : ℕ)
    (hstart : start ≤ bound) : (ids ++ [bound]).foldl max start = bound := by
  induction ids generalizing start with
  | nil => simpa using hstart
  | cons id ids ih =>
      rw [List.cons_append, List.foldl_cons]
      refine ih (fun id' hid' => h id' (List.mem_cons_of_mem _ hid')) _ ?_
      exact max_le hstart (h id (List.mem_cons_self ..)).le

theorem le_foldl_max (ids : List ℕ) (start : ℕ) :
    start ≤ ids.foldl max start ∧ ∀ id ∈ ids, id ≤ ids.foldl max start := by
  induction ids generalizing start with
  | nil => simp
  | cons id ids ih =>
      obtain ⟨hstart, hids⟩ := ih (max start id)
      rw [List.foldl_cons]
      refine ⟨(le_max_left ..).trans hstart, ?_⟩
      intro id' hid'
      rcases List.mem_cons.mp hid' with rfl | hid'
      · exact (le_max_right ..).trans hstart
      · exact hids id' hid'

theorem mem_ofOrder {trades : List Trade} {t : Trade} (ht : t ∈ trades) :
    t ∈ ofOrder t.orderId trades := List.mem_filter.mpr ⟨ht, by simp⟩

theorem Exact.traded (h : s.Exact) {t : Trade} (ht : t ∈ s.trades) :
    0 < executedQty t.orderId s.trades ∧ 0 < executedQuote t.orderId s.trades ∧
      t.id ≤ terminalId t.orderId s.trades := by
  have hpositive : ∀ f : Trade → ℚ, (∀ t ∈ s.trades, 0 < f t) →
      0 < ((ofOrder t.orderId s.trades).map f).sum := by
    intro f hf
    apply List.sum_pos
    · intro q hq
      obtain ⟨t', ht', rfl⟩ := List.mem_map.mp hq
      exact hf t' (List.mem_filter.mp ht').1
    · exact List.ne_nil_of_mem (List.mem_map_of_mem (mem_ofOrder ht))
  exact ⟨hpositive _ fun t' ht' => (h.positive t' ht').1,
    hpositive _ fun t' ht' => (h.positive t' ht').2,
    (le_foldl_max _ 0).2 _ (List.mem_map_of_mem (mem_ofOrder ht))⟩

/-- The report of the execution that filled an order is of the whole of it. -/
theorem Exact.whole_report (h : s.Exact) {index : ℕ} {e : Execution}
    (hindex : s.executions[index]? = some e) (hfills : e.fills = true) :
    s.Whole (executionReport (s.executions.take (index + 1)) e) := by
  have hlast := h.last index e hindex hfills
  have hsame := sameTotals_of_ofOrder hlast
  have hmem : e.toTrade ∈ s.trades := List.mem_map_of_mem (List.mem_of_getElem? hindex)
  -- the order's trades: those before this one, and this one
  have hsplit : s.executions = s.executions.take index ++ e :: s.executions.drop (index + 1) := by
    obtain ⟨hlt, hget⟩ := List.getElem?_eq_some_iff.mp hindex
    rw [← hget, ← List.drop_eq_getElem_cons hlt, List.take_append_drop]
  have htake : s.executions.take (index + 1) = s.executions.take index ++ [e] := by
    rw [List.take_add_one, hindex]
    rfl
  have hown : ofOrder e.orderId s.trades =
      ofOrder e.orderId ((s.executions.take index).map (·.toTrade)) ++ [e.toTrade] := by
    rw [hlast, htake, List.map_append]
    exact ofOrder_concat_self rfl
  have hbefore : ∀ t ∈ (s.executions.take index).map (·.toTrade), t.id < e.id := by
    have hincreasing := h.increasing
    rw [trades, hsplit, List.map_append, List.map_append, List.pairwise_append] at hincreasing
    intro t ht
    exact hincreasing.2.2 t.id (List.mem_map_of_mem ht) e.id (by simp)
  have hterminal : e.id = terminalId e.orderId s.trades := by
    rw [terminalId, hown, List.map_append]
    refine (foldl_max_eq ?_ 0 (Nat.zero_le _)).symm
    intro id hid
    obtain ⟨t, ht, rfl⟩ := List.mem_map.mp hid
    exact hbefore t (List.mem_filter.mp ht).1
  obtain ⟨hqty, hquote, -⟩ := h.traded hmem
  exact ⟨by simp [executionReport, hfills], closed_of_fills hindex hfills, hterminal,
    hsame.qty.symm, hqty.trans_eq hsame.qty, hquote.trans_eq hsame.quote,
    (h.identified _ hmem).1, (h.identified _ hmem).2⟩

theorem adopted_partially {executions : List Execution} {e : Execution} (hfills : e.fills = false)
    (ledger : Ledger) (filters : SellFilters) :
    ledger.adopted (executionReport executions e) filters = ledger := by
  have hstatus : (executionReport executions e).orderStatus ≠ "FILLED" := by
    simp [executionReport, hfills]
  rw [Ledger.adopted, adopt, if_pos hstatus]
  rfl

theorem Exact.process (h : s.Exact) {orders : List ℕ} (happlied : ∀ o ∈ orders, s.Applied o) :
    ({ s with processed := s.processed ++ orders } : Accounting).Exact where
  increasing := h.increasing
  positive := h.positive
  identified := h.identified
  last := h.last
  applied := h.applied
  unapplied := h.unapplied
  queued := fun run queue owes hphase event hevent =>
    { h.queued run queue owes hphase event hevent with }
  owed := fun run o => (h.owed run o).mono id id
  processed := by
    intro o ho
    rcases List.mem_append.mp ho with ho | ho
    · exact h.processed o ho
    · exact happlied o ho

theorem Exact.deliver (h : s.Exact) {index : ℕ} {filters : SellFilters} {next : Accounting}
    (hok : s.Orderly (.deliver index filters))
    (hstep : s.step (.deliver index filters) = some next) :
    next.Exact := by
  obtain ⟨e, hindex, rfl⟩ := Option.map_eq_some_iff.mp hstep
  cases hfills : e.fills with
  | false =>
      rw [adopted_partially hfills]
      exact h
  | true =>
      obtain ⟨hexact, happlied⟩ :=
        h.adopted (h.whole_report hindex hfills) (hok e hindex hfills) filters
      refine hexact.process fun o ho => ?_
      rw [List.mem_singleton.mp ho]
      exact happlied

/-! ### Backfills -/

theorem Exact.setBackfill (h : s.Exact) {run : ℕ} {phase : BackfillPhase}
    (hqueued : ∀ queue owes, phase = .adopting queue owes → ∀ event ∈ queue, s.Whole event)
    (howed : ∀ o, s.Owed o phase) : (s.setBackfill run phase).Exact where
  increasing := h.increasing
  positive := h.positive
  identified := h.identified
  last := h.last
  applied := h.applied
  unapplied := h.unapplied
  queued := by
    intro run' queue owes hphase event hevent
    have hwhole : s.Whole event := by
      by_cases hrun : run' = run
      · rw [hrun, backfills_setBackfill_self] at hphase
        exact hqueued queue owes hphase event hevent
      · rw [backfills_setBackfill_of_ne hrun] at hphase
        exact h.queued run' queue owes hphase event hevent
    exact { hwhole with }
  owed := by
    intro run' o
    by_cases hrun : run' = run
    · rw [hrun, backfills_setBackfill_self]
      exact (howed o).mono id id
    · rw [backfills_setBackfill_of_ne hrun]
      exact (h.owed run' o).mono id id
  processed := h.processed

theorem Exact.finish (h : s.Exact) (run : ℕ) {owes : List ℕ} (happlied : ∀ o ∈ owes, s.Applied o) :
    (s.finish run owes).Exact := by
  have hidle : (s.setBackfill run .idle).Exact :=
    h.setBackfill (fun queue owes hphase => by cases hphase) fun _ => trivial
  exact hidle.process happlied

theorem Exact.advance (h : s.Exact) (run : ℕ) {queue : List FillEvent} {owes : List ℕ}
    (hqueued : ∀ event ∈ queue, s.Whole event)
    (howed : ∀ o ∈ owes, s.Applied o ∨ ∃ event ∈ queue, event.orderId = o) :
    (s.advance run queue owes).Exact := by
  unfold Accounting.advance
  split
  · next hempty =>
      refine h.finish run fun o ho => ?_
      rw [List.isEmpty_iff.mp hempty] at howed
      simpa using howed o ho
  · refine h.setBackfill ?_ fun o => howed o
    intro queue' owes' hphase
    cases hphase
    exact hqueued

theorem Exact.beginBackfill (h : s.Exact) {run : ℕ} {next : Accounting}
    (hok : s.Orderly (.beginBackfill run)) (hstep : s.step (.beginBackfill run) = some next) :
    next.Exact := by
  simp only [step] at hstep
  split at hstep
  · split at hstep
    · next hnone =>
        cases hstep
        rw [maxTradeId, List.max?_eq_none_iff, List.map_eq_nil_iff] at hnone
        refine h.finish run fun o ho => ?_
        rw [hok hnone] at ho
        cases ho
    · cases hstep
      exact h.setBackfill (fun queue owes hphase => by cases hphase) fun _ => id
  · cases hstep

/-- The page of a backfill that fetches whole orders stands for whole reports. -/
theorem Exact.fetch (h : s.Exact) {run : ℕ} {next : Accounting}
    (hok : s.Orderly (.fetch run)) (hstep : s.step (.fetch run) = some next) : next.Exact := by
  simp only [step] at hstep
  split at hstep
  · next anchor owes hphase =>
      cases hstep
      have hfetches := hok anchor owes hphase
      have hpage : getMyTrades s.trades (anchor + 1) myTradesPageLimit =
          s.trades.filter fun t => anchor + 1 ≤ t.id := List.take_of_length_le hfetches.fits
      have hpast : ∀ t, t ∈ s.trades.filter (fun t => anchor + 1 ≤ t.id) ↔
          t ∈ s.trades ∧ anchor < t.id := by
        intro t
        rw [List.mem_filter, decide_eq_true_eq, Nat.succ_le_iff]
      have hincreasing : ((s.trades.filter fun t => anchor + 1 ≤ t.id).map (·.id)).Pairwise
          (· < ·) := h.increasing.sublist (List.filter_sublist.map _)
      obtain ⟨hevents, hfound⟩ := mem_backfillEvents hincreasing fun t ht =>
        ⟨(h.positive t ((hpast t).mp ht).1).1.le, (h.positive t ((hpast t).mp ht).1).2.le⟩
      rw [hpage]
      refine h.advance run ?_ ?_
      · intro event hevent
        obtain ⟨order, htotals, rfl⟩ := hevents event hevent
        obtain ⟨t, ht, htrade⟩ := htotals.traded
        obtain ⟨hmem, hlate⟩ := (hpast t).mp ht
        -- the page holds all of the order's trades
        have hown : ofOrder order.orderId (s.trades.filter fun t => anchor + 1 ≤ t.id) =
            ofOrder order.orderId s.trades := by
          rw [ofOrder, ofOrder, List.filter_filter]
          apply List.filter_congr
          intro t' ht'
          by_cases hsame : t'.orderId = order.orderId
          · have hlate' := hfetches.whole t hmem hlate t' ht' (hsame.trans htrade.symm)
            simp [hsame, Nat.succ_le_iff.mpr hlate']
          · simp [hsame]
        have hsame := sameTotals_of_ofOrder hown
        obtain ⟨hqty, hquote, hlast⟩ := h.traded hmem
        have hclosed := hfetches.closed t hmem hlate
        have hidentified := (h.identified t hmem).2
        rw [htrade] at hqty hquote hlast hclosed hidentified
        have hterminal := htotals.terminal.trans hsame.terminal
        have hcumQty := htotals.qty.trans hsame.qty
        have hcumQuote := htotals.quote.trans hsame.quote
        refine ⟨rfl, hclosed, hterminal, hcumQty, hqty.trans_eq hcumQty.symm,
          hquote.trans_eq hcumQuote.symm, ?_, hidentified⟩
        exact (((Nat.zero_lt_of_lt hlate).trans_le hlast).trans_eq hterminal.symm).ne'
      · intro o ho
        have hfilled := h.owed run o
        rw [hphase] at hfilled
        obtain ⟨e, he, rfl⟩ := List.mem_map.mp (hfilled ho)
        have hmem : e.toTrade ∈ s.trades := List.mem_map_of_mem (List.mem_filter.mp he).1
        by_cases hlate : anchor < e.id
        · exact .inr (hfound e.toTrade ((hpast _).mpr ⟨hmem, hlate⟩))
        · exact .inl (hfetches.behind e.toTrade hmem (not_lt.mp hlate) (hfilled ho))
  · cases hstep

theorem Exact.adoptNext (h : s.Exact) {run : ℕ} {filters : SellFilters} {next : Accounting}
    (hok : s.Orderly (.adoptNext run filters))
    (hstep : s.step (.adoptNext run filters) = some next) :
    next.Exact := by
  simp only [step] at hstep
  split at hstep
  · next event queue owes hphase =>
      cases hstep
      have hqueued := h.queued run _ _ hphase
      have howed := h.owed run
      rw [hphase] at howed
      obtain ⟨hexact, happlied⟩ := h.adopted (hqueued event (List.mem_cons_self ..))
        (hok event queue owes hphase) filters
      have hmono : ∀ o, s.Applied o →
          (s.withLedger (s.ledger.adopted event filters)).Applied o := by
        rintro o ⟨t, ht⟩
        exact ⟨t, (hqueued event (List.mem_cons_self ..)).applied_mono
          (hok event queue owes hphase) filters ht⟩
      refine hexact.advance run ?_ ?_
      · exact fun event' hevent' => { hqueued event' (List.mem_cons_of_mem _ hevent') with }
      · intro o ho
        rcases howed o ho with hold | ⟨event', hevent', hsame⟩
        · exact .inl (hmono o hold)
        · rcases List.mem_cons.mp hevent' with rfl | hevent'
          · exact .inl (hsame ▸ happlied)
          · exact .inr ⟨event', hevent', hsame⟩
  · cases hstep

/-! ### Runs -/

theorem Exact.step {label : AccountingStep} {next : Accounting} (h : s.Exact)
    (hok : s.Orderly label) (hstep : s.step label = some next) : next.Exact := by
  cases label with
  | trade execution =>
      simp only [Accounting.step] at hstep
      split at hstep
      · next hexecutes =>
          cases hstep
          exact h.trade hexecutes hok.1 hok.2
      · cases hstep
  | cancel orderId =>
      cases hstep
      exact h.cancel orderId
  | deliver index filters => exact h.deliver hok hstep
  | beginBackfill run => exact h.beginBackfill hok hstep
  | fetch run => exact h.fetch hok hstep
  | adoptNext run filters => exact h.adoptNext hok hstep
  | abandon run =>
      cases hstep
      exact h.setBackfill (fun queue owes hphase => by cases hphase) fun _ => trivial

/-- In every run of trades, reports and backfills that fetch whole orders only, no order is folded
beyond what it executed, and a filled order that was processed is folded in full. -/
theorem fills_counted_once (start s : Accounting) (orderId : ℕ) (hfresh : start.Fresh)
    (hrun : Reach Accounting.step Accounting.Orderly start s) : s.CountsOnce orderId := by
  have hexact : s.Exact := by
    refine hrun.invariant (exact_of_fresh hfresh) ?_
    intro before label after hexact hok hstep
    exact hexact.step hok hstep
  exact hexact.countsOnce orderId

/-! ### Sample runs -/

/-- A buy of one coin at a hundred. -/
def sampleExecution (id orderId : ℕ) (fills : Bool) : Execution :=
  { id, orderId, isBuyer := true, qty := 1, quoteQty := 100, fills }

def sampleFilters : SellFilters := ⟨none, none⟩

def sampleAccounts : Accounting where
  executions := []
  cancelled := []
  ledger := { appliedFills := [], row := none, folds := [] }
  backfills := fun _ => .idle
  processed := []

theorem sampleAccounts_fresh : sampleAccounts.Fresh := ⟨rfl, rfl, rfl, rfl, fun _ => rfl, rfl⟩

/-- A first order is bought and reported; a second is bought in two trades, and no report of it
arrives before the stream is back. -/
def sampleMissed : List AccountingStep :=
  [.trade (sampleExecution 1 1 true), .deliver 0 sampleFilters,
    .trade (sampleExecution 2 2 false), .trade (sampleExecution 3 2 true),
    .beginBackfill 0, .fetch 0, .adoptNext 0 sampleFilters]

/-- The stream comes back between the two trades of the second order, and the report of the second
trade arrives. -/
def sampleStraddled : List AccountingStep :=
  [.trade (sampleExecution 1 1 true), .deliver 0 sampleFilters,
    .trade (sampleExecution 2 2 false), .beginBackfill 0, .fetch 0, .adoptNext 0 sampleFilters,
    .trade (sampleExecution 3 2 true), .deliver 2 sampleFilters]

/-- The report of one order is lost, that of a later one arrives, and the stream comes back. -/
def sampleOvertaken : List AccountingStep :=
  [.trade (sampleExecution 1 1 true), .deliver 0 sampleFilters,
    .trade (sampleExecution 2 2 true), .trade (sampleExecution 3 3 true),
    .deliver 2 sampleFilters, .beginBackfill 0, .fetch 0]

/-- A backfill after the second order was filled folds it whole, and once. -/
theorem missed_order_counted_once :
    ∃ s, Reach Accounting.step Accounting.Orderly sampleAccounts s ∧ 2 ∈ s.filledOrders ∧
      2 ∈ s.processed ∧ executedQty 2 s.trades = 2 ∧ s.CountsOnce 2 := by
  obtain ⟨s, hrun, hshown⟩ := Option.map_eq_some_iff.mp
    (by decide +kernel : (run Accounting.step (fun s label => decide (s.Orderly label))
      sampleAccounts sampleMissed).map (fun s => (s.filledOrders, s.processed,
        executedQty 2 s.trades)) = some ([1, 2], [1, 1, 2], 2))
  simp only [Prod.mk.injEq] at hshown
  obtain ⟨hfilled, hprocessed, hexecuted⟩ := hshown
  have hreach : Reach Accounting.step Accounting.Orderly sampleAccounts s :=
    reach_of_run (fun _ _ hcheck => of_decide_eq_true hcheck) hrun
  exact ⟨s, hreach, by simp [hfilled], by simp [hprocessed], hexecuted,
    fills_counted_once sampleAccounts s 2 sampleAccounts_fresh hreach⟩

/-- An order that is backfilled while it is half executed is folded again, in full, by its last
report; and an order overtaken by a later one is never folded. -/
theorem straddling_orders_miscounted :
    (∃ s, Reach Accounting.step (fun _ _ => True) sampleAccounts s ∧
      executedQty 2 s.trades = 2 ∧ s.foldedQty 2 = 3) ∧
    ∃ s, Reach Accounting.step (fun _ _ => True) sampleAccounts s ∧ 2 ∈ s.filledOrders ∧
      2 ∈ s.processed ∧ executedQty 2 s.trades = 1 ∧ s.foldedQty 2 = 0 := by
  obtain ⟨straddled, hstraddled, hfolded⟩ := Option.map_eq_some_iff.mp
    (by decide +kernel : (run Accounting.step (fun _ _ => true) sampleAccounts sampleStraddled).map
      (fun s => (executedQty 2 s.trades, s.foldedQty 2)) = some (2, 3))
  obtain ⟨overtaken, hovertaken, hmissed⟩ := Option.map_eq_some_iff.mp
    (by decide +kernel : (run Accounting.step (fun _ _ => true) sampleAccounts sampleOvertaken).map
      (fun s => (s.filledOrders, s.processed, executedQty 2 s.trades, s.foldedQty 2)) =
        some ([1, 2, 3], [1, 3, 1, 2, 3], 1, 0))
  simp only [Prod.mk.injEq] at hfolded hmissed
  constructor
  · exact ⟨straddled, reach_of_run (fun _ _ _ => trivial) hstraddled, hfolded⟩
  · obtain ⟨hfilled, hprocessed, hcounts⟩ := hmissed
    exact ⟨overtaken, reach_of_run (fun _ _ _ => trivial) hovertaken, by simp [hfilled],
      by simp [hprocessed], hcounts⟩

end Accounting

end TradingBot.Worker
