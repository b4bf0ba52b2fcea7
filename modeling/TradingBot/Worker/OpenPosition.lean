import TradingBot.Lib.CostPool
import TradingBot.Lib.FlooredSum
import TradingBot.Lib.InsertionMap
import TradingBot.Worker.FillReplay

/-!
# The open position a fill history leaves

The cost basis of a position the worker never saw bought is rebuilt from the
account's fills by an average-cost walk. It stands beside the adopter, which
folds the same fills one at a time as they come in. Both take the base coin a
purchase paid as its fee off what was bought; only the walk does so for a sale,
and only the adopter disbelieves a fee as large as the purchase. Numbers are
exact, and a fee is the number its text states.
-/

namespace TradingBot.Worker

open Decimal TrailingTrade

/-! ### The walk -/

/-- A fill of the account, one whole order: a positive quantity at a positive price. -/
structure MyTrade where
  id : ℤ
  time : ℤ
  isBuyer : Bool
  qty : ℚ
  quoteQty : ℚ
  commission : ℚ
  commissionAsset : String
  qty_pos : 0 < qty
  quoteQty_pos : 0 < quoteQty

def baseAssetCommission (fill : MyTrade) (baseAsset : String) : ℚ :=
  if fill.commissionAsset ≠ baseAsset then 0
  else if 0 < fill.commission then fill.commission
  else 0

/-- Oldest first, and by id where the times agree. -/
def MyTrade.sortsBefore (a b : MyTrade) : Prop := a.time < b.time ∨ a.time = b.time ∧ a.id ≤ b.id

instance (a b : MyTrade) : Decidable (a.sortsBefore b) :=
  inferInstanceAs (Decidable (_ ∨ _))

instance : Std.Total MyTrade.sortsBefore where
  total a b := by
    unfold MyTrade.sortsBefore
    omega

instance : IsTrans MyTrade MyTrade.sortsBefore where
  trans a b c hab hbc := by
    unfold MyTrade.sortsBefore at *
    omega

/-- What the walk carries from fill to fill. -/
structure OpenWalk where
  openQty : ℚ
  openCost : ℚ

def OpenWalk.start : OpenWalk := ⟨0, 0⟩

def OpenWalk.add (baseAsset : String) (walk : OpenWalk) (fill : MyTrade) : OpenWalk :=
  let fee := baseAssetCommission fill baseAsset
  if fill.isBuyer then ⟨walk.openQty + (fill.qty - fee), walk.openCost + fill.quoteQty⟩
  else
    let sold := fill.qty + fee
    { openQty := max (walk.openQty - sold) 0
      openCost :=
        if 0 < walk.openQty then walk.openCost * max (walk.openQty - sold) 0 / walk.openQty
        else walk.openCost }

structure OpenPosition where
  quantity : ℚ
  avgEntryPrice : ℚ
deriving DecidableEq

def OpenWalk.position (walk : OpenWalk) (walletCap : Option ℚ) : Option OpenPosition :=
  if walk.openQty ≤ 0 then none
  else
    let quantity :=
      match walletCap with
      | some walletCap => if walletCap < walk.openQty then walletCap else walk.openQty
      | none => walk.openQty
    if quantity ≤ 0 then none else some ⟨quantity, walk.openCost / walk.openQty⟩

def openPositionFromFills (fills : List MyTrade) (baseAsset : String) (walletCap : Option ℚ) :
    Option OpenPosition :=
  ((fills.insertionSort MyTrade.sortsBefore).foldl (OpenWalk.add baseAsset) .start).position
    walletCap

/-! ### The adopter -/

/-- The fees of a report by asset, unless one of them is negative or has no asset. -/
def parseCommissions (commissions : List (String × ℚ)) : Option (List (String × ℚ)) :=
  if commissions.any fun entry => entry.1.isEmpty || decide (entry.2 < 0) then none
  else if commissions.isEmpty then none
  else some commissions

/-- The fee in the base asset, where the fill's fee can be told. -/
def MyTrade.baseCommission (fill : MyTrade) (baseAsset : String) : Option ℚ :=
  if baseAsset.isEmpty then none
  else
    (parseCommissions [(fill.commissionAsset, fill.commission)]).bind (InsertionMap.get baseAsset)

/-- The filled order's report. -/
def MyTrade.report (fill : MyTrade) : FillEvent where
  orderId := 1
  tradeId := 1
  orderStatus := "FILLED"
  side := if fill.isBuyer then .buy else .sell
  cumQty := fill.qty
  cumQuoteQty := fill.quoteQty

/-- What the adopter folds: a purchase net of its fee, a sale as it is. -/
def MyTrade.event (fill : MyTrade) (baseAsset : String) : FillEvent :=
  credited fill.report (fill.baseCommission baseAsset)

/-- The ledger row after the fills were adopted one at a time, without the exchange's filters. -/
def adoptHistory (baseAsset : String) (fills : List MyTrade) : Except String (Option AvgEntryRow) :=
  fills.foldlM (fun row fill => resolveRow row (fill.event baseAsset) true ⟨none, none⟩) none

/-! ### What the two have in common -/

/-- The walk and the ledger say the same: nothing is open, or
the same quantity at the same price. -/
def SameBasis (position : Option OpenPosition) (row : Except String (Option AvgEntryRow)) : Prop :=
  row = .ok (position.map fun p => ⟨num p.avgEntryPrice, num p.quantity⟩)

/-- What a fill adds to the ledger's quantity. -/
def MyTrade.credit (fill : MyTrade) (baseAsset : String) : ℚ :=
  if fill.isBuyer then (fill.event baseAsset).cumQty else -fill.qty

/-- What a fill adds to the wallet, its fee included. -/
def MyTrade.receipt (fill : MyTrade) (baseAsset : String) : ℚ :=
  if fill.isBuyer then fill.qty - baseAssetCommission fill baseAsset
  else -(fill.qty + baseAssetCommission fill baseAsset)

/-- What the ledger holds after some fills. -/
def ledgerBalance (baseAsset : String) (fills : List MyTrade) : ℚ :=
  (fills.map (·.credit baseAsset)).sum

/-- Fills in the order of their times and ids. -/
def TimeOrdered (fills : List MyTrade) : Prop :=
  fills.Pairwise fun a b => a.time < b.time ∨ a.time = b.time ∧ a.id < b.id

/-- No sale is of more than is held when it comes. -/
def SalesCovered (baseAsset : String) (fills : List MyTrade) : Prop :=
  ∀ before sale after, fills = before ++ sale :: after → sale.isBuyer = false →
    sale.qty ≤ ledgerBalance baseAsset before

/-- A fee in the base asset that the adopter does not take off: a sale's, or a purchase's that
leaves nothing of it. -/
def Unnetted (baseAsset : String) (fill : MyTrade) : Prop :=
  0 < baseAssetCommission fill baseAsset ∧
    (fill.isBuyer = true → baseAsset.isEmpty = true ∨ fill.qty ≤ baseAssetCommission fill baseAsset)

/-- Fills that leave coins in the wallet: those since the start, or since some sale, received more
than they gave. -/
def InWallet (baseAsset : String) (fills : List MyTrade) : Prop :=
  ∃ earlier run, fills = earlier ++ run ∧ (∀ last ∈ earlier.getLast?, last.isBuyer = false) ∧
    0 < (run.map (·.receipt baseAsset)).sum

/-- Fills after which the two start over: there are none, or all that was bought is sold, and the
wallet did hold something of it after the last purchase. -/
def SoldOut (baseAsset : String) (fills : List MyTrade) : Prop :=
  fills = [] ∨ ledgerBalance baseAsset fills = 0 ∧
    ∃ before buy sells, fills = before ++ buy :: sells ∧ buy.isBuyer = true ∧
      (∀ sale ∈ sells, sale.isBuyer = false) ∧ InWallet baseAsset (before ++ [buy])

/-! ### One fill -/

section Fill

variable {baseAsset : String} {fill : MyTrade}

theorem baseAssetCommission_nonneg (fill : MyTrade) (baseAsset : String) :
    0 ≤ baseAssetCommission fill baseAsset := by
  unfold baseAssetCommission
  split_ifs with _ hpos
  · exact le_rfl
  · exact hpos.le
  · exact le_rfl

/-- What the adopter credits of a purchase, by the fee the walk sees. -/
theorem MyTrade.credit_buy (hbuyer : fill.isBuyer = true) :
    fill.credit baseAsset =
      if baseAsset.isEmpty = false ∧ baseAssetCommission fill baseAsset < fill.qty then
        fill.qty - baseAssetCommission fill baseAsset
      else fill.qty := by
  have hcredit : fill.credit baseAsset =
      netBuyQuantity fill.qty (fill.baseCommission baseAsset) := by
    simp [MyTrade.credit, MyTrade.event, credited, MyTrade.report, hbuyer]
  rw [hcredit, MyTrade.baseCommission]
  cases hbase : baseAsset.isEmpty with
  | true => simp [netBuyQuantity]
  | false =>
      rcases eq_or_ne fill.commissionAsset baseAsset with hasset | hasset
      · have hnamed : baseAsset ≠ "" := by simpa using hbase
        rcases lt_trichotomy fill.commission 0 with hneg | hzero | hpos
        · simp [parseCommissions, hneg, netBuyQuantity, baseAssetCommission, hneg.not_gt]
        · simp [parseCommissions, hzero, hnamed, netBuyQuantity, baseAssetCommission, hasset,
            InsertionMap.get]
        · by_cases hleft : fill.commission < fill.qty
          · simp [parseCommissions, hpos.not_gt, hnamed, netBuyQuantity,
              baseAssetCommission, hasset,
              InsertionMap.get, hpos, hpos.not_ge, hleft, hleft.not_ge]
          · simp [parseCommissions, hpos.not_gt, hnamed, netBuyQuantity,
              baseAssetCommission, hasset,
              InsertionMap.get, hpos, hleft, not_lt.mp hleft]
      · have hnone : ∀ commissions, parseCommissions [(fill.commissionAsset, fill.commission)] =
            some commissions → InsertionMap.get baseAsset commissions = none := by
          intro commissions hparsed
          unfold parseCommissions at hparsed
          split_ifs at hparsed
          cases hparsed
          simp [InsertionMap.get, hasset]
        cases hparsed : parseCommissions [(fill.commissionAsset, fill.commission)] with
        | none => simp [netBuyQuantity, baseAssetCommission, hasset]
        | some commissions =>
            simp [hnone commissions hparsed, netBuyQuantity, baseAssetCommission, hasset]

/-- A fee the adopter takes off a purchase is taken off by both. -/
theorem MyTrade.credit_netted (hbuyer : fill.isBuyer = true)
    (hnetted : ¬ Unnetted baseAsset fill) :
    fill.credit baseAsset = fill.qty - baseAssetCommission fill baseAsset := by
  rw [MyTrade.credit_buy hbuyer]
  split
  · rfl
  · next hnot =>
      have hzero : baseAssetCommission fill baseAsset = 0 := by
        by_contra hfee
        refine hnetted ⟨lt_of_le_of_ne (baseAssetCommission_nonneg _ _) (Ne.symm hfee), fun _ => ?_⟩
        rw [not_and_or, Bool.not_eq_false, not_lt] at hnot
        exact hnot
      rw [hzero, sub_zero]

theorem MyTrade.credit_unnetted (hbuyer : fill.isBuyer = true)
    (hunnetted : Unnetted baseAsset fill) :
    fill.credit baseAsset = fill.qty := by
  rw [MyTrade.credit_buy hbuyer, if_neg]
  rintro ⟨hbase, hleft⟩
  rcases hunnetted.2 hbuyer with hempty | hle
  · rw [hempty] at hbase
    cases hbase
  · exact hle.not_gt hleft

theorem MyTrade.credit_sell (hseller : fill.isBuyer = false) :
    fill.credit baseAsset = -fill.qty := by
  simp [MyTrade.credit, hseller]

theorem MyTrade.credit_pos (hbuyer : fill.isBuyer = true) : 0 < fill.credit baseAsset := by
  rw [MyTrade.credit_buy hbuyer]
  split
  · next hleft => exact sub_pos.mpr hleft.2
  · exact fill.qty_pos

/-- The wallet never receives more than the ledger is credited. -/
theorem MyTrade.receipt_le_credit (fill : MyTrade) (baseAsset : String) :
    fill.receipt baseAsset ≤ fill.credit baseAsset := by
  have hfee := baseAssetCommission_nonneg fill baseAsset
  cases hside : fill.isBuyer with
  | true =>
      rw [MyTrade.receipt, if_pos hside, MyTrade.credit_buy hside]
      split
      · exact le_rfl
      · linarith
  | false =>
      rw [MyTrade.receipt, if_neg (by simp [hside]), MyTrade.credit_sell hside]
      linarith

end Fill

/-! ### The ledger as a pool -/

section Pool

variable {baseAsset : String} {fill : MyTrade} {fills : List MyTrade} {pool : CostPool ℚ}

/-- The ledger after a fill, as an average-cost pool. -/
def poolAfter (baseAsset : String) (pool : CostPool ℚ) (fill : MyTrade) : CostPool ℚ :=
  if fill.isBuyer then
    pool.buy ⟨fill.quoteQty / fill.credit baseAsset, fill.credit baseAsset⟩
  else pool.sell fill.qty

def poolOf (baseAsset : String) (fills : List MyTrade) : CostPool ℚ :=
  fills.foldl (poolAfter baseAsset) CostPool.empty

/-- The row of a pool; a pool without quantity has none. -/
def rowOf (pool : CostPool ℚ) : Option AvgEntryRow :=
  if pool.quantity = 0 then none else some ⟨num pool.average, num pool.quantity⟩

/-- A pool that holds something at a cost, or nothing. -/
def Solvent (pool : CostPool ℚ) : Prop :=
  0 < pool.quantity ∧ 0 < pool.cost ∨ pool = CostPool.empty

theorem Solvent.quantity_nonneg (h : Solvent pool) : 0 ≤ pool.quantity := by
  rcases h with ⟨hpos, -⟩ | rfl
  · exact hpos.le
  · exact le_rfl

theorem poolOf_concat (fills : List MyTrade) (fill : MyTrade) :
    poolOf baseAsset (fills ++ [fill]) = poolAfter baseAsset (poolOf baseAsset fills) fill := by
  rw [poolOf, List.foldl_append]
  rfl

theorem ledgerBalance_concat (fills : List MyTrade) (fill : MyTrade) :
    ledgerBalance baseAsset (fills ++ [fill]) =
      ledgerBalance baseAsset fills + fill.credit baseAsset := by
  simp [ledgerBalance]

theorem poolAfter_quantity (pool : CostPool ℚ) (fill : MyTrade) :
    (poolAfter baseAsset pool fill).quantity = pool.quantity + fill.credit baseAsset := by
  unfold poolAfter
  split
  · rfl
  · next hseller =>
      rw [MyTrade.credit_sell (by simpa using hseller), ← sub_eq_add_neg]
      rfl

theorem poolAfter_cost_buy (hbuyer : fill.isBuyer = true) :
    (poolAfter baseAsset pool fill).cost = pool.cost + fill.quoteQty := by
  rw [poolAfter, if_pos hbuyer]
  simp [CostPool.buy, CostPool.Lot.paid, div_mul_cancel₀ _ (MyTrade.credit_pos hbuyer).ne']

theorem poolAfter_cost_sell (hseller : fill.isBuyer = false) (hheld : pool.quantity ≠ 0) :
    (poolAfter baseAsset pool fill).cost =
      pool.cost * (pool.quantity - fill.qty) / pool.quantity := by
  rw [poolAfter, if_neg (by simp [hseller])]
  simp only [CostPool.sell, CostPool.average]
  field_simp

theorem poolOf_quantity (fills : List MyTrade) :
    (poolOf baseAsset fills).quantity = ledgerBalance baseAsset fills := by
  induction fills using List.reverseRecOn with
  | nil => rfl
  | append_singleton fills fill ih =>
      rw [poolOf_concat, poolAfter_quantity, ih, ledgerBalance_concat]

theorem SalesCovered.init (h : SalesCovered baseAsset (fills ++ [fill])) :
    SalesCovered baseAsset fills := by
  intro before sale after hsplit hseller
  exact h before sale (after ++ [fill]) (by rw [hsplit]; simp) hseller

theorem SalesCovered.last (h : SalesCovered baseAsset (fills ++ [fill]))
    (hseller : fill.isBuyer = false) : fill.qty ≤ (poolOf baseAsset fills).quantity := by
  rw [poolOf_quantity]
  exact h fills fill [] rfl hseller

theorem Solvent.poolAfter (h : Solvent pool)
    (hcovered : fill.isBuyer = false → fill.qty ≤ pool.quantity) :
    Solvent (poolAfter baseAsset pool fill) := by
  cases hside : fill.isBuyer with
  | true =>
      left
      rw [poolAfter_quantity, poolAfter_cost_buy hside]
      have hcredit := @MyTrade.credit_pos baseAsset fill hside
      have hquote := fill.quoteQty_pos
      rcases h with ⟨hquantity, hcost⟩ | rfl
      · exact ⟨add_pos hquantity hcredit, add_pos hcost hquote⟩
      · simpa [CostPool.empty] using And.intro hcredit hquote
  | false =>
      have hle := hcovered hside
      have hqty := fill.qty_pos
      obtain ⟨hquantity, hcost⟩ | rfl := h
      · rcases hle.eq_or_lt with hall | hsome
        · right
          rw [Worker.poolAfter, if_neg (by simp [hside]), hall]
          exact CostPool.sell_all hquantity.ne'
        · left
          rw [poolAfter_quantity, MyTrade.credit_sell hside,
            poolAfter_cost_sell hside hquantity.ne']
          have hleft : 0 < pool.quantity - fill.qty := sub_pos.mpr hsome
          exact ⟨by linarith, div_pos (mul_pos hcost hleft) hquantity⟩
      · exact absurd hle (not_le.mpr hqty)

theorem solvent_poolOf (hcovered : SalesCovered baseAsset fills) :
    Solvent (poolOf baseAsset fills) := by
  induction fills using List.reverseRecOn with
  | nil => exact .inr rfl
  | append_singleton fills fill ih =>
      rw [poolOf_concat]
      exact (ih hcovered.init).poolAfter hcovered.last

/-- Folding a fill into the row of a pool gives the row of the next pool. -/
theorem resolveRow_rowOf (h : Solvent pool)
    (hcovered : fill.isBuyer = false → fill.qty ≤ pool.quantity) :
    resolveRow (rowOf pool) (fill.event baseAsset) true ⟨none, none⟩ =
      .ok (rowOf (poolAfter baseAsset pool fill)) := by
  have hprior : rowOf pool = none ∧ pool = CostPool.empty ∨
      rowOf pool = some ⟨num pool.average, num pool.quantity⟩ ∧ 0 < pool.quantity := by
    rcases h with ⟨hquantity, -⟩ | rfl
    · exact .inr ⟨if_neg hquantity.ne', hquantity⟩
    · exact .inl ⟨rfl, rfl⟩
  cases hside : fill.isBuyer with
  | true =>
      have hcredit := @MyTrade.credit_pos baseAsset fill hside
      have hevent : (fill.event baseAsset).side = .buy ∧
          (fill.event baseAsset).cumQty = fill.credit baseAsset ∧
          (fill.event baseAsset).cumQuoteQty = fill.quoteQty := by
        simp [MyTrade.credit, MyTrade.event, credited, MyTrade.report, hside]
      obtain ⟨hbuy, hcumQty, hcumQuoteQty⟩ := hevent
      rw [resolveRow, hbuy]
      dsimp only
      rw [resolveBuy, if_pos rfl, hcumQty, hcumQuoteQty, div_num hcredit.ne', poolAfter,
        if_pos hside]
      rcases hprior with ⟨hrow, rfl⟩ | ⟨hrow, hquantity⟩
      · have hreads : Reads none (num 0) none := ⟨rfl, rfl⟩
        rw [hrow, Option.map_none]
        dsimp only
        rw [resolveFill_buy_fresh hreads]
        have hheld : (CostPool.empty.buy
            ⟨fill.quoteQty / fill.credit baseAsset, fill.credit baseAsset⟩).quantity ≠ 0 := by
          simpa [CostPool.empty, CostPool.buy] using hcredit.ne'
        rw [rowOf, if_neg hheld]
        simp [rowAfter, amount, CostPool.empty, CostPool.buy, CostPool.average, CostPool.Lot.paid,
          hcredit.ne', bind, Except.bind, pure, Except.pure]
      · rw [hrow, Option.map_some]
        dsimp only
        rw [AvgEntryRow.view, resolveFill_buy_add (reads_printed _ _) hquantity hcredit]
        have hheld : (pool.buy
            ⟨fill.quoteQty / fill.credit baseAsset, fill.credit baseAsset⟩).quantity ≠ 0 :=
          (add_pos hquantity hcredit).ne'
        rw [rowOf, if_neg hheld]
        simp [rowAfter, amount, CostPool.buy, CostPool.average, CostPool.Lot.paid,
          hquantity.ne', bind, Except.bind, pure, Except.pure]
  | false =>
      have hle := hcovered hside
      have hevent : fill.event baseAsset = fill.report := by
        simp [MyTrade.event, credited, MyTrade.report, hside]
      have hsell : fill.report.side = .sell := by simp [MyTrade.report, hside]
      rcases hprior with ⟨-, rfl⟩ | ⟨hrow, hquantity⟩
      · exact absurd hle (not_le.mpr fill.qty_pos)
      · rw [hevent, resolveRow, hsell, hrow]
        dsimp only
        rw [resolveSell]
        dsimp only
        obtain ⟨pnl, hpnl⟩ := realizedPnlOnSell_view ⟨num pool.average, num pool.quantity⟩
          (num fill.report.cumQty) (num fill.report.cumQuoteQty)
        have hvwap : (if 0 < fill.report.cumQty then
              (num fill.report.cumQuoteQty).div (num fill.report.cumQty) else num 0) =
            num (fill.quoteQty / fill.qty) := by
          rw [if_pos (show 0 < fill.report.cumQty from fill.qty_pos)]
          exact div_num fill.qty_pos.ne'
        rw [if_pos rfl, hpnl, hvwap, poolAfter, if_neg (by simp [hside])]
        dsimp only [bind, Except.bind, AvgEntryRow.view]
        rw [resolveFill_sell (reads_printed _ _)]
        rcases hle.eq_or_lt with hall | hsome
        · have hnone : pool.quantity - fill.report.cumQty ≤ 0 := (sub_eq_zero.mpr hall.symm).le
          rw [if_pos hnone, hall, CostPool.sell_all hquantity.ne']
          rfl
        · have hleft : 0 < pool.quantity - fill.qty := sub_pos.mpr hsome
          have hsome : ¬ pool.quantity - fill.report.cumQty ≤ 0 := not_le.mpr hleft
          rw [if_neg hsome, rowOf, if_neg (show (pool.sell fill.qty).quantity ≠ 0 from hleft.ne'),
            CostPool.average_sell hquantity.ne' hleft.ne']
          rfl

theorem adoptHistory_eq (hcovered : SalesCovered baseAsset fills) :
    adoptHistory baseAsset fills = .ok (rowOf (poolOf baseAsset fills)) := by
  induction fills using List.reverseRecOn with
  | nil => rfl
  | append_singleton fills fill ih =>
      rw [adoptHistory, List.foldlM_append, ← adoptHistory, ih hcovered.init, poolOf_concat]
      exact (bind_pure _).trans
        (resolveRow_rowOf (solvent_poolOf hcovered.init) hcovered.last)

end Pool

/-! ### The walk beside the ledger -/

section Walk

variable {baseAsset : String} {fill : MyTrade} {fills : List MyTrade} {walk : OpenWalk}
  {pool : CostPool ℚ}

def walkOf (baseAsset : String) (fills : List MyTrade) : OpenWalk :=
  fills.foldl (OpenWalk.add baseAsset) .start

theorem walkOf_concat (fills : List MyTrade) (fill : MyTrade) :
    walkOf baseAsset (fills ++ [fill]) = (walkOf baseAsset fills).add baseAsset fill := by
  rw [walkOf, List.foldl_append]
  rfl

theorem OpenWalk.add_buy (hbuyer : fill.isBuyer = true) :
    walk.add baseAsset fill =
      ⟨walk.openQty + (fill.qty - baseAssetCommission fill baseAsset),
        walk.openCost + fill.quoteQty⟩ :=
  if_pos hbuyer

theorem OpenWalk.add_sell_qty (hseller : fill.isBuyer = false) :
    (walk.add baseAsset fill).openQty =
      max (walk.openQty - (fill.qty + baseAssetCommission fill baseAsset)) 0 := by
  simp [OpenWalk.add, hseller]

theorem OpenWalk.add_sell_cost (hseller : fill.isBuyer = false) :
    (walk.add baseAsset fill).openCost =
      if 0 < walk.openQty then walk.openCost * (walk.add baseAsset fill).openQty / walk.openQty
      else walk.openCost := by
  simp [OpenWalk.add, hseller]

/-- The walk's quantity is a sum of receipts that sales do not let fall below zero. -/
theorem walkOf_openQty (fills : List MyTrade) :
    (walkOf baseAsset fills).openQty =
      FlooredSum.total (fills.map fun fill => ⟨fill.receipt baseAsset, !fill.isBuyer⟩) := by
  induction fills using List.reverseRecOn with
  | nil => rfl
  | append_singleton fills fill ih =>
      rw [walkOf_concat, List.map_append, List.map_singleton, FlooredSum.total_concat, ← ih,
        FlooredSum.add]
      cases hside : fill.isBuyer with
      | true => simp [OpenWalk.add_buy hside, MyTrade.receipt, hside]
      | false =>
          simp [OpenWalk.add_sell_qty hside, MyTrade.receipt, hside, sub_eq_add_neg]

theorem walkOf_openQty_pos : 0 < (walkOf baseAsset fills).openQty ↔ InWallet baseAsset fills := by
  rw [walkOf_openQty, FlooredSum.total_pos_iff]
  constructor
  · rintro ⟨earlier, run, hsplit, hfresh, hpos⟩
    obtain ⟨first, last, rfl, rfl, rfl⟩ := List.map_eq_append_iff.mp hsplit
    refine ⟨first, last, rfl, ?_, by simpa [FlooredSum.plain, Function.comp_def] using hpos⟩
    intro sale hsale
    simpa using hfresh ⟨sale.receipt baseAsset, !sale.isBuyer⟩ (by
      rw [List.getLast?_map]
      exact Option.mem_map_of_mem _ hsale)
  · rintro ⟨earlier, run, rfl, hfresh, hpos⟩
    refine ⟨_, _, List.map_append, ?_, by simpa [FlooredSum.plain, Function.comp_def] using hpos⟩
    intro step hstep
    rw [List.getLast?_map] at hstep
    obtain ⟨sale, hsale, rfl⟩ := Option.mem_map.mp hstep
    simp [hfresh sale hsale]

theorem openQty_le_quantity (hcovered : SalesCovered baseAsset fills) :
    (walkOf baseAsset fills).openQty ≤ (poolOf baseAsset fills).quantity := by
  induction fills using List.reverseRecOn with
  | nil => exact le_rfl
  | append_singleton fills fill ih =>
      have hbefore := ih hcovered.init
      have hreceipt := fill.receipt_le_credit baseAsset
      rw [walkOf_concat, poolOf_concat, poolAfter_quantity]
      cases hside : fill.isBuyer with
      | true =>
          rw [OpenWalk.add_buy hside]
          rw [MyTrade.receipt, if_pos hside] at hreceipt
          exact add_le_add hbefore hreceipt
      | false =>
          have hleft := hcovered.last hside
          have hfee := baseAssetCommission_nonneg fill baseAsset
          rw [OpenWalk.add_sell_qty hside, MyTrade.credit_sell hside]
          exact max_le (by linarith) (by linarith)

theorem openCost_nonneg (fills : List MyTrade) : 0 ≤ (walkOf baseAsset fills).openCost := by
  induction fills using List.reverseRecOn with
  | nil => exact le_rfl
  | append_singleton fills fill ih =>
      rw [walkOf_concat]
      cases hside : fill.isBuyer with
      | true =>
          rw [OpenWalk.add_buy hside]
          exact add_nonneg ih fill.quoteQty_pos.le
      | false =>
          rw [OpenWalk.add_sell_cost hside]
          split
          · next hopen =>
              rw [OpenWalk.add_sell_qty hside]
              exact div_nonneg (mul_nonneg ih (le_max_right _ _)) hopen.le
          · exact ih

/-- The walk and the ledger hold the same quantity at the same cost. -/
def InStep (walk : OpenWalk) (pool : CostPool ℚ) : Prop :=
  walk.openQty = pool.quantity ∧ walk.openCost = pool.cost

/-- A fill whose fee the adopter takes off keeps the two in step. -/
theorem InStep.add (h : InStep walk pool) (hsolvent : Solvent pool)
    (hcovered : fill.isBuyer = false → fill.qty ≤ pool.quantity)
    (hnetted : ¬ Unnetted baseAsset fill) :
    InStep (walk.add baseAsset fill) (poolAfter baseAsset pool fill) := by
  obtain ⟨hquantity, hcost⟩ := h
  cases hside : fill.isBuyer with
  | true =>
      rw [InStep, OpenWalk.add_buy hside, poolAfter_quantity, poolAfter_cost_buy hside,
        MyTrade.credit_netted hside hnetted, hquantity, hcost]
      exact ⟨rfl, rfl⟩
  | false =>
      have hfee : baseAssetCommission fill baseAsset = 0 := by
        by_contra hfee
        refine hnetted ⟨lt_of_le_of_ne (baseAssetCommission_nonneg _ _) (Ne.symm hfee), ?_⟩
        simp [hside]
      have hle := hcovered hside
      obtain ⟨hheld, -⟩ | rfl := hsolvent
      · have hqty : (walk.add baseAsset fill).openQty = pool.quantity - fill.qty := by
          rw [OpenWalk.add_sell_qty hside, hfee, add_zero, hquantity, max_eq_left (by linarith)]
        refine ⟨?_, ?_⟩
        · rw [hqty, poolAfter_quantity, MyTrade.credit_sell hside, sub_eq_add_neg]
        · rw [OpenWalk.add_sell_cost hside, hqty, poolAfter_cost_sell hside hheld.ne', hquantity,
            hcost, if_pos hheld]
      · exact absurd hle (not_le.mpr fill.qty_pos)

/-- Where the two are in step with something held, they were before the last fill, and its fee was
taken off. -/
theorem InStep.of_add (hafter : InStep (walk.add baseAsset fill) (poolAfter baseAsset pool fill))
    (hheld : 0 < (poolAfter baseAsset pool fill).quantity)
    (hle : walk.openQty ≤ pool.quantity) :
    InStep walk pool ∧ ¬ Unnetted baseAsset fill := by
  obtain ⟨hquantity, hcost⟩ := hafter
  have hfee := baseAssetCommission_nonneg fill baseAsset
  rw [poolAfter_quantity] at hquantity hheld
  cases hside : fill.isBuyer with
  | true =>
      rw [OpenWalk.add_buy hside] at hquantity
      have hnetted : ¬ Unnetted baseAsset fill := by
        intro hunnetted
        rw [MyTrade.credit_unnetted hside hunnetted] at hquantity
        have hpos := hunnetted.1
        dsimp only at hquantity
        linarith
      rw [MyTrade.credit_netted hside hnetted] at hquantity
      rw [poolAfter_cost_buy hside, OpenWalk.add_buy hside] at hcost
      exact ⟨⟨by simpa using hquantity, by simpa using hcost⟩, hnetted⟩
  | false =>
      rw [MyTrade.credit_sell hside] at hquantity hheld
      have hsame : walk.openQty - (fill.qty + baseAssetCommission fill baseAsset) =
          pool.quantity + -fill.qty := by
        rw [OpenWalk.add_sell_qty hside] at hquantity
        rcases max_choice (walk.openQty - (fill.qty + baseAssetCommission fill baseAsset)) 0
          with hmax | hmax
        · rw [← hquantity, hmax]
        · rw [hmax] at hquantity
          exact absurd hquantity hheld.ne
      have hzero : baseAssetCommission fill baseAsset = 0 := by linarith
      have hqty : walk.openQty = pool.quantity := by linarith
      have hopen : 0 < pool.quantity := by linarith [fill.qty_pos]
      refine ⟨⟨hqty, ?_⟩, fun hunnetted => hunnetted.1.ne' hzero⟩
      have hleft : pool.quantity - fill.qty ≠ 0 := by
        rw [sub_eq_add_neg]
        exact hheld.ne'
      rw [OpenWalk.add_sell_cost hside, hquantity, hqty, if_pos hopen,
        poolAfter_cost_sell hside hopen.ne', ← sub_eq_add_neg] at hcost
      exact mul_right_cancel₀ hleft ((div_left_inj' hopen.ne').mp hcost)

end Walk

/-! ### Where the two start over -/

section SoldOut

variable {baseAsset : String} {fill : MyTrade} {fills before sells : List MyTrade} {buy : MyTrade}

theorem exists_last_buy (fills : List MyTrade) :
    (∀ fill ∈ fills, fill.isBuyer = false) ∨
      ∃ before buy sells, fills = before ++ buy :: sells ∧ buy.isBuyer = true ∧
        ∀ sale ∈ sells, sale.isBuyer = false := by
  induction fills using List.reverseRecOn with
  | nil => exact .inl (by simp)
  | append_singleton fills fill ih =>
      cases hside : fill.isBuyer with
      | true => exact .inr ⟨fills, fill, [], rfl, hside, by simp⟩
      | false =>
          rcases ih with hsells | ⟨before, buy, sells, rfl, hbuyer, hsells⟩
          · exact .inl (List.forall_mem_append.mpr ⟨hsells, List.forall_mem_singleton.mpr hside⟩)
          · exact .inr ⟨before, buy, sells ++ [fill], by simp, hbuyer,
              List.forall_mem_append.mpr ⟨hsells, List.forall_mem_singleton.mpr hside⟩⟩

/-- After a purchase, sales leave the walk a cost as long as it has something open; where it had
nothing open to begin with, the cost stays. -/
theorem openCost_after_sells (hsells : ∀ sale ∈ sells, sale.isBuyer = false) {walk : OpenWalk}
    (hcost : 0 < walk.openCost) :
    let after := sells.foldl (OpenWalk.add baseAsset) walk
    (0 < walk.openQty →
      0 < after.openCost ∧ 0 < after.openQty ∨ after.openCost = 0 ∧ after.openQty = 0) ∧
    (walk.openQty ≤ 0 → 0 < after.openCost ∧ after.openQty ≤ 0) := by
  induction sells using List.reverseRecOn with
  | nil => exact ⟨fun hopen => .inl ⟨hcost, hopen⟩, fun hclosed => ⟨hcost, hclosed⟩⟩
  | append_singleton sells sale ih =>
      rw [List.forall_mem_append, List.forall_mem_singleton] at hsells
      obtain ⟨hopened, hclosed⟩ := ih hsells.1
      have hseller := hsells.2
      have hfee := baseAssetCommission_nonneg sale baseAsset
      have hqty := sale.qty_pos
      rw [List.foldl_append, List.foldl_cons, List.foldl_nil]
      dsimp only at hopened hclosed ⊢
      generalize sells.foldl (OpenWalk.add baseAsset) walk = now at hopened hclosed
      have hnext := @OpenWalk.add_sell_qty baseAsset sale now hseller
      rw [OpenWalk.add_sell_cost hseller]
      refine ⟨fun hopen => ?_, fun hnone => ?_⟩
      · rcases hopened hopen with ⟨hcost, hopen⟩ | ⟨hcost, hempty⟩
        · rw [if_pos hopen]
          have hnonneg : 0 ≤ (now.add baseAsset sale).openQty := hnext ▸ le_max_right _ _
          rcases hnonneg.eq_or_lt with hzero | hpos
          · right
            rw [← hzero]
            simp
          · exact .inl ⟨div_pos (mul_pos hcost hpos) hopen, hpos⟩
        · right
          rw [if_neg hempty.not_gt, hnext, hempty]
          exact ⟨hcost, max_eq_right (by linarith)⟩
      · obtain ⟨hcost, hempty⟩ := hclosed hnone
        rw [if_neg hempty.not_gt, hnext]
        exact ⟨hcost, (max_eq_right (by linarith)).le⟩

/-- The ledger is empty and the walk without cost exactly where the two start over. -/
theorem soldOut_iff (hcovered : SalesCovered baseAsset fills) :
    SoldOut baseAsset fills ↔
      (poolOf baseAsset fills).quantity = 0 ∧ (walkOf baseAsset fills).openCost = 0 := by
  have hle := openQty_le_quantity hcovered
  rw [poolOf_quantity] at hle ⊢
  have hcost : ∀ {before buy sells}, fills = before ++ buy :: sells → buy.isBuyer = true →
      (∀ sale ∈ sells, sale.isBuyer = false) → ledgerBalance baseAsset fills = 0 →
      ((walkOf baseAsset fills).openCost = 0 ↔ InWallet baseAsset (before ++ [buy])) := by
    intro before buy sells hsplit hbuyer hsells hbalance
    have hbought : 0 < (walkOf baseAsset (before ++ [buy])).openCost := by
      rw [walkOf_concat, OpenWalk.add_buy hbuyer]
      exact add_pos_of_nonneg_of_pos (openCost_nonneg before) buy.quoteQty_pos
    have hwalk : walkOf baseAsset fills =
        sells.foldl (OpenWalk.add baseAsset) (walkOf baseAsset (before ++ [buy])) := by
      rw [hsplit, walkOf, walkOf, List.foldl_append, List.foldl_append]
      rfl
    obtain ⟨hopened, hclosed⟩ := @openCost_after_sells baseAsset sells hsells _ hbought
    rw [← hwalk] at hopened hclosed
    rw [← walkOf_openQty_pos]
    constructor
    · intro hzero
      by_contra hnone
      exact (hclosed (not_lt.mp hnone)).1.ne' hzero
    · intro hopen
      rcases hopened hopen with ⟨-, hpos⟩ | ⟨hzero, -⟩
      · rw [hbalance] at hle
        exact absurd hpos (not_lt.mpr hle)
      · exact hzero
  constructor
  · rintro (rfl | ⟨hbalance, before, buy, sells, hsplit, hbuyer, hsells, hwallet⟩)
    · exact ⟨rfl, rfl⟩
    · exact ⟨hbalance, (hcost hsplit hbuyer hsells hbalance).mpr hwallet⟩
  · rintro ⟨hbalance, hzero⟩
    rcases exists_last_buy fills with hsells | ⟨before, buy, sells, hsplit, hbuyer, hsells⟩
    · left
      cases hfills : fills with
      | nil => rfl
      | cons first rest =>
          -- the first sale would be of more than nothing
          have hfirst := hcovered [] first rest hfills (hsells first (by simp [hfills]))
          exact absurd hfirst (not_le.mpr first.qty_pos)
    · exact .inr ⟨hbalance, before, buy, sells, hsplit, hbuyer, hsells,
        (hcost hsplit hbuyer hsells hbalance).mp hzero⟩

end SoldOut

/-! ### Agreement -/

section Agreement

variable {baseAsset : String} {fills presented : List MyTrade}

/-- The fills split into some after which the two start over, and later ones whose fees the adopter
takes off. -/
def StartsOver (baseAsset : String) (fills : List MyTrade) : Prop :=
  ∃ settled rest, fills = settled ++ rest ∧ SoldOut baseAsset settled ∧
    ∀ fill ∈ rest, ¬ Unnetted baseAsset fill

/-- Where the two start over they are in step. -/
theorem SoldOut.inStep (hcovered : SalesCovered baseAsset fills) (h : SoldOut baseAsset fills) :
    InStep (walkOf baseAsset fills) (poolOf baseAsset fills) := by
  obtain ⟨hquantity, hcost⟩ := (soldOut_iff hcovered).mp h
  have hempty : poolOf baseAsset fills = CostPool.empty := by
    rcases solvent_poolOf hcovered with ⟨hpos, -⟩ | hempty
    · exact absurd hquantity hpos.ne'
    · exact hempty
  have hle := openQty_le_quantity hcovered
  rw [hquantity] at hle
  have hnonneg : 0 ≤ (walkOf baseAsset fills).openQty := by
    rcases List.eq_nil_or_concat' fills with rfl | ⟨front, last, rfl⟩
    · exact le_rfl
    · cases hside : last.isBuyer with
      | true =>
          -- a purchase leaves the ledger something
          rw [poolOf_concat, poolAfter_quantity] at hquantity
          have hfront := (solvent_poolOf hcovered.init).quantity_nonneg
          have hcredit := @MyTrade.credit_pos baseAsset last hside
          linarith
      | false =>
          rw [walkOf_concat, OpenWalk.add_sell_qty hside]
          exact le_max_right _ _
  rw [InStep, hempty, hcost]
  exact ⟨le_antisymm hle hnonneg, rfl⟩

/-- The two are in step exactly when they started over and no fee went unnetted since. -/
theorem inStep_iff (hcovered : SalesCovered baseAsset fills) :
    InStep (walkOf baseAsset fills) (poolOf baseAsset fills) ↔ StartsOver baseAsset fills := by
  constructor
  · intro hstep
    induction fills using List.reverseRecOn with
    | nil => exact ⟨[], [], rfl, .inl rfl, by simp⟩
    | append_singleton fills fill ih =>
        rcases solvent_poolOf hcovered with ⟨hheld, -⟩ | hempty
        · rw [walkOf_concat, poolOf_concat] at hstep
          rw [poolOf_concat] at hheld
          obtain ⟨hbefore, hnetted⟩ := hstep.of_add hheld (openQty_le_quantity hcovered.init)
          obtain ⟨settled, rest, rfl, hsettled, hrest⟩ := ih hcovered.init hbefore
          exact ⟨settled, rest ++ [fill], List.append_assoc settled rest [fill], hsettled,
            List.forall_mem_append.mpr ⟨hrest, List.forall_mem_singleton.mpr hnetted⟩⟩
        · have hcost := hstep.2
          rw [hempty] at hcost
          refine ⟨fills ++ [fill], [], (List.append_nil _).symm, ?_, by simp⟩
          exact (soldOut_iff hcovered).mpr ⟨by rw [hempty]; rfl, hcost⟩
  · rintro ⟨settled, rest, rfl, hsettled, hrest⟩
    induction rest using List.reverseRecOn with
    | nil =>
        rw [List.append_nil] at hcovered ⊢
        exact hsettled.inStep hcovered
    | append_singleton rest fill ih =>
        rw [List.forall_mem_append, List.forall_mem_singleton] at hrest
        rw [← List.append_assoc] at hcovered ⊢
        rw [walkOf_concat, poolOf_concat]
        exact (ih hcovered.init hrest.1).add (solvent_poolOf hcovered.init) hcovered.last hrest.2

/-- The answers agree where the ledger holds nothing, or the two are in step. -/
theorem sameBasis_iff (hcovered : SalesCovered baseAsset fills) :
    SameBasis ((walkOf baseAsset fills).position none) (adoptHistory baseAsset fills) ↔
      (poolOf baseAsset fills).quantity = 0 ∨
        InStep (walkOf baseAsset fills) (poolOf baseAsset fills) := by
  rw [adoptHistory_eq hcovered, SameBasis, Except.ok.injEq]
  have hle := openQty_le_quantity hcovered
  rcases solvent_poolOf hcovered with ⟨hheld, hcost⟩ | hempty
  · have hnone : (poolOf baseAsset fills).quantity ≠ 0 := hheld.ne'
    rw [rowOf, if_neg hnone, OpenWalk.position, InStep]
    by_cases hopen : (walkOf baseAsset fills).openQty ≤ 0
    · rw [if_pos hopen]
      have hbehind : (walkOf baseAsset fills).openQty ≠ (poolOf baseAsset fills).quantity :=
        (hopen.trans_lt hheld).ne
      simp [hnone, hbehind]
    · have hpos := not_le.mp hopen
      simp only [if_neg hopen, Option.map_some, Option.some.injEq, AvgEntryRow.mk.injEq, num.injEq,
        hnone, false_or, CostPool.average]
      constructor
      · rintro ⟨haverage, hquantity⟩
        rw [hquantity, div_left_inj' (hquantity ▸ hnone)] at haverage
        exact ⟨hquantity.symm, haverage.symm⟩
      · rintro ⟨hquantity, hcost⟩
        exact ⟨by rw [hquantity, hcost], hquantity.symm⟩
  · rw [hempty] at hle ⊢
    have hclosed : (walkOf baseAsset fills).openQty ≤ 0 := hle
    simp [rowOf, CostPool.empty, OpenWalk.position, hclosed]

/-- Fills of one time and id are one fill. -/
def MyTrade.ToldApart (a b : MyTrade) : Prop := a.time = b.time → a.id = b.id → a = b

instance : Std.Symm MyTrade.ToldApart :=
  ⟨fun _ _ h htime hid => (h htime.symm hid.symm).symm⟩

theorem insertionSort_presented (hordered : TimeOrdered fills) (hperm : presented.Perm fills) :
    presented.insertionSort MyTrade.sortsBefore = fills := by
  have hfills : fills.Pairwise MyTrade.sortsBefore := hordered.imp fun h => by
    unfold MyTrade.sortsBefore
    omega
  have hdistinct : ∀ a ∈ fills, ∀ b ∈ fills, a.ToldApart b := fun a ha b hb =>
    List.Pairwise.forall_of_forall (fun x _ _ _ => (rfl : x = x))
      (hordered.imp fun hbefore htime hid => absurd hbefore (by omega)) ha hb
  have hsorted := List.perm_insertionSort MyTrade.sortsBefore presented
  refine List.Perm.eq_of_pairwise ?_ (List.pairwise_insertionSort _ _) hfills (hsorted.trans hperm)
  intro a b ha hb hab hba
  refine hdistinct a ((hsorted.trans hperm).mem_iff.mp ha) b hb ?_ ?_ <;>
    unfold MyTrade.sortsBefore at hab hba <;> omega

end Agreement

/-- The position rebuilt from a history is the one the adopter's ledger holds exactly when all that
was bought is sold, or no fee has gone unnetted since the two last started over. -/
theorem open_position_matches_ledger_iff (baseAsset : String) (fills : List MyTrade)
    (hordered : TimeOrdered fills) (hcovered : SalesCovered baseAsset fills)
    (presented : List MyTrade) (hperm : presented.Perm fills) :
    SameBasis (openPositionFromFills presented baseAsset none) (adoptHistory baseAsset fills) ↔
      ledgerBalance baseAsset fills = 0 ∨ StartsOver baseAsset fills := by
  rw [openPositionFromFills, insertionSort_presented hordered hperm, ← walkOf,
    sameBasis_iff hcovered, inStep_iff hcovered, poolOf_quantity]

/-! ### A coin that pays the fees of its own sales -/

/-- A fill on a pair of the coin that fees are paid in. -/
def coinFill (id : ℤ) (isBuyer : Bool) (qty quoteQty commission : ℚ) (commissionAsset : String)
    (hqty : 0 < qty) (hquoteQty : 0 < quoteQty) : MyTrade where
  id
  time := 1000 * id
  isBuyer
  qty
  quoteQty
  commission
  commissionAsset
  qty_pos := hqty
  quoteQty_pos := hquoteQty

/-- Ten coins bought for three thousand, less a fee in the coin. -/
def tenBought : MyTrade := coinFill 1 true 10 3000 (1 / 100) "BNB" (by norm_num) (by norm_num)

/-- Five of them sold, the fee paid in the quote. -/
def fiveSold : MyTrade := coinFill 2 false 5 1600 (8 / 5) "USDT" (by norm_num) (by norm_num)

/-- Five of them sold, the fee paid in the coin. -/
def fiveSoldForCoin : MyTrade :=
  coinFill 2 false 5 1600 (1 / 200) "BNB" (by norm_num) (by norm_num)

theorem salesCovered_pair {buy sale : MyTrade} {baseAsset : String} (hbuyer : buy.isBuyer = true)
    (hcovered : sale.qty ≤ buy.credit baseAsset) : SalesCovered baseAsset [buy, sale] := by
  intro before sale' after hsplit hseller
  match before, hsplit with
  | [], hsplit =>
      cases hsplit
      rw [hbuyer] at hseller
      cases hseller
  | [_], hsplit =>
      cases hsplit
      simpa [ledgerBalance] using hcovered
  | _ :: _ :: _, hsplit => simp at hsplit

/-- Without a fee in the coin on the sale, the walk rebuilds the ledger. -/
theorem quote_fee_rebuilds_ledger :
    SameBasis (openPositionFromFills [fiveSold, tenBought] "BNB" none)
      (adoptHistory "BNB" [tenBought, fiveSold]) := by
  have hcovered : SalesCovered "BNB" [tenBought, fiveSold] :=
    salesCovered_pair rfl (by decide +kernel)
  have hordered : TimeOrdered [tenBought, fiveSold] := by
    simp [TimeOrdered, tenBought, fiveSold, coinFill]
  refine (open_position_matches_ledger_iff "BNB" [tenBought, fiveSold] hordered hcovered
    [fiveSold, tenBought] (List.Perm.swap _ _ _)).mpr (.inr ⟨[], _, rfl, .inl rfl, ?_⟩)
  intro fill hfill hunnetted
  rcases List.mem_pair.mp hfill with rfl | rfl
  · rcases hunnetted.2 rfl with hempty | hle
    · exact absurd hempty (by decide)
    · exact absurd hle (by decide +kernel)
  · exact absurd hunnetted.1 (by decide +kernel)

/-- The walk takes the fee of a sale off the position, the adopter does not. -/
theorem sale_fee_parts_the_two :
    TimeOrdered [tenBought, fiveSoldForCoin] ∧ SalesCovered "BNB" [tenBought, fiveSoldForCoin] ∧
      openPositionFromFills [tenBought, fiveSoldForCoin] "BNB" none =
        some ⟨997 / 200, 3000 / (999 / 100)⟩ ∧
      adoptHistory "BNB" [tenBought, fiveSoldForCoin] =
        .ok (some ⟨num (3000 / (999 / 100)), num (998 / 200)⟩) ∧
      ¬ SameBasis (openPositionFromFills [tenBought, fiveSoldForCoin] "BNB" none)
        (adoptHistory "BNB" [tenBought, fiveSoldForCoin]) := by
  have hwalk : openPositionFromFills [tenBought, fiveSoldForCoin] "BNB" none =
      some ⟨997 / 200, 3000 / (999 / 100)⟩ := by decide +kernel
  have hledger : adoptHistory "BNB" [tenBought, fiveSoldForCoin] =
      .ok (some ⟨num (3000 / (999 / 100)), num (998 / 200)⟩) := by decide +kernel
  refine ⟨?_, salesCovered_pair rfl (by decide +kernel), hwalk, hledger, ?_⟩
  · simp [TimeOrdered, tenBought, fiveSoldForCoin, coinFill]
  · rw [SameBasis, hwalk, hledger]
    decide +kernel

end TradingBot.Worker
