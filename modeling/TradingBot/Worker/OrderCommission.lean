import Mathlib.Algebra.Order.BigOperators.Group.Finset
import TradingBot.Lib.InsertionMap
import TradingBot.Worker.OrderHandlers

/-!
# The commission of an order

The exchange reports an order's executed totals cumulatively but its fees trade
by trade, so the event router keeps a running sum of the fees beside the stream
and reads it at the order's last report. An entry remembers every trade it has
folded. It expires on its own, and the next report of the order then starts a
new one that knows nothing of the trades before: what is read is the fee of the
trades reported since, and it is presented as the fee of the order.
-/

namespace TradingBot.Worker

open Decimal

/-! ### The accumulator -/

/-- An execution report's fee; the trade id is absent where it is not an integer. -/
structure CommissionTrade where
  executionType : String
  tradeId : Option ℤ
  commission : String
  commissionAsset : String

@[ext] structure Charge where
  asset : String
  charged : ℚ

structure CommissionEntry where
  totals : List (String × ℚ)
  folded : List (ℤ × Charge)
  corrupt : Bool
  expiresAtMs : ℤ

structure OrderCommission where
  commissions : List (String × DecimalString)
deriving DecidableEq

def terminalTtlMs : ℤ := 60000

def inFlightTtlMs : ℤ := 24 * 60 * 60 * 1000

/-- The fee a report states; none where it is no plain decimal, or below zero. -/
def chargedOf (commission : String) : Option ℚ :=
  if isPlainDecimalString commission then
    match parse commission with
    | some (num charged) => if charged < 0 then none else some charged
    | _ => none
  else none

def CommissionEntry.created (nowMs : ℤ) : CommissionEntry where
  totals := []
  folded := []
  corrupt := false
  expiresAtMs := nowMs + inFlightTtlMs

def CommissionEntry.fold (entry : CommissionEntry) (trade : CommissionTrade) : CommissionEntry :=
  if trade.commissionAsset.isEmpty then { entry with corrupt := true }
  else
    match trade.tradeId, chargedOf trade.commission with
    | some tradeId, some charged =>
        match InsertionMap.get tradeId entry.folded with
        | some original =>
            if original.asset ≠ trade.commissionAsset ∨ original.charged ≠ charged then
              { entry with corrupt := true }
            else entry
        | none =>
            let folded := InsertionMap.set tradeId ⟨trade.commissionAsset, charged⟩ entry.folded
            if charged = 0 then { entry with folded }
            else
              let prior := (InsertionMap.get trade.commissionAsset entry.totals).getD 0
              let totals := InsertionMap.set trade.commissionAsset (prior + charged) entry.totals
              { entry with folded, totals }
    | _, _ => { entry with corrupt := true }

/-- What an entry states, unless nothing was charged or the fee cannot be stated honestly. -/
def CommissionEntry.stated (entry : CommissionEntry) : Option OrderCommission :=
  if entry.corrupt || entry.totals.isEmpty then none
  else some ⟨entry.totals.map fun total => (total.1, .printed (num total.2))⟩

/-- The entries of the orders, by order key. -/
abbrev CommissionEntries := List (String × CommissionEntry)

namespace OrderCommissionAccumulator

def sweep (nowMs : ℤ) (entries : CommissionEntries) : CommissionEntries :=
  entries.filter fun keyed => nowMs < keyed.2.expiresAtMs

def record (entries : CommissionEntries) (nowMs : ℤ) (orderKey : String) (trade : CommissionTrade) :
    CommissionEntries :=
  if trade.executionType ≠ "TRADE" then entries
  else
    let swept := sweep nowMs entries
    let entry := (InsertionMap.get orderKey swept).getD (.created nowMs)
    InsertionMap.set orderKey (entry.fold trade) swept

def take (entries : CommissionEntries) (nowMs : ℤ) (orderKey : String) :
    CommissionEntries × Option OrderCommission :=
  let swept := sweep nowMs entries
  match InsertionMap.get orderKey swept with
  | none => (swept, none)
  | some entry =>
      (InsertionMap.set orderKey { entry with expiresAtMs := nowMs + terminalTtlMs } swept,
        entry.stated)

end OrderCommissionAccumulator

open OrderCommissionAccumulator

/-- A call of the accumulator: a report to record, or else a read. -/
structure CommissionCall where
  nowMs : ℤ
  orderKey : String
  report : Option CommissionTrade

def CommissionCall.apply (entries : CommissionEntries) (call : CommissionCall) :
    CommissionEntries :=
  match call.report with
  | some trade => record entries call.nowMs call.orderKey trade
  | none => (take entries call.nowMs call.orderKey).1

/-- The entries after the calls in turn. -/
def entriesAfter (calls : List CommissionCall) : CommissionEntries :=
  calls.foldl CommissionCall.apply []

/-! ### An order and its reports -/

/-- A trade of an order and its one fee, as its report carries them. -/
structure OrderTrade where
  id : ℤ
  asset : String
  commission : String
deriving DecidableEq

namespace OrderTrade

def report (trade : OrderTrade) : CommissionTrade where
  executionType := "TRADE"
  tradeId := some trade.id
  commission := trade.commission
  commissionAsset := trade.asset

/-- The fee of the trade, where its report can be read. -/
def fee (trade : OrderTrade) : Option ℚ :=
  if trade.asset.isEmpty then none else chargedOf trade.commission

def ofReport (report : CommissionTrade) : Option OrderTrade :=
  if report.executionType ≠ "TRADE" then none
  else report.tradeId.map fun id => ⟨id, report.commissionAsset, report.commission⟩

end OrderTrade

/-- The sum of the fees some trades paid in an asset. -/
def feesIn (asset : String) (trades : Finset OrderTrade) : ℚ :=
  ∑ trade ∈ trades with trade.asset = asset, trade.fee.getD 0

/-- What a commission states for an asset; one it leaves out was not charged. -/
def OrderCommission.total (commission : OrderCommission) (asset : String) : Decimal :=
  ((InsertionMap.get asset commission.commissions).bind (·.toDecimal)).getD (num 0)

/-- The commission is exactly what the trades paid, asset by asset. -/
structure OrderCommission.Whole (commission : OrderCommission) (trades : Finset OrderTrade) :
    Prop where
  readable : ∀ trade ∈ trades, trade.fee.isSome
  totals : ∀ asset, commission.total asset = num (feesIn asset trades)

/-- Calls that deliver an order: none reads it, and every trade reported under its key is one of
the order's. Calls for other orders may stand between. -/
structure Delivers (orderKey : String) (trades : Finset OrderTrade) (calls : List CommissionCall)
    (nowMs : ℤ) : Prop where
  ordered : calls.Pairwise fun earlier later => earlier.nowMs ≤ later.nowMs
  past : ∀ call ∈ calls, call.nowMs ≤ nowMs
  reports : ∀ call ∈ calls, call.orderKey = orderKey → ∃ report, call.report = some report ∧
    (report.executionType = "TRADE" → ∃ trade ∈ trades, report = trade.report)

/-- The trade of the order a call delivers, with its time. -/
def deliveryOf (orderKey : String) (call : CommissionCall) : Option (ℤ × OrderTrade) :=
  if call.orderKey = orderKey then
    (call.report.bind OrderTrade.ofReport).map fun trade => (call.nowMs, trade)
  else none

/-- Deliveries within a day of the first of them. -/
structure DeliveryWindow where
  startMs : ℤ
  delivered : Finset OrderTrade

/-- The day of the window is not over. -/
def DeliveryWindow.open (window : DeliveryWindow) (nowMs : ℤ) : Bool :=
  nowMs < window.startMs + inFlightTtlMs

/-- A delivery joins the window it falls into, or opens the next one. -/
def DeliveryWindow.add (window : Option DeliveryWindow) (delivery : ℤ × OrderTrade) :
    Option DeliveryWindow :=
  match window.filter (·.open delivery.1) with
  | some window => some { window with delivered := insert delivery.2 window.delivered }
  | none => some ⟨delivery.1, {delivery.2}⟩

def lastWindow (orderKey : String) (calls : List CommissionCall) : Option DeliveryWindow :=
  (calls.filterMap (deliveryOf orderKey)).foldl DeliveryWindow.add none

/-- The trades delivered in the window that is open at a time; none where no window is. -/
def liveTrades (orderKey : String) (calls : List CommissionCall) (nowMs : ℤ) : Finset OrderTrade :=
  (((lastWindow orderKey calls).filter (·.open nowMs)).map (·.delivered)).getD ∅

/-! ### Sums of fees -/

section Fees

variable {trades seen : Finset OrderTrade} {trade : OrderTrade} {asset : String}

theorem chargedOf_nonneg {commission : String} {charged : ℚ}
    (h : chargedOf commission = some charged) : 0 ≤ charged := by
  unfold chargedOf at h
  split at h
  · split at h
    · next value _ =>
        obtain ⟨hvalue, heq⟩ := Option.ite_none_left_eq_some.mp h
        rw [← Option.some.inj heq]
        exact not_lt.mp hvalue
    · cases h
  · cases h

theorem OrderTrade.fee_nonneg (trade : OrderTrade) : 0 ≤ trade.fee.getD 0 := by
  cases hfee : trade.fee with
  | none => exact le_rfl
  | some charged =>
      rw [OrderTrade.fee] at hfee
      exact chargedOf_nonneg (Option.ite_none_left_eq_some.mp hfee).2

@[simp] theorem feesIn_empty : feesIn asset ∅ = 0 := rfl

theorem feesIn_insert (hnew : trade ∉ seen) :
    feesIn asset (insert trade seen) =
      feesIn asset seen + if trade.asset = asset then trade.fee.getD 0 else 0 := by
  unfold feesIn
  rw [Finset.filter_insert]
  split
  · rw [Finset.sum_insert (by simp [hnew]), add_comm]
  · rw [add_zero]

theorem feesIn_sdiff (hsub : seen ⊆ trades) :
    feesIn asset trades = feesIn asset seen + feesIn asset (trades \ seen) := by
  unfold feesIn
  rw [← Finset.sum_union (Finset.disjoint_filter_filter Finset.disjoint_sdiff),
    ← Finset.filter_union, Finset.union_sdiff_of_subset hsub]

/-- Fees are not negative, so they sum to nothing only where none was charged. -/
theorem feesIn_eq_zero :
    (∀ asset, feesIn asset seen = 0) ↔ ∀ trade ∈ seen, trade.fee.getD 0 = 0 := by
  constructor
  · intro hzero trade hmem
    refine (Finset.sum_eq_zero_iff_of_nonneg fun t _ => t.fee_nonneg).mp
      (hzero trade.asset) trade ?_
    exact Finset.mem_filter.mpr ⟨hmem, rfl⟩
  · intro hzero asset
    exact Finset.sum_eq_zero fun trade hmem => hzero trade (Finset.mem_filter.mp hmem).1

end Fees

/-! ### What an entry has folded -/

section Folded

variable {trades seen : Finset OrderTrade} {entry : CommissionEntry} {trade : OrderTrade}

/-- An entry that has folded some trades of an order. -/
structure CommissionEntry.Folds (entry : CommissionEntry) (seen : Finset OrderTrade) : Prop where
  corrupt : entry.corrupt = true ↔ ∃ trade ∈ seen, trade.fee = none
  folded : ∀ id charge, InsertionMap.get id entry.folded = some charge ↔
    ∃ trade ∈ seen, trade.id = id ∧ trade.asset = charge.asset ∧ trade.fee = some charge.charged
  totals : ∀ asset, (InsertionMap.get asset entry.totals).getD 0 = feesIn asset seen
  positive : ∀ asset total, InsertionMap.get asset entry.totals = some total → 0 < total

theorem CommissionEntry.Folds.created (nowMs : ℤ) :
    (CommissionEntry.created nowMs).Folds ∅ where
  corrupt := by simp [CommissionEntry.created]
  folded id charge := by simp [CommissionEntry.created, InsertionMap.get]
  totals asset := rfl
  positive asset total h := by cases h

theorem CommissionEntry.fold_unreadable (hfee : trade.fee = none) :
    entry.fold trade.report = { entry with corrupt := true } := by
  rw [OrderTrade.fee] at hfee
  split at hfee
  · next hasset => exact if_pos hasset
  · next hasset => simp only [CommissionEntry.fold, OrderTrade.report, if_neg hasset, hfee]

theorem CommissionEntry.fold_known {charged : ℚ} (hfee : trade.fee = some charged)
    (hget : InsertionMap.get trade.id entry.folded = some ⟨trade.asset, charged⟩) :
    entry.fold trade.report = entry := by
  obtain ⟨hasset, hcharged⟩ := Option.ite_none_left_eq_some.mp hfee
  simp [CommissionEntry.fold, OrderTrade.report, hasset, hcharged, hget]

theorem CommissionEntry.fold_fresh {charged : ℚ} (hfee : trade.fee = some charged)
    (hget : InsertionMap.get trade.id entry.folded = none) :
    entry.fold trade.report =
      { entry with
        folded := InsertionMap.set trade.id ⟨trade.asset, charged⟩ entry.folded
        totals :=
          if charged = 0 then entry.totals
          else
            InsertionMap.set trade.asset
              ((InsertionMap.get trade.asset entry.totals).getD 0 + charged) entry.totals } := by
  obtain ⟨hasset, hcharged⟩ := Option.ite_none_left_eq_some.mp hfee
  simp only [CommissionEntry.fold, OrderTrade.report, if_neg hasset, hcharged, hget]
  split <;> rfl

theorem CommissionEntry.fold_expiresAtMs (report : CommissionTrade) :
    (entry.fold report).expiresAtMs = entry.expiresAtMs := by
  unfold CommissionEntry.fold
  dsimp only
  split_ifs
  · rfl
  · split
    · split
      · split_ifs <;> rfl
      · split_ifs <;> rfl
    · rfl

theorem CommissionEntry.Folds.fold_again (hfolds : entry.Folds seen)
    (hmem : trade ∈ seen) : (entry.fold trade.report).Folds seen := by
  cases hfee : trade.fee with
  | none =>
      have hcorrupt : entry.corrupt = true := hfolds.corrupt.mpr ⟨trade, hmem, hfee⟩
      rw [CommissionEntry.fold_unreadable hfee, ← hcorrupt]
      exact hfolds
  | some charged =>
      rw [CommissionEntry.fold_known hfee
        ((hfolds.folded trade.id ⟨trade.asset, charged⟩).mpr ⟨trade, hmem, rfl, rfl, hfee⟩)]
      exact hfolds

/-- A trade not yet folded adds its fee. -/
theorem CommissionEntry.Folds.fold_new (hfolds : entry.Folds seen)
    (hids : Set.InjOn OrderTrade.id (trades : Set OrderTrade)) (hsub : seen ⊆ trades)
    (hmem : trade ∈ trades) (hnew : trade ∉ seen) :
    (entry.fold trade.report).Folds (insert trade seen) := by
  have hother : ∀ t ∈ seen, t.id ≠ trade.id := fun t ht hid =>
    hnew (hids (hsub ht) hmem hid ▸ ht)
  cases hfee : trade.fee with
  | none =>
      rw [CommissionEntry.fold_unreadable hfee]
      refine ⟨by simp [hfee], ?_, ?_, hfolds.positive⟩
      · intro id charge
        simp [hfolds.folded id charge, hfee]
      · intro asset
        simp [feesIn_insert hnew, hfee, hfolds.totals asset]
  | some charged =>
      have hunfolded : InsertionMap.get trade.id entry.folded = none := by
        cases hget : InsertionMap.get trade.id entry.folded with
        | none => rfl
        | some charge =>
            obtain ⟨t, ht, hid, -⟩ := (hfolds.folded trade.id charge).mp hget
            exact absurd hid (hother t ht)
      have hcharged : 0 ≤ charged := by
        have hnonneg := trade.fee_nonneg
        rwa [hfee] at hnonneg
      have hcorrupt : entry.corrupt = true ↔ ∃ t ∈ insert trade seen, t.fee = none := by
        simp [hfolds.corrupt, hfee]
      have hfolded : ∀ id charge,
          InsertionMap.get id (InsertionMap.set trade.id ⟨trade.asset, charged⟩ entry.folded) =
              some charge ↔
            ∃ t ∈ insert trade seen,
              t.id = id ∧ t.asset = charge.asset ∧ t.fee = some charge.charged := by
        intro id charge
        by_cases hid : id = trade.id
        · subst hid
          have hnone : ¬ ∃ t ∈ seen,
              t.id = trade.id ∧ t.asset = charge.asset ∧ t.fee = some charge.charged := by
            rintro ⟨t, ht, hid, -⟩
            exact hother t ht hid
          rw [InsertionMap.get_set_self, Finset.exists_mem_insert]
          simp [hnone, hfee, Charge.ext_iff]
        · rw [InsertionMap.get_set_other hid, hfolds.folded, Finset.exists_mem_insert]
          simp [Ne.symm hid]
      rw [CommissionEntry.fold_fresh hfee hunfolded]
      split
      · next hzero =>
          refine ⟨hcorrupt, hfolded, ?_, hfolds.positive⟩
          intro asset
          simp [feesIn_insert hnew, hfee, hzero, hfolds.totals asset]
      · next hzero =>
          have hpos : 0 < charged := lt_of_le_of_ne hcharged (Ne.symm hzero)
          refine ⟨hcorrupt, hfolded, ?_, ?_⟩
          · intro asset
            by_cases hasset : asset = trade.asset
            · subst hasset
              simp [feesIn_insert hnew, hfee, hfolds.totals trade.asset]
            · simp [InsertionMap.get_set_other hasset, feesIn_insert hnew, Ne.symm hasset,
                hfolds.totals asset]
          · intro asset total htotal
            by_cases hasset : asset = trade.asset
            · subst hasset
              rw [InsertionMap.get_set_self, hfolds.totals] at htotal
              rw [← Option.some.inj htotal]
              exact add_pos_of_nonneg_of_pos
                (Finset.sum_nonneg fun t _ => t.fee_nonneg) hpos
            · rw [InsertionMap.get_set_other hasset] at htotal
              exact hfolds.positive asset total htotal

theorem CommissionEntry.Folds.fold (hfolds : entry.Folds seen)
    (hids : Set.InjOn OrderTrade.id (trades : Set OrderTrade)) (hsub : seen ⊆ trades)
    (hmem : trade ∈ trades) : (entry.fold trade.report).Folds (insert trade seen) := by
  by_cases hseen : trade ∈ seen
  · rw [Finset.insert_eq_of_mem hseen]
    exact hfolds.fold_again hseen
  · exact hfolds.fold_new hids hsub hmem hseen

end Folded

/-! ### Runs of calls -/

section Runs

variable {orderKey : String} {trades : Finset OrderTrade} {nowMs laterMs : ℤ}
  {entries : CommissionEntries} {calls : List CommissionCall} {call : CommissionCall}

theorem get_sweep {key : String} (hkeys : (InsertionMap.keys entries).Nodup) :
    InsertionMap.get key (sweep nowMs entries) =
      (InsertionMap.get key entries).filter fun entry => nowMs < entry.expiresAtMs :=
  @InsertionMap.get_filter _ _ _ entries key (fun entry => nowMs < entry.expiresAtMs) hkeys

theorem nodup_keys_sweep (hkeys : (InsertionMap.keys entries).Nodup) :
    (InsertionMap.keys (sweep nowMs entries)).Nodup :=
  hkeys.sublist (List.filter_sublist.map Prod.fst)

/-- What an order's entry holds is what its last window delivered; an entry may be gone once its
window has closed. -/
inductive Tracks (trades : Finset OrderTrade) (nowMs : ℤ) :
    Option CommissionEntry → Option DeliveryWindow → Prop
  | idle : Tracks trades nowMs none none
  | expired {window : DeliveryWindow} (hclosed : window.open nowMs = false) :
      Tracks trades nowMs none (some window)
  | recorded {entry : CommissionEntry} {window : DeliveryWindow}
      (hexpires : entry.expiresAtMs = window.startMs + inFlightTtlMs)
      (hfolds : entry.Folds window.delivered) (hsub : window.delivered ⊆ trades) :
      Tracks trades nowMs (some entry) (some window)

theorem Tracks.later {entry : Option CommissionEntry} {window : Option DeliveryWindow}
    (h : Tracks trades nowMs entry window) (hlater : nowMs ≤ laterMs) :
    Tracks trades laterMs entry window := by
  cases h with
  | idle => exact .idle
  | expired hclosed =>
      refine .expired ?_
      simp only [DeliveryWindow.open, decide_eq_false_iff_not, not_lt] at hclosed ⊢
      exact hclosed.trans hlater
  | recorded hexpires hfolds hsub => exact .recorded hexpires hfolds hsub

theorem Tracks.sweep {entry : Option CommissionEntry} {window : Option DeliveryWindow}
    (h : Tracks trades nowMs entry window) :
    Tracks trades nowMs (entry.filter fun entry => nowMs < entry.expiresAtMs) window := by
  cases h with
  | idle => exact .idle
  | expired hclosed => exact .expired hclosed
  | @recorded entry window hexpires hfolds hsub =>
      by_cases hlive : nowMs < entry.expiresAtMs
      · rw [Option.filter_some, if_pos (decide_eq_true hlive)]
        exact .recorded hexpires hfolds hsub
      · rw [Option.filter_some, if_neg (by simpa using hlive)]
        refine .expired ?_
        simpa [DeliveryWindow.open, hexpires] using hlive

theorem Tracks.record {entry : Option CommissionEntry} {window : Option DeliveryWindow}
    {trade : OrderTrade} (hids : Set.InjOn OrderTrade.id (trades : Set OrderTrade))
    (h : Tracks trades nowMs entry window) (hmem : trade ∈ trades)
    (hswept : ∀ e, entry = some e → nowMs < e.expiresAtMs) :
    Tracks trades nowMs (some ((entry.getD (.created nowMs)).fold trade.report))
      (DeliveryWindow.add window (nowMs, trade)) := by
  have hopened : Tracks trades nowMs (some ((CommissionEntry.created nowMs).fold trade.report))
      (some ⟨nowMs, {trade}⟩) := by
    refine .recorded (CommissionEntry.fold_expiresAtMs _) ?_ (Finset.singleton_subset_iff.mpr hmem)
    have hfolds := (CommissionEntry.Folds.created nowMs).fold hids (Finset.empty_subset _) hmem
    rwa [insert_empty_eq] at hfolds
  cases h with
  | idle => exact hopened
  | expired hclosed =>
      rw [DeliveryWindow.add, Option.filter_some, if_neg (by simp [hclosed])]
      exact hopened
  | @recorded entry window hexpires hfolds hsub =>
      have hlive : window.open nowMs = true := by
        simpa [DeliveryWindow.open, ← hexpires] using hswept entry rfl
      rw [DeliveryWindow.add, Option.filter_some, if_pos hlive]
      refine .recorded ?_ (hfolds.fold hids hsub hmem) (Finset.insert_subset hmem hsub)
      rw [Option.getD_some, CommissionEntry.fold_expiresAtMs, hexpires]

theorem lastWindow_append (orderKey : String) (calls : List CommissionCall)
    (call : CommissionCall) :
    lastWindow orderKey (calls ++ [call]) =
      ((deliveryOf orderKey call).map (DeliveryWindow.add (lastWindow orderKey calls))).getD
        (lastWindow orderKey calls) := by
  rw [lastWindow, List.filterMap_append, List.foldl_append]
  cases hdelivery : deliveryOf orderKey call <;> simp [hdelivery, lastWindow]

theorem CommissionCall.get_apply_other {key : String} (hother : key ≠ call.orderKey)
    (hkeys : (InsertionMap.keys entries).Nodup) :
    InsertionMap.get key (call.apply entries) = InsertionMap.get key entries ∨
      InsertionMap.get key (call.apply entries) =
        (InsertionMap.get key entries).filter fun entry => call.nowMs < entry.expiresAtMs := by
  unfold CommissionCall.apply
  split
  · unfold OrderCommissionAccumulator.record
    split
    · exact .inl rfl
    · exact .inr (by rw [InsertionMap.get_set_other hother, get_sweep hkeys])
  · refine .inr ?_
    dsimp only [OrderCommissionAccumulator.take]
    split
    · exact get_sweep hkeys
    · rw [InsertionMap.get_set_other hother, get_sweep hkeys]

theorem CommissionCall.nodup_keys_apply (hkeys : (InsertionMap.keys entries).Nodup) :
    (InsertionMap.keys (call.apply entries)).Nodup := by
  unfold CommissionCall.apply
  split
  · unfold OrderCommissionAccumulator.record
    split
    · exact hkeys
    · exact InsertionMap.nodup_keys_set (nodup_keys_sweep hkeys)
  · dsimp only [OrderCommissionAccumulator.take]
    split
    · exact nodup_keys_sweep hkeys
    · exact InsertionMap.nodup_keys_set (nodup_keys_sweep hkeys)

/-- One call keeps an order's entry in step with its deliveries. -/
theorem Tracks.apply (hids : Set.InjOn OrderTrade.id (trades : Set OrderTrade))
    {window : Option DeliveryWindow} (hkeys : (InsertionMap.keys entries).Nodup)
    (h : Tracks trades nowMs (InsertionMap.get orderKey entries) window)
    (hlater : nowMs ≤ call.nowMs)
    (hreport : call.orderKey = orderKey → ∃ report, call.report = some report ∧
      (report.executionType = "TRADE" → ∃ trade ∈ trades, report = trade.report)) :
    Tracks trades call.nowMs (InsertionMap.get orderKey (call.apply entries))
      (((deliveryOf orderKey call).map (DeliveryWindow.add window)).getD window) := by
  have hlate := h.later hlater
  by_cases hkey : call.orderKey = orderKey
  · obtain ⟨report, hreport, htrade⟩ := hreport hkey
    unfold CommissionCall.apply OrderCommissionAccumulator.record
    rw [hreport]
    dsimp only
    by_cases htype : report.executionType = "TRADE"
    · obtain ⟨trade, hmem, rfl⟩ := htrade htype
      have hdelivery : deliveryOf orderKey call = some (call.nowMs, trade) := by
        simp [deliveryOf, hkey, hreport, OrderTrade.ofReport, OrderTrade.report]
      rw [if_neg (not_not.mpr htype), hkey, InsertionMap.get_set_self, get_sweep hkeys, hdelivery]
      refine hlate.sweep.record hids hmem ?_
      intro e he
      simpa using (Option.filter_eq_some_iff.mp he).2
    · have hdelivery : deliveryOf orderKey call = none := by
        simp [deliveryOf, hreport, OrderTrade.ofReport, htype]
      rw [if_pos htype, hdelivery]
      exact hlate
  · have hdelivery : deliveryOf orderKey call = none := by simp [deliveryOf, hkey]
    rw [hdelivery]
    rcases CommissionCall.get_apply_other (Ne.symm hkey) hkeys with hget | hget
    · rw [hget]
      exact hlate
    · rw [hget]
      exact hlate.sweep

theorem tracks_entriesAfter (hids : Set.InjOn OrderTrade.id (trades : Set OrderTrade))
    (hdelivers : Delivers orderKey trades calls nowMs) :
    (InsertionMap.keys (entriesAfter calls)).Nodup ∧
      Tracks trades nowMs (InsertionMap.get orderKey (entriesAfter calls))
        (lastWindow orderKey calls) := by
  induction calls using List.reverseRecOn generalizing nowMs with
  | nil => exact ⟨List.nodup_nil, .idle⟩
  | append_singleton earlier call ih =>
      obtain ⟨hordered, -, hbefore⟩ := List.pairwise_append.mp hdelivers.ordered
      have hlast : call ∈ earlier ++ [call] :=
        List.mem_append_right earlier (List.mem_singleton_self call)
      have hearlier : Delivers orderKey trades earlier call.nowMs :=
        { ordered := hordered
          past := fun c hc => hbefore c hc call (List.mem_singleton_self call)
          reports := fun c hc => hdelivers.reports c (List.mem_append_left [call] hc) }
      obtain ⟨hkeys, htracks⟩ := ih hearlier
      rw [entriesAfter, List.foldl_append, lastWindow_append]
      exact ⟨CommissionCall.nodup_keys_apply hkeys,
        (htracks.apply hids hkeys le_rfl (hdelivers.reports call hlast)).later
          (hdelivers.past call hlast)⟩

end Runs

/-! ### What the last report reads -/

section Taken

variable {orderKey : String} {trades seen : Finset OrderTrade} {nowMs : ℤ}
  {entry : CommissionEntry} {calls : List CommissionCall}

/-- The commission read at the order's last report. -/
def takenCommission (orderKey : String) (calls : List CommissionCall) (nowMs : ℤ) :
    Option OrderCommission :=
  (take (entriesAfter calls) nowMs orderKey).2

theorem takenCommission_stated (hids : Set.InjOn OrderTrade.id (trades : Set OrderTrade))
    (hdelivers : Delivers orderKey trades calls nowMs) :
    liveTrades orderKey calls nowMs ⊆ trades ∧
      ∃ entry : CommissionEntry, entry.Folds (liveTrades orderKey calls nowMs) ∧
        takenCommission orderKey calls nowMs = entry.stated := by
  obtain ⟨hkeys, htracks⟩ := tracks_entriesAfter hids hdelivers
  have hswept := htracks.sweep
  rw [← get_sweep hkeys] at hswept
  have hnothing : ∀ {window : Option DeliveryWindow},
      InsertionMap.get orderKey (sweep nowMs (entriesAfter calls)) = none →
      lastWindow orderKey calls = window → window.filter (·.open nowMs) = none →
      liveTrades orderKey calls nowMs ⊆ trades ∧
        ∃ entry : CommissionEntry, entry.Folds (liveTrades orderKey calls nowMs) ∧
          takenCommission orderKey calls nowMs = entry.stated := by
    intro window hget hlast hclosed
    have hlive : liveTrades orderKey calls nowMs = ∅ := by simp [liveTrades, hlast, hclosed]
    rw [hlive]
    refine ⟨Finset.empty_subset _, .created nowMs, .created nowMs, ?_⟩
    simp [takenCommission, take, hget, CommissionEntry.stated, CommissionEntry.created]
  generalize hget : InsertionMap.get orderKey (sweep nowMs (entriesAfter calls)) = found at hswept
  generalize hlast : lastWindow orderKey calls = window at hswept
  cases hswept with
  | idle => exact hnothing hget hlast rfl
  | expired hclosed => exact hnothing hget hlast (by simp [hclosed])
  | @recorded entry window hexpires hfolds hsub =>
      have hopen : window.open nowMs = true := by
        rw [get_sweep hkeys] at hget
        have hunexpired := (Option.filter_eq_some_iff.mp hget).2
        simpa [DeliveryWindow.open, hexpires] using hunexpired
      have hlive : liveTrades orderKey calls nowMs = window.delivered := by
        rw [liveTrades, hlast, Option.filter_some, if_pos hopen]
        rfl
      rw [hlive]
      refine ⟨hsub, entry, hfolds, ?_⟩
      simp [takenCommission, take, hget]

theorem stated_total (hfolds : entry.Folds seen) {commission : OrderCommission}
    (h : entry.stated = some commission) (asset : String) :
    commission.total asset = num (feesIn asset seen) := by
  obtain ⟨-, h⟩ := Option.ite_none_left_eq_some.mp h
  rw [← Option.some.inj h, OrderCommission.total, ← hfolds.totals asset,
    InsertionMap.get_map fun total : ℚ => DecimalString.printed (num total)]
  cases InsertionMap.get asset entry.totals <;> rfl

theorem stated_eq_none (hfolds : entry.Folds seen) :
    entry.stated = none ↔
      (∃ trade ∈ seen, trade.fee = none) ∨ ∀ trade ∈ seen, trade.fee.getD 0 = 0 := by
  have hempty : entry.totals = [] ↔ ∀ trade ∈ seen, trade.fee.getD 0 = 0 := by
    rw [← feesIn_eq_zero]
    constructor
    · intro hnil asset
      rw [← hfolds.totals asset, hnil]
      rfl
    · intro hzero
      cases htotals : entry.totals with
      | nil => rfl
      | cons first rest =>
          have hget : InsertionMap.get first.1 entry.totals = some first.2 := by
            rw [htotals, InsertionMap.get, if_pos rfl]
          have htotal := hfolds.totals first.1
          rw [hget, hzero first.1] at htotal
          exact absurd htotal (hfolds.positive _ _ hget).ne'
  rw [← hfolds.corrupt, ← hempty, CommissionEntry.stated]
  cases entry.corrupt <;> simp

end Taken

/-! ### Partial and whole fees -/

section Whole

/-- The live trades tell the fee of the order: one of them cannot be read, none of them was charged,
or no trade outside them was. -/
def TellsWhole (live trades : Finset OrderTrade) : Prop :=
  (∃ trade ∈ live, trade.fee = none) ∨ (∀ trade ∈ live, trade.fee.getD 0 = 0) ∨
    ∀ trade ∈ trades, trade.fee = some 0 ∨ trade ∈ live

/-- Every trade of the order was delivered, the first of them less than a day ago. -/
structure CompleteWithinDay (orderKey : String) (trades : Finset OrderTrade)
    (calls : List CommissionCall) (nowMs : ℤ) : Prop where
  complete : ∀ trade ∈ trades, ∃ call ∈ calls,
    deliveryOf orderKey call = some (call.nowMs, trade)
  within : ∀ call ∈ calls, (deliveryOf orderKey call).isSome → nowMs < call.nowMs + inFlightTtlMs

/-- Two reads that state the same, asset by asset. -/
def SameCommission (a b : Option OrderCommission) : Prop :=
  ∀ asset, a.map (·.total asset) = b.map (·.total asset)

variable {orderKey : String} {trades live : Finset OrderTrade} {nowMs : ℤ}
  {entry : CommissionEntry} {calls : List CommissionCall}

theorem stated_whole_iff (hfolds : entry.Folds live) (hsub : live ⊆ trades) :
    (∀ commission, entry.stated = some commission → commission.Whole trades) ↔
      TellsWhole live trades := by
  constructor
  · intro hwhole
    cases hstated : entry.stated with
    | none => exact ((stated_eq_none hfolds).mp hstated).imp_right .inl
    | some commission =>
        obtain ⟨hreadable, htotals⟩ := hwhole commission hstated
        refine .inr (.inr ?_)
        have hmissing : ∀ asset, feesIn asset (trades \ live) = 0 := by
          intro asset
          have hsplit : feesIn asset trades = feesIn asset live + feesIn asset (trades \ live) :=
            feesIn_sdiff hsub
          have hsame : feesIn asset live = feesIn asset trades := by
            have htotal := htotals asset
            rw [stated_total hfolds hstated] at htotal
            exact num.inj htotal
          linarith
        intro trade hmem
        by_cases hlive : trade ∈ live
        · exact .inr hlive
        · have hzero := feesIn_eq_zero.mp hmissing trade (Finset.mem_sdiff.mpr ⟨hmem, hlive⟩)
          obtain ⟨charged, hfee⟩ := Option.isSome_iff_exists.mp (hreadable trade hmem)
          rw [hfee, Option.getD_some] at hzero
          exact .inl (hzero ▸ hfee)
  · rintro htells commission hstated
    have hsome : ¬ (entry.stated = none) := by simp [hstated]
    rw [stated_eq_none hfolds, not_or] at hsome
    obtain ⟨hreadable, hcharged⟩ := hsome
    have hfree : ∀ trade ∈ trades, trade.fee = some 0 ∨ trade ∈ live := by
      rcases htells with hunread | hnone | hfree
      · exact absurd hunread hreadable
      · exact absurd hnone hcharged
      · exact hfree
    refine ⟨?_, ?_⟩
    · intro trade hmem
      rcases hfree trade hmem with hfee | hlive
      · simp [hfee]
      · by_contra hnone
        exact hreadable ⟨trade, hlive, by simpa using hnone⟩
    · intro asset
      have hmissing : ∀ trade ∈ trades \ live, trade.fee.getD 0 = 0 := by
        intro trade hmem
        obtain ⟨hmem, hlive⟩ := Finset.mem_sdiff.mp hmem
        rw [(hfree trade hmem).resolve_right hlive, Option.getD_some]
      rw [stated_total hfolds hstated, feesIn_sdiff hsub, feesIn_eq_zero.mpr hmissing, add_zero]

theorem foldl_add_within {deliveries : List (ℤ × OrderTrade)}
    (hwithin : ∀ d ∈ deliveries, nowMs < d.1 + inFlightTtlMs)
    (hpast : ∀ d ∈ deliveries, d.1 ≤ nowMs) (hsome : deliveries ≠ []) :
    ∃ window, deliveries.foldl DeliveryWindow.add none = some window ∧
      window.open nowMs = true ∧ window.delivered = (deliveries.map Prod.snd).toFinset := by
  induction deliveries using List.reverseRecOn with
  | nil => exact absurd rfl hsome
  | append_singleton earlier d ih =>
      have hlast : d ∈ earlier ++ [d] := List.mem_append_right earlier (List.mem_singleton_self d)
      rw [List.foldl_append, List.foldl_cons, List.foldl_nil]
      rcases eq_or_ne earlier [] with rfl | hearlier
      · exact ⟨_, rfl, by simpa [DeliveryWindow.open] using hwithin d hlast, by simp⟩
      · obtain ⟨window, hwindow, hopen, hdelivered⟩ := ih
          (fun e he => hwithin e (List.mem_append_left [d] he))
          (fun e he => hpast e (List.mem_append_left [d] he)) hearlier
        have hjoins : window.open d.1 = true := by
          rw [DeliveryWindow.open, decide_eq_true_iff] at hopen ⊢
          exact (hpast d hlast).trans_lt hopen
        refine ⟨{ window with delivered := insert d.2 window.delivered }, ?_, hopen, ?_⟩
        · rw [hwindow, DeliveryWindow.add, Option.filter_some, if_pos hjoins]
        · ext trade
          simp [hdelivered]

theorem liveTrades_complete (hdelivers : Delivers orderKey trades calls nowMs)
    (hcomplete : CompleteWithinDay orderKey trades calls nowMs)
    (hsub : liveTrades orderKey calls nowMs ⊆ trades) :
    liveTrades orderKey calls nowMs = trades := by
  refine Finset.Subset.antisymm hsub ?_
  intro trade hmem
  obtain ⟨call, hcall, hdelivery⟩ := hcomplete.complete trade hmem
  have hdelivered : (call.nowMs, trade) ∈ calls.filterMap (deliveryOf orderKey) :=
    List.mem_filterMap.mpr ⟨call, hcall, hdelivery⟩
  have htimes : ∀ d ∈ calls.filterMap (deliveryOf orderKey),
      nowMs < d.1 + inFlightTtlMs ∧ d.1 ≤ nowMs := by
    intro d hd
    obtain ⟨c, hc, hdelivery⟩ := List.mem_filterMap.mp hd
    have htime : d.1 = c.nowMs := by
      obtain ⟨-, hmap⟩ := Option.ite_none_right_eq_some.mp hdelivery
      obtain ⟨t, -, rfl⟩ := Option.map_eq_some_iff.mp hmap
      rfl
    rw [htime]
    exact ⟨hcomplete.within c hc (by simp [hdelivery]), hdelivers.past c hc⟩
  obtain ⟨window, hwindow, hopen, hall⟩ := foldl_add_within (fun d hd => (htimes d hd).1)
    (fun d hd => (htimes d hd).2) (List.ne_nil_of_mem hdelivered)
  rw [liveTrades, lastWindow, hwindow, Option.filter_some, if_pos hopen, Option.map_some,
    Option.getD_some, hall, List.mem_toFinset]
  exact List.mem_map.mpr ⟨_, hdelivered, rfl⟩

theorem stated_same {other : CommissionEntry} (hfolds : entry.Folds live)
    (hother : other.Folds live) : SameCommission entry.stated other.stated := by
  intro asset
  cases hstated : entry.stated with
  | none => rw [(stated_eq_none hother).mpr ((stated_eq_none hfolds).mp hstated)]
  | some commission =>
      cases hstated' : other.stated with
      | none =>
          rw [(stated_eq_none hfolds).mpr ((stated_eq_none hother).mp hstated')] at hstated
          cases hstated
      | some commission' =>
          rw [Option.map_some, Option.map_some, stated_total hfolds hstated,
            stated_total hother hstated']

end Whole

def halfTrade : OrderTrade := ⟨1, "TST", "0.5"⟩

def quarterTrade : OrderTrade := ⟨2, "TST", "0.25"⟩

/-- Reports of one order at some times. -/
def reportsOf (deliveries : List (ℤ × OrderTrade)) : List CommissionCall :=
  deliveries.map fun delivery => ⟨delivery.1, "acct-1:TSTUSDT:42", some delivery.2.report⟩

theorem twoTrades_ids :
    Set.InjOn OrderTrade.id (({halfTrade, quarterTrade} : Finset OrderTrade) : Set OrderTrade) := by
  simp [Set.InjOn, halfTrade, quarterTrade]

theorem delivers_reportsOf {deliveries : List (ℤ × OrderTrade)} {trades : Finset OrderTrade}
    {nowMs : ℤ} (hordered : (deliveries.map Prod.fst).Pairwise (· ≤ ·))
    (hpast : ∀ d ∈ deliveries, d.1 ≤ nowMs ∧ d.2 ∈ trades) :
    Delivers "acct-1:TSTUSDT:42" trades (reportsOf deliveries) nowMs where
  ordered := by
    rw [reportsOf, List.pairwise_map]
    exact List.pairwise_map.mp hordered
  past call hcall := by
    obtain ⟨d, hd, rfl⟩ := List.mem_map.mp hcall
    exact (hpast d hd).1
  reports call hcall _ := by
    obtain ⟨d, hd, rfl⟩ := List.mem_map.mp hcall
    exact ⟨d.2.report, rfl, fun _ => ⟨d.2, (hpast d hd).2, rfl⟩⟩

end TradingBot.Worker
