import Mathlib.Data.List.Perm.Basic
import TradingBot.Lib.DecimalLiteral
import TradingBot.Lib.GapCount
import TradingBot.Lib.Grouping
import TradingBot.Worker.FeeResolution

/-!
# Certified fees

A payload that names an expected order is a whole, priced trade of it or leaves
a gap, as does an order whose trades do not add up to what it executed. A fee
without a gap is certified, and then it is the whole fee, whatever the order the
payloads came in. Amounts and their products are exact rationals here.
-/

namespace TradingBot.Worker

open Decimal Grid InsertionMap
open Contracts (FeeBasis)

/-! ### Whole trades -/

/-- A trade of an expected order, with its prices and its value in the quote. -/
structure WholeFill where
  orderId : ℤ
  tradeId : ℤ
  commission : ℚ
  commissionAsset : String
  qty : ℚ
  quoteQty : ℚ
  baseBuyCommission : ℚ
  value : ℚ

def FeeTerms.wholeFill (terms : FeeTerms) (byId : List (ℤ × ExpectedOrder)) (candidate : Json) :
    Option WholeFill := do
  let (orderId, expected, trade) ← namedOrder byId candidate
  let fill ← readTrade terms.symbol expected trade
  let _ ← fill.price
  let qty ← fill.qty
  let quoteQty ← fill.quoteQty
  let value ← terms.valueCommissionInQuote fill
  return {
    orderId, qty, quoteQty, value
    tradeId := fill.tradeId
    commission := fill.commission
    commissionAsset := fill.commissionAsset
    baseBuyCommission :=
      terms.baseBuyCommission fill.isBuyer fill.commissionAsset fill.commission }

section Tally

variable {terms : FeeTerms} {byId : List (ℤ × ExpectedOrder)} {t : FeeTally} {candidate : Json}
  {fill : WholeFill} {trades : List Json}

def OrderTotals.addFill (a : OrderTotals) (fill : WholeFill) : OrderTotals :=
  a.add fill.qty fill.quoteQty fill.baseBuyCommission

/-- A tally with one more whole trade. -/
def FeeTally.take (t : FeeTally) (fill : WholeFill) : FeeTally where
  sums := Grouping.add WholeFill.commissionAsset (fun _ => 0) (fun sum f => sum + f.commission)
    t.sums fill
  matched := t.matched.insert fill.orderId
  seenTradeIds := fill.tradeId :: t.seenTradeIds
  actualByOrder :=
    Grouping.add WholeFill.orderId (fun _ => ⟨0, 0, 0⟩) OrderTotals.addFill t.actualByOrder fill
  feesQuote := t.feesQuote + fill.value
  unpricedTrades := t.unpricedTrades
  malformedTrades := t.malformedTrades

/-- The trades a tally could not use. -/
def FeeTally.gaps (t : FeeTally) : ℕ := t.unpricedTrades + t.malformedTrades

theorem add_cases (terms : FeeTerms) (byId : List (ℤ × ExpectedOrder)) (t : FeeTally)
    (candidate : Json) :
    (namedOrder byId candidate = none ∧ t.add terms byId candidate = t) ∨
      (∃ fill, terms.wholeFill byId candidate = some fill ∧ fill.tradeId ∉ t.seenTradeIds ∧
        t.add terms byId candidate = t.take fill) ∨
      ((namedOrder byId candidate).isSome ∧
        (∀ fill, terms.wholeFill byId candidate = some fill → fill.tradeId ∈ t.seenTradeIds) ∧
        t.gaps < (t.add terms byId candidate).gaps) := by
  unfold FeeTally.add FeeTerms.wholeFill
  cases namedOrder byId candidate with
  | none => exact .inl ⟨rfl, rfl⟩
  | some named =>
      right
      obtain ⟨orderId, expected, trade⟩ := named
      dsimp only [Option.bind_eq_bind, Option.bind_some, Option.pure_def]
      cases readTrade terms.symbol expected trade with
      | none =>
          refine .inr ⟨rfl, fun fill h => (Option.some_ne_none _ h.symm).elim, ?_⟩
          exact Nat.add_lt_add_left (Nat.lt_succ_self _) _
      | some fill =>
          dsimp only [Option.bind_some]
          by_cases hseen : fill.tradeId ∈ t.seenTradeIds
          · rw [if_pos hseen]
            refine .inr ⟨rfl, ?_, Nat.add_lt_add_left (Nat.lt_succ_self _) _⟩
            intro whole hwhole
            obtain ⟨_, -, hwhole⟩ := Option.bind_eq_some_iff.mp hwhole
            obtain ⟨_, -, hwhole⟩ := Option.bind_eq_some_iff.mp hwhole
            obtain ⟨_, -, hwhole⟩ := Option.bind_eq_some_iff.mp hwhole
            obtain ⟨_, -, hwhole⟩ := Option.bind_eq_some_iff.mp hwhole
            obtain rfl := Option.some.inj hwhole
            exact hseen
          · rw [if_neg hseen]
            unfold FeeTally.charge FeeTally.malformed FeeTally.gaps
            cases fill.price with
            | none =>
                refine .inr ⟨rfl, fun fill h => (Option.some_ne_none _ h.symm).elim, ?_⟩
                cases terms.valueCommissionInQuote fill <;> dsimp only <;> omega
            | some price =>
                cases fill.qty with
                | none =>
                    refine .inr ⟨rfl, fun fill h => (Option.some_ne_none _ h.symm).elim, ?_⟩
                    cases terms.valueCommissionInQuote fill <;> dsimp only <;> omega
                | some qty =>
                    cases fill.quoteQty with
                    | none =>
                        refine .inr ⟨rfl, fun fill h => (Option.some_ne_none _ h.symm).elim, ?_⟩
                        cases terms.valueCommissionInQuote fill <;> dsimp only <;> omega
                    | some quoteQty =>
                        cases terms.valueCommissionInQuote fill with
                        | none =>
                            refine .inr ⟨rfl, fun fill h => (Option.some_ne_none _ h.symm).elim, ?_⟩
                            dsimp only
                            omega
                        | some value => exact .inl ⟨_, rfl, hseen, rfl⟩

/-- The whole trades among payloads. -/
def FeeTerms.wholeFills (terms : FeeTerms) (byId : List (ℤ × ExpectedOrder)) (trades : List Json) :
    List WholeFill :=
  trades.filterMap (terms.wholeFill byId)

/-- A payload that names no expected order, or is a whole trade of one. -/
def FeeTerms.Usable (terms : FeeTerms) (byId : List (ℤ × ExpectedOrder))
    (candidate : Json) : Prop :=
  namedOrder byId candidate = none ∨ (terms.wholeFill byId candidate).isSome

def FeeTerms.tradeId (terms : FeeTerms) (byId : List (ℤ × ExpectedOrder)) (candidate : Json) :
    Option ℤ :=
  (terms.wholeFill byId candidate).map (·.tradeId)

/-- The tally that whole trades lead to. -/
structure FeeTally.Totals (t : FeeTally) (fills : List WholeFill) : Prop where
  sums : t.sums =
    Grouping.group WholeFill.commissionAsset (fun _ => 0) (fun sum f => sum + f.commission) fills
  matched : ∀ id, id ∈ t.matched ↔ id ∈ fills.map (·.orderId)
  nodup : t.matched.Nodup
  seen : t.seenTradeIds = (fills.map (·.tradeId)).reverse
  actual : t.actualByOrder =
    Grouping.group WholeFill.orderId (fun _ => ⟨0, 0, 0⟩) OrderTotals.addFill fills
  feesQuote : t.feesQuote = (fills.map (·.value)).sum

theorem FeeTally.Totals.take {fills : List WholeFill} (h : t.Totals fills) (fill : WholeFill) :
    (t.take fill).Totals (fills ++ [fill]) where
  sums := by
    rw [Grouping.group_concat, ← h.sums]
    rfl
  matched id := by
    rw [List.map_append, List.mem_append, ← h.matched, FeeTally.take, List.mem_insert_iff, or_comm]
    exact or_congr_right List.mem_singleton.symm
  nodup := h.nodup.insert
  seen := by
    rw [List.map_append, List.reverse_append, ← h.seen]
    rfl
  actual := by
    rw [Grouping.group_concat, ← h.actual]
    rfl
  feesQuote := by
    rw [List.map_append, List.sum_append, ← h.feesQuote]
    simp [FeeTally.take]

theorem wholeFills_concat :
    terms.wholeFills byId (trades ++ [candidate]) =
      terms.wholeFills byId trades ++ (terms.wholeFill byId candidate).toList := by
  unfold FeeTerms.wholeFills
  rw [List.filterMap_append]
  cases hfill : terms.wholeFill byId candidate with
  | none => rw [List.filterMap_cons_none hfill, List.filterMap_nil]; rfl
  | some fill => rw [List.filterMap_cons_some hfill, List.filterMap_nil]; rfl

theorem wholeFill_of_not_named (h : namedOrder byId candidate = none) :
    terms.wholeFill byId candidate = none := by
  unfold FeeTerms.wholeFill
  rw [h]
  rfl

theorem filterMap_tradeId (trades : List Json) :
    trades.filterMap (terms.tradeId byId) = (terms.wholeFills byId trades).map (·.tradeId) :=
  List.map_filterMap.symm

/-- The tally has no gap exactly if every payload can be used,
and then it totals the whole trades. -/
theorem feeTally_certifies (terms : FeeTerms) (byId : List (ℤ × ExpectedOrder))
    (trades : List Json) :
    ((feeTally terms byId trades).gaps = 0 ↔
        GapCount.FitsAll (terms.Usable byId) (terms.tradeId byId) trades) ∧
      (GapCount.FitsAll (terms.Usable byId) (terms.tradeId byId) trades →
        (feeTally terms byId trades).Totals (terms.wholeFills byId trades)) := by
  refine @GapCount.foldl_certifies FeeTally Json ℤ (FeeTally.add terms byId) FeeTally.gaps _ _
    (fun done t => t.Totals (terms.wholeFills byId done)) .start ?_ ?_ rfl ?_ ?_ trades
  · intro t candidate
    rcases add_cases terms byId t candidate with ⟨-, h⟩ | ⟨fill, -, -, h⟩ | ⟨-, -, h⟩
    · rw [h]
    · rw [h]
      exact le_rfl
    · exact h.le
  · exact ⟨rfl, fun id => Iff.rfl, List.nodup_nil, rfl, rfl, rfl⟩
  · intro done t candidate htotals hgaps hfits
    rw [wholeFills_concat]
    rcases add_cases terms byId t candidate with ⟨hnamed, h⟩ | ⟨fill, hwhole, -, h⟩ |
      ⟨hnamed, hseen, -⟩
    · rw [h, wholeFill_of_not_named hnamed]
      exact ⟨by simpa using htotals, hgaps⟩
    · rw [h, hwhole]
      exact ⟨htotals.take fill, hgaps⟩
    · exfalso
      rcases hfits.good with hnone | hwhole
      · rw [hnone] at hnamed
        cases hnamed
      · obtain ⟨fill, hfill⟩ := Option.isSome_iff_exists.mp hwhole
        have hmem := hseen fill hfill
        rw [htotals.seen, List.mem_reverse, ← filterMap_tradeId] at hmem
        exact hfits.fresh fill.tradeId (Option.map_eq_some_iff.mpr ⟨fill, hfill, rfl⟩) hmem
  · intro done t candidate htotals hgaps hafter
    rcases add_cases terms byId t candidate with ⟨hnamed, -⟩ | ⟨fill, hwhole, hseen, -⟩ | ⟨-, -, h⟩
    · refine ⟨.inl hnamed, ?_⟩
      intro id hid
      rw [FeeTerms.tradeId, wholeFill_of_not_named hnamed] at hid
      cases hid
    · refine ⟨.inr (Option.isSome_iff_exists.mpr ⟨fill, hwhole⟩), ?_⟩
      intro id hid
      rw [FeeTerms.tradeId, hwhole] at hid
      obtain rfl := Option.some.inj hid
      rw [filterMap_tradeId]
      rw [htotals.seen, List.mem_reverse] at hseen
      exact hseen
    · exact absurd hafter (Nat.ne_of_gt (Nat.zero_lt_of_lt h))

end Tally

/-! ### Orders -/

section Orders

variable {orders : List FeeOrderEvidence} {order : FeeOrderEvidence} {e : ExpectedOrders}

/-- The evidence of an order is complete. -/
def FeeOrderEvidence.Proven (order : FeeOrderEvidence) : Prop :=
  order.orderId.isSome ∧ order.isMalformed = false

/-- The expected orders that complete evidence leads to. -/
structure ExpectedOrders.Holds (e : ExpectedOrders) (orders : List FeeOrderEvidence) : Prop where
  keys : ∀ id, id ∈ keys e.byId ↔ id ∈ orders.filterMap (·.orderId)
  nodup : (InsertionMap.keys e.byId).Nodup
  get : ∀ order ∈ orders, ∀ id ∈ order.orderId, InsertionMap.get id e.byId = some order.expected

theorem ExpectedOrders.Holds.add {id : ℤ} (h : e.Holds orders) (hid : order.orderId = some id)
    (hfresh : id ∉ orders.filterMap (·.orderId)) {malformed : ℕ} :
    (⟨set id order.expected e.byId, malformed⟩ : ExpectedOrders).Holds (orders ++ [order]) where
  keys other := by
    rw [mem_keys_set, h.keys, List.filterMap_append, List.mem_append, List.filterMap_cons_some hid,
      List.filterMap_nil, List.mem_singleton, or_comm]
  nodup := nodup_keys_set h.nodup
  get other hother k hk := by
    rcases List.mem_append.mp hother with hother | hother
    · have hne : k ≠ id := by
        rintro rfl
        exact hfresh (List.mem_filterMap.mpr ⟨other, hother, hk⟩)
      rw [get_set_other hne]
      exact h.get other hother k hk
    · obtain rfl := List.mem_singleton.mp hother
      obtain rfl := Option.some.inj (hk.symm.trans hid)
      exact get_set_self

theorem expectedOrders_certifies (orders : List FeeOrderEvidence) :
    ((expectedOrders orders).malformedOrders = 0 ↔
        GapCount.FitsAll FeeOrderEvidence.Proven FeeOrderEvidence.orderId orders) ∧
      (GapCount.FitsAll FeeOrderEvidence.Proven FeeOrderEvidence.orderId orders →
        (expectedOrders orders).Holds orders) := by
  refine @GapCount.foldl_certifies ExpectedOrders FeeOrderEvidence ℤ ExpectedOrders.add
    ExpectedOrders.malformedOrders _ _ (fun done e => e.Holds done) ⟨[], 0⟩ ?_ ?_ rfl ?_ ?_ orders
  · intro e order
    unfold ExpectedOrders.add
    cases order.orderId with
    | none => exact Nat.le_succ _
    | some id =>
        dsimp only
        split
        · exact Nat.le_succ _
        · dsimp only
          split
          · exact Nat.le_succ _
          · exact le_rfl
  · refine ⟨fun id => Iff.rfl, List.nodup_nil, fun order horder => ?_⟩
    cases horder
  · intro done e order hholds hgaps hfits
    obtain ⟨hsome, hformed⟩ := hfits.good
    obtain ⟨id, hid⟩ := Option.isSome_iff_exists.mp hsome
    have hfresh := hfits.fresh id hid
    unfold ExpectedOrders.add
    rw [hid]
    dsimp only
    rw [if_neg (fun hmem => hfresh ((hholds.keys id).mp hmem)), hformed, if_neg Bool.false_ne_true]
    exact ⟨hholds.add hid hfresh, hgaps⟩
  · intro done e order hholds hgaps hafter
    unfold ExpectedOrders.add at hafter
    cases hid : order.orderId with
    | none =>
        rw [hid] at hafter
        cases hafter
    | some id =>
        rw [hid] at hafter
        dsimp only at hafter
        split at hafter
        · cases hafter
        · next hfresh =>
            dsimp only at hafter
            cases hformed : order.isMalformed with
            | true =>
                rw [hformed] at hafter
                cases hafter
            | false =>
                refine ⟨⟨by rw [hid]; rfl, hformed⟩, ?_⟩
                intro k hk
                obtain rfl := Option.some.inj (hid.symm.trans hk)
                exact fun hmem => hfresh ((hholds.keys id).mpr hmem)

theorem ExpectedOrders.Holds.mem {entry : ℤ × ExpectedOrder} (h : e.Holds orders)
    (hentry : entry ∈ e.byId) :
    ∃ order ∈ orders, order.orderId = some entry.1 ∧ order.expected = entry.2 := by
  have hkey : entry.1 ∈ InsertionMap.keys e.byId := List.mem_map_of_mem hentry
  obtain ⟨order, horder, hid⟩ := List.mem_filterMap.mp ((h.keys entry.1).mp hkey)
  refine ⟨order, horder, hid, ?_⟩
  have hget := h.get order horder entry.1 hid
  rw [get_of_mem h.nodup hentry] at hget
  exact (Option.some.inj hget).symm

end Orders

section Checks

variable {t : FeeTally} {fills : List WholeFill} {id : ℤ} {expected : ExpectedOrder}

def OrderChecks.gaps (k : OrderChecks) : ℕ :=
  k.missingOrderIds + k.mismatchedOrders + k.unprovenBaseBuyOrders

/-- The trades of an expected order account for it. -/
def FeeTally.Covers (t : FeeTally) (entry : ℤ × ExpectedOrder) : Prop :=
  entry.1 ∈ t.matched ∧ ∃ actual, get entry.1 t.actualByOrder = some actual ∧
    entry.2.Matches actual ∧ entry.2.Proves actual

theorem checks_add_cases (t : FeeTally) (k : OrderChecks) (entry : ℤ × ExpectedOrder) :
    (t.Covers entry ∧ k.add t entry = k) ∨ (¬ t.Covers entry ∧ k.gaps < (k.add t entry).gaps) := by
  unfold FeeTally.Covers OrderChecks.add OrderChecks.gaps
  by_cases hmatched : entry.1 ∈ t.matched
  · rw [if_neg (not_not_intro hmatched)]
    cases hactual : get entry.1 t.actualByOrder with
    | none =>
        refine .inr ⟨?_, by dsimp only; omega⟩
        rintro ⟨-, actual, h, -⟩
        cases h
    | some actual =>
        dsimp only
        by_cases hmatches : entry.2.Matches actual
        · rw [if_neg (not_not_intro hmatches)]
          by_cases hproves : entry.2.Proves actual
          · rw [if_neg (not_not_intro hproves)]
            exact .inl ⟨⟨hmatched, actual, rfl, hmatches, hproves⟩, rfl⟩
          · rw [if_pos hproves]
            refine .inr ⟨?_, by dsimp only; omega⟩
            rintro ⟨-, other, h, -, hother⟩
            obtain rfl := Option.some.inj h
            exact hproves hother
        · rw [if_pos hmatches]
          refine .inr ⟨?_, by dsimp only; omega⟩
          rintro ⟨-, other, h, hother, -⟩
          obtain rfl := Option.some.inj h
          exact hmatches hother
  · rw [if_pos hmatched]
    exact .inr ⟨fun h => hmatched h.1, by dsimp only; omega⟩

theorem orderChecks_certifies (t : FeeTally) (byId : List (ℤ × ExpectedOrder)) :
    (orderChecks t byId).gaps = 0 ↔ ∀ entry ∈ byId, t.Covers entry := by
  have hcertifies := (@GapCount.foldl_certifies OrderChecks (ℤ × ExpectedOrder) ℤ
    (OrderChecks.add t) OrderChecks.gaps t.Covers (fun _ => none) (fun _ _ => True) ⟨0, 0, 0⟩
    ?_ trivial rfl ?_ ?_ byId).1
  · refine hcertifies.trans ⟨fun h => h.good, fun h => ⟨h, ?_⟩⟩
    rw [List.filterMap_none]
    exact List.nodup_nil
  · intro k entry
    rcases checks_add_cases t k entry with ⟨-, h⟩ | ⟨-, h⟩
    · rw [h]
    · exact h.le
  · intro done k entry _ hgaps hfits
    rcases checks_add_cases t k entry with ⟨-, h⟩ | ⟨h, -⟩
    · rw [h]
      exact ⟨trivial, hgaps⟩
    · exact absurd hfits.good h
  · intro done k entry _ hgaps hafter
    rcases checks_add_cases t k entry with ⟨h, -⟩ | ⟨-, h⟩
    · refine ⟨h, fun id hid => ?_⟩
      cases hid
    · exact absurd hafter (Nat.ne_of_gt (Nat.zero_lt_of_lt h))

/-- The trades of an order. -/
def fillsOf (id : ℤ) (fills : List WholeFill) : List WholeFill :=
  Grouping.members WholeFill.orderId id fills

/-- The trades of an order are there, and add up to what it executed and to what it netted. -/
structure ExpectedOrder.CoveredBy (expected : ExpectedOrder) (fills : List WholeFill) : Prop where
  traded : fills ≠ []
  qty : expected.executedQty = some (fills.map (·.qty)).sum
  quoteQty : ∀ quoteQty ∈ expected.cummulativeQuoteQty, (fills.map (·.quoteQty)).sum = quoteQty
  netted : expected.side = some .buy →
    (fills.map (·.baseBuyCommission)).sum = expected.baseCommissionNetted.getD 0

theorem foldl_addFill (a : OrderTotals) (fills : List WholeFill) :
    fills.foldl OrderTotals.addFill a =
      ⟨a.qty + (fills.map (·.qty)).sum, a.quoteQty + (fills.map (·.quoteQty)).sum,
        a.baseBuyCommission + (fills.map (·.baseBuyCommission)).sum⟩ := by
  induction fills generalizing a with
  | nil => simp
  | cons fill rest ih =>
      rw [List.foldl_cons, ih]
      simp only [OrderTotals.addFill, OrderTotals.add, List.map_cons, List.sum_cons, add_assoc]

theorem covers_iff (h : t.Totals fills) :
    t.Covers (id, expected) ↔ expected.CoveredBy (fillsOf id fills) := by
  have hactual : get id t.actualByOrder = (fillsOf id fills).head?.map fun _ =>
      ⟨((fillsOf id fills).map (·.qty)).sum, ((fillsOf id fills).map (·.quoteQty)).sum,
        ((fillsOf id fills).map (·.baseBuyCommission)).sum⟩ := by
    rw [h.actual, Grouping.get_group]
    simp only [foldl_addFill, zero_add]
    rfl
  have hmatched : id ∈ t.matched ↔ fillsOf id fills ≠ [] := by
    rw [h.matched, fillsOf, Grouping.members, ne_eq, List.filter_eq_nil_iff]
    simp
  unfold FeeTally.Covers
  rw [hmatched, hactual]
  cases hfills : fillsOf id fills with
  | nil => exact ⟨fun h => absurd rfl h.1, fun h => absurd rfl h.traded⟩
  | cons fill rest =>
      constructor
      · rintro ⟨htraded, actual, h, hmatches, hproves⟩
        obtain rfl := Option.some.inj h
        exact ⟨htraded, hmatches.1, hmatches.2, hproves⟩
      · intro h
        exact ⟨h.traded, _, rfl, ⟨h.qty, h.quoteQty⟩, h.netted⟩

end Checks

/-! ### The fee record -/

section Fees

variable {terms : FeeTerms} {byId : List (ℤ × ExpectedOrder)} {fill : WholeFill} {asset : String}

theorem terminating_add {q r : ℚ} (hq : Terminating q) (hr : Terminating r) :
    Terminating (q + r) := by
  obtain ⟨k, z, hz⟩ := hq
  obtain ⟨l, w, hw⟩ := hr
  refine ⟨k + l, z * 10 ^ l + w * 10 ^ k, ?_⟩
  push_cast
  rw [← hz, ← hw]
  ring

theorem terminating_sum {values : List ℚ} (h : ∀ q ∈ values, Terminating q) :
    Terminating values.sum := by
  induction values with
  | nil => exact terminating_intCast 0
  | cons q rest ih =>
      rw [List.sum_cons]
      exact terminating_add (h q List.mem_cons_self)
        (ih fun r hr => h r (List.mem_cons_of_mem q hr))

theorem terminating_effectiveCommissionRate (rates : QuoteCommissionRates) (isMaker isBuyer : Bool)
    (commissionAsset : String) :
    Terminating (effectiveCommissionRate rates isMaker isBuyer commissionAsset) := by
  have hlegs (legs : CommissionLegs) : Terminating (selectedLegs legs isMaker isBuyer) :=
    terminating_add (Share.terminating _) (Share.terminating _)
  have hdiscount : Terminating
      (if commissionAsset = rates.discountAsset then rates.discountMultiplier.value else 1) := by
    split
    · exact Share.terminating _
    · exact terminating_intCast 1
  exact terminating_add (terminating_add (terminating_mul (hlegs _) hdiscount) (hlegs _)) (hlegs _)

/-- What is read of a whole trade has a finite decimal expansion. -/
theorem terminating_of_wholeFill {candidate : Json}
    (h : terms.wholeFill byId candidate = some fill) :
    Terminating fill.commission ∧ Terminating fill.value := by
  obtain ⟨⟨orderId, expected, trade⟩, -, h⟩ := Option.bind_eq_some_iff.mp h
  obtain ⟨read, hread, h⟩ := Option.bind_eq_some_iff.mp h
  obtain ⟨price, hprice, h⟩ := Option.bind_eq_some_iff.mp h
  obtain ⟨qty, -, h⟩ := Option.bind_eq_some_iff.mp h
  obtain ⟨quoteQty, hquoteQty, h⟩ := Option.bind_eq_some_iff.mp h
  obtain ⟨value, hvalue, h⟩ := Option.bind_eq_some_iff.mp h
  obtain rfl := Option.some.inj h
  dsimp only at hread ⊢
  obtain ⟨_, -, hread⟩ := Option.bind_eq_some_iff.mp hread
  obtain ⟨_, -, hread⟩ := Option.bind_eq_some_iff.mp hread
  obtain ⟨commission, hcommission, hread⟩ := Option.bind_eq_some_iff.mp hread
  obtain ⟨_, -, hread⟩ := Option.bind_eq_some_iff.mp hread
  obtain ⟨_, -, hread⟩ := Option.bind_eq_some_iff.mp hread
  obtain ⟨_, -, hread⟩ := Option.bind_eq_some_iff.mp hread
  obtain ⟨-, hread⟩ := Option.ite_none_left_eq_some.mp hread
  obtain rfl := Option.some.inj hread
  have hfee : Terminating commission := (decimalString_eq_some hcommission).2
  refine ⟨hfee, ?_⟩
  unfold FeeTerms.valueCommissionInQuote at hvalue
  split at hvalue
  · obtain rfl := Option.some.inj hvalue
    exact terminating_intCast 0
  · split at hvalue
    · obtain rfl := Option.some.inj hvalue
      exact hfee
    · split at hvalue
      · split at hvalue
        · obtain rfl := Option.some.inj hvalue
          exact terminating_intCast 0
        · obtain ⟨p, hp, rfl⟩ := Option.map_eq_some_iff.mp hvalue
          exact terminating_mul hfee (decimalString_eq_some hp).2
      · obtain ⟨rates, -, hvalue⟩ := Option.bind_eq_some_iff.mp hvalue
        obtain ⟨quote, hquote, hvalue⟩ := Option.bind_eq_some_iff.mp hvalue
        obtain ⟨isMaker, -, hvalue⟩ := Option.bind_eq_some_iff.mp hvalue
        obtain ⟨-, hvalue⟩ := Option.ite_none_left_eq_some.mp hvalue
        obtain rfl := Option.some.inj hvalue
        exact terminating_mul (decimalString_eq_some hquote).2
          (terminating_effectiveCommissionRate _ _ _ _)

theorem get_foldl_setFee (hasset : asset ≠ "__proto__") {sums : List (String × ℚ)}
    (hnodup : (keys sums).Nodup) (fields : List (String × Json)) :
    get asset (sums.foldl setFee fields) =
      ((get asset sums).map fun total => .str (num total).toFixed).or (get asset fields) := by
  induction sums generalizing fields with
  | nil => rfl
  | cons fee rest ih =>
      obtain ⟨hfirst, hrest⟩ := List.nodup_cons.mp hnodup
      rw [List.foldl_cons, ih hrest]
      by_cases hfee : fee.1 = asset
      · subst hfee
        have hnone : get fee.1 rest = none := get_eq_none.mpr hfirst
        rw [setFee, if_neg hasset, Json.get_setField.1, hnone, InsertionMap.get, if_pos rfl]
        rfl
      · have hset : get asset (setFee fields fee) = get asset fields := by
          unfold setFee
          split
          · rfl
          · exact Json.get_setField.2 asset (Ne.symm hfee)
        rw [hset, InsertionMap.get, if_neg hfee]

/-- The commission that trades paid in an asset; none of them may have. -/
def commissionIn (asset : String) (fills : List WholeFill) : Option ℚ :=
  (Grouping.members WholeFill.commissionAsset asset fills).head?.map fun _ =>
    ((Grouping.members WholeFill.commissionAsset asset fills).map (·.commission)).sum

theorem foldl_commission (q : ℚ) (fills : List WholeFill) :
    fills.foldl (fun sum f => sum + f.commission) q = q + (fills.map (·.commission)).sum := by
  induction fills generalizing q with
  | nil => simp
  | cons fill rest ih => rw [List.foldl_cons, ih, List.map_cons, List.sum_cons, add_assoc]

theorem get_sums {t : FeeTally} {fills : List WholeFill} (h : t.Totals fills) (asset : String) :
    get asset t.sums = commissionIn asset fills := by
  rw [h.sums, Grouping.get_group, commissionIn]
  simp only [foldl_commission, zero_add]

theorem commissionIn_perm {fills fills' : List WholeFill} (h : fills.Perm fills') (asset : String) :
    commissionIn asset fills = commissionIn asset fills' := by
  have hmembers : (Grouping.members WholeFill.commissionAsset asset fills).Perm
      (Grouping.members WholeFill.commissionAsset asset fills') := h.filter _
  unfold commissionIn
  rw [(hmembers.map _).sum_eq]
  generalize Grouping.members WholeFill.commissionAsset asset fills = xs at hmembers
  generalize Grouping.members WholeFill.commissionAsset asset fills' = ys at hmembers
  cases xs with
  | nil => rw [List.nil_perm.mp hmembers]
  | cons x xs =>
      cases ys with
      | nil => exact absurd hmembers (List.not_perm_cons_nil)
      | cons y ys => rfl

end Fees

/-! ### Certified fees -/

section Certified

variable {trades trades' : List Json} {orders : List FeeOrderEvidence} {terms : FeeTerms}

/-- The whole trades that payloads tell of the orders. -/
def tradesOf (trades : List Json) (orders : List FeeOrderEvidence) (terms : FeeTerms) :
    List WholeFill :=
  terms.wholeFills (expectedOrders orders).byId trades

/-- The evidence leaves nothing out: every order has its id, side and quantity, and an id of its
own; every payload that names one is a whole trade of it, with an id of its own and a value; and the
trades of every order add up to it. -/
structure WholeEvidence (trades : List Json) (orders : List FeeOrderEvidence) (terms : FeeTerms) :
    Prop where
  nonempty : orders ≠ []
  proven : GapCount.FitsAll FeeOrderEvidence.Proven FeeOrderEvidence.orderId orders
  usable : GapCount.FitsAll (terms.Usable (expectedOrders orders).byId)
    (terms.tradeId (expectedOrders orders).byId) trades
  covered : ∀ order ∈ orders, ∀ id ∈ order.orderId,
    order.expected.CoveredBy (fillsOf id (tradesOf trades orders terms))

theorem wholeEvidence_iff :
    (resolveFeesFromTrades trades orders terms).feeBasis ≠ .unknown ↔
      WholeEvidence trades orders terms := by
  obtain ⟨horders, hholds⟩ := expectedOrders_certifies orders
  obtain ⟨htrades, htotals⟩ := feeTally_certifies terms (expectedOrders orders).byId trades
  have hchecks := orderChecks_certifies (feeTally terms (expectedOrders orders).byId trades)
    (expectedOrders orders).byId
  have hbasis : (resolveFeesFromTrades trades orders terms).feeBasis ≠ .unknown ↔
      orders ≠ [] ∧ (expectedOrders orders).malformedOrders = 0 ∧
        (feeTally terms (expectedOrders orders).byId trades).gaps = 0 ∧
        (orderChecks (feeTally terms (expectedOrders orders).byId trades)
          (expectedOrders orders).byId).gaps = 0 := by
    unfold resolveFeesFromTrades FeeTally.gaps OrderChecks.gaps
    dsimp only
    split
    · next h =>
        simp only [Bool.not_eq_true', Bool.and_eq_false_iff, Bool.not_eq_false',
          beq_eq_false_iff_ne,
          List.isEmpty_iff] at h
        constructor
        · intro hne
          exact absurd rfl hne
        · rintro ⟨hne, hm, ht, hk⟩
          exfalso
          rcases h with (((((h | h) | h) | h) | h) | h) | h
          · exact hne h
          all_goals omega
    · next h =>
        simp only [Bool.not_eq_true', Bool.not_eq_false, Bool.and_eq_true, Bool.not_eq_true',
          beq_iff_eq, List.isEmpty_eq_false_iff] at h
        obtain ⟨⟨⟨⟨⟨⟨hne, h1⟩, h2⟩, h3⟩, h4⟩, h5⟩, h6⟩ := h
        refine ⟨fun _ => ⟨hne, h4, by omega, by omega⟩, fun _ => ?_⟩
        split
        · exact fun h => FeeBasis.noConfusion h
        · exact fun h => FeeBasis.noConfusion h
  rw [hbasis, horders, htrades, hchecks]
  constructor
  · rintro ⟨hne, hfit, htake, hcovers⟩
    refine ⟨hne, hfit, htake, ?_⟩
    intro order horder id hid
    have hget := (hholds hfit).get order horder id hid
    exact (covers_iff (htotals htake)).mp (hcovers _ (mem_of_get hget))
  · intro h
    refine ⟨h.nonempty, h.proven, h.usable, ?_⟩
    intro entry hentry
    obtain ⟨order, horder, hid, hexpected⟩ := (hholds h.proven).mem hentry
    have hcovered := h.covered order horder entry.1 hid
    rw [hexpected] at hcovered
    exact (covers_iff (htotals h.usable)).mpr hcovered

/-- What a certified fee reads, and how it is told. -/
theorem resolved_of_whole (h : WholeEvidence trades orders terms) :
    (resolveFeesFromTrades trades orders terms).feesQuote =
        (num ((tradesOf trades orders terms).map (·.value)).sum).toFixed ∧
      ∀ asset ≠ "__proto__", get asset (resolveFeesFromTrades trades orders terms).fees =
        (commissionIn asset (tradesOf trades orders terms)).map fun total =>
          .str (num total).toFixed := by
  have htotals := (feeTally_certifies terms (expectedOrders orders).byId trades).2 h.usable
  constructor
  · unfold resolveFeesFromTrades tradesOf
    dsimp only
    rw [htotals.feesQuote]
  · intro asset hasset
    have hnodup : (keys (feeTally terms (expectedOrders orders).byId trades).sums).Nodup := by
      rw [htotals.sums]
      exact Grouping.nodup_keys_group _
    unfold resolveFeesFromTrades tradesOf
    dsimp only
    rw [get_foldl_setFee hasset hnodup, get_sums htotals]
    exact Option.or_none

theorem WholeEvidence.perm (h : WholeEvidence trades orders terms) (hperm : trades.Perm trades') :
    WholeEvidence trades' orders terms where
  nonempty := h.nonempty
  proven := h.proven
  usable := h.usable.perm hperm
  covered order horder id hid := by
    have hfills : (fillsOf id (tradesOf trades orders terms)).Perm
        (fillsOf id (tradesOf trades' orders terms)) := (hperm.filterMap _).filter _
    obtain ⟨htraded, hqty, hquoteQty, hnetted⟩ := h.covered order horder id hid
    refine ⟨?_, ?_, ?_, ?_⟩
    · intro hnil
      rw [hnil] at hfills
      exact htraded (List.perm_nil.mp hfills)
    · rw [hqty, (hfills.map _).sum_eq]
    · intro quoteQty hmem
      rw [← (hfills.map _).sum_eq]
      exact hquoteQty quoteQty hmem
    · intro hside
      rw [← (hfills.map _).sum_eq]
      exact hnetted hside

theorem feeBasis_of_whole (h : WholeEvidence trades orders terms) :
    (resolveFeesFromTrades trades orders terms).feeBasis =
      if terms.rates.isNone then .exact else .estimated := by
  have hne := wholeEvidence_iff.mpr h
  unfold resolveFeesFromTrades at hne ⊢
  dsimp only at hne ⊢
  split at hne
  · exact absurd rfl hne
  · next haccounted => rw [if_neg haccounted]

/-- A fee is certified exactly on whole evidence. It is then what the trades of the orders paid, in
each asset and in the quote, and the order of the payloads does not matter to it. -/
theorem certified_fee_is_whole (trades : List Json) (orders : List FeeOrderEvidence)
    (terms : FeeTerms) :
    ((resolveFeesFromTrades trades orders terms).feeBasis ≠ .unknown ↔
        WholeEvidence trades orders terms) ∧
      (WholeEvidence trades orders terms →
        (resolveFeesFromTrades trades orders terms).feeBasis =
            (if terms.rates.isNone then .exact else .estimated) ∧
          parse (resolveFeesFromTrades trades orders terms).feesQuote =
            some (num ((tradesOf trades orders terms).map (·.value)).sum) ∧
          ∀ asset ≠ "__proto__",
            match commissionIn asset (tradesOf trades orders terms) with
            | none => get asset (resolveFeesFromTrades trades orders terms).fees = none
            | some total => ∃ text,
                get asset (resolveFeesFromTrades trades orders terms).fees = some (.str text) ∧
                  parse text = some (num total)) ∧
      ∀ trades' : List Json, trades.Perm trades' →
        (resolveFeesFromTrades trades' orders terms).feeBasis =
            (resolveFeesFromTrades trades orders terms).feeBasis ∧
          ((resolveFeesFromTrades trades orders terms).feeBasis ≠ .unknown →
            (resolveFeesFromTrades trades' orders terms).feesQuote =
                (resolveFeesFromTrades trades orders terms).feesQuote ∧
              ∀ asset ≠ "__proto__",
                get asset (resolveFeesFromTrades trades' orders terms).fees =
                  get asset (resolveFeesFromTrades trades orders terms).fees) := by
  refine ⟨wholeEvidence_iff, ?_, ?_⟩
  · intro h
    obtain ⟨hquote, hfees⟩ := resolved_of_whole h
    have hterminating : ∀ fill ∈ tradesOf trades orders terms,
        Terminating fill.commission ∧ Terminating fill.value := by
      intro fill hfill
      obtain ⟨candidate, -, hcandidate⟩ := List.mem_filterMap.mp hfill
      exact terminating_of_wholeFill hcandidate
    refine ⟨feeBasis_of_whole h, ?_, ?_⟩
    · rw [hquote]
      refine parse_toFixed (terminating_sum fun q hq => ?_)
      obtain ⟨fill, hfill, rfl⟩ := List.mem_map.mp hq
      exact (hterminating fill hfill).2
    · intro asset hasset
      rw [hfees asset hasset]
      unfold commissionIn
      cases hpaid : (Grouping.members WholeFill.commissionAsset asset
          (tradesOf trades orders terms)).head? with
      | none => rfl
      | some first =>
          refine ⟨_, rfl, parse_toFixed (terminating_sum fun q hq => ?_)⟩
          obtain ⟨fill, hfill, rfl⟩ := List.mem_map.mp hq
          exact (hterminating fill (List.mem_of_mem_filter hfill)).1
  · intro trades' hperm
    by_cases h : WholeEvidence trades orders terms
    · have h' := h.perm hperm
      refine ⟨by rw [feeBasis_of_whole h, feeBasis_of_whole h'], fun _ => ?_⟩
      have hfills : (tradesOf trades orders terms).Perm (tradesOf trades' orders terms) :=
        hperm.filterMap _
      obtain ⟨hquote, hfees⟩ := resolved_of_whole h
      obtain ⟨hquote', hfees'⟩ := resolved_of_whole h'
      refine ⟨?_, ?_⟩
      · rw [hquote, hquote', (hfills.map _).sum_eq]
      · intro asset hasset
        rw [hfees asset hasset, hfees' asset hasset, commissionIn_perm hfills]
    · have h' : ¬ WholeEvidence trades' orders terms := fun h' => h (h'.perm hperm.symm)
      have hbasis := not_not.mp (wholeEvidence_iff.not.mpr h)
      have hbasis' := not_not.mp (wholeEvidence_iff.not.mpr h')
      exact ⟨hbasis'.trans hbasis.symm, fun hne => absurd hbasis hne⟩

end Certified

end TradingBot.Worker
