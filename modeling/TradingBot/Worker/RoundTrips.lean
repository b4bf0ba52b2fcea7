import Mathlib.Algebra.Order.Field.Rat
import Mathlib.Data.List.Infix
import Mathlib.Data.List.Sort
import TradingBot.Core.Contract
import TradingBot.Lib.Grouping

/-!
# Round trips rebuilt from the fills of a symbol

The backfill of the archive has only the account's fills. A walk over them,
oldest first, keeps the base coin held and the most that was held; a sale that
leaves at most a hundredth of it ends the cycle, also where the order that sold
it goes on selling. Numbers are exact, and a fee is the number its text states.
-/

namespace TradingBot.Worker

/-! ### The fills -/

/-- A fill of the account; there is no commission where its text states no finite number. -/
structure MyTradeDto where
  id : ℤ
  orderId : ℤ
  qty : ℚ
  quoteQty : ℚ
  commission : Option ℚ
  commissionAsset : String
  time : ℤ
  isBuyer : Bool
deriving DecidableEq

def buyBaseCommission (fill : MyTradeDto) (baseAsset : String) : ℚ :=
  if fill.isBuyer = false ∨ fill.commissionAsset ≠ baseAsset then 0
  else
    match fill.commission with
    | some commission => if 0 < commission then commission else 0
    | none => 0

namespace MyTradeDto

/-- What tells one fill from another. -/
def key (fill : MyTradeDto) : ℤ × ℤ := (fill.time, fill.id)

/-- Oldest first, and by id where the times agree. -/
def sortsBefore (a b : MyTradeDto) : Prop := a.time < b.time ∨ a.time = b.time ∧ a.id ≤ b.id

instance (a b : MyTradeDto) : Decidable (a.sortsBefore b) := inferInstanceAs (Decidable (_ ∨ _))

instance : Std.Total sortsBefore where
  total a b := by
    unfold sortsBefore
    omega

instance : IsTrans MyTradeDto sortsBefore where
  trans a b c hab hbc := by
    unfold sortsBefore at *
    omega

/-- The fill is older than the other, or as old with a smaller id. -/
def Precedes (a b : MyTradeDto) : Prop := a.time < b.time ∨ a.time = b.time ∧ a.id < b.id

instance (a b : MyTradeDto) : Decidable (a.Precedes b) := inferInstanceAs (Decidable (_ ∨ _))

/-- What a fill adds to the base coin held. -/
def baseDelta (baseAsset : String) (fill : MyTradeDto) : ℚ :=
  if fill.isBuyer then fill.qty - buyBaseCommission fill baseAsset else -fill.qty

end MyTradeDto

/-! ### One closed cycle -/

structure ReconstructedOrderSummary where
  orderId : String
  binanceOrderId : String
  clientOrderId : Option String
  intent : String
  side : OrderSide
  status : String
  executedQty : ℚ
  cummulativeQuoteQty : ℚ
  baseCommissionNetted : Option ℚ
  tradeIds : List ℤ
  closedAtMs : ℤ

structure ReconstructedRoundTrip where
  closingTradeId : ℤ
  closingBinanceOrderId : String
  closedAtMs : ℤ
  totalBuyQuote : ℚ
  totalSellQuote : ℚ
  profit : ℚ
  breakdown : List (String × ℚ)
  orders : List ReconstructedOrderSummary

/-- What `buildRoundTrip` adds up over the fills. -/
structure CycleTotals where
  totalBuyQuote : ℚ
  totalSellQuote : ℚ
  netBaseQuantity : ℚ

def CycleTotals.add (baseAsset : String) (totals : CycleTotals) (fill : MyTradeDto) :
    CycleTotals :=
  if fill.isBuyer then
    { totals with
      totalBuyQuote := totals.totalBuyQuote + fill.quoteQty
      netBaseQuantity := totals.netBaseQuantity + (fill.qty - buyBaseCommission fill baseAsset) }
  else
    { totals with
      totalSellQuote := totals.totalSellQuote + fill.quoteQty
      netBaseQuantity := totals.netBaseQuantity - fill.qty }

/-- The fills by order, in the order of the orders' first fills. -/
def fillsByOrder (fills : List MyTradeDto) : List (ℤ × List MyTradeDto) :=
  Grouping.group MyTradeDto.orderId (fun _ => []) (fun group fill => group ++ [fill]) fills

def summariseFills (baseAsset : String) (netBaseQuantity : ℚ) (orderId : ℤ)
    (group : List MyTradeDto) : ReconstructedOrderSummary :=
  let baseCommission := (group.map (buyBaseCommission · baseAsset)).sum
  { orderId := toString orderId
    binanceOrderId := toString orderId
    clientOrderId := none
    intent := "backfill"
    side := if group.head?.any (·.isBuyer) then .buy else .sell
    status := "FILLED"
    executedQty := (group.map (·.qty)).sum
    cummulativeQuoteQty := (group.map (·.quoteQty)).sum
    baseCommissionNetted :=
      if netBaseQuantity = 0 ∧ 0 < baseCommission then some baseCommission else none
    tradeIds := group.map (·.id)
    closedAtMs := group.foldl (fun latest fill => max latest fill.time) 0 }

def buildRoundTrip (fills : List MyTradeDto) (baseAsset : String) : ReconstructedRoundTrip :=
  let totals := fills.foldl (CycleTotals.add baseAsset) ⟨0, 0, 0⟩
  let closing := fills.getLast?
  { closingTradeId := (closing.map (·.id)).getD 0
    closingBinanceOrderId := (closing.map fun fill => toString fill.orderId).getD ""
    closedAtMs := (closing.map (·.time)).getD 0
    totalBuyQuote := totals.totalBuyQuote
    totalSellQuote := totals.totalSellQuote
    profit := totals.totalSellQuote - totals.totalBuyQuote
    breakdown := [("backfill:BUY", totals.totalBuyQuote), ("backfill:SELL", totals.totalSellQuote)]
    orders := (fillsByOrder fills).map fun entry =>
      summariseFills baseAsset totals.netBaseQuantity entry.1 entry.2 }

/-! ### The walk -/

structure RoundTripWalk where
  roundTrips : List ReconstructedRoundTrip
  current : List MyTradeDto
  running : ℚ
  peak : ℚ
  skippedOrphanSells : ℕ
  droppedOvershootCycles : ℕ

def RoundTripWalk.start : RoundTripWalk := ⟨[], [], 0, 0, 0, 0⟩

def RoundTripWalk.reset (walk : RoundTripWalk) : RoundTripWalk :=
  { walk with current := [], running := 0, peak := 0 }

def RoundTripWalk.add (baseAsset : String) (epsilonRatio : ℚ) (walk : RoundTripWalk)
    (fill : MyTradeDto) : RoundTripWalk :=
  if fill.isBuyer then
    let running := walk.running + (fill.qty - buyBaseCommission fill baseAsset)
    { walk with
      running := running
      peak := if walk.peak < running then running else walk.peak
      current := walk.current ++ [fill] }
  else if walk.current = [] then
    { walk with skippedOrphanSells := walk.skippedOrphanSells + 1 }
  else
    let running := walk.running - fill.qty
    let current := walk.current ++ [fill]
    let epsilon := walk.peak * epsilonRatio
    if running < -epsilon then
      { walk with droppedOvershootCycles := walk.droppedOvershootCycles + 1 }.reset
    else if walk.peak ≠ 0 ∧ running ≤ epsilon then
      { walk with roundTrips := walk.roundTrips ++ [buildRoundTrip current baseAsset] }.reset
    else { walk with running := running, current := current }

structure Reconstruction where
  roundTrips : List ReconstructedRoundTrip
  skippedOrphanSells : ℕ
  droppedOvershootCycles : ℕ

def RoundTripWalk.result (walk : RoundTripWalk) : Reconstruction :=
  ⟨walk.roundTrips, walk.skippedOrphanSells, walk.droppedOvershootCycles⟩

/-- The residual the walk takes for dust where its caller names no other. -/
def defaultEpsilonRatio : ℚ := 1 / 100

def reconstructRoundTrips (fills : List MyTradeDto) (baseAsset : String) (epsilonRatio : ℚ) :
    Reconstruction :=
  ((fills.insertionSort MyTradeDto.sortsBefore).foldl (RoundTripWalk.add baseAsset epsilonRatio)
    .start).result

/-! ### What the walk is for -/

/-- The base coin some fills leave. -/
def netBase (baseAsset : String) (fills : List MyTradeDto) : ℚ :=
  (fills.map (·.baseDelta baseAsset)).sum

def EndsInPurchase (fills : List MyTradeDto) : Prop := fills.getLast?.any (·.isBuyer) = true

instance (fills : List MyTradeDto) : Decidable (EndsInPurchase fills) :=
  inferInstanceAs (Decidable (_ = _))

def EndsInSale (fills : List MyTradeDto) : Prop := fills.getLast?.any (! ·.isBuyer) = true

instance (fills : List MyTradeDto) : Decidable (EndsInSale fills) :=
  inferInstanceAs (Decidable (_ = _))

def OpensWithPurchase (fills : List MyTradeDto) : Prop := fills.head?.any (·.isBuyer) = true

instance (fills : List MyTradeDto) : Decidable (OpensWithPurchase fills) :=
  inferInstanceAs (Decidable (_ = _))

/-- The most base coin held right after a purchase. -/
def peakBase (baseAsset : String) (fills : List MyTradeDto) : ℚ :=
  ((fills.inits.filter (EndsInPurchase ·)).map (netBase baseAsset)).foldl max 0

/-- No two fills have the same time and id. -/
def DistinctFills (fills : List MyTradeDto) : Prop := (fills.map (·.key)).Nodup

instance (fills : List MyTradeDto) : Decidable (DistinctFills fills) :=
  inferInstanceAs (Decidable (List.Nodup _))

/-- Starting flat, the fills come back to nothing with the last of them and not before, and never
sell more than is held. -/
def IsCycle (baseAsset : String) (fills : List MyTradeDto) : Prop :=
  fills ≠ [] ∧ netBase baseAsset fills = 0 ∧
    ∀ part ∈ fills.inits, part ≠ [] → part ≠ fills → 0 < netBase baseAsset part

instance (baseAsset : String) (fills : List MyTradeDto) : Decidable (IsCycle baseAsset fills) :=
  inferInstanceAs (Decidable (_ ∧ _))

/-- The quote coin spent on the purchases. -/
def boughtQuote (fills : List MyTradeDto) : ℚ :=
  ((fills.filter (·.isBuyer)).map (·.quoteQty)).sum

/-- The quote coin the sales brought in. -/
def soldQuote (fills : List MyTradeDto) : ℚ :=
  ((fills.filter (! ·.isBuyer)).map (·.quoteQty)).sum

/-- The round trip is that of the cycle: it has its fills, ends with its last, and is priced by
what they sold less what they bought. -/
structure ReconstructedRoundTrip.Reports (trip : ReconstructedRoundTrip)
    (cycle : List MyTradeDto) : Prop where
  tradeIds : (trip.orders.flatMap (·.tradeIds)).Perm (cycle.map (·.id))
  closing : (cycle.map (·.key)).getLast? = some (trip.closedAtMs, trip.closingTradeId)
  closingOrder : (cycle.map fun fill => toString fill.orderId).getLast? =
    some trip.closingBinanceOrderId
  totalBuyQuote : trip.totalBuyQuote = boughtQuote cycle
  totalSellQuote : trip.totalSellQuote = soldQuote cycle
  profit : trip.profit = soldQuote cycle - boughtQuote cycle

/-- The reconstruction has exactly these cycles, no orphans and no overshoots. -/
structure Reconstruction.Exact (result : Reconstruction) (cycles : List (List MyTradeDto)) :
    Prop where
  roundTrips : List.Forall₂ ReconstructedRoundTrip.Reports result.roundTrips cycles
  skippedOrphanSells : result.skippedOrphanSells = 0
  droppedOvershootCycles : result.droppedOvershootCycles = 0

/-- Where the fills of a history went. -/
structure FillClasses where
  completed : List (List MyTradeDto)
  dropped : List (List MyTradeDto)
  orphans : List MyTradeDto
  held : List MyTradeDto

def FillClasses.all (classes : FillClasses) : List MyTradeDto :=
  classes.completed.flatten ++ classes.dropped.flatten ++ classes.orphans ++ classes.held

/-- The classes are those of the result. A cycle opens with a purchase and ends with the sale that
leaves no more than dust, or takes more than dust beyond what was bought; an orphan is a sale. -/
structure FillClasses.Explain (baseAsset : String) (epsilonRatio : ℚ) (classes : FillClasses)
    (result : Reconstruction) : Prop where
  roundTrips : result.roundTrips = classes.completed.map (buildRoundTrip · baseAsset)
  orphans : result.skippedOrphanSells = classes.orphans.length
  dropped : result.droppedOvershootCycles = classes.dropped.length
  completed_spec : ∀ cycle ∈ classes.completed, OpensWithPurchase cycle ∧ EndsInSale cycle ∧
    |netBase baseAsset cycle| ≤ peakBase baseAsset cycle * epsilonRatio
  dropped_spec : ∀ cycle ∈ classes.dropped, OpensWithPurchase cycle ∧ EndsInSale cycle ∧
    netBase baseAsset cycle < -(peakBase baseAsset cycle * epsilonRatio)
  orphans_spec : ∀ fill ∈ classes.orphans, fill.isBuyer = false
  held_spec : classes.held ≠ [] → OpensWithPurchase classes.held

/-- The cycle opens with a purchase and ends with a sale, and each sale before its last leaves
more than dust. -/
structure ClosesAtEnd (baseAsset : String) (epsilonRatio : ℚ) (cycle : List MyTradeDto) : Prop where
  opens : OpensWithPurchase cycle
  ends : EndsInSale cycle
  open_before : ∀ part ∈ cycle.inits, part ≠ cycle → EndsInSale part →
    peakBase baseAsset part * epsilonRatio < netBase baseAsset part

/-! ### Amounts -/

section Amounts

variable {baseAsset : String} {fills : List MyTradeDto} {fill : MyTradeDto}

theorem netBase_concat (fills : List MyTradeDto) (fill : MyTradeDto) :
    netBase baseAsset (fills ++ [fill]) = netBase baseAsset fills + fill.baseDelta baseAsset := by
  simp [netBase]

theorem endsInPurchase_concat : EndsInPurchase (fills ++ [fill]) ↔ fill.isBuyer = true := by
  simp [EndsInPurchase]

theorem endsInSale_concat : EndsInSale (fills ++ [fill]) ↔ fill.isBuyer = false := by
  simp [EndsInSale]

theorem opensWithPurchase_append (rest : List MyTradeDto) (h : OpensWithPurchase fills) :
    OpensWithPurchase (fills ++ rest) := by
  cases fills with
  | nil => simp [OpensWithPurchase] at h
  | cons first more => exact h

theorem peakBase_concat_purchase (h : fill.isBuyer = true) :
    peakBase baseAsset (fills ++ [fill]) =
      max (peakBase baseAsset fills) (netBase baseAsset (fills ++ [fill])) := by
  have hends : EndsInPurchase (fills ++ [fill]) := endsInPurchase_concat.mpr h
  simp [peakBase, List.inits_append, List.filter_append, hends]

theorem peakBase_concat_sale (h : fill.isBuyer = false) :
    peakBase baseAsset (fills ++ [fill]) = peakBase baseAsset fills := by
  have hends : ¬ EndsInPurchase (fills ++ [fill]) := by
    simp [endsInPurchase_concat, h]
  simp [peakBase, List.inits_append, List.filter_append, hends]

theorem peakBase_nonneg (fills : List MyTradeDto) : 0 ≤ peakBase baseAsset fills := by
  induction fills using List.reverseRecOn with
  | nil => exact le_rfl
  | append_singleton fills fill ih =>
      cases hside : fill.isBuyer with
      | true => exact (peakBase_concat_purchase hside).symm ▸ le_max_of_le_left ih
      | false => exact (peakBase_concat_sale hside).symm ▸ ih

end Amounts

/-! ### One closed cycle -/

section Cycle

variable {baseAsset : String} {fills : List MyTradeDto}

theorem totals_eq (baseAsset : String) (fills : List MyTradeDto) (totals : CycleTotals) :
    fills.foldl (CycleTotals.add baseAsset) totals =
      ⟨totals.totalBuyQuote + boughtQuote fills, totals.totalSellQuote + soldQuote fills,
        totals.netBaseQuantity + netBase baseAsset fills⟩ := by
  induction fills generalizing totals with
  | nil => simp [boughtQuote, soldQuote, netBase]
  | cons fill fills ih =>
      rw [List.foldl_cons, ih]
      cases hside : fill.isBuyer with
      | true =>
          simp [CycleTotals.add, boughtQuote, soldQuote, netBase, MyTradeDto.baseDelta, hside,
            add_assoc]
      | false =>
          simp [CycleTotals.add, boughtQuote, soldQuote, netBase, MyTradeDto.baseDelta, hside,
            add_assoc, sub_eq_add_neg]

theorem tradeIds_buildRoundTrip (fills : List MyTradeDto) (baseAsset : String) :
    ((buildRoundTrip fills baseAsset).orders.flatMap (·.tradeIds)).Perm (fills.map (·.id)) := by
  have hids : (buildRoundTrip fills baseAsset).orders.flatMap (·.tradeIds) =
      (((fillsByOrder fills).map (·.2)).flatten).map (·.id) := by
    simp [buildRoundTrip, summariseFills, List.flatMap_def, List.map_flatten, Function.comp_def]
  rw [hids]
  exact (Grouping.perm_flatten_group MyTradeDto.orderId fills).map _

theorem reports_buildRoundTrip (baseAsset : String) (h : fills ≠ []) :
    (buildRoundTrip fills baseAsset).Reports fills := by
  obtain ⟨before, last, rfl⟩ := (List.eq_nil_or_concat fills).resolve_left h
  refine ⟨tradeIds_buildRoundTrip _ baseAsset, ?_, ?_, ?_, ?_, ?_⟩
  · simp [buildRoundTrip, MyTradeDto.key]
  · simp [buildRoundTrip]
  · simp only [buildRoundTrip, totals_eq, zero_add]
  · simp only [buildRoundTrip, totals_eq, zero_add]
  · simp only [buildRoundTrip, totals_eq, zero_add]

end Cycle

/-! ### One step of the walk -/

namespace RoundTripWalk

variable {baseAsset : String} {epsilonRatio : ℚ} {walk : RoundTripWalk}
  {part : List MyTradeDto} {fill : MyTradeDto}

/-- The walk with these fills in its open position. -/
def opened (baseAsset : String) (walk : RoundTripWalk) (part : List MyTradeDto) : RoundTripWalk :=
  { walk with
    current := part
    running := netBase baseAsset part
    peak := peakBase baseAsset part }

/-- The walk with one more round trip. -/
def closed (baseAsset : String) (walk : RoundTripWalk) (cycle : List MyTradeDto) : RoundTripWalk :=
  { walk with roundTrips := walk.roundTrips ++ [buildRoundTrip cycle baseAsset] }

/-- What a fill makes of a walk with an open position. -/
inductive Step (baseAsset : String) (epsilonRatio : ℚ) (walk : RoundTripWalk)
    (part : List MyTradeDto) (fill : MyTradeDto) : RoundTripWalk → Prop
  | purchase (hside : fill.isBuyer = true) :
      Step baseAsset epsilonRatio walk part fill (walk.opened baseAsset (part ++ [fill]))
  | orphan (hside : fill.isBuyer = false) (hpart : part = []) :
      Step baseAsset epsilonRatio walk part fill
        ({ walk with skippedOrphanSells := walk.skippedOrphanSells + 1 }.opened baseAsset [])
  | overshoot (hside : fill.isBuyer = false) (hpart : part ≠ [])
      (hnet : netBase baseAsset (part ++ [fill]) <
        -(peakBase baseAsset (part ++ [fill]) * epsilonRatio)) :
      Step baseAsset epsilonRatio walk part fill
        ({ walk with droppedOvershootCycles := walk.droppedOvershootCycles + 1 }.opened baseAsset
          [])
  | closing (hside : fill.isBuyer = false) (hpart : part ≠ [])
      (hnet : |netBase baseAsset (part ++ [fill])| ≤
        peakBase baseAsset (part ++ [fill]) * epsilonRatio)
      (hpeak : peakBase baseAsset (part ++ [fill]) ≠ 0) :
      Step baseAsset epsilonRatio walk part fill
        ((walk.closed baseAsset (part ++ [fill])).opened baseAsset [])
  | sale (hside : fill.isBuyer = false) (hpart : part ≠ [])
      (hnet : peakBase baseAsset (part ++ [fill]) * epsilonRatio <
          netBase baseAsset (part ++ [fill]) ∨ peakBase baseAsset (part ++ [fill]) = 0) :
      Step baseAsset epsilonRatio walk part fill (walk.opened baseAsset (part ++ [fill]))

theorem add_step (baseAsset : String) (epsilonRatio : ℚ) (walk : RoundTripWalk)
    (part : List MyTradeDto) (fill : MyTradeDto) :
    Step baseAsset epsilonRatio walk part fill
      ((walk.opened baseAsset part).add baseAsset epsilonRatio fill) := by
  cases hside : fill.isBuyer with
  | true =>
      have hadd : (walk.opened baseAsset part).add baseAsset epsilonRatio fill =
          walk.opened baseAsset (part ++ [fill]) := by
        have hnet : netBase baseAsset part + (fill.qty - buyBaseCommission fill baseAsset) =
            netBase baseAsset (part ++ [fill]) := by
          simp [netBase_concat, MyTradeDto.baseDelta, hside]
        simp only [add, opened, hside, if_true, hnet, peakBase_concat_purchase hside, max_def_lt]
      rw [hadd]
      exact .purchase hside
  | false =>
      have hnet : netBase baseAsset part - fill.qty = netBase baseAsset (part ++ [fill]) := by
        simp [netBase_concat, MyTradeDto.baseDelta, hside, sub_eq_add_neg]
      have hpeak := @peakBase_concat_sale baseAsset part fill hside
      unfold add
      simp only [hside, Bool.false_eq_true, if_false, opened, hnet, ← hpeak]
      split_ifs with hpart hover hclose
      · subst hpart
        rw [hpeak]
        exact .orphan hside rfl
      · exact .overshoot hside hpart hover
      · exact .closing hside hpart (abs_le.mpr ⟨not_lt.mp hover, hclose.2⟩) hclose.1
      · refine .sale hside hpart ?_
        by_cases hzero : peakBase baseAsset (part ++ [fill]) = 0
        · exact Or.inr hzero
        · exact Or.inl (lt_of_not_ge fun hle => hclose ⟨hzero, hle⟩)

end RoundTripWalk

end TradingBot.Worker
