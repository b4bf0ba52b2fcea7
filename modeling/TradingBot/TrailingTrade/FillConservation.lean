import TradingBot.Lib.CostPool
import TradingBot.TrailingTrade.FillResolution

/-!
# Fills conserve cost

A run of fills adopted from a flat position, with the sales booked as they
come. The position is an average-cost pool: buys add to it, sales take their
share of its cost, so that what is still held and what the sales consumed add
up to what was spent, and buys may be folded one at a time, in any order, or at
once at their volume-weighted price.
-/

namespace TradingBot.TrailingTrade

open Decimal CostPool

structure PositiveFill where
  side : OrderSide
  lot : Lot ℚ
  price_pos : 0 < lot.price
  quantity_pos : 0 < lot.quantity

namespace PositiveFill

def raw (fill : PositiveFill) : RawFill := ⟨fill.side, num fill.lot.price, num fill.lot.quantity⟩

/-- What the fill moves in quote: the cost of a buy, the proceeds of a sale. -/
def quote (fill : PositiveFill) : ℚ := fill.lot.paid

end PositiveFill

/-- The position after some fills, and the results booked for the sales among them. -/
structure FillBook where
  state : TTState
  booked : List (Option RealizedPnl)

/-- Adopt one fill and book what a sale realises, before the position changes. -/
def foldFill (book : FillBook) (fill : PositiveFill) : Except String FillBook := do
  let booked ←
    match fill.side with
    | .buy => pure book.booked
    | .sell => do
        let pnl ← realizedPnlOnSell (readPosition book.state) fill.raw.quantity
          (fill.raw.price.mul fill.raw.quantity)
        pure (book.booked ++ [pnl])
  let state ← adoptFill book.state fill.raw
  return ⟨state, booked⟩

def foldFills (book : FillBook) (fills : List PositiveFill) : Except String FillBook :=
  fills.foldlM foldFill book

/-- No sale of the sequence exceeds what is held when it comes. -/
def Covered : ℚ → List PositiveFill → Prop
  | _, [] => True
  | held, fill :: rest =>
      match fill.side with
      | .buy => Covered (held + fill.lot.quantity) rest
      | .sell => fill.lot.quantity ≤ held ∧ Covered (held - fill.lot.quantity) rest

/-- What the fills of a side moved in quote. -/
def quoteOf (side : OrderSide) (fills : List PositiveFill) : ℚ :=
  ((fills.filter (·.side = side)).map PositiveFill.quote).sum

/-- The number in a text; a text that is no number is not a number. -/
def amount (text : DecimalString) : Decimal := text.toDecimal.getD nan

/-- The sum of a field over the results that were booked. -/
def totalOf (field : RealizedPnl → DecimalString) (booked : List (Option RealizedPnl)) : Decimal :=
  ((booked.filterMap id).map fun pnl => amount (field pnl)).foldl Decimal.add (num 0)

/-- The cost of what the body holds: zero when it is flat. -/
def heldCost (state : TTState) : Decimal :=
  match state.avgEntryPrice, state.heldQuantity with
  | some avgEntryPrice, some heldQuantity => (amount avgEntryPrice).mul (amount heldQuantity)
  | _, _ => num 0

/-- After the fills: what is held and what the sales consumed add up to what was spent, and the
sales realised their proceeds less that cost. -/
structure Conserves (book : FillBook) (fills : List PositiveFill) : Prop where
  cost : (heldCost book.state).add (totalOf (·.costBasisQuote) book.booked) =
    num (quoteOf .buy fills)
  profit : totalOf (·.realizedPnl) book.booked =
    (num (quoteOf .sell fills)).sub (totalOf (·.costBasisQuote) book.booked)

/-! ### The position is an average-cost pool -/

/-- The body holds the pool: nothing at all, or a positive quantity at the average cost. -/
inductive Tracks (state : TTState) (pool : CostPool ℚ) : Prop where
  | flat (flat : Flat state) (empty : pool = CostPool.empty)
  | held (held : Held state pool.average pool.quantity)

/-- The body after a buy that takes the pool to `pool`. -/
def bought (state : TTState) (pool : CostPool ℚ) : TTState :=
  { state with
    avgEntryPrice := some (.printed (num pool.average))
    heldQuantity := some (.printed (num pool.quantity))
    highSinceBuy := none
    breakEvenArmed := false }

/-- What a sale out of the pool books: its proceeds less its share of the cost, and that share. -/
def shareOf (pool : CostPool ℚ) (fill : PositiveFill) : RealizedPnl where
  realizedPnl := .printed (num (fill.quote - fill.lot.quantity * pool.average))
  costBasisQuote := .printed (num (fill.lot.quantity * pool.average))

section Pool

variable {state : TTState} {pool : CostPool ℚ} {fill : PositiveFill}

theorem Tracks.schema (tracks : Tracks state pool) : isCurrentSchema state = true := by
  cases tracks with
  | flat flat _ => exact flat.schema
  | held held => exact held.schema

theorem Tracks.quantity_nonneg (tracks : Tracks state pool) : 0 ≤ pool.quantity := by
  cases tracks with
  | flat _ empty => simp [empty, CostPool.empty]
  | held held => exact held.quantity_pos.le

theorem Tracks.heldCost (tracks : Tracks state pool) : heldCost state = num pool.cost := by
  cases tracks with
  | flat flat empty =>
      simp [TrailingTrade.heldCost, flat.avgEntryPrice, empty, CostPool.empty]
  | held held =>
      simp [TrailingTrade.heldCost, held.avgEntryPrice, held.heldQuantity, amount,
        average_mul held.quantity_pos.ne']

theorem Tracks.reads (tracks : Tracks state pool) :
    ∃ prevLbp, Reads (readPosition state) (num pool.quantity) prevLbp := by
  cases tracks with
  | flat flat empty => exact ⟨none, by rw [flat.readPosition, empty]; exact reads_empty⟩
  | held held => exact ⟨some (num pool.average), by rw [held.readPosition]; exact reads_printed _ _⟩

theorem Tracks.adopt_buy (tracks : Tracks state pool) (hbuy : fill.side = .buy) :
    adoptFill state fill.raw = .ok (bought state (pool.buy fill.lot)) := by
  have hschema := tracks.schema
  have hfill := fill.quantity_pos
  have hresolved : resolveFill (readPosition state) fill.raw none none =
      .ok (.buy (.printed (num (pool.buy fill.lot).average))
        (.printed (num (pool.buy fill.lot).quantity))) := by
    rw [PositiveFill.raw, hbuy]
    cases tracks with
    | flat flat empty =>
        rw [flat.readPosition, resolveFill_buy_fresh reads_empty, empty]
        simp [CostPool.empty, buy, average, Lot.paid, hfill.ne']
    | held held =>
        rw [held.readPosition,
          resolveFill_buy_add (reads_printed _ _) held.quantity_pos hfill,
          average_mul held.quantity_pos.ne']
        rfl
  simp [adoptFill, hresolved, applyFill, hschema, bought, bind, Except.bind, pure, Except.pure]

theorem Tracks.bought (tracks : Tracks state pool) (fill : PositiveFill) :
    Tracks (bought state (pool.buy fill.lot)) (pool.buy fill.lot) :=
  .held
    { schema := tracks.schema
      avgEntryPrice := rfl
      heldQuantity := rfl
      quantity_pos := add_pos_of_nonneg_of_pos tracks.quantity_nonneg fill.quantity_pos }

/-- A sale that is covered leaves the pool less its share. -/
theorem Tracks.adopt_sell (tracks : Tracks state pool) (hsell : fill.side = .sell)
    (hle : fill.lot.quantity ≤ pool.quantity) :
    ∃ next, adoptFill state fill.raw = .ok next ∧ Tracks next (pool.sell fill.lot.quantity) := by
  have hschema := tracks.schema
  have hpos : 0 < pool.quantity := fill.quantity_pos.trans_le hle
  obtain ⟨prevLbp, reads⟩ := tracks.reads
  have hresolved := resolveFill_sell reads fill.lot.price fill.lot.quantity
  rw [adoptFill, PositiveFill.raw, hsell, hresolved]
  cases tracks with
  | flat _ empty => simp [empty, CostPool.empty] at hpos
  | held held =>
      by_cases hleft : pool.quantity - fill.lot.quantity ≤ 0
      · -- a covered sale that leaves nothing sold all of it
        have hall : fill.lot.quantity = pool.quantity := by linarith
        have happly : applyFill state .empty = some (clearPositionScopedFields
            { flattened state with heldQuantity := none, currentGridTradeIndex := none }) := by
          simp [applyFill, hschema, held.avgEntryPrice]
        rw [if_pos hleft, hall, sell_all hpos.ne']
        exact ⟨_, congrArg Except.ok (congrArg (Option.getD · state) happly),
          .flat ⟨hschema, rfl, rfl⟩ rfl⟩
      · have hrest : 0 < pool.quantity - fill.lot.quantity := not_le.mp hleft
        have happly (left : DecimalString) :
            applyFill state (.sellReduce left) = some { state with heldQuantity := some left } := by
          simp [applyFill, hschema]
        rw [if_neg hleft]
        refine ⟨_, congrArg Except.ok (congrArg (Option.getD · state) (happly _)),
          .held ⟨hschema, ?_, rfl, hrest⟩⟩
        rw [average_sell hpos.ne' hrest.ne']
        exact held.avgEntryPrice

theorem Tracks.realized (tracks : Tracks state pool) (fill : PositiveFill)
    (hle : fill.lot.quantity ≤ pool.quantity) :
    realizedPnlOnSell (readPosition state) fill.raw.quantity
        (fill.raw.price.mul fill.raw.quantity) =
      .ok (some (shareOf pool fill)) := by
  have hpos : 0 < pool.quantity := fill.quantity_pos.trans_le hle
  cases tracks with
  | flat _ empty => simp [empty, CostPool.empty] at hpos
  | held held =>
      rw [held.readPosition]
      exact realizedPnlOnSell_matched fill.quantity_pos hle

end Pool

/-! ### Runs of fills -/

/-- The sums of a run that has taken the position to `pool`. -/
structure Keeps (book : FillBook) (pool : CostPool ℚ) (fills : List PositiveFill) : Prop where
  tracks : Tracks book.state pool
  consumed : totalOf (·.costBasisQuote) book.booked = num (quoteOf .buy fills - pool.cost)
  realized : totalOf (·.realizedPnl) book.booked =
    num (quoteOf .sell fills - (quoteOf .buy fills - pool.cost))

theorem Keeps.conserves {book : FillBook} {pool : CostPool ℚ} {fills : List PositiveFill}
    (keeps : Keeps book pool fills) : Conserves book fills where
  cost := by rw [keeps.tracks.heldCost, keeps.consumed, add_num, add_sub_cancel]
  profit := by rw [keeps.realized, keeps.consumed, sub_num]

theorem totalOf_append (field : RealizedPnl → DecimalString) (booked : List (Option RealizedPnl))
    (pnl : RealizedPnl) :
    totalOf field (booked ++ [some pnl]) = (totalOf field booked).add (amount (field pnl)) := by
  simp [totalOf]

theorem quoteOf_append (side : OrderSide) (fills : List PositiveFill) (fill : PositiveFill) :
    quoteOf side (fills ++ [fill]) =
      quoteOf side fills + if fill.side = side then fill.quote else 0 := by
  by_cases h : fill.side = side <;> simp [quoteOf, h]

section Step

variable {book : FillBook} {pool : CostPool ℚ} {done rest : List PositiveFill} {fill : PositiveFill}

/-- A buy adds what it pays to the pool's cost. -/
theorem Keeps.buy (keeps : Keeps book pool done) (hbuy : fill.side = .buy) :
    ∃ next, foldFill book fill = .ok next ∧ Keeps next (pool.buy fill.lot) (done ++ [fill]) := by
  refine ⟨⟨bought book.state (pool.buy fill.lot), book.booked⟩, ?_,
    keeps.tracks.bought fill, ?_, ?_⟩
  · simp [foldFill, hbuy, keeps.tracks.adopt_buy hbuy, bind, Except.bind, pure, Except.pure]
  · rw [keeps.consumed, quoteOf_append, if_pos hbuy]
    simp only [CostPool.buy, PositiveFill.quote]
    congr 1
    ring
  · rw [keeps.realized, quoteOf_append, quoteOf_append, if_pos hbuy, hbuy]
    simp [CostPool.buy, PositiveFill.quote]

/-- A covered sale books its share of the pool's cost. -/
theorem Keeps.sell (keeps : Keeps book pool done) (hsell : fill.side = .sell)
    (hle : fill.lot.quantity ≤ pool.quantity) :
    ∃ next, foldFill book fill = .ok next ∧
      Keeps next (pool.sell fill.lot.quantity) (done ++ [fill]) := by
  obtain ⟨state, hadopt, htracks⟩ := keeps.tracks.adopt_sell hsell hle
  refine ⟨⟨state, book.booked ++ [some (shareOf pool fill)]⟩, ?_, htracks, ?_, ?_⟩
  · simp only [foldFill, hsell, keeps.tracks.realized fill hle, hadopt, bind, Except.bind, pure,
      Except.pure]
  · rw [totalOf_append, keeps.consumed, quoteOf_append, hsell]
    simp [amount, CostPool.sell, shareOf]
    ring
  · rw [totalOf_append, keeps.realized, quoteOf_append, quoteOf_append, hsell]
    simp [amount, CostPool.sell, shareOf]
    ring

/-- Whatever prefix of a covered sequence is folded, the sums are kept. -/
theorem Keeps.run {next : List PositiveFill} (keeps : Keeps book pool done)
    (hcovered : Covered pool.quantity rest) (hnext : next <+: rest) :
    ∃ book' pool', foldFills book next = .ok book' ∧ Keeps book' pool' (done ++ next) := by
  induction next generalizing book pool done rest with
  | nil => exact ⟨book, pool, rfl, by simpa using keeps⟩
  | cons fill next ih =>
      obtain ⟨tail, rfl⟩ := hnext
      have hprefix : next <+: next ++ tail := List.prefix_append next tail
      rw [List.cons_append, Covered] at hcovered
      cases hside : fill.side with
      | buy =>
          rw [hside] at hcovered
          obtain ⟨mid, hstep, hmid⟩ := keeps.buy hside
          obtain ⟨book', pool', hrun, hkeeps⟩ := ih hmid hcovered hprefix
          refine ⟨book', pool', ?_, by simpa using hkeeps⟩
          rw [foldFills, List.foldlM_cons, hstep]
          exact hrun
      | sell =>
          rw [hside] at hcovered
          obtain ⟨mid, hstep, hmid⟩ := keeps.sell hside hcovered.1
          obtain ⟨book', pool', hrun, hkeeps⟩ := ih hmid hcovered.2 hprefix
          refine ⟨book', pool', ?_, by simpa using hkeeps⟩
          rw [foldFills, List.foldlM_cons, hstep]
          exact hrun

end Step

/-! ### Buys folded one at a time, or at once -/

/-- Adopt fills one at a time. -/
def adoptFills (state : TTState) (fills : List PositiveFill) : Except String TTState :=
  fills.foldlM (fun state fill => adoptFill state fill.raw) state

theorem sum_pos_of_fills {fills : List PositiveFill} (hne : fills ≠ []) {value : PositiveFill → ℚ}
    (hvalue : ∀ fill, 0 < value fill) : 0 < (fills.map value).sum := by
  induction fills with
  | nil => exact absurd rfl hne
  | cons fill rest ih =>
      rw [List.map_cons, List.sum_cons]
      by_cases hrest : rest = []
      · simpa [hrest] using hvalue fill
      · exact add_pos (hvalue fill) (ih hrest)

/-- Buys as one buy of their combined quantity at their volume-weighted average price. -/
def combinedBuy (buys : List PositiveFill) (hne : buys ≠ []) : PositiveFill where
  side := .buy
  lot := combine (buys.map PositiveFill.lot)
  price_pos := by
    simp only [combine, List.map_map]
    exact div_pos (sum_pos_of_fills hne fun fill => mul_pos fill.price_pos fill.quantity_pos)
      (sum_pos_of_fills hne fun fill => fill.quantity_pos)
  quantity_pos := by
    simp only [combine, List.map_map]
    exact sum_pos_of_fills hne fun fill => fill.quantity_pos

theorem adoptFills_buys {state : TTState} {pool : CostPool ℚ} {buys : List PositiveFill}
    (tracks : Tracks state pool) (hbuys : ∀ fill ∈ buys, fill.side = .buy) (hne : buys ≠ []) :
    adoptFills state buys =
      .ok (bought state ((buys.map PositiveFill.lot).foldl CostPool.buy pool)) := by
  induction buys generalizing state pool with
  | nil => exact absurd rfl hne
  | cons fill rest ih =>
      rw [adoptFills, List.foldlM_cons, tracks.adopt_buy (hbuys fill List.mem_cons_self)]
      by_cases hrest : rest = []
      · subst hrest
        rfl
      · have htail := ih (tracks.bought fill)
          (fun buy hmem => hbuys buy (List.mem_cons_of_mem fill hmem)) hrest
        -- a later buy overwrites every field an earlier one wrote
        exact htail

/-- Folding buys one at a time, in any order, is folding the combined buy. -/
theorem adoptFills_combined {state : TTState} {pool : CostPool ℚ} {buys order : List PositiveFill}
    (tracks : Tracks state pool) (hbuys : ∀ fill ∈ buys, fill.side = .buy) (hne : buys ≠ [])
    (hperm : buys.Perm order) :
    ∃ next, adoptFills state order = .ok next ∧
      adoptFill state (combinedBuy buys hne).raw = .ok next := by
  have horder : order ≠ [] := by
    rintro rfl
    exact hne hperm.eq_nil
  have hsum : ((buys.map PositiveFill.lot).map Lot.quantity).sum ≠ 0 := by
    rw [List.map_map]
    exact (sum_pos_of_fills hne fun fill => fill.quantity_pos).ne'
  refine ⟨_, adoptFills_buys tracks (fun fill hmem => hbuys fill (hperm.mem_iff.mpr hmem)) horder,
    ?_⟩
  rw [tracks.adopt_buy rfl]
  simp only [combinedBuy]
  rw [buy_combine pool _ hsum, foldl_buy_perm pool _ (hperm.map PositiveFill.lot)]

/-- Over every covered sequence of fills from a flat position the cost is conserved after every
prefix, and from there any buys fold as their combined buy does, in any order. -/
theorem fills_conserve_cost (start : TTState) (fills done : List PositiveFill)
    (flat : Flat start) (hcovered : Covered 0 fills) (hdone : done <+: fills) :
    ∃ book, foldFills ⟨start, []⟩ done = .ok book ∧ Conserves book done ∧
      ∀ (buys order : List PositiveFill) (hne : buys ≠ []),
        (∀ fill ∈ buys, fill.side = .buy) → buys.Perm order →
          ∃ next, adoptFills book.state order = .ok next ∧
            adoptFill book.state (combinedBuy buys hne).raw = .ok next := by
  have hstart : Keeps ⟨start, []⟩ CostPool.empty [] :=
    ⟨.flat flat rfl, by simp [totalOf, quoteOf, CostPool.empty],
      by simp [totalOf, quoteOf, CostPool.empty]⟩
  obtain ⟨book, pool, hrun, hkeeps⟩ := hstart.run hcovered hdone
  rw [List.nil_append] at hkeeps
  refine ⟨book, hrun, hkeeps.conserves, ?_⟩
  intro buys order hne hbuys hperm
  exact adoptFills_combined hkeeps.tracks hbuys hne hperm

/-- The sequence of two buys, a partial sale and the rest sold off. -/
def sampleFills : List PositiveFill :=
  [⟨.buy, ⟨100, 1⟩, by norm_num, by norm_num⟩, ⟨.buy, ⟨120, 3⟩, by norm_num, by norm_num⟩,
    ⟨.sell, ⟨130, 2⟩, by norm_num, by norm_num⟩, ⟨.sell, ⟨110, 2⟩, by norm_num, by norm_num⟩]

theorem fills_conserve_cost_sample :
    ∃ book, foldFills ⟨initialTTState, []⟩ sampleFills = .ok book ∧ Conserves book sampleFills := by
  obtain ⟨book, hrun, hconserves, -⟩ :=
    fills_conserve_cost initialTTState sampleFills sampleFills ⟨rfl, rfl, rfl⟩
      (by simp only [sampleFills, Covered]; norm_num) (List.prefix_refl _)
  exact ⟨book, hrun, hconserves⟩

end TradingBot.TrailingTrade
