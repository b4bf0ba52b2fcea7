import TradingBot.TrailingTrade.Lifecycle
import TradingBot.Worker.WalletReconcile

/-!
# Replaying an adopted fill

After its transaction an adoption converges the strategy state on the ledger.
The exchange repeats reports after a reconnect, and a report that is already
applied runs the convergence again, from the row as its columns then read: with
eighteen decimals each. The runs are those of one profile on one symbol: ticks,
adoptions, and adoptions that crash before the state is written.
-/

namespace TradingBot.Worker

open Decimal TrailingTrade EarlyExit

/-! ### The columns -/

/-- What a `numeric(38,18)` column holds of a number: eighteen decimals, twenty digits before. -/
def storeColumn (value : Decimal) : Except String Decimal :=
  match value.toDecimalPlaces 18 with
  | num q => if |q| < 10 ^ 20 then .ok (num q) else .error "numeric field overflow"
  | x => .ok x

def storeRow : Option AvgEntryRow → Except String (Option AvgEntryRow)
  | none => return none
  | some row => do
      return some ⟨← storeColumn row.avgEntryPrice, ← storeColumn row.quantity⟩

/-- Only a first application writes the row. -/
def writtenRow (isFirstApply : Bool) (row : Option AvgEntryRow) :
    Except String (Option AvgEntryRow) :=
  if isFirstApply then storeRow row else return row

/-- The text such a column reads back as. -/
def columnText : Decimal → DecimalString
  | num q =>
      let body := plainDigits |q| 18
      .raw (String.ofList (if q < 0 then '-' :: body else body))
  | x => .printed x

/-! ### Converging the state -/

/-- What an adoption asks of the strategy state. -/
inductive FillResolution where
  | set (side : OrderSide) (lbp qty : DecimalString)
  | clear (side : OrderSide)
  | noop

def buyResolution (row : Option AvgEntryRow) (event : FillEvent) (isFirstApply : Bool) :
    Except String FillResolution :=
  if isFirstApply then do
    let fillAvgPrice := (num event.cumQuoteQty).div (num event.cumQty)
    let adopted ← resolveFill (row.map (·.view)) ⟨.buy, fillAvgPrice, num event.cumQty⟩ none none
    match adopted with
    | .buy avgEntryPrice heldQuantity => return .set .buy avgEntryPrice heldQuantity
    -- the fold of a buy is a buy
    | _ => return .noop
  else
    match row with
    | none => return .noop
    | some existing =>
        return .set .buy (columnText existing.avgEntryPrice) (columnText existing.quantity)

def sellResolution (row : Option AvgEntryRow) (event : FillEvent) (isFirstApply : Bool)
    (filters : SellFilters) : Except String FillResolution :=
  match row with
  | none => return .clear .sell
  | some existing =>
      if isFirstApply then do
        let sellVwap :=
          if 0 < event.cumQty then (num event.cumQuoteQty).div (num event.cumQty) else num 0
        let adopted ← resolveFill (some existing.view) ⟨.sell, sellVwap, num event.cumQty⟩
          filters.stepSize filters.minNotional
        match adopted with
        | .sellReduce heldQuantity =>
            return .set .sell (columnText existing.avgEntryPrice) heldQuantity
        | _ => return .clear .sell
      else if existing.quantity.lte (num 0) then return .clear .sell
      else return .set .sell (columnText existing.avgEntryPrice) (columnText existing.quantity)

def resolveState (row : Option AvgEntryRow) (event : FillEvent) (isFirstApply : Bool)
    (filters : SellFilters) : Except String FillResolution :=
  match event.side with
  | .buy => buyResolution row event isFirstApply
  | .sell => sellResolution row event isFirstApply filters

def applyResolution (state : TTState) : FillResolution → TTState
  | .noop => state
  | .clear _ => mutated (applyFill · .empty) state
  | .set .sell _ qty => mutated (applyFill · (.sellReduce qty)) state
  | .set .buy lbp qty => mutated (applyFill · (.buy lbp qty)) state

/-! ### The whole adoption -/

/-- The wallet quantity of a buy: less the commission taken in the base asset, where that leaves
something. -/
def netBuyQuantity (gross : ℚ) (baseCommission : Option ℚ) : ℚ :=
  match baseCommission with
  | none => gross
  | some charged => if charged ≤ 0 ∨ gross - charged ≤ 0 then gross else gross - charged

/-- The report with the quantity the wallet was credited. -/
def credited (event : FillEvent) (baseCommission : Option ℚ) : FillEvent :=
  match event.side with
  | .buy => { event with cumQty := netBuyQuantity event.cumQty baseCommission }
  | .sell => event

/-- The reports an adoption gets past its guards with. -/
def adoptable (event : FillEvent) : Bool :=
  event.orderStatus == "FILLED" && decide (0 < event.cumQty) && decide (0 < event.cumQuoteQty) &&
    event.tradeId != 0 && event.orderId != 0

/-- The ledger and the strategy state of a symbol. The converged reports are those whose adoption
ran to its end; nothing reads them. -/
structure Adoption where
  ledger : Ledger
  state : TTState
  converged : List FillEvent
deriving DecidableEq

def adoptEvent (s : Adoption) (event : FillEvent) (filters : SellFilters)
    (baseCommission : Option ℚ) : Except String Adoption :=
  if !adoptable event then return s
  else do
    let isFirstApply := !s.ledger.appliedFills.contains (event.orderId, event.tradeId)
    let ledger ← recordFill s.ledger (credited event baseCommission) filters
    let row ← writtenRow isFirstApply ledger.row
    let resolution ← resolveState s.ledger.row (credited event baseCommission) isFirstApply filters
    return { ledger := { ledger with row }
             state := applyResolution s.state resolution
             converged := event :: s.converged }

/-! ### Runs -/

def Adoption.start (body : TTState) : Adoption := ⟨⟨[], none, []⟩, body, []⟩

/-- One step: a tick, an adoption, or one that crashes after its transaction. -/
inductive AdoptionStep : Adoption → Adoption → Prop where
  | tick {s : Adoption} (input : TTInput) (output : TTOutput) (state_eq : input.state = s.state)
      (tick_eq : computeTick input = .ok output) :
      AdoptionStep s { s with state := output.nextState }
  | adopted {s next : Adoption} (event : FillEvent) (filters : SellFilters)
      (baseCommission : Option ℚ)
      (adopt_eq : adoptEvent s event filters baseCommission = .ok next) :
      AdoptionStep s next
  | crashed {s next : Adoption} (event : FillEvent) (filters : SellFilters)
      (baseCommission : Option ℚ)
      (adopt_eq : adoptEvent s event filters baseCommission = .ok next) :
      AdoptionStep s { s with ledger := next.ledger }

/-- The runs of a profile on a symbol, from any body over an empty ledger. -/
def Adoption.Reached (s : Adoption) : Prop :=
  ∃ body, Relation.ReflTransGen AdoptionStep (.start body) s

/-! ### What a replay does -/

section Replay

variable {s next : Adoption} {event : FillEvent} {filters : SellFilters}
  {baseCommission : Option ℚ}

@[simp] theorem credited_orderId (event : FillEvent) (baseCommission : Option ℚ) :
    (credited event baseCommission).orderId = event.orderId := by
  unfold credited
  split <;> rfl

@[simp] theorem credited_tradeId (event : FillEvent) (baseCommission : Option ℚ) :
    (credited event baseCommission).tradeId = event.tradeId := by
  unfold credited
  split <;> rfl

@[simp] theorem credited_side (event : FillEvent) (baseCommission : Option ℚ) :
    (credited event baseCommission).side = event.side := by
  unfold credited
  split <;> rfl

theorem adoptEvent_ledger (h : adoptEvent s event filters baseCommission = .ok next)
    (hadoptable : adoptable event = true) :
    (∃ ledger, recordFill s.ledger (credited event baseCommission) filters = .ok ledger ∧
      next.ledger.appliedFills = ledger.appliedFills) ∧
      next.converged = event :: s.converged := by
  rw [adoptEvent, if_neg (by simp [hadoptable])] at h
  dsimp only at h
  obtain ⟨ledger, hledger, h⟩ := exists_ok_of_bind h
  obtain ⟨row, -, h⟩ := exists_ok_of_bind h
  obtain ⟨resolution, -, h⟩ := exists_ok_of_bind h
  cases h
  exact ⟨⟨ledger, hledger, rfl⟩, rfl⟩

theorem adoptEvent_skipped (h : adoptEvent s event filters baseCommission = .ok next)
    (hskipped : adoptable event = false) : next = s := by
  rw [adoptEvent, if_pos (by simp [hskipped])] at h
  cases h
  rfl

theorem recordFill_applied {ledger after : Ledger} {event : FillEvent}
    (h : recordFill ledger event filters = .ok after) :
    (event.orderId, event.tradeId) ∈ after.appliedFills ∧
      ∀ key ∈ ledger.appliedFills, key ∈ after.appliedFills := by
  rw [recordFill] at h
  obtain ⟨row, -, h⟩ := exists_ok_of_bind h
  cases h
  by_cases hknown : ledger.appliedFills.contains (event.orderId, event.tradeId) = true
  · simp only [hknown, Bool.not_true, Bool.false_eq_true, if_false]
    exact ⟨List.contains_iff_mem.mp hknown, fun _ hkey => hkey⟩
  · simp only [hknown, Bool.not_false, if_true]
    exact ⟨by simp, fun _ hkey => List.mem_append_left _ hkey⟩

/-- A transaction that is repeated changes nothing. -/
theorem recordFill_replay {ledger : Ledger} {event : FillEvent}
    (happlied : (event.orderId, event.tradeId) ∈ ledger.appliedFills) :
    recordFill ledger event filters = .ok ledger := by
  have hknown : ledger.appliedFills.contains (event.orderId, event.tradeId) = true :=
    List.contains_iff_mem.mpr happlied
  have hrow : resolveRow ledger.row event false filters = .ok ledger.row := by
    unfold resolveRow
    split
    · rfl
    · cases hexisting : ledger.row <;> rfl
  have hfolds : foldsFill ledger event = false := by simp [foldsFill, happlied]
  rw [recordFill]
  simp only [hknown, Bool.not_true, hrow, hfolds]
  rfl

/-- What a repeated report asks of the state. -/
def replayResolution (row : Option AvgEntryRow) : OrderSide → FillResolution
  | .buy =>
      match row with
      | none => .noop
      | some existing =>
          .set .buy (columnText existing.avgEntryPrice) (columnText existing.quantity)
  | .sell =>
      match row with
      | none => .clear .sell
      | some existing =>
          if existing.quantity.lte (num 0) then .clear .sell
          else .set .sell (columnText existing.avgEntryPrice) (columnText existing.quantity)

theorem resolveState_replay (row : Option AvgEntryRow) (event : FillEvent) (filters : SellFilters) :
    resolveState row event false filters = .ok (replayResolution row event.side) := by
  unfold resolveState replayResolution
  cases event.side with
  | buy => cases row <;> rfl
  | sell =>
      cases row with
      | none => rfl
      | some existing =>
          simp only [sellResolution, Bool.false_eq_true, if_false]
          split <;> rfl

/-- A repeated adoption leaves the ledger and converges the state on its row. -/
theorem adoptEvent_replay (hadoptable : adoptable event = true)
    (happlied : (event.orderId, event.tradeId) ∈ s.ledger.appliedFills) :
    adoptEvent s event filters baseCommission = .ok
      { ledger := s.ledger
        state := applyResolution s.state (replayResolution s.ledger.row event.side)
        converged := event :: s.converged } := by
  have hknown : s.ledger.appliedFills.contains (event.orderId, event.tradeId) = true :=
    List.contains_iff_mem.mpr happlied
  have hrecord : recordFill s.ledger (credited event baseCommission) filters = .ok s.ledger :=
    recordFill_replay (by simpa using happlied)
  have hresolve := resolveState_replay s.ledger.row (credited event baseCommission) filters
  rw [credited_side] at hresolve
  rw [adoptEvent, if_neg (by simp [hadoptable])]
  simp only [hknown, Bool.not_true, hrecord, hresolve]
  rfl

end Replay

/-! ### Replays along a run -/

section Runs

variable {s next : Adoption} {event : FillEvent}

/-- Every converged report got past the guards, and its fill is applied. -/
def Adoption.Recorded (s : Adoption) : Prop :=
  ∀ event ∈ s.converged,
    adoptable event = true ∧ (event.orderId, event.tradeId) ∈ s.ledger.appliedFills

theorem recorded_start (body : TTState) : (Adoption.start body).Recorded := by
  intro event hevent
  cases hevent

theorem recorded_adopted {filters : SellFilters} {baseCommission : Option ℚ} (h : s.Recorded)
    (hadopt : adoptEvent s event filters baseCommission = .ok next) :
    next.Recorded ∧ { s with ledger := next.ledger }.Recorded := by
  cases hadoptable : adoptable event with
  | false =>
      rw [adoptEvent_skipped hadopt hadoptable]
      exact ⟨h, h⟩
  | true =>
      obtain ⟨⟨ledger, hrecord, happlied⟩, hconverged⟩ := adoptEvent_ledger hadopt hadoptable
      obtain ⟨hown, hkept⟩ := recordFill_applied hrecord
      rw [credited_orderId, credited_tradeId, ← happlied] at hown
      rw [← happlied] at hkept
      have hbefore : ∀ other ∈ s.converged, adoptable other = true ∧
          (other.orderId, other.tradeId) ∈ next.ledger.appliedFills := by
        intro other hother
        exact ⟨(h other hother).1, hkept _ (h other hother).2⟩
      refine ⟨?_, hbefore⟩
      intro other hother
      rw [hconverged] at hother
      rcases List.mem_cons.mp hother with rfl | hother
      · exact ⟨hadoptable, hown⟩
      · exact hbefore other hother

theorem recorded_step (h : s.Recorded) (hstep : AdoptionStep s next) : next.Recorded := by
  cases hstep with
  | tick input output state_eq tick_eq => exact h
  | adopted event filters baseCommission adopt_eq => exact (recorded_adopted h adopt_eq).1
  | crashed event filters baseCommission adopt_eq => exact (recorded_adopted h adopt_eq).2

theorem recorded_of_reached (h : s.Reached) : s.Recorded := by
  obtain ⟨body, hrun⟩ := h
  induction hrun with
  | refl => exact recorded_start body
  | tail _ hstep ih => exact recorded_step ih hstep

/-- An exit leaves no position, and every field but the position's. -/
structure Exited (before after : TTState) : Prop where
  avgEntryPrice : after.avgEntryPrice = none
  highSinceBuy : after.highSinceBuy = none
  heldQuantity : after.heldQuantity = none
  unblocked : hasPositionScopedFieldSet after = false
  kept : after = before ∨ after = clearPositionScopedFields
    { flattened before with heldQuantity := none, currentGridTradeIndex := none }

/--
What a repeated report makes of the state, given the row. The high and the
break-even arm of a position a buy converges on are left open.
-/
inductive Converged (row : Option AvgEntryRow) (side : OrderSide) (before after : TTState) : Prop
  /-- A body of another schema version is left to its migration. -/
  | foreign (schema : isCurrentSchema before = false) (same : after = before)
  /-- A buy whose row a sale has emptied since. -/
  | gone (buys : side = .buy) (row_eq : row = none) (same : after = before)
  | bought (existing : AvgEntryRow) (buys : side = .buy) (row_eq : row = some existing)
      (position : ∃ high armed, after = { before with
        avgEntryPrice := some (columnText existing.avgEntryPrice)
        heldQuantity := some (columnText existing.quantity)
        highSinceBuy := high
        breakEvenArmed := armed })
  /-- A sale touches neither the high nor the arm of the position that is left. -/
  | reduced (existing : AvgEntryRow) (sells : side = .sell) (row_eq : row = some existing)
      (position : after = { before with heldQuantity := some (columnText existing.quantity) })
  | emptied (sells : side = .sell)
      (row_eq : ∀ existing, row = some existing → existing.quantity.lte (num 0) = true)
      (position : Exited before after)

theorem exited_emptied {state : TTState} (hschema : isCurrentSchema state = true) :
    Exited state (mutated (applyFill · .empty) state) := by
  rw [mutated, applyFill, if_neg (by simp [hschema])]
  dsimp only
  split
  · next hempty =>
      simp only [Bool.and_eq_true, Option.isNone_iff_eq_none, Bool.not_eq_true'] at hempty
      exact ⟨hempty.1.1.1, hempty.1.1.2, hempty.1.2, hempty.2, .inl rfl⟩
  · exact ⟨rfl, rfl, rfl, rfl, .inr rfl⟩

/-- A body of another schema version is left to its migration. -/
theorem applyResolution_foreign {state : TTState} (hschema : isCurrentSchema state = false)
    (resolution : FillResolution) : applyResolution state resolution = state := by
  have hkept : ∀ fill, mutated (applyFill · fill) state = state := by
    intro fill
    simp [mutated, applyFill, hschema]
  cases resolution with
  | set side lbp qty => cases side <;> exact hkept _
  | clear side => exact hkept _
  | noop => rfl

theorem converged_replay (state : TTState) (row : Option AvgEntryRow) (side : OrderSide) :
    Converged row side state (applyResolution state (replayResolution row side)) := by
  cases hschema : isCurrentSchema state with
  | false => exact .foreign hschema (applyResolution_foreign hschema _)
  | true =>
      cases side with
      | buy =>
          cases row with
          | none => exact .gone rfl rfl rfl
          | some existing =>
              refine .bought existing rfl rfl ⟨none, false, ?_⟩
              simp [replayResolution, applyResolution, mutated, applyFill, hschema]
      | sell =>
          cases row with
          | none => exact .emptied rfl nofun (exited_emptied hschema)
          | some existing =>
              unfold replayResolution
              dsimp only
              split
              · next hnothing =>
                  refine .emptied rfl ?_ (exited_emptied hschema)
                  rintro _ ⟨⟩
                  exact hnothing
              · refine .reduced existing rfl rfl ?_
                simp [applyResolution, mutated, applyFill, hschema]

/-- Converging again on the same row changes nothing more. -/
theorem applyResolution_replay_idem (state : TTState) (row : Option AvgEntryRow)
    (side : OrderSide) :
    applyResolution (applyResolution state (replayResolution row side))
        (replayResolution row side) =
      applyResolution state (replayResolution row side) := by
  have hidem : ∀ fill, mutated (applyFill · fill) (mutated (applyFill · fill) state) =
      mutated (applyFill · fill) state := by
    intro fill
    cases hschema : isCurrentSchema state with
    | false => simp [mutated, applyFill, hschema]
    | true =>
        have hversion : state.schemaVersion = ttStateSchemaVersion := by
          simpa [isCurrentSchema] using hschema
        cases fill with
        | buy avgEntryPrice heldQuantity => simp [mutated, applyFill, isCurrentSchema, hversion]
        | sellReduce heldQuantity => simp [mutated, applyFill, isCurrentSchema, hversion]
        | empty =>
            have hexit := exited_emptied hschema
            obtain ⟨havg, hhigh, hheld, hunblocked, -⟩ := hexit
            generalize mutated (applyFill · .empty) state = emptied at havg hhigh hheld hunblocked ⊢
            simp [mutated, applyFill, havg, hhigh, hheld, hunblocked]
  generalize replayResolution row side = resolution
  cases resolution with
  | set side lbp qty => cases side <;> exact hidem _
  | clear side => exact hidem _
  | noop => rfl

/-- The report of a buy of one coin at 100. -/
def boughtEvent : FillEvent where
  orderId := 1
  tradeId := 1
  orderStatus := "FILLED"
  side := .buy
  cumQty := 1
  cumQuoteQty := 100

/-- The fresh profile once the buy is adopted. -/
def boughtAdoption : Adoption where
  ledger := ⟨[(1, 1)], some ⟨num 100, num 1⟩, [(1, 1)]⟩
  state :=
    { initialTTState with
      avgEntryPrice := some (.printed (num 100))
      heldQuantity := some (.printed (num 1)) }
  converged := [boughtEvent]

def noFilters : SellFilters := ⟨none, none⟩

theorem boughtAdoption_reached : boughtAdoption.Reached := by
  refine ⟨initialTTState, .single (.adopted boughtEvent noFilters none ?_)⟩
  decide +kernel

/-- The report of a buy of three coins for ten quote. -/
def thirdsEvent : FillEvent := { boughtEvent with cumQty := 3, cumQuoteQty := 10 }

/-- The tick at 120 that raises the high of the bought coin. -/
def raisedInput : TTInput := sampleInput sampleConfig boughtAdoption.state "120" 1

end Runs

end TradingBot.Worker
