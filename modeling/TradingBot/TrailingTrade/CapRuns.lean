import TradingBot.Lib.LabelledRun
import TradingBot.TrailingTrade.FillConservation
import TradingBot.TrailingTrade.PositionKept
import TradingBot.TrailingTrade.TickActs

/-!
# The caps of a symbol over whole runs

A profile may cap what it has deployed in a symbol, and what it would lose of
it at its stop. Both are asked before a rung or an add is sent, at the price of
that tick and over the position the state knows of. The runs below send, fill
and adopt in any order: a buy that fills at no more than the price it was judged
at, that no other buy has overtaken, and that is adopted onto a position whose
cost is known, leaves the position within its caps.
-/

namespace TradingBot.TrailingTrade

open Decimal EarlyExit LabelledRun

variable {config : TTConfig} {state : TTState}

/-! ### The caps -/

/-- The stop bounds a loss: the sell side is on, and the stop is a share of the cost. -/
structure ActiveStop (config : TTConfig) (stop : ℚ) : Prop where
  enabled : config.sell.enabled = true
  reads : parse config.sell.stopLossPercentage = some (num stop)
  pos : 0 < stop
  le_one : stop ≤ 1

structure WithinSymbolCaps (config : TTConfig) (cost : ℚ) : Prop where
  exposure : ∀ cap, 0 < cap → parse config.buy.maxSymbolExposureQuote = some (num cap) →
    cost ≤ cap
  stopped : ∀ cap stop, 0 < cap → parse config.buy.maxPositionLossQuote = some (num cap) →
    ActiveStop config stop → cost * (1 - stop) ≤ cap
  unstopped : ∀ cap, 0 < cap → parse config.buy.maxPositionLossQuote = some (num cap) →
    (∀ stop, ¬ ActiveStop config stop) → cost ≤ cap

/-- What the body holds is within the caps of its symbol. -/
def Capped (config : TTConfig) (state : TTState) : Prop :=
  ∃ cost, heldCost state = num cost ∧ WithinSymbolCaps config cost

theorem WithinSymbolCaps.mono {cost cost' : ℚ} (h : WithinSymbolCaps config cost)
    (hle : cost' ≤ cost) : WithinSymbolCaps config cost' where
  exposure cap hcap hreads := hle.trans (h.exposure cap hcap hreads)
  stopped := by
    intro cap stop hcap hreads hstop
    have hshare : 0 ≤ 1 - stop := sub_nonneg.mpr hstop.le_one
    exact (mul_le_mul_of_nonneg_right hle hshare).trans (h.stopped cap stop hcap hreads hstop)
  unstopped cap hcap hreads hnone := hle.trans (h.unstopped cap hcap hreads hnone)

/-- The share of the cost at risk is what the stop leaves of it, or all of it. -/
theorem lossFraction_of_stop {stop : ℚ} (h : ActiveStop config stop) :
    lossFraction config = num (1 - stop) := by
  simp [lossFraction, h.enabled, h.reads, h.pos, h.le_one]

theorem lossFraction_of_no_stop (h : ∀ stop, ¬ ActiveStop config stop) :
    lossFraction config = num 1 := by
  unfold lossFraction
  cases henabled : config.sell.enabled with
  | false => rfl
  | true =>
      rw [if_pos rfl]
      cases hreads : parse config.sell.stopLossPercentage with
      | none => rfl
      | some stop =>
          cases stop with
          | num stop =>
              have hstop : ¬ (0 < stop ∧ stop ≤ 1) := fun hstop =>
                h stop ⟨henabled, hreads, hstop.1, hstop.2⟩
              dsimp only
              rw [if_neg (by simpa using hstop)]
          | nan => rfl
          | inf negative => cases negative <;> rfl

/-- The caps read the cost of the position as it is. -/
theorem projectedDeployed_of_cost {cost : ℚ} (h : heldCost state = num cost) (added : ℚ) :
    projectedDeployed state (num added) = num (cost + added) := by
  unfold heldCost at h
  unfold projectedDeployed safeDecimal
  split at h
  · next avgEntryPrice heldQuantity havg hheld =>
      rw [havg, hheld]
      -- a text that is no number would have made the cost not a number
      cases hbasis : avgEntryPrice.toDecimal with
      | none => simp [amount, hbasis] at h
      | some basis =>
          cases hquantity : heldQuantity.toDecimal with
          | none => simp [amount, hquantity] at h
          | some quantity =>
              simp only [amount, hbasis, hquantity, Option.getD_some] at h
              simp [hbasis, hquantity, h]
  · next hflat =>
      have hzero : cost = 0 := by simpa using h.symm
      cases havg : state.avgEntryPrice with
      | none => simp [hzero]
      | some avgEntryPrice =>
          cases hheld : state.heldQuantity with
          | none => simp [hzero]
          | some heldQuantity => exact absurd hheld (hflat _ _ havg)

theorem WithinCaps.fits {input : TTInput} {quantity : DecimalString} {cost q price : ℚ}
    (h : WithinCaps input state quantity) (hcost : heldCost state = num cost)
    (hquantity : quantity.toDecimal = some (num q))
    (hprice : parse input.market.currentPrice = some (num price)) :
    WithinSymbolCaps input.config (cost + q * price) := by
  have hprojected := projectedDeployed_of_cost hcost (q * price)
  unfold WithinCaps evaluateRiskCaps at h
  simp only [hprice, hquantity, mul_num, hprojected] at h
  have hexposure : isCapArmed input.config.buy.maxSymbolExposureQuote = true →
      (parse input.config.buy.maxSymbolExposureQuote).any (num (cost + q * price)).gt = false := by
    intro harmed
    simp only [harmed, Bool.not_true, Bool.false_and, Bool.false_eq_true, if_false,
      Bool.true_and] at h
    by_contra hany
    simp [hany] at h
  have hbudget : isCapArmed input.config.buy.maxPositionLossQuote = true →
      (parse input.config.buy.maxPositionLossQuote).any
        ((num (cost + q * price)).mul (lossFraction input.config)).gt = false := by
    intro harmed
    simp only [harmed, Bool.not_true, Bool.false_and, Bool.and_false, Bool.false_eq_true, if_false,
      Bool.true_and] at h
    by_contra hany
    simp [hany] at h
  refine ⟨?_, ?_, ?_⟩
  · intro cap hcap hreads
    simpa [hreads] using hexposure (isCapArmed_of_pos hreads hcap)
  · intro cap stop hcap hreads hstop
    simpa [hreads, lossFraction_of_stop hstop] using hbudget (isCapArmed_of_pos hreads hcap)
  · intro cap hcap hreads hnone
    simpa [hreads, lossFraction_of_no_stop hnone] using hbudget (isCapArmed_of_pos hreads hcap)

/-! ### Positions that read as numbers -/

/-- The body reads as a position: a cost basis and a quantity, where it has them. -/
structure ReadsAs (state : TTState) (basis held : Option ℚ) : Prop where
  schema : isCurrentSchema state = true
  avgEntryPrice : state.avgEntryPrice.map (·.toDecimal) = basis.map fun q => some (num q)
  heldQuantity : state.heldQuantity.map (·.toDecimal) = held.map fun q => some (num q)
  basis_nonneg : 0 ≤ basis.getD 0
  held_nonneg : 0 ≤ held.getD 0

/-- A tick and a sale leave the held quantity, and the cost basis or nothing of it. -/
structure LeavesBasis (before after : TTState) : Prop where
  schemaVersion : after.schemaVersion = before.schemaVersion
  heldQuantity : after.heldQuantity = before.heldQuantity
  avgEntryPrice : after.avgEntryPrice = before.avgEntryPrice ∨ after.avgEntryPrice = none

section Reads

variable {basis held : Option ℚ}

theorem reads_field {text : Option DecimalString} {number : Option ℚ}
    (h : text.map (·.toDecimal) = number.map fun q => some (num q)) :
    (text = none ∧ number = none) ∨
      ∃ t q, text = some t ∧ number = some q ∧ t.toDecimal = some (num q) := by
  cases text with
  | none =>
      cases number with
      | none => exact .inl ⟨rfl, rfl⟩
      | some q => cases h
  | some t =>
      cases number with
      | none => cases h
      | some q => exact .inr ⟨t, q, rfl, rfl, Option.some.inj h⟩

theorem ReadsAs.heldCost (h : ReadsAs state basis held) :
    heldCost state = num (basis.getD 0 * held.getD 0) := by
  rcases reads_field h.avgEntryPrice with ⟨havg, rfl⟩ | ⟨avg, b, havg, rfl, hb⟩
  · simp [TrailingTrade.heldCost, havg]
  · rcases reads_field h.heldQuantity with ⟨hheld, rfl⟩ | ⟨quantity, q, hheld, rfl, hq⟩
    · simp [TrailingTrade.heldCost, havg, hheld]
    · simp [TrailingTrade.heldCost, havg, hheld, amount, hb, hq]

/-- A text that reads is not empty, so the fold reads it too. -/
theorem filled_of_reads {field : PositionView → Option DecimalString} {view : PositionView}
    {number : Option ℚ} (h : (field view).map (·.toDecimal) = number.map fun q => some (num q)) :
    (filled field (some view)).mapM newDecimalString = .ok (number.map num) := by
  rcases reads_field h with ⟨hfield, rfl⟩ | ⟨text, q, hfield, rfl, hq⟩
  · rw [filled, Option.bind_some, hfield]
    rfl
  · have hnonempty : text.isEmpty = false := by
      by_contra hempty
      cases hq.symm.trans (DecimalString.toDecimal_of_isEmpty (Bool.eq_true_of_not_eq_false hempty))
    have hfilled : filled field (some view) = some text := by
      rw [filled, Option.bind_some, hfield, Option.filter_some, if_pos (by simp [hnonempty])]
    have hnew : newDecimalString text = .ok (num q) := by rw [newDecimalString, hq]
    rw [hfilled, Option.mapM_some, hnew]
    rfl

theorem ReadsAs.reads (h : ReadsAs state basis held) :
    Reads (readPosition state) (num (held.getD 0)) (basis.map num) := by
  have hview : readPosition state = some ⟨state.avgEntryPrice, state.heldQuantity⟩ := by
    rw [readPosition, if_pos h.schema]
  rw [hview]
  refine ⟨?_, filled_of_reads h.avgEntryPrice⟩
  rw [filled_of_reads h.heldQuantity]
  cases held with
  | none => rfl
  | some q => rfl

/-- Without its basis a position costs nothing. -/
theorem ReadsAs.leaves {after : TTState} (h : ReadsAs state basis held)
    (leaves : LeavesBasis state after) :
    ∃ basis', ReadsAs after basis' held ∧
      basis'.getD 0 * held.getD 0 ≤ basis.getD 0 * held.getD 0 := by
  have hschema : isCurrentSchema after = true := by
    rw [isCurrentSchema, leaves.schemaVersion]
    exact h.schema
  have hheld : after.heldQuantity.map (·.toDecimal) = held.map fun q => some (num q) :=
    leaves.heldQuantity ▸ h.heldQuantity
  rcases leaves.avgEntryPrice with havg | havg
  · exact ⟨basis, ⟨hschema, havg ▸ h.avgEntryPrice, hheld, h.basis_nonneg, h.held_nonneg⟩, le_rfl⟩
  · refine ⟨none, ⟨hschema, by rw [havg]; rfl, hheld, le_rfl, h.held_nonneg⟩, ?_⟩
    rw [Option.getD_none, zero_mul]
    exact mul_nonneg h.basis_nonneg h.held_nonneg

/-- The cost basis after a buy. -/
def basisAfter (basis : Option ℚ) (prevQty price quantity : ℚ) : ℚ :=
  match basis with
  | some basis =>
      if 0 < prevQty then (basis * prevQty + price * quantity) / (prevQty + quantity) else price
  | none => price

theorem resolveFill_buy {prior : Option PositionView} {prevQty price quantity : ℚ}
    (reads : Reads prior (num prevQty) (basis.map num)) (hquantity : 0 < quantity)
    (stepSize minNotional : Option Decimal) :
    resolveFill prior ⟨.buy, num price, num quantity⟩ stepSize minNotional =
      .ok (.buy (.printed (num (basisAfter basis prevQty price quantity)))
        (.printed (num (prevQty + quantity)))) := by
  cases basis with
  | some basis =>
      by_cases hheld : 0 < prevQty
      · rw [resolveFill_buy_add reads hheld hquantity, basisAfter, if_pos hheld]
      · unfold resolveFill
        rw [reads.quantity, reads.basis]
        simp [bind, Except.bind, pure, Except.pure, hheld, basisAfter]
  | none =>
      unfold resolveFill
      rw [reads.quantity, reads.basis]
      simp [bind, Except.bind, pure, Except.pure, basisAfter]

/-- A buy adds what it pays to a cost that is known. -/
theorem basisAfter_mul {prevQty price quantity : ℚ} (hprev : 0 ≤ prevQty) (hquantity : 0 < quantity)
    (hknown : basis = none → prevQty = 0) :
    basisAfter basis prevQty price quantity * (prevQty + quantity) =
      basis.getD 0 * prevQty + price * quantity := by
  have hnext : prevQty + quantity ≠ 0 := (add_pos_of_nonneg_of_pos hprev hquantity).ne'
  cases basis with
  | none => simp [basisAfter, hknown rfl]
  | some basis =>
      rw [basisAfter, Option.getD_some]
      split
      · exact div_mul_cancel₀ _ hnext
      · next hflat =>
          have hzero : prevQty = 0 := le_antisymm (not_lt.mp hflat) hprev
          rw [hzero, zero_add, mul_zero, zero_add]

theorem basisAfter_nonneg {prevQty price quantity : ℚ} (hbasis : 0 ≤ basis.getD 0)
    (hprev : 0 ≤ prevQty) (hprice : 0 < price) (hquantity : 0 < quantity) :
    0 ≤ basisAfter basis prevQty price quantity := by
  cases basis with
  | none => exact hprice.le
  | some basis =>
      rw [basisAfter]
      split
      · exact div_nonneg (add_nonneg (mul_nonneg hbasis hprev) (mul_pos hprice hquantity).le)
          (add_nonneg hprev hquantity.le)
      · exact hprice.le

end Reads

/-! ### What a tick leaves of the position -/

section Tick

variable {input : TTInput} {output : TTOutput}

theorem KeepsPosition.leavesBasis {before after : TTState} (h : KeepsPosition before after) :
    LeavesBasis before after :=
  ⟨h.schemaVersion, h.heldQuantity, .inl h.avgEntryPrice⟩

theorem LeavesBasis.trans {a b c : TTState} (hab : LeavesBasis a b) (hbc : LeavesBasis b c) :
    LeavesBasis a c where
  schemaVersion := hbc.schemaVersion.trans hab.schemaVersion
  heldQuantity := hbc.heldQuantity.trans hab.heldQuantity
  avgEntryPrice := by
    rcases hbc.avgEntryPrice with hsame | hgone
    · rw [hsame]
      exact hab.avgEntryPrice
    · exact .inr hgone

theorem GridEmits.leavesBasis {now : ℤ} {before after : TTState} {decisions : List Decision}
    (h : GridEmits input now before after decisions) : LeavesBasis before after := by
  cases h with
  | rung target level quantity htarget hlevel hrepriced hafter hdecisions =>
      rw [hafter, emittedState_eq]
      exact ⟨rfl, rfl, .inl rfl⟩

theorem EarlyOutcome.leavesBasis {start : TTState} (h : EarlyOutcome input start output) :
    LeavesBasis start output.nextState := by
  cases h with
  | quiet keeps hdecisions => exact keeps.leavesBasis
  | manual payload quantity overrideActionId keeps hdecisions => exact keeps.leavesBasis
  | forced sender before after decisions from_ emits next sent =>
      refine LeavesBasis.trans from_.leavesBasis (LeavesBasis.trans ?_ next.leavesBasis)
      cases emits with
      | grid emits =>
          refine LeavesBasis.trans ?_ emits.leavesBasis
          exact ⟨rfl, rfl, .inl rfl⟩
      | single quantity noGrid hafter hdecisions => exact hafter ▸ ⟨rfl, rfl, .inl rfl⟩
  | sold quantity overrideActionId flat index schemaVersion hdecisions heldQuantity =>
      exact ⟨schemaVersion, heldQuantity, .inr flat.avgEntryPrice⟩

theorem LateOutcome.leavesBasis (h : LateOutcome input state output) :
    LeavesBasis state output.nextState := by
  cases h with
  | sell terminal =>
      cases terminal with
      | sold emission reason held sells hdecisions flat index schemaVersion heldQuantity =>
          exact ⟨schemaVersion, heldQuantity, .inr flat.avgEntryPrice⟩
      | refused held keeps hdecisions => exact keeps.leavesBasis
      | armed at_ held keeps next hdecisions => exact next.leavesBasis
  | buy at_ keeps outcome =>
      refine LeavesBasis.trans keeps.leavesBasis ?_
      cases outcome with
      | pyramid quantity addIndex addPrice held next hdecisions =>
          refine LeavesBasis.trans ?_ next.leavesBasis
          exact ⟨rfl, rfl, .inl rfl⟩
      | grid after hasGrid unblocked emits next =>
          refine LeavesBasis.trans ?_ (emits.leavesBasis.trans next.leavesBasis)
          exact ⟨rfl, rfl, .inl rfl⟩
      | first quantity noGrid unblocked flat keeps hdecisions => exact keeps.leavesBasis
      | report index block hblock hindex next hdecisions =>
          refine LeavesBasis.trans ?_ next.leavesBasis
          exact ⟨rfl, rfl, .inl rfl⟩

/-- A tick never changes what is held, and its cost only by forgetting it. -/
theorem computeTick_leaves (htick : computeTick input = .ok output) :
    LeavesBasis input.state output.nextState := by
  refine LeavesBasis.trans (keeps_startState input).leavesBasis ?_
  cases (computeTick_outcome input).returned htick with
  | early stopped outcome => exact outcome.leavesBasis
  | late passes after drop outcome =>
      refine LeavesBasis.trans ?_ outcome.leavesBasis
      cases drop with
      | kept _ => exact ⟨rfl, rfl, .inl rfl⟩
      | dropped _ => exact ⟨rfl, rfl, .inr rfl⟩

end Tick

/-! ### Runs -/

/-- A BUY that was sent and has not been adopted in full. -/
structure SentBuy where
  orderId : ℕ
  intent : OrderIntent
  params : OrderParams
  /-- The price of the tick that sent it, at which the caps were asked. -/
  currentPrice : String
  /-- Another BUY was adopted since. -/
  overtaken : Bool

namespace SentBuy

/-- A rung of the ladder or an add to a winner: the buys the caps are asked about. -/
def laddered (order : SentBuy) : Bool :=
  order.intent.info.any fun field => field.1 == "gridTradeIndex" || field.1 == "bullAddIndex"

/-- The price the order carries: its limit, or the price of its tick for a market order. -/
def carried (order : SentBuy) : Option Decimal :=
  if order.params.type = .market then parse order.currentPrice else safeDecimal order.params.price

/-- The order fills so: a rung or an add completely, and at no more than the price it carries. -/
def fills (order : SentBuy) (price quantity : ℚ) (rests : Bool) : Bool :=
  decide (0 < price) && decide (0 < quantity) &&
    (!order.laddered ||
      !rests && order.params.quantity.toDecimal == some (num quantity) &&
        order.carried.any (num price).lte)

end SentBuy

/-- The BUY a decision sends. -/
def sentBuy (input : TTInput) (orderId : ℕ) (d : Decision) : Option SentBuy :=
  d.order.bind fun order =>
    if order.1.side = .buy then
      some ⟨orderId, order.1, order.2, input.market.currentPrice, false⟩
    else none

structure CapBook where
  body : TTState
  sent : List SentBuy

inductive CapLabel where
  /-- A tick of the profile; the exchange answers with the id of the order it places. -/
  | tick (input : TTInput) (orderId : ℕ)
  /-- A fill of a BUY is adopted; the rest of the order rests on. -/
  | adoptBuy (index : ℕ) (price quantity : ℚ) (rests : Bool)
  /-- A fill of a SELL is adopted, under the filters of the symbol. -/
  | adoptSell (price quantity : ℚ) (stepSize minNotional : Option Decimal)

namespace CapBook

/-- What a tick of the profile is handed. -/
def seen (config : TTConfig) (book : CapBook) (input : TTInput) : TTInput :=
  { input with config, state := book.body }

/-- A market order is never found among the open orders. -/
def marketsUnlisted (book : CapBook) (input : TTInput) : Bool :=
  book.sent.all fun order =>
    order.params.type != .market || input.openOrders.all (·.orderId != order.orderId)

/-- The position after a fill; a fill that changes nothing leaves the body. -/
def adopt (book : CapBook) (fill : RawFill) (stepSize minNotional : Option Decimal) :
    Option TTState :=
  (resolveFill (readPosition book.body) fill stepSize minNotional).toOption.map fun adopted =>
    (applyFill book.body adopted).getD book.body

/-- What is left of the BUYs in flight once a fill of one of them is adopted. -/
def overtake (sent : List SentBuy) (index : ℕ) (rests : Bool) : List SentBuy :=
  (if rests then sent else sent.eraseIdx index).map fun order => { order with overtaken := true }

/-- One step on a symbol: a tick without an override, or the adoption of a fill. -/
def step (config : TTConfig) (symbol : String) (book : CapBook) : CapLabel → Option CapBook
  | .tick input orderId =>
      if input.bundle.override.isNone && input.market.symbol == symbol &&
          book.marketsUnlisted input then
        (computeTick (book.seen config input)).toOption.map fun output =>
          ⟨output.nextState,
            book.sent ++ output.decisions.filterMap (sentBuy (book.seen config input) orderId)⟩
      else none
  | .adoptBuy index price quantity rests =>
      if (book.sent[index]?).any (·.fills price quantity rests) then
        (book.adopt ⟨.buy, num price, num quantity⟩ none none).map fun body =>
          ⟨body, overtake book.sent index rests⟩
      else none
  | .adoptSell price quantity stepSize minNotional =>
      if 0 < price ∧ 0 < quantity then
        (book.adopt ⟨.sell, num price, num quantity⟩ stepSize minNotional).map fun body =>
          ⟨body, book.sent⟩
      else none

/-- A quantity is held whose cost is not known. -/
def CostUnknown (state : TTState) : Prop :=
  state.avgEntryPrice = none ∧ ∃ quantity, 0 < quantity ∧
    safeDecimal state.heldQuantity = some (num quantity)

/-- A rung or an add is adopted at no more than the price it was judged at, with no other BUY
adopted since it was sent, and onto a position whose cost is known. -/
structure OrderlyFill (book : CapBook) (order : SentBuy) (price : ℚ) : Prop where
  first : order.overtaken = false
  known : ¬ CostUnknown book.body
  judged : ∃ judged, parse order.currentPrice = some (num judged) ∧ price ≤ judged

variable {input : TTInput} {output : TTOutput}

theorem quantity_of_rung {quantity : DecimalString} {level : ℕ} {stopLimit : Option StopLimit}
    {intent : OrderIntent} {params : OrderParams}
    (h : (buildGridBuyDecision input quantity level stopLimit).order = some (intent, params)) :
    params.quantity = quantity := by
  cases stopLimit with
  | some stopLimit =>
      cases h
      rfl
  | none =>
      cases h
      change (entryParams quantity (resolveMakerEntryLimit input)).quantity = quantity
      cases resolveMakerEntryLimit input <;> rfl

/-- A rung or an add that a tick sends of its own accord has passed the caps, over the position
the tick leaves. -/
theorem computeTick_capped (htick : computeTick input = .ok output)
    (hoverride : input.bundle.override = none) {orderId : ℕ} {order : SentBuy} {d : Decision}
    (hd : d ∈ output.decisions) (hsent : sentBuy input orderId d = some order)
    (hladdered : order.laddered = true) :
    WithinCaps input output.nextState order.params.quantity := by
  obtain ⟨⟨intent, params⟩, horder, hbuy⟩ := Option.bind_eq_some_iff.mp hsent
  split at hbuy
  · next hside =>
      cases hbuy
      have hunsigned {sender : Option String} {after : TTState}
          (cooled : Cooled (normalizedInput input) (startState input) sender after) :
          sender = none := by
        cases sender with
        | none => rfl
        | some id =>
            obtain ⟨override, hasked, -⟩ := cooled.override id rfl
            cases hoverride.symm.trans hasked
      have hacts := (computeTick_acts input).returned htick
      cases hacts with
      | rests silent latches =>
          rw [silent d hd] at horder
          cases horder
      | manual override payload quantity override_eq kind decisions latches =>
          cases hoverride.symm.trans override_eq
      | liquidates override quantity seed override_eq kind decisions latches =>
          cases hoverride.symm.trans override_eq
      | arms at_ decisions latches =>
          rw [decisions] at hd
          cases hside.symm.trans (side_of_protectiveStop hd horder)
      | sells reason quantity seed unasked noForeignSell decisions latches =>
          rw [decisions] at hd
          cases hside.symm.trans (side_of_closing hd horder)
      | rung sender target level quantity unasked level_eq sized capped cooled decisions latches =>
          rw [hunsigned cooled, asSent, Option.elim_none] at decisions
          rw [decisions, List.mem_append, List.mem_singleton] at hd
          rcases hd with hcancel | rfl
          · rw [staleCancels_silent d hcancel] at horder
            cases horder
          · dsimp only
            rw [quantity_of_rung horder]
            exact capped
      | single sender quantity unasked noOpenBuy sized cooled decisions latches =>
          -- the single buy of a profile without a ladder names no rung
          rw [hunsigned cooled, asSent, Option.elim_none] at decisions
          rw [decisions, List.mem_singleton] at hd
          rw [hd] at horder
          cases horder
          cases hladdered
      | adds quantity addIndex pyramid unasked noOpenBuy held sized capped decisions latches =>
          rw [decisions, List.mem_singleton] at hd
          rw [hd] at horder
          cases horder
          exact capped
  · cases hbuy

/-! ### The caps hold after every orderly adoption -/

variable {book next : CapBook} {basis held : Option ℚ} {symbol : String}

/-- The body after a buy of a position that reads. -/
def boughtBody (state : TTState) (basis held : Option ℚ) (price quantity : ℚ) : TTState :=
  { state with
    avgEntryPrice := some (.printed (num (basisAfter basis (held.getD 0) price quantity)))
    heldQuantity := some (.printed (num (held.getD 0 + quantity)))
    highSinceBuy := none
    breakEvenArmed := false }

theorem adopt_buy (h : ReadsAs book.body basis held) {price quantity : ℚ} (hquantity : 0 < quantity)
    (stepSize minNotional : Option Decimal) :
    book.adopt ⟨.buy, num price, num quantity⟩ stepSize minNotional =
      some (boughtBody book.body basis held price quantity) := by
  have hresolved := @resolveFill_buy _ _ _ price quantity h.reads hquantity stepSize minNotional
  simp [adopt, hresolved, Except.toOption, applyFill, h.schema, boughtBody]

theorem readsAs_bought (h : ReadsAs state basis held) {price quantity : ℚ} (hprice : 0 < price)
    (hquantity : 0 < quantity) :
    ReadsAs (boughtBody state basis held price quantity)
      (some (basisAfter basis (held.getD 0) price quantity)) (some (held.getD 0 + quantity)) where
  schema := h.schema
  avgEntryPrice := rfl
  heldQuantity := rfl
  basis_nonneg := basisAfter_nonneg h.basis_nonneg h.held_nonneg hprice hquantity
  held_nonneg := add_nonneg h.held_nonneg hquantity.le

/-- A sale never leaves a position that costs more. -/
theorem adopt_sell {body : TTState} (h : ReadsAs book.body basis held) {price quantity : ℚ}
    (hquantity : 0 < quantity) {stepSize minNotional : Option Decimal}
    (hadopt : book.adopt ⟨.sell, num price, num quantity⟩ stepSize minNotional = some body) :
    ∃ basis' held', ReadsAs body basis' held' ∧
      basis'.getD 0 * held'.getD 0 ≤ basis.getD 0 * held.getD 0 := by
  have hcost : 0 ≤ basis.getD 0 * held.getD 0 := mul_nonneg h.basis_nonneg h.held_nonneg
  obtain ⟨adopted, hresolved, hbody⟩ := Option.map_eq_some_iff.mp hadopt
  unfold resolveFill at hresolved
  rw [h.reads.quantity, h.reads.basis] at hresolved
  simp only [bind, Except.bind, pure, Except.pure, Except.toOption, sub_num,
    Option.some.injEq] at hresolved
  split at hresolved
  · -- what is left is dust: the position is cleared, or was empty already
    subst hresolved
    simp only [applyFill, h.schema, Bool.not_true, Bool.false_eq_true, if_false] at hbody
    split at hbody
    · subst hbody
      exact ⟨basis, held, h, le_rfl⟩
    · subst hbody
      refine ⟨none, none, ⟨h.schema, rfl, rfl, le_rfl, le_rfl⟩, ?_⟩
      simpa using hcost
  · next hleft =>
      subst hresolved
      simp only [applyFill, h.schema, Bool.not_true, Bool.false_eq_true, if_false,
        Option.getD_some] at hbody
      subst hbody
      have hrest : 0 < held.getD 0 - quantity := by
        by_contra hnone
        exact hleft (by simp [isUnsellableDust, not_lt.mp hnone])
      refine ⟨basis, some (held.getD 0 - quantity),
        ⟨h.schema, h.avgEntryPrice, rfl, h.basis_nonneg, hrest.le⟩, ?_⟩
      exact mul_le_mul_of_nonneg_left (sub_le_self _ hquantity.le) h.basis_nonneg

/-- The body reads, and every rung or add in flight that was not overtaken would fit the caps. -/
structure Sound (config : TTConfig) (book : CapBook) : Prop where
  readable : ∃ basis held, ReadsAs book.body basis held
  fits : ∀ order ∈ book.sent, order.laddered = true → order.overtaken = false →
    ∀ cost quantity price, heldCost book.body = num cost →
      order.params.quantity.toDecimal = some (num quantity) →
      parse order.currentPrice = some (num price) →
        WithinSymbolCaps config (cost + quantity * price)

/-- What fits over a position fits over one that costs no more. -/
theorem Sound.cheaper {body : TTState} {basis' held' : Option ℚ} (h : Sound config book)
    (hbefore : ReadsAs book.body basis held) (hafter : ReadsAs body basis' held')
    (hle : basis'.getD 0 * held'.getD 0 ≤ basis.getD 0 * held.getD 0) :
    Sound config ⟨body, book.sent⟩ where
  readable := ⟨basis', held', hafter⟩
  fits := by
    intro order horder hladdered hovertaken cost quantity price hcost hquantity hprice
    have hfits := h.fits order horder hladdered hovertaken _ quantity price hbefore.heldCost
      hquantity hprice
    rw [hafter.heldCost] at hcost
    cases hcost
    exact hfits.mono (add_le_add_left hle _)

theorem Sound.tick {input : TTInput} {orderId : ℕ} (h : Sound config book)
    (hstep : step config symbol book (.tick input orderId) = some next) : Sound config next := by
  simp only [step] at hstep
  split at hstep
  · next hguard =>
      simp only [Bool.and_eq_true, Option.isNone_iff_eq_none] at hguard
      obtain ⟨output, hoption, rfl⟩ := Option.map_eq_some_iff.mp hstep
      have htick : computeTick (book.seen config input) = .ok output := by
        cases hrun : computeTick (book.seen config input) with
        | error message =>
            rw [hrun] at hoption
            cases hoption
        | ok result =>
            rw [hrun] at hoption
            cases hoption
            rfl
      obtain ⟨basis, held, hreads⟩ := h.readable
      obtain ⟨basis', hafter, hle⟩ := hreads.leaves (computeTick_leaves htick)
      have hkept := h.cheaper hreads hafter hle
      refine ⟨hkept.readable, ?_⟩
      intro order horder hladdered hovertaken cost quantity price hcost hquantity hprice
      rw [List.mem_append, List.mem_filterMap] at horder
      rcases horder with hold | ⟨d, hd, hsent⟩
      · exact hkept.fits order hold hladdered hovertaken cost quantity price hcost hquantity hprice
      · have hcapped := computeTick_capped htick hguard.1.1 hd hsent hladdered
        obtain ⟨o, -, hbuy⟩ := Option.bind_eq_some_iff.mp hsent
        split at hbuy
        · cases hbuy
          exact hcapped.fits hcost hquantity hprice
        · cases hbuy
  · cases hstep

/-- Once a fill is adopted, every other BUY in flight was overtaken. -/
theorem Sound.overtaken {body : TTState} {basis' held' : Option ℚ} {index : ℕ} {rests : Bool}
    (hafter : ReadsAs body basis' held') : Sound config ⟨body, overtake book.sent index rests⟩ where
  readable := ⟨basis', held', hafter⟩
  fits := by
    intro order horder _ hovertaken
    obtain ⟨before, -, rfl⟩ := List.mem_map.mp horder
    cases hovertaken

theorem Sound.step {label : CapLabel} (h : Sound config book)
    (hstep : CapBook.step config symbol book label = some next) : Sound config next := by
  obtain ⟨basis, held, hreads⟩ := h.readable
  cases label with
  | tick input orderId => exact h.tick hstep
  | adoptBuy index price quantity rests =>
      simp only [CapBook.step] at hstep
      split at hstep
      · next hfills =>
          obtain ⟨order, -, hfills⟩ := (Option.any_eq_true _ _).mp hfills
          simp only [SentBuy.fills, Bool.and_eq_true, decide_eq_true_eq] at hfills
          rw [adopt_buy hreads hfills.1.2] at hstep
          cases hstep
          exact Sound.overtaken (readsAs_bought hreads hfills.1.1 hfills.1.2)
      · cases hstep
  | adoptSell price quantity stepSize minNotional =>
      simp only [CapBook.step] at hstep
      split at hstep
      · next hfills =>
          obtain ⟨body, hadopt, rfl⟩ := Option.map_eq_some_iff.mp hstep
          obtain ⟨basis', held', hafter, hle⟩ := adopt_sell hreads hfills.2 hadopt
          exact h.cheaper hreads hafter hle
      · cases hstep

theorem known_basis (h : ReadsAs state basis held) (hknown : ¬ CostUnknown state)
    (hnone : basis = none) : held.getD 0 = 0 := by
  by_contra hheld
  have hpos : 0 < held.getD 0 := lt_of_le_of_ne h.held_nonneg (Ne.symm hheld)
  refine hknown ⟨?_, held.getD 0, hpos, ?_⟩
  · rcases reads_field h.avgEntryPrice with ⟨havg, -⟩ | ⟨_, _, -, hsome, -⟩
    · exact havg
    · cases hnone.symm.trans hsome
  · rcases reads_field h.heldQuantity with ⟨-, rfl⟩ | ⟨text, q, htext, rfl, hq⟩
    · exact absurd rfl hpos.ne'
    · rw [htext]
      exact hq

/-- Every state of a run from a position that reads. -/
abbrev Reached (config : TTConfig) (symbol : String) (start : TTState) (book : CapBook) : Prop :=
  Reach (step config symbol) (fun _ _ => True) ⟨start, []⟩ book

/-- Over every run of ticks and fills on one symbol, whatever the configuration: an orderly fill of
a rung or an add, once adopted, leaves the position within the caps of the symbol. -/
theorem adopted_buys_within_caps (config : TTConfig) (symbol : String) (start : TTState)
    (book next : CapBook) (index : ℕ) (price quantity : ℚ) (rests : Bool) (order : SentBuy)
    (hstart : ∃ basis held, ReadsAs start basis held)
    (hrun : Reached config symbol start book)
    (horder : book.sent[index]? = some order) (hladdered : order.laddered = true)
    (horderly : OrderlyFill book order price)
    (hadopt : step config symbol book (.adoptBuy index price quantity rests) = some next) :
    Capped config next.body := by
  have hsound : Sound config book := by
    have hnew : Sound config ⟨start, []⟩ := ⟨hstart, fun order horder => by cases horder⟩
    exact hrun.invariant hnew fun book label next h _ hstep => h.step hstep
  obtain ⟨judged, hjudged, hle⟩ := horderly.judged
  obtain ⟨basis, held, hreads⟩ := hsound.readable
  simp only [step, horder, Option.any_some] at hadopt
  split at hadopt
  · next hfills =>
      simp only [SentBuy.fills, hladdered, Bool.not_true, Bool.false_or, Bool.and_eq_true,
        decide_eq_true_eq, beq_iff_eq] at hfills
      obtain ⟨⟨hprice, hquantity⟩, ⟨-, hwhole⟩, -⟩ := hfills
      rw [adopt_buy hreads hquantity] at hadopt
      cases hadopt
      refine ⟨_, (readsAs_bought hreads hprice hquantity).heldCost, ?_⟩
      rw [Option.getD_some, Option.getD_some,
        basisAfter_mul hreads.held_nonneg hquantity (known_basis hreads horderly.known)]
      have hfits := hsound.fits order (List.mem_of_getElem? horder) hladdered horderly.first _ _ _
        hreads.heldCost hwhole hjudged
      -- the fill paid no more than the caps were asked about
      refine hfits.mono (add_le_add_right ?_ _)
      rw [mul_comm]
      exact mul_le_mul_of_nonneg_left hle hquantity.le
  · cases hadopt

/-! ### Sample runs -/

/-- The sample profile with a cap on the symbol, a stop at half and some rungs of a hundred each. -/
def cappedConfig (cap : String) (rungs : List (String × String × String)) : TTConfig :=
  { sampleConfig with
    sell := { sampleConfig.sell with stopLossPercentage := "0.5" }
    buy := { sampleConfig.buy with
      maxSymbolExposureQuote := cap
      gridLevels := rungs.map fun rung =>
        { triggerPercentage := rung.1, stopPricePercentage := rung.2.1
          limitPricePercentage := rung.2.2, minPurchaseAmount := ""
          maxPurchaseAmount := "100" } } }

/-- A tick at a price with one coin in the wallet; the state and config are the run's. -/
def tickAt (price : String) (orderId : ℕ) : CapLabel :=
  .tick (sampleInput sampleConfig initialTTState price 1) orderId

/-- What adopting a fill after some steps shows: whether it is a rung or an add, whether it was
overtaken, the price it was judged at, whether the body has a cost basis, and the new cost. -/
def adoptedCost (config : TTConfig) (labels : List CapLabel) (index : ℕ) (price quantity : ℚ) :
    Option (Bool × Bool × Option Decimal × Bool × Decimal) :=
  (run (step config "BTCUSDT") (fun _ _ => true) ⟨initialTTState, []⟩ labels).bind fun book =>
    (book.sent[index]?).bind fun order =>
      (step config "BTCUSDT" book (.adoptBuy index price quantity false)).map fun next =>
        (order.laddered, order.overtaken, parse order.currentPrice,
          book.body.avgEntryPrice.isSome, heldCost next.body)

section Adopted

variable {labels : List CapLabel} {index : ℕ} {price quantity : ℚ} {laddered overtaken based : Bool}
  {judged : Option Decimal} {cost : Decimal}

theorem exists_of_adoptedCost
    (h : adoptedCost config labels index price quantity =
      some (laddered, overtaken, judged, based, cost)) :
    ∃ book next order, Reached config "BTCUSDT" initialTTState book ∧
      book.sent[index]? = some order ∧
      step config "BTCUSDT" book (.adoptBuy index price quantity false) = some next ∧
      order.laddered = laddered ∧ order.overtaken = overtaken ∧
      parse order.currentPrice = judged ∧ book.body.avgEntryPrice.isSome = based ∧
      heldCost next.body = cost := by
  obtain ⟨book, hrun, h⟩ := Option.bind_eq_some_iff.mp h
  obtain ⟨order, horder, h⟩ := Option.bind_eq_some_iff.mp h
  obtain ⟨next, hnext, h⟩ := Option.map_eq_some_iff.mp h
  cases h
  exact ⟨book, next, order, reach_of_run (fun _ _ _ => trivial) hrun, horder, hnext, rfl, rfl, rfl,
    rfl, rfl⟩

/-- Some run adopts a rung or an add and leaves the position outside the caps. -/
def Breached (config : TTConfig) : Prop :=
  ∃ book next order index price quantity,
    Reached config "BTCUSDT" initialTTState book ∧ book.sent[index]? = some order ∧
      order.laddered = true ∧
      step config "BTCUSDT" book (.adoptBuy index price quantity false) = some next ∧
      ¬ Capped config next.body

theorem breached_of_adoptedCost (cap : ℚ) {spent : ℚ}
    (h : adoptedCost config labels index price quantity =
      some (true, overtaken, judged, based, num spent))
    (hcap : parse config.buy.maxSymbolExposureQuote = some (num cap)) (hpos : 0 < cap)
    (hover : cap < spent) : Breached config := by
  obtain ⟨book, next, order, hrun, horder, hnext, hladdered, -, -, -, hcost⟩ :=
    exists_of_adoptedCost h
  refine ⟨book, next, order, index, price, quantity, hrun, horder, hladdered, hnext, ?_⟩
  rintro ⟨cost, hheld, hwithin⟩
  rw [hcost] at hheld
  cases hheld
  exact absurd (hwithin.exposure cap hpos hcap) (not_le.mpr hover)

end Adopted

/-- A rung bought and adopted, and the next one climbed down to. -/
def sampleClimb : List CapLabel := [tickAt "100" 1, .adoptBuy 0 100 1 false, tickAt "80" 2]

def climbConfig : TTConfig := cappedConfig "250" [("1", "", ""), ("0.9", "", "")]

/-- The second rung is adopted in order, within a cap of 250. -/
theorem second_rung_within_caps :
    ∃ book next, Reached climbConfig "BTCUSDT" initialTTState book ∧
      step climbConfig "BTCUSDT" book (.adoptBuy 0 80 (5 / 4) false) = some next ∧
      heldCost next.body = num 200 ∧ Capped climbConfig next.body := by
  obtain ⟨book, next, order, hrun, horder, hnext, hladdered, hovertaken, hjudged, hbased, hcost⟩ :=
    exists_of_adoptedCost (by decide +kernel : adoptedCost climbConfig sampleClimb 0 80 (5 / 4) =
      some (true, false, some (num 80), true, num 200))
  have horderly : OrderlyFill book order 80 := by
    refine ⟨hovertaken, ?_, 80, hjudged, le_rfl⟩
    rintro ⟨hnone, -⟩
    rw [hnone] at hbased
    cases hbased
  exact ⟨book, next, hrun, hnext, hcost,
    adopted_buys_within_caps climbConfig "BTCUSDT" initialTTState book next 0 80 (5 / 4) false order
      ⟨none, none, rfl, rfl, rfl, le_rfl, le_rfl⟩ hrun horder hladdered horderly hnext⟩

/-- A stop-limit rung fills above the price it was judged at; a rung fills behind another that was
not adopted when it was judged; a re-entry is adopted before the exit it follows. -/
theorem adopted_buys_exceed_caps :
    Breached (cappedConfig "100" [("1", "1.01", "1.02")]) ∧
      Breached (cappedConfig "250" [("1", "", ""), ("0.9", "", ""), ("0.8", "", "")]) ∧
      Breached (cappedConfig "150" [("1", "", "")]) := by
  refine ⟨?_, ?_, ?_⟩
  · exact breached_of_adoptedCost 100 (by decide +kernel :
      adoptedCost (cappedConfig "100" [("1", "1.01", "1.02")]) [tickAt "100" 1] 0 102 1 =
        some (true, false, some (num 100), false, num 102))
      (by decide +kernel) (by norm_num) (by norm_num)
  · exact breached_of_adoptedCost 250 (by decide +kernel :
      adoptedCost (cappedConfig "250" [("1", "", ""), ("0.9", "", ""), ("0.8", "", "")])
        (sampleClimb ++ [tickAt "80" 3, .adoptBuy 0 80 (5 / 4) false]) 0 80 (5 / 4) =
        some (true, true, some (num 80), true, num 300))
      (by decide +kernel) (by norm_num) (by norm_num)
  · exact breached_of_adoptedCost 150 (by decide +kernel :
      adoptedCost (cappedConfig "150" [("1", "", "")])
        [tickAt "100" 1, .adoptBuy 0 100 1 false, tickAt "50" 2, tickAt "100" 3] 0 100 1 =
        some (true, false, some (num 100), false, num 200))
      (by decide +kernel) (by norm_num) (by norm_num)

end CapBook

end TradingBot.TrailingTrade
