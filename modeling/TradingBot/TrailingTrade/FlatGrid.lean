import Mathlib.Logic.Relation
import TradingBot.TrailingTrade.Lifecycle

/-!
# A flat ladder and its cancelled entry

Rung 0 means both an entry that was emitted and one that filled, and only a
ladder without a rung can enter again. So whatever takes the resting entry of a
flat ladder off the book has to take the rung back as well. The maker timeout
does; the regime's entry block does not, and it is the one way a flat ladder is
left waiting on an order that is gone.
-/

namespace TradingBot.TrailingTrade

open Decimal EarlyExit

variable {input : TTInput} {state : TTState} {output : TTOutput} {d : Decision}

/-! ### Cancels of a tick -/

/-- The decision takes an order off the book and puts none in its place. -/
def Decision.cancelsOnly (orderId : ℕ) : Decision → Bool
  | .cancelOrder cancelled _ _ => cancelled == orderId
  | _ => false

/-- The tick takes an order off the book. -/
def TickCancels (output : TTOutput) (orderId : ℕ) : Bool :=
  output.decisions.any (Decision.cancelsOnly orderId)

/-- The tick cancels a resting entry: every open buy of the symbol, and there was one. -/
structure CancelsEntry (input : TTInput) (output : TTOutput) : Prop where
  resting : openBuysFor input ≠ []
  cancels : ∀ o ∈ openBuysFor input, TickCancels output o.orderId = true

/-- A tick that cancels the resting entry and buys nothing takes the rung back. -/
def FreesRung (input : TTInput) (output : TTOutput) : Prop :=
  CancelsEntry input output →
    (∀ d ∈ output.decisions, d.sends .buy input.market.symbol = false) →
      output.nextState.currentGridTradeIndex = none

/-- The regime's entry block cancels the resting entry of a flat ladder that is on a rung. -/
structure BlocksOnRung (input : TTInput) : Prop where
  flat : input.state.avgEntryPrice = none
  passes : Passes input (startState input)
  resting : openBuysFor input ≠ []
  rung : input.state.currentGridTradeIndex ≠ none
  blocked : (regimeEntryBlock input input.nowMs input.state).1.isSome = true

theorem regimeEntryBlock_of_keeps {before after : TTState} (now : ℤ)
    (h : KeepsPosition before after) :
    regimeEntryBlock input now after = regimeEntryBlock input now before := by
  unfold regimeEntryBlock
  rw [h.avgEntryPrice]

theorem entryTimeoutCancels_blocked {block : Option RegimeBlock} (h : block.isSome = true) :
    entryTimeoutCancels input state block = [] := by
  unfold entryTimeoutCancels
  dsimp only
  rw [if_neg]
  simp only [Bool.and_eq_true, not_and]
  intro hflat
  cases block with
  | none => cases h
  | some blocked => cases hflat.1.2

theorem not_cancelsOnly_of_order (h : d.order.isSome = true) (orderId : ℕ) :
    Decision.cancelsOnly orderId d = false := by
  cases d <;> first | rfl | cases h

theorem order_isSome_of_mem_closing {intent : OrderIntent} {params : OrderParams}
    (h : d ∈ closingSellDecisions input (.placeOrder intent params)) : d.order.isSome = true := by
  rw [order_of_mem_closing h]
  rfl

/-! ### What a tick does to a rung -/

theorem ForcedEmits.buys {now : ℤ} {before after : TTState} {decisions : List Decision}
    (h : ForcedEmits input now before after decisions) (sender : Option String) :
    ∃ d ∈ asSent sender decisions, d.sends .buy input.market.symbol = true := by
  have hbuy : ∃ d ∈ decisions, d.sends .buy input.market.symbol = true := by
    cases h with
    | grid emits => exact emits.buys
    | single quantity noGrid hafter hdecisions =>
        rw [hdecisions]
        refine ⟨_, List.mem_cons_self, ?_⟩
        simp [Decision.sends, Decision.order, buildFirstBuyDecision, buyIntent]
  obtain ⟨d, hd, hbuy⟩ := hbuy
  cases sender with
  | none => exact ⟨d, hd, hbuy⟩
  | some overrideActionId =>
      exact ⟨_, List.mem_map.mpr ⟨d, hd, rfl⟩, by rw [sends_attribute]; exact hbuy⟩

/-- Nothing was cancelled, and a flat ladder on rung 0 was there before. -/
structure KeepsRung (state : TTState) (output : TTOutput) : Prop where
  avgEntryPrice : output.nextState.avgEntryPrice = state.avgEntryPrice
  cancels : ∀ orderId, TickCancels output orderId = false
  index : output.nextState.currentGridTradeIndex = some 0 → state.avgEntryPrice = none →
    state.currentGridTradeIndex = some 0

/-- A tick without a buy that ends before its position is looked at. -/
theorem EarlyOutcome.rung {start : TTState} (h : EarlyOutcome input start output)
    (hquiet : ∀ d ∈ output.decisions, d.sends .buy input.market.symbol = false) :
    output.nextState.currentGridTradeIndex = none ∨ KeepsRung start output := by
  cases h with
  | quiet keeps hdecisions =>
      refine .inr ⟨keeps.avgEntryPrice, fun orderId => ?_,
        fun hindex _ => keeps.currentGridTradeIndex ▸ hindex⟩
      rw [TickCancels, hdecisions]
      rfl
  | manual payload quantity overrideActionId keeps hdecisions =>
      refine .inr ⟨keeps.avgEntryPrice, fun orderId => ?_,
        fun hindex _ => keeps.currentGridTradeIndex ▸ hindex⟩
      rw [TickCancels, List.any_eq_false]
      intro d hd
      rw [hdecisions] at hd
      obtain ⟨d', hd', rfl⟩ := List.mem_map.mp hd
      have horder : d'.order.isSome = true := by
        split at hd'
        · exact order_isSome_of_mem_closing hd'
        · rw [List.mem_singleton.mp hd']
          rfl
      rw [not_cancelsOnly_of_order]
      · exact Bool.false_ne_true
      · rw [order_attribute, Option.isSome_map]
        exact horder
  | forced sender before after decisions from_ emits next sent =>
      obtain ⟨d, hd, hbuy⟩ := emits.buys sender
      rw [← sent] at hd
      cases (hquiet d hd).symm.trans hbuy
  | sold quantity overrideActionId flat index schemaVersion hdecisions => exact .inl index

/-- What a tick without a buy leaves of the rung of a flat ladder. -/
inductive RungAfter (input : TTInput) (state : TTState) (output : TTOutput) : Prop where
  | freed (index : output.nextState.currentGridTradeIndex = none)
  | kept (keeps : KeepsRung state output)
  /-- The regime cancelled every open buy, and the rung stays. -/
  | blocked (block : (regimeEntryBlock input input.nowMs state).1.isSome = true)
      (index : output.nextState.currentGridTradeIndex = state.currentGridTradeIndex)

theorem alignedIndex_zero (hflat : state.avgEntryPrice = none) (h : alignedIndex state = some 0) :
    state.currentGridTradeIndex = some 0 := by
  unfold alignedIndex at h
  rw [hflat] at h
  split at h
  · next hnone _ => cases hnone
  · cases h
  · exact h

theorem regimeBlockCancels_all {block : Option RegimeBlock} (h : block.isSome = true)
    {o : OpenOrder} (ho : o ∈ openBuysFor input) :
    (regimeBlockCancels input block).any (Decision.cancelsOnly o.orderId) = true := by
  cases block with
  | none => cases h
  | some blocked =>
      rw [List.any_eq_true]
      exact ⟨_, List.mem_map.mpr ⟨o, ho, rfl⟩, by simp [Decision.cancelsOnly]⟩

/-- The buy side, where it bought nothing. -/
theorem BuyOutcome.rung (h : BuyOutcome input state output)
    (hquiet : ∀ d ∈ output.decisions, d.sends .buy input.market.symbol = false) :
    RungAfter input state output := by
  have hcost := h.keepsCost
  have hbuys : ¬ ∃ d ∈ output.decisions, d.sends .buy input.market.symbol = true := by
    rintro ⟨d, hd, hbuy⟩
    cases (hquiet d hd).symm.trans hbuy
  cases h with
  | pyramid quantity addIndex addPrice held next hdecisions =>
      refine absurd ⟨_, by rw [hdecisions]; exact List.mem_cons_self, ?_⟩ hbuys
      simp [Decision.sends, Decision.order, buildPyramidBuyDecision, buyIntent]
  | grid after hasGrid unblocked emits next => exact absurd emits.buys hbuys
  | first quantity noGrid unblocked flat keeps hdecisions =>
      refine absurd ⟨_, by rw [hdecisions]; exact List.mem_cons_self, ?_⟩ hbuys
      simp [Decision.sends, Decision.order, buildFirstBuyDecision, buyIntent]
  | report index block hblock hindex next hdecisions =>
      have hnext := next.currentGridTradeIndex
      dsimp only at hnext
      split at hnext
      · next hempty =>
          rw [List.isEmpty_iff] at hempty
          rw [hempty, List.nil_append] at hdecisions
          cases hcase : block with
          | none =>
              refine .kept ⟨hcost.avgEntryPrice, fun orderId => ?_, fun hzero hflat => ?_⟩
              · rw [TickCancels, hdecisions, hcase]
                rfl
              · rcases hindex with hindex | ⟨-, hindex⟩
                · exact hindex ▸ hnext ▸ hzero
                · exact alignedIndex_zero hflat (hindex ▸ hnext ▸ hzero)
          | some blocked =>
              have hsome : block.isSome = true := by rw [hcase]; rfl
              refine .blocked (hblock ▸ hsome) ?_
              rcases hindex with hindex | ⟨hnone, -⟩
              · exact hnext.trans hindex
              · rw [hnone] at hsome
                cases hsome
      · exact .freed hnext

theorem LateOutcome.blocked (h : LateOutcome input state output)
    (hflat : state.avgEntryPrice = none)
    (hblocked : (regimeEntryBlock input input.nowMs state).1.isSome = true) :
    (∀ d ∈ output.decisions, d.sends .buy input.market.symbol = false) ∧
      (∀ o ∈ openBuysFor input, TickCancels output o.orderId = true) ∧
      output.nextState.currentGridTradeIndex = state.currentGridTradeIndex := by
  cases h with
  | sell terminal => exact absurd hflat terminal.held
  | buy at_ keeps outcome =>
      rw [← regimeEntryBlock_of_keeps _ keeps] at hblocked
      rw [← keeps.currentGridTradeIndex]
      cases outcome with
      | pyramid quantity addIndex addPrice held next hdecisions =>
          rw [keeps.avgEntryPrice, hflat] at held
          cases held
      | grid after hasGrid unblocked emits next =>
          rw [unblocked] at hblocked
          cases hblocked
      | first quantity noGrid unblocked flat keeps' hdecisions =>
          rw [unblocked] at hblocked
          cases hblocked
      | report index block hblock hindex next hdecisions =>
          rw [← hblock] at hblocked
          have hnext := next.currentGridTradeIndex
          have hreport := hdecisions
          rw [entryTimeoutCancels_blocked hblocked] at hdecisions hnext
          refine ⟨fun d hd => ?_, fun o ho => ?_, ?_⟩
          · rw [hreport] at hd
            rcases mem_report hd with ⟨o, -, why, -, rfl⟩ | rfl
            · rfl
            · rfl
          · rw [TickCancels, hdecisions, List.nil_append, List.any_append,
              regimeBlockCancels_all hblocked ho]
            rfl
          · rcases hindex with hindex | ⟨hnone, -⟩
            · exact hnext.trans hindex
            · rw [hnone] at hblocked
              cases hblocked

theorem LateOutcome.rung (h : LateOutcome input state output)
    (hflat : state.avgEntryPrice = none)
    (hquiet : ∀ d ∈ output.decisions, d.sends .buy input.market.symbol = false) :
    RungAfter input state output := by
  cases h with
  | sell terminal => exact absurd hflat terminal.held
  | buy at_ keeps outcome =>
      cases outcome.rung hquiet with
      | freed index => exact .freed index
      | kept rung =>
          refine .kept ⟨rung.avgEntryPrice.trans keeps.avgEntryPrice, rung.cancels,
            fun hzero _ => ?_⟩
          rw [← keeps.currentGridTradeIndex]
          exact rung.index hzero (keeps.avgEntryPrice.trans hflat)
      | blocked block index =>
          rw [regimeEntryBlock_of_keeps _ keeps] at block
          exact .blocked block (index.trans keeps.currentGridTradeIndex)

/-- A held position that is gone after the tick was sold, and its rung with it. -/
theorem LateOutcome.index_of_sold (h : LateOutcome input state output)
    (hheld : state.avgEntryPrice ≠ none) (hnext : output.nextState.avgEntryPrice = none) :
    output.nextState.currentGridTradeIndex = none := by
  cases h with
  | buy at_ keeps outcome =>
      refine absurd (Eq.trans ?_ hnext) hheld
      rw [outcome.keepsCost.avgEntryPrice, keeps.avgEntryPrice]
  | sell terminal =>
      cases terminal with
      | sold emission reason held sells hdecisions flat index => exact index
      | refused held keeps => exact absurd (keeps.avgEntryPrice.symm.trans hnext) hheld
      | armed at_ held keeps next => exact absurd (next.avgEntryPrice.symm.trans hnext) hheld

theorem AfterDrop.eq_of_flat {start after : TTState} (h : AfterDrop input start after)
    (hflat : start.avgEntryPrice = none) : after = start := by
  cases h with
  | kept _ => rfl
  | dropped hdrops =>
      have hheld := hdrops.held
      rw [hflat] at hheld
      cases hheld

theorem freesRung_iff (hflat : input.state.avgEntryPrice = none)
    (htick : computeTick input = .ok output) : FreesRung input output ↔ ¬ BlocksOnRung input := by
  have hstart := keeps_startState input
  have hflat' : (startState input).avgEntryPrice = none := hstart.avgEntryPrice.trans hflat
  have hblock : regimeEntryBlock input input.nowMs (startState input) =
      regimeEntryBlock input input.nowMs input.state := regimeEntryBlock_of_keeps _ hstart
  constructor
  · rintro hfrees ⟨-, hpasses, hresting, hrung, hblocked⟩
    cases (computeTick_outcome input).returned htick with
    | early stopped outcome => exact stopped ⟨hpasses.override, hpasses.notDue, hpasses.notPaused⟩
    | late passes after drop outcome =>
        rw [drop.eq_of_flat hflat'] at outcome
        rw [← hblock] at hblocked
        obtain ⟨hquiet, hcancels, hindex⟩ := outcome.blocked hflat' hblocked
        have hnone := hfrees ⟨hresting, hcancels⟩ hquiet
        rw [hindex, hstart.currentGridTradeIndex] at hnone
        exact hrung hnone
  · intro hunblocked hcancels hquiet
    obtain ⟨o, ho⟩ := List.exists_mem_of_ne_nil _ hcancels.resting
    have hcancelled := hcancels.cancels o ho
    cases (computeTick_outcome input).returned htick with
    | early stopped outcome =>
        rcases outcome.rung hquiet with hnone | hkept
        · exact hnone
        · cases (hkept.cancels o.orderId).symm.trans hcancelled
    | late passes after drop outcome =>
        rw [drop.eq_of_flat hflat'] at outcome
        cases outcome.rung hflat' hquiet with
        | freed index => exact index
        | kept hkept => cases (hkept.cancels o.orderId).symm.trans hcancelled
        | blocked block index =>
            rw [index, hstart.currentGridTradeIndex]
            by_contra hrung
            refine hunblocked ⟨hflat, ⟨passes.override, passes.notDue, passes.notPaused⟩,
              hcancels.resting, hrung, ?_⟩
            rw [← hblock]
            exact block

/-! ### Runs over the order book -/

/-- A profile with its resting buys and the number of buys sent and not yet on the book. -/
structure Book where
  state : TTState
  openBuys : List OpenOrder
  inFlight : ℕ

/-- The book after a tick: its cancels succeed, and its buys are on their way. -/
def Book.afterTick (book : Book) (input : TTInput) (output : TTOutput) : Book where
  state := output.nextState
  openBuys := book.openBuys.filter fun o => !TickCancels output o.orderId
  inFlight := book.inFlight + (output.decisions.filter (·.sends .buy input.market.symbol)).length

/-- One step of a run: a tick, a buy reaching the book, or an adopted fill. -/
inductive BookStep (ok : TTInput → Prop) : Book → Book → Prop where
  | tick {book : Book} (input : TTInput) (output : TTOutput) (state_eq : input.state = book.state)
      (book_eq : openBuysFor input = book.openBuys) (allowed : ok input)
      (tick_eq : computeTick input = .ok output) :
      BookStep ok book (book.afterTick input output)
  | acknowledged {state : TTState} {openBuys : List OpenOrder} {inFlight : ℕ} (order : OpenOrder) :
      BookStep ok ⟨state, openBuys, inFlight + 1⟩ ⟨state, openBuys ++ [order], inFlight⟩
  | bought {book : Book} {next : TTState} {avgEntryPrice heldQuantity : DecimalString}
      {remaining : List OpenOrder} {inFlight : ℕ} (sublist : remaining.Sublist book.openBuys)
      (le : inFlight ≤ book.inFlight)
      (fill : applyFill book.state (.buy avgEntryPrice heldQuantity) = some next) :
      BookStep ok book ⟨next, remaining, inFlight⟩
  | reduced {book : Book} {next : TTState} {heldQuantity : DecimalString}
      (fill : applyFill book.state (.sellReduce heldQuantity) = some next) :
      BookStep ok book { book with state := next }
  | emptied {book : Book} {next : TTState} (fill : applyFill book.state .empty = some next) :
      BookStep ok book { book with state := next }

/-- The books a fresh profile reaches. -/
def BookReached (ok : TTInput → Prop) (book : Book) : Prop :=
  Relation.ReflTransGen (BookStep ok) ⟨initialTTState, [], 0⟩ book

/-- A flat ladder on rung 0 has a buy resting or on its way. -/
def Book.Backed (book : Book) : Prop :=
  book.state.avgEntryPrice = none → book.state.currentGridTradeIndex = some 0 →
    book.openBuys ≠ [] ∨ 0 < book.inFlight

theorem filter_eq_self_of_kept {openBuys : List OpenOrder}
    (h : ∀ orderId, TickCancels output orderId = false) :
    openBuys.filter (fun o => !TickCancels output o.orderId) = openBuys := by
  rw [List.filter_eq_self]
  intro o _
  rw [h o.orderId]
  rfl

/-- A tick the regime does not block on a rung leaves every rung 0 backed. -/
theorem Book.backed_afterTick {book : Book} (hstate : input.state = book.state)
    (hbook : openBuysFor input = book.openBuys) (hok : ¬ BlocksOnRung input)
    (htick : computeTick input = .ok output) (hbacked : book.Backed) :
    (book.afterTick input output).Backed := by
  have hstart := keeps_startState input
  intro hflat hzero
  by_cases hquiet : ∀ d ∈ output.decisions, d.sends .buy input.market.symbol = false
  · have hcleared : output.nextState.currentGridTradeIndex ≠ none := by
      rw [show output.nextState.currentGridTradeIndex = some 0 from hzero]
      exact Option.some_ne_none 0
    -- where nothing was cancelled, the orders that backed the rung still do
    have hkept : KeepsRung (startState input) output → (book.afterTick input output).openBuys ≠ [] ∨
        0 < (book.afterTick input output).inFlight := by
      intro hkept
      have hstartFlat := hkept.avgEntryPrice.symm.trans hflat
      have hindex := hkept.index hzero hstartFlat
      rw [hstart.currentGridTradeIndex, hstate] at hindex
      rw [hstart.avgEntryPrice, hstate] at hstartFlat
      unfold Book.afterTick
      rw [filter_eq_self_of_kept hkept.cancels]
      exact (hbacked hstartFlat hindex).imp_right fun h => Nat.add_pos_left h _
    cases (computeTick_outcome input).returned htick with
    | early stopped outcome => exact (outcome.rung hquiet).elim (absurd · hcleared) hkept
    | late passes after drop outcome =>
        cases drop with
        | dropped hdrops =>
            cases outcome.rung rfl hquiet with
            | freed index => exact absurd index hcleared
            | kept rung => cases rung.index hzero rfl
            | blocked block index => exact absurd index hcleared
        | kept _ =>
            by_cases hstartFlat : (startState input).avgEntryPrice = none
            · cases outcome.rung hstartFlat hquiet with
              | freed index => exact absurd index hcleared
              | kept rung => exact hkept rung
              | blocked block index =>
                  -- the block found no order to cancel, so the buy is still on its way
                  have hindex := index.symm.trans hzero
                  rw [hstart.currentGridTradeIndex] at hindex
                  rw [hstart.avgEntryPrice] at hstartFlat
                  have hempty : openBuysFor input = [] := by
                    by_contra hresting
                    refine hok ⟨hstartFlat, ⟨passes.override, passes.notDue, passes.notPaused⟩,
                      hresting, by rw [hindex]; exact Option.some_ne_none 0, ?_⟩
                    rw [← regimeEntryBlock_of_keeps _ hstart]
                    exact block
                  refine .inr (Nat.add_pos_left ?_ _)
                  rw [hstate] at hindex hstartFlat
                  exact (hbacked hstartFlat hindex).resolve_left fun h => h (hbook ▸ hempty)
            · exact absurd (outcome.index_of_sold hstartFlat hflat) hcleared
  · obtain ⟨d, hd, hbuy⟩ : ∃ d ∈ output.decisions, d.sends .buy input.market.symbol = true := by
      simpa using hquiet
    refine .inr (Nat.add_pos_right _ ?_)
    exact List.length_pos_of_mem (List.mem_filter.mpr ⟨hd, hbuy⟩)

theorem BookStep.backed {book next : Book}
    (h : BookStep (fun input => ¬ BlocksOnRung input) book next)
    (hbacked : book.Backed) : next.Backed := by
  cases h with
  | tick input output state_eq book_eq allowed tick_eq =>
      exact Book.backed_afterTick state_eq book_eq allowed tick_eq hbacked
  | acknowledged order => exact fun _ _ => .inl (by simp)
  | bought sublist le fill =>
      intro hflat
      unfold applyFill at fill
      split at fill
      · cases fill
      · cases fill
        cases hflat
  | reduced fill =>
      unfold applyFill at fill
      split at fill
      · cases fill
      · cases fill
        exact hbacked
  | emptied fill =>
      intro _ hzero
      unfold applyFill at fill
      dsimp only at fill
      split at fill
      · cases fill
      · split at fill
        · cases fill
        · cases fill
          cases hzero

theorem BookReached.backed {book : Book}
    (h : BookReached (fun input => ¬ BlocksOnRung input) book) : book.Backed := by
  induction h with
  | refl => exact nofun
  | tail _ step ih => exact step.backed ih

/--
A flat ladder never waits on an entry that was cancelled, unless the regime's
block cancelled it on a rung: tick by tick, a cancelled entry frees its rung
exactly where no such block is taken, and over every run of such ticks a flat
profile with no buy resting or on its way is not on rung 0.
-/
theorem flat_ladder_never_wedges (input : TTInput) (output : TTOutput) (book : Book) :
    (input.state.avgEntryPrice = none → computeTick input = .ok output →
      (FreesRung input output ↔ ¬ BlocksOnRung input)) ∧
    (BookReached (fun input => ¬ BlocksOnRung input) book →
      book.state.avgEntryPrice = none → book.openBuys = [] → book.inFlight = 0 →
        book.state.currentGridTradeIndex ≠ some 0) := by
  constructor
  · exact freesRung_iff
  · intro hreached hflat hopen hflight hzero
    rcases hreached.backed hflat hzero with hresting | hsent
    · exact hresting hopen
    · exact absurd hflight hsent.ne'

/-- The resting entry of the sample profile. -/
def sampleEntry : OpenOrder :=
  { orderId := 11, clientOrderId := gridBuyClientOrderId "p" "BTCUSDT" 0, symbol := "BTCUSDT"
    side := .buy, type := .limit, status := "NEW", price := .raw "95", origQty := .raw "1"
    executedQty := .raw "0", stopPrice := none, trailingDelta := none, transactTimeMs := 0 }

/-- The fresh sample profile after a tick that sent its entry. -/
def sampleSent : TTState := tickedState (sampleInput sampleConfig initialTTState "100" 0)

theorem sampleSent_tick : ∃ output,
    computeTick (sampleInput sampleConfig initialTTState "100" 0) = .ok output ∧
      Book.afterTick ⟨initialTTState, [], 0⟩ (sampleInput sampleConfig initialTTState "100" 0)
        output = ⟨sampleSent, [], 1⟩ := by
  have hsent : (computeTick (sampleInput sampleConfig initialTTState "100" 0)).toOption.map
      (fun output => (output.nextState,
        (output.decisions.filter (·.sends .buy "BTCUSDT")).length)) = some (sampleSent, 1) := by
    decide +kernel
  obtain ⟨sent, htick, hshown⟩ := exists_ok_of_map hsent
  obtain ⟨hnext, hcount⟩ := Prod.ext_iff.mp hshown
  refine ⟨sent, htick, ?_⟩
  rw [Book.afterTick, show sent.nextState = sampleSent from hnext]
  exact congrArg (Book.mk sampleSent []) (congrArg (0 + ·) hcount)

theorem reached_sampleEntry {ok : TTInput → Prop}
    (hok : ok (sampleInput sampleConfig initialTTState "100" 0)) :
    BookReached ok ⟨sampleSent, [sampleEntry], 0⟩ := by
  obtain ⟨sent, htick, hbook⟩ := sampleSent_tick
  have hstep := @BookStep.tick ok ⟨initialTTState, [], 0⟩ _ sent rfl rfl hok htick
  rw [hbook] at hstep
  exact (Relation.ReflTransGen.single hstep).tail (.acknowledged sampleEntry)

/-- The sample profile with maker entries that time out after one closed candle. -/
def sampleMaker : TTConfig :=
  { sampleConfig with execution := some ⟨.maker, none, some 1⟩ }

/-- The sample profile held to a confirmed uptrend. -/
def sampleUptrend : TTConfig :=
  { sampleConfig with
    regime := some
      { ma := .sma, period := 200, confirmBars := 3, exposure := none, onBear := none
        onBull := some { hold := none, pyramid := none, requireEntry := true } } }

/-- A tick of the sample profile that sees its entry rest, one candle after it went out. -/
def sampleResting0 (config : TTConfig) (state : TTState) : TTInput :=
  let input := sampleInput config state "100" 0
  { input with
    openOrders := [sampleEntry]
    market := { input.market with
      candlesByInterval := fun _ => some
        [{ openTimeMs := 0, closeTimeMs := 500, openPrice := "100", high := "100", low := "100"
           close := "100", volume := "1", isClosed := true }] } }

theorem cancelsEntry_sampleEntry {input : TTInput} {output : TTOutput}
    (hentry : openBuysFor input = [sampleEntry]) (hcancels : TickCancels output 11 = true) :
    CancelsEntry input output where
  resting := by
    rw [hentry]
    exact List.cons_ne_nil _ _
  cancels := by
    intro o ho
    rw [hentry, List.mem_singleton] at ho
    rw [ho]
    exact hcancels

theorem no_sends_of_length {decisions : List Decision} {symbol : String}
    (h : (decisions.filter (·.sends .buy symbol)).length = 0) :
    ∀ d ∈ decisions, d.sends .buy symbol = false := by
  rw [List.length_eq_zero_iff, List.filter_eq_nil_iff] at h
  exact fun d hd => Bool.eq_false_iff.mpr (h d hd)

/-- The tick that finds the entry timed out. -/
def sampleEntryTimedOut : TTInput := sampleResting0 sampleMaker sampleSent

theorem timed_out_entry_frees_rung :
    ∃ output, computeTick sampleEntryTimedOut = .ok output ∧ TickCancels output 11 = true ∧
      output.nextState.currentGridTradeIndex = none ∧
      ∃ book : Book,
        book = Book.afterTick ⟨sampleSent, [sampleEntry], 0⟩ sampleEntryTimedOut output ∧
        BookReached (fun input => ¬ BlocksOnRung input) book ∧
        book.state.currentGridTradeIndex ≠ some 0 := by
  have htimeout : (computeTick sampleEntryTimedOut).toOption.map
      (fun output => (TickCancels output 11, output.nextState.avgEntryPrice,
        (output.decisions.filter (·.sends .buy "BTCUSDT")).length)) = some (true, none, 0) := by
    decide +kernel
  obtain ⟨output, htick, hshown⟩ := exists_ok_of_map htimeout
  simp only [Prod.mk.injEq] at hshown
  obtain ⟨hcancels, hflat, hquiet⟩ := hshown
  have hunblocked : ¬ BlocksOnRung sampleEntryTimedOut := fun h =>
    absurd h.blocked (by decide +kernel)
  have hentry : openBuysFor sampleEntryTimedOut = [sampleEntry] := by decide +kernel
  have hreached : BookReached (fun input => ¬ BlocksOnRung input)
      (Book.afterTick ⟨sampleSent, [sampleEntry], 0⟩ sampleEntryTimedOut output) :=
    (reached_sampleEntry fun h => Bool.false_ne_true h.blocked).tail
      (.tick sampleEntryTimedOut output rfl hentry hunblocked htick)
  obtain ⟨hfrees, hrung⟩ := flat_ladder_never_wedges sampleEntryTimedOut output
    (Book.afterTick ⟨sampleSent, [sampleEntry], 0⟩ sampleEntryTimedOut output)
  have hnone : FreesRung sampleEntryTimedOut output :=
    (hfrees (by decide +kernel) htick).mpr hunblocked
  refine ⟨output, htick, hcancels, hnone (cancelsEntry_sampleEntry hentry hcancels)
    (no_sends_of_length hquiet), _, rfl, hreached,
    hrung hreached hflat ?_ (congrArg (0 + ·) hquiet)⟩
  simp [Book.afterTick, show TickCancels output sampleEntry.orderId = true from hcancels]

/-- The tick of the uptrend requirement that finds the entry resting and the trend unknown. -/
def sampleBlocked : TTInput := sampleResting0 sampleUptrend sampleSent

/-- The requirement cancels the entry, and the ladder waits on rung 0 for an order that is gone. -/
theorem blocked_entry_wedges_ladder :
    (∃ output, computeTick sampleBlocked = .ok output ∧ sampleBlocked.state.avgEntryPrice = none ∧
      ¬ FreesRung sampleBlocked output) ∧
      ∃ book, BookReached (fun _ => True) book ∧ book.state.avgEntryPrice = none ∧
        book.openBuys = [] ∧ book.inFlight = 0 ∧ book.state.currentGridTradeIndex = some 0 := by
  have hblocked : (computeTick sampleBlocked).toOption.map
      (fun output => (output.nextState.avgEntryPrice, output.nextState.currentGridTradeIndex,
        TickCancels output 11, (output.decisions.filter (·.sends .buy "BTCUSDT")).length)) =
      some (none, some 0, true, 0) := by
    decide +kernel
  obtain ⟨output, htick, hshown⟩ := exists_ok_of_map hblocked
  simp only [Prod.mk.injEq] at hshown
  obtain ⟨hflat, hindex, hcancels, hquiet⟩ := hshown
  have hentry : openBuysFor sampleBlocked = [sampleEntry] := by decide +kernel
  constructor
  · refine ⟨output, htick, by decide +kernel, fun hfrees => ?_⟩
    exact Option.some_ne_none 0 (hindex.symm.trans
      (hfrees (cancelsEntry_sampleEntry hentry hcancels) (no_sends_of_length hquiet)))
  · -- the entry rests, and the next tick takes it off again
    have hstep := @BookStep.tick (fun _ => True) ⟨sampleSent, [sampleEntry], 0⟩ sampleBlocked output
      rfl hentry trivial htick
    refine ⟨_, (reached_sampleEntry trivial).tail hstep, hflat, ?_, ?_, hindex⟩
    · simp [Book.afterTick, show TickCancels output sampleEntry.orderId = true from hcancels]
    · exact congrArg (0 + ·) hquiet

end TradingBot.TrailingTrade
