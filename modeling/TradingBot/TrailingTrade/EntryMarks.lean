import TradingBot.TrailingTrade.FlatGrid

/-!
# Whose marker and clock a position opens with

An entry order stamps its discovery marker and its clock when it is sent, long
before a fill adopts them, so a position opens with whatever marks the state
carries by then. A run therefore records which entry order went out last. The
marks are that order's own as long as no earlier entry leaves them behind: the
maker timeout, the re-pricing of a resting entry and a profile that gave up its
ladder do.
-/

namespace TradingBot.TrailingTrade

open Decimal EarlyExit

variable {input : TTInput} {state : TTState} {output : TTOutput} {d : Decision}

/-! ### Entry orders and marks -/

/-- The decision is an entry's order: a rung of the ladder, or the single first buy. -/
def Decision.enters (symbol : String) (d : Decision) : Bool :=
  d.sends .buy symbol && reasonOf d == some "grid-buy"

/-- The tick sends an entry order: an entry's buy, while no position is held. -/
def sendsEntry (input : TTInput) (output : TTOutput) : Bool :=
  output.nextState.avgEntryPrice.isNone &&
    output.decisions.any (Decision.enters input.market.symbol)

/-- The state carries a discovery marker or an entry clock. -/
def Marked (state : TTState) : Prop :=
  state.discoveryEntry = true ∨ state.entryAtMs.isSome = true

structure SameMarks (before after : TTState) : Prop where
  marker : after.discoveryEntry = before.discoveryEntry
  clock : after.entryAtMs = before.entryAtMs

theorem KeepsPosition.sameMarks {before after : TTState} (h : KeepsPosition before after) :
    SameMarks before after :=
  ⟨h.discoveryEntry, h.entryAtMs⟩

theorem SameMarks.trans {a b c : TTState} (hab : SameMarks a b) (hbc : SameMarks b c) :
    SameMarks a c :=
  ⟨hbc.marker.trans hab.marker, hbc.clock.trans hab.clock⟩

theorem SameMarks.marked_iff {before after : TTState} (h : SameMarks before after) :
    Marked after ↔ Marked before := by
  unfold Marked
  rw [h.marker, h.clock]

theorem FlatClean.not_marked (h : FlatClean state) : ¬ Marked state := by
  rintro (hmarker | hclock)
  · rw [h.discoveryEntry] at hmarker
    cases hmarker
  · rw [h.entryAtMs] at hclock
    cases hclock

/-- The maker timeout takes a resting entry off the book. -/
structure TimesOut (input : TTInput) : Prop where
  passes : Passes input (startState input)
  cancels : entryTimeoutCancels input input.state
    (regimeEntryBlock input input.nowMs input.state).1 ≠ []

/-- The ladder is flat on rung 0, where an entry can only be re-priced. -/
structure OnEntryRung (input : TTInput) : Prop where
  passes : Passes input (startState input)
  flat : input.state.avgEntryPrice = none
  rung : input.state.currentGridTradeIndex = some 0

/-- The resting entry of rung 0 has drifted far enough to be re-priced. -/
structure Reprices (input : TTInput) : Prop extends OnEntryRung input where
  drifted : ∃ resting level, restingGridBuy input 0 = some resting ∧
    input.config.buy.gridLevels.head? = some level ∧
    keepsResting input.config resting (gridStopLimit input level) = false

/-! ### What a tick does to the marks -/

/-- The marks an entry is sent on top of: none, or those of a flat ladder that is on no entry. -/
inductive SentOver (input : TTInput) (before : TTState) : Prop where
  | unmarked (h : ¬ Marked before)
  | kept (flat : input.state.avgEntryPrice = none)
      (offRung : input.state.currentGridTradeIndex ≠ some 0) (same : SameMarks input.state before)

/-- What a tick that ends flat did to the marks. -/
inductive MarkStep (input : TTInput) (output : TTOutput) : Prop where
  /-- No entry went out. -/
  | kept (flat : input.state.avgEntryPrice = none) (unsent : sendsEntry input output = false)
      (same : SameMarks input.state output.nextState)
      (rung : ¬ TimesOut input → input.state.currentGridTradeIndex = some 0 →
        output.nextState.currentGridTradeIndex = some 0)
  /-- The position was sold, or dropped without an entry. -/
  | cleared (unsent : sendsEntry input output = false) (unmarked : ¬ Marked output.nextState)
  /-- A fresh entry of the ladder stamps its own marks. -/
  | fresh (before : TTState) (prior : SentOver input before) (sent : sendsEntry input output = true)
      (hasGrid : input.config.buy.gridLevels.isEmpty = false) (offRung : ¬ OnEntryRung input)
      (marker : output.nextState.discoveryEntry =
        (input.bundle.entersOnAdd || before.discoveryEntry))
      (clock : output.nextState.entryAtMs =
        if input.bundle.entersOnAdd || input.config.sell.timeStopBars > 0 then some input.nowMs
        else before.entryAtMs)
      (rung : output.nextState.currentGridTradeIndex = some 0)
  /-- The resting entry is sent again at another price, under the marks it had. -/
  | repriced (reprices : Reprices input) (sent : sendsEntry input output = true)
      (same : SameMarks input.state output.nextState)
  /-- The single first buy of a profile without a ladder stamps nothing. -/
  | single (noGrid : input.config.buy.gridLevels.isEmpty = true)
      (sent : sendsEntry input output = true)
      (prior : input.state.avgEntryPrice = none ∧ SameMarks input.state output.nextState ∨
        input.state.avgEntryPrice ≠ none ∧ ¬ Marked output.nextState)

/-! ### Which ticks send an entry -/

theorem enters_attribute (symbol overrideActionId : String) (d : Decision) :
    Decision.enters symbol (Decision.attribute overrideActionId d) = Decision.enters symbol d := by
  simp [Decision.enters]

theorem any_enters_asSent (symbol : String) (sender : Option String) (decisions : List Decision) :
    (asSent sender decisions).any (Decision.enters symbol) =
      decisions.any (Decision.enters symbol) := by
  cases sender with
  | none => rfl
  | some overrideActionId =>
      simp [asSent, attributeToOverride, List.any_map, Function.comp_def, enters_attribute]

theorem GridEmits.any_enters {now : ℤ} {before after : TTState} {decisions : List Decision}
    (h : GridEmits input now before after decisions) :
    decisions.any (Decision.enters input.market.symbol) = true := by
  cases h with
  | rung target level quantity htarget hlevel hrepriced hafter hdecisions =>
      rw [hdecisions, List.any_append, Bool.or_eq_true]
      refine .inr ?_
      simp [Decision.enters, Decision.sends, Decision.order, reasonOf, buildGridBuyDecision,
        buyIntent]

theorem enters_firstBuy (input : TTInput) (quantity : DecimalString) :
    Decision.enters input.market.symbol (buildFirstBuyDecision input quantity) = true := by
  simp [Decision.enters, Decision.sends, Decision.order, reasonOf, buildFirstBuyDecision, buyIntent]

theorem not_sendsEntry_of_no_buy
    (h : ∀ d ∈ output.decisions, d.sends .buy input.market.symbol = false) :
    sendsEntry input output = false := by
  rw [sendsEntry, Bool.and_eq_false_iff]
  refine .inr (List.any_eq_false.mpr fun d hd => ?_)
  rw [Decision.enters, h d hd]
  exact Bool.false_ne_true

theorem sendsEntry_of_any (hflat : output.nextState.avgEntryPrice = none)
    (h : output.decisions.any (Decision.enters input.market.symbol) = true) :
    sendsEntry input output = true := by
  rw [sendsEntry, hflat, h]
  rfl

/-! ### The rung an entry is sent from -/

/-- A flat ladder on no rung enters. -/
theorem gridTarget_entry {target : GridTarget} (hflat : state.avgEntryPrice = none)
    (hindex : state.currentGridTradeIndex = none) (h : gridTarget input state = .ok target) :
    target = ⟨0, true⟩ := by
  unfold gridTarget at h
  rw [hflat, hindex] at h
  dsimp only at h
  unfold entryTarget at h
  repeat' split at h
  all_goals cases h
  all_goals rfl

/-- A flat ladder on a rung can only look after the order of that rung. -/
theorem gridTarget_resting {target : GridTarget} {index : ℕ} (hflat : state.avgEntryPrice = none)
    (hindex : state.currentGridTradeIndex = some index) (h : gridTarget input state = .ok target) :
    target = ⟨index, false⟩ ∧ (restingGridBuy input index).isSome = true := by
  unfold gridTarget at h
  rw [hflat, hindex] at h
  dsimp only at h
  split at h
  · next hresting =>
      cases h
      exact ⟨rfl, hresting⟩
  · cases h

/-- A fresh entry: rung 0, with the marks of the entry over those that were there. -/
theorem GridEmits.entry {now : ℤ} {before after : TTState} {decisions : List Decision}
    (h : GridEmits input now before after decisions) (hflat : before.avgEntryPrice = none)
    (hindex : before.currentGridTradeIndex = none) :
    after.discoveryEntry = (input.bundle.entersOnAdd || before.discoveryEntry) ∧
      after.entryAtMs =
        (if input.bundle.entersOnAdd || input.config.sell.timeStopBars > 0 then some now
        else before.entryAtMs) ∧
      after.currentGridTradeIndex = some 0 ∧ input.config.buy.gridLevels.isEmpty = false := by
  cases h with
  | rung target level quantity htarget hlevel hrepriced hafter hdecisions =>
      rw [gridTarget_entry hflat hindex htarget] at hlevel hafter
      rw [hafter, emittedState_eq]
      refine ⟨rfl, rfl, rfl, ?_⟩
      cases hgrid : input.config.buy.gridLevels with
      | nil =>
          rw [hgrid] at hlevel
          cases hlevel
      | cons first rest => rfl

theorem GridEmits.reprice {now : ℤ} {before after : TTState} {decisions : List Decision}
    (h : GridEmits input now before after decisions) (hflat : before.avgEntryPrice = none)
    (hindex : before.currentGridTradeIndex = some 0) :
    SameMarks before after ∧
      ∃ resting level, restingGridBuy input 0 = some resting ∧
        input.config.buy.gridLevels.head? = some level ∧
        keepsResting input.config resting (gridStopLimit input level) = false := by
  cases h with
  | rung target level quantity htarget hlevel hrepriced hafter hdecisions =>
      obtain ⟨rfl, hresting⟩ := gridTarget_resting hflat hindex htarget
      obtain ⟨resting, hresting⟩ := Option.isSome_iff_exists.mp hresting
      rw [hafter, emittedState_eq]
      refine ⟨⟨by simp, by simp⟩, resting, level, hresting, ?_, ?_⟩
      · rw [List.head?_eq_getElem?]
        exact hlevel
      · rw [hresting] at hrepriced
        exact hrepriced

/-! ### The inversion of a tick, for its marks -/

/-- A tick that ended before its position was looked at. -/
theorem EarlyOutcome.markStep
    (h : EarlyOutcome (normalizedInput input) (startState input) output)
    (hstopped : ¬ Passes input (startState input)) (hflat : output.nextState.avgEntryPrice = none) :
    MarkStep input output := by
  have hstart := keeps_startState input
  have hkept : KeepsPosition (startState input) output.nextState →
      sendsEntry input output = false → MarkStep input output := by
    intro hkeeps hunsent
    have hall := hstart.trans hkeeps
    exact .kept (hall.avgEntryPrice.symm.trans hflat) hunsent hall.sameMarks
      fun _ hindex => hall.currentGridTradeIndex.trans hindex
  cases h with
  | quiet keeps hdecisions =>
      refine hkept keeps (not_sendsEntry_of_no_buy fun d hd => ?_)
      rw [hdecisions, List.mem_singleton] at hd
      rw [hd]
      rfl
  | manual payload quantity overrideActionId keeps hdecisions =>
      refine hkept keeps ?_
      rw [sendsEntry, Bool.and_eq_false_iff]
      refine .inr (List.any_eq_false.mpr fun d hd => ?_)
      rw [hdecisions] at hd
      rw [Decision.enters, reasonOf_manual hd]
      simp
  | forced sender before after decisions from_ emits next sent =>
      have hbefore : before.avgEntryPrice = none := by
        rw [← emits.keepsCost.avgEntryPrice, ← next.avgEntryPrice, hflat]
      cases emits with
      | grid emits =>
          have henters : sendsEntry input output = true := by
            refine sendsEntry_of_any hflat ?_
            rw [sent, any_enters_asSent]
            exact emits.any_enters
          obtain ⟨hmarker, hclock, hrung, hgrid⟩ := emits.entry hbefore rfl
          refine .fresh (entryReset before) (.unmarked ?_) henters hgrid
            (fun h => hstopped h.passes)
            (next.discoveryEntry.trans hmarker) (next.entryAtMs.trans hclock)
            (next.currentGridTradeIndex.trans hrung)
          exact not_or.mpr ⟨Bool.false_ne_true, Bool.false_ne_true⟩
      | single quantity noGrid hafter hdecisions =>
          have hall : KeepsPosition input.state output.nextState :=
            hstart.trans (from_.trans (hafter ▸ next))
          refine .single noGrid (sendsEntry_of_any hflat ?_)
            (.inl ⟨hall.avgEntryPrice.symm.trans hflat, hall.sameMarks⟩)
          rw [sent, any_enters_asSent, hdecisions, List.any_cons]
          exact Bool.or_eq_true_iff.mpr (.inl (enters_firstBuy (normalizedInput input) quantity))
  | sold quantity overrideActionId flat index schemaVersion hdecisions =>
      refine .cleared (not_sendsEntry_of_no_buy ?_) flat.not_marked
      exact (@onlySells_of_closing _ _ (some overrideActionId) _ _ _ hdecisions).2

/-- What the marks of a flat state on the buy side are: those of the tick's state, or none. -/
inductive BuySideOf (input : TTInput) (state : TTState) : Prop where
  | flat (flat : input.state.avgEntryPrice = none) (keeps : KeepsPosition input.state state)
  | dropped (held : input.state.avgEntryPrice ≠ none) (unmarked : ¬ Marked state)
      (index : state.currentGridTradeIndex = none)

theorem BuySideOf.trans {after : TTState} (h : BuySideOf input state)
    (hkeeps : KeepsPosition state after) : BuySideOf input after := by
  cases h with
  | flat flat keeps => exact .flat flat (keeps.trans hkeeps)
  | dropped held unmarked index =>
      exact .dropped held (fun h => unmarked (hkeeps.sameMarks.marked_iff.mp h))
        (hkeeps.currentGridTradeIndex.trans index)

theorem alignedIndex_of_ne_zero (hflat : state.avgEntryPrice = none)
    (h : state.currentGridTradeIndex ≠ some 0) : alignedIndex state = none := by
  unfold alignedIndex
  rw [hflat]
  split
  · next hnone _ => cases hnone
  · rfl
  · next index _ _ hother =>
      cases hindex : state.currentGridTradeIndex with
      | none => rfl
      | some index =>
          cases index with
          | zero => exact absurd hindex h
          | succ n => exact absurd hindex (hother n rfl)

/-- A rung of a flat ladder: the resting entry again, or a fresh one. -/
theorem GridEmits.markStep {after : TTState}
    (h : GridEmits (normalizedInput input) input.nowMs
      { state with currentGridTradeIndex := alignedIndex state } after output.decisions)
    (hnext : KeepsPosition after output.nextState) (hpasses : Passes input (startState input))
    (hside : BuySideOf input state) (hstate : state.avgEntryPrice = none)
    (hflat : output.nextState.avgEntryPrice = none) : MarkStep input output := by
  have henters := @sendsEntry_of_any input output hflat h.any_enters
  by_cases hrung : state.currentGridTradeIndex = some 0
  · -- on rung 0 only the resting entry can be sent again
    cases hside with
    | dropped held unmarked index => cases index.symm.trans hrung
    | flat flat keeps =>
        have haligned : alignedIndex state = some 0 := by
          unfold alignedIndex
          rw [hstate, hrung]
        obtain ⟨hsame, hdrifted⟩ := h.reprice hstate haligned
        refine .repriced ⟨⟨hpasses, flat, ?_⟩, hdrifted⟩ henters ?_
        · exact keeps.currentGridTradeIndex.symm.trans hrung
        · exact keeps.sameMarks.trans (SameMarks.trans ⟨hsame.marker, hsame.clock⟩ hnext.sameMarks)
  · obtain ⟨hmarker, hclock, hindex, hasGrid⟩ :=
      h.entry hstate (alignedIndex_of_ne_zero hstate hrung)
    have hprior : SentOver input state := by
      cases hside with
      | dropped held unmarked index => exact .unmarked unmarked
      | flat flat keeps =>
          exact .kept flat (fun h => hrung (keeps.currentGridTradeIndex.trans h)) keeps.sameMarks
    have hoff : ¬ OnEntryRung input := by
      intro h
      cases hside with
      | dropped held unmarked index => exact held h.flat
      | flat flat keeps => exact hrung (keeps.currentGridTradeIndex.trans h.rung)
    exact .fresh state hprior henters hasGrid hoff (hnext.discoveryEntry.trans hmarker)
      (hnext.entryAtMs.trans hclock) (hnext.currentGridTradeIndex.trans hindex)

/-- The timeout of a tick does not depend on what its earlier branches noted in the state. -/
theorem entryTimeoutCancels_of_keeps {before after : TTState} (now : ℤ)
    (h : KeepsPosition before after) :
    entryTimeoutCancels input after (regimeEntryBlock input now after).1 =
      entryTimeoutCancels input before (regimeEntryBlock input now before).1 := by
  rw [regimeEntryBlock_of_keeps now h]
  unfold entryTimeoutCancels
  rw [h.avgEntryPrice]

theorem BuyOutcome.markStep (h : BuyOutcome (normalizedInput input) state output)
    (hpasses : Passes input (startState input)) (hside : BuySideOf input state)
    (hflat : output.nextState.avgEntryPrice = none) : MarkStep input output := by
  have hstate : state.avgEntryPrice = none := h.keepsCost.avgEntryPrice.symm.trans hflat
  cases h with
  | pyramid quantity addIndex addPrice held next hdecisions =>
      rw [hstate] at held
      cases held
  | grid after hasGrid unblocked emits next =>
      exact emits.markStep next hpasses hside hstate hflat
  | first quantity noGrid unblocked flat keeps hdecisions =>
      refine .single noGrid (sendsEntry_of_any hflat ?_) ?_
      · rw [hdecisions, List.any_cons]
        exact Bool.or_eq_true_iff.mpr (.inl (enters_firstBuy (normalizedInput input) quantity))
      · cases hside with
        | flat flat keeps' => exact .inl ⟨flat, keeps'.sameMarks.trans keeps.sameMarks⟩
        | dropped held unmarked index =>
            exact .inr ⟨held, fun h => unmarked (keeps.sameMarks.marked_iff.mp h)⟩
  | report index block hblock hindex next hdecisions =>
      have hunsent : sendsEntry input output = false := by
        apply not_sendsEntry_of_no_buy
        intro d hd
        rw [hdecisions] at hd
        rcases mem_report hd with ⟨o, -, why, -, rfl⟩ | rfl
        · rfl
        · rfl
      have hsame : SameMarks state output.nextState := ⟨next.discoveryEntry, next.entryAtMs⟩
      cases hside with
      | dropped held unmarked _ =>
          exact .cleared hunsent fun h => unmarked (hsame.marked_iff.mp h)
      | flat flat keeps =>
          refine .kept flat hunsent (keeps.sameMarks.trans hsame) fun htimes hzero => ?_
          -- nothing timed out, so the rung is the one the tick found
          have hnone : entryTimeoutCancels (normalizedInput input) state block = [] := by
            by_contra hcancels
            rw [hblock, entryTimeoutCancels_of_keeps _ keeps] at hcancels
            exact htimes ⟨hpasses, hcancels⟩
          have hstateZero := keeps.currentGridTradeIndex.trans hzero
          rw [next.currentGridTradeIndex, hnone]
          rcases hindex with hindex | ⟨-, hindex⟩
          · exact hindex.trans hstateZero
          · refine hindex.trans ?_
            unfold alignedIndex
            rw [hstate, hstateZero]

/-- Every tick that ends flat did one of these to its marks. -/
theorem computeTick_markStep (htick : computeTick input = .ok output)
    (hflat : output.nextState.avgEntryPrice = none) : MarkStep input output := by
  have hstart := keeps_startState input
  cases (computeTick_outcome input).returned htick with
  | early stopped outcome =>
      exact outcome.markStep (fun h => stopped ⟨h.override, h.notDue, h.notPaused⟩) hflat
  | late passes after drop outcome =>
      cases outcome with
      | sell terminal =>
          rcases terminal.keepsCost_or_sells with hcost | ⟨hclean, hsells⟩
          · exact absurd (hcost.avgEntryPrice.symm.trans hflat) terminal.held
          · exact .cleared (not_sendsEntry_of_no_buy hsells.2) hclean.not_marked
      | buy at_ keeps outcome =>
          refine outcome.markStep ⟨passes.override, passes.notDue, passes.notPaused⟩ ?_ hflat
          refine BuySideOf.trans ?_ keeps
          cases drop with
          | kept _ =>
              refine .flat ?_ hstart
              rw [← hstart.avgEntryPrice, ← keeps.avgEntryPrice, ← outcome.keepsCost.avgEntryPrice]
              exact hflat
          | dropped hdrops =>
              refine .dropped ?_ (not_or.mpr ⟨Bool.false_ne_true, Bool.false_ne_true⟩) rfl
              rw [← hstart.avgEntryPrice]
              exact Option.isSome_iff_ne_none.mp hdrops.held

/-! ### Runs and the entry order sent last -/

/-- An entry order: when it was sent, and whether a discovery hint was armed. -/
structure EntryOrder where
  clock : ℤ
  hinted : Bool

/-- A profile with the entry order it sent last. -/
structure Ledger where
  state : TTState
  entry : Option EntryOrder

def Ledger.afterTick (ledger : Ledger) (input : TTInput) (output : TTOutput) : Ledger where
  state := output.nextState
  entry :=
    if sendsEntry input output then some ⟨input.nowMs, input.bundle.entersOnAdd⟩
    else ledger.entry

/-- One step of a run: a tick, or an adopted fill. -/
inductive LedgerStep (ok : TTInput → Prop) : Ledger → Ledger → Prop where
  | tick {ledger : Ledger} (input : TTInput) (output : TTOutput)
      (state_eq : input.state = ledger.state) (allowed : ok input)
      (tick_eq : computeTick input = .ok output) :
      LedgerStep ok ledger (ledger.afterTick input output)
  | filled {ledger : Ledger} {next : TTState} (adopted : AdoptedFill)
      (fill : applyFill ledger.state adopted = some next) :
      LedgerStep ok ledger { ledger with state := next }

/-- The ledgers of a run from a flat profile that has sent no entry yet. -/
def LedgerReached (ok : TTInput → Prop) (ledger : Ledger) : Prop :=
  ∃ start : TTState, start.avgEntryPrice = none ∧ ¬ Marked start ∧
    Relation.ReflTransGen (LedgerStep ok) ⟨start, none⟩ ledger

/-- The tick leaves the marks of a flat entry behind, or sends another order under them. -/
structure Mismarks (input : TTInput) : Prop where
  flat : input.state.avgEntryPrice = none
  marked : Marked input.state
  slip : input.config.buy.gridLevels.isEmpty = true ∨ TimesOut input ∨ Reprices input

/-- The marks of a flat state are those of the entry order sent last, and it is on rung 0. -/
structure OwnMarks (entry : Option EntryOrder) (state : TTState) : Prop where
  marker : state.discoveryEntry = true → ∃ order ∈ entry, order.hinted = true
  clock : ∀ t, state.entryAtMs = some t → ∃ order ∈ entry, order.clock = t
  rung : Marked state → state.currentGridTradeIndex = some 0

def Ledger.Owned (ledger : Ledger) : Prop :=
  ledger.state.avgEntryPrice = none → OwnMarks ledger.entry ledger.state

theorem ownMarks_of_not_marked (entry : Option EntryOrder) (h : ¬ Marked state) :
    OwnMarks entry state where
  marker := fun hmarker => absurd (.inl hmarker) h
  clock := fun _ hclock => absurd (.inr (Option.isSome_of_eq_some hclock)) h
  rung := fun hmarked => absurd hmarked h

theorem OwnMarks.of_same {entry : Option EntryOrder} {next : TTState} (h : OwnMarks entry state)
    (hsame : SameMarks state next) (hrung : Marked state → next.currentGridTradeIndex = some 0) :
    OwnMarks entry next where
  marker := fun hmarker => h.marker (hsame.marker ▸ hmarker)
  clock := fun t hclock => h.clock t (hsame.clock ▸ hclock)
  rung := fun hmarked => hrung (hsame.marked_iff.mp hmarked)

/-- One tick keeps the marks those of the entry order sent last. -/
theorem Ledger.owned_afterTick {ledger : Ledger} (hstate : input.state = ledger.state)
    (hok : ¬ Mismarks input) (htick : computeTick input = .ok output) (howned : ledger.Owned) :
    (ledger.afterTick input output).Owned := by
  intro hflat
  have hown : input.state.avgEntryPrice = none → OwnMarks ledger.entry input.state := by
    rw [hstate]
    exact howned
  unfold Ledger.afterTick
  cases computeTick_markStep htick hflat with
  | kept flat unsent same rung =>
      rw [unsent]
      refine (hown flat).of_same same fun hmarked => ?_
      exact rung (fun htimes => hok ⟨flat, hmarked, .inr (.inl htimes)⟩) ((hown flat).rung hmarked)
  | cleared unsent unmarked => exact ownMarks_of_not_marked _ unmarked
  | fresh before prior sent hasGrid offRung marker clock rung =>
      have hbefore : ¬ Marked before := by
        cases prior with
        | unmarked h => exact h
        | kept flat offRung same => exact fun h => offRung ((hown flat).rung (same.marked_iff.mp h))
      rw [Marked, not_or, Bool.not_eq_true, Bool.not_eq_true, Option.isSome_eq_false_iff,
        Option.isNone_iff_eq_none] at hbefore
      rw [hbefore.1, Bool.or_false] at marker
      rw [hbefore.2] at clock
      rw [if_pos sent]
      refine ⟨fun hmarker => ⟨_, rfl, marker.symm.trans hmarker⟩, fun t ht => ⟨_, rfl, ?_⟩,
        fun _ => rung⟩
      rw [clock] at ht
      split at ht
      · exact Option.some.inj ht
      · cases ht
  | repriced reprices sent same =>
      refine ownMarks_of_not_marked _ fun hmarked => ?_
      exact hok ⟨reprices.flat, same.marked_iff.mp hmarked, .inr (.inr reprices)⟩
  | single noGrid sent prior =>
      refine ownMarks_of_not_marked _ fun hmarked => ?_
      rcases prior with ⟨flat, same⟩ | ⟨-, unmarked⟩
      · exact hok ⟨flat, same.marked_iff.mp hmarked, .inl noGrid⟩
      · exact unmarked hmarked

theorem Ledger.owned_filled {ledger : Ledger} {next : TTState} {adopted : AdoptedFill}
    (hfill : applyFill ledger.state adopted = some next) (howned : ledger.Owned) :
    Ledger.Owned { ledger with state := next } := by
  intro hflat
  unfold applyFill at hfill
  split at hfill
  · cases hfill
  · split at hfill
    · cases hfill
      cases hflat
    · cases hfill
      have hown := howned hflat
      exact ⟨hown.marker, hown.clock, hown.rung⟩
    · split at hfill
      · cases hfill
      · cases hfill
        exact ownMarks_of_not_marked _ (not_or.mpr ⟨Bool.false_ne_true, Bool.false_ne_true⟩)

theorem LedgerReached.owned {ledger : Ledger}
    (h : LedgerReached (fun input => ¬ Mismarks input) ledger) : ledger.Owned := by
  obtain ⟨start, -, hunmarked, hrun⟩ := h
  induction hrun with
  | refl => exact fun _ => ownMarks_of_not_marked _ hunmarked
  | tail _ step ih =>
      cases step with
      | tick input output state_eq allowed tick_eq =>
          exact Ledger.owned_afterTick state_eq allowed tick_eq ih
      | filled adopted fill => exact Ledger.owned_filled fill ih

/-- A fill that opens a position finds the marks of the entry order it belongs to. -/
def OpensOwn (ledger : Ledger) : Prop :=
  ∀ (order : EntryOrder) (avgEntryPrice heldQuantity : DecimalString) (held : TTState),
    ledger.state.avgEntryPrice = none → ledger.entry = some order →
      applyFill ledger.state (.buy avgEntryPrice heldQuantity) = some held →
        (order.hinted = false → held.discoveryEntry = false) ∧
          ∀ t, held.entryAtMs = some t → t = order.clock

theorem Ledger.Owned.opensOwn {ledger : Ledger} (h : ledger.Owned) : OpensOwn ledger := by
  intro order avgEntryPrice heldQuantity held hflat hentry hfill
  have hown := h hflat
  rw [hentry] at hown
  unfold applyFill at hfill
  split at hfill
  · cases hfill
  · cases hfill
    constructor
    · intro hplain
      rw [← Bool.not_eq_true]
      intro hmarker
      obtain ⟨order', horder, hhinted⟩ := hown.marker hmarker
      cases horder
      rw [hplain] at hhinted
      cases hhinted
    · intro t ht
      obtain ⟨order', horder, hclock⟩ := hown.clock t ht
      cases horder
      exact hclock.symm

/-! ### Which entries are stamped for the time stop -/

/-- The ladder enters afresh, or the clock of this very tick is there already. -/
def StampsClock (input : TTInput) : Prop :=
  input.config.buy.gridLevels.isEmpty = false ∧ ¬ OnEntryRung input ∨
    input.state.avgEntryPrice = none ∧ input.state.entryAtMs = some input.nowMs

theorem entryAtMs_iff_stampsClock (hbars : 0 < input.config.sell.timeStopBars)
    (htick : computeTick input = .ok output) (hsent : sendsEntry input output = true) :
    output.nextState.entryAtMs = some input.nowMs ↔ StampsClock input := by
  have hflat : output.nextState.avgEntryPrice = none := by
    rw [sendsEntry, Bool.and_eq_true, Option.isNone_iff_eq_none] at hsent
    exact hsent.1
  unfold StampsClock
  cases computeTick_markStep htick hflat with
  | kept flat unsent same rung => cases unsent.symm.trans hsent
  | cleared unsent unmarked => cases unsent.symm.trans hsent
  | fresh before prior sent hasGrid offRung marker clock rung =>
      rw [clock, if_pos (by simp [hbars])]
      exact iff_of_true rfl (.inl ⟨hasGrid, offRung⟩)
  | repriced reprices sent same =>
      rw [same.clock]
      exact ⟨fun h => .inr ⟨reprices.flat, h⟩,
        fun h => (h.resolve_left fun h => h.2 reprices.toOnEntryRung).2⟩
  | single noGrid sent prior =>
      rw [noGrid]
      rcases prior with ⟨flat, same⟩ | ⟨held, unmarked⟩
      · rw [same.clock]
        exact ⟨fun h => .inr ⟨flat, h⟩, fun h => (h.resolve_left fun h => nomatch h.1).2⟩
      · refine iff_of_false (fun h => unmarked (.inr (Option.isSome_of_eq_some h))) ?_
        rintro (⟨hgrid, -⟩ | ⟨hflat', -⟩)
        · cases hgrid
        · exact held hflat'

/-- The sample profile with a time stop after five candles. -/
def sampleTimed : TTConfig :=
  { sampleConfig with sell := { sampleConfig.sell with timeStopBars := 5 } }

theorem ledgerStep_ticked {ok : TTInput → Prop} {entry : Option EntryOrder} {sends : Bool}
    (hok : ok input) (h : (computeTick input).toOption.map (sendsEntry input) = some sends) :
    LedgerStep ok ⟨input.state, entry⟩
      ⟨tickedState input,
        if sends then some ⟨input.nowMs, input.bundle.entersOnAdd⟩ else entry⟩ := by
  obtain ⟨output, htick, rfl⟩ := exists_ok_of_map h
  have hstep := @LedgerStep.tick ok ⟨input.state, entry⟩ input output rfl hok htick
  rw [Ledger.afterTick] at hstep
  rw [tickedState, htick]
  exact hstep

theorem applyFill_buy (avgEntryPrice heldQuantity : DecimalString)
    (h : isCurrentSchema state = true) :
    applyFill state (.buy avgEntryPrice heldQuantity) = some
      { state with
        avgEntryPrice := some avgEntryPrice
        heldQuantity := some heldQuantity
        highSinceBuy := none
        breakEvenArmed := false } := by
  rw [applyFill, h]
  rfl

theorem not_marked_initial : ¬ Marked initialTTState :=
  not_or.mpr ⟨Bool.false_ne_true, Bool.false_ne_true⟩

/-- The first tick of the sample profile with a time stop. -/
def sampleTimedTick : TTInput := sampleInput sampleTimed initialTTState "100" 0

/-- A tick of the maker profile for which discovery has armed its hint. -/
def sampleHinted : TTInput :=
  { sampleInput sampleMaker initialTTState "100" 0 with
    bundle := { sampleBundle with
      entryHint := some
        { enterOnAdd := true, high24h := none, maxDistanceFrom24hHighPercent := none
          knifeCandles := none, knifeDropPercent := none } } }

/-- The tick that finds the discovery entry unfilled for a candle. -/
def sampleTimedOut : TTInput := sampleResting0 sampleMaker (tickedState sampleHinted)

/-- The tick a second later, without a hint, on the ladder the timeout freed. -/
def samplePlain : TTInput :=
  { sampleInput sampleMaker (tickedState sampleTimedOut) "100" 0 with nowMs := 2000 }

/-- The sample profile without a ladder, on a time stop and a fixed entry of 100. -/
def sampleSingle : TTInput :=
  sampleInput
    { sampleTimed with
      buy := { sampleTimed.buy with gridLevels := [], entrySizing := some ⟨.fixed, "100", "0"⟩ } }
    initialTTState "100" 0

end TradingBot.TrailingTrade
