import TradingBot.TrailingTrade.SentOrders

/-!
# What becomes of a tracked position

A tick lets go of its cost basis in two ways: it sells the position, or it
drops the basis of a position that went to dust. The drop reads the wallet's
lines without asking whether the wallet was readable, so a held position is
kept out of ignorance exactly where that branch is not taken on such a wallet.
-/

namespace TradingBot.TrailingTrade

open Decimal EarlyExit

variable {input : TTInput} {state : TTState} {output : TTOutput} {d : Decision}

/-! ### What an emission leaves of the state -/

theorem emittedState_eq (input : TTInput) (state : TTState) (target : GridTarget) (now : ℤ) :
    emittedState input state target now =
      { state with
        currentGridTradeIndex := some target.level
        discoveryEntry := (target.isEntry && input.bundle.entersOnAdd) || state.discoveryEntry
        entryAtMs :=
          if target.isEntry && (input.bundle.entersOnAdd || input.config.sell.timeStopBars > 0) then
            some now
          else state.entryAtMs } := by
  unfold emittedState
  cases target.isEntry with
  | false => simp
  | true =>
      cases input.bundle.entersOnAdd with
      | true => simp
      | false => by_cases hbars : input.config.sell.timeStopBars > 0 <;> simp [hbars]

/-- What a tick keeps of the position it did not sell: its cost, its high and its adds. -/
structure KeepsCost (before after : TTState) : Prop where
  schemaVersion : after.schemaVersion = before.schemaVersion
  avgEntryPrice : after.avgEntryPrice = before.avgEntryPrice
  flatHigh : before.avgEntryPrice = none → after.highSinceBuy = before.highSinceBuy
  flatArm : before.avgEntryPrice = none → after.breakEvenArmed = before.breakEvenArmed
  flatAdds : before.avgEntryPrice = none →
    after.bullAddCount = before.bullAddCount ∧ after.lastBullAddPrice = before.lastBullAddPrice

theorem KeepsPosition.keepsCost {before after : TTState} (h : KeepsPosition before after) :
    KeepsCost before after :=
  ⟨h.schemaVersion, h.avgEntryPrice, h.flatHigh, h.flatArm,
    fun _ => ⟨h.bullAddCount, h.lastBullAddPrice⟩⟩

theorem KeepsCost.trans {a b c : TTState} (hab : KeepsCost a b) (hbc : KeepsCost b c) :
    KeepsCost a c where
  schemaVersion := hbc.schemaVersion.trans hab.schemaVersion
  avgEntryPrice := hbc.avgEntryPrice.trans hab.avgEntryPrice
  flatHigh := fun h => (hbc.flatHigh (hab.avgEntryPrice.trans h)).trans (hab.flatHigh h)
  flatArm := fun h => (hbc.flatArm (hab.avgEntryPrice.trans h)).trans (hab.flatArm h)
  flatAdds := fun h =>
    have hb := hbc.flatAdds (hab.avgEntryPrice.trans h)
    have ha := hab.flatAdds h
    ⟨hb.1.trans ha.1, hb.2.trans ha.2⟩

theorem GridEmits.keepsCost {now : ℤ} {before after : TTState} {decisions : List Decision}
    (h : GridEmits input now before after decisions) : KeepsCost before after := by
  cases h with
  | rung target level quantity htarget hlevel hrepriced hafter hdecisions =>
      rw [hafter, emittedState_eq]
      exact ⟨rfl, rfl, fun _ => rfl, fun _ => rfl, fun _ => ⟨rfl, rfl⟩⟩

theorem ForcedEmits.keepsCost {now : ℤ} {before after : TTState} {decisions : List Decision}
    (h : ForcedEmits input now before after decisions) : KeepsCost before after := by
  cases h with
  | grid emits =>
      exact KeepsCost.trans (b := entryReset before)
        ⟨rfl, rfl, fun _ => rfl, fun _ => rfl, fun _ => ⟨rfl, rfl⟩⟩ emits.keepsCost
  | single quantity noGrid hafter hdecisions =>
      rw [hafter]
      exact (KeepsPosition.refl before).keepsCost

theorem BuyOutcome.keepsCost (h : BuyOutcome input state output) :
    KeepsCost state output.nextState := by
  cases h with
  | pyramid quantity addIndex addPrice held next hdecisions =>
      refine KeepsCost.trans ?_ next.keepsCost
      refine ⟨rfl, rfl, fun _ => rfl, fun _ => rfl, fun hflat => ?_⟩
      rw [hflat] at held
      cases held
  | grid after hasGrid unblocked emits next =>
      refine KeepsCost.trans ?_ (emits.keepsCost.trans next.keepsCost)
      exact ⟨rfl, rfl, fun _ => rfl, fun _ => rfl, fun _ => ⟨rfl, rfl⟩⟩
  | first quantity noGrid unblocked flat keeps hdecisions => exact keeps.keepsCost
  | report index block hblock hindex next hdecisions =>
      refine KeepsCost.trans ?_ next.keepsCost
      exact ⟨rfl, rfl, fun _ => rfl, fun _ => rfl, fun _ => ⟨rfl, rfl⟩⟩

/-! ### Which side a tick trades on -/

theorem sends_of_order {intent : OrderIntent} {params : OrderParams} (side : OrderSide)
    (symbol : String) (h : d.order = some (intent, params)) :
    d.sends side symbol = (intent.side == side && intent.symbol == symbol) := by
  rw [Decision.sends, h]
  rfl

theorem GridEmits.sends_no_sell {now : ℤ} {before after : TTState} {decisions : List Decision}
    (h : GridEmits input now before after decisions) (hd : d ∈ decisions) (symbol : String) :
    d.sends .sell symbol = false := by
  cases h with
  | rung target level quantity htarget hlevel hrepriced hafter hdecisions =>
      rw [hdecisions, List.mem_append, List.mem_singleton] at hd
      rcases hd with hd | rfl
      · obtain ⟨o, -, why, -, rfl⟩ := mem_staleCancels hd
        rfl
      · rfl

/-- A rung of the ladder is bought. -/
theorem GridEmits.buys {now : ℤ} {before after : TTState} {decisions : List Decision}
    (h : GridEmits input now before after decisions) :
    ∃ d ∈ decisions, d.sends .buy input.market.symbol = true := by
  cases h with
  | rung target level quantity htarget hlevel hrepriced hafter hdecisions =>
      rw [hdecisions]
      refine ⟨_, List.mem_append_right _ List.mem_cons_self, ?_⟩
      simp [Decision.sends, Decision.order, buildGridBuyDecision, buyIntent]

theorem BuyOutcome.sends_no_sell (h : BuyOutcome input state output) (hd : d ∈ output.decisions)
    (symbol : String) : d.sends .sell symbol = false := by
  cases h with
  | pyramid quantity addIndex addPrice held next hdecisions =>
      rw [hdecisions, List.mem_singleton] at hd
      rw [hd]
      rfl
  | grid after hasGrid unblocked emits next => exact emits.sends_no_sell hd symbol
  | first quantity noGrid unblocked flat keeps hdecisions =>
      rw [hdecisions, List.mem_singleton] at hd
      rw [hd]
      rfl
  | report index block hblock hindex next hdecisions =>
      rw [hdecisions] at hd
      rcases mem_report hd with ⟨o, -, why, -, rfl⟩ | rfl
      · rfl
      · rfl

/-! ### Letting go of the cost basis -/

/-- The tick sends a sell of its symbol, and no buy. -/
def OnlySells (input : TTInput) (output : TTOutput) : Prop :=
  (∃ d ∈ output.decisions, d.sends .sell input.market.symbol = true) ∧
    ∀ d ∈ output.decisions, d.sends .buy input.market.symbol = false

theorem onlySells_of_closing {sender : Option String} {reason seed : String}
    {quantity : DecimalString}
    (h : output.decisions = asSent sender
      (closingSellDecisions input (buildSellDecision input reason quantity seed))) :
    OnlySells input output := by
  have hsends : ∀ d' ∈ closingSellDecisions input (buildSellDecision input reason quantity seed),
      ∀ side, (sender.elim d' (Decision.attribute · d')).sends side input.market.symbol =
        (OrderSide.sell == side) := by
    intro d' hd' side
    have horder := order_of_mem_closing hd'
    cases sender <;> simp [sends_of_order side input.market.symbol horder, sellIntent]
  have hone : ∃ d' ∈ closingSellDecisions input (buildSellDecision input reason quantity seed),
      sender.elim d' (Decision.attribute · d') ∈ output.decisions := by
    rw [h]
    rcases closingSellDecisions_eq input _ _ with heq | ⟨resting, -, heq⟩ <;>
    · unfold buildSellDecision
      rw [heq]
      refine ⟨_, List.mem_cons_self, ?_⟩
      cases sender <;> exact List.mem_cons_self
  obtain ⟨d', hd', hmem⟩ := hone
  refine ⟨⟨_, hmem, hsends d' hd' .sell⟩, fun d hd => ?_⟩
  rw [h] at hd
  obtain ⟨d', hd', rfl⟩ := mem_asSent hd
  exact hsends d' hd' .buy

/-- A tick that never looked at its position keeps the cost basis, or was told to sell it. -/
theorem EarlyOutcome.keepsCost_or_sells {start : TTState} (h : EarlyOutcome input start output) :
    KeepsCost start output.nextState ∨ FlatClean output.nextState ∧ OnlySells input output := by
  cases h with
  | quiet keeps hdecisions => exact .inl keeps.keepsCost
  | manual payload quantity overrideActionId keeps hdecisions => exact .inl keeps.keepsCost
  | forced sender before after decisions from_ emits next sent =>
      exact .inl (from_.keepsCost.trans (emits.keepsCost.trans next.keepsCost))
  | sold quantity overrideActionId flat index schemaVersion hdecisions =>
      exact .inr ⟨flat, @onlySells_of_closing _ _ (some overrideActionId) _ _ _ hdecisions⟩

theorem SellTerminal.keepsCost_or_sells (h : SellTerminal input state output) :
    KeepsCost state output.nextState ∨ FlatClean output.nextState ∧ OnlySells input output := by
  cases h with
  | refused held keeps hdecisions => exact .inl keeps.keepsCost
  | armed at_ held keeps next hdecisions => exact .inl next.keepsCost
  | sold emission reason held sells hdecisions flat index schemaVersion heldQuantity =>
      obtain ⟨quantity, seed, -, hdecision⟩ := sells.sized
      rw [hdecision] at hdecisions
      exact .inr ⟨flat, @onlySells_of_closing _ _ none _ _ _ hdecisions⟩

theorem LateOutcome.keepsCost_or_sells (h : LateOutcome input state output) :
    KeepsCost state output.nextState ∨ FlatClean output.nextState ∧ OnlySells input output := by
  cases h with
  | sell terminal => exact terminal.keepsCost_or_sells
  | buy at_ keeps outcome => exact .inl (keeps.keepsCost.trans outcome.keepsCost)

theorem SellTerminal.held (h : SellTerminal input state output) : state.avgEntryPrice ≠ none := by
  cases h with
  | sold emission reason held => exact Option.isSome_iff_ne_none.mp held
  | refused held => exact Option.isSome_iff_ne_none.mp held
  | armed at_ held => exact Option.isSome_iff_ne_none.mp held

/-- From a state without a cost basis the tick sells nothing. -/
theorem LateOutcome.sends_no_sell (h : LateOutcome input state output)
    (hflat : state.avgEntryPrice = none) (hd : d ∈ output.decisions) (symbol : String) :
    d.sends .sell symbol = false := by
  cases h with
  | buy at_ keeps outcome => exact outcome.sends_no_sell hd symbol
  | sell terminal => exact absurd hflat terminal.held

/-- Whether the basis is dropped depends on the cost basis and on no other part of the state. -/
theorem DropsBasis.congr {before after : TTState} (h : KeepsPosition before after) :
    DropsBasis (normalizedInput input) after ↔ DropsBasis input before := by
  constructor
  · rintro ⟨held, fallen, noOpenBuy, dust⟩
    rw [h.avgEntryPrice] at held fallen
    exact ⟨held, fallen, noOpenBuy, dust⟩
  · rintro ⟨held, fallen, noOpenBuy, dust⟩
    rw [← h.avgEntryPrice] at held fallen
    exact ⟨held, fallen, noOpenBuy, dust⟩

/-- What a tick may do to its cost basis: it lets go of one only by selling, or knowing it gone. -/
structure KeepsUnlessGone (input : TTInput) (output : TTOutput) : Prop where
  /-- A basis that is gone was sold, or a readable wallet holds less than the minimum. -/
  dropped : input.state.avgEntryPrice.isSome = true → output.nextState.avgEntryPrice = none →
    (∃ d ∈ output.decisions, d.sends .sell input.market.symbol = true) ∨
      input.account.readable = true ∧
        ∃ minQty, parse input.market.symbolInfo.filters.minQty = some minQty ∧
          (listedBase input).gte minQty = false
  /-- On an unreadable wallet no tick leaves a held position for a fresh entry. -/
  notReentered : input.account.readable = false → input.state.avgEntryPrice.isSome = true →
    output.nextState.avgEntryPrice = none →
      ∀ d ∈ output.decisions, d.sends .buy input.market.symbol = false

/--
A tick keeps its position unless it is sold or known to be gone, exactly when it
does not take the drop on a wallet it could not read.
-/
theorem keepsUnlessGone_iff (htick : computeTick input = .ok output) :
    KeepsUnlessGone input output ↔
      ¬ (input.account.readable = false ∧ Passes input (startState input) ∧
        DropsBasis input input.state) := by
  have hstart := keeps_startState input
  constructor
  · rintro hkeeps ⟨hunreadable, hpasses, hdrops⟩
    have hdrops' := (DropsBasis.congr hstart).mpr hdrops
    cases (computeTick_outcome input).returned htick with
    | early stopped outcome => exact stopped ⟨hpasses.override, hpasses.notDue, hpasses.notPaused⟩
    | late passes after drop outcome =>
        cases drop with
        | kept hkept => exact hkept hdrops'
        | dropped _ =>
            have hnext : output.nextState.avgEntryPrice = none := by
              rcases outcome.keepsCost_or_sells with hcost | ⟨hflat, -⟩
              · exact hcost.avgEntryPrice
              · exact hflat.avgEntryPrice
            rcases hkeeps.dropped hdrops.held hnext with ⟨d, hd, hsell⟩ | ⟨hreadable, -⟩
            · rw [outcome.sends_no_sell rfl hd] at hsell
              cases hsell
            · rw [hunreadable] at hreadable
              cases hreadable
  · intro hcondition
    -- a basis that is gone was sold, or dropped on a wallet that was readable
    have hgone : input.state.avgEntryPrice.isSome = true → output.nextState.avgEntryPrice = none →
        OnlySells input output ∨ input.account.readable = true ∧ DropsBasis input input.state := by
      intro hheld hnext
      have hkept : ¬ KeepsCost (startState input) output.nextState := by
        intro hcost
        rw [← hstart.avgEntryPrice, ← hcost.avgEntryPrice, hnext] at hheld
        cases hheld
      cases (computeTick_outcome input).returned htick with
      | early stopped outcome => exact .inl (outcome.keepsCost_or_sells.resolve_left hkept).2
      | late passes after drop outcome =>
          cases drop with
          | kept _ => exact .inl (outcome.keepsCost_or_sells.resolve_left hkept).2
          | dropped hdrops =>
              have hdrops' := (DropsBasis.congr hstart).mp hdrops
              refine .inr ⟨?_, hdrops'⟩
              by_contra hunreadable
              exact hcondition ⟨by simpa using hunreadable,
                ⟨passes.override, passes.notDue, passes.notPaused⟩, hdrops'⟩
    constructor
    · intro hheld hnext
      rcases hgone hheld hnext with hsold | ⟨hreadable, hdrops⟩
      · exact .inl hsold.1
      · exact .inr ⟨hreadable, hdrops.dust⟩
    · intro hunreadable hheld hnext
      rcases hgone hheld hnext with hsold | ⟨hreadable, -⟩
      · exact hsold.2
      · rw [hunreadable] at hreadable
        cases hreadable

/-- The sample position on a tick whose wallet could not be read. -/
def sampleUnread (price : String) : TTInput :=
  { sampleInput sampleConfig sampleHeld price 0 with
    account :=
      { balances := fun _ => none, readable := false, deployedQuoteAcrossProfiles := none } }

theorem unread_position_kept :
    ∃ output, computeTick (sampleUnread "95") = .ok output ∧
      output.nextState.avgEntryPrice = some (.raw "100") ∧
      KeepsUnlessGone (sampleUnread "95") output := by
  have hkept : (computeTick (sampleUnread "95")).toOption.map
      (fun output => output.nextState.avgEntryPrice) = some (some (.raw "100")) := by
    decide +kernel
  obtain ⟨output, htick, havg⟩ := exists_ok_of_map hkept
  refine ⟨output, htick, havg, (keepsUnlessGone_iff htick).mpr ?_⟩
  rintro ⟨-, -, hdrops⟩
  obtain ⟨threshold, lbp, price, -, -, hthreshold, hlbp, hprice, hbelow⟩ := hdrops.fallen
  cases hthreshold.symm.trans (by decide +kernel : parse "0.8" = some (num (8 / 10)))
  cases hlbp.symm.trans (by decide +kernel : parse "100" = some (num 100))
  cases hprice.symm.trans (by decide +kernel : parse "95" = some (num 95))
  exact absurd hbelow (by decide +kernel)

/-- At 75 the same tick drops the cost basis and buys the position a second time. -/
theorem unread_position_dropped :
    (sampleUnread "75").state.avgEntryPrice = some (.raw "100") ∧
      ∃ output, computeTick (sampleUnread "75") = .ok output ∧
        output.nextState.avgEntryPrice = none ∧
        (∃ d ∈ output.decisions, d.sends .buy (sampleUnread "75").market.symbol = true) ∧
        ¬ KeepsUnlessGone (sampleUnread "75") output := by
  have hdropped : (computeTick (sampleUnread "75")).toOption.map (fun output =>
      (output.nextState.avgEntryPrice, output.decisions.map fun d =>
        (d.sends .sell "BTCUSDT", d.sends .buy "BTCUSDT"))) = some (none, [(false, true)]) := by
    decide +kernel
  obtain ⟨output, htick, hshown⟩ := exists_ok_of_map hdropped
  obtain ⟨havg, hsends⟩ := Prod.ext_iff.mp hshown
  obtain ⟨d, hd⟩ : ∃ d, output.decisions = [d] := by
    refine List.length_eq_one_iff.mp ?_
    simpa using congrArg List.length hsends
  dsimp only at havg hsends
  rw [hd] at hsends
  simp only [List.map_cons, List.map_nil, List.cons.injEq, Prod.mk.injEq, and_true] at hsends
  refine ⟨rfl, output, htick, havg, ⟨d, by rw [hd]; exact List.mem_cons_self, hsends.2⟩, ?_⟩
  intro hkeeps
  have hbuy := hkeeps.notReentered rfl rfl havg d (by rw [hd]; exact List.mem_cons_self)
  cases hsends.2.symm.trans hbuy

end TradingBot.TrailingTrade
