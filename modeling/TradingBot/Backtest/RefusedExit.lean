import TradingBot.Backtest.Report
import TradingBot.Momentum.PositionAdapter
import TradingBot.TrailingTrade.PositionAdapter

/-!
# Refused exits

A tick sends a sell that the exchange refuses before the symbol's next tick. The
run puts back the state the tick started from only if the sell was placed on its
own and the state left behind does not show the position the fills have built; a
sell sent in the place of another order leaves no copy to put back.
-/

namespace TradingBot.Backtest

open InsertionMap LabelledRun
open TradingBot.TrailingTrade (PositionView)

namespace Run

variable {S : Type} {opts : RunBacktestOptions S} {run run' before after : Run S} {symbol : String}
  {position : PositionStateAdapter S}

/-! ### What is put back -/

/-- What can be told of a state without the position that the engine writes. -/
def BesidePosition (position : PositionStateAdapter S) (field : S → Prop) : Prop :=
  (∀ state held state', position.setHeldQuantity state held = some state' →
    (field state' ↔ field state)) ∧
  ∀ state price state', position.setAvgEntryPrice state price = some state' →
    (field state' ↔ field state)

/-- The states agree in everything but the position the engine writes. -/
def SameBeside (position : PositionStateAdapter S) (a b : S) : Prop :=
  ∀ field, BesidePosition position field → (field a ↔ field b)

def Shows (position : PositionStateAdapter S) (ledger : Option PositionView) (state : S) : Prop :=
  sameText ((position.readPosition state).bind (·.heldQuantity)) (ledger.bind (·.heldQuantity)) =
      true ∧
    sameText ((position.readPosition state).bind (·.avgEntryPrice))
      (ledger.bind (·.avgEntryPrice)) = true

instance (ledger : Option PositionView) (state : S) : Decidable (Shows position ledger state) :=
  inferInstanceAs (Decidable (_ ∧ _))

structure Reverted (position : PositionStateAdapter S) (ledger : Option PositionView)
    (before next : S) : Prop where
  same : SameBeside position next before
  shows : Shows position ledger next

/-- The run reverts a refused exit: the sell was placed on its own, and the state left behind does
not show the ledger's position, which the state before can take; or the state left behind differs
from the one before in the position only, and shows the ledger's or can take it. -/
def Reverts (position : PositionStateAdapter S) (ledger : Option PositionView) (placed : Bool)
    (before left : S) : Prop :=
  match ledger with
  | some ⟨some avgEntryPrice, some heldQuantity⟩ =>
      if Shows position ledger left then SameBeside position left before
      else if placed then Shows position ledger (pin position avgEntryPrice heldQuantity before)
      else
        SameBeside position left before ∧
          Shows position ledger (pin position avgEntryPrice heldQuantity left)
  | _ => SameBeside position left before ∧ Shows position ledger left

section Pin

variable {field : S → Prop} {a b c : S} {avgEntryPrice heldQuantity : DecimalString}

theorem SameBeside.refl (a : S) : SameBeside position a a := fun _ _ => Iff.rfl

theorem SameBeside.trans (h : SameBeside position a b) (h' : SameBeside position b c) :
    SameBeside position a c :=
  fun field hfield => (h field hfield).trans (h' field hfield)

theorem SameBeside.symm (h : SameBeside position a b) : SameBeside position b a :=
  fun field hfield => (h field hfield).symm

/-- Pinning a position writes nothing but the position. -/
theorem sameBeside_pin (position : PositionStateAdapter S)
    (avgEntryPrice heldQuantity : DecimalString) (base : S) :
    SameBeside position (pin position avgEntryPrice heldQuantity base) base := by
  intro field hfield
  unfold pin
  have hheld : field ((position.setHeldQuantity base (some heldQuantity)).getD base) ↔
      field base := by
    cases hset : position.setHeldQuantity base (some heldQuantity) with
    | none => rfl
    | some state => exact hfield.1 base _ state hset
  refine Iff.trans ?_ hheld
  generalize (position.setHeldQuantity base (some heldQuantity)).getD base = held
  cases hset : position.setAvgEntryPrice held avgEntryPrice with
  | none => simp [hset]
  | some state => simpa [hset] using hfield.2 held _ state hset

/-- What the refusal leaves is reverted exactly under the condition. -/
theorem reverted_restored (ledger : Option PositionView) (placed : Bool) (before left : S) :
    Reverted position ledger before
        ((restored position (if placed then some before else none) left ledger).getD left) ↔
      Reverts position ledger placed before left := by
  have hleft : Reverted position ledger before left ↔
      SameBeside position left before ∧ Shows position ledger left :=
    ⟨fun h => ⟨h.same, h.shows⟩, fun h => ⟨h.1, h.2⟩⟩
  rcases ledger with _ | ⟨_ | avgEntryPrice, _ | heldQuantity⟩
  · exact hleft
  · exact hleft
  · exact hleft
  · exact hleft
  · unfold restored Reverts
    · dsimp only
      have hshows : (sameText ((position.readPosition left).bind (·.heldQuantity))
            (some heldQuantity) &&
          sameText ((position.readPosition left).bind (·.avgEntryPrice)) (some avgEntryPrice)) =
            true ↔ Shows position (some ⟨some avgEntryPrice, some heldQuantity⟩) left := by
        rw [Bool.and_eq_true]
        rfl
      by_cases hleftShows : Shows position (some ⟨some avgEntryPrice, some heldQuantity⟩) left
      · rw [if_pos (hshows.mpr hleftShows), if_pos hleftShows, Option.getD_none, hleft]
        exact and_iff_left hleftShows
      · rw [if_neg (fun h => hleftShows (hshows.mp h)), if_neg hleftShows, Option.getD_some]
        cases placed with
        | true =>
            exact ⟨fun h => h.shows, fun h => ⟨sameBeside_pin _ _ _ _, h⟩⟩
        | false =>
            have hpinned := sameBeside_pin position avgEntryPrice heldQuantity left
            exact ⟨fun h => ⟨hpinned.symm.trans h.same, h.shows⟩,
              fun h => ⟨hpinned.trans h.1, h.2⟩⟩

end Pin

/-! ### Runs between two ticks of a symbol -/

/-- The moves of a run: candles of any symbol, ticks for any symbol, and bookkeeping. -/
inductive Moves (opts : RunBacktestOptions S) (run : Run S) : Run S → Prop
  | refl : Moves opts run run
  | noted {before after : Run S} (hmoves : Moves opts run before) (hnoted : Noted before after) :
      Moves opts run after
  | advance {before after : Run S} {symbol : String} {ctx : MarketContext}
      (hmoves : Moves opts run before) (hadvance : before.advance opts symbol ctx = some after) :
      Moves opts run after
  | tick {before after : Run S} {args : TickArgs} (hmoves : Moves opts run before)
      (htick : before.runTick opts args = some after) : Moves opts run after

theorem keeps_moves (run : Run S) (symbol : String) : Keeps opts symbol (Moves opts run) where
  advance _ _ _ hmoves hadvance := hmoves.advance hadvance
  tick _ _ _ _ hmoves htick := hmoves.tick htick
  noted _ _ hnoted hmoves := hmoves.noted hnoted

theorem moves_replayAll {stream : List MarketTick} (hrun : replayAll opts stream = some run) :
    Moves opts (start opts) run := by
  refine foldlM_preserves ?_ Moves.refl hrun
  intro before tick after _ hmoves hreplay
  exact (keeps_moves (start opts) tick.symbol).replay hmoves hreplay

theorem Moves.allRead (hposition : opts.strategy.position = some position)
    (hprompt : Prompt opts) (hmoves : Moves opts run run') (hread : run.AllRead) :
    run'.AllRead := by
  induction hmoves with
  | refl => exact hread
  | noted _ hnoted ih => exact (keeps_allRead hposition hprompt "").noted _ _ hnoted ih
  | @advance _ _ symbol _ _ hadvance ih =>
      exact (keeps_allRead hposition hprompt symbol).advance _ _ _ ih hadvance
  | @tick _ _ args _ htick ih =>
      exact (keeps_allRead hposition hprompt args.symbol).tick _ _ _ rfl ih htick

/-- Moves in which the symbol is not ticked and none of its orders fills or is refused, but for one
candle on which nothing but a sell of it is refused. The flag says whether that candle has been. -/
inductive Waits (opts : RunBacktestOptions S) (symbol : String) (run : Run S) : Bool → Run S → Prop
  | start : Waits opts symbol run false run
  | noted {refusal : Bool} {before after : Run S} (hwaits : Waits opts symbol run refusal before)
      (hnoted : Noted before after) : Waits opts symbol run refusal after
  | advanceOther {refusal : Bool} {before after : Run S} {other : String} {ctx : MarketContext}
      (hwaits : Waits opts symbol run refusal before) (hother : symbol ≠ other)
      (hadvance : before.advance opts other ctx = some after) :
      Waits opts symbol run refusal after
  | tickOther {refusal : Bool} {before after : Run S} {args : TickArgs}
      (hwaits : Waits opts symbol run refusal before) (hother : symbol ≠ args.symbol)
      (htick : before.runTick opts args = some after) : Waits opts symbol run refusal after
  | quiet {refusal : Bool} {before after : Run S} {ctx : MarketContext} {met : BacktestExecutor}
      (hwaits : Waits opts symbol run refusal before)
      (hmet : before.executor.setMarketContext opts.exchange symbol ctx = some met)
      (hfills : drainedFills symbol met = []) (hbuy : refused .buy symbol met = false)
      (hsell : refused .sell symbol met = false)
      (hadvance : before.advance opts symbol ctx = some after) :
      Waits opts symbol run refusal after
  | refusal {before after : Run S} {ctx : MarketContext} {met : BacktestExecutor}
      (hwaits : Waits opts symbol run false before)
      (hmet : before.executor.setMarketContext opts.exchange symbol ctx = some met)
      (hfills : drainedFills symbol met = []) (hbuy : refused .buy symbol met = false)
      (hsell : refused .sell symbol met = true)
      (hadvance : before.advance opts symbol ctx = some after) :
      Waits opts symbol run true after

theorem adoptFills_refusedSell (hposition : opts.strategy.position = some position)
    (hfills : drainedFills symbol run.executor = [])
    (hbuy : refused .buy symbol run.executor = false)
    (hsell : refused .sell symbol run.executor = true)
    (hadopt : run.adoptFills opts symbol = some run') :
    run'.ledgerOf symbol = run.ledgerOf symbol ∧
      run'.stateOf opts symbol =
        (restored position (get symbol run.preSellStates) (run.stateOf opts symbol)
          (run.ledgerOf symbol)).getD (run.stateOf opts symbol) := by
  obtain ⟨state, prior, hfold, rfl⟩ := adoptFills_loud hposition (.inr (.inr hsell)) hadopt
  rw [hfills] at hfold
  obtain ⟨rfl, rfl⟩ := Prod.mk.inj (Option.some.inj hfold)
  rw [hbuy, hsell]
  constructor
  · simp [settled, restoreRefusedSell, flattenRefusedBuy, folded, ledgerOf]
  · simp only [settled, restoreRefusedSell, flattenRefusedBuy, folded, stateOf, Bool.false_and,
      Bool.not_true, Bool.false_eq_true, if_false]
    split
    · next hnone => rw [get_set_self, hnone]; rfl
    · next state hsome => rw [get_set_self, hsome]; rfl

/-- What holds of the symbol while its sell waits: its state is the one the tick left until the
refusal is adopted. -/
structure Waiting (opts : RunBacktestOptions S) (position : PositionStateAdapter S)
    (symbol : String) (ledger : Option PositionView) (kept : Option S) (left : S) (refusal : Bool)
    (run : Run S) : Prop where
  read : run.AllRead
  ledger_eq : run.ledgerOf symbol = ledger
  state_eq : run.stateOf opts symbol =
    if refusal then (restored position kept left ledger).getD left else left
  kept_eq : refusal = false → get symbol run.preSellStates = kept

section Waiting

variable {ledger : Option PositionView} {kept : Option S} {left : S} {refusal : Bool}

/-- What moves leave alone of the symbol. -/
theorem Waiting.congr (h : Waiting opts position symbol ledger kept left refusal run)
    (hread : run'.AllRead) (hstates : get symbol run'.states = get symbol run.states)
    (hledger : run'.ledgerOf symbol = run.ledgerOf symbol)
    (hkept : get symbol run'.preSellStates = get symbol run.preSellStates) :
    Waiting opts position symbol ledger kept left refusal run' where
  read := hread
  ledger_eq := hledger.trans h.ledger_eq
  state_eq := by
    rw [stateOf, hstates]
    exact h.state_eq
  kept_eq hnot := hkept.trans (h.kept_eq hnot)

theorem Waiting.adoptOther {other : String}
    (h : Waiting opts position symbol ledger kept left refusal run) (hread : run'.AllRead)
    (hother : symbol ≠ other) (hposition : opts.strategy.position = some position)
    {middle : Run S} (hadopt : middle.adoptFills opts other = some run')
    (hstates : get symbol middle.states = get symbol run.states)
    (hledger : middle.ledgerOf symbol = run.ledgerOf symbol)
    (hkept : get symbol middle.preSellStates = get symbol run.preSellStates) :
    Waiting opts position symbol ledger kept left refusal run' := by
  have hadopted := adoptFills_adopted hposition hadopt
  exact h.congr hread ((hadopted.states symbol hother).trans hstates)
    ((hadopted.ledger symbol hother).trans hledger)
    ((hadopted.preSellStates symbol hother).trans hkept)

theorem Waits.waiting (hposition : opts.strategy.position = some position)
    (hprompt : Prompt opts) (hwaits : Waits opts symbol run refusal run')
    (hstart : Waiting opts position symbol ledger kept left false run) :
    Waiting opts position symbol ledger kept left refusal run' := by
  induction hwaits with
  | start => exact hstart
  | noted _ hnoted ih =>
      refine ih.congr ((keeps_allRead hposition hprompt symbol).noted _ _ hnoted ih.read) ?_ ?_ ?_
      · rw [hnoted.states]
      · rw [ledgerOf, hnoted.positionLedger, ledgerOf]
      · rw [hnoted.preSellStates]
  | advanceOther _ hother hadvance ih =>
      have hread := (keeps_allRead hposition hprompt _).advance _ _ _ ih.read hadvance
      obtain ⟨met, -, hadopt⟩ := advance_parts hadvance
      exact ih.adoptOther hread hother hposition hadopt rfl rfl rfl
  | tickOther _ hother htick ih =>
      have hread := (keeps_allRead hposition hprompt _).tick _ _ _ rfl ih.read htick
      obtain ⟨ticked, nextState, decisions, hticked, hadopt⟩ := runTick_parts htick
      refine ih.adoptOther hread hother hposition hadopt ?_ ?_ ?_
      · rw [hticked.states, get_set_other hother]
      · rw [ledgerOf, hticked.positionLedger, ledgerOf]
      · rw [hticked.preSellStates]
        split
        · exact get_set_other hother
        · exact get_delete_other hother
  | quiet _ hmet hfills hbuy hsell hadvance ih =>
      have hread := (keeps_allRead hposition hprompt symbol).advance _ _ _ ih.read hadvance
      obtain ⟨met, hmet', hadopt⟩ := advance_parts hadvance
      obtain rfl := Option.some.inj (hmet.symm.trans hmet')
      have hquiet := adoptFills_quiet hposition hadopt hfills hbuy hsell
      subst hquiet
      exact ih.congr hread rfl rfl rfl
  | @refusal before after ctx met _ hmet hfills hbuy hsell hadvance ih =>
      have hread := (keeps_allRead hposition hprompt symbol).advance _ _ _ ih.read hadvance
      obtain ⟨met, hmet', hadopt⟩ := advance_parts hadvance
      obtain rfl := Option.some.inj (hmet.symm.trans hmet')
      obtain ⟨hledger, hstate⟩ := adoptFills_refusedSell hposition hfills hbuy hsell hadopt
      have hstate' := ih.state_eq
      rw [if_neg Bool.false_ne_true] at hstate'
      refine ⟨hread, hledger.trans ih.ledger_eq, ?_, fun h => absurd h (by decide)⟩
      have hafter : after.stateOf opts symbol =
          (restored position (get symbol before.preSellStates) (before.stateOf opts symbol)
            (before.ledgerOf symbol)).getD (before.stateOf opts symbol) := hstate
      rw [if_pos rfl, hafter, hstate', ih.ledger_eq, ih.kept_eq rfl]

end Waiting

/-! ### Refused exits -/

/-- Under the candle model a tick fills and refuses nothing, so it leaves the strategy's own state,
and a copy of the one before where it placed a sell. -/
theorem waiting_runTick {args : TickArgs} {after : Run S} {nextState : S}
    {decisions : List Decision} {o : OhlcvFillModelOptions}
    (hmodel : opts.exchange.fillModel = ohlcvFillModel o)
    (hposition : opts.strategy.position = some position) (hread : run.AllRead)
    (hanswer : opts.strategy.tick run args = some (nextState, decisions))
    (htick : run.runTick opts args = some after) :
    Waiting opts position args.symbol (run.ledgerOf args.symbol)
      (if decisions.any placesSell then some (run.stateOf opts args.symbol) else none) nextState
      false after := by
  have hprompt : Prompt opts := .inl ⟨o, hmodel⟩
  have hafter := (keeps_allRead hposition hprompt args.symbol).tick _ _ _ rfl hread htick
  obtain ⟨ticked, nextState', decisions', hticked, hadopt⟩ := runTick_parts htick
  obtain ⟨rfl, rfl⟩ := Prod.mk.inj (Option.some.inj (hanswer.symm.trans hticked.answer))
  have hexchange : opts.exchange = ⟨ohlcvFillModel o, opts.exchange.symbolInfos⟩ := by
    rw [← hmodel]
  have hunread : ticked.executor.pendingFills = [] ∧ ticked.executor.rejected = [] := by
    refine hticked.preserves (P := fun ex => ex.pendingFills = [] ∧ ex.rejected = []) ?_
      ⟨hread.fills, hread.refusals⟩
    intro ex decision ex' result _ hbefore hcall
    rw [hexchange] at hcall
    obtain ⟨hfills, hrejected⟩ := BacktestExecutor.ohlcv_apply_unread hcall
    exact ⟨hfills.trans hbefore.1, hrejected.trans hbefore.2⟩
  have hfills : drainedFills args.symbol ticked.executor = [] := by
    rw [drainedFills, hunread.1]
    rfl
  have hrefused : ∀ side, refused side args.symbol ticked.executor = false := by
    intro side
    rw [refused, BacktestExecutor.drainRejected, hunread.2]
    rfl
  have hquiet := adoptFills_quiet hposition hadopt hfills (hrefused .buy) (hrefused .sell)
  subst hquiet
  refine ⟨hafter, ?_, ?_, fun _ => ?_⟩
  · change ticked.ledgerOf args.symbol = _
    rw [ledgerOf, hticked.positionLedger, ledgerOf]
  · rw [if_neg Bool.false_ne_true]
    change ticked.stateOf opts args.symbol = _
    rw [stateOf, hticked.states, get_set_self, Option.getD_some]
  · change get args.symbol ticked.preSellStates = _
    rw [hticked.preSellStates]
    split
    · exact get_set_self
    · exact get_delete_self

/--
A tick of a run, and a sell of its symbol refused before the next one with
nothing else of the symbol filled or refused: the next tick receives the state
this one received, with the position of the ledger, exactly under the condition.
-/
theorem refused_exit_reverts_iff (opts : RunBacktestOptions S) (o : OhlcvFillModelOptions)
    (position : PositionStateAdapter S) (hmodel : opts.exchange.fillModel = ohlcvFillModel o)
    (hposition : opts.strategy.position = some position) {run after next : Run S}
    (hrun : Moves opts (start opts) run) (args : TickArgs) {nextState : S}
    {decisions : List Decision}
    (hanswer : opts.strategy.tick run args = some (nextState, decisions))
    (htick : run.runTick opts args = some after) (hwaits : Waits opts args.symbol after true next) :
    Reverted position (next.ledgerOf args.symbol) (run.stateOf opts args.symbol)
        (next.stateOf opts args.symbol) ↔
      Reverts position (run.ledgerOf args.symbol) (decisions.any placesSell)
        (run.stateOf opts args.symbol) nextState := by
  have hprompt : Prompt opts := .inl ⟨o, hmodel⟩
  have hread := hrun.allRead hposition hprompt ⟨rfl, rfl⟩
  have hwaiting := hwaits.waiting hposition hprompt
    (waiting_runTick hmodel hposition hread hanswer htick)
  rw [hwaiting.ledger_eq, hwaiting.state_eq, if_pos rfl]
  exact reverted_restored _ _ _ _

/-! ### The adapters -/

theorem sameText_self (text : Option DecimalString) : sameText text text = true := by
  unfold sameText
  split
  · next h => simp_all
  · simp

theorem shows_pin {state held pinned : S} {avgEntryPrice heldQuantity : DecimalString}
    (hheld : position.setHeldQuantity state (some heldQuantity) = some held)
    (hprice : position.setAvgEntryPrice held avgEntryPrice = some pinned)
    (hread : position.readPosition pinned = some ⟨some avgEntryPrice, some heldQuantity⟩) :
    Shows position (some ⟨some avgEntryPrice, some heldQuantity⟩)
      (pin position avgEntryPrice heldQuantity state) := by
  have hpin : pin position avgEntryPrice heldQuantity state = pinned := by
    rw [pin, hheld, Option.getD_some, hprice, Option.getD_some]
  rw [hpin, Shows, hread]
  exact ⟨sameText_self _, sameText_self _⟩

theorem reverts_placed {before left : S} {avgEntryPrice heldQuantity : DecimalString}
    (hleft : ¬Shows position (some ⟨some avgEntryPrice, some heldQuantity⟩) left)
    (hpin : Shows position (some ⟨some avgEntryPrice, some heldQuantity⟩)
      (pin position avgEntryPrice heldQuantity before)) :
    Reverts position (some ⟨some avgEntryPrice, some heldQuantity⟩) true before left := by
  rw [Reverts, if_neg hleft, if_pos rfl]
  exact hpin

def momentumPositionAdapter : PositionStateAdapter Momentum.MomentumState where
  readPosition := Momentum.readPosition
  applyFill := Momentum.applyFill
  setHeldQuantity := Momentum.setHeldQuantity
  setAvgEntryPrice := Momentum.setAvgEntryPrice

def trailingTradePositionAdapter : PositionStateAdapter TrailingTrade.TTState where
  readPosition := TrailingTrade.readPosition
  applyFill := TrailingTrade.applyFill
  setHeldQuantity := TrailingTrade.setHeldQuantity
  setAvgEntryPrice := TrailingTrade.setAvgEntryPrice

/-- A momentum body of the current schema takes any position. -/
theorem momentum_shows_pin {state : Momentum.MomentumState}
    (hschema : Momentum.isCurrentSchema state = true) (avgEntryPrice heldQuantity : DecimalString) :
    Shows momentumPositionAdapter (some ⟨some avgEntryPrice, some heldQuantity⟩)
      (pin momentumPositionAdapter avgEntryPrice heldQuantity state) :=
  shows_pin (if_pos hschema) (if_pos hschema) (if_pos hschema)

/-- So does a trailing-trade body. -/
theorem trailingTrade_shows_pin {state : TrailingTrade.TTState}
    (hschema : TrailingTrade.isCurrentSchema state = true)
    (avgEntryPrice heldQuantity : DecimalString) :
    Shows trailingTradePositionAdapter (some ⟨some avgEntryPrice, some heldQuantity⟩)
      (pin trailingTradePositionAdapter avgEntryPrice heldQuantity state) :=
  shows_pin (if_pos hschema) (if_pos hschema) (if_pos hschema)

/-! ### An exit in the place of a stop, and one on its own -/

/-- A position with a high-water mark, which the engine does not write. -/
structure MarkedPosition where
  view : PositionView
  high : Option ℚ

def MarkedPosition.flat : MarkedPosition := ⟨⟨none, none⟩, none⟩

def markedState : PositionStateAdapter MarkedPosition where
  readPosition state := some state.view
  applyFill state fill :=
    some { state with view := (nextPrior (some state.view) fill).getD ⟨none, none⟩ }
  setHeldQuantity state held := some { state with view.heldQuantity := held }
  setAvgEntryPrice state price := some { state with view.avgEntryPrice := some price }

def stopOrder : OrderParams := ⟨.stopLossLimit, 1, some 79, some 80, none⟩

def sellOf : OrderIntent := BacktestExecutor.orderIntent .sell

/-- Buys one, marks the price and rests a stop behind it, and then exits and flattens. -/
def exitsWith (exit : List Decision) : Strategy MarkedPosition where
  initialState := .flat
  position := some markedState
  tick run args :=
    let state := (get args.symbol run.states).getD .flat
    match run.streamed.length with
    | 1 => some (state, [marketOf "BTCUSDT" .buy 1])
    | 2 => some ({ state with high := some args.price }, [.placeOrder sellOf stopOrder])
    | 3 => some (.flat, exit)
    | _ => some (state, [])

def exitOptions (exit : List Decision) : RunBacktestOptions MarkedPosition where
  strategy := exitsWith exit
  exchange := ⟨ohlcvFillModel ⟨10, 10, 0, 0, some 20⟩, [BacktestExecutor.btcusdt]⟩
  initialBalances := [("USDT", 1000)]
  quoteAsset := "USDT"
  fromMs := 0
  benchmarkSymbol := none
  startupCandleCount := 0
  windowCap := 5
  intraCandle := none

theorem tick_third (exit : List Decision) {run : Run MarkedPosition}
    (hthird : run.streamed.length = 3) (args : TickArgs) :
    (exitOptions exit).strategy.tick run args = some (.flat, exit) := by
  simp only [exitOptions, exitsWith, hthird]

def emptyMinute : MarketTick :=
  let minute := minuteOf "BTCUSDT" 180000 90 120
  { minute with candle.volume := 0 }

def exitMinutes : List MarketTick :=
  [minuteOf "BTCUSDT" 0 90 100, minuteOf "BTCUSDT" 60000 90 110]

/-- The run when the market is about to move to the close of a candle. -/
def atClose (opts : RunBacktestOptions S) (tick : MarketTick) (run : Run S) : Run S :=
  { { run with
      lastCloseMs := some tick.candle.closeTimeMs
      intervalOf := set tick.symbol tick.interval run.intervalOf
      streamed := run.streamed ++ [tick] }.pushCandle opts tick with
    nowMs := tick.candle.closeTimeMs }

/-- The run when the strategy is about to tick on the close. -/
def counted (opts : RunBacktestOptions S) (tick : MarketTick) (run : Run S) : Run S :=
  { run with
    startingBalance := some (run.startingBalance.getD (run.executor.equityInQuote opts.quoteAsset))
    seen := set tick.symbol (run.seenOf tick.symbol + 1) run.seen }

theorem noted_atClose (opts : RunBacktestOptions S) (tick : MarketTick) (run : Run S) :
    Noted run (atClose opts tick run) := ⟨rfl, rfl, rfl, rfl⟩

theorem noted_counted (opts : RunBacktestOptions S) (tick : MarketTick) (run : Run S) :
    Noted run (counted opts tick run) := ⟨rfl, rfl, rfl, rfl⟩

def closeArgs (tick : MarketTick) : TickArgs where
  symbol := tick.symbol
  interval := tick.interval
  price := tick.candle.close
  asOfMs := tick.candle.closeTimeMs
  trigger := .candleClose tick.interval tick.candle.openTimeMs

def closeContext (tick : MarketTick) : MarketContext := ⟨tick.candle.close, tick.candle, none⟩

/-- The run when the exit is sent on the third candle, the run after that, the executor when the
fourth candle has met its orders, and the run after that. -/
def exitTrace (exit : List Decision) :
    Option (Run MarkedPosition × Run MarkedPosition × BacktestExecutor × Run MarkedPosition) := do
  let third := minuteOf "BTCUSDT" 120000 90 120
  let held ← replayAll (exitOptions exit) exitMinutes
  let moved ← (atClose (exitOptions exit) third held).advance (exitOptions exit) "BTCUSDT"
    (closeContext third)
  let run := counted (exitOptions exit) third moved
  let after ← run.runTick (exitOptions exit) (closeArgs third)
  let met ← (atClose (exitOptions exit) emptyMinute after).executor.setMarketContext
    (exitOptions exit).exchange "BTCUSDT" (closeContext emptyMinute)
  let next ← (atClose (exitOptions exit) emptyMinute after).advance (exitOptions exit) "BTCUSDT"
    (closeContext emptyMinute)
  return (run, after, met, next)

/-- The position of the one coin bought. -/
def boughtOne : Option PositionView := some ⟨some (.printed (.num 110)), some (.printed (.num 1))⟩

/-- The exit is refused alone: the marks before it and after it, and what the ledger holds. -/
def refusesExit (high : Option ℚ)
    (trace : Run MarkedPosition × Run MarkedPosition × BacktestExecutor × Run MarkedPosition) :
    Bool :=
  let (run, _, met, next) := trace
  run.streamed.length = 3 && drainedFills "BTCUSDT" met = [] && !refused .buy "BTCUSDT" met &&
    refused .sell "BTCUSDT" met && (run.stateOf (exitOptions []) "BTCUSDT").high = some 110 &&
    (next.stateOf (exitOptions []) "BTCUSDT").high = high && run.ledgerOf "BTCUSDT" = boughtOne

def replacedExit : List Decision := [.replaceOrder 2 sellOf (BacktestExecutor.marketOrder 1)]

def placedExit : List Decision := [.cancelOrder 2, marketOf "BTCUSDT" .sell 1]

/-- A traced exit is one of a run, with its refusal. -/
structure ExitRefused (exit : List Decision) (high : Option ℚ)
    (run after next : Run MarkedPosition) : Prop where
  moves : Moves (exitOptions exit) (start (exitOptions exit)) run
  answer : (exitOptions exit).strategy.tick run (closeArgs (minuteOf "BTCUSDT" 120000 90 120)) =
    some (.flat, exit)
  ticked : run.runTick (exitOptions exit) (closeArgs (minuteOf "BTCUSDT" 120000 90 120)) =
    some after
  waits : Waits (exitOptions exit) "BTCUSDT" after true next
  before : (run.stateOf (exitOptions exit) "BTCUSDT").high = some 110
  left : (next.stateOf (exitOptions exit) "BTCUSDT").high = high
  held : run.ledgerOf "BTCUSDT" = boughtOne

theorem exists_exitRefused {exit : List Decision} {high : Option ℚ}
    (h : (exitTrace exit).any (refusesExit high) = true) :
    ∃ run after next, ExitRefused exit high run after next := by
  obtain ⟨⟨run, after, met, next⟩, htrace, hcheck⟩ := (Option.any_eq_true _ _).mp h
  obtain ⟨held, hheld, htrace⟩ := Option.bind_eq_some_iff.mp htrace
  obtain ⟨moved, hmoved, htrace⟩ := Option.bind_eq_some_iff.mp htrace
  obtain ⟨after', hafter, htrace⟩ := Option.bind_eq_some_iff.mp htrace
  obtain ⟨met', hmet, htrace⟩ := Option.bind_eq_some_iff.mp htrace
  obtain ⟨next', hnext, htrace⟩ := Option.bind_eq_some_iff.mp htrace
  cases htrace
  simp only [refusesExit, Bool.and_eq_true, decide_eq_true_eq, Bool.not_eq_true'] at hcheck
  obtain ⟨⟨⟨⟨⟨⟨hthird, hfills⟩, hbuy⟩, hsell⟩, hbefore⟩, hleft⟩, hledger⟩ := hcheck
  refine ⟨_, after, next, ?_, ?_, hafter, ?_, hbefore, hleft, hledger⟩
  · exact (((moves_replayAll hheld).noted (noted_atClose _ _ _)).advance hmoved).noted
      (noted_counted _ _ _)
  · exact tick_third exit hthird _
  · exact (Waits.start.noted (noted_atClose _ _ _)).refusal hmet hfills hbuy hsell hnext

/-- A refused exit that was placed on its own is reverted, its mark and all. -/
theorem placed_exit_reverts :
    ∃ run after next : Run MarkedPosition, ExitRefused placedExit (some 110) run after next ∧
      Reverted markedState (next.ledgerOf "BTCUSDT")
        (run.stateOf (exitOptions placedExit) "BTCUSDT")
        (next.stateOf (exitOptions placedExit) "BTCUSDT") := by
  obtain ⟨run, after, next, h⟩ := exists_exitRefused
    (by decide +kernel : (exitTrace placedExit).any (refusesExit (some 110)) = true)
  refine ⟨run, after, next, h, (refused_exit_reverts_iff (exitOptions placedExit)
    ⟨10, 10, 0, 0, some 20⟩ markedState rfl rfl h.moves
    (closeArgs (minuteOf "BTCUSDT" 120000 90 120)) h.answer h.ticked h.waits).mpr ?_⟩
  have hheld : run.ledgerOf (closeArgs (minuteOf "BTCUSDT" 120000 90 120)).symbol = boughtOne :=
    h.held
  rw [hheld]
  exact reverts_placed (by decide) (shows_pin rfl rfl rfl)

/-- The same exit in the place of the stop loses the mark. -/
theorem replaced_exit_is_not_reverted :
    ∃ run after next : Run MarkedPosition, ExitRefused replacedExit none run after next ∧
      ¬Reverted markedState (next.ledgerOf "BTCUSDT")
        (run.stateOf (exitOptions replacedExit) "BTCUSDT")
        (next.stateOf (exitOptions replacedExit) "BTCUSDT") := by
  obtain ⟨run, after, next, h⟩ := exists_exitRefused
    (by decide +kernel : (exitTrace replacedExit).any (refusesExit none) = true)
  refine ⟨run, after, next, h, fun hreverted => ?_⟩
  have hmark : BesidePosition markedState fun state => state.high = some 110 := by
    refine ⟨fun state held state' hset => ?_, fun state price state' hset => ?_⟩
    · cases hset
      rfl
    · cases hset
      rfl
  have hhigh := (hreverted.same _ hmark).mpr h.before
  rw [h.left] at hhigh
  cases hhigh

end Run

end TradingBot.Backtest
