import TradingBot.Backtest.Run
import TradingBot.Backtest.Effects

/-!
# Replaying one candle

A candle moves the market of its symbol, ticks the strategy for its symbol and
books the rest. What the two moves keep and the bookkeeping does not touch, the
candle keeps. A symbol the strategy has not touched yet only has its market
moved by a warm-up candle.
-/

namespace TradingBot.Backtest

open InsertionMap LabelledRun
open TradingBot.TrailingTrade (PositionView)

namespace Run

variable {S : Type} {opts : RunBacktestOptions S} {run run' run'' : Run S} {tick : MarketTick}
  {symbol : String} {ctx : MarketContext} {args : TickArgs}

/-- Nothing the account, the strategy and the ledger consist of has changed. -/
structure Noted (run run' : Run S) : Prop where
  executor : run'.executor = run.executor
  states : run'.states = run.states
  positionLedger : run'.positionLedger = run.positionLedger
  preSellStates : run'.preSellStates = run.preSellStates

theorem noted_addPendingBar {bar : Candle} : Noted run (run.addPendingBar symbol bar) :=
  ⟨rfl, rfl, rfl, rfl⟩

/-- What the moves of the candle's symbol keep and the bookkeeping does not touch. -/
structure Keeps (opts : RunBacktestOptions S) (symbol : String) (P : Run S → Prop) : Prop where
  advance : ∀ run run' ctx, P run → run.advance opts symbol ctx = some run' → P run'
  tick : ∀ run run' args, args.symbol = symbol → P run → run.runTick opts args = some run' → P run'
  noted : ∀ run run', Noted run run' → P run → P run'

section Keeps

variable {P : Run S → Prop} {bars : List Candle} {closeBars : Option (List Candle)}

theorem Keeps.addPendingBars (hkeeps : Keeps opts symbol P) (h : P run) :
    P (bars.foldl (fun run bar => run.addPendingBar symbol bar) run) := by
  induction bars generalizing run with
  | nil => exact h
  | cons bar rest ih => exact ih (hkeeps.noted run _ noted_addPendingBar h)

theorem Keeps.replayBar (hkeeps : Keeps opts tick.symbol P) (h : P run) {bar : Candle}
    (hbar : run.replayBar opts tick bar = some run') : P run' := by
  obtain ⟨moved, hmoved, hbar⟩ := Option.bind_eq_some_iff.mp hbar
  have hbefore := hkeeps.noted run { run with nowMs := bar.closeTimeMs } ⟨rfl, rfl, rfl, rfl⟩ h
  have hafter : P (moved.addPendingBar tick.symbol bar) :=
    hkeeps.noted moved _ noted_addPendingBar (hkeeps.advance _ moved _ hbefore hmoved)
  dsimp only at hbar
  split at hbar
  · exact hkeeps.tick _ run' _ rfl hafter hbar
  · cases hbar
    exact hafter

theorem Keeps.replayBars (hkeeps : Keeps opts tick.symbol P) (h : P run)
    (hbars : run.replayBars opts tick = some (run', closeBars)) : P run' := by
  unfold Run.replayBars at hbars
  split at hbars
  · split at hbars
    · cases hbars
    dsimp only at hbars
    split at hbars
    · cases hbars
      exact hkeeps.addPendingBars h
    · obtain ⟨replayed, hreplayed, hbars⟩ := Option.bind_eq_some_iff.mp hbars
      cases hbars
      refine hkeeps.addPendingBars ?_
      exact foldlM_preserves (fun _ _ _ _ hP hstep => hkeeps.replayBar hP hstep) h hreplayed
  · cases hbars
    exact h

theorem Keeps.closeCandle (hkeeps : Keeps opts tick.symbol P) (h : P run)
    (hclose : run.closeCandle opts tick closeBars = some run') : P run' := by
  obtain ⟨moved, hmoved, hclose⟩ := Option.bind_eq_some_iff.mp hclose
  have hbefore := hkeeps.noted run
    { run.pushCandle opts tick with nowMs := tick.candle.closeTimeMs } ⟨rfl, rfl, rfl, rfl⟩ h
  have hafter := hkeeps.advance _ moved _ hbefore hmoved
  dsimp only at hclose
  split at hclose
  · cases hclose
    exact hkeeps.noted moved _ ⟨rfl, rfl, rfl, rfl⟩ hafter
  · obtain ⟨ticked, hticked, hclose⟩ := Option.bind_eq_some_iff.mp hclose
    cases hclose
    refine hkeeps.noted ticked _ ⟨rfl, rfl, rfl, rfl⟩ (hkeeps.tick _ ticked _ rfl ?_ hticked)
    exact hkeeps.noted moved _ ⟨rfl, rfl, rfl, rfl⟩ hafter

theorem replay_parts (hreplay : run.replay opts tick = some run') :
    ∃ barred closeBars,
      replayBars opts tick
        { run with
          lastCloseMs := some tick.candle.closeTimeMs
          intervalOf := set tick.symbol tick.interval run.intervalOf
          streamed := run.streamed ++ [tick] } = some (barred, closeBars) ∧
      barred.closeCandle opts tick closeBars = some run' := by
  unfold replay at hreplay
  split at hreplay
  · cases hreplay
  split at hreplay
  · cases hreplay
  obtain ⟨⟨barred, closeBars⟩, hbars, hclose⟩ := Option.bind_eq_some_iff.mp hreplay
  exact ⟨barred, closeBars, hbars, hclose⟩

theorem Keeps.replay (hkeeps : Keeps opts tick.symbol P) (h : P run)
    (hreplay : run.replay opts tick = some run') : P run' := by
  obtain ⟨barred, closeBars, hbars, hclose⟩ := replay_parts hreplay
  refine hkeeps.closeCandle (hkeeps.replayBars ?_ hbars) hclose
  exact hkeeps.noted run _ ⟨rfl, rfl, rfl, rfl⟩ h

end Keeps

/-! ### Reading the executor -/

/-- The executor without what was read of it. -/
structure Drained (symbol : String) (ex ex' : BacktestExecutor) : Prop where
  balances : ex'.balances = ex.balances
  market : ex'.market = ex.market
  trades : ex'.trades = ex.trades
  restingOrders : ex'.restingOrders = ex.restingOrders
  nextOrderId : ex'.nextOrderId = ex.nextOrderId
  pendingFills : ex'.pendingFills = ex.pendingFills.filter (·.symbol ≠ symbol)
  rejected : ex'.rejected = ex.rejected.filter (·.2 ≠ symbol)

theorem filter_both_sides (rejected : List (OrderSide × String)) (symbol : String) :
    (rejected.filter (· ≠ (OrderSide.buy, symbol))).filter (· ≠ (OrderSide.sell, symbol)) =
      rejected.filter (·.2 ≠ symbol) := by
  rw [List.filter_filter]
  refine List.filter_congr ?_
  rintro ⟨side, other⟩ -
  cases side with
  | buy => simp
  | sell => simp

/-- The executor after the reads of one adoption. -/
def drain (symbol : String) (ex : BacktestExecutor) : BacktestExecutor :=
  (((ex.drainFills symbol).2.drainRejected symbol .buy).2.drainRejected symbol .sell).2

theorem drained_drain (symbol : String) (ex : BacktestExecutor) :
    Drained symbol ex (drain symbol ex) where
  balances := rfl
  market := rfl
  trades := rfl
  restingOrders := rfl
  nextOrderId := rfl
  pendingFills := rfl
  rejected := filter_both_sides ex.rejected symbol

/-- What an adoption read: the fills of the symbol, and whether
orders of either side were refused. -/
def drainedFills (symbol : String) (ex : BacktestExecutor) : List DrainedFill :=
  ex.pendingFills.filter (·.symbol = symbol)

def refused (side : OrderSide) (symbol : String) (ex : BacktestExecutor) : Bool :=
  (ex.drainRejected symbol side).1

section Adoption

variable {position : PositionStateAdapter S}

theorem drainRejected_sell (symbol : String) (ex : BacktestExecutor) :
    (((ex.drainFills symbol).2.drainRejected symbol .buy).2.drainRejected symbol .sell).1 =
      refused .sell symbol ex := by
  have hother : ((OrderSide.sell, symbol) ≠ (OrderSide.buy, symbol)) := by simp
  simp [BacktestExecutor.drainRejected, BacktestExecutor.drainFills, refused, hother]

/-- Without anything to read an adoption changes nothing. -/
theorem adoptFills_quiet (hposition : opts.strategy.position = some position)
    (hadopt : run.adoptFills opts symbol = some run')
    (hfills : drainedFills symbol run.executor = [])
    (hbuy : refused .buy symbol run.executor = false)
    (hsell : refused .sell symbol run.executor = false) :
    run' = { run with executor := drain symbol run.executor } := by
  unfold adoptFills at hadopt
  rw [hposition] at hadopt
  have hfills' : (run.executor.drainFills symbol).1 = [] := hfills
  have hbuy' : ((run.executor.drainFills symbol).2.drainRejected symbol .buy).1 = false := hbuy
  have hsell' := (drainRejected_sell symbol run.executor).trans hsell
  dsimp only at hadopt
  rw [hfills', hbuy', hsell'] at hadopt
  cases hadopt
  rfl

/-- What an adoption leaves, whatever it read. -/
structure Adopted (opts : RunBacktestOptions S) (position : PositionStateAdapter S)
    (symbol : String)
    (run run' : Run S) : Prop where
  drained : Drained symbol run.executor run'.executor
  states : ∀ other, other ≠ symbol → get other run'.states = get other run.states
  ledger : ∀ other, other ≠ symbol → run'.ledgerOf other = run.ledgerOf other
  preSellStates : ∀ other, other ≠ symbol →
    get other run'.preSellStates = get other run.preSellStates
  folded : ∃ state, (drainedFills symbol run.executor).foldlM (adoptOne position)
    (run.stateOf opts symbol, run.ledgerOf symbol) = some (state, run'.ledgerOf symbol)

/-- The run with the fills read and folded. -/
def folded (symbol : String) (state : S) (prior : Option PositionView) (run : Run S) : Run S :=
  { run with
    executor := drain symbol run.executor
    positionLedger := set symbol prior run.positionLedger
    states := set symbol state run.states }

/-- The run with its refusals seen to. -/
def settled (opts : RunBacktestOptions S) (position : PositionStateAdapter S) (symbol : String)
    (buyRejected sellRejected : Bool) (state : S) (prior : Option PositionView) (run : Run S) :
    Run S :=
  (run.flattenRefusedBuy opts position symbol buyRejected state prior).restoreRefusedSell
    position symbol sellRejected state prior

theorem adoptFills_loud (hposition : opts.strategy.position = some position)
    (hloud : drainedFills symbol run.executor ≠ [] ∨ refused .buy symbol run.executor = true ∨
      refused .sell symbol run.executor = true)
    (hadopt : run.adoptFills opts symbol = some run') :
    ∃ state prior, (drainedFills symbol run.executor).foldlM (adoptOne position)
        (run.stateOf opts symbol, run.ledgerOf symbol) = some (state, prior) ∧
      run' = (run.folded symbol state prior).settled opts position symbol
        (refused .buy symbol run.executor) (refused .sell symbol run.executor) state prior := by
  unfold adoptFills at hadopt
  rw [hposition] at hadopt
  dsimp only at hadopt
  rw [drainRejected_sell symbol run.executor] at hadopt
  split at hadopt
  · next hquiet =>
      have hnone : drainedFills symbol run.executor = [] ∧
          refused .buy symbol run.executor = false ∧ refused .sell symbol run.executor = false := by
        simpa [drainedFills, refused, BacktestExecutor.drainFills, BacktestExecutor.drainRejected,
          and_assoc] using hquiet
      obtain ⟨hfills, hbuy, hsell⟩ := hnone
      rcases hloud with h | h | h
      · exact absurd hfills h
      · rw [hbuy] at h
        cases h
      · rw [hsell] at h
        cases h
  · obtain ⟨⟨state, prior⟩, hfold, hadopt⟩ := Option.bind_eq_some_iff.mp hadopt
    cases hadopt
    exact ⟨state, prior, hfold, rfl⟩

variable {state : S} {prior : Option PositionView} {buyRejected sellRejected : Bool}

/-- Nothing but the states of the symbol has changed. -/
structure Restated (symbol : String) (run run' : Run S) : Prop where
  executor : run'.executor = run.executor
  positionLedger : run'.positionLedger = run.positionLedger
  states : ∀ other, other ≠ symbol → get other run'.states = get other run.states
  preSellStates : ∀ other, other ≠ symbol →
    get other run'.preSellStates = get other run.preSellStates

theorem flattenRefusedBuy_restated :
    Restated symbol run (run.flattenRefusedBuy opts position symbol buyRejected state prior) := by
  unfold flattenRefusedBuy
  split
  · exact ⟨rfl, rfl, fun _ hne => get_set_other hne, fun _ _ => rfl⟩
  · exact ⟨rfl, rfl, fun _ _ => rfl, fun _ _ => rfl⟩

theorem restoreRefusedSell_restated :
    Restated symbol run (run.restoreRefusedSell position symbol sellRejected state prior) := by
  unfold restoreRefusedSell
  split
  · exact ⟨rfl, rfl, fun _ _ => rfl, fun _ _ => rfl⟩
  · refine ⟨rfl, rfl, ?_, fun _ hne => get_delete_other hne⟩
    intro other hne
    dsimp only
    split
    · rfl
    · exact get_set_other hne

theorem settled_restated :
    Restated symbol run
      (run.settled opts position symbol buyRejected sellRejected state prior) := by
  have hbuy := @flattenRefusedBuy_restated S opts run symbol position state prior buyRejected
  have hsell := @restoreRefusedSell_restated S
    (run.flattenRefusedBuy opts position symbol buyRejected state prior) symbol position state prior
    sellRejected
  exact ⟨hsell.executor.trans hbuy.executor, hsell.positionLedger.trans hbuy.positionLedger,
    fun other hne => (hsell.states other hne).trans (hbuy.states other hne),
    fun other hne => (hsell.preSellStates other hne).trans (hbuy.preSellStates other hne)⟩

theorem adoptFills_adopted (hposition : opts.strategy.position = some position)
    (hadopt : run.adoptFills opts symbol = some run') : Adopted opts position symbol run run' := by
  by_cases hloud : drainedFills symbol run.executor ≠ [] ∨
      refused .buy symbol run.executor = true ∨ refused .sell symbol run.executor = true
  · obtain ⟨state, prior, hfold, rfl⟩ := adoptFills_loud hposition hloud hadopt
    have hsettled := @settled_restated S opts (run.folded symbol state prior) symbol position state
      prior (refused .buy symbol run.executor) (refused .sell symbol run.executor)
    refine ⟨?_, ?_, ?_, hsettled.preSellStates, state, ?_⟩
    · rw [hsettled.executor]
      exact drained_drain symbol run.executor
    · intro other hne
      exact (hsettled.states other hne).trans (get_set_other hne)
    · intro other hne
      rw [ledgerOf, hsettled.positionLedger, ledgerOf, folded, get_set_other hne]
    · rw [hfold, ledgerOf, hsettled.positionLedger, folded, get_set_self]
      rfl
  · rw [not_or, not_or, not_not, Bool.not_eq_true, Bool.not_eq_true] at hloud
    obtain ⟨hfills, hbuy, hsell⟩ := hloud
    have hread := adoptFills_quiet hposition hadopt hfills hbuy hsell
    subst hread
    refine ⟨drained_drain symbol run.executor, fun _ _ => rfl, fun _ _ => rfl, fun _ _ => rfl,
      run.stateOf opts symbol, ?_⟩
    rw [hfills]
    rfl

end Adoption

/-! ### The two moves in parts -/

theorem advance_parts (hadvance : run.advance opts symbol ctx = some run') :
    ∃ ex, run.executor.setMarketContext opts.exchange symbol ctx = some ex ∧
      { run with executor := ex }.adoptFills opts symbol = some run' := by
  obtain ⟨ex, hex, hadvance⟩ := Option.bind_eq_some_iff.mp hadvance
  exact ⟨ex, hex, hadvance⟩

/-- A run whose strategy has ticked: its answer is on record and its decisions are applied. -/
structure Ticked (opts : RunBacktestOptions S) (args : TickArgs) (run ticked : Run S)
    (nextState : S) (decisions : List Decision) : Prop where
  answer : opts.strategy.tick run args = some (nextState, decisions)
  applied : decisions.foldlM
    (fun ex decision => (BacktestExecutor.apply opts.exchange run.nowMs decision ex).map Prod.fst)
    run.executor = some ticked.executor
  states : ticked.states = set args.symbol nextState run.states
  positionLedger : ticked.positionLedger = run.positionLedger
  preSellStates : ticked.preSellStates =
    if decisions.any placesSell then
      set args.symbol (run.stateOf opts args.symbol) run.preSellStates
    else delete args.symbol run.preSellStates

theorem runTick_parts (htick : run.runTick opts args = some run') :
    ∃ ticked nextState decisions, Ticked opts args run ticked nextState decisions ∧
      ticked.adoptFills opts args.symbol = some run' := by
  obtain ⟨info, -, htick⟩ := Option.bind_eq_some_iff.mp htick
  obtain ⟨⟨nextState, decisions⟩, hanswer, htick⟩ := Option.bind_eq_some_iff.mp htick
  obtain ⟨ticked, hticked, hadopt⟩ := Option.bind_eq_some_iff.mp htick
  obtain ⟨ex, hex, hticked⟩ := Option.bind_eq_some_iff.mp hticked
  cases hticked
  refine ⟨_, nextState, decisions, ?_, hadopt⟩
  dsimp only at hex
  split at hex
  · next hintra => exact ⟨hanswer, hex, by simp [hintra], by simp [hintra], by simp [hintra]⟩
  · next hintra => exact ⟨hanswer, hex, by simp [hintra], by simp [hintra], by simp [hintra]⟩

/-- Without an adapter an adoption reads nothing. -/
theorem adoptFills_none (hposition : opts.strategy.position = none)
    (hadopt : run.adoptFills opts symbol = some run') : run' = run := by
  rw [adoptFills, hposition] at hadopt
  exact (Option.some.inj hadopt).symm

theorem Ticked.preserves {ticked : Run S} {nextState : S} {decisions : List Decision}
    (h : Ticked opts args run ticked nextState decisions) {P : BacktestExecutor → Prop}
    (hstep : ∀ ex decision ex' result, decision ∈ decisions → P ex →
      ex.apply opts.exchange run.nowMs decision = some (ex', result) → P ex')
    (hbefore : P run.executor) : P ticked.executor := by
  refine foldlM_preserves ?_ hbefore h.applied
  intro ex decision ex' hmem hex happlied
  obtain ⟨⟨applied, result⟩, hcall, rfl⟩ := Option.map_eq_some_iff.mp happlied
  exact hstep ex decision applied result hmem hex hcall

theorem kept_adoptFills {asset : String} {initial : ℚ}
    (hkept : BacktestExecutor.Kept opts.exchange asset initial run.executor)
    (hadopt : run.adoptFills opts symbol = some run') :
    BacktestExecutor.Kept opts.exchange asset initial run'.executor := by
  cases hposition : opts.strategy.position with
  | none =>
      rw [adoptFills_none hposition hadopt]
      exact hkept
  | some position =>
      have hdrained := (adoptFills_adopted hposition hadopt).drained
      exact hkept.congr hdrained.balances hdrained.trades hdrained.restingOrders
        hdrained.nextOrderId

end Run

end TradingBot.Backtest
