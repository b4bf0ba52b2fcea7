import TradingBot.Backtest.Ledger

/-!
# Unread fills and untouched symbols

Two facts about the replay: with an adapter nothing stays unread between its
moves, where orders name the symbol they are sent for or fill on later candles
only; and a symbol the strategy has not touched yet only has its market moved
by its own candles.
-/

namespace TradingBot.Backtest

open InsertionMap LabelledRun

/-- The strategy sends orders only for the symbol it is ticked for. -/
def Strategy.OwnOrders {S : Type} (strategy : Strategy S) : Prop :=
  ∀ run args nextState decisions, strategy.tick run args = some (nextState, decisions) →
    ∀ decision ∈ decisions, ∀ intent ∈ BacktestExecutor.orderOf decision,
      intent.symbol = args.symbol

namespace BacktestExecutor

variable {opts : OhlcvFillModelOptions} {infos : List SymbolInfo} {ex ex' : BacktestExecutor}
  {nowMs : ℤ} {intent : OrderIntent} {params : OrderParams} {result : DecisionResult}
  {decision : Decision}

theorem ohlcv_placeOrder_unread
    (hplaced : ex.placeOrder ⟨ohlcvFillModel opts, infos⟩ nowMs intent params =
      some (ex', result)) :
    ex'.pendingFills = ex.pendingFills ∧ ex'.rejected = ex.rejected := by
  unfold placeOrder at hplaced
  split at hplaced
  · cases hplaced
    exact ⟨rfl, rfl⟩
  split at hplaced
  · cases hplaced
    exact ⟨rfl, rfl⟩
  obtain ⟨outcome, houtcome, hplaced⟩ := Option.bind_eq_some_iff.mp hplaced
  have hrest : outcome = .rest false := by
    simp only [ohlcvFillModel, OhlcvFillModelOptions.fill] at houtcome
    split at houtcome
    · cases houtcome
    · exact (Option.some.inj houtcome).symm
  subst hrest
  obtain ⟨rested, hrested, hplaced⟩ := Option.bind_eq_some_iff.mp hplaced
  cases hplaced
  obtain ⟨reservation, -, hrested⟩ := Option.bind_eq_some_iff.mp hrested
  cases hrested
  exact ⟨rfl, rfl⟩

theorem cancel_unread (orderId : ℕ) :
    (ex.cancel orderId).pendingFills = ex.pendingFills ∧
      (ex.cancel orderId).rejected = ex.rejected := by
  unfold cancel
  split
  · exact ⟨rfl, rfl⟩
  · exact ⟨rfl, rfl⟩

theorem ohlcv_apply_unread
    (happlied : ex.apply ⟨ohlcvFillModel opts, infos⟩ nowMs decision = some (ex', result)) :
    ex'.pendingFills = ex.pendingFills ∧ ex'.rejected = ex.rejected := by
  have hreplaced : ∀ {cancelOrderId : ℕ} {intent : OrderIntent} {params : OrderParams},
      (ex.cancel cancelOrderId).placeOrder ⟨ohlcvFillModel opts, infos⟩ nowMs intent params =
        some (ex', result) →
      ex'.pendingFills = ex.pendingFills ∧ ex'.rejected = ex.rejected := by
    intro cancelOrderId intent params hplaced
    obtain ⟨hfills, hrejected⟩ := ohlcv_placeOrder_unread hplaced
    obtain ⟨hfills', hrejected'⟩ := @cancel_unread ex cancelOrderId
    exact ⟨hfills.trans hfills', hrejected.trans hrejected'⟩
  cases decision with
  | noop =>
      cases happlied
      exact ⟨rfl, rfl⟩
  | placeOrder intent params => exact ohlcv_placeOrder_unread happlied
  | cancelOrder orderId =>
      cases happlied
      exact cancel_unread orderId
  | replaceOrder cancelOrderId intent params =>
      rw [apply] at happlied
      split at happlied
      · exact hreplaced happlied
      · split at happlied
        · cases happlied
          exact ⟨rfl, rfl⟩
        · exact hreplaced happlied
  | emitEvent eventType payload =>
      cases happlied
      exact ⟨rfl, rfl⟩
  | setKv key value =>
      cases happlied
      exact ⟨rfl, rfl⟩
  | deleteKv key =>
      cases happlied
      exact ⟨rfl, rfl⟩

/-- Everything unread is of one symbol. -/
structure UnreadOf (symbol : String) (ex : BacktestExecutor) : Prop where
  fills : ∀ fill ∈ ex.pendingFills, fill.symbol = symbol
  refusals : ∀ entry ∈ ex.rejected, entry.2 = symbol

theorem UnreadOf.of_extends {symbol : String} (h : UnreadOf symbol ex)
    (hextends : Extends symbol ex ex') : UnreadOf symbol ex' where
  fills := by
    obtain ⟨new, hnew, -, hpending⟩ := hextends.trades
    intro fill hfill
    rw [hpending] at hfill
    rcases List.mem_append.mp hfill with hfill | hfill
    · exact h.fills fill hfill
    · obtain ⟨t, ht, rfl⟩ := List.mem_map.mp hfill
      exact hnew t ht
  refusals := by
    intro entry hentry
    rcases hextends.rejected entry hentry with hentry | hentry
    · exact h.refusals entry hentry
    · exact hentry

/-- Nothing of the symbol is on the book, recorded or unread. -/
structure Untouched (symbol : String) (ex : BacktestExecutor) : Prop where
  orders : ∀ ord ∈ ex.restingOrders, ord.symbol ≠ symbol
  trades : ∀ t ∈ ex.trades, t.symbol ≠ symbol
  fills : ∀ fill ∈ ex.pendingFills, fill.symbol ≠ symbol
  refusals : ∀ entry ∈ ex.rejected, entry.2 ≠ symbol

theorem Untouched.of_extends {symbol other : String} (h : ex.Untouched symbol)
    (hne : other ≠ symbol) (hextends : Extends other ex ex')
    (horders : AddsOrders other ex.restingOrders ex'.restingOrders) : ex'.Untouched symbol := by
  obtain ⟨new, hnew, htrades, hpending⟩ := hextends.trades
  refine ⟨?_, ?_, ?_, ?_⟩
  · intro ord hord
    rcases horders ord hord with hord | hord
    · rw [hord]
      exact hne
    · exact h.orders ord hord
  · intro t ht
    rw [htrades] at ht
    rcases List.mem_append.mp ht with ht | ht
    · exact h.trades t ht
    · rw [hnew t ht]
      exact hne
  · intro fill hfill
    rw [hpending] at hfill
    rcases List.mem_append.mp hfill with hfill | hfill
    · exact h.fills fill hfill
    · obtain ⟨t, ht, rfl⟩ := List.mem_map.mp hfill
      rw [BacktestTrade.fill, hnew t ht]
      exact hne
  · intro entry hentry
    rcases hextends.rejected entry hentry with hentry | hentry
    · exact h.refusals entry hentry
    · rw [hentry]
      exact hne

end BacktestExecutor

namespace Run

variable {S : Type} {opts : RunBacktestOptions S} {run run' : Run S} {symbol : String}
  {position : PositionStateAdapter S}

/-- Nothing is unread. -/
structure AllRead (run : Run S) : Prop where
  fills : run.executor.pendingFills = []
  refusals : run.executor.rejected = []

theorem AllRead.unreadOf (h : run.AllRead) (symbol : String) :
    BacktestExecutor.UnreadOf symbol run.executor where
  fills := by
    rw [h.fills]
    exact List.forall_mem_nil _
  refusals := by
    rw [h.refusals]
    exact List.forall_mem_nil _

theorem allRead_of_adopted (h : BacktestExecutor.UnreadOf symbol run.executor)
    (hadopted : Adopted opts position symbol run run') : run'.AllRead where
  fills := by
    rw [hadopted.drained.pendingFills, List.filter_eq_nil_iff]
    intro fill hfill
    simpa using h.fills fill hfill
  refusals := by
    rw [hadopted.drained.rejected, List.filter_eq_nil_iff]
    intro entry hentry
    simpa using h.refusals entry hentry

/-- Orders fill on later candles only, or name the symbol they are sent for. -/
def Prompt (opts : RunBacktestOptions S) : Prop :=
  (∃ o, opts.exchange.fillModel = ohlcvFillModel o) ∨ opts.strategy.OwnOrders

theorem Ticked.unreadOf {ticked : Run S} {args : TickArgs} {nextState : S}
    {decisions : List Decision} (h : Ticked opts args run ticked nextState decisions)
    (hprompt : Prompt opts) (hread : run.AllRead) :
    BacktestExecutor.UnreadOf args.symbol ticked.executor := by
  refine h.preserves ?_ (hread.unreadOf args.symbol)
  intro ex decision ex' result hmem hbefore hcall
  rcases hprompt with ⟨o, ho⟩ | hown
  · have hexchange : opts.exchange = ⟨ohlcvFillModel o, opts.exchange.symbolInfos⟩ := by
      rw [← ho]
    rw [hexchange] at hcall
    obtain ⟨hfills, hrejected⟩ := BacktestExecutor.ohlcv_apply_unread hcall
    exact ⟨by rw [hfills]; exact hbefore.fills, by rw [hrejected]; exact hbefore.refusals⟩
  · have hnames := hown run args nextState decisions h.answer decision hmem
    exact hbefore.of_extends (BacktestExecutor.apply_extends hcall hnames).1

/-- With an adapter nothing stays unread between the moves of a run. -/
theorem keeps_allRead (hposition : opts.strategy.position = some position)
    (hprompt : Prompt opts) (symbol : String) : Keeps opts symbol AllRead := by
  refine ⟨?_, ?_, ?_⟩
  · intro run run' ctx hread hadvance
    obtain ⟨ex, hex, hadopt⟩ := advance_parts hadvance
    refine allRead_of_adopted ?_ (adoptFills_adopted hposition hadopt)
    exact (hread.unreadOf symbol).of_extends (BacktestExecutor.setMarketContext_extends hex).1
  · intro run run' args _ hread htick
    obtain ⟨ticked, nextState, decisions, hticked, hadopt⟩ := runTick_parts htick
    exact allRead_of_adopted (hticked.unreadOf hprompt hread) (adoptFills_adopted hposition hadopt)
  · intro run run' hnoted hread
    refine ⟨?_, ?_⟩
    · rw [hnoted.executor]
      exact hread.fills
    · rw [hnoted.executor]
      exact hread.refusals

/-! ### The curve -/

/-- The equity curve, the opening mark and the candle counts are the same. -/
structure SameCurve (run run' : Run S) : Prop where
  startingBalance : run'.startingBalance = run.startingBalance
  seen : run'.seen = run.seen
  equityCurve : run'.equityCurve = run.equityCurve

variable {run'' : Run S} {tick : MarketTick} {ctx : MarketContext} {args : TickArgs}
  {closeBars : Option (List Candle)}

theorem sameCurve_refl : SameCurve run run := ⟨rfl, rfl, rfl⟩

theorem SameCurve.trans (h : SameCurve run run') (h' : SameCurve run' run'') :
    SameCurve run run'' :=
  ⟨h'.startingBalance.trans h.startingBalance, h'.seen.trans h.seen,
    h'.equityCurve.trans h.equityCurve⟩

theorem adoptFills_sameCurve (hadopt : run.adoptFills opts symbol = some run') :
    SameCurve run run' := by
  unfold adoptFills at hadopt
  split at hadopt
  · cases hadopt
    exact sameCurve_refl
  dsimp only at hadopt
  split at hadopt
  · cases hadopt
    exact ⟨rfl, rfl, rfl⟩
  obtain ⟨⟨state, prior⟩, -, hadopt⟩ := Option.bind_eq_some_iff.mp hadopt
  cases hadopt
  unfold restoreRefusedSell flattenRefusedBuy
  split
  · split
    · exact ⟨rfl, rfl, rfl⟩
    · exact ⟨rfl, rfl, rfl⟩
  · split
    · exact ⟨rfl, rfl, rfl⟩
    · exact ⟨rfl, rfl, rfl⟩

theorem advance_sameCurve (hadvance : run.advance opts symbol ctx = some run') :
    SameCurve run run' := by
  obtain ⟨ex, -, hadopt⟩ := advance_parts hadvance
  have hadopted := adoptFills_sameCurve hadopt
  exact ⟨hadopted.startingBalance, hadopted.seen, hadopted.equityCurve⟩

theorem runTick_sameCurve (htick : run.runTick opts args = some run') : SameCurve run run' := by
  obtain ⟨info, -, htick⟩ := Option.bind_eq_some_iff.mp htick
  obtain ⟨⟨nextState, decisions⟩, -, htick⟩ := Option.bind_eq_some_iff.mp htick
  obtain ⟨ticked, hticked, hadopt⟩ := Option.bind_eq_some_iff.mp htick
  obtain ⟨ex, -, hticked⟩ := Option.bind_eq_some_iff.mp hticked
  cases hticked
  have hadopted := adoptFills_sameCurve hadopt
  refine ⟨hadopted.startingBalance.trans ?_, hadopted.seen.trans ?_, hadopted.equityCurve.trans ?_⟩
  · dsimp only
    split
    · rfl
    · rfl
  · dsimp only
    split
    · rfl
    · rfl
  · dsimp only
    split
    · rfl
    · rfl

theorem replayBars_sameCurve (hbars : run.replayBars opts tick = some (run', closeBars)) :
    SameCurve run run' := by
  have hpending : ∀ (bars : List Candle) (run : Run S),
      SameCurve run (bars.foldl (fun run bar => run.addPendingBar tick.symbol bar) run) := by
    intro bars
    induction bars with
    | nil => exact fun run => sameCurve_refl
    | cons bar rest ih =>
        intro run
        have hrest := ih (run.addPendingBar tick.symbol bar)
        exact ⟨hrest.startingBalance, hrest.seen, hrest.equityCurve⟩
  unfold replayBars at hbars
  split at hbars
  · split at hbars
    · cases hbars
    dsimp only at hbars
    split at hbars
    · cases hbars
      exact hpending _ run
    · obtain ⟨replayed, hreplayed, hbars⟩ := Option.bind_eq_some_iff.mp hbars
      cases hbars
      refine SameCurve.trans ?_ (hpending _ replayed)
      refine foldlM_preserves (fun middle bar next _ hbefore hbar => hbefore.trans ?_)
        sameCurve_refl hreplayed
      obtain ⟨moved, hmoved, hbar⟩ := Option.bind_eq_some_iff.mp hbar
      have hadvanced := advance_sameCurve hmoved
      dsimp only at hbar
      split at hbar
      · have hticked := runTick_sameCurve hbar
        exact ⟨hticked.startingBalance.trans hadvanced.startingBalance,
          hticked.seen.trans hadvanced.seen, hticked.equityCurve.trans hadvanced.equityCurve⟩
      · cases hbar
        exact ⟨hadvanced.startingBalance, hadvanced.seen, hadvanced.equityCurve⟩
  · cases hbars
    exact sameCurve_refl

/-- How a candle closes: it marks the opening, and either warms up or ticks and adds a point. -/
structure Closed (opts : RunBacktestOptions S) (tick : MarketTick) (run moved run' : Run S) :
    Prop where
  startingBalance : run'.startingBalance =
    some (run.startingBalance.getD (moved.executor.equityInQuote opts.quoteAsset))
  seen : run'.seen = set tick.symbol (run.seenOf tick.symbol + 1) run.seen
  warmUp : run.seenOf tick.symbol + 1 ≤ opts.startupCandleCount →
    run'.equityCurve = run.equityCurve ∧ run'.executor = moved.executor ∧
      run'.states = moved.states
  traded : opts.startupCandleCount < run.seenOf tick.symbol + 1 → ∃ point,
    run'.equityCurve = run.equityCurve ++ [point] ∧
      point.equity = run'.executor.equityInQuote opts.quoteAsset

theorem closeCandle_parts (hclose : run.closeCandle opts tick closeBars = some run') :
    ∃ ctx moved, advance opts tick.symbol ctx
        { run.pushCandle opts tick with nowMs := tick.candle.closeTimeMs } = some moved ∧
      Closed opts tick run moved run' := by
  obtain ⟨moved, hmoved, hclose⟩ := Option.bind_eq_some_iff.mp hclose
  refine ⟨_, moved, hmoved, ?_⟩
  have hsame := advance_sameCurve hmoved
  have hseen : moved.seenOf tick.symbol = run.seenOf tick.symbol := by
    rw [seenOf, hsame.seen]
    rfl
  have hcount : ∀ n : ℕ, (({ moved with
      startingBalance := some
        (moved.startingBalance.getD (moved.executor.equityInQuote opts.quoteAsset))
      seen := set tick.symbol n moved.seen } : Run S).seenOf tick.symbol) = n := by
    intro n
    rw [seenOf, get_set_self, Option.getD_some]
  dsimp only at hclose
  rw [hcount] at hclose
  have hstart : moved.startingBalance = run.startingBalance := hsame.startingBalance
  have hcurve : moved.equityCurve = run.equityCurve := hsame.equityCurve
  have hseens : moved.seen = run.seen := hsame.seen
  split at hclose
  · next hwarm =>
      cases hclose
      refine ⟨by rw [hstart], by rw [hseens, hseen], fun _ => ⟨hcurve, rfl, rfl⟩, ?_⟩
      intro htraded
      rw [hseen] at hwarm
      exact absurd htraded (not_lt.mpr hwarm)
  · next hwarm =>
      obtain ⟨ticked, hticked, hclose⟩ := Option.bind_eq_some_iff.mp hclose
      cases hclose
      have hafter := runTick_sameCurve hticked
      refine ⟨?_, ?_, ?_, ?_⟩
      · rw [hafter.startingBalance, hstart]
      · rw [hafter.seen, hseens, hseen]
      · intro h
        rw [hseen] at hwarm
        exact absurd h hwarm
      · intro _
        refine ⟨⟨ticked.nowMs, ticked.executor.equityInQuote opts.quoteAsset⟩, ?_, rfl⟩
        rw [hafter.equityCurve, hcurve]

/-! ### Untouched symbols -/

/-- Nothing of the symbol has been ordered, traded, refused or ticked. -/
structure Untouched (symbol : String) (run : Run S) : Prop where
  account : run.executor.Untouched symbol
  state : get symbol run.states = none

theorem Untouched.congr (h : run.Untouched symbol) (hexecutor : run'.executor = run.executor)
    (hstates : run'.states = run.states) : run'.Untouched symbol where
  account := by
    rw [hexecutor]
    exact h.account
  state := by
    rw [hstates]
    exact h.state

/-- Only the market of the symbol has moved. -/
structure OnlyMarket (symbol : String) (run run' : Run S) : Prop where
  executor : ∃ market, run'.executor = { run.executor with market } ∧
    ∀ other, other ≠ symbol → get other market = get other run.executor.market
  states : run'.states = run.states

theorem onlyMarket_of_same (hexecutor : run'.executor = run.executor)
    (hstates : run'.states = run.states) : OnlyMarket symbol run run' where
  executor := ⟨run.executor.market, hexecutor, fun _ _ => rfl⟩
  states := hstates

theorem OnlyMarket.trans (h : OnlyMarket symbol run run') (h' : OnlyMarket symbol run' run'') :
    OnlyMarket symbol run run'' where
  executor := by
    obtain ⟨market, hexecutor, hother⟩ := h.executor
    obtain ⟨market', hexecutor', hother'⟩ := h'.executor
    refine ⟨market', by rw [hexecutor', hexecutor], ?_⟩
    intro other hne
    rw [hother' other hne, hexecutor]
    exact hother other hne
  states := h'.states.trans h.states

theorem Untouched.of_onlyMarket {other : String} (h : run.Untouched other)
    (honly : OnlyMarket symbol run run') : run'.Untouched other := by
  obtain ⟨market, hexecutor, -⟩ := honly.executor
  have haccount := h.account
  refine ⟨?_, by rw [honly.states]; exact h.state⟩
  rw [hexecutor]
  exact ⟨haccount.orders, haccount.trades, haccount.fills, haccount.refusals⟩

/-- Reading a symbol nothing is unread of changes nothing. -/
theorem drain_eq_self {ex : BacktestExecutor}
    (hfills : ∀ fill ∈ ex.pendingFills, fill.symbol ≠ symbol)
    (hrefusals : ∀ entry ∈ ex.rejected, entry.2 ≠ symbol) : drain symbol ex = ex := by
  have hdrained := drained_drain symbol ex
  have hpending : ex.pendingFills.filter (·.symbol ≠ symbol) = ex.pendingFills :=
    List.filter_eq_self.mpr fun fill hfill => by simpa using hfills fill hfill
  have hrejected : ex.rejected.filter (·.2 ≠ symbol) = ex.rejected :=
    List.filter_eq_self.mpr fun entry hentry => by simpa using hrefusals entry hentry
  obtain ⟨balances, market, trades, events, kv, restingOrders, pendingFills,
    rejected, nextOrderId⟩ := ex
  have hfields : drain symbol ⟨balances, market, trades, events, kv, restingOrders, pendingFills,
      rejected, nextOrderId⟩ = ⟨balances, market, trades, events, kv, restingOrders,
        pendingFills.filter (·.symbol ≠ symbol), rejected.filter (·.2 ≠ symbol), nextOrderId⟩ := by
    have hboth := filter_both_sides rejected symbol
    simp only [drain, BacktestExecutor.drainFills, BacktestExecutor.drainRejected] at hboth ⊢
    rw [hboth]
  rw [hfields, hpending, hrejected]

theorem Untouched.advance (h : run.Untouched symbol)
    (hadvance : run.advance opts symbol ctx = some run') : OnlyMarket symbol run run' := by
  obtain ⟨ex, hex, hadopt⟩ := advance_parts hadvance
  rw [BacktestExecutor.setMarketContext_idle h.account.orders] at hex
  cases hex
  have hmoved : ∀ {after : Run S}, after.executor =
      { run.executor with market := set symbol ctx run.executor.market } →
      after.states = run.states → OnlyMarket symbol run after := by
    intro after hexecutor hstates
    exact ⟨⟨_, hexecutor, fun other hne => get_set_other hne⟩, hstates⟩
  cases hposition : opts.strategy.position with
  | none =>
      rw [adoptFills_none hposition hadopt]
      exact hmoved rfl rfl
  | some position =>
      have hfills : drainedFills symbol run.executor = [] := by
        rw [drainedFills, List.filter_eq_nil_iff]
        intro fill hfill
        simpa using h.account.fills fill hfill
      have hrefused : ∀ side, refused side symbol run.executor = false := by
        intro side
        rw [refused, BacktestExecutor.drainRejected, decide_eq_false_iff_not]
        exact fun hmem => h.account.refusals _ hmem rfl
      have hquiet := adoptFills_quiet hposition hadopt hfills (hrefused .buy) (hrefused .sell)
      rw [hquiet]
      refine hmoved ?_ rfl
      exact drain_eq_self h.account.fills h.account.refusals

theorem Untouched.holdsPosition (h : run.Untouched symbol) :
    run.holdsPosition opts symbol = false := by
  unfold Run.holdsPosition
  rw [h.state]
  split
  · next heq => cases heq
  · rfl

theorem Untouched.replayBars (h : run.Untouched tick.symbol)
    (hbars : run.replayBars opts tick = some (run', closeBars)) :
    OnlyMarket tick.symbol run run' := by
  have hpending : ∀ (bars : List Candle) (run : Run S), OnlyMarket tick.symbol run
      (bars.foldl (fun run bar => run.addPendingBar tick.symbol bar) run) := by
    intro bars
    induction bars with
    | nil => exact fun run => onlyMarket_of_same rfl rfl
    | cons bar rest ih =>
        intro run
        have hfirst : OnlyMarket tick.symbol run (run.addPendingBar tick.symbol bar) :=
          onlyMarket_of_same rfl rfl
        exact hfirst.trans (ih (run.addPendingBar tick.symbol bar))
  unfold Run.replayBars at hbars
  split at hbars
  · split at hbars
    · cases hbars
    dsimp only at hbars
    split at hbars
    · cases hbars
      exact hpending _ run
    · obtain ⟨replayed, hreplayed, hbars⟩ := Option.bind_eq_some_iff.mp hbars
      cases hbars
      refine OnlyMarket.trans ?_ (hpending _ replayed)
      refine foldlM_preserves (fun middle bar next _ hbefore hbar => hbefore.trans ?_)
        (onlyMarket_of_same rfl rfl) hreplayed
      obtain ⟨moved, hmoved, hbar⟩ := Option.bind_eq_some_iff.mp hbar
      have hmiddle := h.of_onlyMarket hbefore
      have hclock : Untouched tick.symbol { middle with nowMs := bar.closeTimeMs } :=
        hmiddle.congr rfl rfl
      have honly := hclock.advance hmoved
      have hadded : (moved.addPendingBar tick.symbol bar).Untouched tick.symbol :=
        (hclock.of_onlyMarket honly).congr rfl rfl
      have hflat := @Untouched.holdsPosition S opts _ _ hadded
      dsimp only at hbar
      rw [hflat] at hbar
      cases hbar
      exact ⟨honly.executor, honly.states⟩
  · cases hbars
    exact onlyMarket_of_same rfl rfl

theorem Untouched.adoptFills {other : String} (h : run.Untouched symbol) (hne : symbol ≠ other)
    (hadopt : run.adoptFills opts other = some run') : run'.Untouched symbol := by
  cases hposition : opts.strategy.position with
  | none =>
      rw [adoptFills_none hposition hadopt]
      exact h
  | some position =>
      have hadopted := adoptFills_adopted hposition hadopt
      have hdrained := hadopted.drained
      refine ⟨⟨?_, ?_, ?_, ?_⟩, (hadopted.states symbol hne).trans h.state⟩
      · rw [hdrained.restingOrders]
        exact h.account.orders
      · rw [hdrained.trades]
        exact h.account.trades
      · intro fill hfill
        rw [hdrained.pendingFills] at hfill
        exact h.account.fills fill (List.mem_of_mem_filter hfill)
      · intro entry hentry
        rw [hdrained.rejected] at hentry
        exact h.account.refusals entry (List.mem_of_mem_filter hentry)

theorem keeps_untouched (hown : opts.strategy.OwnOrders) {other : String} (hne : symbol ≠ other) :
    Keeps opts other (Untouched symbol) := by
  refine ⟨?_, ?_, ?_⟩
  · intro run run' ctx huntouched hadvance
    obtain ⟨ex, hex, hadopt⟩ := advance_parts hadvance
    obtain ⟨hextends, horders⟩ := BacktestExecutor.setMarketContext_extends hex
    have hmoved : Untouched symbol { run with executor := ex } :=
      ⟨huntouched.account.of_extends hne.symm hextends horders, huntouched.state⟩
    exact hmoved.adoptFills hne hadopt
  · intro run run' args hargs huntouched htick
    obtain ⟨ticked, nextState, decisions, hticked, hadopt⟩ := runTick_parts htick
    have haccount : ticked.executor.Untouched symbol := by
      refine hticked.preserves ?_ huntouched.account
      intro ex decision ex' result hmem hbefore hcall
      have hnames := hown run args nextState decisions hticked.answer decision hmem
      rw [hargs] at hnames
      obtain ⟨hextends, horders⟩ := BacktestExecutor.apply_extends hcall hnames
      exact hbefore.of_extends hne.symm hextends horders
    have hafter : ticked.Untouched symbol := by
      refine ⟨haccount, ?_⟩
      rw [hticked.states, get_set_other (by rw [hargs]; exact hne)]
      exact huntouched.state
    rw [hargs] at hadopt
    exact hafter.adoptFills hne hadopt
  · intro run run' hnoted huntouched
    exact huntouched.congr hnoted.executor hnoted.states

theorem Untouched.replay_closed (h : run.Untouched tick.symbol)
    (hreplay : run.replay opts tick = some run') :
    ∃ barred moved, SameCurve run barred ∧ OnlyMarket tick.symbol run moved ∧
      Closed opts tick barred moved run' := by
  obtain ⟨barred, closeBars, hbars, hclose⟩ := replay_parts hreplay
  obtain ⟨ctx, moved, hmoved, hclosed⟩ := closeCandle_parts hclose
  have hopened : Untouched tick.symbol
      { run with
        lastCloseMs := some tick.candle.closeTimeMs
        intervalOf := set tick.symbol tick.interval run.intervalOf
        streamed := run.streamed ++ [tick] } := h.congr rfl rfl
  have hsame := replayBars_sameCurve hbars
  have honly := hopened.replayBars hbars
  have hbarred : Untouched tick.symbol
      { barred.pushCandle opts tick with nowMs := tick.candle.closeTimeMs } :=
    (hopened.of_onlyMarket honly).congr rfl rfl
  have honly' := hbarred.advance hmoved
  have hmarket : OnlyMarket tick.symbol run barred := ⟨honly.executor, honly.states⟩
  have hmarket' : OnlyMarket tick.symbol barred moved := ⟨honly'.executor, honly'.states⟩
  exact ⟨barred, moved, ⟨hsame.startingBalance, hsame.seen, hsame.equityCurve⟩,
    hmarket.trans hmarket', hclosed⟩

theorem Untouched.replay_warmUp (h : run.Untouched tick.symbol)
    (hwarm : run.seenOf tick.symbol + 1 ≤ opts.startupCandleCount)
    (hreplay : run.replay opts tick = some run') :
    OnlyMarket tick.symbol run run' ∧ run'.equityCurve = run.equityCurve := by
  obtain ⟨barred, moved, hsame, hmarket, hclosed⟩ := h.replay_closed hreplay
  have hseen : barred.seenOf tick.symbol = run.seenOf tick.symbol := by
    rw [seenOf, hsame.seen, seenOf]
  obtain ⟨hcurve, hexecutor, hstates⟩ := hclosed.warmUp (by rw [hseen]; exact hwarm)
  exact ⟨hmarket.trans (onlyMarket_of_same hexecutor hstates), hcurve.trans hsame.equityCurve⟩

/-- The first candle marks the opening at the account it found. -/
theorem Untouched.replay_startingBalance (h : run.Untouched tick.symbol)
    (hstart : run.startingBalance = none) (hreplay : run.replay opts tick = some run') :
    ∃ moved, OnlyMarket tick.symbol run moved ∧
      run'.startingBalance = some (moved.executor.equityInQuote opts.quoteAsset) := by
  obtain ⟨barred, moved, hsame, hmarket, hclosed⟩ := h.replay_closed hreplay
  refine ⟨moved, hmarket, ?_⟩
  rw [hclosed.startingBalance, hsame.startingBalance.trans hstart, Option.getD_none]

end Run

end TradingBot.Backtest
