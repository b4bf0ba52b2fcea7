import TradingBot.Backtest.WarmUp

/-!
# The report adds up

Three accounts of the same fills: the wallet, the average-cost pairing of the
report and the fills-only ledger. They agree at every state of a run, so the
equity gained is what the round trips realised plus what the open positions are
worth above their cost; the report says so of the run's last equity point where
that point is still current when the stream ends.
-/

namespace TradingBot.Backtest

open InsertionMap LabelledRun ReservedWallet
open TradingBot.TrailingTrade (PositionView)

/-! ### Sums by symbol -/

theorem sum_by_key {α : Type} (key : α → String) (value : α → ℚ) {l : List α}
    {names : Finset String} (hcover : ∀ a ∈ l, key a ∈ names) :
    ∑ name ∈ names, ((l.filter (key · = name)).map value).sum = (l.map value).sum := by
  induction l with
  | nil => simp
  | cons a rest ih =>
      have hrest := ih fun b hb => hcover b (List.mem_cons_of_mem a hb)
      have hsplit : ∀ name, (((a :: rest).filter (key · = name)).map value).sum =
          (if key a = name then value a else 0) + ((rest.filter (key · = name)).map value).sum := by
        intro name
        by_cases heq : key a = name
        · simp [heq]
        · simp [heq]
      rw [Finset.sum_congr rfl fun name _ => hsplit name, Finset.sum_add_distrib, hrest,
        Finset.sum_ite_eq, if_pos (hcover a List.mem_cons_self)]
      rfl

section Trades

variable {x : Exchange} {quote : String} {initial : ℚ} {ex : BacktestExecutor}
  {trades : List BacktestTrade}

def Exchange.names (x : Exchange) : Finset String := (x.symbolInfos.map (·.symbol)).toFinset

/-- What the symbol was last marked at; nothing before it has a market. -/
def BacktestExecutor.lastPrice (ex : BacktestExecutor) (symbol : String) : ℚ :=
  ((get symbol ex.market).map (·.lastPrice)).getD 0

theorem Known.mem_names (h : Known x trades) : ∀ t ∈ trades, t.symbol ∈ x.names := by
  intro t ht
  obtain ⟨info, hinfo⟩ := h t ht
  rw [Exchange.names, List.mem_toFinset]
  exact List.mem_map.mpr ⟨info, Exchange.symbols_mem hinfo, Exchange.symbols_name hinfo⟩

theorem AllKept.total_base (h : AllKept x quote initial ex) (hquotes : x.QuotesIn quote)
    {asset : String} (hbase : asset ≠ quote) :
    (holding ex.balances asset).total = baseMoves (asset ++ quote) ex.trades := by
  rw [(h asset).sound.total, opening, if_neg hbase, zero_add,
    sum_moved_base hquotes hbase h.known]

theorem AllKept.total_quote (h : AllKept x quote initial ex) (hquotes : x.QuotesIn quote) :
    (holding ex.balances quote).total = initial + (ex.trades.map BacktestTrade.quoteMove).sum := by
  rw [(h quote).sound.total, opening, if_pos rfl, sum_moved_quote hquotes h.known]

/-- The base of a known symbol, which is its name without the quote. -/
def Exchange.bases (x : Exchange) : Finset String := (x.symbolInfos.map (·.baseAsset)).toFinset

theorem Exchange.names_eq (hquotes : x.QuotesIn quote) :
    x.names = x.bases.image (· ++ quote) := by
  ext name
  simp only [Exchange.names, Exchange.bases, List.mem_toFinset, List.mem_map, Finset.mem_image]
  constructor
  · rintro ⟨info, hinfo, rfl⟩
    exact ⟨info.baseAsset, ⟨info, hinfo, rfl⟩, (hquotes.symbol info hinfo).symm⟩
  · rintro ⟨base, ⟨info, hinfo, rfl⟩, rfl⟩
    exact ⟨info, hinfo, hquotes.symbol info hinfo⟩

theorem baseMoves_unknown (hknown : Known x trades) {name : String} (hname : name ∉ x.names) :
    baseMoves name trades = 0 := by
  have hnone : trades.filter (·.symbol = name) = [] := by
    rw [List.filter_eq_nil_iff]
    intro t ht
    have hmem := hknown.mem_names t ht
    have hne : t.symbol ≠ name := fun heq => hname (heq ▸ hmem)
    simpa using hne
  rw [baseMoves, hnone]
  rfl

theorem AllKept.equity_eq (h : AllKept x quote initial ex) (hquotes : x.QuotesIn quote) :
    ex.equityInQuote quote = initial + (ex.trades.map BacktestTrade.quoteMove).sum +
      ∑ name ∈ x.names, baseMoves name ex.trades * ex.lastPrice name := by
  have hworth : ∀ asset, asset ≠ quote →
      ex.worthInQuote quote (asset, holding ex.balances asset) =
        baseMoves (asset ++ quote) ex.trades * ex.lastPrice (asset ++ quote) := by
    intro asset hbase
    rw [BacktestExecutor.worthInQuote]
    dsimp only
    rw [if_neg hbase, h.total_base hquotes hbase, BacktestExecutor.markPriceForBase,
      BacktestExecutor.lastPrice]
    cases get (asset ++ quote) ex.market with
    | none => simp
    | some ctx => rfl
  have hcover : ∀ asset, asset ∉ insert quote x.bases →
      ex.worthInQuote quote (asset, holding ex.balances asset) = 0 := by
    intro asset hasset
    rw [Finset.mem_insert, not_or] at hasset
    have hname : asset ++ quote ∉ x.names := by
      rw [Exchange.names_eq hquotes, Finset.mem_image]
      rintro ⟨base, hbase, heq⟩
      exact hasset.2 (append_right_cancel heq ▸ hbase)
    rw [hworth asset hasset.1, baseMoves_unknown h.known hname, zero_mul]
  have hquote : quote ∉ x.bases := by
    rw [Exchange.bases, List.mem_toFinset, List.mem_map]
    rintro ⟨info, hinfo, heq⟩
    exact hquotes.baseAsset info hinfo heq
  have hzero : ∀ asset, ex.worthInQuote quote (asset, ⟨0, 0⟩) = 0 := by
    intro asset
    rw [BacktestExecutor.worthInQuote]
    cases ex.markPriceForBase asset quote with
    | none => simp [Holding.total]
    | some price => simp [Holding.total]
  have hentries : ex.equityInQuote quote = ∑ asset ∈ insert quote x.bases,
      ex.worthInQuote quote (asset, holding ex.balances asset) :=
    sum_entries (fun asset held => ex.worthInQuote quote (asset, held))
      (h quote).sound.distinct hzero
      (insert quote x.bases) hcover
  have hown : ex.worthInQuote quote (quote, holding ex.balances quote) =
      initial + (ex.trades.map BacktestTrade.quoteMove).sum := by
    rw [BacktestExecutor.worthInQuote, if_pos rfl]
    exact h.total_quote hquotes
  have hinjective : Set.InjOn (· ++ quote) (x.bases : Set String) :=
    fun _ _ _ _ heq => append_right_cancel heq
  rw [hentries, Finset.sum_insert hquote, hown, Exchange.names_eq hquotes,
    Finset.sum_image hinjective]
  congr 1
  refine Finset.sum_congr rfl ?_
  intro asset hasset
  exact hworth asset fun heq => hquote (heq ▸ hasset)

/-! ### Round trips and open positions -/

theorem pairTrades_closed_symbol {closed : ClosedTrade} (h : closed ∈ (pairTrades trades).closed) :
    ∃ t ∈ trades, t.symbol = closed.symbol := by
  induction trades using List.reverseRecOn with
  | nil => cases h
  | append_singleton trades t ih =>
      have hearlier : closed ∈ (pairTrades trades).closed →
          ∃ s ∈ trades ++ [t], s.symbol = closed.symbol := by
        intro hclosed
        obtain ⟨s, hs, hsymbol⟩ := ih hclosed
        exact ⟨s, List.mem_append_left _ hs, hsymbol⟩
      rw [pairTrades_append_singleton, Pairing.pairTrade] at h
      split at h
      · exact hearlier h
      · split at h
        · exact hearlier h
        · rcases List.mem_append.mp h with h | h
          · exact hearlier h
          · rw [List.mem_singleton.mp h]
            exact ⟨t, List.mem_append_right _ (List.mem_singleton_self t), rfl⟩

theorem pairTrades_quoteMoves (hheld : SellsHeld trades) (hknown : Known x trades) :
    ((pairTrades trades).closed.map (·.pnl)).sum -
        ∑ name ∈ x.names, (pairTrades trades).openCost name =
      (trades.map BacktestTrade.quoteMove).sum := by
  have hclosed : ∀ closed ∈ (pairTrades trades).closed, closed.symbol ∈ x.names := by
    intro closed hmem
    obtain ⟨t, ht, hsymbol⟩ := pairTrades_closed_symbol hmem
    rw [← hsymbol]
    exact hknown.mem_names t ht
  rw [← sum_by_key ClosedTrade.symbol ClosedTrade.pnl hclosed,
    ← sum_by_key BacktestTrade.symbol BacktestTrade.quoteMove hknown.mem_names,
    ← Finset.sum_sub_distrib]
  refine Finset.sum_congr rfl ?_
  intro name _
  exact (pairTrades_standsFor hheld).worth name

theorem AllKept.equity_gained (h : AllKept x quote initial ex) (hquotes : x.QuotesIn quote) :
    ex.equityInQuote quote - initial = ((pairTrades ex.trades).closed.map (·.pnl)).sum +
      ∑ name ∈ x.names, ((pairTrades ex.trades).openQty name * ex.lastPrice name -
        (pairTrades ex.trades).openCost name) := by
  have hheld := h.sellsHeld hquotes
  have hqty : ∀ name ∈ x.names, (pairTrades ex.trades).openQty name * ex.lastPrice name =
      baseMoves name ex.trades * ex.lastPrice name := by
    intro name _
    rw [(pairTrades_standsFor hheld).qty name]
  rw [h.equity_eq hquotes, ← pairTrades_quoteMoves hheld h.known, Finset.sum_sub_distrib,
    Finset.sum_congr rfl hqty]
  ring

/-! ### The report's profits by symbol -/

theorem get_pnlBySymbol (closed : List ClosedTrade) (symbol : String) :
    (get symbol (pnlBySymbol closed)).getD 0 =
      ((closed.filter (·.symbol = symbol)).map (·.pnl)).sum := by
  induction closed using List.reverseRecOn with
  | nil => rfl
  | append_singleton closed c ih =>
      have hfold : pnlBySymbol (closed ++ [c]) =
          set c.symbol ((get c.symbol (pnlBySymbol closed)).getD 0 + c.pnl)
            (pnlBySymbol closed) := by
        rw [pnlBySymbol, List.foldl_append]
        rfl
      rw [hfold]
      by_cases heq : c.symbol = symbol
      · subst heq
        simp [ih]
      · rw [get_set_other (Ne.symm heq), ih]
        simp [heq]

theorem keys_countBySymbol (trades : List BacktestTrade) :
    (keys (countBySymbol trades)).Nodup ∧
      ∀ symbol, symbol ∈ keys (countBySymbol trades) ↔ ∃ t ∈ trades, t.symbol = symbol := by
  induction trades using List.reverseRecOn with
  | nil => exact ⟨List.nodup_nil, by simp [countBySymbol, keys]⟩
  | append_singleton trades t ih =>
      have hfold : countBySymbol (trades ++ [t]) = set t.symbol
          ((get t.symbol (countBySymbol trades)).getD 0 + 1) (countBySymbol trades) := by
        rw [countBySymbol, List.foldl_append]
        rfl
      rw [hfold]
      refine ⟨nodup_keys_set ih.1, ?_⟩
      intro symbol
      rw [mem_keys_set, ih.2 symbol]
      constructor
      · rintro (rfl | ⟨s, hs, hsymbol⟩)
        · exact ⟨t, List.mem_append_right _ (List.mem_singleton_self t), rfl⟩
        · exact ⟨s, List.mem_append_left _ hs, hsymbol⟩
      · rintro ⟨s, hs, hsymbol⟩
        rcases List.mem_append.mp hs with hs | hs
        · exact .inr ⟨s, hs, hsymbol⟩
        · rw [List.mem_singleton.mp hs] at hsymbol
          exact .inl hsymbol.symm

/-- The profits by symbol add up to the profits of the round trips. -/
theorem sum_perSymbol (trades : List BacktestTrade) :
    ((computePerSymbol (pairTrades trades).closed trades).map (·.pnlQuote)).sum =
      ((pairTrades trades).closed.map (·.pnl)).sum := by
  obtain ⟨hnodup, hmem⟩ := keys_countBySymbol trades
  have hsort : (tradedSymbols trades).Perm (keys (countBySymbol trades)) :=
    List.perm_insertionSort _ _
  have hcover : ∀ closed ∈ (pairTrades trades).closed,
      closed.symbol ∈ (tradedSymbols trades).toFinset := by
    intro closed hclosed
    rw [List.mem_toFinset, hsort.mem_iff, hmem]
    exact pairTrades_closed_symbol hclosed
  rw [← sum_by_key ClosedTrade.symbol ClosedTrade.pnl hcover,
    List.sum_toFinset _ (hsort.nodup_iff.mpr hnodup),
    computePerSymbol, List.map_map]
  refine congrArg List.sum (List.map_congr_left ?_)
  intro symbol _
  exact get_pnlBySymbol _ symbol

end Trades

/-! ### The report -/

structure BacktestReport where
  startingBalance : ℚ
  finalBalance : ℚ
  trades : List BacktestTrade
  roundTrips : List ClosedTrade
  perSymbol : List BacktestPerSymbol

/-- The quantity the ledger shows as held; nothing where it has no position. -/
def heldOf (prior : Option PositionView) : ℚ :=
  match (prior.bind (·.heldQuantity)).bind DecimalString.toDecimal with
  | some (.num quantity) => quantity
  | _ => 0

theorem Holds.heldOf_eq {prior : Option PositionView} {quantity : ℚ} (h : Holds prior quantity) :
    heldOf prior = quantity := by
  rcases h with ⟨rfl, rfl⟩ | ⟨average, rfl, -⟩
  · rfl
  · rfl

namespace Run

variable {S : Type} {opts : RunBacktestOptions S} {run run' : Run S} {tick : MarketTick}
  {quote : String} {initial : ℚ} {stream : List MarketTick}

def report (run : Run S) : BacktestReport :=
  let start := run.startingBalance.getD 0
  let pairing := pairTrades run.executor.trades
  { startingBalance := start
    finalBalance := (run.equityCurve.getLast?.map (·.equity)).getD start
    trades := run.executor.trades
    roundTrips := pairing.closed
    perSymbol := computePerSymbol pairing.closed run.executor.trades }

/-- The last candle of the stream is past the warm-up of its symbol. -/
def EndsTraded (opts : RunBacktestOptions S) (stream : List MarketTick) : Prop :=
  ∃ earlier tick, stream = earlier ++ [tick] ∧
    opts.startupCandleCount < (stream.filter (·.symbol = tick.symbol)).length

/-- The run was opened at the initial amount, or nothing has happened yet. -/
def Opened (initial : ℚ) (run : Run S) : Prop :=
  (run.startingBalance = none ∧ run.equityCurve = [] ∧ ∀ symbol, run.Untouched symbol) ∨
    run.startingBalance = some initial

theorem trades_eq_nil (h : ∀ symbol, run.Untouched symbol) : run.executor.trades = [] := by
  refine List.eq_nil_iff_forall_not_mem.mpr ?_
  intro t ht
  exact (h t.symbol).account.trades t ht rfl

theorem AllKept.of_onlyMarket {symbol : String}
    (h : AllKept opts.exchange quote initial run.executor)
    (honly : OnlyMarket symbol run run') :
    AllKept opts.exchange quote initial run'.executor := by
  obtain ⟨market, hexecutor, -⟩ := honly.executor
  intro asset
  rw [hexecutor]
  exact (h asset).congr rfl rfl rfl rfl

theorem Opened.replay (h : Opened initial run)
    (hkept : AllKept opts.exchange quote initial run.executor)
    (hquotes : opts.exchange.QuotesIn quote) (hquote : opts.quoteAsset = quote)
    (hreplay : run.replay opts tick = some run') : Opened initial run' := by
  rcases h with ⟨hstart, -, huntouched⟩ | hstart
  · obtain ⟨moved, honly, hmarked⟩ := (huntouched tick.symbol).replay_startingBalance hstart hreplay
    have hnone : moved.executor.trades = [] :=
      trades_eq_nil fun symbol => (huntouched symbol).of_onlyMarket honly
    have hequity := (AllKept.of_onlyMarket hkept honly).equity_eq hquotes
    rw [hnone] at hequity
    refine .inr ?_
    rw [hmarked, hquote, hequity]
    simp [baseMoves]
  · obtain ⟨barred, closeBars, hbars, hclose⟩ := replay_parts hreplay
    obtain ⟨ctx, moved, -, hclosed⟩ := closeCandle_parts hclose
    have hsome : barred.startingBalance = some initial :=
      (replayBars_sameCurve hbars).startingBalance.trans hstart
    refine .inr ?_
    rw [hclosed.startingBalance, hsome, Option.getD_some]

/-- The last equity point is the equity now, or nothing has happened yet. -/
def Current (opts : RunBacktestOptions S) (run : Run S) : Prop :=
  (run.equityCurve = [] ∧ ∀ symbol, run.Untouched symbol) ∨
    run.equityCurve.getLast?.map (·.equity) = some (run.executor.equityInQuote opts.quoteAsset)

def Warm (opts : RunBacktestOptions S) (run : Run S) : Prop :=
  ∀ symbol, run.seenOf symbol ≤ opts.startupCandleCount → run.Untouched symbol

theorem replay_closed (hreplay : run.replay opts tick = some run') :
    run'.seen = set tick.symbol (run.seenOf tick.symbol + 1) run.seen ∧
      (opts.startupCandleCount < run.seenOf tick.symbol + 1 →
        run'.equityCurve.getLast?.map (·.equity) =
          some (run'.executor.equityInQuote opts.quoteAsset)) := by
  obtain ⟨barred, closeBars, hbars, hclose⟩ := replay_parts hreplay
  obtain ⟨ctx, moved, -, hclosed⟩ := closeCandle_parts hclose
  have hseen : barred.seen = run.seen := (replayBars_sameCurve hbars).seen
  have hcount : barred.seenOf tick.symbol = run.seenOf tick.symbol := by
    rw [seenOf, hseen, ← seenOf]
  refine ⟨by rw [hclosed.seen, hcount, hseen], ?_⟩
  intro htraded
  obtain ⟨point, hcurve, hequity⟩ := hclosed.traded (by rw [hcount]; exact htraded)
  rw [hcurve, List.getLast?_concat, Option.map_some, hequity]

theorem seenOf_replay (hreplay : run.replay opts tick = some run') (symbol : String) :
    run'.seenOf symbol = run.seenOf symbol + if tick.symbol = symbol then 1 else 0 := by
  rw [seenOf, (replay_closed hreplay).1]
  by_cases heq : tick.symbol = symbol
  · rw [if_pos heq, heq, get_set_self, Option.getD_some]
  · rw [if_neg heq, get_set_other (Ne.symm heq), ← seenOf, add_zero]

theorem equity_onlyMarket (hkept : AllKept opts.exchange quote initial run.executor)
    (hquotes : opts.exchange.QuotesIn quote) {symbol : String} (huntouched : run.Untouched symbol)
    (honly : OnlyMarket symbol run run') :
    run'.executor.equityInQuote quote = run.executor.equityInQuote quote := by
  rw [hkept.equity_eq hquotes, (AllKept.of_onlyMarket hkept honly).equity_eq hquotes]
  obtain ⟨market, hexecutor, hother⟩ := honly.executor
  have htrades : run'.executor.trades = run.executor.trades := by rw [hexecutor]
  rw [htrades]
  congr 1
  refine Finset.sum_congr rfl ?_
  intro name _
  by_cases heq : name = symbol
  · have hnone : run.executor.trades.filter (·.symbol = name) = [] := by
      rw [List.filter_eq_nil_iff, heq]
      intro t ht
      simpa using huntouched.account.trades t ht
    rw [baseMoves, hnone, List.map_nil, List.sum_nil, zero_mul, zero_mul]
  · rw [BacktestExecutor.lastPrice, BacktestExecutor.lastPrice, hexecutor, hother name heq]

/-- Where orders name the symbol of their tick, the last equity point stays current. -/
theorem current_replay (hown : opts.strategy.OwnOrders)
    (hkept : AllKept opts.exchange quote initial run.executor)
    (hquotes : opts.exchange.QuotesIn quote) (hquote : opts.quoteAsset = quote)
    (hcurrent : Current opts run) (hwarm : Warm opts run)
    (hreplay : run.replay opts tick = some run') : Current opts run' ∧ Warm opts run' := by
  by_cases htraded : opts.startupCandleCount < run.seenOf tick.symbol + 1
  · refine ⟨.inr ((replay_closed hreplay).2 htraded), ?_⟩
    intro symbol hseen
    rw [seenOf_replay hreplay] at hseen
    by_cases heq : tick.symbol = symbol
    · rw [if_pos heq, ← heq] at hseen
      exact absurd htraded (not_lt.mpr hseen)
    · rw [if_neg heq, add_zero] at hseen
      exact (keeps_untouched hown (Ne.symm heq)).replay (hwarm symbol hseen) hreplay
  · have hcount : run.seenOf tick.symbol + 1 ≤ opts.startupCandleCount := not_lt.mp htraded
    have huntouched := hwarm tick.symbol (Nat.le_of_succ_le hcount)
    obtain ⟨honly, hcurve⟩ := huntouched.replay_warmUp hcount hreplay
    refine ⟨?_, ?_⟩
    · rcases hcurrent with ⟨hnone, hall⟩ | hlast
      · exact .inl ⟨hcurve.trans hnone, fun symbol => (hall symbol).of_onlyMarket honly⟩
      · refine .inr ?_
        rw [hcurve, hlast, hquote, equity_onlyMarket hkept hquotes huntouched honly]
    · intro symbol hseen
      rw [seenOf_replay hreplay] at hseen
      exact (hwarm symbol (le_trans (Nat.le_add_right _ _) hseen)).of_onlyMarket honly

/-! ### The whole stream -/

variable {position : PositionStateAdapter S}

theorem allKept_start (hopening : opts.initialBalances = [(quote, initial)]) :
    AllKept opts.exchange quote initial (start opts).executor := by
  intro asset
  have hcreate := BacktestExecutor.Kept.create opts.exchange asset opts.initialBalances
  have hfree : (holding (BacktestExecutor.create opts.initialBalances).balances asset).free =
      opening quote initial asset := by
    rw [hopening, opening]
    by_cases heq : asset = quote
    · simp [BacktestExecutor.create, holding, heq]
    · simp [BacktestExecutor.create, holding, heq, get_set_other heq,
        InsertionMap.get]
  rw [hfree] at hcreate
  exact hcreate

theorem untouched_start (opts : RunBacktestOptions S) (symbol : String) :
    (start opts).Untouched symbol :=
  ⟨⟨List.forall_mem_nil _, List.forall_mem_nil _, List.forall_mem_nil _, List.forall_mem_nil _⟩,
    rfl⟩

theorem ledgered_start (opts : RunBacktestOptions S) (symbol : String) :
    (start opts).Ledgered symbol :=
  ⟨[], rfl, .inl ⟨rfl, rfl⟩⟩

theorem books_start (hopening : opts.initialBalances = [(quote, initial)]) :
    Books opts quote initial (start opts) where
  kept := allKept_start hopening
  ledgered := fun _ _ symbol => ledgered_start opts symbol

theorem books_replayAll (hcovers : opts.exchange.fillModel.Covers)
    (hquotes : opts.exchange.QuotesIn quote) (hquote : opts.quoteAsset = quote)
    (hopening : opts.initialBalances = [(quote, initial)])
    (hrun : replayAll opts stream = some run) :
      Books opts quote initial run ∧ Opened initial run := by
  refine foldlM_preserves (P := fun run => Books opts quote initial run ∧ Opened initial run)
    ?_ ?_ hrun
  · rintro before tick after - ⟨hbooks, hopened⟩ hreplay
    exact ⟨(keeps_books hcovers hquotes tick.symbol).replay hbooks hreplay,
      hopened.replay hbooks.kept hquotes hquote hreplay⟩
  · exact ⟨books_start hopening, .inl ⟨rfl, rfl, untouched_start opts⟩⟩

theorem allRead_replayAll (hposition : opts.strategy.position = some position)
    (hprompt : Prompt opts) (hrun : replayAll opts stream = some run) : run.AllRead := by
  refine foldlM_preserves ?_ ⟨rfl, rfl⟩ hrun
  intro before tick after _ hread hreplay
  exact (keeps_allRead hposition hprompt tick.symbol).replay hread hreplay

theorem current_replayAll (hown : opts.strategy.OwnOrders)
    (hcovers : opts.exchange.fillModel.Covers)
    (hquotes : opts.exchange.QuotesIn quote) (hquote : opts.quoteAsset = quote)
    (hopening : opts.initialBalances = [(quote, initial)])
    (hrun : replayAll opts stream = some run) : Current opts run := by
  have hall : Books opts quote initial run ∧ Current opts run ∧ Warm opts run := by
    refine foldlM_preserves
      (P := fun run => Books opts quote initial run ∧ Current opts run ∧ Warm opts run) ?_ ?_ hrun
    · rintro before tick after - ⟨hbooks, hcurrent, hwarm⟩ hreplay
      exact ⟨(keeps_books hcovers hquotes tick.symbol).replay hbooks hreplay,
        current_replay hown hbooks.kept hquotes hquote hcurrent hwarm hreplay⟩
    · exact ⟨books_start hopening, .inl ⟨rfl, untouched_start opts⟩,
        fun symbol _ => untouched_start opts symbol⟩
  exact hall.2.1

theorem seenOf_replayAll (hrun : replayAll opts stream = some run) (symbol : String) :
    run.seenOf symbol = (stream.filter (·.symbol = symbol)).length := by
  induction stream using List.reverseRecOn generalizing run with
  | nil =>
      cases hrun
      rfl
  | append_singleton earlier tick ih =>
      rw [replayAll, List.foldlM_append] at hrun
      obtain ⟨before, hbefore, hlast⟩ := Option.bind_eq_some_iff.mp hrun
      have hreplay : before.replay opts tick = some run := by simpa using hlast
      rw [seenOf_replay hreplay, ih hbefore, List.filter_append, List.length_append]
      by_cases heq : tick.symbol = symbol
      · simp [heq]
      · simp [heq]

theorem EndsTraded.current (h : EndsTraded opts stream) (hrun : replayAll opts stream = some run) :
    Current opts run := by
  obtain ⟨earlier, tick, rfl, hcount⟩ := h
  rw [replayAll, List.foldlM_append] at hrun
  obtain ⟨before, hbefore, hlast⟩ := Option.bind_eq_some_iff.mp hrun
  have hreplay : before.replay opts tick = some run := by simpa using hlast
  refine .inr ((replay_closed hreplay).2 ?_)
  rw [seenOf_replayAll hbefore]
  simpa [List.filter_append] using hcount

theorem report_gained (hopened : Opened initial run) (hcurrent : Current opts run)
    (hkept : AllKept opts.exchange quote initial run.executor)
    (hquotes : opts.exchange.QuotesIn quote) (hquote : opts.quoteAsset = quote) :
    run.report.finalBalance - run.report.startingBalance =
      run.executor.equityInQuote quote - initial := by
  have hflat : (∀ symbol, run.Untouched symbol) → run.executor.equityInQuote quote = initial := by
    intro huntouched
    rw [hkept.equity_eq hquotes, trades_eq_nil huntouched]
    simp [baseMoves]
  rcases hcurrent with ⟨hnone, huntouched⟩ | hlast
  · rw [hflat huntouched, report]
    simp [hnone]
  · rcases hopened with ⟨-, hnone, -⟩ | hstart
    · rw [hnone] at hlast
      cases hlast
    · rw [report]
      simp only [hlast, hstart, hquote, Option.getD_some]

/-- What the report says of the run: the equity gained is what the round trips realised plus what
is open above its cost, and the profits by symbol add up to what was realised. -/
structure AddsUp (opts : RunBacktestOptions S) (run : Run S) : Prop where
  gained : run.report.finalBalance - run.report.startingBalance =
    (run.report.roundTrips.map (·.pnl)).sum +
      ∑ name ∈ opts.exchange.names,
        ((pairTrades run.executor.trades).openQty name * run.executor.lastPrice name -
          (pairTrades run.executor.trades).openCost name)
  realised : (run.report.perSymbol.map (·.pnlQuote)).sum = (run.report.roundTrips.map (·.pnl)).sum

/-- The report adds up, and the open quantities of the pairing are those of the wallet and, with
an adapter, of the fills-only ledger. -/
theorem report_adds_up
    (hmodel : (∃ o, opts.exchange.fillModel = ohlcvFillModel o) ∨
      opts.exchange.fillModel = idealFillModel)
    (hquotes : opts.exchange.QuotesIn opts.quoteAsset)
    (hopening : opts.initialBalances = [(opts.quoteAsset, initial)])
    (hrun : replayAll opts stream = some run) :
    (opts.strategy.OwnOrders ∨ EndsTraded opts stream → AddsUp opts run) ∧
      (∀ info ∈ opts.exchange.symbolInfos, (pairTrades run.executor.trades).openQty info.symbol =
        (holding run.executor.balances info.baseAsset).total) ∧
      (∀ position, opts.strategy.position = some position → Prompt opts → ∀ symbol,
        heldOf (run.ledgerOf symbol) = (pairTrades run.executor.trades).openQty symbol) := by
  have hcovers : opts.exchange.fillModel.Covers := by
    rcases hmodel with ⟨o, ho⟩ | hideal
    · rw [ho]
      exact ohlcv_covers o
    · rw [hideal]
      exact ideal_covers
  obtain ⟨hbooks, hopened⟩ := books_replayAll hcovers hquotes rfl hopening hrun
  have hheld := hbooks.kept.sellsHeld hquotes
  have hqty := (pairTrades_standsFor hheld).qty
  refine ⟨?_, ?_, ?_⟩
  · intro hends
    have hcurrent : Current opts run := by
      rcases hends with hown | hends
      · exact current_replayAll hown hcovers hquotes rfl hopening hrun
      · exact hends.current hrun
    refine ⟨?_, sum_perSymbol run.executor.trades⟩
    rw [report_gained hopened hcurrent hbooks.kept hquotes rfl]
    exact hbooks.kept.equity_gained hquotes
  · intro info hinfo
    rw [hqty, hquotes.symbol info hinfo,
      hbooks.kept.total_base hquotes (hquotes.baseAsset info hinfo)]
  · intro position hposition hprompt symbol
    obtain ⟨read, hread, hholds⟩ := hbooks.ledgered position hposition symbol
    have hall := allRead_replayAll hposition hprompt hrun
    rw [drainedFills, hall.fills, List.filter_nil, List.append_nil] at hread
    rw [hholds.heldOf_eq, hqty, ← hread, builtBy_fillsOf]

/-! ### Runs on a few candles -/

/-- A state that is the position itself. -/
def positionState : PositionStateAdapter PositionView where
  readPosition := some
  applyFill := fun state fill => some ((nextPrior (some state) fill).getD ⟨none, none⟩)
  setHeldQuantity := fun state held => some { state with heldQuantity := held }
  setAvgEntryPrice := fun state price => some { state with avgEntryPrice := some price }

def marketOf (symbol : String) (side : OrderSide) (quantity : ℚ) : Decision :=
  .placeOrder { BacktestExecutor.orderIntent side with symbol }
    (BacktestExecutor.marketOrder quantity)

/-- Places the orders planned for the candle of the stream. -/
def planned (position : Option (PositionStateAdapter PositionView)) (plan : ℕ → List Decision) :
    Strategy PositionView where
  initialState := ⟨none, none⟩
  position
  tick := fun run args =>
    some ((get args.symbol run.states).getD ⟨none, none⟩, plan run.streamed.length)

/-- A run on a thousand of the quote. -/
def plannedOptions (strategy : Strategy PositionView) (infos : List SymbolInfo)
    (startupCandleCount : ℕ) : RunBacktestOptions PositionView where
  strategy
  exchange := ⟨ohlcvFillModel ⟨10, 10, 0, 0, none⟩, infos⟩
  initialBalances := [("USDT", 1000)]
  quoteAsset := "USDT"
  fromMs := 0
  benchmarkSymbol := none
  startupCandleCount
  windowCap := 5
  intraCandle := none

/-- The candle of a minute that trades between two prices. -/
def minuteOf (symbol : String) (openTimeMs : ℤ) (low high : ℚ) : MarketTick where
  symbol
  interval := .m1
  candle := (BacktestExecutor.minute openTimeMs low high).lastCandle
  detailCandles := none

/-- Buys two, and sells one of them a candle later. -/
def roundTrip : ℕ → List Decision
  | 1 => [marketOf "BTCUSDT" .buy 2]
  | 2 => [marketOf "BTCUSDT" .sell 1]
  | _ => []

def threeMinutes : List MarketTick :=
  [minuteOf "BTCUSDT" 0 90 100, minuteOf "BTCUSDT" 60000 90 110, minuteOf "BTCUSDT" 120000 90 120]

theorem quotesIn_btcusdt : Exchange.QuotesIn ⟨ohlcvFillModel ⟨10, 10, 0, 0, none⟩,
    [BacktestExecutor.btcusdt]⟩ "USDT" where
  quoteAsset := by simp [BacktestExecutor.btcusdt]
  symbol := by
    rw [List.forall_mem_singleton]
    decide
  baseAsset := by simp [BacktestExecutor.btcusdt]

theorem round_trip_adds_up :
    ∃ run, replayAll (plannedOptions (planned (some positionState) roundTrip)
        [BacktestExecutor.btcusdt] 0) threeMinutes = some run ∧
      run.executor.trades.length = 2 ∧ run.report.finalBalance ≠ run.report.startingBalance ∧
      AddsUp (plannedOptions (planned (some positionState) roundTrip)
        [BacktestExecutor.btcusdt] 0) run ∧
      heldOf (run.ledgerOf "BTCUSDT") = (pairTrades run.executor.trades).openQty "BTCUSDT" := by
  obtain ⟨run, hrun, hshape⟩ : ∃ run, replayAll (plannedOptions
      (planned (some positionState) roundTrip) [BacktestExecutor.btcusdt] 0) threeMinutes =
        some run ∧
      run.executor.trades.length = 2 ∧ run.report.finalBalance ≠ run.report.startingBalance := by
    decide +kernel
  have hadds := report_adds_up (.inl ⟨_, rfl⟩) quotesIn_btcusdt rfl hrun
  have hends : EndsTraded (plannedOptions (planned (some positionState) roundTrip)
      [BacktestExecutor.btcusdt] 0) threeMinutes :=
    ⟨threeMinutes.dropLast, minuteOf "BTCUSDT" 120000 90 120, rfl, by decide⟩
  exact ⟨run, hrun, hshape.1, hshape.2, hadds.1 (.inr hends),
    hadds.2.2 positionState rfl (.inl ⟨_, rfl⟩) "BTCUSDT"⟩

def ethusdt : SymbolInfo :=
  { BacktestExecutor.btcusdt with symbol := "ETHUSDT", baseAsset := "ETH" }

def usdtusdt : SymbolInfo :=
  { BacktestExecutor.btcusdt with symbol := "USDTUSDT", baseAsset := "USDT" }

/-- On its fourth candle buys another symbol than the one it is ticked for. -/
def crossBuy : ℕ → List Decision
  | 4 => [marketOf "ETHUSDT" .buy 2]
  | _ => []

def buysItself : ℕ → List Decision
  | 1 => [marketOf "USDTUSDT" .buy 1]
  | _ => []

/-- Without an adapter the ledger stays empty; an order filled on a warm-up candle after the last
tick is in no equity point; and a symbol whose base is its quote trades an asset for itself. -/
theorem accounts_apart :
    (∃ run, replayAll (plannedOptions (planned none roundTrip) [BacktestExecutor.btcusdt] 0)
        threeMinutes = some run ∧
      heldOf (run.ledgerOf "BTCUSDT") ≠ (pairTrades run.executor.trades).openQty "BTCUSDT") ∧
    (∃ run, replayAll (plannedOptions (planned (some positionState) crossBuy)
        [BacktestExecutor.btcusdt, ethusdt] 2)
        [minuteOf "ETHUSDT" 0 90 100, minuteOf "BTCUSDT" 0 90 100, minuteOf "BTCUSDT" 60000 90 100,
          minuteOf "BTCUSDT" 120000 90 100, minuteOf "ETHUSDT" 120000 90 120] = some run ∧
      run.report.finalBalance - run.report.startingBalance ≠
        (run.report.roundTrips.map (·.pnl)).sum +
          (["BTCUSDT", "ETHUSDT"].map fun name =>
            (pairTrades run.executor.trades).openQty name * run.executor.lastPrice name -
              (pairTrades run.executor.trades).openCost name).sum) ∧
    (∃ run, replayAll (plannedOptions (planned (some positionState) buysItself) [usdtusdt] 0)
        [minuteOf "USDTUSDT" 0 90 100, minuteOf "USDTUSDT" 60000 90 100] = some run ∧
      run.report.finalBalance - run.report.startingBalance ≠
        (run.report.roundTrips.map (·.pnl)).sum +
          (["USDTUSDT"].map fun name =>
            (pairTrades run.executor.trades).openQty name * run.executor.lastPrice name -
              (pairTrades run.executor.trades).openCost name).sum) := by
  refine ⟨?_, ?_, ?_⟩
  · decide +kernel
  · decide +kernel
  · decide +kernel

end Run

end TradingBot.Backtest
