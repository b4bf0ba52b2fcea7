import TradingBot.Backtest.Replay
import TradingBot.Backtest.Metrics

/-!
# The fills-only ledger

For a strategy with a position adapter the run folds every fill into a ledger
of its own. The ledger of a symbol stands for the fills read so far, and the
fills not read yet are the last of the symbol's trades; where everything has
been read, it holds exactly what the trades moved.
-/

namespace TradingBot.Backtest

open InsertionMap LabelledRun
open TradingBot.TrailingTrade (PositionView Reads resolveFill_buy_fresh resolveFill_buy_add
  resolveFill_sell reads_printed)

namespace DrainedFill

def signed (fill : DrainedFill) : ℚ :=
  match fill.side with
  | .buy => fill.qty
  | .sell => -fill.qty

end DrainedFill

/-- The quantity fills build up. -/
def builtBy (fills : List DrainedFill) : ℚ := (fills.map DrainedFill.signed).sum

/-- Fills in which no sell exceeds what came before it. -/
def FillsHeld (fills : List DrainedFill) : Prop :=
  ∀ earlier fill, earlier ++ [fill] <+: fills → 0 < fill.qty ∧
    (fill.side = .sell → fill.qty ≤ builtBy earlier)

def fillsOf (symbol : String) (trades : List BacktestTrade) : List DrainedFill :=
  (trades.filter (·.symbol = symbol)).map BacktestTrade.fill

/-- The position holds the quantity, and nothing is held as no position. -/
def Holds (prior : Option PositionView) (quantity : ℚ) : Prop :=
  (prior = none ∧ quantity = 0) ∨ ∃ average, prior =
    some ⟨some (.printed (.num average)), some (.printed (.num quantity))⟩ ∧ 0 < quantity

section Fold

variable {S : Type} {position : PositionStateAdapter S} {state : S} {prior : Option PositionView}
  {fill : DrainedFill} {earlier fills : List DrainedFill} {quantity : ℚ} {symbol : String}
  {trades : List BacktestTrade}

theorem builtBy_append_singleton : builtBy (earlier ++ [fill]) = builtBy earlier + fill.signed := by
  simp [builtBy]

theorem builtBy_fillsOf : builtBy (fillsOf symbol trades) = baseMoves symbol trades := by
  rw [builtBy, fillsOf, List.map_map, baseMoves]
  rfl

theorem adoptOne_holds (position : PositionStateAdapter S) (state : S) (h : Holds prior quantity)
    (hpos : 0 < fill.qty) (hsell : fill.side = .sell → fill.qty ≤ quantity) :
    ∃ state' prior', Run.adoptOne position (state, prior) fill = some (state', prior') ∧
      Holds prior' (quantity + fill.signed) := by
  obtain ⟨symbol, side, price, qty⟩ := fill
  cases side with
  | buy =>
      rcases h with ⟨rfl, rfl⟩ | ⟨average, rfl, hheld⟩
      · have hfold := @resolveFill_buy_fresh none price qty ⟨rfl, rfl⟩ none none
        refine ⟨_, _, by rw [Run.adoptOne, hfold]; rfl, .inr ⟨price, ?_, ?_⟩⟩
        · simp [Run.nextPrior, DrainedFill.signed]
        · simpa [DrainedFill.signed] using hpos
      · have hfold := @resolveFill_buy_add _ quantity price qty average
          (reads_printed average quantity) hheld hpos none none
        refine ⟨_, _, by rw [Run.adoptOne, hfold]; rfl, .inr ⟨_, rfl, ?_⟩⟩
        exact add_pos hheld hpos
  | sell =>
      have hle := hsell rfl
      rcases h with ⟨rfl, rfl⟩ | ⟨average, rfl, hheld⟩
      · exact absurd (hpos.trans_le hle) (lt_irrefl 0)
      have hfold := @resolveFill_sell _ quantity _ (reads_printed average quantity) price qty
      by_cases hleft : quantity - qty ≤ 0
      · rw [if_pos hleft] at hfold
        refine ⟨_, _, by rw [Run.adoptOne, hfold]; rfl, .inl ⟨rfl, ?_⟩⟩
        have hzero : quantity - qty = 0 := le_antisymm hleft (sub_nonneg.mpr hle)
        rw [DrainedFill.signed]
        linarith
      · rw [if_neg hleft] at hfold
        refine ⟨_, _, by rw [Run.adoptOne, hfold]; rfl, .inr ⟨average, ?_, ?_⟩⟩
        · simp [Run.nextPrior, DrainedFill.signed, sub_eq_add_neg]
        · rw [DrainedFill.signed]
          linarith

/-- Folding the fills that follow leaves what all of them build up. -/
theorem adoptAll_holds (h : Holds prior (builtBy earlier)) (hheld : FillsHeld (earlier ++ fills))
    {state' : S} {prior' : Option PositionView}
    (hfold : fills.foldlM (Run.adoptOne position) (state, prior) = some (state', prior')) :
    Holds prior' (builtBy (earlier ++ fills)) := by
  induction fills generalizing earlier state prior with
  | nil =>
      cases hfold
      rw [List.append_nil]
      exact h
  | cons fill rest ih =>
      have hsplit : earlier ++ fill :: rest = earlier ++ [fill] ++ rest := by simp
      obtain ⟨hpos, hsell⟩ := hheld earlier fill (hsplit ▸ List.prefix_append _ _)
      obtain ⟨next, nextPrior, hone, hholds⟩ := adoptOne_holds position state h hpos hsell
      rw [List.foldlM_cons, hone] at hfold
      rw [← builtBy_append_singleton] at hholds
      rw [hsplit] at hheld ⊢
      exact ih hholds hheld hfold

theorem FillsHeld.of_trades (h : SellsHeld trades) (symbol : String) :
    FillsHeld (fillsOf symbol trades) := by
  induction trades using List.reverseRecOn with
  | nil =>
      intro earlier fill hextends
      simp [fillsOf] at hextends
  | append_singleton trades t ih =>
      have hbefore := ih fun earlier s hs => h earlier s (hs.trans (List.prefix_append _ _))
      by_cases heq : t.symbol = symbol
      · have hfills : fillsOf symbol (trades ++ [t]) = fillsOf symbol trades ++ [t.fill] := by
          simp [fillsOf, heq]
        rw [hfills]
        intro earlier fill hextends
        rcases List.prefix_concat_iff.mp hextends with hlast | hextends
        · obtain ⟨hearlier, hfill⟩ := List.append_inj' hlast rfl
          obtain rfl : fill = t.fill := List.singleton_inj.mp hfill
          obtain ⟨hpos, hsell⟩ := h trades t List.prefix_rfl
          refine ⟨hpos, fun hside => ?_⟩
          rw [hearlier, builtBy_fillsOf, ← heq]
          exact hsell hside
        · exact hbefore earlier fill hextends
      · have hfills : fillsOf symbol (trades ++ [t]) = fillsOf symbol trades := by
          simp [fillsOf, heq]
        rw [hfills]
        exact hbefore

end Fold

/-! ### Runs -/

/-- Every symbol is quoted in one asset, differs from it in its base, and is named after both. -/
structure Exchange.QuotesIn (x : Exchange) (quote : String) : Prop where
  quoteAsset : ∀ info ∈ x.symbolInfos, info.quoteAsset = quote
  symbol : ∀ info ∈ x.symbolInfos, info.symbol = info.baseAsset ++ quote
  baseAsset : ∀ info ∈ x.symbolInfos, info.baseAsset ≠ quote

section Moves

variable {x : Exchange} {quote asset : String} {t : BacktestTrade} {trades : List BacktestTrade}

theorem append_right_cancel {a b : String} (h : a ++ quote = b ++ quote) : a = b := by
  simpa using h

theorem moved_base (hquotes : x.QuotesIn quote) (hbase : asset ≠ quote) {info : SymbolInfo}
    (hinfo : x.symbols t.symbol = some info) :
    t.moved x asset = if t.symbol = asset ++ quote then t.baseMove else 0 := by
  have hmem := Exchange.symbols_mem hinfo
  have hname : t.symbol = info.baseAsset ++ quote :=
    (Exchange.symbols_name hinfo).symm.trans (hquotes.symbol info hmem)
  have hother : info.quoteAsset ≠ asset := by
    rw [hquotes.quoteAsset info hmem]
    exact hbase.symm
  rw [BacktestTrade.moved, hinfo]
  dsimp only
  rw [if_neg hother, add_zero, hname]
  by_cases heq : info.baseAsset = asset
  · rw [if_pos heq, if_pos (by rw [heq])]
  · rw [if_neg heq, if_neg fun h => heq (append_right_cancel h)]

theorem moved_quote (hquotes : x.QuotesIn quote) {info : SymbolInfo}
    (hinfo : x.symbols t.symbol = some info) : t.moved x quote = t.quoteMove := by
  have hmem := Exchange.symbols_mem hinfo
  rw [BacktestTrade.moved, hinfo]
  dsimp only
  rw [if_neg (hquotes.baseAsset info hmem), if_pos (hquotes.quoteAsset info hmem), zero_add]

def Known (x : Exchange) (trades : List BacktestTrade) : Prop :=
  ∀ t ∈ trades, ∃ info, x.symbols t.symbol = some info

theorem sum_moved_base (hquotes : x.QuotesIn quote) (hbase : asset ≠ quote)
    (hknown : Known x trades) :
    (trades.map (BacktestTrade.moved x asset)).sum = baseMoves (asset ++ quote) trades := by
  induction trades with
  | nil => rfl
  | cons t rest ih =>
      obtain ⟨info, hinfo⟩ := hknown t List.mem_cons_self
      have hrest := ih fun s hs => hknown s (List.mem_cons_of_mem t hs)
      rw [List.map_cons, List.sum_cons, hrest, moved_base hquotes hbase hinfo]
      by_cases heq : t.symbol = asset ++ quote
      · simp [baseMoves, heq]
      · simp [baseMoves, heq]

theorem sum_moved_quote (hquotes : x.QuotesIn quote) (hknown : Known x trades) :
    (trades.map (BacktestTrade.moved x quote)).sum = (trades.map BacktestTrade.quoteMove).sum := by
  refine congrArg List.sum (List.map_congr_left ?_)
  intro t ht
  obtain ⟨info, hinfo⟩ := hknown t ht
  exact moved_quote hquotes hinfo

theorem pays_base (hquotes : x.QuotesIn quote) (hbase : asset ≠ quote) : x.Pays asset := by
  intro input outcome _ _ hinfo hquote
  rw [hquotes.quoteAsset _ hinfo] at hquote
  exact absurd hquote.symm hbase

variable {ex : BacktestExecutor}

/-- The opening amount of an asset where only the quote is held. -/
def opening (quote : String) (initial : ℚ) (asset : String) : ℚ :=
  if asset = quote then initial else 0

/-- The accounts of all assets, where only the quote was held at the start. -/
def AllKept (x : Exchange) (quote : String) (initial : ℚ) (ex : BacktestExecutor) : Prop :=
  ∀ asset, BacktestExecutor.Kept x asset (opening quote initial asset) ex

variable {initial : ℚ}

theorem AllKept.known (h : AllKept x quote initial ex) : Known x ex.trades :=
  fun t ht => ((h quote).sound.recorded t ht).2

/-- The trades of sound accounts never oversell. -/
theorem AllKept.sellsHeld (h : AllKept x quote initial ex) (hquotes : x.QuotesIn quote) :
    SellsHeld ex.trades := by
  intro earlier t hextends
  have hmem : t ∈ ex.trades :=
    List.IsPrefix.subset hextends (List.mem_append_right _ (List.mem_singleton_self t))
  obtain ⟨info, hinfo⟩ := h.known t hmem
  have hinfos := Exchange.symbols_mem hinfo
  have hbase := hquotes.baseAsset info hinfos
  have hsound := (h info.baseAsset).sound
  rw [opening, if_neg hbase] at hsound
  refine ⟨(hsound.recorded t hmem).1, ?_⟩
  intro hside
  have hrunning := hsound.running (pays_base hquotes hbase) le_rfl _ hextends
  have hknown : Known x (earlier ++ [t]) := fun s hs => h.known s (List.IsPrefix.subset hextends hs)
  have hname : t.symbol = info.baseAsset ++ quote :=
    (Exchange.symbols_name hinfo).symm.trans (hquotes.symbol info hinfos)
  rw [sum_moved_base hquotes hbase hknown, ← hname, baseMoves_append_singleton, if_pos rfl,
    BacktestTrade.baseMove, hside] at hrunning
  linarith

end Moves

namespace Run

variable {S : Type} {opts : RunBacktestOptions S} {run run' : Run S} {symbol other quote : String}
  {initial : ℚ} {position : PositionStateAdapter S} {ex : BacktestExecutor}

/-- The ledger of the symbol stands for the fills read, and the unread ones are the last. -/
def Ledgered (run : Run S) (symbol : String) : Prop :=
  ∃ read, fillsOf symbol run.executor.trades = read ++ drainedFills symbol run.executor ∧
    Holds (run.ledgerOf symbol) (builtBy read)

theorem Ledgered.congr (h : run.Ledgered symbol) (hexecutor : run'.executor = run.executor)
    (hledger : run'.positionLedger = run.positionLedger) : run'.Ledgered symbol := by
  rw [Ledgered, hexecutor, ledgerOf, hledger]
  exact h

/-- New trades are unread fills. -/
theorem Ledgered.of_extends (h : run.Ledgered symbol)
    (hextends : BacktestExecutor.Extends other run.executor run'.executor)
    (hledger : run'.ledgerOf symbol = run.ledgerOf symbol) : run'.Ledgered symbol := by
  obtain ⟨read, hread, hholds⟩ := h
  obtain ⟨new, hnew, htrades, hpending⟩ := hextends.trades
  refine ⟨read, ?_, hledger ▸ hholds⟩
  rw [drainedFills, htrades, hpending, List.filter_append, fillsOf, List.filter_append,
    List.map_append, ← fillsOf, hread, List.append_assoc, ← drainedFills]
  congr 2
  rw [List.filter_map]
  rfl

/-- Adopting reads the symbol's fills into its ledger. -/
theorem Ledgered.of_adopted (h : run.Ledgered other)
    (hadopted : Adopted opts position symbol run run')
    (hheld : SellsHeld run.executor.trades) : run'.Ledgered other := by
  obtain ⟨read, hread, hholds⟩ := h
  by_cases heq : other = symbol
  · subst heq
    obtain ⟨state, hfold⟩ := hadopted.folded
    have hnone : drainedFills other run'.executor = [] := by
      rw [drainedFills, hadopted.drained.pendingFills, List.filter_filter]
      simp
    refine ⟨fillsOf other run.executor.trades, ?_, ?_⟩
    · rw [hadopted.drained.trades, hnone, List.append_nil]
    · rw [hread]
      refine adoptAll_holds hholds ?_ hfold
      rw [← hread]
      exact FillsHeld.of_trades hheld other
  · refine ⟨read, ?_, ?_⟩
    · have hsame : drainedFills other run'.executor = drainedFills other run.executor := by
        rw [drainedFills, hadopted.drained.pendingFills, List.filter_filter, drainedFills]
        refine List.filter_congr ?_
        intro fill _
        by_cases hfill : fill.symbol = other
        · simp [hfill, heq]
        · simp [hfill]
      rw [hadopted.drained.trades, hsame, hread]
    · rw [hadopted.ledger other heq]
      exact hholds

/-- The accounts are kept, and every ledger stands for its fills. -/
structure Books (opts : RunBacktestOptions S) (quote : String) (initial : ℚ) (run : Run S) :
    Prop where
  kept : AllKept opts.exchange quote initial run.executor
  ledgered : ∀ position, opts.strategy.position = some position → ∀ symbol, run.Ledgered symbol

theorem Books.adoptFills (h : Books opts quote initial run)
    (hquotes : opts.exchange.QuotesIn quote)
    (hadopt : run.adoptFills opts symbol = some run') : Books opts quote initial run' where
  kept := fun asset => kept_adoptFills (h.kept asset) hadopt
  ledgered := by
    intro position hposition other
    exact (h.ledgered position hposition other).of_adopted (adoptFills_adopted hposition hadopt)
      (h.kept.sellsHeld hquotes)

theorem keeps_books (hcovers : opts.exchange.fillModel.Covers)
    (hquotes : opts.exchange.QuotesIn quote) (symbol : String) :
    Keeps opts symbol (Books opts quote initial) := by
  refine ⟨?_, ?_, ?_⟩
  · intro run run' ctx hbooks hadvance
    obtain ⟨ex, hex, hadopt⟩ := advance_parts hadvance
    refine Books.adoptFills ⟨?_, ?_⟩ hquotes hadopt
    · exact fun asset => (hbooks.kept asset).setMarketContext hcovers hex
    · intro position hposition other
      exact (hbooks.ledgered position hposition other).of_extends
        (BacktestExecutor.setMarketContext_extends hex).1 rfl
  · intro run run' args _ hbooks htick
    obtain ⟨ticked, nextState, decisions, hticked, hadopt⟩ := runTick_parts htick
    refine Books.adoptFills ⟨?_, ?_⟩ hquotes hadopt
    · intro asset
      exact hticked.preserves (fun _ _ _ _ _ hkept hcall => hkept.apply hcovers hcall)
        (hbooks.kept asset)
    · intro position hposition other
      -- the ledger is read off the run before the tick; each decision adds unread fills to it
      have hledgered : Ledgered { run with executor := ticked.executor } other := by
        refine @Ticked.preserves S opts run args ticked nextState decisions hticked
          (fun ex => Ledgered { run with executor := ex } other) ?_
          (hbooks.ledgered position hposition other)
        intro ex decision ex' result _ hbefore hcall
        obtain ⟨touched, hextends⟩ := BacktestExecutor.exists_apply_extends hcall
        exact hbefore.of_extends hextends rfl
      exact hledgered.congr rfl hticked.positionLedger
  · intro run run' hnoted hbooks
    refine ⟨?_, ?_⟩
    · rw [hnoted.executor]
      exact hbooks.kept
    · intro position hposition other
      exact (hbooks.ledgered position hposition other).congr hnoted.executor hnoted.positionLedger

end Run

end TradingBot.Backtest
