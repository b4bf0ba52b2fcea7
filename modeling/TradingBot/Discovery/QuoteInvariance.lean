import TradingBot.Discovery.Redenomination
import TradingBot.Discovery.Run

/-!
# A cycle has no quote asset

Where a quote asset did not move against another, a cycle over the market stated
in the one resolves to the coins it resolves to in the other: the stages read
ratios, ranks and strengths. From one step of a replay this goes over to the
whole, which makes the same trades and earns the same.
-/

namespace TradingBot.Discovery

open Decimal

/-! ### Candles -/

section Candles

variable {env : Environment} {r : Redenomination} {cfg : DiscoveryConfig}

theorem volumeSma_candle (klines : List DiscoveryCandle) (period : ℕ) :
    volumeSma (klines.map r.candle) period = volumeSma klines period := by
  unfold volumeSma
  dsimp only
  rw [List.length_map, ← List.map_drop, List.foldl_map]
  rfl

theorem trendConfirmed_candle (henv : env.UnitFree) (klines : List DiscoveryCandle) :
    trendConfirmed env (klines.map r.candle) (r.config cfg) = trendConfirmed env klines cfg := by
  unfold trendConfirmed
  rw [List.getLast?_map]
  cases klines.getLast? with
  | none => rfl
  | some last =>
      have hsettings : (r.config cfg).trendConfirm = cfg.trendConfirm := rfl
      dsimp only [Option.map_some]
      rw [hsettings, henv.adx, henv.ema, volumeSma_candle]
      cases env.adx klines cfg.trendConfirm.adxPeriod with
      | none => rfl
      | some adxVal =>
          cases env.ema klines cfg.trendConfirm.emaPeriod with
          | none => rfl
          | some emaVal =>
              cases volumeSma klines cfg.trendConfirm.volSmaPeriod with
              | none => rfl
              | some volAvg =>
                  show (adxVal.gte cfg.trendConfirm.adxMin &&
                    (scale r.rate last.close).gt (scale r.rate emaVal) &&
                    last.volume.gt (volAvg.mul cfg.trendConfirm.volMultiple)) = _
                  rw [gt_scale r.rate_pos]

theorem oldEnough_candle (klines : List DiscoveryCandle) (nowMs : ℤ) :
    oldEnough (klines.map r.candle) (r.config cfg) nowMs = oldEnough klines cfg nowMs := by
  unfold oldEnough
  rw [List.head?_map]
  cases klines.head? with
  | none => rfl
  | some oldest => rfl

theorem lastCandles_candle (window : List DiscoveryCandle) (lookback : ℕ) :
    lastCandles (window.map r.candle) lookback = (lastCandles window lookback).map r.candle := by
  unfold lastCandles
  rw [List.length_map]
  split
  · rfl
  · exact List.map_drop.symm

theorem returnPairs_candle (l : List (DiscoveryCandle × DiscoveryCandle)) :
    returnPairs (l.map (Prod.map r.candle r.candle)) = returnPairs l := by
  induction l with
  | nil => rfl
  | cons prev rest ih =>
      cases rest with
      | nil => rfl
      | cons next rest =>
          show (if next.1.closeTimeMs ≠ next.2.closeTimeMs then none
            else (returnPairs ((next :: rest).map (Prod.map r.candle r.candle))).map fun later =>
              if (scale r.rate prev.1.close).eq (num 0) ||
                (scale r.rate prev.2.close).eq (num 0) then
                later
              else
                (((scale r.rate next.1.close).div (scale r.rate prev.1.close)).sub (num 1),
                  ((scale r.rate next.2.close).div (scale r.rate prev.2.close)).sub (num 1)) ::
                  later) = _
          rw [ih, eq_zero_scale r.rate_pos, eq_zero_scale r.rate_pos, div_scale_scale r.rate_pos,
            div_scale_scale r.rate_pos]
          rfl

theorem alignedReturns_candle (a b : List DiscoveryCandle) :
    alignedReturns (a.map r.candle) (b.map r.candle) = alignedReturns a b := by
  unfold alignedReturns
  rw [List.length_map, List.length_map, List.zip_map, returnPairs_candle]

variable {klines klines' : Klines}

theorem klines_getD (hklines : r.RestatesKlines klines klines') (symbol : String) :
    (klines' (r.rename symbol)).getD [] = ((klines symbol).getD []).map r.candle := by
  rw [hklines symbol]
  cases klines symbol <;> rfl

theorem maxPeerCorrelation_candle (hklines : r.RestatesKlines klines klines') (candidate : String)
    (peers : List String) (lookback : ℕ) :
    maxPeerCorrelation (r.rename candidate) (peers.map r.rename) klines' lookback =
      maxPeerCorrelation candidate peers klines lookback := by
  unfold maxPeerCorrelation
  simp only [klines_getD hklines, lastCandles_candle, List.length_map, List.foldl_map,
    alignedReturns_candle]

end Candles

/-! ### The resolution -/

namespace Redenomination

/-- The same resolution, stated in the new quote asset. -/
structure Restates (r : Redenomination) (i i' : ResolveInput) : Prop where
  shortlist : i'.shortlist = i.shortlist.map r.rename
  klines : r.RestatesKlines i.klinesBySymbol i'.klinesBySymbol
  currentAuto : i'.currentAuto = i.currentAuto.map r.current
  lastFlatten : ∀ symbol, i'.lastFlattenAtMsBySymbol (r.rename symbol) =
    i.lastFlattenAtMsBySymbol symbol
  cfg : i'.cfg = r.config i.cfg
  nowMs : i'.nowMs = i.nowMs
  pinned : i'.pinnedMembers = i.pinnedMembers.map r.rename
  allowAdds : i'.allowAdds = i.allowAdds
  keepable : i'.overlay.keepable = i.overlay.keepable.map r.rename
  unremovable : i'.overlay.unremovable = i.overlay.unremovable.map r.rename
  blocked : i'.overlay.blocked = i.overlay.blocked.map r.rename

end Redenomination

section Resolve

open ResolveInput

variable {env : Environment} {r : Redenomination} {i i' : ResolveInput}

theorem eligible_restated (henv : env.UnitFree) (h : r.Restates i i') :
    i'.eligible env = (i.eligible env).map r.rename := by
  unfold eligible
  rw [h.shortlist, List.filter_map]
  congr 1
  apply List.filter_congr
  intro symbol _
  show (oldEnough ((i'.klinesBySymbol (r.rename symbol)).getD []) i'.cfg i'.nowMs &&
    trendConfirmed env ((i'.klinesBySymbol (r.rename symbol)).getD []) i'.cfg) = _
  rw [klines_getD h.klines, h.cfg, h.nowMs, oldEnough_candle, trendConfirmed_candle henv]

theorem isEligible_restated (henv : env.UnitFree) (h : r.Restates i i') (c : CurrentAutoSymbol) :
    i'.isEligible env (r.current c) = i.isEligible env c := by
  unfold isEligible
  rw [eligible_restated henv h]
  exact contains_map r.rename_injective _ _

theorem currentSet_restated (h : r.Restates i i') : i'.currentSet = i.currentSet.map r.rename := by
  unfold currentSet
  rw [h.currentAuto, List.map_map, List.map_map]
  rfl

theorem filter_current {p p' : CurrentAutoSymbol → Bool} (hp : ∀ c, p' (r.current c) = p c)
    (l : List CurrentAutoSymbol) : (l.map r.current).filter p' = (l.filter p).map r.current := by
  rw [List.filter_map]
  exact congrArg _ (List.filter_congr fun c _ => hp c)

theorem map_symbol_current (l : List CurrentAutoSymbol) :
    (l.map r.current).map (·.symbol) = (l.map (·.symbol)).map r.rename := by
  rw [List.map_map, List.map_map]
  rfl

theorem kept_restated (henv : env.UnitFree) (h : r.Restates i i') :
    i'.kept env = (i.kept env).map r.current := by
  unfold kept
  rw [h.currentAuto, filter_current (isEligible_restated henv h)]

theorem faded_restated (henv : env.UnitFree) (h : r.Restates i i') :
    i'.faded env = (i.faded env).map r.current := by
  unfold faded
  rw [h.currentAuto]
  exact filter_current (fun c => congrArg not (isEligible_restated henv h c)) _

theorem reapable_restated (h : r.Restates i i') (c : CurrentAutoSymbol) :
    i'.reapable (r.current c) = i.reapable c := by
  unfold reapable
  rw [h.cfg, h.nowMs, h.unremovable]
  show (heldLongEnough c.addedAtMs (r.config i.cfg) i.nowMs &&
    !(i.overlay.unremovable.map r.rename).contains (r.rename c.symbol)) = _
  rw [contains_map r.rename_injective]
  rfl

theorem isKeepable_restated (h : r.Restates i i') (c : CurrentAutoSymbol) :
    i'.isKeepable (r.current c) = i.isKeepable c := by
  unfold isKeepable
  rw [h.keepable]
  exact contains_map r.rename_injective _ _

theorem protectedFaded_restated (henv : env.UnitFree) (h : r.Restates i i') :
    i'.protectedFaded env = (i.protectedFaded env).map r.current := by
  unfold protectedFaded
  rw [faded_restated henv h]
  exact filter_current (fun c => congrArg not (reapable_restated h c)) _

theorem yielding_restated (henv : env.UnitFree) (h : r.Restates i i') :
    i'.yielding env = (i.yielding env).map r.current := by
  unfold yielding
  rw [faded_restated henv h, filter_current (p := fun c => i.reapable c && i.isKeepable c)]
  · exact (List.map_insertionSort _ _ r.current _ fun a _ b _ => Iff.rfl).symm
  · intro c
    rw [reapable_restated h, isKeepable_restated h]

theorem reaped_restated (henv : env.UnitFree) (h : r.Restates i i') :
    i'.reaped env = (i.reaped env).map r.rename := by
  unfold reaped
  rw [faded_restated henv h, filter_current (p := fun c => i.reapable c && !i.isKeepable c),
    map_symbol_current]
  intro c
  rw [reapable_restated h, isKeepable_restated h]

theorem rawSlots_restated (henv : env.UnitFree) (h : r.Restates i i') :
    i'.rawSlots env = i.rawSlots env := by
  unfold rawSlots
  rw [h.allowAdds, h.cfg, kept_restated henv h, protectedFaded_restated henv h, List.length_map,
    List.length_map]
  rfl

theorem armedCorrelation_restated (h : r.Restates i i') :
    i'.armedCorrelation = i.armedCorrelation := by
  unfold armedCorrelation
  rw [h.cfg]
  rfl

theorem stayingPeers_restated (henv : env.UnitFree) (h : r.Restates i i') :
    i'.stayingPeers env = (i.stayingPeers env).map r.rename := by
  unfold stayingPeers
  rw [armedCorrelation_restated h]
  cases i.armedCorrelation with
  | none => rfl
  | some corr =>
      dsimp only
      rw [currentSet_restated h, reaped_restated henv h, List.filter_map]
      congr 1
      apply List.filter_congr
      intro symbol _
      exact congrArg not (contains_map r.rename_injective _ symbol)

theorem correlated_restated (henv : env.UnitFree) (h : r.Restates i i') (add : List String)
    (symbol : String) :
    i'.correlated env (add.map r.rename) (r.rename symbol) = i.correlated env add symbol := by
  unfold correlated
  rw [armedCorrelation_restated h]
  cases i.armedCorrelation with
  | none => rfl
  | some corr =>
      dsimp only
      rw [stayingPeers_restated henv h, ← List.map_append, maxPeerCorrelation_candle h.klines]

theorem considerAdd_restated (henv : env.UnitFree) (h : r.Restates i i') (add : List String)
    (symbol : String) :
    i'.considerAdd env (add.map r.rename) (r.rename symbol) =
      (i.considerAdd env add symbol).map r.rename := by
  have hslots : i'.availableSlots env = i.availableSlots env :=
    congrArg Int.toNat (rawSlots_restated henv h)
  have hcooldown : inCooldown (i'.lastFlattenAtMsBySymbol (r.rename symbol)) i'.cfg i'.nowMs =
      inCooldown (i.lastFlattenAtMsBySymbol symbol) i.cfg i.nowMs := by
    rw [h.lastFlatten, h.cfg, h.nowMs]
    rfl
  unfold considerAdd
  rw [currentSet_restated h, h.pinned, h.blocked, contains_map r.rename_injective,
    contains_map r.rename_injective, contains_map r.rename_injective, hslots, List.length_map,
    hcooldown, correlated_restated henv h]
  simp only [apply_ite (List.map r.rename), List.map_append, List.map_singleton]

theorem add_restated (henv : env.UnitFree) (h : r.Restates i i') :
    i'.add env = (i.add env).map r.rename := by
  have hfold : ∀ (symbols add : List String),
      (symbols.map r.rename).foldl (i'.considerAdd env) (add.map r.rename) =
        (symbols.foldl (i.considerAdd env) add).map r.rename := by
    intro symbols
    induction symbols with
    | nil => exact fun _ => rfl
    | cons symbol rest ih =>
        intro add
        rw [List.map_cons, List.foldl_cons, considerAdd_restated henv h, ih, List.foldl_cons]
  unfold ResolveInput.add
  rw [eligible_restated henv h]
  exact hfold _ []

theorem evicted_restated (henv : env.UnitFree) (h : r.Restates i i') :
    i'.evicted env = (i.evicted env).map r.current := by
  unfold evicted freeSlots
  rw [yielding_restated henv h, add_restated henv h, rawSlots_restated henv h, List.length_map,
    List.length_map, List.map_take]

/-- A resolution stated in another quote asset resolves to the same coins. -/
theorem resolveDiscovery_restated (henv : env.UnitFree) (h : r.Restates i i') :
    resolveDiscovery env i' = r.diff (resolveDiscovery env i) := by
  have hevicted : (i'.evicted env).map (·.symbol) =
      ((i.evicted env).map (·.symbol)).map r.rename := by
    rw [evicted_restated henv h, map_symbol_current]
  have hremove : i'.remove env = (i.remove env).map r.rename := by
    unfold remove
    rw [reaped_restated henv h, hevicted, List.map_append]
  have hdesired : i'.desired env = (i.desired env).map r.rename := by
    unfold desired
    rw [hevicted, eligible_restated henv h, currentSet_restated h, add_restated henv h,
      h.currentAuto, filter_current (p := fun c => !i.isEligible env c && i.isKeepable c),
      filter_current (p := fun c => !((i.evicted env).map (·.symbol)).contains c.symbol),
      map_symbol_current, List.map_append, List.filter_map]
    · congr 2
      apply List.filter_congr
      intro symbol _
      show ((i.currentSet.map r.rename).contains (r.rename symbol) ||
        ((i.add env).map r.rename).contains (r.rename symbol)) = _
      rw [contains_map r.rename_injective, contains_map r.rename_injective]
    · intro c
      exact congrArg not (contains_map r.rename_injective _ c.symbol)
    · intro c
      rw [isEligible_restated henv h, isKeepable_restated h]
  unfold resolveDiscovery Redenomination.diff
  rw [add_restated henv h, hremove, hdesired]

end Resolve

/-! ### Cycles -/

namespace Redenomination

variable (r : Redenomination)

/-- The same cycle, stated in the new quote asset. -/
structure RestatesInput (input input' : DiscoveryInput) : Prop where
  tickers : input'.tickers = input.tickers.map r.ticker
  klines : r.RestatesKlines input.klinesBySymbol input'.klinesBySymbol
  currentAuto : input'.currentAuto = input.currentAuto.map r.current
  lastFlatten : ∀ symbol, input'.lastFlattenAtMsBySymbol (r.rename symbol) =
    input.lastFlattenAtMsBySymbol symbol
  pinned : input'.pinnedMembers = input.pinnedMembers.map r.rename
  config : input'.config = r.config input.config
  nowMs : input'.nowMs = input.nowMs

def openAuto (pos : OpenAuto) : OpenAuto :=
  { pos with
    symbol := r.rename pos.symbol
    entryPrice := scale r.rate pos.entryPrice }

/-- The same step of a replay, stated in the new quote asset. -/
structure RestatesStep (step step' : DiscoveryBacktestStep) : Prop where
  tickers : step'.tickers = step.tickers.map r.ticker
  klines : r.RestatesKlines step.klinesBySymbol step'.klinesBySymbol
  nowMs : step'.nowMs = step.nowMs

/-- The same replay so far: its coins under their new names, and what it earned as it was. -/
structure RestatesState (s s' : BacktestState) : Prop where
  currentAuto : s'.currentAuto = s.currentAuto.map r.openAuto
  lastFlatten : ∀ symbol, s'.lastFlattenAtMsBySymbol (r.rename symbol) =
    s.lastFlattenAtMsBySymbol symbol
  grossReturn : s'.grossReturn = s.grossReturn
  totalCost : s'.totalCost = s.totalCost
  trades : s'.trades = s.trades

end Redenomination

section Cycles

variable {env : Environment} {r : Redenomination} {cfg : DiscoveryConfig} {fee : Decimal}

theorem resolving_restated {input input' : DiscoveryInput} (henv : env.UnitFree)
    (hstill : r.drift = 0) (hdistinct : DistinctGains input.tickers)
    (h : r.RestatesInput input input') (unremovable blocked : List String) :
    r.Restates (input.resolving env unremovable blocked)
      (input'.resolving env (unremovable.map r.rename) (blocked.map r.rename)) where
  shortlist := by
    show shortlistByTicker env input'.tickers input'.config = _
    rw [h.tickers, h.config, shortlistByTicker_ticker henv hstill hdistinct]
    rfl
  klines := h.klines
  currentAuto := h.currentAuto
  lastFlatten := h.lastFlatten
  cfg := h.config
  nowMs := h.nowMs
  pinned := h.pinned
  allowAdds := by
    show marketBreadthOk input'.tickers input'.config = _
    rw [h.tickers, h.config, marketBreadthOk_ticker hstill]
    rfl
  keepable := by
    show keepableSymbols env input'.tickers input'.config = _
    rw [h.tickers, h.config, keepableSymbols_ticker henv hstill hdistinct]
    rfl
  unremovable := rfl
  blocked := rfl

/-- A quote asset that did not move. -/
def still : Redenomination := halved 0 (by norm_num)

def candleAt (hour : ℕ) (close : ℚ) : DiscoveryCandle where
  openTimeMs := hour * 3600000
  closeTimeMs := (hour + 1) * 3600000 - 1
  high := num (close + 1)
  low := num (close - 1)
  close := num close
  volume := num 10

/-- A coin that rises for a day, and one that rises every other hour. -/
def risingKlines (steady : Bool) : List DiscoveryCandle :=
  (List.range 24).map fun hour =>
    candleAt hour (hour + 101 + if steady || hour % 2 = 0 then 0 else 10)

/-- Only one coin does not rise with the others. -/
def coinKlines : Klines := fun symbol => some (risingKlines (symbol ≠ "EUSDT"))

def halvedKlines : Klines := fun symbol =>
  some ((risingKlines (symbol ≠ "2EUSDT")).map still.candle)

theorem restatesKlines_coinKlines : still.RestatesKlines coinKlines halvedKlines := by
  intro symbol
  have hname : "2" ++ symbol = "2EUSDT" ↔ symbol = "EUSDT" :=
    (show "2" ++ symbol = "2" ++ "EUSDT" ↔ _ from String.append_right_inj "2")
  show some ((risingKlines ("2" ++ symbol ≠ "2EUSDT")).map still.candle) = _
  simp only [ne_eq, hname]
  rfl

/-- A cycle that holds a coin nobody trades any more. -/
def risingInput : DiscoveryInput where
  tickers := coinMarket "L" 124
  klinesBySymbol := coinKlines
  currentAuto := [⟨"LUSDT", 0⟩]
  lastFlattenAtMsBySymbol := fun _ => none
  pinnedMembers := []
  config := risingConfig
  nowMs := 86400000

def halvedInput : DiscoveryInput where
  tickers := (coinMarket "L" 124).map still.ticker
  klinesBySymbol := halvedKlines
  currentAuto := [⟨"2LUSDT", 0⟩]
  lastFlattenAtMsBySymbol := fun _ => none
  pinnedMembers := []
  config := still.config risingConfig
  nowMs := 86400000

/-- A cycle over a market stated in a quote asset that did not move against the old one adds,
removes and desires the same coins, whatever the caller cannot remove or will not take in. -/
theorem discovery_ignores_the_quote_asset (env : Environment) (henv : env.UnitFree)
    (r : Redenomination) (hstill : r.drift = 0) (input input' : DiscoveryInput)
    (hdistinct : DistinctGains input.tickers) (h : r.RestatesInput input input')
    (unremovable blocked : List String) :
    resolveDiscovery env
        (input'.resolving env (unremovable.map r.rename) (blocked.map r.rename)) =
      r.diff (resolveDiscovery env (input.resolving env unremovable blocked)) :=
  resolveDiscovery_restated henv (resolving_restated henv hstill hdistinct h unremovable blocked)

/-- Of the coins in the band one is barred and one moves like another; the held one is taken out. -/
theorem band_rotates_in_both :
    resolveDiscovery risingEnvironment (risingInput.resolving risingEnvironment [] []) =
        ⟨["CUSDT", "EUSDT"], ["LUSDT"], ["CUSDT", "EUSDT"]⟩ ∧
      resolveDiscovery risingEnvironment (halvedInput.resolving risingEnvironment [] []) =
        still.diff
          (resolveDiscovery risingEnvironment (risingInput.resolving risingEnvironment [] [])) :=
  ⟨by decide +kernel,
    discovery_ignores_the_quote_asset risingEnvironment unitFree_risingEnvironment still rfl
      risingInput halvedInput (distinctGains_coinMarket _ _)
      ⟨rfl, restatesKlines_coinKlines, rfl, fun _ => rfl, rfl, rfl, rfl⟩ [] []⟩

/-! ### Replays -/

theorem spreadFraction_ticker (t : DiscoveryTicker) :
    spreadFraction (r.ticker t) = spreadFraction t := by
  unfold spreadFraction
  rw [untradable_ticker, spread_ticker]

theorem tickerOf_ticker (tickers : List DiscoveryTicker) (symbol : String) :
    tickerOf (tickers.map r.ticker) (r.rename symbol) = (tickerOf tickers symbol).map r.ticker := by
  unfold tickerOf
  rw [List.filter_map, List.getLast?_map]
  congr 2
  apply List.filter_congr
  intro t _
  exact decide_eq_decide.mpr r.rename_injective.eq_iff

theorem openPosition_ticker {step step' : DiscoveryBacktestStep} (h : r.RestatesStep step step')
    (t : DiscoveryTicker) : openPosition step' (r.ticker t) = r.openAuto (openPosition step t) := by
  unfold openPosition
  rw [h.nowMs, spreadFraction_ticker]
  rfl

/-- A position closed in the new quote asset earned the same. -/
theorem closePosition_restated {step step' : DiscoveryBacktestStep} {s s' : BacktestState}
    (hstep : r.RestatesStep step step') (hs : r.RestatesState s s') (pos : OpenAuto) :
    r.RestatesState (closePosition fee step s pos)
    (closePosition fee step' s' (r.openAuto pos)) := by
  have htimes : ∀ symbol,
      Function.update s'.lastFlattenAtMsBySymbol (r.rename pos.symbol) (some step'.nowMs)
          (r.rename symbol) =
        Function.update s.lastFlattenAtMsBySymbol pos.symbol (some step.nowMs) symbol := by
    intro symbol
    by_cases hsymbol : symbol = pos.symbol
    · rw [hsymbol, Function.update_self, Function.update_self, hstep.nowMs]
    · rw [Function.update_of_ne (r.rename_injective.ne hsymbol), Function.update_of_ne hsymbol,
        hs.lastFlatten]
  have hticker : tickerOf step'.tickers (r.openAuto pos).symbol =
      (tickerOf step.tickers pos.symbol).map r.ticker := by
    rw [hstep.tickers]
    exact tickerOf_ticker _ _
  unfold closePosition
  dsimp only
  rw [hticker]
  cases tickerOf step.tickers pos.symbol with
  | none => exact ⟨hs.currentAuto, htimes, hs.grossReturn, hs.totalCost, hs.trades⟩
  | some t =>
      have hgain : ((r.ticker t).lastPrice.sub (r.openAuto pos).entryPrice).div
          (r.openAuto pos).entryPrice = (t.lastPrice.sub pos.entryPrice).div pos.entryPrice := by
        show ((scale r.rate t.lastPrice).sub (scale r.rate pos.entryPrice)).div
          (scale r.rate pos.entryPrice) = _
        rw [sub_scale r.rate_pos, div_scale_scale r.rate_pos]
      refine ⟨hs.currentAuto, htimes, ?_, ?_, ?_⟩
      · show s'.grossReturn.add (((r.ticker t).lastPrice.sub (r.openAuto pos).entryPrice).div
          (r.openAuto pos).entryPrice) = _
        rw [hgain, hs.grossReturn]
      · show ((s'.totalCost.add (fee.mul (num 2))).add pos.entrySpread).add
          (spreadFraction (r.ticker t)) = _
        rw [spreadFraction_ticker, hs.totalCost]
      · exact congrArg (· + 1) hs.trades

theorem applyDiff_restated {step step' : DiscoveryBacktestStep} {s s' : BacktestState}
    (hstep : r.RestatesStep step step') (hs : r.RestatesState s s') (diff : DiscoveryDiff) :
    r.RestatesState (applyDiff fee step diff s) (applyDiff fee step' (r.diff diff) s') := by
  have hmember : ∀ (symbols : List String) (pos : OpenAuto),
      (symbols.map r.rename).contains (r.openAuto pos).symbol = symbols.contains pos.symbol :=
    fun symbols pos => contains_map r.rename_injective symbols pos.symbol
  have hopened : s'.currentAuto ++ (step'.tickers.filter fun t =>
        (r.diff diff).add.contains t.symbol).map (openPosition step') =
      (s.currentAuto ++ (step.tickers.filter fun t =>
        diff.add.contains t.symbol).map (openPosition step)).map r.openAuto := by
    rw [hs.currentAuto, hstep.tickers, List.filter_map, List.map_map, List.map_append, List.map_map]
    congr 1
    have hkept : step.tickers.filter
          ((fun t => (r.diff diff).add.contains t.symbol) ∘ r.ticker) =
        step.tickers.filter fun t => diff.add.contains t.symbol :=
      List.filter_congr fun t _ => contains_map r.rename_injective diff.add t.symbol
    rw [hkept]
    exact List.map_congr_left fun t _ => openPosition_ticker hstep t
  have hfilter : ∀ (p p' : OpenAuto → Bool), (∀ pos, p' (r.openAuto pos) = p pos) →
      ∀ l : List OpenAuto, (l.map r.openAuto).filter p' = (l.filter p).map r.openAuto := by
    intro p p' hp l
    rw [List.filter_map]
    exact congrArg _ (List.filter_congr fun pos _ => hp pos)
  have hclosed : ∀ (l : List OpenAuto) (a a' : BacktestState), r.RestatesState a a' →
      r.RestatesState (l.foldl (closePosition fee step) a)
        ((l.map r.openAuto).foldl (closePosition fee step') a') := by
    intro l
    induction l with
    | nil => exact fun _ _ h => h
    | cons pos rest ih => exact fun a a' h => ih _ _ (closePosition_restated hstep h pos)
  unfold applyDiff
  dsimp only
  rw [hopened,
    hfilter (fun pos => diff.remove.contains pos.symbol)
      (fun pos => (r.diff diff).remove.contains pos.symbol) (hmember diff.remove),
    hfilter (fun pos => !diff.remove.contains pos.symbol)
      (fun pos => !(r.diff diff).remove.contains pos.symbol)
      (fun pos => congrArg not (hmember diff.remove pos))]
  have h := hclosed ((s.currentAuto ++ (step.tickers.filter fun t =>
    diff.add.contains t.symbol).map (openPosition step)).filter fun pos =>
      diff.remove.contains pos.symbol) s s' hs
  exact ⟨rfl, h.lastFlatten, h.grossReturn, h.totalCost, h.trades⟩

theorem backtestStep_restated {step step' : DiscoveryBacktestStep} {s s' : BacktestState}
    (henv : env.UnitFree) (hstill : r.drift = 0) (hdistinct : DistinctGains step.tickers)
    (hstep : r.RestatesStep step step') (hs : r.RestatesState s s') :
    r.RestatesState (backtestStep env cfg fee s step)
      (backtestStep env (r.config cfg) fee s' step') := by
  have hinput : r.RestatesInput (backtestInput cfg s step)
      (backtestInput (r.config cfg) s' step') := by
    refine ⟨hstep.tickers, hstep.klines, ?_, hs.lastFlatten, rfl, rfl, hstep.nowMs⟩
    show s'.currentAuto.map (·.toCurrentAutoSymbol) = _
    rw [hs.currentAuto, List.map_map]
    show _ = (s.currentAuto.map (·.toCurrentAutoSymbol)).map r.current
    rw [List.map_map]
    rfl
  have hdiff : runDiscovery env (backtestInput (r.config cfg) s' step') =
      r.diff (runDiscovery env (backtestInput cfg s step)) :=
    resolveDiscovery_restated henv (resolving_restated henv hstill hdistinct hinput [] [])
  unfold backtestStep
  rw [hdiff]
  exact applyDiff_restated hstep hs _

/-- A replay of cycles over a market stated in a quote asset that did not move against the old one
makes the same trades and earns the same. -/
theorem backtest_ignores_the_quote_asset (env : Environment) (henv : env.UnitFree)
    (r : Redenomination) (hstill : r.drift = 0) (steps steps' : List DiscoveryBacktestStep)
    (hsteps : List.Forall₂ r.RestatesStep steps steps')
    (hdistinct : ∀ step ∈ steps, DistinctGains step.tickers) (cfg : DiscoveryConfig)
    (fee : Decimal) :
    backtestDiscovery env steps' (r.config cfg) fee = backtestDiscovery env steps cfg fee := by
  have hrun : ∀ (s s' : BacktestState), r.RestatesState s s' →
      r.RestatesState (steps.foldl (backtestStep env cfg fee) s)
        (steps'.foldl (backtestStep env (r.config cfg) fee) s') := by
    induction hsteps with
    | nil => exact fun _ _ h => h
    | cons hstep _ ih =>
        intro s s' hs
        exact ih (fun step hmem => hdistinct step (List.mem_cons_of_mem _ hmem)) _ _
          (backtestStep_restated henv hstill (hdistinct _ List.mem_cons_self) hstep hs)
  have hfinal := hrun initialBacktest initialBacktest ⟨rfl, fun _ => rfl, rfl, rfl, rfl⟩
  unfold backtestDiscovery
  dsimp only
  rw [hfinal.grossReturn, hfinal.totalCost, hfinal.trades]

/-- Two coins are bought at 124; one is taken out at 130, where it is no longer traded, and the coin
that moved like it comes in. -/
def risingSteps : List DiscoveryBacktestStep :=
  [⟨coinMarket "" 124, coinKlines, 86400000⟩, ⟨coinMarket "C" 130, coinKlines, 86520000⟩]

def halvedSteps : List DiscoveryBacktestStep :=
  risingSteps.map fun step =>
    { step with tickers := step.tickers.map still.ticker, klinesBySymbol := halvedKlines }

theorem replay_earns_the_same :
    (backtestDiscovery risingEnvironment risingSteps risingConfig (num 0)).trades = 1 ∧
      backtestDiscovery risingEnvironment halvedSteps (still.config risingConfig) (num 0) =
        backtestDiscovery risingEnvironment risingSteps risingConfig (num 0) := by
  refine ⟨by decide +kernel, backtest_ignores_the_quote_asset risingEnvironment
    unitFree_risingEnvironment still rfl risingSteps halvedSteps ?_ ?_ risingConfig (num 0)⟩
  · exact .cons ⟨rfl, restatesKlines_coinKlines, rfl⟩
      (.cons ⟨rfl, restatesKlines_coinKlines, rfl⟩ .nil)
  · intro step hstep
    rcases List.mem_cons.mp hstep with rfl | hstep
    · exact distinctGains_coinMarket _ _
    · obtain rfl := List.mem_singleton.mp hstep
      exact distinctGains_coinMarket _ _

end Cycles

end TradingBot.Discovery
