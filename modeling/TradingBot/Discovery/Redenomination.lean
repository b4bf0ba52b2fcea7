import TradingBot.Discovery.Run
import TradingBot.Lib.DecimalScale
import Mathlib.Algebra.Order.Floor.Semiring

/-!
# Another quote asset

The same market quoted in another asset: its pairs have other names, its prices
another unit, and its gains are over what the new asset gained itself. The ranks
of the coins are the same in every quote asset, and so is the coin at the end of
the rank band. Where the new asset did not move against the old one, the stages
let the same tickers pass.
-/

namespace TradingBot.Discovery

open Decimal

/-- A gain in percent, over an asset that gained `drift` itself. -/
def rebase (drift : ℚ) (percent : Decimal) : Decimal :=
  (((percent.add (num 100)).div (num (100 * (1 + drift)))).sub (num 1)).mul (num 100)

/-- A quote asset in which the market is stated anew. -/
structure Redenomination where
  rename : String → String
  requote : String → String
  rate : ℚ
  drift : ℚ
  rename_injective : Function.Injective rename
  requote_injective : Function.Injective requote
  rate_pos : 0 < rate
  drift_gt : -1 < drift

namespace Redenomination

variable (r : Redenomination)

def ticker (t : DiscoveryTicker) : DiscoveryTicker :=
  { t with
    symbol := r.rename t.symbol
    quoteAsset := r.requote t.quoteAsset
    priceChangePercent := rebase r.drift t.priceChangePercent
    lastPrice := scale r.rate t.lastPrice
    bidPrice := scale r.rate t.bidPrice
    askPrice := scale r.rate t.askPrice }

def candle (c : DiscoveryCandle) : DiscoveryCandle :=
  { c with
    high := scale r.rate c.high
    low := scale r.rate c.low
    close := scale r.rate c.close }

def config (cfg : DiscoveryConfig) : DiscoveryConfig :=
  { cfg with
    quoteAsset := r.requote cfg.quoteAsset
    blacklist := cfg.blacklist.map r.rename }

def current (c : CurrentAutoSymbol) : CurrentAutoSymbol := { c with symbol := r.rename c.symbol }

def diff (d : DiscoveryDiff) : DiscoveryDiff where
  add := d.add.map r.rename
  remove := d.remove.map r.rename
  desired := d.desired.map r.rename

/-- The candles of each coin, under its new name and in the new unit. -/
def RestatesKlines (klines klines' : Klines) : Prop :=
  ∀ symbol, klines' (r.rename symbol) = (klines symbol).map (List.map r.candle)

/-- The ranks of the coins, under their new names. -/
structure RestatesRanks (ctx ctx' : RankContext) : Prop where
  rank : ∀ symbol, ctx'.rankBySymbol (r.rename symbol) = ctx.rankBySymbol symbol
  size : ctx'.universeSize = ctx.universeSize

end Redenomination

/-- No two tickers gained the same, so that no tie is broken by a name. -/
def DistinctGains (tickers : List DiscoveryTicker) : Prop :=
  ∀ a ∈ tickers, ∀ b ∈ tickers, a ≠ b → b.priceChangePercent.eq a.priceChangePercent = false

/-- What the trend indicators and the collation are documented to do: a strength has no unit, an
average has the unit of its prices, and a text compares equal with itself. -/
structure Environment.UnitFree (env : Environment) : Prop where
  adx : ∀ (r : Redenomination) klines period,
    env.adx (klines.map r.candle) period = env.adx klines period
  ema : ∀ (r : Redenomination) klines period,
    env.ema (klines.map r.candle) period = (env.ema klines period).map (scale r.rate)
  self : ∀ symbol, env.localeCompare symbol symbol = .eq

/-! ### Gains -/

section Rebase

variable {drift : ℚ}

theorem rebase_num (hdrift : -1 < drift) (p : ℚ) :
    rebase drift (num p) = num (((p + 100) / (100 * (1 + drift)) - 1) * 100) := by
  have hne : 100 * (1 + drift) ≠ 0 := by
    have : 0 < 1 + drift := by linarith
    positivity
  unfold rebase
  rw [add_num, div_num hne, sub_num, mul_num]

theorem rebase_inf (hdrift : -1 < drift) (s : Bool) : rebase drift (inf s) = inf s := by
  have hneg : decide (100 * (1 + drift) < 0) = false := decide_eq_false (by linarith)
  have hdiv : (inf s).div (num (100 * (1 + drift))) = inf s := by
    show inf (s != decide (100 * (1 + drift) < 0)) = inf s
    rw [hneg, Bool.bne_false]
  show (((inf s).div (num (100 * (1 + drift)))).sub (num 1)).mul (num 100) = inf s
  rw [hdiv]
  exact scale_inf (by norm_num) s

theorem rebase_nan : rebase drift nan = nan := rfl

theorem rebase_zero (x : Decimal) : rebase 0 x = x := by
  cases x with
  | nan => rfl
  | inf s => exact rebase_inf (by norm_num) s
  | num p =>
      rw [rebase_num (by norm_num)]
      congr 1
      ring

theorem lte_rebase (hdrift : -1 < drift) (x y : Decimal) :
    (rebase drift x).lte (rebase drift y) = x.lte y := by
  have hpos : 0 < 100 * (1 + drift) := by linarith
  cases x with
  | nan => rw [rebase_nan, nan_lte, nan_lte]
  | inf s =>
      rw [rebase_inf hdrift]
      cases y with
      | nan => rfl
      | inf t => rw [rebase_inf hdrift]
      | num q => rw [rebase_num hdrift]; rfl
  | num p =>
      rw [rebase_num hdrift]
      cases y with
      | nan => rw [rebase_nan, lte_nan, lte_nan]
      | inf t => rw [rebase_inf hdrift]; rfl
      | num q =>
          rw [rebase_num hdrift, lte_num, lte_num]
          refine decide_eq_decide.mpr ?_
          rw [mul_le_mul_iff_left₀ (by norm_num), sub_le_sub_iff_right,
            div_le_div_iff_of_pos_right hpos,
            add_le_add_iff_right]

theorem lt_rebase (hdrift : -1 < drift) (x y : Decimal) :
    (rebase drift x).lt (rebase drift y) = x.lt y := by
  rw [lt_eq_lte, lte_rebase hdrift, lte_rebase hdrift, ← lt_eq_lte]

theorem eq_rebase (hdrift : -1 < drift) (x y : Decimal) :
    (rebase drift x).eq (rebase drift y) = x.eq y := by
  unfold eq
  rw [lte_rebase hdrift, lte_rebase hdrift]

end Rebase

/-! ### Ranks -/

theorem contains_map {α β : Type} [BEq α] [BEq β] [LawfulBEq α] [LawfulBEq β] {f : α → β}
    (hf : Function.Injective f) (l : List α) (a : α) : (l.map f).contains (f a) = l.contains a := by
  rw [Bool.eq_iff_iff, List.contains_iff_mem, List.contains_iff_mem, List.mem_map_of_injective hf]

section Ranks

variable {env : Environment} {r : Redenomination} {cfg : DiscoveryConfig}
  {tickers : List DiscoveryTicker}

theorem matchesQuote_ticker (t : DiscoveryTicker) :
    matchesQuote (r.ticker t) (r.config cfg) = matchesQuote t cfg :=
  decide_eq_decide.mpr r.requote_injective.eq_iff

theorem rankUniverse_ticker :
    rankUniverse (tickers.map r.ticker) (r.config cfg) =
      (rankUniverse tickers cfg).map r.ticker := by
  unfold rankUniverse
  rw [List.filter_map]
  congr 1
  apply List.filter_congr
  intro t _
  show (matchesQuote (r.ticker t) (r.config cfg) && passesAssetPolicy t) = _
  rw [matchesQuote_ticker]

theorem byGainDesc_ticker (henv : env.UnitFree) (hdistinct : DistinctGains tickers)
    {a b : DiscoveryTicker} (ha : a ∈ tickers) (hb : b ∈ tickers) :
    byGainDesc env (r.ticker a) (r.ticker b) = byGainDesc env a b := by
  unfold byGainDesc
  show (if (rebase r.drift b.priceChangePercent).eq
    (rebase r.drift a.priceChangePercent) = true then
    decide (env.localeCompare (r.rename a.symbol) (r.rename b.symbol) ≠ .gt)
    else !(rebase r.drift b.priceChangePercent).gt (rebase r.drift a.priceChangePercent)) = _
  rw [eq_rebase r.drift_gt, gt, lt_rebase r.drift_gt]
  by_cases hab : a = b
  · subst hab
    rw [henv.self, henv.self]
    rfl
  · rw [hdistinct a ha b hb hab]
    rfl

theorem sortByGain_ticker (henv : env.UnitFree) (hdistinct : DistinctGains tickers) :
    sortByGain env (tickers.map r.ticker) = (sortByGain env tickers).map r.ticker := by
  unfold sortByGain
  refine (List.map_insertionSort _ _ r.ticker tickers ?_).symm
  intro a ha b hb
  rw [byGainDesc_ticker henv hdistinct ha hb]

theorem DistinctGains.among {part : List DiscoveryTicker} (h : DistinctGains tickers)
    (hsub : ∀ t ∈ part, t ∈ tickers) : DistinctGains part :=
  fun a ha b hb => h a (hsub a ha) b (hsub b hb)

/-- A ranking table, restated. -/
theorem foldl_ranks (entries : List (DiscoveryTicker × ℕ)) {ranks ranks' : String → Option ℕ}
    (hranks : ∀ symbol, ranks' (r.rename symbol) = ranks symbol) (symbol : String) :
    (entries.map (Prod.map r.ticker id)).foldl
        (fun (ranks : String → Option ℕ) entry =>
          Function.update ranks entry.1.symbol (some (entry.2 + 1))) ranks' (r.rename symbol) =
      entries.foldl
        (fun (ranks : String → Option ℕ) entry =>
          Function.update ranks entry.1.symbol (some (entry.2 + 1))) ranks symbol := by
  induction entries generalizing ranks ranks' with
  | nil => exact hranks symbol
  | cons entry rest ih =>
      refine ih fun other => ?_
      show Function.update ranks' (r.rename entry.1.symbol) (some (entry.2 + 1)) (r.rename other) =
        Function.update ranks entry.1.symbol (some (entry.2 + 1)) other
      by_cases hother : other = entry.1.symbol
      · rw [hother, Function.update_self, Function.update_self]
      · rw [Function.update_of_ne (r.rename_injective.ne hother), Function.update_of_ne hother,
          hranks other]

/-- A coin has the same rank in every quote asset. -/
theorem buildRankContext_ticker (henv : env.UnitFree) (hdistinct : DistinctGains tickers) :
    r.RestatesRanks (buildRankContext env tickers cfg)
      (buildRankContext env (tickers.map r.ticker) (r.config cfg)) := by
  have huniverse : DistinctGains (rankUniverse tickers cfg) :=
    hdistinct.among fun t ht => List.mem_of_mem_filter ht
  have hranked : sortByGain env (rankUniverse (tickers.map r.ticker) (r.config cfg)) =
      (sortByGain env (rankUniverse tickers cfg)).map r.ticker := by
    rw [rankUniverse_ticker, sortByGain_ticker henv huniverse]
  unfold buildRankContext
  refine ⟨fun symbol => ?_, ?_⟩
  · dsimp only
    rw [hranked, List.zipIdx_map]
    exact foldl_ranks _ (fun _ => rfl) symbol
  · dsimp only
    rw [hranked, List.length_map]

theorem foldl_zipIdx_rank (l : List DiscoveryTicker) (start : ℕ) (ranks : String → Option ℕ) :
    (∀ symbol ∉ l.map (·.symbol), (l.zipIdx start).foldl
        (fun (ranks : String → Option ℕ) entry =>
          Function.update ranks entry.1.symbol (some (entry.2 + 1))) ranks symbol = ranks symbol) ∧
      ((l.map (·.symbol)).Nodup → ∀ place t, l[place]? = some t → (l.zipIdx start).foldl
        (fun (ranks : String → Option ℕ) entry =>
          Function.update ranks entry.1.symbol (some (entry.2 + 1))) ranks t.symbol =
            some (start + place + 1)) := by
  induction l generalizing start ranks with
  | nil =>
      refine ⟨fun _ _ => rfl, fun _ place t ht => ?_⟩
      cases ht
  | cons first rest ih =>
      obtain ⟨hother, hplace⟩ := ih (start + 1)
        (Function.update ranks first.symbol (some (start + 1)))
      refine ⟨fun symbol hsymbol => ?_, fun hnodup place t ht => ?_⟩
      · rw [List.map_cons, List.mem_cons, not_or] at hsymbol
        rw [List.zipIdx_cons, List.foldl_cons, hother symbol hsymbol.2,
          Function.update_of_ne hsymbol.1]
      · rw [List.map_cons, List.nodup_cons] at hnodup
        rw [List.zipIdx_cons, List.foldl_cons]
        cases place with
        | zero =>
            obtain rfl := Option.some.inj ht
            rw [hother first.symbol hnodup.1, Function.update_self]
        | succ place =>
            rw [hplace hnodup.2 place t ht, Nat.add_right_comm start 1 place]
            rfl

end Ranks

/-! ### A rising coin -/

/-- The average that starts from the first close and moves by the same part of every gap. -/
def averagedCloses (period : ℕ) : List DiscoveryCandle → Option Decimal
  | [] => none
  | first :: rest => some (rest.foldl
      (fun average c => (c.close.mul (num (2 / (period + 1)))).add
        (average.mul (num (1 - 2 / (period + 1))))) first.close)

/-- The indicators as they read a window whose candles rise: its strength is full. -/
def risingEnvironment : Environment where
  adx := fun klines period => if klines.length < 2 * period then none else some (num 100)
  ema := fun klines period =>
    if klines.length < period then none else averagedCloses period klines
  localeCompare := compare

theorem averagedCloses_candle (r : Redenomination) (period : ℕ) (klines : List DiscoveryCandle) :
    averagedCloses period (klines.map r.candle) =
      (averagedCloses period klines).map (scale r.rate) := by
  cases klines with
  | nil => rfl
  | cons first rest =>
      have hfold : ∀ (l : List DiscoveryCandle) (average : Decimal),
          (l.map r.candle).foldl (fun average c => (c.close.mul (num (2 / (period + 1)))).add
              (average.mul (num (1 - 2 / (period + 1))))) (scale r.rate average) =
            scale r.rate (l.foldl (fun average c => (c.close.mul (num (2 / (period + 1)))).add
              (average.mul (num (1 - 2 / (period + 1))))) average) := by
        intro l
        induction l with
        | nil => exact fun _ => rfl
        | cons c rest ih =>
            intro average
            rw [List.map_cons, List.foldl_cons, List.foldl_cons, ← ih]
            congr 1
            show ((scale r.rate c.close).mul _).add ((scale r.rate average).mul _) = _
            rw [mul_scale r.rate_pos, mul_scale r.rate_pos, add_scale r.rate_pos]
      exact congrArg some (hfold rest first.close)

theorem unitFree_risingEnvironment : risingEnvironment.UnitFree where
  adx r klines period := by
    unfold risingEnvironment
    dsimp only
    rw [List.length_map]
  ema r klines period := by
    unfold risingEnvironment
    dsimp only
    rw [List.length_map, averagedCloses_candle]
    split <;> rfl
  self symbol := by
    show compare symbol symbol = .eq
    exact Std.ReflCmp.compare_self

/-- Twelve coins and what they gained. -/
def coins : List (String × ℕ) :=
  [("A", 12), ("B", 11), ("C", 10), ("D", 9), ("E", 8), ("F", 7), ("G", 6), ("H", 5), ("I", 4),
    ("J", 3), ("K", 2), ("L", 1)]

/-- The coins at a price, all but one of them traded. -/
def coinMarket (untraded : String) (lastPrice : ℚ) : List DiscoveryTicker :=
  coins.map fun coin =>
    { symbol := coin.1 ++ "USDT"
      baseAsset := coin.1
      quoteAsset := "USDT"
      isStablecoinOrFiat := false
      priceChangePercent := num coin.2
      pairVolumeUsd := if coin.1 = untraded then num 0 else num 10
      assetVolumeUsd := some (num 10)
      lastPrice := num lastPrice
      bidPrice := num 123
      askPrice := num 125 }

/-- The band of the second to the fifth of twelve coins, of which the second is barred. -/
def risingConfig : DiscoveryConfig where
  quoteAsset := "USDT"
  blacklist := ["BUSDT"]
  min24hPairVolumeUsd := num 1
  min24hAssetVolumeUsd := num 1
  maxSpreadRatio := num (1 / 10)
  changeMinPercent := num 0
  rankTopPercent := 40
  rankExcludeTopPercent := 10
  minAgeDays := 1
  maxAutoSymbols := 3
  minHoldMinutes := 1
  marketBreadthMinPercent := num 50
  trendConfirm := ⟨10, num 25, 20, 5, num (1 / 2)⟩
  correlation := some ⟨num (9 / 10), 4⟩

/-- A quote asset worth two of the old one, after a move of its own. -/
def halved (drift : ℚ) (hdrift : -1 < drift) : Redenomination where
  rename := ("2" ++ ·)
  requote := ("2" ++ ·)
  rate := 1 / 2
  drift
  rename_injective := fun _ _ h => String.append_right_inj _ |>.mp h
  requote_injective := fun _ _ h => String.append_right_inj _ |>.mp h
  rate_pos := by norm_num
  drift_gt := hdrift

theorem distinctGains_coinMarket (untraded : String) (lastPrice : ℚ) :
    DistinctGains (coinMarket untraded lastPrice) := by
  intro a ha b hb hab
  obtain ⟨c, hc, rfl⟩ := List.mem_map.mp ha
  obtain ⟨d, hd, rfl⟩ := List.mem_map.mp hb
  have hgains : ∀ c ∈ coins, ∀ d ∈ coins, c ≠ d → c.2 ≠ d.2 := by decide
  have hne := hgains c hc d hd fun h => hab (by rw [h])
  refine Bool.eq_false_iff.mpr fun heq => hne ?_
  simp only [Decimal.eq, lte_num, Bool.and_eq_true, decide_eq_true_eq, Nat.cast_le] at heq
  exact le_antisymm heq.2 heq.1

/-! ### The rank band -/

section Band

variable {cfg : DiscoveryConfig} {ctx : RankContext} {t : DiscoveryTicker}

/-- The last place of the band. -/
def coldestRank (cfg : DiscoveryConfig) (size : ℕ) : ℕ := ⌈(size * cfg.rankTopPercent : ℚ) / 100⌉₊

theorem coldestRank_bounds (htop : cfg.rankTopPercent ≤ 100) (hpos : 0 < cfg.rankTopPercent)
    {size : ℕ} (hsize : 0 < size) : 0 < coldestRank cfg size ∧ coldestRank cfg size ≤ size := by
  have hsize' : (0 : ℚ) < size := by exact_mod_cast hsize
  have hpos' : (0 : ℚ) < cfg.rankTopPercent := by exact_mod_cast hpos
  have htop' : (cfg.rankTopPercent : ℚ) ≤ 100 := by exact_mod_cast htop
  refine ⟨Nat.ceil_pos.mpr (by positivity), Nat.ceil_le.mpr ?_⟩
  rw [div_le_iff₀ (by norm_num)]
  exact mul_le_mul_of_nonneg_left htop' hsize'.le

/-- The coin at the last place of the band passes on its gain alone. -/
theorem withinChangeBand_coldest (hband : cfg.rankExcludeTopPercent < cfg.rankTopPercent)
    (hsize : 0 < ctx.universeSize)
    (hrank : ctx.rankBySymbol t.symbol = some (coldestRank cfg ctx.universeSize)) :
    withinChangeBand t cfg ctx = t.priceChangePercent.gte cfg.changeMinPercent := by
  have hsize' : (0 : ℚ) < ctx.universeSize := by exact_mod_cast hsize
  have hband' : (cfg.rankExcludeTopPercent : ℚ) < cfg.rankTopPercent := by exact_mod_cast hband
  have hceil : (coldestRank cfg ctx.universeSize : ℤ) =
      ⌈(ctx.universeSize * cfg.rankTopPercent : ℚ) / 100⌉ :=
    Int.natCast_ceil_eq_ceil (by positivity)
  have hcoldest : (ctx.universeSize * cfg.rankTopPercent : ℚ) / 100 ≤
      coldestRank cfg ctx.universeSize := Nat.le_ceil _
  have hhottest : (ctx.universeSize * cfg.rankExcludeTopPercent : ℚ) / 100 <
      coldestRank cfg ctx.universeSize := by
    refine lt_of_lt_of_le ?_ hcoldest
    rw [div_lt_div_iff_of_pos_right (by norm_num)]
    exact mul_lt_mul_of_pos_left hband' hsize'
  unfold withinChangeBand
  rw [hrank]
  cases hgain : t.priceChangePercent.gte cfg.changeMinPercent with
  | false => rfl
  | true =>
      simp only [Bool.not_true, Bool.false_eq_true, if_false]
      split
      · rfl
      · rw [mul_num, mul_num, div_num (by norm_num), div_num (by norm_num), ceil_num, ← hceil,
          gt_num, lte_num, decide_eq_true hhottest]
        simp

/-- Every coin has the same rank in every quote asset, however that asset moved itself, and some
coin is within the rank band in all of them: it passes wherever its gain clears the hurdle. -/
theorem rank_band_in_every_quote_asset (env : Environment) (henv : env.UnitFree)
    (tickers : List DiscoveryTicker) (cfg : DiscoveryConfig) (hdistinct : DistinctGains tickers)
    (hsymbols : ((rankUniverse tickers cfg).map (·.symbol)).Nodup)
    (hne : rankUniverse tickers cfg ≠ [])
    (hband : cfg.rankExcludeTopPercent < cfg.rankTopPercent) (htop : cfg.rankTopPercent ≤ 100) :
    (∀ (r : Redenomination) (symbol : String),
      (buildRankContext env (tickers.map r.ticker) (r.config cfg)).rankBySymbol (r.rename symbol) =
        (buildRankContext env tickers cfg).rankBySymbol symbol) ∧
    ∃ t ∈ rankUniverse tickers cfg, ∀ r : Redenomination,
      withinChangeBand (r.ticker t) (r.config cfg)
          (buildRankContext env (tickers.map r.ticker) (r.config cfg)) =
        (r.ticker t).priceChangePercent.gte cfg.changeMinPercent := by
  have hranks : ∀ r : Redenomination, r.RestatesRanks (buildRankContext env tickers cfg)
      (buildRankContext env (tickers.map r.ticker) (r.config cfg)) :=
    fun r => buildRankContext_ticker henv hdistinct
  refine ⟨fun r => (hranks r).rank, ?_⟩
  have hperm : (sortByGain env (rankUniverse tickers cfg)).Perm (rankUniverse tickers cfg) :=
    List.perm_insertionSort _ _
  have hsize : (buildRankContext env tickers cfg).universeSize =
      (rankUniverse tickers cfg).length :=
    hperm.length_eq
  have hpos : 0 < (buildRankContext env tickers cfg).universeSize := by
    rw [hsize]
    exact List.length_pos_iff.mpr hne
  obtain ⟨hfirst, hlast⟩ := coldestRank_bounds htop (by omega) hpos
  have hplace : coldestRank cfg (buildRankContext env tickers cfg).universeSize - 1 <
      (sortByGain env (rankUniverse tickers cfg)).length := by
    rw [hperm.length_eq, ← hsize]
    omega
  obtain ⟨t, ht⟩ : ∃ t, (sortByGain env (rankUniverse tickers cfg))[
      coldestRank cfg (buildRankContext env tickers cfg).universeSize - 1]? = some t :=
    ⟨_, List.getElem?_eq_getElem hplace⟩
  have hrank : (buildRankContext env tickers cfg).rankBySymbol t.symbol =
      some (coldestRank cfg (buildRankContext env tickers cfg).universeSize) := by
    have h := (foldl_zipIdx_rank (sortByGain env (rankUniverse tickers cfg)) 0 fun _ => none).2
      ((hperm.map _).nodup_iff.mpr hsymbols) _ t ht
    refine Eq.trans h ?_
    congr 1
    omega
  refine ⟨t, hperm.mem_iff.mp (List.mem_of_getElem? ht), fun r => ?_⟩
  have hsame : (buildRankContext env (tickers.map r.ticker) (r.config cfg)).rankBySymbol
      (r.ticker t).symbol = some (coldestRank (r.config cfg)
        (buildRankContext env (tickers.map r.ticker) (r.config cfg)).universeSize) := by
    rw [(hranks r).size]
    exact ((hranks r).rank t.symbol).trans hrank
  have hpos' : 0 < (buildRankContext env (tickers.map r.ticker) (r.config cfg)).universeSize := by
    rw [(hranks r).size]
    exact hpos
  exact withinChangeBand_coldest hband hpos' hsame

/-- The third coin stays third over a quote asset that gained ten percent,
and one coin is within the band in every quote asset. -/
theorem third_coin_within_the_band :
    (buildRankContext risingEnvironment
        ((coinMarket "" 124).map (halved (1 / 10) (by norm_num)).ticker)
        ((halved (1 / 10) (by norm_num)).config risingConfig)).rankBySymbol "2CUSDT" = some 3 ∧
      ∃ t ∈ rankUniverse (coinMarket "" 124) risingConfig, ∀ r : Redenomination,
        withinChangeBand (r.ticker t) (r.config risingConfig)
            (buildRankContext risingEnvironment ((coinMarket "" 124).map r.ticker)
              (r.config risingConfig)) =
          (r.ticker t).priceChangePercent.gte risingConfig.changeMinPercent := by
  obtain ⟨hranks, hband⟩ := rank_band_in_every_quote_asset risingEnvironment
    unitFree_risingEnvironment (coinMarket "" 124) risingConfig (distinctGains_coinMarket _ _)
    (by decide +kernel) (by decide +kernel) (by decide) (by decide)
  refine ⟨?_, hband⟩
  have hthird : (buildRankContext risingEnvironment (coinMarket "" 124)
      risingConfig).rankBySymbol "CUSDT" = some 3 := by decide +kernel
  exact (hranks _ "CUSDT").trans hthird

end Band

/-! ### The stages -/

section Stages

variable {env : Environment} {r : Redenomination} {cfg : DiscoveryConfig}
  {tickers : List DiscoveryTicker} {ctx ctx' : RankContext}

theorem ticker_gain (hstill : r.drift = 0) (t : DiscoveryTicker) :
    (r.ticker t).priceChangePercent = t.priceChangePercent := by
  show rebase r.drift t.priceChangePercent = t.priceChangePercent
  rw [hstill, rebase_zero]

theorem spread_ticker (t : DiscoveryTicker) :
    ((r.ticker t).askPrice.sub (r.ticker t).bidPrice).div
        (((r.ticker t).askPrice.add (r.ticker t).bidPrice).div (num 2)) =
      (t.askPrice.sub t.bidPrice).div ((t.askPrice.add t.bidPrice).div (num 2)) := by
  show ((scale r.rate t.askPrice).sub (scale r.rate t.bidPrice)).div
    (((scale r.rate t.askPrice).add (scale r.rate t.bidPrice)).div (num 2)) = _
  rw [sub_scale r.rate_pos, add_scale r.rate_pos, div_scale r.rate_pos _ two_ne_zero,
    div_scale_scale r.rate_pos]

/-- A book is crossed or empty in every unit. -/
theorem untradable_ticker (t : DiscoveryTicker) :
    ((r.ticker t).bidPrice.lte (num 0) || (r.ticker t).askPrice.lte (num 0) ||
        (r.ticker t).askPrice.lt (r.ticker t).bidPrice) =
      (t.bidPrice.lte (num 0) || t.askPrice.lte (num 0) || t.askPrice.lt t.bidPrice) := by
  show ((scale r.rate t.bidPrice).lte (num 0) || (scale r.rate t.askPrice).lte (num 0) ||
    (scale r.rate t.askPrice).lt (scale r.rate t.bidPrice)) = _
  rw [lte_zero_scale r.rate_pos, lte_zero_scale r.rate_pos, lt_scale r.rate_pos]

theorem withinSpread_ticker (t : DiscoveryTicker) :
    withinSpread (r.ticker t) (r.config cfg) = withinSpread t cfg := by
  unfold withinSpread
  dsimp only
  rw [untradable_ticker, spread_ticker]
  rfl

theorem withinChangeBand_ticker (hstill : r.drift = 0) (hctx : r.RestatesRanks ctx ctx')
    (t : DiscoveryTicker) :
    withinChangeBand (r.ticker t) (r.config cfg) ctx' = withinChangeBand t cfg ctx := by
  have hrank : ctx'.rankBySymbol (r.ticker t).symbol = ctx.rankBySymbol t.symbol :=
    hctx.rank t.symbol
  unfold withinChangeBand
  rw [ticker_gain hstill, hctx.size, hrank]
  rfl

theorem stage_ticker (hstill : r.drift = 0) (hctx : r.RestatesRanks ctx ctx')
    (t : DiscoveryTicker) :
    ∀ stage ∈ tickerStageChain, stage.2 (r.ticker t) (r.config cfg) ctx' = stage.2 t cfg ctx := by
  intro stage hstage
  unfold tickerStageChain at hstage
  simp only [List.mem_cons, List.not_mem_nil, or_false] at hstage
  rcases hstage with rfl | rfl | rfl | rfl | rfl | rfl | rfl
  · exact matchesQuote_ticker t
  · rfl
  · exact congrArg not (contains_map r.rename_injective cfg.blacklist t.symbol)
  · rfl
  · rfl
  · exact withinSpread_ticker t
  · exact withinChangeBand_ticker hstill hctx t

theorem filter_stages (hstill : r.drift = 0) (hctx : r.RestatesRanks ctx ctx')
    (part : TickerStageName → Bool) :
    (tickers.map r.ticker).filter (fun t => tickerStageChain.all fun stage =>
        part stage.1 || stage.2 t (r.config cfg) ctx') =
      (tickers.filter fun t => tickerStageChain.all fun stage =>
        part stage.1 || stage.2 t cfg ctx).map r.ticker := by
  rw [List.filter_map]
  congr 1
  apply List.filter_congr
  intro t _
  rw [Bool.eq_iff_iff]
  show (tickerStageChain.all fun stage =>
    part stage.1 || stage.2 (r.ticker t) (r.config cfg) ctx') = true ↔ _
  rw [List.all_eq_true, List.all_eq_true]
  refine forall₂_congr fun stage hstage => ?_
  rw [stage_ticker hstill hctx t stage hstage]

theorem map_symbol_ticker (l : List DiscoveryTicker) :
    (l.map r.ticker).map (·.symbol) = (l.map (·.symbol)).map r.rename := by
  rw [List.map_map, List.map_map]
  rfl

theorem shortlistByTicker_ticker (henv : env.UnitFree) (hstill : r.drift = 0)
    (hdistinct : DistinctGains tickers) :
    shortlistByTicker env (tickers.map r.ticker) (r.config cfg) =
      (shortlistByTicker env tickers cfg).map r.rename := by
  have hctx : r.RestatesRanks (buildRankContext env tickers cfg)
      (buildRankContext env (tickers.map r.ticker) (r.config cfg)) :=
    buildRankContext_ticker henv hdistinct
  unfold shortlistByTicker
  dsimp only
  have hsurvivors := @filter_stages r cfg tickers _ _ hstill hctx fun _ => false
  simp only [Bool.false_or] at hsurvivors
  rw [hsurvivors, sortByGain_ticker henv (hdistinct.among fun t ht => List.mem_of_mem_filter ht),
    map_symbol_ticker]

theorem keepableSymbols_ticker (henv : env.UnitFree) (hstill : r.drift = 0)
    (hdistinct : DistinctGains tickers) :
    keepableSymbols env (tickers.map r.ticker) (r.config cfg) =
      (keepableSymbols env tickers cfg).map r.rename := by
  have hctx : r.RestatesRanks (buildRankContext env tickers cfg)
      (buildRankContext env (tickers.map r.ticker) (r.config cfg)) :=
    buildRankContext_ticker henv hdistinct
  unfold keepableSymbols
  dsimp only
  rw [filter_stages hstill hctx fun stage => !keepStages.contains stage, map_symbol_ticker]

theorem marketBreadthOk_ticker (hstill : r.drift = 0) :
    marketBreadthOk (tickers.map r.ticker) (r.config cfg) = marketBreadthOk tickers cfg := by
  have hpositive : ∀ l : List DiscoveryTicker,
      ((l.map r.ticker).filter fun t => t.priceChangePercent.gt (num 0)).length =
        (l.filter fun t => t.priceChangePercent.gt (num 0)).length := by
    intro l
    rw [List.filter_map, List.length_map]
    congr 1
    apply List.filter_congr
    intro t _
    exact congrArg (fun gain => gt gain (num 0)) (ticker_gain hstill t)
  unfold marketBreadthOk
  dsimp only
  rw [rankUniverse_ticker, hpositive, List.length_map]
  rfl

end Stages

end TradingBot.Discovery
