import TradingBot.Lib.Decimal
import Mathlib.Data.List.Sort

/-!
# The discovery chain

A profile's symbols rotate with the market. The chain ranks the exchange's
tickers, filters them in a fixed order of stages, and filters what is left by
its candles; what the trend indicators read and how two symbols compare in the
runtime's collation are parameters. A wire decimal is a number here: one that
does not read as a number aborts the cycle before it decides anything.
-/

namespace TradingBot.Discovery

open Decimal

structure DiscoveryTicker where
  symbol : String
  baseAsset : String
  quoteAsset : String
  isStablecoinOrFiat : Bool
  priceChangePercent : Decimal
  pairVolumeUsd : Decimal
  assetVolumeUsd : Option Decimal
  lastPrice : Decimal
  bidPrice : Decimal
  askPrice : Decimal
deriving DecidableEq

structure DiscoveryCandle where
  openTimeMs : ℤ
  closeTimeMs : ℤ
  high : Decimal
  low : Decimal
  close : Decimal
  volume : Decimal

abbrev Klines := String → Option (List DiscoveryCandle)

structure TrendConfirmConfig where
  adxPeriod : ℕ
  adxMin : Decimal
  emaPeriod : ℕ
  volSmaPeriod : ℕ
  volMultiple : Decimal

structure CorrelationConfig where
  maxPairwise : Decimal
  lookbackCandles : ℕ

structure DiscoveryConfig where
  quoteAsset : String
  blacklist : List String
  min24hPairVolumeUsd : Decimal
  min24hAssetVolumeUsd : Decimal
  maxSpreadRatio : Decimal
  changeMinPercent : Decimal
  rankTopPercent : ℕ
  rankExcludeTopPercent : ℕ
  minAgeDays : ℕ
  maxAutoSymbols : ℕ
  minHoldMinutes : ℕ
  marketBreadthMinPercent : Decimal
  trendConfirm : TrendConfirmConfig
  correlation : Option CorrelationConfig

/-- What the chain takes from outside the repository's own arithmetic: two indicators of the
vendored library, and the order of texts. -/
structure Environment where
  adx : List DiscoveryCandle → ℕ → Option Decimal
  ema : List DiscoveryCandle → ℕ → Option Decimal
  localeCompare : String → String → Ordering

/-! ### The ticker filters -/

/-- The rank of each symbol of the universe by its gain, from one. -/
structure RankContext where
  rankBySymbol : String → Option ℕ
  universeSize : ℕ

def msPerDay : ℤ := 86400000

def msPerMinute : ℤ := 60000

def minUniverseForRank : ℕ := 10

def feeDiscountAsset : String := "BNB"

def matchesQuote (t : DiscoveryTicker) (cfg : DiscoveryConfig) : Bool :=
  t.quoteAsset = cfg.quoteAsset

def passesAssetPolicy (t : DiscoveryTicker) : Bool :=
  !t.isStablecoinOrFiat && t.baseAsset ≠ feeDiscountAsset

def notBlacklisted (t : DiscoveryTicker) (cfg : DiscoveryConfig) : Bool :=
  !cfg.blacklist.contains t.symbol

def meetsLiquidity (t : DiscoveryTicker) (cfg : DiscoveryConfig) : Bool :=
  t.pairVolumeUsd.gte cfg.min24hPairVolumeUsd

/-- A coin without a dollar market has no activity to measure. -/
def isActive (t : DiscoveryTicker) (cfg : DiscoveryConfig) : Bool :=
  t.assetVolumeUsd.any (·.gte cfg.min24hAssetVolumeUsd)

def withinSpread (t : DiscoveryTicker) (cfg : DiscoveryConfig) : Bool :=
  let bid := t.bidPrice
  let ask := t.askPrice
  if bid.lte (num 0) || ask.lte (num 0) || ask.lt bid then false
  else
    let mid := (ask.add bid).div (num 2)
    ((ask.sub bid).div mid).lte cfg.maxSpreadRatio

/-- The gain clears its hurdle and ranks inside the band; a thin universe has no band. -/
def withinChangeBand (t : DiscoveryTicker) (cfg : DiscoveryConfig) (ctx : RankContext) : Bool :=
  if !t.priceChangePercent.gte cfg.changeMinPercent then false
  else
    match ctx.rankBySymbol t.symbol with
    | none => false
    | some rank =>
        if ctx.universeSize < minUniverseForRank then true
        else
          let size := num ctx.universeSize
          let hottest := (size.mul (num cfg.rankExcludeTopPercent)).div (num 100)
          let coldest := ((size.mul (num cfg.rankTopPercent)).div (num 100)).ceil
          (num rank).gt hottest && (num rank).lte coldest

/-! ### The candle filters -/

/-- The first candle of the window lies far enough back. -/
def oldEnough (klines : List DiscoveryCandle) (cfg : DiscoveryConfig) (nowMs : ℤ) : Bool :=
  match klines.head? with
  | none => false
  | some oldest => oldest.openTimeMs ≤ nowMs - cfg.minAgeDays * msPerDay

def volumeSma (klines : List DiscoveryCandle) (period : ℕ) : Option Decimal :=
  if klines.length < period then none
  else
    let slice := klines.drop (klines.length - period)
    some ((slice.foldl (fun sum c => sum.add c.volume) (num 0)).div (num period))

/-- Strong enough, above its average and traded enough; a short window confirms nothing. -/
def trendConfirmed (env : Environment) (klines : List DiscoveryCandle) (cfg : DiscoveryConfig) :
    Bool :=
  match klines.getLast? with
  | none => false
  | some last =>
      let tc := cfg.trendConfirm
      match env.adx klines tc.adxPeriod, env.ema klines tc.emaPeriod,
          volumeSma klines tc.volSmaPeriod with
      | some adxVal, some emaVal, some volAvg =>
          adxVal.gte tc.adxMin && last.close.gt emaVal &&
            last.volume.gt (volAvg.mul tc.volMultiple)
      | _, _, _ => false

/-- A symbol taken out within the hold time may not come back. -/
def inCooldown (lastFlattenAtMs : Option ℤ) (cfg : DiscoveryConfig) (nowMs : ℤ) : Bool :=
  match lastFlattenAtMs with
  | none => false
  | some last => nowMs - last < cfg.minHoldMinutes * msPerMinute

def heldLongEnough (addedAtMs : ℤ) (cfg : DiscoveryConfig) (nowMs : ℤ) : Bool :=
  nowMs - addedAtMs ≥ cfg.minHoldMinutes * msPerMinute

/-! ### Ranking and the stages -/

/-- The bigger gain first, then the lesser symbol; gains that do not compare leave the order. -/
def byGainDesc (env : Environment) (a b : DiscoveryTicker) : Bool :=
  if b.priceChangePercent.eq a.priceChangePercent then
    env.localeCompare a.symbol b.symbol ≠ .gt
  else !b.priceChangePercent.gt a.priceChangePercent

def sortByGain (env : Environment) (tickers : List DiscoveryTicker) : List DiscoveryTicker :=
  tickers.insertionSort fun a b => byGainDesc env a b = true

def rankUniverse (tickers : List DiscoveryTicker) (cfg : DiscoveryConfig) : List DiscoveryTicker :=
  tickers.filter fun t => matchesQuote t cfg && passesAssetPolicy t

def buildRankContext (env : Environment) (tickers : List DiscoveryTicker) (cfg : DiscoveryConfig) :
    RankContext :=
  let ranked := sortByGain env (rankUniverse tickers cfg)
  { rankBySymbol := ranked.zipIdx.foldl
      (fun ranks entry => Function.update ranks entry.1.symbol (some (entry.2 + 1))) fun _ => none
    universeSize := ranked.length }

inductive TickerStageName where
  | quote
  | assetPolicy
  | blacklist
  | liquidity
  | activity
  | spread
  | changeBand
deriving DecidableEq

def tickerStageChain :
    List (TickerStageName × (DiscoveryTicker → DiscoveryConfig → RankContext → Bool)) :=
  [ (.quote, fun t cfg _ => matchesQuote t cfg),
    (.assetPolicy, fun t _ _ => passesAssetPolicy t),
    (.blacklist, fun t cfg _ => notBlacklisted t cfg),
    (.liquidity, fun t cfg _ => meetsLiquidity t cfg),
    (.activity, fun t cfg _ => isActive t cfg),
    (.spread, fun t cfg _ => withinSpread t cfg),
    (.changeBand, withinChangeBand) ]

/-- The symbols that pass every stage, the bigger gains first. -/
def shortlistByTicker (env : Environment) (tickers : List DiscoveryTicker)
    (cfg : DiscoveryConfig) : List String :=
  let ctx := buildRankContext env tickers cfg
  let survivors := tickers.filter fun t => tickerStageChain.all fun stage => stage.2 t cfg ctx
  (sortByGain env survivors).map (·.symbol)

/-- The stages a held symbol must keep passing. -/
def keepStages : List TickerStageName :=
  [.quote, .assetPolicy, .blacklist, .liquidity, .activity, .spread]

/-- The symbols that can still be traded. -/
def keepableSymbols (env : Environment) (tickers : List DiscoveryTicker) (cfg : DiscoveryConfig) :
    List String :=
  let ctx := buildRankContext env tickers cfg
  (tickers.filter fun t => tickerStageChain.all fun stage =>
    !keepStages.contains stage.1 || stage.2 t cfg ctx).map (·.symbol)

/-- Enough of the universe rose for new symbols to be let in. -/
def marketBreadthOk (tickers : List DiscoveryTicker) (cfg : DiscoveryConfig) : Bool :=
  let floor := cfg.marketBreadthMinPercent
  if floor.lte (num 0) then true
  else
    let ranked := rankUniverse tickers cfg
    if ranked.length = 0 then true
    else
      let positive := (ranked.filter fun t => t.priceChangePercent.gt (num 0)).length
      (((num positive).div (num ranked.length)).mul (num 100)).gte floor

/-! ### Correlation -/

/-- The last candles of a window; a lookback of none takes it whole. -/
def lastCandles (window : List DiscoveryCandle) (lookback : ℕ) : List DiscoveryCandle :=
  if lookback = 0 then window else window.drop (window.length - lookback)

/-- The returns of two windows, pair by pair, where their candles match in time. -/
def returnPairs : List (DiscoveryCandle × DiscoveryCandle) → Option (List (Decimal × Decimal))
  | [] => some []
  | [_] => some []
  | prev :: next :: rest =>
      if next.1.closeTimeMs ≠ next.2.closeTimeMs then none
      else
        (returnPairs (next :: rest)).map fun later =>
          if prev.1.close.eq (num 0) || prev.2.close.eq (num 0) then later
          else
            ((next.1.close.div prev.1.close).sub (num 1),
              (next.2.close.div prev.2.close).sub (num 1)) :: later

def alignedReturns (a b : List DiscoveryCandle) : Option (List (Decimal × Decimal)) :=
  if a.length ≠ b.length then none
  else
    (returnPairs (a.zip b)).bind fun pairs => if pairs.length < 2 then none else some pairs

def pearsonCorrelation (pairs : List (Decimal × Decimal)) : Option Decimal :=
  if pairs.length < 2 then none
  else
    let nd := num pairs.length
    let meanA := ((pairs.map (·.1)).foldl add (num 0)).div nd
    let meanB := ((pairs.map (·.2)).foldl add (num 0)).div nd
    let cov := pairs.foldl (fun acc p => acc.add ((p.1.sub meanA).mul (p.2.sub meanB))) (num 0)
    let varA := pairs.foldl (fun acc p => acc.add ((p.1.sub meanA).mul (p.1.sub meanA))) (num 0)
    let varB := pairs.foldl (fun acc p => acc.add ((p.2.sub meanB).mul (p.2.sub meanB))) (num 0)
    if varA.eq (num 0) || varB.eq (num 0) then none else some (cov.div (varA.mul varB).sqrt)

/-- The highest correlation of a candidate with any of its peers that compares. -/
def maxPeerCorrelation (candidate : String) (peers : List String) (klinesBySymbol : Klines)
    (lookback : ℕ) : Option Decimal :=
  let candWindow := lastCandles ((klinesBySymbol candidate).getD []) lookback
  if candWindow.length < 2 then none
  else
    peers.foldl
      (fun best peer =>
        match alignedReturns candWindow (lastCandles ((klinesBySymbol peer).getD []) lookback) with
        | none => best
        | some aligned =>
            match pearsonCorrelation aligned with
            | none => best
            | some corr => if best.all fun best => corr.gt best then some corr else best)
      none

end TradingBot.Discovery
