import TradingBot.TrailingTrade.TickOutcome

/-!
# The lookback a profile asks for

The candles a tick reads are as many as the profile asks for, with a floor and
a ceiling. The profile asks for the low scan and the mean-reversion gate; the
time stops and the entry timeout count candles of the same window without
asking for them, so a setting past the window is one they never reach.
-/

namespace TradingBot.TrailingTrade

open Decimal

variable {config : TTConfig}

/-! ### What is asked for -/

/-- The gate is on unless its ceiling is blank. -/
def asksForMeanReversion (gate : MeanReversionGate) : Bool :=
  !gate.entryZScoreMax.toList.all Char.isWhitespace

def ttRequiredWindow (config : TTConfig) : ℕ :=
  let need := if config.buy.firstBuyTriggerBasis = .lowestPrice then config.buy.candleLimit else 0
  match config.buy.meanReversionGate.filter asksForMeanReversion with
  | none => need
  | some gate => if gate.lookbackCandles > need then gate.lookbackCandles else need

/-- The candles every tick of the profile is given. -/
def TTConfig.window (config : TTConfig) : ℕ := resolveCandleWindow (some (ttRequiredWindow config))

/-- The bounds the schema puts on the lookbacks it knows. -/
structure LookbackBounds (config : TTConfig) : Prop where
  candleLimit : config.buy.candleLimit ≤ maxCandleWindow
  lookbackCandles : ∀ gate ∈ config.buy.meanReversionGate, gate.lookbackCandles ≤ 400
  entryZScoreMax : ∀ gate ∈ config.buy.meanReversionGate,
    gate.entryZScoreMax = "" ∨ ∃ c ∈ gate.entryZScoreMax.toList, c.isDigit = true
  period : config.sell.atrTrailing.period ≤ 100

/-! ### What is read -/

/-- The rules of a tick that count candles of the window. -/
inductive BarRule where
  | discoveryTimeStop
  | timeStop
  | entryTimeout
  | atrTrailing
  | meanReversion
  | lowestPrice

namespace BarRule

/-- The rule is switched on. The trail's swing is also read by the bull-hold of a regime. -/
def enabled (config : TTConfig) : BarRule → Bool
  | discoveryTimeStop => config.sell.discoveryTimeStopBars > 0
  | timeStop => config.sell.timeStopBars > 0
  | entryTimeout =>
      config.entersAsMaker && (config.execution.bind (·.entryTimeoutBars)).getD 0 > 0
  | atrTrailing => true
  | meanReversion => config.buy.meanReversionGate.any (·.entryZScoreMax ≠ "")
  | lowestPrice => config.buy.firstBuyTriggerBasis = .lowestPrice

/-- How many candles the rule waits for. -/
def threshold (config : TTConfig) : BarRule → ℕ
  | discoveryTimeStop => config.sell.discoveryTimeStopBars
  | timeStop => config.sell.timeStopBars
  | entryTimeout => (config.execution.bind (·.entryTimeoutBars)).getD 0
  | atrTrailing => config.sell.atrTrailing.period + 1
  | meanReversion => (config.buy.meanReversionGate.map (·.lookbackCandles)).getD 0
  | lowestPrice => config.buy.candleLimit

/-- How many candles the rule finds, counting from a moment where it counts from one. -/
def barsRead (config : TTConfig) (market : MarketSnapshot) (sinceMs : ℤ) : BarRule → ℕ
  | discoveryTimeStop => closedBarsSinceEntry market config.candleInterval sinceMs
  | timeStop => closedBarsSinceEntry market config.candleInterval sinceMs
  | entryTimeout => closedBarsSinceEntry market config.candleInterval sinceMs
  | atrTrailing => (closedCandles market config.candleInterval).length
  | meanReversion => ((market.candlesByInterval config.candleInterval).getD []).length
  | lowestPrice =>
      (lastCandles ((market.candlesByInterval config.candleInterval).getD [])
        config.buy.candleLimit).length

/-- The rules that count from a moment. -/
def countsFromMoment : BarRule → Bool
  | discoveryTimeStop | timeStop | entryTimeout => true
  | _ => false

end BarRule

/-- The tick is given its full window: that many candles, closed, in order. -/
def FullWindow (config : TTConfig) (market : MarketSnapshot) : Prop :=
  ∃ candles, market.candlesByInterval config.candleInterval = some candles ∧
    candles.length = config.window ∧ (∀ c ∈ candles, c.isClosed = true) ∧
    candles.Pairwise fun a b => a.closeTimeMs < b.openTimeMs

/-- Some full window lets the rule reach its threshold. -/
def Attainable (config : TTConfig) (rule : BarRule) : Prop :=
  ∃ market sinceMs, FullWindow config market ∧
    rule.threshold config ≤ rule.barsRead config market sinceMs

/-! ### The window -/

/-- The window holds the default, and whatever is asked for within the ceiling. -/
theorem le_window_iff (hbound : ttRequiredWindow config ≤ maxCandleWindow) (n : ℕ) :
    n ≤ config.window ↔ n ≤ defaultCandleWindow ∨ n ≤ ttRequiredWindow config := by
  unfold TTConfig.window resolveCandleWindow
  dsimp only [Option.getD_some]
  split_ifs with hsmall hlarge
  · omega
  · omega
  · omega

/-- A candle whose price is one, closing at the end of its minute. -/
def flatCandle (i : ℕ) : Candle where
  openTimeMs := 60000 * i
  closeTimeMs := 60000 * i + 59999
  openPrice := "1"
  high := "1"
  low := "1"
  close := "1"
  volume := "1"
  isClosed := true

/-- A market that has been open for exactly the window. -/
def flatMarket (config : TTConfig) : MarketSnapshot :=
  { sampleMarket with
    candlesByInterval := fun _ => some ((List.range config.window).map flatCandle) }

theorem fullWindow_flatMarket : FullWindow config (flatMarket config) := by
  refine ⟨_, rfl, by simp, ?_, ?_⟩
  · intro c hc
    obtain ⟨i, -, rfl⟩ := List.mem_map.mp hc
    rfl
  · rw [List.pairwise_map]
    refine List.pairwise_lt_range.imp ?_
    intro i j hij
    simp only [flatCandle]
    omega

theorem closedCandles_flatMarket :
    (closedCandles (flatMarket config) config.candleInterval).length = config.window := by
  have hall : ((List.range config.window).map flatCandle).filter (·.isClosed) =
      (List.range config.window).map flatCandle := by
    refine List.filter_eq_self.mpr ?_
    intro c hc
    obtain ⟨i, -, rfl⟩ := List.mem_map.mp hc
    rfl
  rw [closedCandles, flatMarket]
  dsimp only [Option.getD_some]
  rw [hall, List.length_map, List.length_range]

theorem closedBars_flatMarket :
    closedBarsSinceEntry (flatMarket config) config.candleInterval (-1) = config.window := by
  rw [closedBarsSinceEntry, ← closedCandles_flatMarket]
  congr 1
  refine List.filter_eq_self.mpr ?_
  intro c hc
  have hmem : c ∈ (List.range config.window).map flatCandle := (List.mem_filter.mp hc).1
  obtain ⟨i, -, rfl⟩ := List.mem_map.mp hmem
  simp only [flatCandle, gt_iff_lt, decide_eq_true_eq]
  omega

theorem attainable_iff_le_window {rule : BarRule} (hcounts : rule.countsFromMoment = true) :
    Attainable config rule ↔ rule.threshold config ≤ config.window := by
  have hread : ∀ market sinceMs, rule.barsRead config market sinceMs =
      closedBarsSinceEntry market config.candleInterval sinceMs := by
    intro market sinceMs
    cases rule with
    | discoveryTimeStop => rfl
    | timeStop => rfl
    | entryTimeout => rfl
    | atrTrailing => cases hcounts
    | meanReversion => cases hcounts
    | lowestPrice => cases hcounts
  constructor
  · rintro ⟨market, sinceMs, ⟨candles, hcandles, hlength, -⟩, hreached⟩
    rw [hread, closedBarsSinceEntry, closedCandles, hcandles, Option.getD_some] at hreached
    calc rule.threshold config
        ≤ ((candles.filter (·.isClosed)).filter fun c => c.closeTimeMs > sinceMs).length := hreached
      _ ≤ (candles.filter (·.isClosed)).length := List.length_filter_le _ _
      _ ≤ candles.length := List.length_filter_le _ _
      _ = config.window := hlength
  · intro hle
    refine ⟨flatMarket config, -1, fullWindow_flatMarket, ?_⟩
    rw [hread, closedBars_flatMarket]
    exact hle

/-! ### What fits -/

/-- The bars fit the default window, or a lookback the profile asks for. -/
def FitsLookback (config : TTConfig) (bars : ℕ) : Prop :=
  bars ≤ defaultCandleWindow ∨
    (config.buy.firstBuyTriggerBasis = .lowestPrice ∧ bars ≤ config.buy.candleLimit) ∨
    ∃ gate ∈ config.buy.meanReversionGate, gate.entryZScoreMax ≠ "" ∧ bars ≤ gate.lookbackCandles

theorem LookbackBounds.asks_iff (h : LookbackBounds config) {gate : MeanReversionGate}
    (hgate : config.buy.meanReversionGate = some gate) :
    asksForMeanReversion gate = true ↔ gate.entryZScoreMax ≠ "" := by
  rcases h.entryZScoreMax gate hgate with hempty | ⟨c, hc, hdigit⟩
  · simp [asksForMeanReversion, hempty]
  · have hspace : c.isWhitespace = false := by
      rw [← Bool.not_eq_true]
      intro hblank
      simp only [Char.isWhitespace, Bool.or_eq_true, decide_eq_true_eq] at hblank
      rcases hblank with ((rfl | rfl) | rfl) | rfl <;> cases hdigit
    refine iff_of_true ?_ ?_
    · simp only [asksForMeanReversion, Bool.not_eq_true', List.all_eq_false]
      exact ⟨c, hc, by simp [hspace]⟩
    · rintro hempty
      simp [hempty] at hc

theorem LookbackBounds.le_required_iff (h : LookbackBounds config) {bars : ℕ} (hbars : 0 < bars) :
    bars ≤ ttRequiredWindow config ↔
      (config.buy.firstBuyTriggerBasis = .lowestPrice ∧ bars ≤ config.buy.candleLimit) ∨
        ∃ gate ∈ config.buy.meanReversionGate, gate.entryZScoreMax ≠ "" ∧
          bars ≤ gate.lookbackCandles := by
  have hlow : bars ≤ (if config.buy.firstBuyTriggerBasis = .lowestPrice then config.buy.candleLimit
      else 0) ↔ config.buy.firstBuyTriggerBasis = .lowestPrice ∧ bars ≤ config.buy.candleLimit := by
    split
    · next hbasis => simp [hbasis]
    · next hbasis => simp [hbasis, hbars.ne']
  unfold ttRequiredWindow
  dsimp only
  cases hgate : config.buy.meanReversionGate with
  | none => simpa using hlow
  | some gate =>
      have hasks := h.asks_iff hgate
      by_cases hon : gate.entryZScoreMax ≠ ""
      · rw [Option.filter_some, if_pos (hasks.mpr hon)]
        simp only [Option.mem_def, Option.some.injEq, exists_eq_left', ← hlow]
        generalize (if config.buy.firstBuyTriggerBasis = .lowestPrice then config.buy.candleLimit
          else 0) = need
        split
        · simp only [ne_eq, hon, not_false_eq_true, true_and]
          omega
        · simp only [ne_eq, hon, not_false_eq_true, true_and]
          omega
      · have hoff : asksForMeanReversion gate = false := by
          rw [← Bool.not_eq_true]
          exact fun hask => hon (hasks.mp hask)
        rw [Option.filter_some, hoff]
        simpa [hon] using hlow

theorem LookbackBounds.required_le (h : LookbackBounds config) :
    ttRequiredWindow config ≤ maxCandleWindow := by
  by_contra hover
  have hpos : 0 < ttRequiredWindow config := by omega
  have hceiling : (400 : ℕ) ≤ maxCandleWindow := by decide
  rcases (h.le_required_iff hpos).mp le_rfl with ⟨-, hle⟩ | ⟨gate, hgate, -, hle⟩
  · exact hover (hle.trans h.candleLimit)
  · exact hover (hle.trans ((h.lookbackCandles gate hgate).trans hceiling))

theorem LookbackBounds.fits_iff (h : LookbackBounds config) (bars : ℕ) :
    bars ≤ config.window ↔ FitsLookback config bars := by
  rw [le_window_iff h.required_le, FitsLookback]
  rcases Nat.eq_zero_or_pos bars with rfl | hbars
  · simp
  · rw [h.le_required_iff hbars]

/-- The rules that read the window as a whole always find their candles. -/
theorem LookbackBounds.attainable (h : LookbackBounds config) {rule : BarRule}
    (hwhole : rule.countsFromMoment = false) (henabled : rule.enabled config = true) :
    Attainable config rule := by
  have hdefault : ∀ bars, bars ≤ 200 → bars ≤ config.window :=
    fun bars hle => (h.fits_iff bars).mpr (.inl hle)
  refine ⟨flatMarket config, 0, fullWindow_flatMarket, ?_⟩
  cases rule with
  | discoveryTimeStop => cases hwhole
  | timeStop => cases hwhole
  | entryTimeout => cases hwhole
  | atrTrailing =>
      rw [BarRule.barsRead, closedCandles_flatMarket]
      have hperiod := h.period
      exact hdefault _ (by rw [BarRule.threshold]; omega)
  | meanReversion =>
      have hlength :
          (((flatMarket config).candlesByInterval config.candleInterval).getD []).length =
          config.window := by simp [flatMarket]
      rw [BarRule.barsRead, hlength, h.fits_iff]
      cases hgate : config.buy.meanReversionGate with
      | none => simp [BarRule.enabled, hgate] at henabled
      | some gate =>
          refine .inr (.inr ⟨gate, hgate, ?_, ?_⟩)
          · simpa [BarRule.enabled, hgate] using henabled
          · simp [BarRule.threshold, hgate]
  | lowestPrice =>
      have hbasis : config.buy.firstBuyTriggerBasis = .lowestPrice := by
        simpa [BarRule.enabled] using henabled
      have hle := (h.fits_iff config.buy.candleLimit).mpr (.inr (.inl ⟨hbasis, le_rfl⟩))
      have hread : BarRule.lowestPrice.barsRead config (flatMarket config) 0 =
          config.window - (config.window - config.buy.candleLimit) := by
        simp [BarRule.barsRead, lastCandles, flatMarket]
      rw [hread, BarRule.threshold]
      omega

/-- Every enabled rule can reach its threshold within the window the profile is given exactly if
the time stops and the entry timeout fit the default window or a lookback asked for elsewhere. -/
theorem rules_attainable_iff (h : LookbackBounds config) :
    (∀ rule, rule.enabled config = true → Attainable config rule) ↔
      ∀ rule : BarRule, rule.countsFromMoment = true → rule.enabled config = true →
        FitsLookback config (rule.threshold config) := by
  constructor
  · intro hall rule hcounts henabled
    rw [← h.fits_iff, ← attainable_iff_le_window hcounts]
    exact hall rule henabled
  · intro hfits rule henabled
    cases hcounts : rule.countsFromMoment with
    | false => exact h.attainable hcounts henabled
    | true =>
        rw [attainable_iff_le_window hcounts, h.fits_iff]
        exact hfits rule hcounts henabled

def withTimeStop (bars : ℕ) : TTConfig :=
  { sampleConfig with sell := { sampleConfig.sell with timeStopBars := bars } }

theorem lookbackBounds_withTimeStop (bars : ℕ) : LookbackBounds (withTimeStop bars) where
  candleLimit := by simp [withTimeStop, sampleConfig, maxCandleWindow]
  lookbackCandles := by simp [withTimeStop, sampleConfig]
  entryZScoreMax := by simp [withTimeStop, sampleConfig]
  period := by simp [withTimeStop, sampleConfig]

/-- A time stop after a hundred candles is reached. -/
theorem short_time_stop_attainable :
    Attainable (withTimeStop 100) .timeStop := by
  refine (rules_attainable_iff (lookbackBounds_withTimeStop 100)).mpr ?_ .timeStop rfl
  intro rule hcounts henabled
  refine .inl ?_
  cases rule with
  | discoveryTimeStop => decide
  | timeStop => decide
  | entryTimeout => decide
  | atrTrailing => cases hcounts
  | meanReversion => cases hcounts
  | lowestPrice => cases hcounts

/-- A time stop after three hundred candles is switched on and never reached: the profile is given
two hundred. -/
theorem long_time_stop_dead :
    LookbackBounds (withTimeStop 300) ∧
      BarRule.enabled (withTimeStop 300) .timeStop = true ∧
      ¬Attainable (withTimeStop 300) .timeStop := by
  refine ⟨lookbackBounds_withTimeStop 300, rfl, ?_⟩
  rw [attainable_iff_le_window rfl]
  decide

end TradingBot.TrailingTrade
