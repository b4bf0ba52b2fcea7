import TradingBot.Momentum.ReadableWindow
import TradingBot.Momentum.Tick

/-!
# The lookback a momentum profile asks for

Each rule of a tick compares its window with its own expression, some a candle
longer under a sub-option. The lookback a profile declares is at least each of
them, so no rule that is switched on is ever short of candles, and a held
weekend-gap position finds its Friday candle until its time stop.
-/

namespace TradingBot.Momentum

open Decimal

variable {config : MomentumConfig}

/-! ### What is asked for -/

/-- The larger of two needs. -/
def wider (a b : ℕ) : ℕ := if a > b then a else b

/-- The range of the below-trend layer, where it is switched on. -/
def layerRange (config : MomentumConfig) : ℕ :=
  match config.belowTrendBreakout.filter (·.enabled) with
  | none => 0
  | some block => breakoutLookback block.lookback

def obvLeadNeed (raw : Option MomentumObvLead) : ℕ := (obvLeadSettings raw).lookback + 1

/-- The reference candle is fifty candles before the Sunday one, with two of slack. -/
def referenceSpan : ℕ := 52

def weekendGapNeed (raw : Option MomentumWeekendGap) : ℕ :=
  (weekendGapSettings raw).maxHoldBars + referenceSpan

/-- What the entry trigger reads. -/
def breakoutNeed (config : MomentumConfig) : ℕ :=
  let layer := layerRange config
  match config.entryTrigger with
  | some .breakout =>
      wider layer (breakoutLookback config.breakoutLookback) + 1
  | some .impulse => impulseNeed config.impulse
  | some .exhaustion => exhaustionNeed
  | some .obvLead => obvLeadNeed config.obvLead
  | some .weekendGap => weekendGapNeed config.weekendGap
  | some .maCluster =>
      if maClusterNeed config.maCluster > layer then maClusterNeed config.maCluster else layer + 1
  | _ => 0

/-- What the trend gate reads: its line, and the line as it was where it has to rise. -/
def trendGateNeed (config : MomentumConfig) : ℕ :=
  match config.trendFilter.filter (·.enabled) with
  | none => 0
  | some tf => trendPeriod tf.period + tf.slope

/-- What the trend filter reads, and the below-trend layer through it with the filter off. -/
def trendNeed (config : MomentumConfig) : ℕ :=
  if config.entryTrigger = some .maCluster ∧
      (config.belowTrendBreakout.filter (·.enabled)).isSome then
    wider (trendPeriod (config.trendFilter.bind (·.period))) (trendGateNeed config)
  else trendGateNeed config

def extensionNeed (config : MomentumConfig) : ℕ :=
  match config.entryExtension.filter (·.enabled) with
  | none => 0
  | some ext => extensionPeriod ext.period

def atrNeed (config : MomentumConfig) : ℕ :=
  match config.atrStop with
  | none => 0
  | some cfg => atrStopPeriod cfg.period + 1

/-- A kept block sizes the window whatever the trigger: a held position may still need it. -/
def gapNeed (config : MomentumConfig) : ℕ :=
  if config.weekendGap.isSome then weekendGapNeed config.weekendGap else 0

/-- The candles a profile asks for. -/
def momentumRequiredWindow (config : MomentumConfig) : ℕ :=
  let emaNeed := wider config.need (breakoutNeed config)
  let need := wider emaNeed (trendNeed config)
  let widest := wider need (extensionNeed config)
  let withAtr := wider widest (atrNeed config)
  let withRs := wider withAtr (relativeStrengthNeed config.relativeStrength)
  wider withRs (gapNeed config)

/-! ### Every need is covered -/

theorem le_wider_left (a b : ℕ) : a ≤ wider a b := by
  unfold wider
  split <;> omega

theorem le_wider_right (a b : ℕ) : b ≤ wider a b := by
  unfold wider
  split <;> omega

theorem needs_le_momentumRequiredWindow (config : MomentumConfig) :
    config.need ≤ momentumRequiredWindow config ∧
      breakoutNeed config ≤ momentumRequiredWindow config ∧
      trendNeed config ≤ momentumRequiredWindow config ∧
      extensionNeed config ≤ momentumRequiredWindow config ∧
      relativeStrengthNeed config.relativeStrength ≤ momentumRequiredWindow config ∧
      gapNeed config ≤ momentumRequiredWindow config := by
  have hema := le_wider_left config.need (breakoutNeed config)
  have htrigger := le_wider_right config.need (breakoutNeed config)
  have hneed := le_wider_left (wider config.need (breakoutNeed config)) (trendNeed config)
  have htrend := le_wider_right (wider config.need (breakoutNeed config)) (trendNeed config)
  unfold momentumRequiredWindow
  dsimp only
  set need := wider (wider config.need (breakoutNeed config)) (trendNeed config)
  have hwidest := le_wider_left need (extensionNeed config)
  have hextension := le_wider_right need (extensionNeed config)
  set widest := wider need (extensionNeed config)
  have hatr := le_wider_left widest (atrNeed config)
  set withAtr := wider widest (atrNeed config)
  have hrs := le_wider_left withAtr (relativeStrengthNeed config.relativeStrength)
  have hstrength := le_wider_right withAtr (relativeStrengthNeed config.relativeStrength)
  set withRs := wider withAtr (relativeStrengthNeed config.relativeStrength)
  have hgap := le_wider_left withRs (gapNeed config)
  have hgapNeed := le_wider_right withRs (gapNeed config)
  omega

/-- A lookback one request can supply is supplied, and never fewer than the default. -/
theorem le_resolveCandleWindow {need : ℕ} (h : need ≤ maxCandleWindow) :
    need ≤ resolveCandleWindow (some need) ∧
      defaultCandleWindow ≤ resolveCandleWindow (some need) := by
  have hdefault : defaultCandleWindow ≤ maxCandleWindow := by decide
  unfold resolveCandleWindow
  rw [Option.getD_some]
  dsimp only
  split
  · exact ⟨by assumption, le_rfl⟩
  · split
    · exact ⟨h, hdefault⟩
    · omega

theorem le_coerceInt (raw : Option ℤ) {min fallback : ℕ} (h : min ≤ fallback) :
    min ≤ coerceInt raw min fallback := by
  unfold coerceInt
  split
  · split
    · omega
    · exact h
  · exact h

/-! ### The Friday candle -/

/-- Hourly candles, oldest first; hours may be missing. -/
structure Hourly (feed : List Candle) : Prop where
  spaced : feed.Pairwise fun a b => a.openTimeMs + hourMs ≤ b.openTimeMs
  closing : ∀ c ∈ feed, c.closeTimeMs = c.openTimeMs + hourMs - 1

/-- The last of some spaced candles opened at least as many
hours later as there are after the first. -/
theorem spaced_last {first : Candle} {rest : List Candle}
    (h : (first :: rest).Pairwise fun a b => a.openTimeMs + hourMs ≤ b.openTimeMs) :
    ∀ last, (first :: rest).getLast? = some last →
      first.openTimeMs + rest.length * hourMs ≤ last.openTimeMs := by
  induction rest generalizing first with
  | nil =>
      intro last hlast
      cases hlast
      simp
  | cons next rest ih =>
      intro last hlast
      obtain ⟨hfirst, hrest⟩ := List.pairwise_cons.mp h
      have hnext := hfirst next List.mem_cons_self
      have hlater := ih hrest last (by rwa [List.getLast?_cons_cons] at hlast)
      rw [List.length_cons]
      push_cast
      linarith

theorem Hourly.mem_window {feed candles : List Candle} (h : Hourly feed)
    (hwindow : candles <:+ feed) {span : ℕ} (hlength : span ≤ candles.length) {c last : Candle}
    (hc : c ∈ feed) (hlast : candles.getLast? = some last)
    (hrecent : last.openTimeMs < c.openTimeMs + span * hourMs) : c ∈ candles := by
  obtain ⟨before, rfl⟩ := hwindow
  rcases List.mem_append.mp hc with houtside | hinside
  · -- every candle of the window would open after it, more of them than the hours that passed
    have hspaced := List.pairwise_append.mp h.spaced
    obtain ⟨first, rest, rfl⟩ := List.exists_cons_of_ne_nil
      (List.ne_nil_of_mem (List.mem_of_getLast? hlast))
    have hfirst := hspaced.2.2 c houtside first List.mem_cons_self
    have hlater := spaced_last hspaced.2.1 last hlast
    have hhours := mul_le_mul_of_nonneg_right (Int.ofNat_le.mpr hlength)
      (by decide : (0 : ℤ) ≤ hourMs)
    rw [List.length_cons] at hhours
    push_cast at hhours
    linarith
  · exact hinside

/-! ### Nothing is missing -/

/-- No rule of a tick is short of candles: the readings exist, and no gate answers that its window
is too short. An impulse is left unmeasured only where nothing moved before the judged candle. -/
structure WholeHistory (config : MomentumConfig) (candles : List Candle)
    (currentPrice symbol : String) (profileKv : Option ProfileKv) : Prop where
  warmedUp : config.need ≤ candles.length
  averages : ∃ x, crossing config candles = some x
  breakout : config.entryTrigger = some .breakout → ∃ level,
    breakoutLevel (priorCandles candles) (breakoutLookback config.breakoutLookback) =
      some (some level)
  layer : ∀ block, config.belowTrendLayer = some block → ∃ level,
    breakoutLevel (priorCandles candles) (breakoutLookback block.lookback) = some (some level)
  layerLine : ∀ block, config.belowTrendLayer = some block → config.entryTrigger = some .maCluster →
    trendPeriod (config.trendFilter.bind (·.period)) ≤ candles.length
  layerCalm : maClusterChopPeriod < candles.length
  impulse : config.entryTrigger = some .impulse → ∃ reading,
    impulseReading candles config.impulse = some reading ∧
      (reading = none → ∃ range, atr (priorCandles candles) impulseAtrPeriod = some range ∧
        range.gt (num 0) = false)
  cluster : config.entryTrigger = some .maCluster → ∃ reading,
    maClusterReading candles config.maCluster = some (some reading)
  exhaustion : config.entryTrigger = some .exhaustion → ∃ reading,
    exhaustionReading candles config.exhaustion = some (some reading)
  obvLead : config.entryTrigger = some .obvLead → ∃ reading,
    obvLeadReading candles config.obvLead = some (some reading)
  weekendGap : config.entryTrigger = some .weekendGap → config.candleInterval = .h1 → ∃ reading,
    weekendGapReading candles config = some (some reading) ∧
      -- the Friday close is missing from the reading of a Sunday only if the feed has none
      (reading.isEntryCandle = true → ∀ feed, Hourly feed → candles <:+ feed →
        ∀ last, candles.getLast? = some last →
          (∃ friday ∈ feed, friday.openTimeMs = last.openTimeMs - fridayLeadMs) →
            reading.refClose.isSome = true)
  trend : trendGate config candles currentPrice ≠ some .insufficientHistory
  extension : extensionGate config candles currentPrice ≠ some .extensionInsufficientHistory
  strength : ∀ reading,
    relativeStrengthGate candles config.relativeStrength symbol profileKv = some reading →
      reading.gate ≠ .relativeStrengthInsufficientHistory

section Covered

variable {candles : List Candle} {currentPrice symbol : String} {profileKv : Option ProfileKv}

/-- The window of a profile is as long as it asked for, and as long as the default. -/
structure Covers (config : MomentumConfig) (candles : List Candle) : Prop where
  required : momentumRequiredWindow config ≤ candles.length
  default : defaultCandleWindow ≤ candles.length
  positive : ∀ c ∈ candles, PositiveCandle c

theorem Covers.of_window (hneed : momentumRequiredWindow config ≤ maxCandleWindow)
    (hlength : resolveCandleWindow (some (momentumRequiredWindow config)) ≤ candles.length)
    (hpositive : ∀ c ∈ candles, PositiveCandle c) : Covers config candles :=
  ⟨(le_resolveCandleWindow hneed).1.trans hlength, (le_resolveCandleWindow hneed).2.trans hlength,
    hpositive⟩

theorem Covers.prior (h : Covers config candles) : ∀ c ∈ priorCandles candles, PositiveCandle c :=
  fun c hc => h.positive c (mem_of_mem_priorCandles hc)

theorem Covers.crossing (h : Covers config candles) (hfast : 0 < config.ema.fast)
    (hslow : config.ema.fast < config.ema.slow) : ∃ x, crossing config candles = some x := by
  have hneed := (needs_le_momentumRequiredWindow config).1.trans h.required
  unfold MomentumConfig.need at hneed
  have hnow := priced_of_positive h.positive
  have hprior := priced_of_positive h.prior
  obtain ⟨fastNow, hfastNow⟩ := ema_reads hnow hfast (by omega)
  obtain ⟨slowNow, hslowNow⟩ := ema_reads hnow (hfast.trans hslow) (by omega)
  obtain ⟨fastPrev, hfastPrev⟩ := ema_reads hprior hfast (by rw [length_priorCandles]; omega)
  obtain ⟨slowPrev, hslowPrev⟩ :=
    ema_reads hprior (hfast.trans hslow) (by rw [length_priorCandles]; omega)
  unfold TradingBot.Momentum.crossing
  dsimp only
  rw [hfastNow, hslowNow, hfastPrev, hslowPrev]
  exact ⟨_, rfl⟩

theorem Covers.trigger (h : Covers config candles) : breakoutNeed config ≤ candles.length :=
  (needs_le_momentumRequiredWindow config).2.1.trans h.required

theorem Covers.layerLevel (h : Covers config candles) {block : MomentumBelowTrendBreakout}
    (hlayer : config.belowTrendLayer = some block) :
    ∃ level, breakoutLevel (priorCandles candles) (breakoutLookback block.lookback) =
      some (some level) := by
  have hpos : 2 ≤ breakoutLookback block.lookback := le_coerceInt _ (by decide)
  have htrigger := h.trigger
  unfold MomentumConfig.belowTrendLayer at hlayer
  split at hlayer
  · next hacts =>
      have hrange : layerRange config = breakoutLookback block.lookback := by
        unfold layerRange
        rw [hlayer]
      unfold breakoutNeed at htrigger
      dsimp only at htrigger
      rw [hrange] at htrigger
      refine breakoutLevel_reads h.prior (by omega) ?_
      rw [length_priorCandles]
      rcases hacts with hbreakout | hcluster
      · rw [hbreakout] at htrigger
        have hlayerRange := le_wider_left (breakoutLookback block.lookback)
          (breakoutLookback config.breakoutLookback)
        dsimp only at htrigger
        omega
      · rw [hcluster] at htrigger
        dsimp only at htrigger
        split at htrigger <;> omega
  · cases hlayer

theorem Covers.trend_ne (h : Covers config candles) :
    trendGate config candles currentPrice ≠ some .insufficientHistory := by
  have hneed := (needs_le_momentumRequiredWindow config).2.2.1.trans h.required
  intro hgate
  unfold trendGate at hgate
  split at hgate
  · cases hgate
  · next tf hfilter =>
      dsimp only at hgate
      have hgateNeed : trendGateNeed config = trendPeriod tf.period + tf.slope := by
        unfold trendGateNeed
        rw [hfilter]
      have hlength : trendPeriod tf.period + tf.slope ≤ candles.length := by
        refine le_trans ?_ hneed
        rw [← hgateNeed]
        unfold trendNeed
        split
        · exact le_wider_right _ _
        · exact le_rfl
      rw [if_neg (not_lt.mpr hlength)] at hgate
      obtain ⟨line, -, hgate⟩ := Option.bind_eq_some_iff.mp hgate
      obtain ⟨price, -, hgate⟩ := Option.bind_eq_some_iff.mp hgate
      split at hgate
      · cases hgate
      · split at hgate
        · cases hgate
        · split at hgate
          · obtain ⟨prevLine, -, hgate⟩ := Option.bind_eq_some_iff.mp hgate
            split at hgate <;> cases hgate
          · cases hgate

theorem Covers.extension_ne (h : Covers config candles) :
    extensionGate config candles currentPrice ≠ some .extensionInsufficientHistory := by
  have hneed := (needs_le_momentumRequiredWindow config).2.2.2.1.trans h.required
  intro hgate
  unfold extensionGate at hgate
  split at hgate
  · cases hgate
  · next ext hguard =>
      dsimp only at hgate
      have hlength : extensionPeriod ext.period ≤ candles.length := by
        unfold extensionNeed at hneed
        rwa [hguard] at hneed
      rw [if_neg (not_lt.mpr hlength)] at hgate
      obtain ⟨line, -, hgate⟩ := Option.bind_eq_some_iff.mp hgate
      obtain ⟨price, -, hgate⟩ := Option.bind_eq_some_iff.mp hgate
      have hanswer := Option.some.inj hgate
      split at hanswer <;> cases hanswer

theorem Covers.strength_ne (h : Covers config candles) {reading : RelativeStrengthReading}
    (hreading : relativeStrengthGate candles config.relativeStrength symbol profileKv =
      some reading) : reading.gate ≠ .relativeStrengthInsufficientHistory := by
  have hneed := (needs_le_momentumRequiredWindow config).2.2.2.2.1.trans h.required
  unfold relativeStrengthNeed at hneed
  unfold relativeStrengthGate at hreading
  dsimp only at hneed hreading
  split at hreading
  · cases hreading
    nofun
  · next henabled =>
      rw [if_pos (by simpa using henabled)] at hneed
      obtain ⟨own, hown⟩ := relativeStrengthScore_reads h.positive hneed
      obtain ⟨score, hscore, hreading⟩ := Option.bind_eq_some_iff.mp hreading
      have hsome : ∃ d, score = some d := by
        unfold ownScore at hscore
        split at hscore
        · cases hscore
          exact ⟨_, rfl⟩
        · rw [hown] at hscore
          cases hscore
          exact ⟨_, rfl⟩
      obtain ⟨d, rfl⟩ := hsome
      obtain ⟨before, -, hreading⟩ := Option.bind_eq_some_iff.mp hreading
      cases hreading
      dsimp only
      split <;> nofun

theorem Covers.weekendGap_reads (h : Covers config candles)
    (hinterval : config.candleInterval = .h1) :
    ∃ reading, weekendGapReading candles config = some (some reading) ∧
      (reading.isEntryCandle = true → ∀ feed, Hourly feed → candles <:+ feed →
        ∀ last, candles.getLast? = some last →
          (∃ friday ∈ feed, friday.openTimeMs = last.openTimeMs - fridayLeadMs) →
            reading.refClose.isSome = true) := by
  unfold weekendGapReading
  rw [if_neg (by rw [hinterval]; simp)]
  split
  · exact ⟨_, rfl, fun hentry => absurd hentry Bool.false_ne_true⟩
  · next last hfilter =>
      obtain ⟨hlast, -⟩ := Option.filter_eq_some_iff.mp hfilter
      split
      · next hnone =>
          refine ⟨_, rfl, fun _ feed hfeed hwindow last' hlast' => ?_⟩
          rintro ⟨friday, hfriday, hopen⟩
          obtain rfl := Option.some.inj (hlast.symm.trans hlast')
          have hinside : friday ∈ candles := by
            refine hfeed.mem_window hwindow ((by decide : 51 ≤ defaultCandleWindow).trans h.default)
              hfriday hlast ?_
            rw [hopen]
            unfold fridayLeadMs hourMs
            omega
          exact absurd (beq_iff_eq.mpr hopen) (List.find?_eq_none.mp hnone friday hinside)
      · next ref href =>
          obtain ⟨refClose, -, hrefClose⟩ :=
            (h.positive ref (List.mem_of_find?_eq_some href)).close
          obtain ⟨close, -, hclose⟩ := (h.positive last (List.mem_of_getLast? hlast)).close
          rw [hrefClose, hclose]
          exact ⟨_, rfl, fun _ _ _ _ _ _ _ => rfl⟩

theorem Covers.wholeHistory (h : Covers config candles) (hfast : 0 < config.ema.fast)
    (hslow : config.ema.fast < config.ema.slow) :
    WholeHistory config candles currentPrice symbol profileKv where
  warmedUp := (needs_le_momentumRequiredWindow config).1.trans h.required
  averages := h.crossing hfast hslow
  breakout := by
    intro htrigger
    have hlength := h.trigger
    unfold breakoutNeed at hlength
    rw [htrigger] at hlength
    have hpos : 2 ≤ breakoutLookback config.breakoutLookback := le_coerceInt _ (by decide)
    have hmain := le_wider_right (layerRange config) (breakoutLookback config.breakoutLookback)
    dsimp only at hlength
    refine breakoutLevel_reads h.prior (by omega) ?_
    rw [length_priorCandles]
    omega
  layer := fun block hlayer => h.layerLevel hlayer
  layerLine := by
    intro block hlayer htrigger
    have hneed := (needs_le_momentumRequiredWindow config).2.2.1.trans h.required
    unfold MomentumConfig.belowTrendLayer at hlayer
    rw [if_pos (.inr htrigger)] at hlayer
    unfold trendNeed at hneed
    rw [if_pos ⟨htrigger, by rw [hlayer]; rfl⟩] at hneed
    exact (le_wider_left _ _).trans hneed
  layerCalm := lt_of_lt_of_le (by decide) h.default
  impulse := by
    intro htrigger
    have hlength := h.trigger
    unfold breakoutNeed at hlength
    rw [htrigger] at hlength
    exact impulseReading_reads h.positive hlength
  cluster := by
    intro htrigger
    have hlength := h.trigger
    unfold breakoutNeed at hlength
    rw [htrigger] at hlength
    dsimp only at hlength
    refine maClusterReading_reads h.positive ?_
    split at hlength <;> omega
  exhaustion := by
    intro htrigger
    have hlength := h.trigger
    unfold breakoutNeed at hlength
    rw [htrigger] at hlength
    exact exhaustionReading_reads h.positive hlength
  obvLead := by
    intro htrigger
    have hlength := h.trigger
    unfold breakoutNeed at hlength
    rw [htrigger] at hlength
    exact obvLeadReading_reads h.positive hlength
  weekendGap := fun _ hinterval => h.weekendGap_reads hinterval
  trend := h.trend_ne
  extension := h.extension_ne
  strength := fun _ => h.strength_ne

end Covered

/-! ### What a tick reports -/

/-- The refusals that say a window is too short. -/
def EntryBlockerReason.shortWindow : EntryBlockerReason → Bool
  | insufficientHistory => true
  | extensionInsufficientHistory => true
  | relativeStrengthInsufficientHistory => true
  | _ => false

/-- The output blames nothing on a short window. -/
def MomentumOutput.fullyInformed (out : MomentumOutput) : Prop :=
  out.overrideDeclineReason ≠ some "warming-up" ∧
    ∀ reason, out.nextState.entryBlocker = some reason → reason.shortWindow = false

theorem fullyInformed_hold {state : MomentumState} {metrics : List MetricEntry}
    {blocker : Option EntryBlockerReason}
    (h : ∀ reason, blocker = some reason → reason.shortWindow = false) :
    (hold state metrics blocker).fullyInformed := ⟨nofun, h⟩

section Tick

variable {input : MomentumInput} {state : MomentumState} {candles : List Candle}
  {lastCandle : Candle}

theorem entryVeto_shortWindow {gate : TrendGate} {layer : Option EntryLayer}
    {reason : EntryBlockerReason} (h : Covers input.config candles)
    (hgate : gate ≠ .insufficientHistory)
    (hveto : entryVeto input state candles lastCandle gate layer = some (some reason)) :
    reason.shortWindow = false := by
  unfold entryVeto at hveto
  split at hveto
  · cases hveto
    rfl
  · split at hveto
    · next blocked hblocked =>
        cases hveto
        obtain ⟨hreason, -⟩ := Option.filter_eq_some_iff.mp hblocked
        cases gate <;> cases hreason <;> first | rfl | exact absurd rfl hgate
    · obtain ⟨extension, hextension, hveto⟩ := Option.bind_eq_some_iff.mp hveto
      cases extension with
      | overextended =>
          cases hveto
          rfl
      | extensionInsufficientHistory => exact absurd hextension h.extension_ne
      | pass =>
          obtain ⟨strength, hstrength, hveto⟩ := Option.bind_eq_some_iff.mp hveto
          have hcovered := h.strength_ne hstrength
          have hreason := Option.some.inj hveto
          generalize strength.gate = answer at hcovered hreason
          cases answer with
          | pass => cases hreason
          | relativeStrength =>
              cases hreason
              rfl
          | relativeStrengthInsufficientHistory => exact absurd rfl hcovered

theorem shortWindow_of_sizeEntry {config : MomentumConfig} {reason : EntryBlockerReason}
    (h : sizeEntry config input.account input.market.symbolInfo.quoteAsset input.market.currentPrice
      input.market.symbolInfo.filters candles = some (.error reason)) :
    reason.shortWindow = false := by
  obtain ⟨budget, -, h⟩ := Option.bind_eq_some_iff.mp h
  cases budget with
  | error skip =>
      cases h
      cases skip <;> rfl
  | ok budget =>
      obtain ⟨stop, -, h⟩ := Option.bind_eq_some_iff.mp h
      have hskip := Option.some.inj h
      generalize computeEntryQuantity budget input.market.currentPrice
        input.market.symbolInfo.filters stop = sized at hskip
      cases sized with
      | error skip =>
          cases hskip
          cases skip <;> rfl
      | ok quantity => cases hskip

theorem fullyInformed_placeEntry {layer : Option EntryLayer} {out : MomentumOutput}
    (h : placeEntry input state candles lastCandle layer = some out) : out.fullyInformed := by
  obtain ⟨sized, hsized, h⟩ := Option.bind_eq_some_iff.mp h
  cases sized with
  | error reason =>
      cases h
      refine fullyInformed_hold ?_
      intro blocked hblocked
      cases hblocked
      exact shortWindow_of_sizeEntry hsized
  | ok quantity =>
      cases h
      exact ⟨nofun, nofun⟩

theorem fullyInformed_evaluateEntry {x : Crossing} {out : MomentumOutput}
    (hcovers : Covers input.config candles)
    (h : evaluateEntry input state x candles lastCandle = some out) : out.fullyInformed := by
  unfold evaluateEntry at h
  split at h
  · cases h
    refine ⟨?_, ?_⟩
    · dsimp only
      split
      · decide
      · nofun
    · rintro reason hreason
      cases hreason
      rfl
  · obtain ⟨entry, -, h⟩ := Option.bind_eq_some_iff.mp h
    obtain ⟨gate, hgate, h⟩ := Option.bind_eq_some_iff.mp h
    obtain ⟨below, -, h⟩ := Option.bind_eq_some_iff.mp h
    have hgateAnswer : gate ≠ .insufficientHistory := by
      rintro rfl
      exact hcovers.trend_ne hgate
    dsimp only at h
    split at h
    · obtain ⟨veto, hveto, h⟩ := Option.bind_eq_some_iff.mp h
      cases veto with
      | some reason =>
          cases h
          refine fullyInformed_hold ?_
          intro blocked hblocked
          cases hblocked
          exact entryVeto_shortWindow hcovers hgateAnswer hveto
      | none => exact fullyInformed_placeEntry h
    · cases h
      exact fullyInformed_hold nofun

theorem fullyInformed_evaluateExit {entryPrice : DecimalString} {crossDown : Bool}
    {out : MomentumOutput}
    (h : evaluateExit input state entryPrice crossDown candles lastCandle = some out) :
    out.fullyInformed := by
  obtain ⟨r, -, h⟩ := Option.bind_eq_some_iff.mp h
  split at h
  · cases h
    unfold exitPosition
    split
    · refine ⟨?_, nofun⟩
      dsimp only
      split
      · decide
      · nofun
    · split
      · next skip _ =>
          refine ⟨?_, nofun⟩
          dsimp only
          split
          · cases skip <;> decide
          · nofun
      · exact ⟨nofun, nofun⟩
  · obtain ⟨arm, -, h⟩ := Option.bind_eq_some_iff.mp h
    obtain ⟨nativeHigh, -, h⟩ := Option.bind_eq_some_iff.mp h
    cases h
    exact ⟨nofun, nofun⟩

theorem fullyInformed_computeTick {out : MomentumOutput}
    (hcovers : Covers input.config input.closedCandles) (h : computeTick input = some out) :
    out.fullyInformed := by
  obtain ⟨decided, hdecided, h⟩ := Option.bind_eq_some_iff.mp h
  obtain ⟨publish, -, h⟩ := Option.bind_eq_some_iff.mp h
  have hinformed : decided.fullyInformed := by
    have hneed := (needs_le_momentumRequiredWindow input.config).1.trans hcovers.required
    have hpos : 0 < input.closedCandles.length := lt_of_lt_of_le (Nat.succ_pos _) hneed
    obtain ⟨last, -, hlast⟩ := exists_getLast? hpos
    unfold decideTick at hdecided
    dsimp only at hdecided
    rw [hlast] at hdecided
    dsimp only at hdecided
    rw [if_neg (not_lt.mpr hneed)] at hdecided
    obtain ⟨x, -, hdecided⟩ := Option.bind_eq_some_iff.mp hdecided
    split at hdecided
    · exact fullyInformed_evaluateEntry hcovers hdecided
    · exact fullyInformed_evaluateExit hdecided
  cases h
  exact hinformed

end Tick

/-! ### The Friday candle of a held position -/

/-- The weekend-gap rule fired on an earlier window of the feed, on the candle a stamp names. -/
def EnteredOn (feed : List Candle) (stampMs : ℤ) : Prop :=
  ∃ (config : MomentumConfig) (window : List Candle) (lastCandle : Candle)
    (reading : WeekendGapReading), (∀ c ∈ window, c ∈ feed) ∧ window.getLast? = some lastCandle ∧
      lastCandle.closeTimeMs = stampMs ∧ weekendGapReading window config = some (some reading) ∧
      reading.fired = true

/-- A rule that fired had its Friday candle in the window. -/
theorem EnteredOn.friday {feed : List Candle} {stampMs : ℤ} (hfeed : Hourly feed)
    (h : EnteredOn feed stampMs) :
    ∃ friday ∈ feed, friday.openTimeMs = stampMs + 1 - hourMs - fridayLeadMs := by
  obtain ⟨config, window, lastCandle, reading, hwindow, hlast, rfl, hreading, hfired⟩ := h
  unfold weekendGapReading at hreading
  split at hreading
  · cases hreading
  · split at hreading
    · cases hreading
      cases hfired
    · next last hfilter =>
        obtain ⟨hlast', -⟩ := Option.filter_eq_some_iff.mp hfilter
        obtain rfl := Option.some.inj (hlast.symm.trans hlast')
        split at hreading
        · cases hreading
          cases hfired
        · next friday hfriday =>
            have hopen := List.find?_some hfriday
            rw [beq_iff_eq] at hopen
            have hclosing := hfeed.closing lastCandle (hwindow _ (List.mem_of_getLast? hlast))
            exact ⟨friday, hwindow _ (List.mem_of_find?_eq_some hfriday), by omega⟩

theorem weekendGapTarget_held {config : MomentumConfig} {feed candles : List Candle}
    {lastCandle : Candle} {stampMs : ℤ} (hcovers : Covers config candles) (hfeed : Hourly feed)
    (hentered : EnteredOn feed stampMs) (hwindow : candles <:+ feed)
    (hlast : candles.getLast? = some lastCandle)
    (hheld : lastCandle.closeTimeMs - stampMs <
      (weekendGapSettings config.weekendGap).maxHoldBars * hourMs) :
    ∃ target, weekendGapTarget candles stampMs = some (some target) := by
  have hspan : (weekendGapSettings config.weekendGap).maxHoldBars + referenceSpan ≤
      candles.length := by
    cases hblock : config.weekendGap with
    | none => exact le_trans (by decide) hcovers.default
    | some block =>
        have hneed := (needs_le_momentumRequiredWindow config).2.2.2.2.2.trans hcovers.required
        unfold gapNeed weekendGapNeed at hneed
        rw [hblock] at hneed
        exact hneed
  obtain ⟨friday, hmem, hopen⟩ := hentered.friday hfeed
  have hinside : friday ∈ candles := by
    refine hfeed.mem_window hwindow hspan hmem hlast ?_
    have hclosing := hfeed.closing lastCandle (hwindow.mem (List.mem_of_getLast? hlast))
    have : referenceSpan = 52 := rfl
    unfold fridayLeadMs hourMs at *
    push_cast
    omega
  obtain ⟨close, -, hclose⟩ := (hcovers.positive friday hinside).close
  unfold weekendGapTarget
  cases hfound : candles.find? (·.openTimeMs == stampMs + 1 - hourMs - fridayLeadMs) with
  | none =>
      have hmissed := List.find?_eq_none.mp hfound friday hinside
      rw [beq_iff_eq] at hmissed
      exact absurd hopen hmissed
  | some ref =>
      obtain ⟨refClose, -, hrefClose⟩ :=
        (hcovers.positive ref (List.mem_of_find?_eq_some hfound)).close
      exact ⟨num refClose, by simp only [hrefClose, Option.map_some]⟩

/-- The window a profile asks for is enough for every rule it switches on: each trigger has its
reading, no gate and no output blames a short window, and a held weekend-gap position finds its
Friday candle on every tick before its time stop. -/
theorem momentum_window_suffices (input : MomentumInput)
    (hfast : 0 < input.config.ema.fast) (hslow : input.config.ema.fast < input.config.ema.slow)
    (hneed : momentumRequiredWindow input.config ≤ maxCandleWindow)
    (hlength : resolveCandleWindow (some (momentumRequiredWindow input.config)) ≤
      input.closedCandles.length)
    (hpositive : ∀ c ∈ input.closedCandles, PositiveCandle c) :
    WholeHistory input.config input.closedCandles input.market.currentPrice input.market.symbol
        input.profileKv ∧
      (∀ out, computeTick input = some out → out.fullyInformed) ∧
      ∀ (feed : List Candle) (stampMs : ℤ) (lastCandle : Candle), Hourly feed →
        EnteredOn feed stampMs → input.closedCandles <:+ feed →
        input.closedCandles.getLast? = some lastCandle →
        lastCandle.closeTimeMs - stampMs <
          (weekendGapSettings input.config.weekendGap).maxHoldBars * hourMs →
        ∃ target, weekendGapTarget input.closedCandles stampMs = some (some target) := by
  have hcovers := Covers.of_window hneed hlength hpositive
  refine ⟨hcovers.wholeHistory hfast hslow, fun out => fullyInformed_computeTick hcovers, ?_⟩
  intro feed stampMs lastCandle hfeed hentered hwindow hlast hheld
  exact weekendGapTarget_held hcovers hfeed hentered hwindow hlast hheld

/-- A feed of hours whose hundred-and-fiftieth opens on a Sunday at ten in the evening, two percent
under the Friday close. -/
def weekendBar (i : ℕ) : Candle where
  openTimeMs := (112 + i) * hourMs
  closeTimeMs := (112 + i) * hourMs + hourMs - 1
  openPrice := "100"
  high := "101"
  low := "97"
  close := if i = 150 then "98" else "100"
  volume := "10"
  isClosed := true

def weekendFeed (n : ℕ) : List Candle := (List.range n).map weekendBar

theorem positiveCandle_weekendBar (i : ℕ) : PositiveCandle (weekendBar i) where
  openPrice := ⟨100, by norm_num, (by decide +kernel : parse "100" = some (num 100))⟩
  high := ⟨101, by norm_num, (by decide +kernel : parse "101" = some (num 101))⟩
  low := ⟨97, by norm_num, (by decide +kernel : parse "97" = some (num 97))⟩
  close := by
    unfold weekendBar
    dsimp only
    split
    · exact ⟨98, by norm_num, by decide +kernel⟩
    · exact ⟨100, by norm_num, by decide +kernel⟩
  volume := ⟨10, by norm_num, (by decide +kernel : parse "10" = some (num 10))⟩

theorem hourly_weekendFeed (n : ℕ) : Hourly (weekendFeed n) where
  spaced := by
    unfold weekendFeed
    rw [List.pairwise_map]
    refine List.Pairwise.imp ?_ List.pairwise_lt_range
    intro i j hij
    have hhours : ((112 + i : ℕ) : ℤ) + 1 ≤ (112 + j : ℕ) := by omega
    have hscaled := mul_le_mul_of_nonneg_right hhours (by decide : (0 : ℤ) ≤ hourMs)
    unfold weekendBar
    push_cast at hscaled ⊢
    linarith
  closing := by
    intro c hc
    obtain ⟨i, -, rfl⟩ := List.mem_map.mp hc
    rfl

/-- A held position of the weekend-gap rule, forty-nine hours in. -/
def weekendInput : MomentumInput where
  nowMs := 0
  profile := ⟨"p"⟩
  config := { defaultMomentumConfig with entryTrigger := some .weekendGap }
  state := initialMomentumState
  market :=
    { symbol := "BTCUSDT"
      currentPrice := "99"
      candlesByInterval := fun _ => some (weekendFeed 200)
      indicatorsByInterval := fun _ => none
      symbolInfo :=
        ⟨"BTCUSDT", "BTC", "USDT", ⟨"10", "0.01", "0.01", "0.01", "0.01", none, none⟩⟩ }
  account := ⟨fun _ => none, true, none⟩
  openOrders := []
  bundle := ⟨none⟩
  profileKv := none

theorem closedCandles_weekendInput : weekendInput.closedCandles = weekendFeed 200 := by
  show (weekendFeed 200).filter (·.isClosed) = weekendFeed 200
  rw [List.filter_eq_self]
  intro c hc
  obtain ⟨i, -, rfl⟩ := List.mem_map.mp hc
  rfl

theorem enteredOn_weekendFeed : EnteredOn (weekendFeed 200) (263 * hourMs - 1) := by
  refine ⟨weekendInput.config, weekendFeed 151, weekendBar 150, _, ?_, by decide +kernel,
    by decide, (by decide +kernel : weekendGapReading (weekendFeed 151) weekendInput.config =
      some (some ⟨true, some "100", some (num 2), true⟩)), rfl⟩
  intro c hc
  obtain ⟨i, hi, rfl⟩ := List.mem_map.mp hc
  rw [List.mem_range] at hi
  exact List.mem_map.mpr ⟨i, List.mem_range.mpr (by omega), rfl⟩

theorem weekend_window_suffices :
    WholeHistory weekendInput.config weekendInput.closedCandles "99" "BTCUSDT" none ∧
      ∃ target, weekendGapTarget weekendInput.closedCandles (263 * hourMs - 1) =
        some (some target) := by
  have hsuffices := momentum_window_suffices weekendInput (by decide) (by decide)
    (by decide +kernel) (by rw [closedCandles_weekendInput]; decide +kernel) (by
      rw [closedCandles_weekendInput]
      intro c hc
      obtain ⟨i, -, rfl⟩ := List.mem_map.mp hc
      exact positiveCandle_weekendBar i)
  exact ⟨hsuffices.1, hsuffices.2.2 (weekendFeed 200) _ (weekendBar 199) (hourly_weekendFeed 200)
    enteredOn_weekendFeed (by rw [closedCandles_weekendInput])
    (by rw [closedCandles_weekendInput]; decide +kernel) (by decide +kernel)⟩

end TradingBot.Momentum
