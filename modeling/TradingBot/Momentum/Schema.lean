import TradingBot.Core.ProtectiveStop
import TradingBot.Indicators

/-!
# Momentum: configuration, state and bundle

The records a momentum tick reads. The worker hands the strategy its
configuration unparsed, so every block the schema makes optional and every leaf
it defaults is an `Option` here, and the readers below coerce what is missing.
The state's decimals may have been printed by the program itself.
-/

namespace TradingBot.Momentum

open Decimal

/-! ### Coercions -/

/-- An integer at or above `min`, else the fallback. -/
def coerceInt (raw : Option ℤ) (min fallback : ℕ) : ℕ :=
  match raw with
  | some n => if (min : ℤ) ≤ n then n.toNat else fallback
  | none => fallback

/-- A positive decimal, else the fallback. -/
def coerceDec (raw : Option String) (fallback : ℚ) : Decimal :=
  match raw.bind parse with
  | some d => if d.gt (num 0) then d else num fallback
  | none => num fallback

/-! ### Configuration -/

inductive EntryTrigger where
  | cross
  | trend
  | breakout
  | impulse
  | maCluster
  | exhaustion
  | obvLead
  | weekendGap
deriving DecidableEq

structure MomentumEma where
  fast : ℕ
  slow : ℕ

inductive ProtectiveStopMode where
  | priced
  | nativeTrail
deriving DecidableEq

structure MomentumProtectiveStop where
  enabled : Bool
  mode : Option ProtectiveStopMode
  limitOffsetPercentage : Option String
  minRearmDriftPct : Option String
  onBandBlock : Option OnBandBlock

inductive TrendSide where
  | above
  | below
deriving DecidableEq

structure MomentumTrendFilter where
  enabled : Bool
  side : Option TrendSide
  maType : Option MaKind
  period : Option ℤ
  requireRising : Bool
  slopeLookbackBars : Option ℤ

structure MomentumEntryExtension where
  enabled : Bool
  maType : Option MaKind
  period : Option ℤ
  maxPercent : Option String

structure MomentumAtrTrailingStop where
  enabled : Bool
  period : Option ℤ
  multiple : Option String

structure MomentumBelowTrendBreakout where
  enabled : Bool
  lookback : Option ℤ
  atrMultiple : Option String
  maxChoppiness : Option String

structure MomentumRiskSizing where
  enabled : Bool
  riskPct : Option String

structure MomentumProfitTrail where
  enabled : Bool
  activationPct : Option String
  trailPct : Option String
  ratchetMinutes : Option ℤ
deriving DecidableEq

inductive SizingMode where
  | fixed
  | percentOfAccount

structure MomentumEntrySizing where
  mode : SizingMode
  amount : Option String
  percent : Option String

structure MomentumImpulse where
  volumeLookback : Option ℤ
  volumeMultiple : Option String
  riseAtrMultiple : Option String

structure MomentumExhaustion where
  maxChoppiness : Option String
  minBelowAverage : Option String
  maxRsi : Option String

structure MomentumObvLead where
  lookback : Option ℤ
  maxChoppiness : Option String

structure MomentumWeekendGap where
  minGap : Option String
  maxHoldBars : Option ℤ

structure MomentumMaCluster where
  maxSpread : Option String
  maxChoppiness : Option String
  maxAtrPercentile : Option String
  confirmBreak : Bool

structure MomentumRelativeStrength where
  enabled : Bool
  lookbackBars : Option ℤ
  topK : Option ℤ

inductive AccountCapMode where
  | off
  | percentOfAccount

structure MomentumAccountCap where
  mode : AccountCapMode
  percent : Option String

structure MomentumConfig where
  candleInterval : CandleInterval
  entrySizing : Option MomentumEntrySizing
  accountCap : Option MomentumAccountCap
  ema : MomentumEma
  trailingStopPct : Option String
  atrTrailingStop : Option MomentumAtrTrailingStop
  riskSizing : Option MomentumRiskSizing
  profitTrail : Option MomentumProfitTrail
  entryMarginPct : Option String
  entryTrigger : Option EntryTrigger
  breakoutLookback : Option ℤ
  belowTrendBreakout : Option MomentumBelowTrendBreakout
  impulse : Option MomentumImpulse
  exhaustion : Option MomentumExhaustion
  obvLead : Option MomentumObvLead
  weekendGap : Option MomentumWeekendGap
  maCluster : Option MomentumMaCluster
  relativeStrength : Option MomentumRelativeStrength
  protectiveStop : Option MomentumProtectiveStop
  trendFilter : Option MomentumTrendFilter
  entryExtension : Option MomentumEntryExtension

/-- The configuration a new profile is seeded with, its schema's defaults filled in. -/
def defaultMomentumConfig : MomentumConfig where
  candleInterval := .h1
  entrySizing := some ⟨.fixed, some "15", some ""⟩
  accountCap := none
  ema := ⟨9, 21⟩
  trailingStopPct := some "0.05"
  atrTrailingStop := none
  riskSizing := none
  profitTrail := none
  entryMarginPct := none
  entryTrigger := none
  breakoutLookback := none
  belowTrendBreakout := none
  impulse := none
  exhaustion := none
  obvLead := none
  weekendGap := none
  maCluster := none
  relativeStrength := none
  protectiveStop := some ⟨true, some .priced, some "0.98", some "0.001", some .notify⟩
  trendFilter := none
  entryExtension := some ⟨true, some .sma, some 50, some "0.4"⟩

/-! ### State -/

inductive EntryBlockerReason where
  | alreadyEnteredThisCandle
  | heldWithoutBasis
  | insufficientHistory
  | belowTrend
  | aboveTrend
  | fallingTrend
  | overextended
  | extensionInsufficientHistory
  | relativeStrength
  | relativeStrengthInsufficientHistory
  | sizingUnconfigured
  | capReached
  | riskSizingUnavailable
  | minQty
  | minNotional
  | entryBelowStopNotional
  | invalidFilters
deriving DecidableEq

def EntryBlockerReason.text : EntryBlockerReason → String
  | alreadyEnteredThisCandle => "already-entered-this-candle"
  | heldWithoutBasis => "held-without-basis"
  | insufficientHistory => "insufficient-history"
  | belowTrend => "below-trend"
  | aboveTrend => "above-trend"
  | fallingTrend => "falling-trend"
  | overextended => "overextended"
  | extensionInsufficientHistory => "extension-insufficient-history"
  | relativeStrength => "relative-strength"
  | relativeStrengthInsufficientHistory => "relative-strength-insufficient-history"
  | sizingUnconfigured => "sizing-unconfigured"
  | capReached => "cap-reached"
  | riskSizingUnavailable => "risk-sizing-unavailable"
  | minQty => "min-qty"
  | minNotional => "min-notional"
  | entryBelowStopNotional => "entry-below-stop-notional"
  | invalidFilters => "invalid-filters"

inductive ExitBlockerReason where
  | nativeTrailResting
  | profitLegArmed
  | nativeTrailUnavailable
  | protectiveStopUnplaced
  | pricedStopResting
deriving DecidableEq

structure ExitBlocker where
  reason : ExitBlockerReason
  changeKey : String
  detail : Detail
deriving DecidableEq

/-- The best high seen for one native trailing order. -/
structure NativeTrailMark where
  orderId : ℕ
  high : DecimalString
deriving DecidableEq

/-- The rule that opened a position, where it is not the primary one. -/
inductive EntryLayer where
  | belowTrend
  | weekendGap
deriving DecidableEq

structure MomentumState where
  schemaVersion : String
  entryPrice : Option DecimalString
  highSinceEntry : Option DecimalString
  profitHigh : Option DecimalString
  heldQuantity : Option DecimalString
  lastEntryCandleMs : Option ℤ
  profitTrailSinceMs : Option ℤ
  entryBlocker : Option EntryBlockerReason
  protectiveStopBlocker : Option ProtectiveStopBlocker
  exitBlocker : Option ExitBlocker
  nativeTrail : Option NativeTrailMark
  entryLayer : Option EntryLayer
deriving DecidableEq

def momentumStateSchemaVersion : String := "1.0.0"

def initialMomentumState : MomentumState where
  schemaVersion := momentumStateSchemaVersion
  entryPrice := none
  highSinceEntry := none
  profitHigh := none
  heldQuantity := none
  lastEntryCandleMs := none
  profitTrailSinceMs := none
  entryBlocker := none
  protectiveStopBlocker := none
  exitBlocker := none
  nativeTrail := none
  entryLayer := none

/-! ### Bundle, input and output -/

structure MomentumBundle where
  override : Option Override

/-- The profile's key-value snapshot, in its own order. -/
abbrev ProfileKv := List (String × Detail)

structure MomentumInput extends TickInput MomentumConfig MomentumState MomentumBundle where
  profileKv : Option ProfileKv

/-- The closed candles of the interval the strategy trades on. -/
def MomentumInput.closedCandles (input : MomentumInput) : List Candle :=
  ((input.market.candlesByInterval input.config.candleInterval).getD []).filter (·.isClosed)

/-- The one-minute candles, fed for every symbol whatever its interval. -/
def MomentumInput.oneMinuteCandles (input : MomentumInput) : List Candle :=
  (input.market.candlesByInterval .m1).getD []

end TradingBot.Momentum
