import TradingBot.Core.ProtectiveStop
import TradingBot.Indicators

/-!
# Trailing-trade: configuration, state and bundle

The records a trailing-trade tick reads. The worker hands the strategy its
configuration unparsed, so a block the source reads with an optional access is
an `Option` here; decimals in a configuration are the operator's own text. The
state's decimals may have been printed by the program itself.
-/

namespace TradingBot.TrailingTrade

open Decimal

/-! ### Technicals -/

inductive TechnicalsRecommendation where
  | strongBuy
  | buy
  | neutral
  | sell
  | strongSell
deriving DecidableEq

def TechnicalsRecommendation.text : TechnicalsRecommendation → String
  | strongBuy => "STRONG_BUY"
  | buy => "BUY"
  | neutral => "NEUTRAL"
  | sell => "SELL"
  | strongSell => "STRONG_SELL"

structure TechnicalsSignal where
  recommendation : TechnicalsRecommendation
  receivedAtMs : ℤ

/-- One watched interval with the operator's per-recommendation toggles. -/
structure TechnicalsIntervalConfig where
  interval : String
  whenStrongBuy : Bool
  whenBuy : Bool
  whenSell : Bool
  whenStrongSell : Bool
  whenNeutral : Bool
  advisory : Bool

inductive IfExpires where
  | doNotBuy
  | allowAnyway
deriving DecidableEq

def IfExpires.text : IfExpires → String
  | doNotBuy => "do-not-buy"
  | allowAnyway => "allow-anyway"

structure TechnicalsBundleConfig where
  useOnlyWithinMin : ℤ
  ifExpires : IfExpires
  intervals : List TechnicalsIntervalConfig

structure TechnicalsIntervalSignal where
  interval : String
  signal : Option TechnicalsSignal

structure TechnicalsBundle where
  config : TechnicalsBundleConfig
  signals : List TechnicalsIntervalSignal

/-- The recommendations a row lets a buy pass on. -/
def allowBuySet (row : TechnicalsIntervalConfig) : List TechnicalsRecommendation :=
  (if row.whenStrongBuy then [.strongBuy] else []) ++ (if row.whenBuy then [.buy] else [])

def forceSellTriggers (row : TechnicalsIntervalConfig) : List TechnicalsRecommendation :=
  (if row.whenSell then [.sell] else []) ++ (if row.whenStrongSell then [.strongSell] else []) ++
    (if row.whenNeutral then [.neutral] else [])

/-! ### Configuration -/

inductive MaBias where
  | off
  | below
  | above
deriving DecidableEq

structure IndicatorGate where
  rsiMaxBuy : String
  smaBias : MaBias
  emaBias : MaBias

structure MeanReversionGate where
  entryZScoreMax : String
  lookbackCandles : ℕ

structure AutoTriggerBuy where
  enabled : Bool
  triggerAfterMinutes : ℤ
  rescheduleWhileDisabled : Bool

structure AtrTrailing where
  enabled : Bool
  fromEntry : Bool
  period : ℕ
  multiplier : String

structure ProtectiveStopConfig where
  enabled : Bool
  limitOffsetPercentage : Option String
  onBandBlock : Option OnBandBlock

structure BreakEven where
  enabled : Bool
  armAtPercentage : String
  floorPercentage : String

structure RegimeExposureConfig where
  enabled : Bool
  neutralScalar : String

structure RegimeRearm where
  enabled : Bool
  interval : CandleInterval
  minRecommendation : TechnicalsRecommendation

structure RegimeOnBear where
  exitToCash : Bool
  blockEntry : Bool
  suppressPromotion : Bool
  rearm : Option RegimeRearm

inductive BullHoldRoom where
  | tight
  | normal
  | loose

structure BullHold where
  enabled : Bool
  room : BullHoldRoom

structure BullPyramid where
  enabled : Bool
  stepPercentage : String
  maxAdds : ℕ
  maxPurchaseAmount : String

structure RegimeOnBull where
  hold : Option BullHold
  pyramid : Option BullPyramid
  requireEntry : Bool

structure TTRegime where
  ma : MaKind
  period : ℕ
  confirmBars : ℕ
  exposure : Option RegimeExposureConfig
  onBear : Option RegimeOnBear
  onBull : Option RegimeOnBull

inductive SizingMode where
  | fixed
  | percentOfAccount
deriving DecidableEq

structure EntrySizing where
  mode : SizingMode
  amount : String
  percent : String

inductive AccountCapMode where
  | off
  | amount
  | percent

structure AccountCap where
  mode : AccountCapMode
  amount : String
  percent : String

structure TTFees where
  takerBps : Option String
  makerBps : Option String

inductive EntryMode where
  | market
  | maker
deriving DecidableEq

structure TTExecution where
  entryMode : EntryMode
  makerOffsetBps : Option String
  entryTimeoutBars : Option ℕ

structure GridLevel where
  triggerPercentage : String
  stopPricePercentage : String
  limitPricePercentage : String
  minPurchaseAmount : String
  maxPurchaseAmount : String

inductive FirstBuyTriggerBasis where
  | immediate
  | lowestPrice
deriving DecidableEq

structure BuyConfig where
  enabled : Bool
  entrySizing : Option EntrySizing
  avgEntryPriceRemoveThreshold : String
  gridRepriceMinDriftPercent : String
  gridLevels : List GridLevel
  indicatorGate : Option IndicatorGate
  meanReversionGate : Option MeanReversionGate
  autoTriggerBuy : AutoTriggerBuy
  lossCooldownMinutes : ℤ
  firstBuyTriggerBasis : FirstBuyTriggerBasis
  candleLimit : ℕ
  maxSymbolExposureQuote : String
  maxPositionLossQuote : String
  accountCap : Option AccountCap

structure SellConfig where
  enabled : Bool
  stopLossPercentage : String
  triggerPercentage : String
  trailingStopPercentage : String
  atrTrailing : AtrTrailing
  protectiveStop : Option ProtectiveStopConfig
  breakEven : Option BreakEven
  discoveryTimeStopBars : ℕ
  timeStopBars : ℕ
  forceSellMinProfitPercent : String

structure TTForceBuyOverride where
  checkTechnicals : Bool

structure TTTechnicals where
  entryConfirmReads : ℕ
  intervals : List TechnicalsIntervalConfig
  forceSellConfirmMinutes : Option ℤ
  forceSellReentryCooldownMinutes : Option ℤ

structure TTConfig where
  candleInterval : CandleInterval
  buy : BuyConfig
  sell : SellConfig
  regime : Option TTRegime
  forceBuyOverride : TTForceBuyOverride
  technicals : TTTechnicals
  fees : Option TTFees
  execution : Option TTExecution

/-! ### State -/

inductive EntryBlockerReason where
  | awaitingTriggerPrice
  | regimeDowntrend
  | regimeUnavailable
  | regimeExitBear
  | regimeNotUptrend
  | technicalsNoSignal
  | technicalsStale
  | technicalsSell
  | technicalsDisallowed
  | indicatorRsi
  | indicatorSma
  | indicatorEma
  | indicatorMeanReversion
  | indicatorUnavailable
  | exposureCap
  | accountExposureCap
  | lossBudget
  | forceSellCooldown
  | lossCooldown
  | technicalsConfirming
  | discoveryNoStop
  | chaseGuard
  | knifeGuard
  | minQty
  | minNotional
  | entryBelowStopNotional
  | minPurchase
  | invalidFilters
  | sizingUnconfigured
  | capReached
deriving DecidableEq

def EntryBlockerReason.text : EntryBlockerReason → String
  | awaitingTriggerPrice => "awaiting-trigger-price"
  | regimeDowntrend => "regime-downtrend"
  | regimeUnavailable => "regime-unavailable"
  | regimeExitBear => "regime-exit-bear"
  | regimeNotUptrend => "regime-not-uptrend"
  | technicalsNoSignal => "technicals-no-signal"
  | technicalsStale => "technicals-stale"
  | technicalsSell => "technicals-sell"
  | technicalsDisallowed => "technicals-disallowed"
  | indicatorRsi => "indicator-rsi"
  | indicatorSma => "indicator-sma"
  | indicatorEma => "indicator-ema"
  | indicatorMeanReversion => "indicator-mean-reversion"
  | indicatorUnavailable => "indicator-unavailable"
  | exposureCap => "exposure-cap"
  | accountExposureCap => "account-exposure-cap"
  | lossBudget => "loss-budget"
  | forceSellCooldown => "force-sell-cooldown"
  | lossCooldown => "loss-cooldown"
  | technicalsConfirming => "technicals-confirming"
  | discoveryNoStop => "discovery-no-stop"
  | chaseGuard => "chase-guard"
  | knifeGuard => "knife-guard"
  | minQty => "min-qty"
  | minNotional => "min-notional"
  | entryBelowStopNotional => "entry-below-stop-notional"
  | minPurchase => "min-purchase"
  | invalidFilters => "invalid-filters"
  | sizingUnconfigured => "sizing-unconfigured"
  | capReached => "cap-reached"

structure EntryBlocker where
  reason : EntryBlockerReason
  detail : Option Detail
deriving DecidableEq

inductive ExitBlockerReason where
  | sellDisabled
  | exitOrderOpen
  | exitUnsellable
  | exitConfigInvalid
  | stopInfeasibleDust
  | trailHighRaised
  | atrTrailAbovePrice
  | trailAbovePrice
  | awaitingSellArm
  | breakEvenFloorNotHit
  | breakEvenNotArmed
  | stopLossNotHit
  | timeStopPending
  | noExitConfigured
deriving DecidableEq

def ExitBlockerReason.text : ExitBlockerReason → String
  | sellDisabled => "sell-disabled"
  | exitOrderOpen => "exit-order-open"
  | exitUnsellable => "exit-unsellable"
  | exitConfigInvalid => "exit-config-invalid"
  | stopInfeasibleDust => "stop-infeasible-dust"
  | trailHighRaised => "trail-high-raised"
  | atrTrailAbovePrice => "atr-trail-above-price"
  | trailAbovePrice => "trail-above-price"
  | awaitingSellArm => "awaiting-sell-arm"
  | breakEvenFloorNotHit => "break-even-floor-not-hit"
  | breakEvenNotArmed => "break-even-not-armed"
  | stopLossNotHit => "stop-loss-not-hit"
  | timeStopPending => "time-stop-pending"
  | noExitConfigured => "no-exit-configured"

structure ExitBlocker where
  reason : ExitBlockerReason
  changeKey : String
  detail : Detail
deriving DecidableEq

structure TTState where
  schemaVersion : String
  avgEntryPrice : Option DecimalString
  heldQuantity : Option DecimalString
  disabledUntilMs : Option ℤ
  highSinceBuy : Option DecimalString
  breakEvenArmed : Bool
  currentGridTradeIndex : Option ℕ
  autoTriggerBuyAtMs : Option ℤ
  bullAddCount : Option ℕ
  lastBullAddPrice : Option DecimalString
  discoveryEntry : Bool
  entryAtMs : Option ℤ
  forceSellFirstSeenAtMs : Option ℤ
  forceSellCooldownUntilMs : Option ℤ
  lastLossExitAt : Option ℤ
  lastLossExitReason : Option String
  entryConfirmCount : ℕ
  entryBlocker : Option EntryBlocker
  protectiveStopBlocker : Option ProtectiveStopBlocker
  exitBlocker : Option ExitBlocker
deriving DecidableEq

def ttStateSchemaVersion : String := "2.0.0"

def initialTTState : TTState where
  schemaVersion := ttStateSchemaVersion
  avgEntryPrice := none
  heldQuantity := none
  disabledUntilMs := none
  highSinceBuy := none
  breakEvenArmed := false
  currentGridTradeIndex := none
  autoTriggerBuyAtMs := none
  bullAddCount := none
  lastBullAddPrice := none
  discoveryEntry := false
  entryAtMs := none
  forceSellFirstSeenAtMs := none
  forceSellCooldownUntilMs := none
  lastLossExitAt := none
  lastLossExitReason := none
  entryConfirmCount := 0
  entryBlocker := none
  protectiveStopBlocker := none
  exitBlocker := none

/-! ### Bundle -/

structure EntryHint where
  enterOnAdd : Bool
  high24h : Option String
  maxDistanceFrom24hHighPercent : Option String
  knifeCandles : Option ℤ
  knifeDropPercent : Option String

structure TTBundle where
  technicals : TechnicalsBundle
  override : Option Override
  entryHint : Option EntryHint

abbrev TTInput := TickInput TTConfig TTState TTBundle

abbrev TTOutput := TickOutput TTState

end TradingBot.TrailingTrade
