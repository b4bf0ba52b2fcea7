import TradingBot.Core.ArmSettles
import TradingBot.Core.BandWarning
import TradingBot.TrailingTrade.PreviewAgrees

/-!
# A clamped stop on the grid

In clamp mode the stop is raised to the band's floor with a margin of one
percent, and the arm then floors the trigger and its limit leg onto the tick
grid. The margin absorbs the two floorings exactly where it reaches the lowest
trigger of the grid whose limit leg clears the floor; on a coarse grid it does
not, and the stop that was raised to be accepted is refused.
-/

namespace TradingBot.TrailingTrade

open Decimal Grid

variable {input : TTInput} {state : TTState} {ps : ProtectiveStopConfig}

/-- A held position with a stop in clamp mode, every figure of which reads. -/
structure ClampReading (input : TTInput) (state : TTState) (ps : ProtectiveStopConfig) where
  band : PercentPriceBySideFilter
  filters : SizeFilters
  offsetText : String
  (avgEntry held stopPct tick offset ref down : ℚ)
  enabled : ps.enabled = true
  onBandBlock : ps.onBandBlock = some .clamp
  avgEntry_eq : safeDecimal state.avgEntryPrice = some (num avgEntry)
  held_eq : safeDecimal state.heldQuantity = some (num held)
  stopPct_eq : parse input.config.sell.stopLossPercentage = some (num stopPct)
  tick_eq : parse input.market.symbolInfo.filters.tickSize = some (num tick)
  offsetText_eq : ps.limitOffsetPercentage = some offsetText
  offset_eq : parse offsetText = some (num offset)
  filters_eq : parseFilters input.market.symbolInfo.filters = some filters
  ref_eq : parse input.market.currentPrice = some (num ref)
  band_eq : input.market.symbolInfo.filters.percentPriceBySide = some band
  down_eq : parse band.askMultiplierDown = some (num down)
  avgEntry_pos : 0 < avgEntry
  held_pos : 0 < held
  stopPct_pos : 0 < stopPct
  stopPct_lt : stopPct < 1
  tick_pos : 0 < tick
  offset_pos : 0 < offset
  offset_le : offset ≤ 1
  ref_pos : 0 < ref
  down_pos : 0 < down

namespace ClampReading

variable (r : ClampReading input state ps)

/-- The lowest limit price the band accepts. -/
def floor : ℚ := r.ref * r.down

/-- The trigger the clamp raises the stop to: the floor of the trigger, lifted by the margin. -/
def lifted : ℚ := r.floor / r.offset * (101 / 100)

/-- The lowest trigger on the grid whose limit leg, floored to the grid, clears the band. -/
def lowestTrigger : ℚ := ceilTo r.tick (ceilTo r.tick r.floor / r.offset)

def clampedStop : ℚ := floorTo r.tick r.lifted

def clampedLimit : ℚ := floorTo r.tick (r.clampedStop * r.offset)

theorem floor_pos : 0 < r.floor := mul_pos r.ref_pos r.down_pos

theorem floor_le_clampedLimit_iff : r.floor ≤ r.clampedLimit ↔ r.lowestTrigger ≤ r.lifted := by
  rw [clampedLimit, le_floorTo_iff r.tick_pos, ← div_le_iff₀ r.offset_pos, clampedStop,
    le_floorTo_iff r.tick_pos, lowestTrigger]

theorem positiveDecimal_ref :
    positiveDecimal input.market.currentPrice = some (num r.ref) := by
  simp [positiveDecimal, r.ref_eq, r.ref_pos]

theorem positiveDecimal_down :
    positiveDecimal r.band.askMultiplierDown = some (num r.down) := by
  simp [positiveDecimal, r.down_eq, r.down_pos]

theorem decOrNull_offset :
    decOrNull (some (.raw (ps.limitOffsetPercentage.getD defaultLimitOffset))) =
      some (num r.offset) := by
  rw [r.offsetText_eq, Option.getD_some, decOrNull]
  have hempty : r.offsetText ≠ "" := by
    intro hempty
    have hparse := r.offset_eq
    rw [hempty] at hparse
    cases hparse
  simp [DecimalString.isEmpty, hempty, r.offset_eq]

theorem resolved_eq (hclamped : (resolveTTStopLevel (num r.avgEntry) (num r.stopPct) (some ps)
      (marketBand input.market)).floorClamped = true) :
    resolveTTStopLevel (num r.avgEntry) (num r.stopPct) (some ps) (marketBand input.market) =
      ⟨num r.lifted, true⟩ ∧ r.lifted < r.ref := by
  simp only [resolveTTStopLevel, r.enabled, r.onBandBlock, r.decOrNull_offset, Bool.not_true,
    ne_eq, not_true_eq_false, decide_false, Bool.or_self, Bool.false_eq_true, ↓reduceIte,
    marketBand, Option.getD_some, r.band_eq, clampStopToExchangeFloor, r.positiveDecimal_ref,
    r.positiveDecimal_down, isFinite_num, lte_num, r.offset_pos.not_ge, mul_num,
    div_num r.offset_pos.ne', exchangeFloorMargin, lt_num, gte_num] at hclamped ⊢
  split at hclamped
  · cases hclamped
  · next hlevel =>
      rw [if_neg hlevel]
      refine ⟨rfl, ?_⟩
      simp only [Bool.or_eq_true, not_or, Bool.not_eq_true, Bool.not_eq_false',
        decide_eq_true_eq] at hlevel
      exact hlevel.1

theorem level_eq (hclamped : (resolveTTStopLevel (num r.avgEntry) (num r.stopPct) (some ps)
      (marketBand input.market)).floorClamped = true) :
    computeProtectiveStopLevel input state ps =
      if 0 < r.clampedStop ∧ 0 < r.clampedLimit then
        some (⟨num r.clampedStop, num r.clampedLimit, num r.held, r.filters, num r.tick⟩, true)
      else none := by
  obtain ⟨hresolved, -⟩ := r.resolved_eq hclamped
  simp only [computeProtectiveStopLevel, r.avgEntry_eq, r.held_eq, r.stopPct_eq, r.tick_eq,
    r.offsetText_eq, Option.bind_some, r.offset_eq, r.filters_eq, lte_num, gte_num,
    r.avgEntry_pos.not_ge, r.held_pos.not_ge, r.stopPct_pos.not_ge, r.stopPct_lt.not_ge,
    r.tick_pos.not_ge, decide_false, Bool.or_self, Bool.false_eq_true, ↓reduceIte, hresolved,
    roundToTick_num r.tick_pos, mul_num]
  rw [← clampedStop, ← clampedLimit]
  by_cases hstop : 0 < r.clampedStop
  · by_cases hlimit : 0 < r.clampedLimit
    · simp [hstop, hlimit]
    · simp [hlimit, not_lt.mp hlimit]
  · simp [hstop, not_lt.mp hstop]

/-- The wire carries the legs of the level as they are. -/
theorem desiredStop_eq (sized : DecimalString) :
    ProtectiveStopArmParams.desiredStop
        ⟨num r.clampedStop, num r.clampedLimit, num r.held, r.filters, num r.tick⟩ sized =
      ⟨.printed (num r.clampedStop), .printed (num r.clampedLimit), sized⟩ := by
  have hgrid : ∀ price, toFixedStep (num (floorTo r.tick price)) (num r.tick) =
      .printed (num (floorTo r.tick price)) :=
    fun price => toFixedStep_onGrid (parse_terminating r.tick_eq) (onGrid_floorTo _ _)
  simp only [ProtectiveStopArmParams.desiredStop, clampedStop, clampedLimit, hgrid]

end ClampReading

/-- A clamped stop is placeable: the arm has a level, its trigger lies below the market, and the
band does not refuse it at the floor. -/
def Placeable (input : TTInput) (state : TTState) (ps : ProtectiveStopConfig) (ref : ℚ)
    (sized : DecimalString) (guarded : Bool) : Prop :=
  ∃ level, computeProtectiveStopLevel input state ps = some (level, true) ∧
    level.stop.lt (num ref) = true ∧
    ¬RefusedAtFloor input.market.symbol input.market.currentPrice
      input.market.symbolInfo.filters.percentPriceBySide
      (ProtectiveStopArmParams.desiredStop level sized) guarded

/-- A stop reported as clamped is placeable exactly if the margin reaches the lowest trigger of the
tick grid whose limit leg clears the band. -/
theorem clamped_stop_placeable_iff (r : ClampReading input state ps)
    (hclamped : (resolveTTStopLevel (num r.avgEntry) (num r.stopPct) (some ps)
      (marketBand input.market)).floorClamped = true)
    (sized : DecimalString) (guarded : Bool) :
    Placeable input state ps r.ref sized guarded ↔ r.lowestTrigger ≤ r.lifted := by
  have hlevel := r.level_eq hclamped
  rw [← r.floor_le_clampedLimit_iff]
  constructor
  · rintro ⟨level, hbuilt, -, hrefused⟩
    rw [hlevel] at hbuilt
    split at hbuilt
    · next hpos =>
        obtain ⟨rfl, -⟩ := Prod.mk.inj (Option.some.inj hbuilt)
        rw [r.desiredStop_eq, r.band_eq, refusedAtFloor_iff r.positiveDecimal_ref
          (positiveDecimal_printed hpos.1) (positiveDecimal_printed hpos.2)] at hrefused
        rw [← not_lt]
        exact fun hbelow => hrefused ⟨r.down, r.positiveDecimal_down, hbelow⟩
    · cases hbuilt
  · intro hclears
    have hlimit : 0 < r.clampedLimit := r.floor_pos.trans_le hclears
    have hstop : 0 < r.clampedStop := by
      have hle : r.clampedLimit ≤ r.clampedStop * r.offset := floorTo_le r.tick_pos _
      exact pos_of_mul_pos_left (hlimit.trans_le hle) r.offset_pos.le
    refine ⟨_, by rw [hlevel, if_pos ⟨hstop, hlimit⟩], ?_, ?_⟩
    · have hbelow : r.clampedStop ≤ r.lifted := floorTo_le r.tick_pos _
      simpa using hbelow.trans_lt (r.resolved_eq hclamped).2
    · rw [r.desiredStop_eq, r.band_eq, refusedAtFloor_iff r.positiveDecimal_ref
        (positiveDecimal_printed hstop) (positiveDecimal_printed hlimit)]
      rintro ⟨down, hdown, hbreach⟩
      obtain rfl := num.inj (Option.some.inj (r.positiveDecimal_down.symm.trans hdown))
      exact absurd hbreach (not_lt.mpr hclears)

/-! ### A fine grid and a coarse one -/

def clampConfig : ProtectiveStopConfig := ⟨true, some "0.995", some .clamp⟩

/-- A coin bought at the market, its stop at seven tenths, under a floor of eight tenths. -/
def bandedInput (price tickSize : String) : TTInput :=
  let plain := sampleInput { sampleConfig with
    sell := { sampleConfig.sell with
      stopLossPercentage := "0.7", protectiveStop := some clampConfig } } sampleHeld price 1
  { plain with
    market := { plain.market with
      symbolInfo := { plain.market.symbolInfo with
        filters := { plain.market.symbolInfo.filters with
          tickSize, percentPriceBySide := some ⟨"5", "0.8", 5⟩ } } } }

def boughtAt (price : String) : TTState := { sampleHeld with avgEntryPrice := some (.raw price) }

def fineReading : ClampReading (bandedInput "100" "0.01") (boughtAt "100") clampConfig where
  band := ⟨"5", "0.8", 5⟩
  filters := (parseFilters (bandedInput "100" "0.01").market.symbolInfo.filters).get
    (by decide +kernel)
  offsetText := "0.995"
  avgEntry := 100
  held := 1
  stopPct := 7 / 10
  tick := 1 / 100
  offset := 995 / 1000
  ref := 100
  down := 8 / 10
  enabled := rfl
  onBandBlock := rfl
  avgEntry_eq := by decide +kernel
  held_eq := by decide +kernel
  stopPct_eq := by decide +kernel
  tick_eq := by decide +kernel
  offsetText_eq := rfl
  offset_eq := by decide +kernel
  filters_eq := (Option.some_get _).symm
  ref_eq := by decide +kernel
  band_eq := rfl
  down_eq := by decide +kernel
  avgEntry_pos := by norm_num
  held_pos := sampleFigures.held_pos
  stopPct_pos := by norm_num
  stopPct_lt := by norm_num
  tick_pos := sampleFigures.tick_pos
  offset_pos := by norm_num
  offset_le := by norm_num
  ref_pos := by norm_num
  down_pos := by norm_num

theorem fine_grid_placeable :
    Placeable (bandedInput "100" "0.01") (boughtAt "100") clampConfig 100 (.raw "1") false := by
  have hclamped : (resolveTTStopLevel (num 100) (num (7 / 10)) (some clampConfig)
      (marketBand (bandedInput "100" "0.01").market)).floorClamped = true := by decide +kernel
  have hreached : fineReading.lowestTrigger ≤ fineReading.lifted := by decide +kernel
  exact (clamped_stop_placeable_iff fineReading hclamped (.raw "1") false).mpr hreached

/-- Eighty ticks above zero the margin is less than a tick, and the clamped stop is refused. -/
theorem coarse_grid_refused :
    (resolveTTStopLevel (num (8 / 10000000)) (num (7 / 10)) (some clampConfig)
        (marketBand (bandedInput "0.0000008" "0.00000001").market)).floorClamped = true ∧
      ∃ built, computeProtectiveStopLevel (bandedInput "0.0000008" "0.00000001")
          (boughtAt "0.0000008") clampConfig = some built ∧ built.2 = true ∧
        ∃ blocker, percentPriceBySideRefusal "BTCUSDT" "0.0000008" (some ⟨"5", "0.8", 5⟩)
            (ProtectiveStopArmParams.desiredStop built.1 (.raw "100000000")) false = some blocker ∧
          blocker.detail.lookup "bound" = some (.text "floor") := by
  refine ⟨?_, ?_⟩
  · decide +kernel
  · decide +kernel

/-! ### The stop settles -/

theorem lawfulSeams_protectiveStopParams (input : TTInput) (state : TTState) :
    LawfulSeams (protectiveStopParams input state) where
  place _ _ := ⟨_, rfl⟩
  native trail htrail _ _ := by
    obtain ⟨settings, -, rfl⟩ := Option.map_eq_some_iff.mp htrail
    exact ⟨_, rfl⟩
  replace _ _ _ := ⟨_, rfl⟩

theorem protectiveStop_settles {level : ProtectiveStopLevel} {fig : level.Figures}
    (harmed : input.config.armedProtectiveStop.isSome = true)
    (hlevel : (resolvedLevel input state).map (·.1) = some level)
    (hreclaimable : (reclaimableOwnSellBase input).isFinite = true)
    (hwallet : ∀ line, input.account.balances input.market.symbolInfo.baseAsset = some line →
      line.free.isFinite = true ∧ line.locked.isFinite = true)
    (htrigger : 0 < roundHalfUp fig.stop (num fig.tick).decimalPlaces) {d : Decision}
    {intent : OrderIntent} {order : OrderParams}
    (hd : d ∈ (evaluateProtectiveStop input state).decisions)
    (horder : d.order = some (intent, order)) (orderId : ℕ) (atMs : ℤ) :
    evaluateProtectiveStopArm ((protectiveStopParams input state).afterSend order orderId atMs) =
      ProtectiveStopArmParams.settled := by
  have hcall : LawfulCall (protectiveStopParams input state) fig := by
    refine ⟨rfl, hreclaimable, hwallet, htrigger, fun band hband => ?_⟩
    -- only a clamped stop has a band of its own
    obtain ⟨-, hsome⟩ := Option.ite_none_right_eq_some.mp hband
    exact ⟨1 / 100, (Option.some.inj hsome).symm, by norm_num⟩
  exact settled_after_send (lawfulSeams_protectiveStopParams input state) hcall harmed hlevel hd
    horder orderId atMs

end TradingBot.TrailingTrade
