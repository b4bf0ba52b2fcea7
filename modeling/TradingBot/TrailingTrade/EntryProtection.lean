import TradingBot.TrailingTrade.SentOrders

/-!
# An admitted entry can be protected

The entry floor and the protective-stop arm price the same order in two places.
Both floor the trigger and then the limit leg onto the tick grid, so they agree
on the price; the entry keeps a fee's worth and one lot step in hand, which is
what the fee and the arm's rounding can take away.
-/

namespace TradingBot.TrailingTrade

open Decimal Grid ProtectiveStopArmParams

/-! ### The price of the resting stop -/

/-- The trigger the stop-loss percentage asks for, on the tick grid. -/
def triggerOn (tick price stopPct : ℚ) : ℚ := floorTo tick (price * stopPct)

/-- The limit leg of that trigger, on the tick grid. -/
def limitOn (tick price stopPct offset : ℚ) : ℚ :=
  floorTo tick (triggerOn tick price stopPct * offset)

/-- An order that keeps the fee and one step in hand still clears the minimum after both. -/
theorem le_floorTo_of_feeMargin {step minimum quantity fee : ℚ} (hstep : 0 < step)
    (hquantity : 0 ≤ quantity) (hfee : fee ≤ 1 / 1000)
    (h : (minimum + step) / (1 - 1 / 1000) ≤ quantity) :
    minimum ≤ floorTo step (quantity * (1 - fee)) := by
  have hkept : minimum + step ≤ quantity * (1 - 1 / 1000) := by
    rwa [div_le_iff₀ (by norm_num)] at h
  have hfees : quantity * (1 - 1 / 1000) ≤ quantity * (1 - fee) :=
    mul_le_mul_of_nonneg_left (by linarith) hquantity
  have hround := lt_floorTo_add hstep (quantity * (1 - fee))
  linarith

/-! ### The configuration and the symbol -/

/-- A configuration that arms an exchange-side stop below every entry. -/
structure StopProtected (config : TTConfig) (stopPct offset : ℚ) : Prop where
  sellEnabled : config.sell.enabled = true
  stopPct_eq : parse config.sell.stopLossPercentage = some (num stopPct)
  stopPct_pos : 0 < stopPct
  stopPct_lt : stopPct < 1
  armed : ∃ ps raw, config.sell.protectiveStop = some ps ∧ ps.enabled = true ∧
    ps.limitOffsetPercentage = some raw ∧ parse raw = some (num offset)
  offset_pos : 0 < offset
  offset_le : offset ≤ 1

/-- Filters that read as positive numbers. -/
structure PositiveFilters (filters : SymbolFilters) (step tick minQty minNotional : ℚ) : Prop where
  step_eq : parse filters.stepSize = some (num step)
  tick_eq : parse filters.tickSize = some (num tick)
  minQty_eq : parse filters.minQty = some (num minQty)
  minNotional_eq : parse filters.minNotional = some (num minNotional)
  step_pos : 0 < step
  tick_pos : 0 < tick
  minQty_pos : 0 < minQty
  minNotional_pos : 0 < minNotional

section Symbol

variable {filters : SymbolFilters} {step tick minQty minNotional : ℚ}

theorem PositiveFilters.parsed (h : PositiveFilters filters step tick minQty minNotional) :
    ∃ parsed, parseFilters filters = some parsed ∧ parsed.step = num step ∧
      parsed.minQty = num minQty ∧ parsed.minNotional = num minNotional ∧
      parsed.tick = some (num tick) := by
  have hstep : (num step).lte (num 0) = false := by simpa using h.step_pos
  unfold parseFilters
  rw [h.step_eq, h.minQty_eq, h.minNotional_eq]
  dsimp only
  rw [dif_neg (by rw [hstep]; exact Bool.false_ne_true)]
  refine ⟨_, rfl, rfl, rfl, rfl, ?_⟩
  show parseTick filters.tickSize = some (num tick)
  rw [parseTick, h.tick_eq, Option.filter_some, if_pos (by simpa using h.tick_pos)]

theorem PositiveFilters.tick_terminating
    (h : PositiveFilters filters step tick minQty minNotional) :
    Terminating tick := parse_terminating h.tick_eq

theorem PositiveFilters.step_terminating
    (h : PositiveFilters filters step tick minQty minNotional) :
    Terminating step := parse_terminating h.step_eq

end Symbol

theorem ttStopLimitOffset_eq {config : TTConfig} {stopPct offset : ℚ}
    (h : StopProtected config stopPct offset) :
    ttStopLimitOffset config.sell.protectiveStop = num offset := by
  obtain ⟨ps, raw, hps, henabled, hraw, hoffset⟩ := h.armed
  unfold ttStopLimitOffset
  rw [hps]
  simp [henabled, hraw, hoffset, h.offset_pos, h.offset_le]

theorem ttEntryStopFloor_eq {config : TTConfig} {stopPct offset : ℚ}
    (h : StopProtected config stopPct offset) :
    ttEntryStopFloor config = some ⟨num (1 - stopPct), num offset⟩ := by
  unfold ttEntryStopFloor
  rw [h.sellEnabled, decOrNull_raw h.stopPct_eq, ttStopLimitOffset_eq h]
  simp [h.stopPct_pos, h.stopPct_lt.le]

/-! ### What an entry was admitted with -/

section Admitted

variable {config : TTConfig} {filters : SymbolFilters} {budget quantityStr : DecimalString}
  {priceStr : String} {stopPct offset step tick minQty minNotional price quantity : ℚ}

theorem computeFirstBuyQuantity_eq_ok {parsed : SizeFilters} {stop : Option EntryStopFloor}
    (hparsed : parseFilters filters = some parsed) (hprice : parse priceStr = some (num price))
    (hbuy : computeFirstBuyQuantity budget priceStr filters "" stop = .ok quantityStr) :
    ∃ amount, budget.toDecimal = some amount ∧
      quantityStr = toFixedStep (roundToStep (amount.div (num price)) parsed.step) parsed.step ∧
      (roundToStep (amount.div (num price)) parsed.step).lte (num 0) = false ∧
      ∃ kept, applyEntryStopFloor (roundToStep (amount.div (num price)) parsed.step) (num price)
        parsed stop = .ok kept := by
  unfold computeFirstBuyQuantity at hbuy
  rw [hparsed, hprice] at hbuy
  dsimp only at hbuy
  split at hbuy
  · next price' amount hprice' hamount =>
      cases hprice'
      split at hbuy
      · cases hbuy
      · split at hbuy
        · cases hbuy
        · next sized hsized =>
            obtain ⟨hpos, -, -, rfl⟩ := finalise_eq_ok hsized
            split at hbuy
            · cases hbuy
            · next kept hkept =>
                cases hbuy
                exact ⟨amount, hamount, rfl, hpos, kept, hkept⟩
  · cases hbuy

/-- A rounded amount that is printed as a number is that number: grid points are printed exactly. -/
theorem roundToStep_of_printed {amount : Decimal} (hstep : 0 < step)
    (hterminating : Terminating step)
    (h : (toFixedStep (roundToStep amount (num step)) (num step)).toDecimal = some (num quantity)) :
    roundToStep amount (num step) = num quantity := by
  cases amount with
  | nan => cases h
  | inf s =>
      have hinf : ∃ t, roundToStep (inf s) (num step) = inf t := by
        simp [roundToStep, roundDown, div, floor, mul, hstep.ne']
      obtain ⟨t, ht⟩ := hinf
      rw [ht] at h
      cases h
  | num a =>
      rw [roundToStep_num hstep] at h ⊢
      rw [toFixedStep_onGrid hterminating (onGrid_floorTo step a)] at h
      exact Option.some.inj h

theorem applyEntryStopFloor_eq_ok {parsed : SizeFilters} {kept : Decimal}
    (hstep : parsed.step = num step) (hminQty : parsed.minQty = num minQty)
    (hminNotional : parsed.minNotional = num minNotional) (htick : parsed.tick = some (num tick))
    (hstep_pos : 0 < step) (htick_pos : 0 < tick)
    (h : applyEntryStopFloor (num quantity) (num price) parsed
      (some ⟨num (1 - stopPct), num offset⟩) = .ok kept) :
    0 < limitOn tick price stopPct offset ∧
      (max minQty (minNotional / limitOn tick price stopPct offset) + step) / (1 - 1 / 1000) ≤
        quantity := by
  have hlimit : roundToTick ((roundToTick ((num price).mul ((num 1).sub (num (1 - stopPct))))
      (num tick)).mul (num offset)) (num tick) = num (limitOn tick price stopPct offset) := by
    rw [sub_num, mul_num, roundToTick_num htick_pos, mul_num, roundToTick_num htick_pos,
      sub_sub_cancel]
    rfl
  unfold applyEntryStopFloor at h
  dsimp only at h
  rw [htick] at h
  dsimp only at h
  rw [hlimit] at h
  unfold minSellableQuantityAtStop at h
  split at h
  · cases h
  · next floor hfloor =>
      split at hfloor
      · cases hfloor
      · next hpos =>
          rw [lte_num, decide_eq_true_eq, not_le] at hpos
          refine ⟨hpos, ?_⟩
          split at h
          · next hclears =>
              cases hfloor
              rw [hstep, hminQty, hminNotional, div_num hpos.ne', max_num, add_num, entryFeeMargin,
                sub_num, div_num (by norm_num), ceilToStep_num hstep_pos, gte_num,
                decide_eq_true_eq] at hclears
              exact (le_ceilTo hstep_pos _).trans hclears
          · cases h

theorem admitted_quantity (hconfig : StopProtected config stopPct offset)
    (hfilters : PositiveFilters filters step tick minQty minNotional)
    (hprice : parse priceStr = some (num price))
    (hbuy : computeFirstBuyQuantity budget priceStr filters "" (ttEntryStopFloor config) =
      .ok quantityStr)
    (hquantity : quantityStr.toDecimal = some (num quantity)) :
    0 < quantity ∧ 0 < limitOn tick price stopPct offset ∧
      (max minQty (minNotional / limitOn tick price stopPct offset) + step) / (1 - 1 / 1000) ≤
        quantity := by
  obtain ⟨parsed, hparsed, hstep, hminQty, hminNotional, htick⟩ := hfilters.parsed
  obtain ⟨amount, hamount, rfl, hpos, kept, hkept⟩ :=
    computeFirstBuyQuantity_eq_ok hparsed hprice hbuy
  rw [ttEntryStopFloor_eq hconfig] at hkept
  rw [hstep] at hquantity hpos hkept
  have hexact := roundToStep_of_printed hfilters.step_pos hfilters.step_terminating hquantity
  rw [hexact] at hpos hkept
  refine ⟨by simpa using hpos, ?_⟩
  exact applyEntryStopFloor_eq_ok hstep hminQty hminNotional htick hfilters.step_pos
    hfilters.tick_pos hkept

end Admitted

/-! ### Arming it -/

/-- The position an entry filled into, with nothing else in the way of its stop. -/
structure FilledEntry (input : TTInput) (state : TTState) (price quantity fee : ℚ) : Prop where
  avgEntry_eq : safeDecimal state.avgEntryPrice = some (num price)
  held_eq : safeDecimal state.heldQuantity = some (num (quantity * (1 - fee)))
  fee_nonneg : 0 ≤ fee
  fee_le : fee ≤ 1 / 1000
  readable : input.account.readable = true
  wallet : ∃ locked : ℚ, 0 ≤ locked ∧
    input.account.balances input.market.symbolInfo.baseAsset =
      some ⟨num (quantity * (1 - fee)), num locked⟩
  noOrders : input.openOrders = []
  noBand : input.market.symbolInfo.filters.percentPriceBySide = none

section Arming

variable {input : TTInput} {state : TTState}
  {stopPct offset step tick minQty minNotional price quantity fee : ℚ}

/-- Without a band the stop-loss level is the plain fraction of the cost basis, in every mode. -/
theorem resolveTTStopLevel_noBand (avgEntry stopPct : Decimal)
    (protectiveStop : Option ProtectiveStopConfig) {market : MarketSnapshot}
    (h : market.symbolInfo.filters.percentPriceBySide = none) :
    resolveTTStopLevel avgEntry stopPct protectiveStop (marketBand market) =
      ⟨avgEntry.mul stopPct, false⟩ := by
  unfold resolveTTStopLevel marketBand
  rw [h]
  dsimp only
  split
  · rfl
  · split
    · rfl
    · split
      · rfl
      · rfl

theorem resolvedLevel_eq (hconfig : StopProtected input.config stopPct offset)
    (hfilters : PositiveFilters input.market.symbolInfo.filters step tick minQty minNotional)
    (hfilled : FilledEntry input state price quantity fee) (hprice : 0 < price)
    (hquantity : 0 < quantity) (hlimit : 0 < limitOn tick price stopPct offset) :
    ∃ parsed, parseFilters input.market.symbolInfo.filters = some parsed ∧
      resolvedLevel input state =
        some (⟨num (triggerOn tick price stopPct), num (limitOn tick price stopPct offset),
          num (quantity * (1 - fee)), parsed, num tick⟩, false) := by
  obtain ⟨ps, raw, hps, henabled, hraw, hoffset⟩ := hconfig.armed
  obtain ⟨parsed, hparsed, -⟩ := hfilters.parsed
  have hheld : 0 < quantity * (1 - fee) := mul_pos hquantity (by linarith [hfilled.fee_le])
  have htrigger : 0 < triggerOn tick price stopPct := by
    by_contra hneg
    have hle : triggerOn tick price stopPct * offset ≤ 0 :=
      mul_nonpos_of_nonpos_of_nonneg (not_lt.mp hneg) hconfig.offset_pos.le
    exact absurd (hlimit.trans_le (floorTo_le hfilters.tick_pos _)) (not_lt.mpr hle)
  refine ⟨parsed, hparsed, ?_⟩
  unfold resolvedLevel TTConfig.armedProtectiveStop
  rw [hps, Option.filter_some, if_pos henabled]
  dsimp only [Option.bind]
  unfold computeProtectiveStopLevel
  rw [hfilled.avgEntry_eq, hfilled.held_eq, hconfig.stopPct_eq]
  dsimp only
  rw [if_neg (by simp [hprice, hheld, hconfig.stopPct_pos, hconfig.stopPct_lt])]
  rw [hfilters.tick_eq, hraw, show (some raw).bind parse = _ from hoffset, hparsed]
  dsimp only
  rw [if_neg (by simp [hfilters.tick_pos]), resolveTTStopLevel_noBand _ _ _ hfilled.noBand]
  have hstop : roundToTick ((num price).mul (num stopPct)) (num tick) =
      num (triggerOn tick price stopPct) := by
    rw [mul_num, roundToTick_num hfilters.tick_pos]
    rfl
  have hleg : roundToTick ((num (triggerOn tick price stopPct)).mul (num offset)) (num tick) =
      num (limitOn tick price stopPct offset) := by
    rw [mul_num, roundToTick_num hfilters.tick_pos]
    rfl
  dsimp only
  rw [hstop, hleg, if_neg (by simp [htrigger, hlimit])]

/-- A finite size that clears both minimums is sized. -/
theorem finalise_num {parsed : SizeFilters} {size at_ : ℚ} (hminQty : parsed.minQty = num minQty)
    (hminNotional : parsed.minNotional = num minNotional) (hpos : 0 < size) (hmin : minQty ≤ size)
    (hnotional : minNotional ≤ size * at_) :
    finalise (num size) (num at_) parsed = .ok (toFixedStep (num size) parsed.step) := by
  unfold finalise
  rw [hminQty, hminNotional, if_neg (by simp [hpos, hmin]), if_neg (by simp [hnotional])]

theorem available_eq {level : ProtectiveStopLevel}
    (hfilled : FilledEntry input state price quantity fee)
    (hheld : level.held = num (quantity * (1 - fee))) :
    (protectiveStopParams input state).sizable.free = some (num (quantity * (1 - fee))) ∧
      (protectiveStopParams input state).available level = num (quantity * (1 - fee)) := by
  obtain ⟨locked, hlocked, hwallet⟩ := hfilled.wallet
  have hfree : (protectiveStopParams input state).sizable.free =
      some (num (quantity * (1 - fee))) := by
    show freeBalance input.account input.market.symbolInfo.baseAsset = _
    unfold freeBalance
    rw [hfilled.readable, hwallet]
    rfl
  have hown : (protectiveStopParams input state).sizable.reclaimable = num 0 := by
    show (reclaimableOwnSellBase input).min
      (walletLocked input.account input.market.symbolInfo.baseAsset) = num 0
    unfold reclaimableOwnSellBase walletLocked
    rw [hfilled.noOrders, hwallet]
    show (num 0).min (num locked) = num 0
    rw [min_num, min_eq_left hlocked]
  refine ⟨hfree, ?_⟩
  unfold ProtectiveStopArmParams.available armableBaseQuantity
  rw [hfree, hown, hheld]
  simp

/-- The whole position is sized, at the price the entry was floored at. -/
theorem sizeFull_admitted {level : ProtectiveStopLevel}
    (hfilters : PositiveFilters input.market.symbolInfo.filters step tick minQty minNotional)
    (hparsed : parseFilters input.market.symbolInfo.filters = some level.filters)
    (hheld : level.held = num (quantity * (1 - fee)))
    (hleg : level.limit = num (limitOn tick price stopPct offset)) (htick : level.tick = num tick)
    (hquantity : 0 ≤ quantity) (hfee : fee ≤ 1 / 1000)
    (hlimit : 0 < limitOn tick price stopPct offset)
    (hadmitted : (max minQty (minNotional / limitOn tick price stopPct offset) + step) /
      (1 - 1 / 1000) ≤ quantity) :
    ∃ sized, (protectiveStopParams input state).sizeFull level = .ok ⟨sized, none⟩ := by
  obtain ⟨parsed, hparsed', hstep, hminQty, hminNotional, -⟩ := hfilters.parsed
  cases hparsed.symm.trans hparsed'
  -- the size after the fee and the arm's own rounding still clears both minimums
  have hsize := le_floorTo_of_feeMargin hfilters.step_pos hquantity hfee hadmitted
  have hmin : minQty ≤ floorTo step (quantity * (1 - fee)) := (le_max_left _ _).trans hsize
  have hnotional : minNotional ≤
      floorTo step (quantity * (1 - fee)) * limitOn tick price stopPct offset := by
    have hle := (le_max_right _ _).trans hsize
    rwa [div_le_iff₀ hlimit] at hle
  have hprimary : (protectiveStopParams input state).primaryNativeDelta = none :=
    primaryNativeDelta_none_of_seam (.inl rfl)
  have hwire : (protectiveStopParams input state).notionalPrice level =
      num (limitOn tick price stopPct offset) := by
    unfold ProtectiveStopArmParams.notionalPrice
    rw [hprimary]
    dsimp only
    rw [hleg, htick]
    exact toDecimalPlaces_onGrid hfilters.tick_terminating (onGrid_floorTo tick _)
  refine ⟨toFixedStep (num (floorTo step (quantity * (1 - fee)))) level.filters.step, ?_⟩
  unfold ProtectiveStopArmParams.sizeFull
  dsimp only
  rw [hwire, hheld, hstep, roundToStep_num hfilters.step_pos,
    finalise_num hminQty hminNotional (hfilters.minQty_pos.trans_le hmin) hmin hnotional, hstep]

theorem evaluateProtectiveStop_sent {level : ProtectiveStopLevel} {sized : DecimalString}
    (hconfig : StopProtected input.config stopPct offset)
    (hfilled : FilledEntry input state price quantity fee)
    (hlevel : resolvedLevel input state = some (level, false))
    (hheld : level.held = num (quantity * (1 - fee)))
    (hfull : (protectiveStopParams input state).sizeFull level = .ok ⟨sized, none⟩) :
    ∃ order, (evaluateProtectiveStop input state).decisions =
        [.placeOrder (protectiveStopIntent input false) order] ∧
      (evaluateProtectiveStop input state).blocker = none := by
  obtain ⟨ps, raw, hps, henabled, -⟩ := hconfig.armed
  have henabled' : (protectiveStopParams input state).enabled = true := by
    show (input.config.sell.protectiveStop.filter (·.enabled)).isSome = true
    rw [hps, Option.filter_some, if_pos henabled]
    rfl
  have hlevel' : (protectiveStopParams input state).level = some level := by
    show (resolvedLevel input state).map (·.1) = some level
    rw [hlevel]
    rfl
  obtain ⟨hfree, havailable⟩ := available_eq hfilled hheld
  have hsized : Sized (protectiveStopParams input state) level ⟨sized, none⟩ sized := by
    refine ⟨hfull, ?_⟩
    unfold ProtectiveStopArmParams.sizeArm
    rw [hfree]
    dsimp only
    rw [havailable, hheld, if_neg (by simp)]
  have hresting : (protectiveStopParams input state).resting = none := by
    show findRestingProtectiveStop input.openOrders _ = none
    rw [hfilled.noOrders]
    rfl
  have hinside : (protectiveStopParams input state).outsideBand ⟨sized, none⟩
      (desiredStop level sized) = none := by
    show percentPriceBySideRefusal _ _ input.market.symbolInfo.filters.percentPriceBySide _ _ = none
    rw [hfilled.noBand]
    rfl
  have harm : evaluateProtectiveStopArm (protectiveStopParams input state) =
      (protectiveStopParams input state).send
        ((protectiveStopParams input state).buildPlace (desiredStop level sized)) := by
    rw [evaluate_of_sized henabled' hlevel' hsized,
      decide_of_no_primary (primaryNativeDelta_none_of_seam (.inl rfl))]
    unfold ProtectiveStopArmParams.decidePriced ProtectiveStopArmParams.settledAt
    dsimp only
    rw [hresting, hinside]
    rfl
  unfold evaluateProtectiveStop
  dsimp only
  rw [harm]
  unfold ProtectiveStopArmParams.send
  rw [hresting]
  exact ⟨_, rfl, rfl⟩

/--
The entry floor and the arm agree: an entry that was admitted, and filled less
its fee into a readable wallet, is armed at once and never refused.
-/
theorem admitted_entry_is_armed {budget quantityStr : DecimalString} {priceStr : String}
    (hconfig : StopProtected input.config stopPct offset)
    (hfilters : PositiveFilters input.market.symbolInfo.filters step tick minQty minNotional)
    (hprice : parse priceStr = some (num price)) (hpos : 0 < price)
    (hbuy : computeFirstBuyQuantity budget priceStr input.market.symbolInfo.filters ""
      (ttEntryStopFloor input.config) = .ok quantityStr)
    (hquantity : quantityStr.toDecimal = some (num quantity))
    (hfilled : FilledEntry input state price quantity fee) :
    ∃ order, (evaluateProtectiveStop input state).decisions =
        [.placeOrder (protectiveStopIntent input false) order] ∧
      (evaluateProtectiveStop input state).blocker = none := by
  obtain ⟨hquantity_pos, hlimit, hadmitted⟩ :=
    admitted_quantity hconfig hfilters hprice hbuy hquantity
  obtain ⟨parsed, hparsed, hlevel⟩ :=
    resolvedLevel_eq hconfig hfilters hfilled hpos hquantity_pos hlimit
  obtain ⟨sized, hfull⟩ := @sizeFull_admitted input state _ _ _ _ _ _ price _ _
    ⟨num (triggerOn tick price stopPct), num (limitOn tick price stopPct offset),
      num (quantity * (1 - fee)), parsed, num tick⟩
    hfilters hparsed rfl rfl rfl hquantity_pos.le hfilled.fee_le hlimit hadmitted
  exact evaluateProtectiveStop_sent hconfig hfilled hlevel rfl hfull

/-- The sample profile with an exchange-side stop one percent below its trigger. -/
def sampleProtected : TTConfig :=
  { sampleConfig with
    sell := { sampleConfig.sell with
      protectiveStop := some ⟨true, some "0.99", some .notify⟩ } }

/-- One coin bought at 100, less a fee of a thousandth. -/
def sampleFilled : TTState := { sampleHeld with heldQuantity := some (.raw "0.999") }

theorem sample_entry_is_armed :
    computeFirstBuyQuantity (.raw "100") "100" sampleMarket.symbolInfo.filters ""
        (ttEntryStopFloor sampleProtected) = .ok (toFixedStep (num 1) (num (1 / 1000))) ∧
      ∃ order, (evaluateProtectiveStop (sampleInput sampleProtected sampleFilled "100" (999 / 1000))
          sampleFilled).decisions =
          [.placeOrder (protectiveStopIntent
            (sampleInput sampleProtected sampleFilled "100" (999 / 1000)) false) order] ∧
        (evaluateProtectiveStop (sampleInput sampleProtected sampleFilled "100" (999 / 1000))
          sampleFilled).blocker = none := by
  have hbuy : computeFirstBuyQuantity (.raw "100") "100" sampleMarket.symbolInfo.filters ""
      (ttEntryStopFloor sampleProtected) = .ok (toFixedStep (num 1) (num (1 / 1000))) := by
    decide +kernel
  have hconfig : StopProtected sampleProtected (9 / 10) (99 / 100) :=
    ⟨rfl, by decide +kernel, by norm_num, by norm_num,
      ⟨_, "0.99", rfl, rfl, rfl, by decide +kernel⟩, by norm_num, by norm_num⟩
  have hfilters : PositiveFilters sampleMarket.symbolInfo.filters (1 / 1000) (1 / 100) (1 / 1000)
      10 :=
    ⟨by decide +kernel, by decide +kernel, by decide +kernel, by decide +kernel, by norm_num,
      by norm_num, by norm_num, by norm_num⟩
  have hfilled : FilledEntry (sampleInput sampleProtected sampleFilled "100" (999 / 1000))
      sampleFilled 100 1 (1 / 1000) :=
    ⟨by decide +kernel, by decide +kernel, by norm_num, by norm_num, rfl,
      ⟨0, le_rfl, by decide +kernel⟩, rfl, rfl⟩
  exact ⟨hbuy, admitted_entry_is_armed hconfig hfilters
    (by decide +kernel : parse "100" = some (num 100)) (by norm_num) hbuy (by decide +kernel)
    hfilled⟩

end Arming

end TradingBot.TrailingTrade
