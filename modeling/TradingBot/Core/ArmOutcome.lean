import TradingBot.Core.ProtectiveStopArm

/-!
# What the arm can do

`ArmOutcome` lists every way an enabled arm with a level can end, each with the
facts that led there, and `arm_outcome` proves the list complete. The laws of
the arm are derived from it: none of them reopens the arm's definition.
-/

namespace TradingBot

open Decimal Grid ProtectiveStopArmParams

variable {Config State Bundle : Type}
  {params : ProtectiveStopArmParams Config State Bundle} {level : ProtectiveStopLevel}

/-! ### Sizing -/

theorem finalise_eq_ok {quantity price : Decimal} {filters : SizeFilters} {s : DecimalString}
    (h : finalise quantity price filters = .ok s) :
    quantity.lte (num 0) = false ∧ quantity.lt filters.minQty = false ∧
      meetsMinNotional quantity price filters.minNotional = true ∧
      s = toFixedStep quantity filters.step := by
  unfold finalise at h
  split at h
  next => simp at h
  next hqty =>
    split at h
    next => simp at h
    next hnotional =>
      simp only [Bool.or_eq_true, not_or, Bool.not_eq_true] at hqty
      refine ⟨hqty.1, hqty.2, by simpa using hnotional, ?_⟩
      exact (Except.ok.inj h).symm

theorem sizeFull_eq_ok {full : FullSize} (h : params.sizeFull level = .ok full) :
    finalise (roundToStep level.held level.filters.step) (params.sizingPrice level full)
      level.filters = .ok full.quantity := by
  unfold sizeFull at h
  dsimp only at h
  split at h
  next sized hsized =>
    obtain rfl := Except.ok.inj h
    exact hsized
  next skip hskip =>
    split at h
    next =>
      split at h
      next sized hsized =>
        obtain rfl := Except.ok.inj h
        exact hsized
      next => simp at h
    next => simp at h

theorem sizeArm_eq_ok {full : FullSize} {sized : DecimalString}
    (h : params.sizeArm level full = .ok sized) :
    (sized = full.quantity ∧
        (params.sizable.free = none ∨ (params.available level).lt level.held = false)) ∨
      (∃ free, params.sizable.free = some free ∧
        finalise (roundToStep (params.available level) level.filters.step)
          (params.sizingPrice level full) level.filters = .ok sized) := by
  unfold sizeArm at h
  split at h
  next hfree => exact .inl ⟨(Except.ok.inj h).symm, .inl hfree⟩
  next free hfree =>
    split at h
    next =>
      split at h
      next partialSize hpartial =>
        obtain rfl := Except.ok.inj h
        exact .inr ⟨free, hfree, hpartial⟩
      next => simp at h
    next hcovered =>
      exact .inl ⟨(Except.ok.inj h).symm, .inr (by simpa using hcovered)⟩

/-! ### Outcomes -/

/-- The quantity an arm has sized, on its way to a decision. -/
structure Sized (params : ProtectiveStopArmParams Config State Bundle)
    (level : ProtectiveStopLevel) (full : FullSize) (sized : DecimalString) : Prop where
  full_eq : params.sizeFull level = .ok full
  sized_eq : params.sizeArm level full = .ok sized

/-- The native primary mode with an accepted delta. -/
structure NativePrimary (params : ProtectiveStopArmParams Config State Bundle)
    (trail : PrimaryTrail) (native : NativeTrail) (delta : ℤ) : Prop where
  trail_eq : params.primaryTrail = some trail
  native_eq : params.nativeTrail = some native
  delta_eq : params.primaryNativeDelta = some delta

/-- How an enabled arm with a level can end. -/
inductive ArmOutcome (params : ProtectiveStopArmParams Config State Bundle)
    (level : ProtectiveStopLevel) : ProtectiveStopArm → Prop where
  | refused (blocker : ProtectiveStopBlocker) : ArmOutcome params level (refuse blocker)
  | keptNative {full : FullSize} {sized : DecimalString} {trail : PrimaryTrail}
      {native : NativeTrail} {delta restingDelta : ℤ} {resting : OpenOrder}
      (hsized : Sized params level full sized)
      (hprimary : NativePrimary params trail native delta)
      (hresting : params.resting = some resting)
      (hdelta : resting.trailingDelta = some restingDelta)
      (hunder : underQuantity resting (sized.toDecimal.getD nan) = none) :
      ArmOutcome params level settled
  | keptPriced {full : FullSize} {sized : DecimalString} {resting : OpenOrder}
      (hsized : Sized params level full sized)
      (hresting : params.resting = some resting)
      (hserves : protectiveStopNeedsRearm resting (desiredStop level sized).stopPrice
        (desiredStop level sized).quantity
        (params.minStopDrift.getD TradingBot.minStopDrift) params.restingTrailDelta = false) :
      ArmOutcome params level settled
  | sentNative {full : FullSize} {sized : DecimalString} {trail : PrimaryTrail}
      {native : NativeTrail} {delta : ℤ}
      (hsized : Sized params level full sized)
      (hprimary : NativePrimary params trail native delta) :
      ArmOutcome params level (params.send (native.build ⟨sized, delta⟩))
  | rearmedNative {full : FullSize} {sized : DecimalString} {trail : PrimaryTrail}
      {native : NativeTrail} {delta restingDelta : ℤ} {resting : OpenOrder}
      (hsized : Sized params level full sized)
      (hprimary : NativePrimary params trail native delta)
      (hresting : params.resting = some resting)
      (hdelta : resting.trailingDelta = some restingDelta)
      (hrearm : overQuantity resting (sized.toDecimal.getD nan) = true ∨
        (delta < restingDelta ∨ (underQuantity resting (sized.toDecimal.getD nan)).isSome) ∧
          highWaterGuard trail (effectiveDelta delta restingDelta) restingDelta = true) :
      ArmOutcome params level
        ⟨[params.buildReplace resting (native.build
          ⟨sized, effectiveDelta delta restingDelta⟩ true)], none⟩
  | escaped {full : FullSize} {sized : DecimalString} {native : NativeTrail} {delta : ℤ}
      {outside : ProtectiveStopBlocker}
      (hsized : Sized params level full sized)
      (hprimary : params.primaryNativeDelta = none)
      (hnative : params.nativeTrail = some native)
      (hdelta : params.trailingDelta = some delta)
      (houtside : params.outsideBand full (desiredStop level sized) = some outside)
      (hfloor : outside.detail.lookup "bound" = some (.text "floor")) :
      ArmOutcome params level (params.send (native.build ⟨sized, delta⟩))
  | sentPriced {full : FullSize} {sized : DecimalString}
      (hsized : Sized params level full sized)
      (hprimary : params.primaryNativeDelta = none)
      (hpending : full.pendingMinNotional = none)
      (hinside : params.outsideBand full (desiredStop level sized) = none) :
      ArmOutcome params level (params.send (params.buildPlace (desiredStop level sized)))

theorem primaryNativeDelta_none_of_seam
    (h : params.primaryTrail = none ∨ params.nativeTrail = none) :
    params.primaryNativeDelta = none := by
  unfold primaryNativeDelta
  split
  next htrail hnative => simp [htrail, hnative] at h
  next => rfl

theorem rearmNative_outcome {full : FullSize} {sized : DecimalString} {trail : PrimaryTrail}
    {native : NativeTrail} {delta restingDelta : ℤ} {resting : OpenOrder}
    (hsized : Sized params level full sized) (hprimary : NativePrimary params trail native delta)
    (hresting : params.resting = some resting)
    (hdelta : resting.trailingDelta = some restingDelta) :
    ArmOutcome params level
      (params.rearmNative level trail native delta restingDelta resting sized) := by
  unfold rearmNative
  dsimp only
  split
  next hrearm =>
    have hrearm' : overQuantity resting (sized.toDecimal.getD nan) = true ∨
        (delta < restingDelta ∨ (underQuantity resting (sized.toDecimal.getD nan)).isSome) ∧
          highWaterGuard trail (effectiveDelta delta restingDelta) restingDelta = true := by
      simp only [Bool.or_eq_true, Bool.and_eq_true, decide_eq_true_eq] at hrearm
      tauto
    exact .rearmedNative hsized hprimary hresting hdelta hrearm'
  next =>
    split
    next hunder => exact .keptNative hsized hprimary hresting hdelta hunder
    next short hshort => exact .refused _

theorem decideNative_outcome {full : FullSize} {sized : DecimalString} {trail : PrimaryTrail}
    {native : NativeTrail} {delta : ℤ}
    (hsized : Sized params level full sized) (hprimary : NativePrimary params trail native delta) :
    ArmOutcome params level (params.decideNative level trail native delta sized) := by
  unfold decideNative
  split
  next => exact .sentNative hsized hprimary
  next resting hresting =>
    split
    next => exact .sentNative hsized hprimary
    next restingDelta hdelta => exact rearmNative_outcome hsized hprimary hresting hdelta

theorem decidePriced_outcome {full : FullSize} {sized : DecimalString}
    (hsized : Sized params level full sized) (hprimary : params.primaryNativeDelta = none) :
    ArmOutcome params level (params.decidePriced level full sized) := by
  unfold decidePriced
  dsimp only
  split
  next hsettled =>
    obtain ⟨resting, hresting, hserves⟩ := (Option.any_eq_true _ _).mp hsettled
    exact .keptPriced hsized hresting (by simpa using hserves)
  next =>
    split
    next outside houtside =>
      split
      next native delta hnative hdelta =>
        split
        next hfloor => exact .escaped hsized hprimary hnative hdelta houtside hfloor
        next => exact .refused _
      next => exact .refused _
    next hinside =>
      split
      next => exact .refused _
      next hpending => exact .sentPriced hsized hprimary hpending hinside

theorem decide_outcome {full : FullSize} {sized : DecimalString}
    (hsized : Sized params level full sized) :
    ArmOutcome params level (params.decide level full sized) := by
  unfold ProtectiveStopArmParams.decide
  split
  next trail native delta htrail hnative hdelta =>
    exact decideNative_outcome hsized ⟨htrail, hnative, hdelta⟩
  next hnone =>
    refine decidePriced_outcome hsized ?_
    cases htrail : params.primaryTrail with
    | none => exact primaryNativeDelta_none_of_seam (.inl htrail)
    | some trail =>
        cases hnative : params.nativeTrail with
        | none => exact primaryNativeDelta_none_of_seam (.inr hnative)
        | some native =>
            cases hdelta : params.primaryNativeDelta with
            | none => rfl
            | some delta => exact absurd hdelta (hnone trail native delta htrail hnative)

theorem arm_outcome (henabled : params.enabled = true) (hlevel : params.level = some level) :
    ArmOutcome params level (evaluateProtectiveStopArm params) := by
  unfold evaluateProtectiveStopArm
  rw [henabled, hlevel]
  simp only [Bool.not_true, Bool.false_eq_true, ↓reduceIte]
  split
  next => exact .refused _
  next full hfull =>
    split
    next => exact .refused _
    next sized hsized => exact decide_outcome ⟨hfull, hsized⟩

/-- Once the order is sized, the arm is its last stage. -/
theorem evaluate_of_sized (henabled : params.enabled = true) (hlevel : params.level = some level)
    {full : FullSize} {sized : DecimalString} (hsized : Sized params level full sized) :
    evaluateProtectiveStopArm params = params.decide level full sized := by
  unfold evaluateProtectiveStopArm
  rw [henabled, hlevel]
  simp only [Bool.not_true, Bool.false_eq_true, ↓reduceIte]
  rw [hsized.full_eq]
  simp only
  rw [hsized.sized_eq]

theorem decide_of_primary {full : FullSize} {sized : DecimalString} {trail : PrimaryTrail}
    {native : NativeTrail} {delta : ℤ} (hprimary : NativePrimary params trail native delta) :
    params.decide level full sized = params.decideNative level trail native delta sized := by
  rw [ProtectiveStopArmParams.decide, hprimary.trail_eq, hprimary.native_eq, hprimary.delta_eq]

theorem decide_of_no_primary {full : FullSize} {sized : DecimalString}
    (hprimary : params.primaryNativeDelta = none) :
    params.decide level full sized = params.decidePriced level full sized := by
  unfold ProtectiveStopArmParams.decide
  split
  next hdelta => simp [hprimary] at hdelta
  next => rfl

/-! ### The order a decision carries -/

/--
What the arm relies on in a strategy's builders: they carry the desired figures
unchanged under the strategy's own id, and a replacement retires exactly the
order it is given.
-/
structure LawfulSeams (params : ProtectiveStopArmParams Config State Bundle) : Prop where
  place : ∀ desired rearm, ∃ intent, params.buildPlace desired rearm =
    .placeOrder intent
      { type := .stopLossLimit, quantity := desired.quantity, price := some desired.price,
        stopPrice := some desired.stopPrice, trailingDelta := none, timeInForce := some .gtc }
  native : ∀ trail, params.nativeTrail = some trail → ∀ desired rearm, ∃ intent,
    trail.build desired rearm =
      .placeOrder intent
        { type := .stopLoss, quantity := desired.quantity, price := none, stopPrice := none,
          trailingDelta := some desired.trailingDelta, timeInForce := none }
  replace : ∀ resting intent order, ∃ reason,
    params.buildReplace resting (.placeOrder intent order) =
      .replaceOrder resting.orderId reason intent order

/-- A sent order appears in one decision, which retires our resting stop if there is one. -/
theorem send_eq (hseams : LawfulSeams params) {place : Bool → Decision} {order : OrderParams}
    (hplace : ∀ rearm, ∃ intent, place rearm = .placeOrder intent order) :
    (params.resting = none ∧ ∃ intent, params.send place = ⟨[.placeOrder intent order], none⟩) ∨
      (∃ resting intent reason, params.resting = some resting ∧
        params.send place =
          ⟨[.replaceOrder resting.orderId reason intent order], none⟩) := by
  unfold send
  split
  next hresting =>
    obtain ⟨intent, hintent⟩ := hplace false
    exact .inl ⟨hresting, intent, by rw [hintent]⟩
  next resting hresting =>
    obtain ⟨intent, hintent⟩ := hplace true
    obtain ⟨reason, hreason⟩ := hseams.replace resting intent order
    exact .inr ⟨resting, intent, reason, hresting, by rw [hintent, hreason]⟩

/-- Whatever every builder's orders have, and replacing keeps, every decision of the arm has. -/
theorem decisions_of_builders {P : Decision → Prop}
    (hplace : ∀ desired rearm, P (params.buildPlace desired rearm))
    (hnative : ∀ trail, params.nativeTrail = some trail →
      ∀ desired rearm, P (trail.build desired rearm))
    (hreplace : ∀ resting place, P place → P (params.buildReplace resting place))
    (hcancel : ∀ resting, P (params.buildCancel resting)) :
    ∀ d ∈ (evaluateProtectiveStopArm params).decisions, P d := by
  have hsend : ∀ place : Bool → Decision, (∀ rearm, P (place rearm)) →
      ∀ d ∈ (params.send place).decisions, P d := by
    intro place hbuilt d hd
    unfold send at hd
    split at hd
    next => exact List.mem_singleton.mp hd ▸ hbuilt false
    next => exact List.mem_singleton.mp hd ▸ hreplace _ _ (hbuilt true)
  intro d hd
  cases henabled : params.enabled with
  | false => simp [evaluateProtectiveStopArm, henabled] at hd
  | true =>
      cases hlevel : params.level with
      | none =>
          -- without a level the arm takes its resting stop off the book
          simp only [evaluateProtectiveStopArm, henabled, hlevel, Bool.not_true,
            Bool.false_eq_true, ↓reduceIte, Option.mem_toList,
            Option.map_eq_some_iff] at hd
          obtain ⟨resting, -, rfl⟩ := hd
          exact hcancel resting
      | some level =>
          have houtcome := arm_outcome henabled hlevel
          generalize evaluateProtectiveStopArm params = arm at hd houtcome
          cases houtcome with
          | refused blocker => cases hd
          | keptNative => cases hd
          | keptPriced => cases hd
          | sentNative hsized hprimary => exact hsend _ (hnative _ hprimary.native_eq _) d hd
          | rearmedNative hsized hprimary hresting hdelta hrearm =>
              rw [List.mem_singleton.mp hd]
              exact hreplace _ _ (hnative _ hprimary.native_eq _ _)
          | escaped hsized hprimary htrail => exact hsend _ (hnative _ htrail _) d hd
          | sentPriced => exact hsend _ (hplace _) d hd

/-! ### A sample position -/

/-- One coin bought at 100, its stop at 90 and its limit at 89.55, on a cent grid. -/
def sampleLevel : ProtectiveStopLevel where
  stop := num 90
  limit := num (8955 / 100)
  held := num 1
  filters :=
    { step := num (1 / 1000), minQty := num (1 / 1000), minNotional := num 10
      tick := some (num (1 / 100))
      step_pos := by decide +kernel
      tick_pos := by rintro t ⟨⟩; decide +kernel }
  tick := num (1 / 100)

def sampleMarket : MarketSnapshot where
  symbol := "BTCUSDT"
  currentPrice := "100"
  candlesByInterval := fun _ => none
  indicatorsByInterval := fun _ => none
  symbolInfo :=
    { symbol := "BTCUSDT", baseAsset := "BTC", quoteAsset := "USDT"
      filters :=
        { minNotional := "10", tickSize := "0.01", stepSize := "0.001", minQty := "0.001"
          minPrice := "0.01", percentPriceBySide := none
          trailingDelta := some ⟨10, 2000⟩ } }

def sampleIntent : OrderIntent :=
  { symbol := "BTCUSDT", side := .sell, reason := "protective-stop", clientOrderId := "stop-x"
    info := [], overrideActionId := none, deferrable := false }

/-- The arm of the sample position, over given orders, balances and native-primary inputs. -/
def sampleParams (openOrders : List OpenOrder) (free locked : ℚ) (reclaimable : ℚ)
    (primaryTrail : Option PrimaryTrail) : ProtectiveStopArmParams Unit Unit Unit where
  input :=
    { nowMs := 0, profile := ⟨"p"⟩, config := (), state := (), market := sampleMarket
      account :=
        { balances := fun asset =>
            if asset = "BTC" then some ⟨num free, num locked⟩ else none
          readable := true, deployedQuoteAcrossProfiles := none }
      openOrders, bundle := () }
  enabled := true
  level := some sampleLevel
  reclaimableBase := num reclaimable
  ourClientOrderId := "stop-x"
  buildPlace := fun desired _ =>
    .placeOrder sampleIntent
      { type := .stopLossLimit, quantity := desired.quantity, price := some desired.price
        stopPrice := some desired.stopPrice, trailingDelta := none, timeInForce := some .gtc }
  buildCancel := fun resting => .cancelOrder resting.orderId "superseded" none
  buildReplace := fun resting place =>
    match place with
    | .placeOrder intent order => .replaceOrder resting.orderId "superseded" intent order
    | other => other
  primaryTrail
  nativeTrail := some
    { stopDistancePct := num (1 / 10)
      build := fun desired _ =>
        .placeOrder sampleIntent
          { type := .stopLoss, quantity := desired.quantity, price := none, stopPrice := none
            trailingDelta := some desired.trailingDelta, timeInForce := none } }
  minStopDrift := none

/-- A resting order of ours, priced or trailing. -/
def sampleResting (quantity : String) (stopPrice : Option String) (delta : Option ℤ) : OpenOrder :=
  { orderId := 7, clientOrderId := "stop-x", symbol := "BTCUSDT", side := .sell
    type := if delta.isSome then .stopLoss else .stopLossLimit
    status := "NEW", price := .raw "89.55", origQty := .raw quantity, executedQty := .raw "0"
    stopPrice := stopPrice.map .raw, trailingDelta := delta, transactTimeMs := 0 }

theorem sampleParams_lawful (openOrders : List OpenOrder) (free locked reclaimable : ℚ)
    (primaryTrail : Option PrimaryTrail) :
    LawfulSeams (sampleParams openOrders free locked reclaimable primaryTrail) where
  place := fun _ _ => ⟨_, rfl⟩
  native := by
    intro trail htrail desired rearm
    obtain rfl := (Option.some.inj htrail).symm
    exact ⟨_, rfl⟩
  replace := fun _ _ _ => ⟨_, rfl⟩

end TradingBot
