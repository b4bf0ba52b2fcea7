import TradingBot.Core.ArmCoverage

/-!
# The orders the arm sends

Every order of the arm is a positive multiple of the lot step, clears the
exchange minimums at the price the exchange will judge it at, and fits both the
tracked position and the wallet; a priced stop lies inside the price band. One
path sends a figure it never checked: re-arming a resting trail at the trail's
own delta. `arm_acceptable_iff` says exactly when that shows, on figures short
enough that the decimal library rounds none of the arm's results.
-/

namespace TradingBot

open Decimal Grid ProtectiveStopArmParams

variable {Config State Bundle : Type}
  {params : ProtectiveStopArmParams Config State Bundle} {level : ProtectiveStopLevel}

/-! ### Levels with figures -/

/-- A level whose figures are numbers: stop, tick, step and position positive, limit below stop. -/
structure ProtectiveStopLevel.Figures (level : ProtectiveStopLevel) where
  stop : ℚ
  limit : ℚ
  held : ℚ
  tick : ℚ
  step : ℚ
  minQty : ℚ
  minNotional : ℚ
  stop_eq : level.stop = num stop
  limit_eq : level.limit = num limit
  held_eq : level.held = num held
  tick_eq : level.tick = num tick
  step_eq : level.filters.step = num step
  minQty_eq : level.filters.minQty = num minQty
  minNotional_eq : level.filters.minNotional = num minNotional
  stop_pos : 0 < stop
  limit_le_stop : limit ≤ stop
  held_pos : 0 < held
  tick_pos : 0 < tick
  step_pos : 0 < step
  /-- A number of the decimal library has a finite decimal expansion. -/
  step_terminating : Terminating step

/-- The balances the arm sizes against are numbers. -/
structure FiniteWallet (params : ProtectiveStopArmParams Config State Bundle) : Prop where
  free : ∀ f, params.sizable.free = some f → f.isFinite = true
  reclaimable : params.sizable.reclaimable.isFinite = true

/-- The base a tick may commit, as a number. -/
theorem available_eq (fig : level.Figures) (hwallet : FiniteWallet params) :
    ∃ a : ℚ, params.available level = num a ∧ a ≤ fig.held ∧
      (params.sizable.free = none → a = fig.held) ∧
      (∀ f r, params.sizable.free = some (num f) → params.sizable.reclaimable = num r →
        a ≤ f + r) := by
  unfold available armableBaseQuantity
  rw [fig.held_eq]
  cases hfree : params.sizable.free with
  | none => exact ⟨fig.held, rfl, le_rfl, fun _ => rfl, by simp⟩
  | some free =>
      obtain ⟨f, rfl⟩ := isFinite_iff.mp (hwallet.free free hfree)
      obtain ⟨r, hr⟩ := isFinite_iff.mp hwallet.reclaimable
      refine ⟨min fig.held (f + r), by simp [hr], min_le_left _ _, by simp, ?_⟩
      intro f' r' hf' hr'
      obtain rfl : f = f' := by simpa using hf'
      obtain rfl : r = r' := by simpa [hr] using hr'
      exact min_le_right _ _

theorem Sized.finalise_eq (fig : level.Figures) (hwallet : FiniteWallet params) {full : FullSize}
    {sized : DecimalString} (h : Sized params level full sized) :
    finalise (roundToStep (params.available level) level.filters.step)
      (params.sizingPrice level full) level.filters = .ok sized := by
  obtain ⟨a, ha, hle, hnone, -⟩ := available_eq fig hwallet
  rcases sizeArm_eq_ok h.sized_eq with ⟨rfl, hcover⟩ | ⟨free, -, hpartial⟩
  · have hfull := sizeFull_eq_ok h.full_eq
    have hheld : a = fig.held := by
      rcases hcover with hfree | hlt
      · exact hnone hfree
      · rw [ha, fig.held_eq, lt_num, decide_eq_false_iff_not, not_lt] at hlt
        exact le_antisymm hle hlt
    rwa [fig.held_eq, ← hheld, ← ha] at hfull
  · exact hpartial

/-- A larger amount clears every minimum a smaller one clears. -/
theorem finalise_of_le (fig : level.Figures) {a x p : ℚ} (hp : 0 ≤ p) (hax : a ≤ x)
    (h : sellableAtStop (num a) (num p) level.filters = true) :
    ∃ s, finalise (roundToStep (num x) level.filters.step) (num p) level.filters = .ok s := by
  unfold sellableAtStop at h
  cases hfin : finalise (roundToStep (num a) level.filters.step) (num p) level.filters with
  | error skip => simp [hfin, Except.isOk, Except.toBool] at h
  | ok s =>
      obtain ⟨hpos, hmin, hnot, -⟩ := finalise_eq_ok hfin
      simp only [fig.step_eq, roundToStep_num fig.step_pos, fig.minQty_eq, fig.minNotional_eq,
        lte_num, lt_num, meetsMinNotional_num, decide_eq_false_iff_not, decide_eq_true_eq, not_le,
        not_lt] at hpos hmin hnot
      have hmono := floorTo_mono fig.step_pos hax
      have hmul : floorTo fig.step a * p ≤ floorTo fig.step x * p :=
        mul_le_mul_of_nonneg_right hmono hp
      refine ⟨toFixedStep (num (floorTo fig.step x)) level.filters.step, ?_⟩
      unfold finalise
      rw [fig.step_eq, roundToStep_num fig.step_pos, fig.minQty_eq, fig.minNotional_eq, if_neg,
        if_neg]
      · simpa using hnot.trans hmul
      · simpa using ⟨hpos.trans_le hmono, hmin.trans hmono⟩

theorem notionalPrice_of_primary (level : ProtectiveStopLevel)
    (hprimary : params.primaryNativeDelta ≠ none) :
    params.notionalPrice level = params.nativeNotionalPrice level := by
  unfold notionalPrice
  split
  next hdelta => exact absurd hdelta hprimary
  next => rfl

theorem positiveDecimal_eq {s : DecimalString} {d : Decimal} (h : positiveDecimal s = some d) :
    ∃ q : ℚ, d = num q ∧ 0 < q := by
  simp only [positiveDecimal, Option.filter_eq_some_iff, Bool.and_eq_true] at h
  obtain ⟨q, rfl⟩ := isFinite_iff.mp h.2.1
  exact ⟨q, rfl, by simpa using h.2.2⟩

theorem nativeNotionalPrice_eq (params : ProtectiveStopArmParams Config State Bundle)
    (fig : level.Figures) :
    ∃ p : ℚ, params.nativeNotionalPrice level = num p ∧ 0 ≤ p := by
  unfold nativeNotionalPrice wire
  cases href : params.marketReference with
  | none =>
      rw [Option.getD_none, fig.stop_eq]
      exact ⟨_, rfl, roundHalfUp_nonneg fig.stop_pos.le _⟩
  | some ref =>
      obtain ⟨q, rfl, hq⟩ := positiveDecimal_eq href
      exact ⟨_, rfl, roundHalfUp_nonneg hq.le _⟩

theorem sized_of_sellable (fig : level.Figures) (hwallet : FiniteWallet params)
    (hprimary : params.primaryNativeDelta ≠ none)
    (h : sellableAtStop (params.available level) (params.nativeNotionalPrice level)
      level.filters = true) :
    ∃ full sized, Sized params level full sized := by
  obtain ⟨a, ha, hle, -, -⟩ := available_eq fig hwallet
  obtain ⟨p, hp, hp0⟩ := nativeNotionalPrice_eq params fig
  have hnotional := notionalPrice_of_primary level hprimary
  rw [ha, hp] at h
  obtain ⟨s, hs⟩ := finalise_of_le fig hp0 hle h
  have hfull : params.sizeFull level = .ok ⟨s, none⟩ := by
    unfold sizeFull
    dsimp only
    rw [hnotional, hp, fig.held_eq, hs]
  cases hfree : params.sizable.free with
  | none => exact ⟨_, s, hfull, by rw [sizeArm, hfree]⟩
  | some free =>
      by_cases hlt : (params.available level).lt level.held = true
      · obtain ⟨t, ht⟩ := finalise_of_le fig hp0 le_rfl h
        refine ⟨_, t, hfull, ?_⟩
        unfold sizeArm
        rw [hfree]
        dsimp only [sizingPrice]
        rw [if_pos hlt, hnotional, hp, ha, ht]
      · refine ⟨_, s, hfull, ?_⟩
        unfold sizeArm
        rw [hfree]
        dsimp only
        rw [if_neg hlt]

/-! ### What the library keeps -/

/--
The results an arm decides by: its base, in coins and in steps, the sizes and
their notionals, the bounds of the band, the distances in basis points, and how
far a resting order is from the desired one.
-/
def ProtectiveStopArmParams.results (params : ProtectiveStopArmParams Config State Bundle)
    (level : ProtectiveStopLevel) : List Decimal :=
  let bases := [level.held, params.available level]
  let sizes := bases.map (roundToStep · level.filters.step)
  let stop := wire level.stop level.tick
  let multipliers := params.input.market.symbolInfo.filters.percentPriceBySide.toList.flatMap
    fun band => [band.askMultiplierDown, band.askMultiplierUp].filterMap (positiveDecimal ·)
  let deltas := params.primaryNativeDelta.toList ++
    (params.resting.bind (·.trailingDelta)).toList
  bases ++ bases.map (·.div level.filters.step) ++ sizes ++
    sizes.flatMap (fun q => [q.mul (params.notionalPrice level),
      q.mul (params.nativeNotionalPrice level), q.mul minQtyDrift]) ++
    params.marketReference.toList.flatMap (fun ref => multipliers.map ref.mul) ++
    params.nativeTrail.toList.map (·.stopDistancePct.mul (num 10000)) ++
    params.primaryTrail.toList.flatMap (fun trail =>
      trail.desiredDistancePct.mul (num 10000) ::
        (trail.markPrice :: trail.restingHigh.toList).flatMap fun mark =>
          deltas.map (trailTrigger mark)) ++
    stop.mul (params.minStopDrift.getD TradingBot.minStopDrift) ::
      params.resting.toList.flatMap fun resting =>
        ((safeDecimal resting.stopPrice).map (·.sub stop)).toList ++
          (unfilledQuantity resting).toList.flatMap fun rest => rest :: sizes.map rest.sub

/-- The library rounds no result of the arm, so its arithmetic is the exact one. -/
def KeptWhole (params : ProtectiveStopArmParams Config State Bundle)
    (level : ProtectiveStopLevel) : Prop := ∀ r ∈ params.results level, r.atPrecision = r

/-- A base cut to the step as the library cuts it, rounding quotient and product. -/
def keptRoundToStep (value step : Decimal) : Decimal :=
  ((value.div step).atPrecision.floor.mul step).atPrecision

theorem KeptWhole.available (h : KeptWhole params level) :
    keptRoundToStep (params.available level) level.filters.step =
      roundToStep (params.available level) level.filters.step := by
  have hquotient : ((params.available level).div level.filters.step).atPrecision =
      (params.available level).div level.filters.step := h _ (by simp [results])
  have hsize : (roundToStep (params.available level) level.filters.step).atPrecision =
      roundToStep (params.available level) level.filters.step := h _ (by simp [results])
  rw [keptRoundToStep, hquotient]
  exact hsize

-- a quotient of twenty-one digits is rounded up, past the coins there are
example : keptRoundToStep (num (123456789012399999999 / 100000000)) (num 1) =
    num 1234567890124 := by decide +kernel

/-! ### Acceptable orders -/

/-- A delta inside the symbol's published bounds for a trail below the market. -/
def WithinBelowBounds (filter : Option TrailingDeltaFilter) (delta : ℤ) : Prop :=
  ∃ f, filter = some f ∧ f.minTrailingBelowDelta ≤ delta ∧ delta ≤ f.maxTrailingBelowDelta

/-- A quantity on the lot grid that the position holds and the wallet can fund. -/
structure AcceptableSize (params : ProtectiveStopArmParams Config State Bundle)
    (fig : level.Figures) (q : ℚ) : Prop where
  pos : 0 < q
  onGrid : OnGrid fig.step q
  minQty_le : fig.minQty ≤ q
  le_held : q ≤ fig.held
  le_wallet : ∀ free locked own : ℚ,
    freeBalance params.input.account params.input.market.symbolInfo.baseAsset = some (num free) →
    walletLocked params.input.account params.input.market.symbolInfo.baseAsset = num locked →
    params.reclaimableBase = num own → q ≤ free + min own locked

/-- A priced stop whose notional clears the minimum at the price it carries, inside the band. -/
structure AcceptablePriced (params : ProtectiveStopArmParams Config State Bundle)
    (fig : level.Figures) (order : OrderParams) (q : ℚ) : Prop where
  type_eq : order.type = .stopLossLimit
  legs : ∃ (stopPrice price : DecimalString) (p : ℚ),
    order.stopPrice = some stopPrice ∧ order.price = some price ∧ price.toDecimal = some (num p) ∧
    fig.minNotional ≤ q * p ∧
    ∀ guarded, percentPriceBySideRefusal params.input.market.symbol
      params.input.market.currentPrice params.input.market.symbolInfo.filters.percentPriceBySide
      ⟨stopPrice, price, order.quantity⟩ guarded = none

/-- A native trail inside its bounds, whose notional clears the minimum at the market. -/
structure AcceptableNative (params : ProtectiveStopArmParams Config State Bundle)
    (fig : level.Figures) (order : OrderParams) (q : ℚ) : Prop where
  type_eq : order.type = .stopLoss
  bounds : ∃ delta, order.trailingDelta = some delta ∧
    WithinBelowBounds params.input.market.symbolInfo.filters.trailingDelta delta
  notional : ∀ market : ℚ, params.marketReference = some (num market) → fig.limit ≤ market →
    fig.minNotional ≤ q * roundHalfUp market (num fig.tick).decimalPlaces

/-- An order the exchange can accept, of the size the library itself arrives at. -/
def AcceptableOrder (params : ProtectiveStopArmParams Config State Bundle)
    (fig : level.Figures) (order : OrderParams) : Prop :=
  ∃ q : ℚ, order.quantity.toDecimal = some (num q) ∧
    keptRoundToStep (params.available level) level.filters.step = num q ∧
    AcceptableSize params fig q ∧
    (AcceptablePriced params fig order q ∨ AcceptableNative params fig order q)

theorem Sized.acceptable (fig : level.Figures) (hwallet : FiniteWallet params) {full : FullSize}
    {sized : DecimalString} (h : Sized params level full sized) :
    ∃ q : ℚ, sized.toDecimal = some (num q) ∧
      roundToStep (params.available level) level.filters.step = num q ∧
      AcceptableSize params fig q ∧
      meetsMinNotional (num q) (params.sizingPrice level full) (num fig.minNotional) = true := by
  obtain ⟨a, ha, hle, hnone, hfunded⟩ := available_eq fig hwallet
  have hfin := h.finalise_eq fig hwallet
  rw [ha, fig.step_eq, roundToStep_num fig.step_pos] at hfin ⊢
  obtain ⟨hpos, hmin, hnot, rfl⟩ := finalise_eq_ok hfin
  have hgrid := onGrid_floorTo fig.step a
  have hfloor := floorTo_le fig.step_pos a
  refine ⟨floorTo fig.step a, ?_, rfl, ?_, ?_⟩
  · rw [fig.step_eq, toFixedStep_onGrid fig.step_terminating hgrid, DecimalString.toDecimal_printed]
  · refine ⟨by simpa using hpos, hgrid, by simpa [fig.minQty_eq] using hmin, hfloor.trans hle, ?_⟩
    intro free locked own hfree hlocked hown
    have hreclaim : params.sizable.reclaimable = num (min own locked) := by
      rw [sizable, sizableBase, hlocked, hown, min_num]
    exact hfloor.trans (hfunded free (min own locked) hfree hreclaim)
  · rwa [fig.minNotional_eq] at hnot

theorem nativeTrailingDelta_within {distance : Decimal} {filter : Option TrailingDeltaFilter}
    {delta : ℤ} (h : nativeTrailingDelta distance filter = some delta) :
    WithinBelowBounds filter delta := by
  unfold nativeTrailingDelta at h
  split at h
  next => simp at h
  next f =>
    split at h
    next => simp at h
    next =>
      split at h
      next => simp at h
      next =>
        split at h
        next bips hbips =>
          split at h
          next hbounds =>
            obtain rfl := (Option.some.inj h).symm
            refine ⟨f, rfl, ?_⟩
            -- the rounded distance is whole, so its floor is itself
            cases hd : distance.mul (num 10000) with
            | nan => simp [hd, toDecimalPlaces] at hbips
            | inf s => simp [hd, toDecimalPlaces] at hbips
            | num x =>
                rw [hd, toDecimalPlaces_num, Decimal.num.injEq] at hbips
                rw [← hbips, floor_roundHalfUp_zero, hbips]
                exact hbounds
          next => simp at h
        next => simp at h

theorem primaryNativeDelta_within {delta : ℤ} (h : params.primaryNativeDelta = some delta) :
    WithinBelowBounds params.input.market.symbolInfo.filters.trailingDelta delta := by
  unfold primaryNativeDelta at h
  split at h
  next => exact nativeTrailingDelta_within h
  next => simp at h

theorem trailingDelta_within {delta : ℤ} (h : params.trailingDelta = some delta) :
    WithinBelowBounds params.input.market.symbolInfo.filters.trailingDelta delta := by
  obtain ⟨trail, -, hdelta⟩ := Option.bind_eq_some_iff.mp h
  exact nativeTrailingDelta_within hdelta

/-- What clears the minimum at the limit leg or at the native price clears it at the market. -/
theorem notional_at_market (fig : level.Figures) {full : FullSize} {q market : ℚ} (hq : 0 < q)
    (hnotional :
      meetsMinNotional (num q) (params.sizingPrice level full) (num fig.minNotional) = true)
    (hmarket : params.marketReference = some (num market)) (hlimit : fig.limit ≤ market) :
    fig.minNotional ≤ q * roundHalfUp market (num fig.tick).decimalPlaces := by
  have hnative : params.nativeNotionalPrice level =
      num (roundHalfUp market (num fig.tick).decimalPlaces) := by
    rw [nativeNotionalPrice, hmarket, fig.tick_eq]
    rfl
  unfold sizingPrice notionalPrice at hnotional
  split at hnotional
  next =>
    split at hnotional
    next =>
      rw [wire, fig.limit_eq, fig.tick_eq, toDecimalPlaces_num, meetsMinNotional_num,
        decide_eq_true_eq] at hnotional
      exact hnotional.trans (mul_le_mul_of_nonneg_left (roundHalfUp_mono hlimit _) hq.le)
    next => simpa [hnative] using hnotional
  next => simpa [hnative] using hnotional

/-! ### The unchecked delta -/

/--
A resting trail of ours is tighter than the symbol's published minimum, the
native primary does not tighten it further, and its size has drifted enough to
be re-armed: over the armable base, or under it with the mark at its high.
-/
def RearmsOutOfBounds (params : ProtectiveStopArmParams Config State Bundle)
    (level : ProtectiveStopLevel) : Prop :=
  ∃ trail native delta resting restingDelta,
    NativePrimary params trail native delta ∧ params.resting = some resting ∧
    resting.trailingDelta = some restingDelta ∧ restingDelta ≤ delta ∧
    ¬WithinBelowBounds params.input.market.symbolInfo.filters.trailingDelta restingDelta ∧
    sellableAtStop (params.available level) (params.nativeNotionalPrice level)
      level.filters = true ∧
    (overQuantity resting (roundToStep (params.available level) level.filters.step) = true ∨
      (underQuantity resting
          (roundToStep (params.available level) level.filters.step)).isSome = true ∧
        highWaterGuard trail restingDelta restingDelta = true)

/-- Every order among the decisions is acceptable, and there is at most one decision. -/
def SendsAcceptable (params : ProtectiveStopArmParams Config State Bundle) (fig : level.Figures)
    (arm : ProtectiveStopArm) : Prop :=
  arm.decisions.length ≤ 1 ∧ ∀ d ∈ arm.decisions, ∀ intent order,
    d.order = some (intent, order) → AcceptableOrder params fig order

theorem sendsAcceptable_none (fig : level.Figures) (blocker : Option ProtectiveStopBlocker) :
    SendsAcceptable params fig ⟨[], blocker⟩ := by
  simp [SendsAcceptable]

theorem sendsAcceptable_send (hseams : LawfulSeams params) (fig : level.Figures)
    {place : Bool → Decision} {order : OrderParams}
    (hplace : ∀ rearm, ∃ intent, place rearm = .placeOrder intent order)
    (horder : AcceptableOrder params fig order) :
    SendsAcceptable params fig (params.send place) := by
  rcases send_eq hseams hplace with ⟨-, intent, hsend⟩ | ⟨resting, intent, reason, -, hsend⟩
  · rw [hsend]
    refine ⟨by simp, ?_⟩
    simp only [List.mem_singleton, forall_eq, Decision.order, Option.some.injEq, Prod.mk.injEq]
    rintro intent' order' ⟨-, rfl⟩
    exact horder
  · rw [hsend]
    refine ⟨by simp, ?_⟩
    simp only [List.mem_singleton, forall_eq, Decision.order, Option.some.injEq, Prod.mk.injEq]
    rintro intent' order' ⟨-, rfl⟩
    exact horder

theorem acceptable_native (fig : level.Figures) (hwallet : FiniteWallet params)
    (hkept : KeptWhole params level) {full : FullSize} {sized : DecimalString}
    (hsized : Sized params level full sized) {delta : ℤ}
    (hbounds : WithinBelowBounds params.input.market.symbolInfo.filters.trailingDelta delta)
    {order : OrderParams} (htype : order.type = .stopLoss) (hquantity : order.quantity = sized)
    (hdelta : order.trailingDelta = some delta) : AcceptableOrder params fig order := by
  obtain ⟨q, hq, hround, hsize, hnotional⟩ := hsized.acceptable fig hwallet
  refine ⟨q, by rw [hquantity, hq], hkept.available.trans hround, hsize,
    .inr ⟨htype, ⟨delta, hdelta, hbounds⟩, ?_⟩⟩
  intro market hmarket hlimit
  exact notional_at_market fig hsize.pos hnotional hmarket hlimit

theorem percentPriceBySideRefusal_none {symbol reference : String}
    {band : Option PercentPriceBySideFilter} {desired : DesiredProtectiveStop} {guarded : Bool}
    (h : percentPriceBySideRefusal symbol reference band desired guarded = none)
    (guarded' : Bool) :
    percentPriceBySideRefusal symbol reference band desired guarded' = none := by
  unfold percentPriceBySideRefusal at h ⊢
  split
  next => rfl
  next b =>
    dsimp only at h ⊢
    split
    next ref stopPrice price href hstop hprice =>
      rw [href, hstop, hprice] at h
      dsimp only at h
      split at h
      next hinside => rw [if_pos hinside]
      next => simp at h
    next => rfl

theorem acceptable_priced (fig : level.Figures) (hwallet : FiniteWallet params)
    (hkept : KeptWhole params level) {full : FullSize} {sized : DecimalString}
    (hsized : Sized params level full sized)
    (hprimary : params.primaryNativeDelta = none) (hpending : full.pendingMinNotional = none)
    (hinside : params.outsideBand full (desiredStop level sized) = none) :
    AcceptableOrder params fig
      { type := .stopLossLimit, quantity := (desiredStop level sized).quantity,
        price := some (desiredStop level sized).price,
        stopPrice := some (desiredStop level sized).stopPrice,
        trailingDelta := none, timeInForce := some .gtc } := by
  obtain ⟨q, hq, hround, hsize, hnotional⟩ := hsized.acceptable fig hwallet
  refine ⟨q, hq, hkept.available.trans hround, hsize, .inl ⟨rfl, _, _,
    roundHalfUp fig.limit (num fig.tick).decimalPlaces, rfl, rfl, ?_, ?_, ?_⟩⟩
  · simp [desiredStop, toFixedStep, fig.limit_eq, fig.tick_eq]
  · simpa [sizingPrice, hpending, notionalPrice, hprimary, wire, fig.limit_eq,
      fig.tick_eq] using hnotional
  · exact percentPriceBySideRefusal_none hinside

theorem sizingPrice_of_primary {full : FullSize}
    (hprimary : params.primaryNativeDelta ≠ none) :
    params.sizingPrice level full = params.nativeNotionalPrice level := by
  unfold sizingPrice
  split
  next => exact notionalPrice_of_primary level hprimary
  next => rfl

theorem rearmsOutOfBounds_of_sized (fig : level.Figures) (hwallet : FiniteWallet params)
    {full : FullSize} {sized : DecimalString} {trail : PrimaryTrail} {native : NativeTrail}
    {delta restingDelta : ℤ} {resting : OpenOrder} (hsized : Sized params level full sized)
    (hprimary : NativePrimary params trail native delta) (hresting : params.resting = some resting)
    (hdelta : resting.trailingDelta = some restingDelta) (hloose : ¬delta < restingDelta)
    (hbounds :
      ¬WithinBelowBounds params.input.market.symbolInfo.filters.trailingDelta restingDelta)
    (hrearm : overQuantity resting (sized.toDecimal.getD nan) = true ∨
      (delta < restingDelta ∨ (underQuantity resting (sized.toDecimal.getD nan)).isSome) ∧
        highWaterGuard trail (effectiveDelta delta restingDelta) restingDelta = true) :
    RearmsOutOfBounds params level := by
  obtain ⟨q, hq, hround, -, -⟩ := hsized.acceptable fig hwallet
  have hfin := hsized.finalise_eq fig hwallet
  rw [sizingPrice_of_primary (by simp [hprimary.delta_eq])] at hfin
  rw [hq, Option.getD_some, effectiveDelta, if_neg hloose] at hrearm
  refine ⟨trail, native, delta, resting, restingDelta, hprimary, hresting, hdelta,
    not_lt.mp hloose, hbounds, by rw [sellableAtStop, hfin]; rfl, ?_⟩
  rw [hround]
  rcases hrearm with hover | ⟨htight | hunder, hguard⟩
  · exact .inl hover
  · exact absurd htight hloose
  · exact .inr ⟨hunder, hguard⟩

theorem arm_sendsAcceptable (hseams : LawfulSeams params) (henabled : params.enabled = true)
    (hlevel : params.level = some level) (fig : level.Figures) (hwallet : FiniteWallet params)
    (hkept : KeptWhole params level) (hbounds : ¬RearmsOutOfBounds params level) :
    SendsAcceptable params fig (evaluateProtectiveStopArm params) := by
  have houtcome := arm_outcome henabled hlevel
  generalize evaluateProtectiveStopArm params = arm at houtcome ⊢
  cases houtcome with
  | refused blocker => exact sendsAcceptable_none fig _
  | keptNative => exact sendsAcceptable_none fig _
  | keptPriced => exact sendsAcceptable_none fig _
  | sentNative hsized hprimary =>
      exact sendsAcceptable_send hseams fig
        (fun rearm => hseams.native _ hprimary.native_eq _ rearm)
        (acceptable_native fig hwallet hkept hsized (primaryNativeDelta_within hprimary.delta_eq)
          rfl rfl rfl)
  | @rearmedNative full sized trail native delta restingDelta resting hsized hprimary hresting
      hdelta hrearm =>
      have hwithin : WithinBelowBounds params.input.market.symbolInfo.filters.trailingDelta
          (effectiveDelta delta restingDelta) := by
        unfold effectiveDelta
        split
        next => exact primaryNativeDelta_within hprimary.delta_eq
        next hloose =>
          by_contra hout
          exact hbounds (rearmsOutOfBounds_of_sized fig hwallet hsized hprimary hresting hdelta
            hloose hout hrearm)
      obtain ⟨intent, hbuild⟩ := hseams.native _ hprimary.native_eq
        ⟨sized, effectiveDelta delta restingDelta⟩ true
      have hacc := sendsAcceptable_send hseams fig
        (fun rearm => hseams.native _ hprimary.native_eq
          ⟨sized, effectiveDelta delta restingDelta⟩ rearm)
        (acceptable_native fig hwallet hkept hsized hwithin rfl rfl rfl)
      rwa [send, hresting] at hacc
  | escaped hsized hprimary hnative hdelta houtside hfloor =>
      exact sendsAcceptable_send hseams fig (fun rearm => hseams.native _ hnative _ rearm)
        (acceptable_native fig hwallet hkept hsized (trailingDelta_within hdelta) rfl rfl rfl)
  | sentPriced hsized hprimary hpending hinside =>
      exact sendsAcceptable_send hseams fig (fun rearm => hseams.place _ rearm)
        (acceptable_priced fig hwallet hkept hsized hprimary hpending hinside)

/-- The re-arm at the resting delta goes out as it is. -/
theorem arm_rearms_at_restingDelta (hseams : LawfulSeams params)
    (henabled : params.enabled = true) (hlevel : params.level = some level) (fig : level.Figures)
    (hwallet : FiniteWallet params) (h : RearmsOutOfBounds params level) :
    ∃ d ∈ (evaluateProtectiveStopArm params).decisions, ∃ intent order delta,
      d.order = some (intent, order) ∧ order.type = .stopLoss ∧
      order.trailingDelta = some delta ∧
      ¬WithinBelowBounds params.input.market.symbolInfo.filters.trailingDelta delta := by
  obtain ⟨trail, native, delta, resting, restingDelta, hprimary, hresting, hdelta, hle, hout,
    hsell, hrearm⟩ := h
  obtain ⟨full, sized, hsized⟩ :=
    sized_of_sellable fig hwallet (by simp [hprimary.delta_eq]) hsell
  obtain ⟨q, hq, hround, -, -⟩ := hsized.acceptable fig hwallet
  rw [hround] at hrearm
  have hloose : ¬delta < restingDelta := not_lt.mpr hle
  have heval : evaluateProtectiveStopArm params =
      ⟨[params.buildReplace resting (native.build ⟨sized, restingDelta⟩ true)], none⟩ := by
    rw [evaluate_of_sized henabled hlevel hsized, decide_of_primary hprimary, decideNative,
      hresting]
    simp only [hdelta]
    unfold rearmNative
    dsimp only
    rw [if_pos, effectiveDelta, if_neg hloose]
    rw [hq, Option.getD_some, effectiveDelta, if_neg hloose]
    rcases hrearm with hover | ⟨hunder, hguard⟩
    · simp [hover]
    · by_cases hover : overQuantity resting (num q) = true
      · simp [hover]
      · simp [hunder, hguard]
  obtain ⟨intent, hbuild⟩ := hseams.native _ hprimary.native_eq ⟨sized, restingDelta⟩ true
  obtain ⟨reason, hreplace⟩ := hseams.replace resting intent
    { type := .stopLoss, quantity := sized, price := none, stopPrice := none,
      trailingDelta := some restingDelta, timeInForce := none }
  rw [heval, hbuild, hreplace]
  exact ⟨_, List.mem_singleton_self _, intent, _, restingDelta, rfl, rfl, rfl, hout⟩

/--
On figures the library keeps whole, every order the arm sends is one the
exchange can accept exactly when the arm is not re-arming a resting trail whose
own delta the symbol no longer accepts.
-/
theorem arm_acceptable_iff (hseams : LawfulSeams params) (henabled : params.enabled = true)
    (hlevel : params.level = some level) (fig : level.Figures) (hwallet : FiniteWallet params)
    (hkept : KeptWhole params level) :
    SendsAcceptable params fig (evaluateProtectiveStopArm params) ↔
      ¬RearmsOutOfBounds params level := by
  constructor
  · rintro ⟨-, hall⟩ hout
    obtain ⟨d, hd, intent, order, delta, horder, htype, hdelta, hnot⟩ :=
      arm_rearms_at_restingDelta hseams henabled hlevel fig hwallet hout
    obtain ⟨q, -, -, -, hpriced | hnative⟩ := hall d hd intent order horder
    · simp [hpriced.type_eq] at htype
    · obtain ⟨delta', hdelta', hwithin⟩ := hnative.bounds
      obtain rfl : delta = delta' := by simpa [hdelta] using hdelta'
      exact hnot hwithin
  · exact arm_sendsAcceptable hseams henabled hlevel fig hwallet hkept

def sampleFigures : sampleLevel.Figures where
  stop := 90
  limit := 8955 / 100
  held := 1
  tick := 1 / 100
  step := 1 / 1000
  minQty := 1 / 1000
  minNotional := 10
  stop_eq := rfl
  limit_eq := rfl
  held_eq := rfl
  tick_eq := rfl
  step_eq := rfl
  minQty_eq := rfl
  minNotional_eq := rfl
  stop_pos := by norm_num
  limit_le_stop := by norm_num
  held_pos := by norm_num
  tick_pos := by norm_num
  step_pos := by norm_num
  step_terminating := ⟨3, 1, by norm_num⟩

theorem sampleParams_finiteWallet (openOrders : List OpenOrder) (free locked reclaimable : ℚ)
    (primaryTrail : Option PrimaryTrail) :
    FiniteWallet (sampleParams openOrders free locked reclaimable primaryTrail) where
  free := by
    intro f hf
    simp only [sizable, sizableBase, freeBalance, sampleParams, sampleMarket] at hf
    obtain rfl : num free = f := by simpa using hf
    rfl
  reclaimable := by
    simp [sizable, sizableBase, walletLocked, sampleParams, sampleMarket]

/-- The native primary inputs of the sample position, at a distance of one tenth. -/
def sampleTrail : PrimaryTrail := ⟨num (1 / 10), num 100, none⟩

theorem arm_acceptable_iff_unarmed :
    SendsAcceptable (sampleParams [] 1 0 0 (some sampleTrail)) sampleFigures
      (evaluateProtectiveStopArm (sampleParams [] 1 0 0 (some sampleTrail))) := by
  refine (arm_acceptable_iff (sampleParams_lawful _ _ _ _ _) rfl rfl sampleFigures
    (sampleParams_finiteWallet _ _ _ _ _) (by unfold KeptWhole; decide +kernel)).mpr ?_
  rintro ⟨-, -, -, resting, -, -, hresting, -⟩
  simp [ProtectiveStopArmParams.resting, findRestingProtectiveStop, sampleParams] at hresting

/--
A trail of ours rests over twice the position at five basis points, on a symbol
that accepts no less than ten: the re-arm sends five again.
-/
theorem arm_sends_delta_below_minimum :
    let params := sampleParams [sampleResting "2" none (some 5)] 0 2 2 (some sampleTrail)
    ¬SendsAcceptable params sampleFigures (evaluateProtectiveStopArm params) := by
  intro params hsends
  have heval : evaluateProtectiveStopArm params =
      ⟨[.replaceOrder 7 "superseded" sampleIntent
        { type := .stopLoss, quantity := .printed (num 1), price := none, stopPrice := none
          trailingDelta := some 5, timeInForce := none }], none⟩ := by
    decide +kernel
  rw [heval] at hsends
  obtain ⟨q, -, -, -, hpriced | hnative⟩ := hsends.2 _ (List.mem_singleton_self _) _ _ rfl
  · exact absurd hpriced.type_eq (by decide)
  · obtain ⟨delta, hdelta, f, hf, hmin, -⟩ := hnative.bounds
    obtain rfl : 5 = delta := by simpa using hdelta
    obtain rfl := Option.some.inj hf
    norm_num at hmin

end TradingBot
