import TradingBot.Core.ArmSafety
import TradingBot.Lib.LabelledRun

/-!
# Re-arming a native trail

The exchange sells a native trail at a distance below the highest mark it has
seen since the order was placed, and a replacement starts that mark over. In
the native primary mode the arm replaces a trail only where the new trigger is
not below the one the old order had climbed to, so along a run of ticks the
trigger never falls.
-/

namespace TradingBot

open Decimal Grid ProtectiveStopArmParams LabelledRun

variable {Config State Bundle : Type}
  {params : ProtectiveStopArmParams Config State Bundle} {level : ProtectiveStopLevel}
  {primary : PrimaryTrail} {native : NativeTrail} {resting : OpenOrder} {delta restingDelta : ℤ}

/-! ### One re-arm -/

/-- The unfilled remainder of the resting order exceeds what the arm wants by the quantity band. -/
def oversized (params : ProtectiveStopArmParams Config State Bundle) (level : ProtectiveStopLevel)
    (resting : OpenOrder) : Bool :=
  match params.sizeFull level with
  | .error _ => false
  | .ok full =>
      match params.sizeArm level full with
      | .error _ => false
      | .ok sized => overQuantity resting (sized.toDecimal.getD nan)

/-- The distance of the trail a replacement sends. -/
def rearmedDelta : Decision → Option ℤ
  | .replaceOrder _ _ _ order => order.trailingDelta
  | _ => none

theorem decisions_native (hlevel : params.level = some level)
    (hprimary : NativePrimary params primary native delta)
    (hresting : params.resting = some resting)
    (hdelta : resting.trailingDelta = some restingDelta) :
    (evaluateProtectiveStopArm params).decisions = [] ∨
      ∃ full sized, Sized params level full sized ∧ evaluateProtectiveStopArm params =
        params.rearmNative level primary native delta restingDelta resting sized := by
  cases henabled : params.enabled with
  | false => exact .inl (by simp [evaluateProtectiveStopArm, henabled])
  | true =>
      cases hfull : params.sizeFull level with
      | error blocker =>
          refine .inl ?_
          simp [evaluateProtectiveStopArm, henabled, hlevel, hfull, refuse]
      | ok full =>
          cases hsized : params.sizeArm level full with
          | error blocker =>
              refine .inl ?_
              simp [evaluateProtectiveStopArm, henabled, hlevel, hfull, hsized, refuse]
          | ok sized =>
              refine .inr ⟨full, sized, ⟨hfull, hsized⟩, ?_⟩
              rw [evaluate_of_sized henabled hlevel ⟨hfull, hsized⟩, decide_of_primary hprimary,
                decideNative, hresting]
              dsimp only
              rw [hdelta]

theorem rearmNative_decisions {sized : DecimalString} {d : Decision}
    (hsize : overQuantity resting (sized.toDecimal.getD nan) = false)
    (hd : d ∈
      (params.rearmNative level primary native delta restingDelta resting sized).decisions) :
    d = params.buildReplace resting (native.build ⟨sized, effectiveDelta delta restingDelta⟩ true) ∧
      highWaterGuard primary (effectiveDelta delta restingDelta) restingDelta = true := by
  unfold rearmNative at hd
  dsimp only at hd
  split at hd
  · next hrearm =>
      refine ⟨List.mem_singleton.mp hd, ?_⟩
      simp only [hsize, Bool.false_or, Bool.not_false, Bool.true_and, Bool.and_eq_true] at hrearm
      exact hrearm.2.2
  · split at hd
    · cases hd
    · cases hd

theorem effectiveDelta_le_resting : effectiveDelta delta restingDelta ≤ restingDelta := by
  unfold effectiveDelta
  split
  · next htighter => exact htighter.le
  · exact le_rfl

/-- What a replacement of a trail carries, where the resting order is not too large. -/
theorem rearmed_guarded (hseams : LawfulSeams params) (hlevel : params.level = some level)
    (hprimary : NativePrimary params primary native delta)
    (hresting : params.resting = some resting)
    (hdelta : resting.trailingDelta = some restingDelta)
    (hsize : oversized params level resting = false) {d : Decision} {rearmed : ℤ}
    (hd : d ∈ (evaluateProtectiveStopArm params).decisions)
    (hcarried : rearmedDelta d = some rearmed) :
    rearmed ≤ restingDelta ∧ highWaterGuard primary rearmed restingDelta = true := by
  rcases decisions_native hlevel hprimary hresting hdelta with hnone | ⟨full, sized, hsized, heq⟩
  · rw [hnone] at hd
    cases hd
  have hwithin : overQuantity resting (sized.toDecimal.getD nan) = false := by
    rw [oversized, hsized.full_eq] at hsize
    dsimp only at hsize
    rwa [hsized.sized_eq] at hsize
  rw [heq] at hd
  obtain ⟨rfl, hguard⟩ := rearmNative_decisions hwithin hd
  obtain ⟨intent, hbuild⟩ := hseams.native _ hprimary.native_eq
    ⟨sized, effectiveDelta delta restingDelta⟩ true
  obtain ⟨reason, hreplace⟩ := hseams.replace resting intent
    { type := .stopLoss, quantity := sized, price := none, stopPrice := none
      trailingDelta := some (effectiveDelta delta restingDelta), timeInForce := none }
  rw [hbuild, hreplace] at hcarried
  obtain rfl := Option.some.inj hcarried
  exact ⟨effectiveDelta_le_resting, hguard⟩

/-! ### Runs of ticks -/

/-- A native trail on the exchange: its distance, and the highest mark since it was placed. -/
structure RestingTrail where
  delta : ℤ
  high : ℚ
deriving DecidableEq

namespace RestingTrail

/-- The level at which the exchange sells. -/
def trigger (trail : RestingTrail) : ℚ := trail.high * (1 - trail.delta / 10000)

/-- One tick: the arm's seams, the mark, and whether the exchange takes what the arm sends. -/
structure Tick (Config State Bundle : Type) where
  params : ProtectiveStopArmParams Config State Bundle
  mark : ℚ
  lands : Bool

/-- The exchange follows the mark, and a replacement that lands starts over from it. -/
def step (trail : RestingTrail) (tick : Tick Config State Bundle) : Option RestingTrail :=
  let sent := (evaluateProtectiveStopArm tick.params).decisions.findSome? rearmedDelta
  match sent.filter fun _ => tick.lands with
  | some delta => some ⟨delta, tick.mark⟩
  | none => some { trail with high := max trail.high tick.mark }

/-- The tick runs in the native primary mode over the trail, which it does not find too large, and
knows the running maximum of the mark. -/
structure Follows (trail : RestingTrail) (tick : Tick Config State Bundle) : Prop where
  seams : LawfulSeams tick.params
  beyond : ∃ level primary native delta resting, tick.params.level = some level ∧
    NativePrimary tick.params primary native delta ∧ tick.params.resting = some resting ∧
    resting.trailingDelta = some trail.delta ∧ oversized tick.params level resting = false ∧
    primary.markPrice = num tick.mark ∧ primary.restingHigh = some (num (max trail.high tick.mark))

variable {trail trail' : RestingTrail} {tick : Tick Config State Bundle}

theorem Follows.step (h : trail.Follows tick) (hbound : trail.delta ≤ 10000)
    (hstep : trail.step tick = some trail') :
    trail'.delta ≤ trail.delta ∧ trail.trigger ≤ trail'.trigger := by
  obtain ⟨level, primary, native, delta, resting, hlevel, hprimary, hresting, hdelta, hsize, hmark,
    hhigh⟩ := h.beyond
  have hfactor : (0 : ℚ) ≤ 1 - trail.delta / 10000 := by
    have hcast : (trail.delta : ℚ) ≤ 10000 := by exact_mod_cast hbound
    linarith
  have hgrown : trail.trigger ≤ max trail.high tick.mark * (1 - trail.delta / 10000) :=
    mul_le_mul_of_nonneg_right (le_max_left _ _) hfactor
  unfold RestingTrail.step at hstep
  dsimp only at hstep
  split at hstep
  · next rearmed hsent =>
      cases hstep
      obtain ⟨d, hd, hcarried⟩ :=
        List.exists_of_findSome?_eq_some (Option.filter_eq_some_iff.mp hsent).1
      obtain ⟨hle, hguard⟩ :=
        rearmed_guarded h.seams hlevel hprimary hresting hdelta hsize hd hcarried
      refine ⟨hle, hgrown.trans ?_⟩
      -- the mark the arm compares with is the running maximum itself
      have hrunning : max (max trail.high tick.mark) tick.mark = max trail.high tick.mark :=
        max_eq_left (le_max_right _ _)
      have hten : (10000 : ℚ) ≠ 0 := by norm_num
      simpa [highWaterGuard, trailTrigger, hmark, hhigh, hrunning, trigger, div_num hten]
        using hguard
  · cases hstep
    exact ⟨le_rfl, hgrown⟩

end RestingTrail

/-- A resolved distance is at most the whole price. -/
theorem nativeTrailingDelta_le {distance : Decimal} {filter : Option TrailingDeltaFilter}
    (h : nativeTrailingDelta distance filter = some delta) : delta ≤ 10000 := by
  unfold nativeTrailingDelta at h
  split at h
  · cases h
  split at h
  · cases h
  split at h
  · cases h
  next hrange =>
  cases distance with
  | nan => simp [Decimal.isFinite] at hrange
  | inf negative => simp [Decimal.isFinite] at hrange
  | num q =>
      have hlt : 0 < q ∧ q < 1 := by simpa [Decimal.isFinite] using hrange
      simp only [mul_num, toDecimalPlaces_num] at h
      split at h
      · have hround : roundHalfUp (q * 10000) 0 ≤ 10000 := by
          have hmono := roundHalfUp_mono (by linarith [hlt.2] : q * 10000 ≤ 10000) 0
          rwa [roundHalfUp_eq_self (q := 10000) ⟨10000, by norm_num⟩] at hmono
        have hfloor : ((⌊roundHalfUp (q * 10000) 0⌋ : ℤ) : ℚ) ≤ 10000 :=
          (Int.floor_le _).trans hround
        rw [← Option.some.inj h]
        exact_mod_cast hfloor
      · cases h

/-- A re-armed native trail is no wider and starts from a trigger at or above the one it retires,
and along a run of ticks from a trail the arm could have placed the trigger never falls. -/
theorem native_rearm_never_lowers :
    (∀ {params : ProtectiveStopArmParams Config State Bundle} {level : ProtectiveStopLevel}
        {primary : PrimaryTrail} {native : NativeTrail} {resting : OpenOrder}
        {delta restingDelta rearmed : ℤ} {d : Decision}, LawfulSeams params →
      params.level = some level → NativePrimary params primary native delta →
      params.resting = some resting → resting.trailingDelta = some restingDelta →
      oversized params level resting = false →
      d ∈ (evaluateProtectiveStopArm params).decisions → rearmedDelta d = some rearmed →
      rearmed ≤ restingDelta ∧
        (primary.markPrice.mul ((num 1).sub ((num rearmed).div (num 10000)))).gte
          (((primary.restingHigh.getD primary.markPrice).max primary.markPrice).mul
            ((num 1).sub ((num restingDelta).div (num 10000)))) = true) ∧
      (∀ {trail trail' : RestingTrail} {distance : Decimal} {filter : Option TrailingDeltaFilter},
        nativeTrailingDelta distance filter = some trail.delta →
        Reach (@RestingTrail.step Config State Bundle) RestingTrail.Follows trail trail' →
        trail.trigger ≤ trail'.trigger) := by
  refine ⟨?_, ?_⟩
  · intro params level primary native resting delta restingDelta rearmed d hseams hlevel hprimary
      hresting hdelta hsize hd hcarried
    exact rearmed_guarded hseams hlevel hprimary hresting hdelta hsize hd hcarried
  · intro trail trail' distance filter hplaced hrun
    have hkept : trail'.delta ≤ 10000 ∧ trail.trigger ≤ trail'.trigger := by
      refine hrun.invariant (P := fun now => now.delta ≤ 10000 ∧ trail.trigger ≤ now.trigger)
        ⟨nativeTrailingDelta_le hplaced, le_rfl⟩ ?_
      rintro now tick next ⟨hbound, hlevel⟩ hfollows hstep
      obtain ⟨hdelta, htrigger⟩ := hfollows.step hbound hstep
      exact ⟨hdelta.trans hbound, hlevel.trans htrigger⟩
    exact hkept.2

/-- A trail of ten percent, tightened to five at its high. -/
def tightenedTick : RestingTrail.Tick Unit Unit Unit where
  params := sampleParams [sampleResting "1" none (some 1000)] 0 1 1
    (some ⟨num (5 / 100), num 100, some (num 100)⟩)
  mark := 100
  lands := true

theorem tightened_trail_holds :
    Reach (@RestingTrail.step Unit Unit Unit) RestingTrail.Follows ⟨1000, 100⟩ ⟨500, 100⟩ ∧
      RestingTrail.trigger ⟨1000, 100⟩ ≤ RestingTrail.trigger ⟨500, 100⟩ := by
  have hfollows : RestingTrail.Follows ⟨1000, 100⟩ tightenedTick := by
    refine ⟨sampleParams_lawful _ _ _ _ _, sampleLevel, _, _, 500,
      sampleResting "1" none (some 1000),
      rfl, ⟨rfl, rfl, ?_⟩, ?_, rfl, ?_, rfl, ?_⟩
    · decide +kernel
    · decide +kernel
    · decide +kernel
    · simp [tightenedTick]
  have hstep : RestingTrail.step ⟨1000, 100⟩ tightenedTick = some ⟨500, 100⟩ := by decide +kernel
  have hrun : Reach (@RestingTrail.step Unit Unit Unit) RestingTrail.Follows
      ⟨1000, 100⟩ ⟨500, 100⟩ :=
    .single ⟨tightenedTick, hfollows, hstep⟩
  have hplaced : nativeTrailingDelta (num (1 / 10)) (some ⟨10, 2000⟩) = some 1000 := by
    decide +kernel
  exact ⟨hrun, native_rearm_never_lowers.2 hplaced hrun⟩

end TradingBot
