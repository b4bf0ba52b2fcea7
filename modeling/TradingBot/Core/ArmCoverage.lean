import TradingBot.Core.ArmOutcome

/-!
# The arm never drops protection silently

An armed position keeps a stop or an explanation. The arm retires a resting
stop only inside the request that replaces it, it never ends without an order,
a reason or a stop of ours on the book, and a stop it keeps in silence sells
more than ninety-nine hundredths of what the arm sized.
-/

namespace TradingBot

open Decimal Grid ProtectiveStopArmParams

variable {Config State Bundle : Type}
  {params : ProtectiveStopArmParams Config State Bundle} {level : ProtectiveStopLevel}

/-! ### Sized quantities -/

theorem finalise_quantity {quantity price : Decimal} {filters : SizeFilters} {s : DecimalString}
    (h : finalise quantity price filters = .ok s) :
    s.toDecimal = some (inf false) ∨ ∃ q, s.toDecimal = some (num q) := by
  obtain ⟨hpos, -, hnotional, rfl⟩ := finalise_eq_ok h
  cases quantity with
  | nan => simp [meetsMinNotional, gte] at hnotional
  | inf s => cases s <;> simp_all [lte, toFixedStep, toDecimalPlaces]
  | num q => exact .inr ⟨_, rfl⟩

/-- A sized quantity is a number, unless the tracked position itself is infinite. -/
theorem Sized.quantity {full : FullSize} {sized : DecimalString}
    (h : Sized params level full sized) :
    sized.toDecimal = some (inf false) ∨ ∃ q, sized.toDecimal = some (num q) := by
  rcases sizeArm_eq_ok h.sized_eq with ⟨rfl, -⟩ | ⟨free, -, hpartial⟩
  · exact finalise_quantity (sizeFull_eq_ok h.full_eq)
  · exact finalise_quantity hpartial

/-! ### What a kept stop sells -/

/-- A resting remainder inside the quantity band exceeds ninety-nine hundredths of the size. -/
theorem quantityDrifted_false {resting : OpenOrder} {sized : DecimalString} {remaining : ℚ}
    (hremaining : unfilledQuantity resting = some (num remaining))
    (hsized : sized.toDecimal = some (inf false) ∨ ∃ q, sized.toDecimal = some (num q))
    (hdrift : quantityDrifted resting sized = false) :
    ∃ q, sized.toDecimal = some (num q) ∧ 99 / 100 * q < remaining := by
  rcases hsized with hinf | ⟨q, hq⟩
  · simp [quantityDrifted, hremaining, hinf, sub, neg, add, Decimal.abs, mul, gte, lte,
      minQtyDrift, negative] at hdrift
  · refine ⟨q, hq, ?_⟩
    simp only [quantityDrifted, hremaining, hq, sub_num, abs_num, minQtyDrift, mul_num, gte_num,
      decide_eq_false_iff_not, not_le] at hdrift
    have hlow := (abs_lt.mp hdrift).1
    linarith

theorem underQuantity_none {resting : OpenOrder} {sized : DecimalString} {remaining : ℚ}
    (hremaining : unfilledQuantity resting = some (num remaining))
    (hsized : sized.toDecimal = some (inf false) ∨ ∃ q, sized.toDecimal = some (num q))
    (hunder : underQuantity resting (sized.toDecimal.getD nan) = none) :
    ∃ q, sized.toDecimal = some (num q) ∧ 99 / 100 * q < remaining := by
  simp only [underQuantity, hremaining, Option.filter_eq_none_iff] at hunder
  have hshort := hunder _ rfl
  rcases hsized with hinf | ⟨q, hq⟩
  · simp [hinf, sub, neg, add, mul, gte, lte, minQtyDrift, negative] at hshort
  · refine ⟨q, hq, ?_⟩
    simp only [hq, Option.getD_some, sub_num, minQtyDrift, mul_num, gte_num,
      decide_eq_true_eq, not_le] at hshort
    linarith

/-- A resting stop that serves is compared on its size, once its trigger reads back. -/
theorem quantityDrifted_of_serves {resting : OpenOrder} {stopPrice sized : DecimalString}
    {drift : Decimal} {delta : Option ℤ}
    (hserves : protectiveStopNeedsRearm resting stopPrice sized drift delta = false)
    (hstop : resting.trailingDelta = none → (safeDecimal resting.stopPrice).isSome = true) :
    quantityDrifted resting sized = false := by
  unfold protectiveStopNeedsRearm at hserves
  split at hserves
  next =>
    split at hserves
    next => simp at hserves
    next => exact hserves
  next => simp at hserves
  next hresting =>
    split at hserves
    next hnone => simp [hnone] at hstop; exact absurd hresting hstop
    next =>
      split at hserves
      next => simp at hserves
      next => exact hserves

/-! ### The law -/

/-- Everything the arm promises about protection that is already on the book. -/
structure KeepsProtection (params : ProtectiveStopArmParams Config State Bundle)
    (level : ProtectiveStopLevel) (arm : ProtectiveStopArm) : Prop where
  /-- A resting stop leaves the book only in the request that replaces it. -/
  retires_by_replacing : ∀ d ∈ arm.decisions, ∀ id, d.cancels = some id →
    ∃ resting reason intent order, params.resting = some resting ∧ id = resting.orderId ∧
      d = .replaceOrder resting.orderId reason intent order
  /-- Without a decision there is a reason, or a stop of ours still rests. -/
  explains : arm.decisions = [] → arm.blocker.isSome = true ∨
    ∃ o ∈ params.input.openOrders,
      o.clientOrderId = params.ourClientOrderId ∧ isRestingSell o = true
  /-- A stop kept in silence sells more than ninety-nine hundredths of what was sized. -/
  covers : arm.decisions = [] → arm.blocker = none → ∀ resting orig executed,
    params.resting = some resting →
    safeDecimal resting.origQty = some (num orig) →
    safeDecimal resting.executedQty = some (num executed) →
    (resting.trailingDelta = none → (safeDecimal resting.stopPrice).isSome = true) →
    ∃ full sized q, Sized params level full sized ∧ sized.toDecimal = some (num q) ∧
      99 / 100 * q < orig - executed

theorem resting_mem {resting : OpenOrder} (h : params.resting = some resting) :
    resting ∈ params.input.openOrders ∧ resting.clientOrderId = params.ourClientOrderId ∧
      isRestingSell resting = true := by
  have hmem := List.mem_of_find?_eq_some h
  have hown := List.find?_some h
  simp only [Bool.and_eq_true, beq_iff_eq] at hown
  exact ⟨hmem, hown.1, hown.2⟩

theorem keepsProtection_refused (blocker : ProtectiveStopBlocker) :
    KeepsProtection params level (refuse blocker) where
  retires_by_replacing := by simp [refuse]
  explains := by simp [refuse]
  covers := by simp [refuse]

theorem keepsProtection_settled {resting : OpenOrder} (hresting : params.resting = some resting)
    (hcovers : ∀ remaining, unfilledQuantity resting = some (num remaining) →
      (resting.trailingDelta = none → (safeDecimal resting.stopPrice).isSome = true) →
      ∃ full sized q, Sized params level full sized ∧ sized.toDecimal = some (num q) ∧
        99 / 100 * q < remaining) :
    KeepsProtection params level settled where
  retires_by_replacing := by simp [settled]
  explains := fun _ => .inr ⟨resting, resting_mem hresting⟩
  covers := by
    intro _ _ resting' orig executed hresting' horig hexecuted hstop
    obtain rfl : resting = resting' := by simpa [hresting] using hresting'
    exact hcovers (orig - executed) (by simp [unfilledQuantity, horig, hexecuted]) hstop

theorem keepsProtection_order {d : Decision} {blocker : Option ProtectiveStopBlocker}
    (hd : ∀ id, d.cancels = some id →
      ∃ resting reason intent order, params.resting = some resting ∧ id = resting.orderId ∧
        d = .replaceOrder resting.orderId reason intent order) :
    KeepsProtection params level ⟨[d], blocker⟩ where
  retires_by_replacing := by simpa using hd
  explains := by simp
  covers := by simp

theorem keepsProtection_send (hseams : LawfulSeams params) {place : Bool → Decision}
    {order : OrderParams} (hplace : ∀ rearm, ∃ intent, place rearm = .placeOrder intent order) :
    KeepsProtection params level (params.send place) := by
  rcases send_eq hseams hplace with ⟨-, intent, hsend⟩ | ⟨resting, intent, reason, hrest, hsend⟩
  · rw [hsend]
    exact keepsProtection_order (by simp [Decision.cancels])
  · rw [hsend]
    refine keepsProtection_order fun id hid => ?_
    simp only [Decision.cancels, Option.some.injEq] at hid
    exact ⟨resting, reason, intent, order, hrest, hid.symm, rfl⟩

/--
The arm never loses protection silently: it retires a resting stop only by
replacing it, it explains every tick on which nothing of ours rests, and a stop
it keeps without a word covers the size it computed.
-/
theorem arm_keepsProtection (hseams : LawfulSeams params) (henabled : params.enabled = true)
    (hlevel : params.level = some level) :
    KeepsProtection params level (evaluateProtectiveStopArm params) := by
  have houtcome := arm_outcome henabled hlevel
  generalize evaluateProtectiveStopArm params = arm at houtcome ⊢
  cases houtcome with
  | refused blocker => exact keepsProtection_refused blocker
  | keptNative hsized hprimary hresting hdelta hunder =>
      refine keepsProtection_settled hresting fun remaining hremaining _ => ?_
      obtain ⟨q, hq, hlt⟩ := underQuantity_none hremaining hsized.quantity hunder
      exact ⟨_, _, q, hsized, hq, hlt⟩
  | keptPriced hsized hresting hserves =>
      refine keepsProtection_settled hresting fun remaining hremaining hstop => ?_
      have hdrift := quantityDrifted_of_serves hserves hstop
      obtain ⟨q, hq, hlt⟩ := quantityDrifted_false hremaining hsized.quantity hdrift
      exact ⟨_, _, q, hsized, hq, hlt⟩
  | sentNative hsized hprimary =>
      exact keepsProtection_send hseams fun rearm =>
        hseams.native _ hprimary.native_eq _ rearm
  | rearmedNative hsized hprimary hresting hdelta hrearm =>
      obtain ⟨intent, hbuild⟩ := hseams.native _ hprimary.native_eq _ true
      obtain ⟨reason, hreplace⟩ := hseams.replace _ intent _
      rw [hbuild, hreplace]
      refine keepsProtection_order fun id hid => ?_
      simp only [Decision.cancels, Option.some.injEq] at hid
      exact ⟨_, reason, intent, _, hresting, hid.symm, rfl⟩
  | escaped hsized hprimary hnative hdelta houtside hfloor =>
      exact keepsProtection_send hseams fun rearm => hseams.native _ hnative _ rearm
  | sentPriced hsized hprimary hpending hinside =>
      exact keepsProtection_send hseams fun rearm => hseams.place _ rearm

theorem arm_keepsProtection_resting :
    let params := sampleParams [sampleResting "1" (some "90") none] 0 1 1 none
    evaluateProtectiveStopArm params = settled ∧
      KeepsProtection params sampleLevel (evaluateProtectiveStopArm params) :=
  ⟨by decide +kernel, arm_keepsProtection (sampleParams_lawful _ _ _ _ _) rfl rfl⟩

end TradingBot
