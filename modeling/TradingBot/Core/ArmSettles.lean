import TradingBot.Core.ArmSafety

/-!
# The arm settles in one step

Once the order of a tick rests on the exchange, and the wallet has moved its
quantity from free to locked, the same arm has nothing left to do. The base it
sizes against is invariant under that transfer, so it sizes the same quantity,
and every comparison it makes is then between what it sent and what it wants.
The comparison of triggers asks for a drift of at least a fraction of the
trigger, so it needs both to be positive: a trigger that prints as zero, or a
band of zero, is sent again on every tick.
-/

namespace TradingBot

open Decimal Grid ProtectiveStopArmParams

variable {Config State Bundle : Type}
  {params : ProtectiveStopArmParams Config State Bundle} {level : ProtectiveStopLevel}

/-! ### The exchange takes the order -/

/-- An order as the next snapshot of open orders shows it. -/
def ProtectiveStopArmParams.sentOrder (params : ProtectiveStopArmParams Config State Bundle)
    (order : OrderParams) (orderId : ℕ) (atMs : ℤ) : OpenOrder :=
  { orderId, clientOrderId := params.ourClientOrderId, symbol := params.input.market.symbol
    side := .sell, type := order.type, status := "NEW", price := order.price.getD (.raw "0")
    origQty := order.quantity, executedQty := .raw "0", stopPrice := order.stopPrice
    trailingDelta := order.trailingDelta, transactTimeMs := atMs }

/-- Whether an open order is a resting stop of ours. -/
def ProtectiveStopArmParams.ownResting (params : ProtectiveStopArmParams Config State Bundle)
    (o : OpenOrder) : Bool :=
  o.clientOrderId == params.ourClientOrderId && isRestingSell o

/-- The wallet after `released` came back from the book and `sent` went onto it. -/
def AccountSnapshot.moveToLocked (account : AccountSnapshot) (asset : String)
    (released sent : Decimal) : AccountSnapshot :=
  { account with
    balances := fun a =>
      if a = asset then
        (account.balances a).map fun line =>
          { free := (line.free.add released).sub sent
            locked := (line.locked.sub released).add sent }
      else account.balances a }

/--
The next input: our resting stop is gone and the sent order rests in its place,
the wallet has moved the sent quantity from free to locked after releasing what
the replaced order held, and the reclaimable base is read off the new book.
-/
def ProtectiveStopArmParams.afterSend (params : ProtectiveStopArmParams Config State Bundle)
    (order : OrderParams) (orderId : ℕ) (atMs : ℤ) :
    ProtectiveStopArmParams Config State Bundle :=
  let symbol := params.input.market.symbol
  let released := ownRestingSellBase params.input.openOrders params.ourClientOrderId symbol
  let openOrders :=
    params.input.openOrders.filter (fun o => !params.ownResting o) ++
      [params.sentOrder order orderId atMs]
  { params with
    input :=
      { params.input with
        openOrders
        account := params.input.account.moveToLocked params.input.market.symbolInfo.baseAsset
          released (order.quantity.toDecimal.getD nan) }
    reclaimableBase := ownRestingSellBase openOrders params.ourClientOrderId symbol }

/-- What a strategy promises when it calls the arm. -/
structure LawfulCall (params : ProtectiveStopArmParams Config State Bundle)
    (fig : level.Figures) : Prop where
  /-- The reclaimable base is what our own resting stops lock. -/
  reclaimable_eq : params.reclaimableBase =
    ownRestingSellBase params.input.openOrders params.ourClientOrderId params.input.market.symbol
  reclaimable_finite : params.reclaimableBase.isFinite = true
  wallet_finite : ∀ line,
    params.input.account.balances params.input.market.symbolInfo.baseAsset = some line →
    line.free.isFinite = true ∧ line.locked.isFinite = true
  /-- The trigger does not print as zero. -/
  trigger_pos : 0 < roundHalfUp fig.stop (num fig.tick).decimalPlaces
  drift_pos : ∀ d, params.minStopDrift = some d → ∃ q : ℚ, d = num q ∧ 0 < q

theorem LawfulCall.walletLocked_finite {fig : level.Figures} (h : LawfulCall params fig) :
    (walletLocked params.input.account
      params.input.market.symbolInfo.baseAsset).isFinite = true := by
  unfold walletLocked
  split
  next line hline => exact (h.wallet_finite line hline).2
  next => rfl

theorem LawfulCall.finiteWallet {fig : level.Figures} (h : LawfulCall params fig) :
    FiniteWallet params where
  free := by
    intro f hf
    simp only [sizable, sizableBase, freeBalance] at hf
    split at hf
    next => simp at hf
    next =>
      split at hf
      next line hline =>
        obtain rfl := Option.some.inj hf
        exact (h.wallet_finite line hline).1
      next =>
        obtain rfl := Option.some.inj hf
        rfl
  reclaimable := by
    obtain ⟨r, hr⟩ := isFinite_iff.mp h.reclaimable_finite
    obtain ⟨l, hl⟩ := isFinite_iff.mp h.walletLocked_finite
    simp [sizable, sizableBase, hr, hl]

/-! ### The book after the order -/

section AfterSend

variable (order : OrderParams) (orderId : ℕ) (atMs : ℤ)

theorem sentOrder_ownResting : params.ownResting (params.sentOrder order orderId atMs) = true := by
  have hstatus : isRestingStatus "NEW" = true := by decide +kernel
  simp [ownResting, sentOrder, isRestingSell, hstatus]

theorem afterSend_resting :
    (params.afterSend order orderId atMs).resting = some (params.sentOrder order orderId atMs) := by
  have hfiltered : (params.input.openOrders.filter fun o => !params.ownResting o).find?
      params.ownResting = none := by
    rw [List.find?_eq_none]
    intro o ho
    simpa using (List.mem_filter.mp ho).2
  have hfind : ((params.input.openOrders.filter fun o => !params.ownResting o) ++
      [params.sentOrder order orderId atMs]).find? params.ownResting =
      some (params.sentOrder order orderId atMs) := by
    rw [List.find?_append, hfiltered, Option.none_or]
    simp [sentOrder_ownResting order orderId atMs]
  exact hfind

theorem parse_zero : parse "0" = some (num 0) := by decide +kernel

theorem sentOrder_unfilled {q : ℚ} (hq : order.quantity.toDecimal = some (num q)) :
    unfilledQuantity (params.sentOrder order orderId atMs) = some (num q) := by
  simp [unfilledQuantity, safeDecimal, sentOrder, hq, parse_zero]

theorem foldl_ownResting_filter (orders : List OpenOrder) (ourClientOrderId symbol : String)
    (sum : Decimal) :
    (orders.filter fun o => !(o.clientOrderId == ourClientOrderId && isRestingSell o)).foldl
      (addOwnRemainder ourClientOrderId symbol) sum = sum := by
  induction orders generalizing sum with
  | nil => rfl
  | cons o orders ih =>
      rw [List.filter_cons]
      split
      next hforeign =>
        have hnone : ownRestingRemainder ourClientOrderId symbol o = none := by
          unfold ownRestingRemainder
          rw [if_pos]
          simp only [Bool.not_eq_true', Bool.and_eq_false_iff, beq_eq_false_iff_ne] at hforeign
          simp only [Bool.or_eq_true, bne_iff_ne, Bool.not_eq_true']
          rcases hforeign with hid | hrest
          · exact .inl (.inr hid)
          · exact .inr hrest
        rw [List.foldl_cons, addOwnRemainder, hnone]
        exact ih sum
      next => exact ih sum

theorem afterSend_reclaimable {q : ℚ} (hq : order.quantity.toDecimal = some (num q))
    (hpos : 0 < q) : (params.afterSend order orderId atMs).reclaimableBase = num q := by
  have hown : params.ownResting (params.sentOrder order orderId atMs) = true :=
    sentOrder_ownResting order orderId atMs
  simp only [ownResting, Bool.and_eq_true, beq_iff_eq] at hown
  have hrem : ownRestingRemainder params.ourClientOrderId params.input.market.symbol
      (params.sentOrder order orderId atMs) = some (num q) := by
    unfold ownRestingRemainder
    rw [if_neg, sentOrder_unfilled order orderId atMs hq]
    · simp [hpos]
    · rw [hown.1, hown.2]
      simp [sentOrder]
  unfold afterSend ownRestingSellBase
  dsimp only
  rw [List.foldl_append]
  unfold ownResting
  rw [foldl_ownResting_filter]
  simp [addOwnRemainder, hrem]

/-- The transfer from free to locked leaves the base the arm may commit unchanged. -/
theorem afterSend_available {fig : level.Figures} (hcall : LawfulCall params fig) {full : FullSize}
    {sized : DecimalString} (hsized : Sized params level full sized)
    (horder : order.quantity = sized) :
    (params.afterSend order orderId atMs).available level = params.available level ∧
      (params.afterSend order orderId atMs).sizable.free.isSome =
        params.sizable.free.isSome := by
  obtain ⟨q, hq, -, hsize, -⟩ := hsized.acceptable fig hcall.finiteWallet
  rw [← horder] at hq
  have hreclaim : (params.afterSend order orderId atMs).reclaimableBase = num q :=
    afterSend_reclaimable order orderId atMs hq hsize.pos
  obtain ⟨r, hr⟩ := isFinite_iff.mp hcall.reclaimable_finite
  have hreleased := hcall.reclaimable_eq
  rw [hr] at hreleased
  unfold available
  have hfree : (params.afterSend order orderId atMs).sizable.free =
      freeBalance (params.afterSend order orderId atMs).input.account
        params.input.market.symbolInfo.baseAsset := rfl
  have hlocked : (params.afterSend order orderId atMs).sizable.reclaimable =
      (num q).min (walletLocked (params.afterSend order orderId atMs).input.account
        params.input.market.symbolInfo.baseAsset) := by
    rw [← hreclaim]
    rfl
  rw [hfree, hlocked]
  simp only [sizable, sizableBase, freeBalance, walletLocked, afterSend,
    AccountSnapshot.moveToLocked, hq, ← hreleased, if_true, Option.getD_some, hr]
  cases hreadable : params.input.account.readable with
  | false => simp [armableBaseQuantity]
  | true =>
      cases hline :
          params.input.account.balances params.input.market.symbolInfo.baseAsset with
      | none =>
          -- a readable wallet without a line funds nothing, so nothing was sized
          have hfund := hsize.le_wallet 0 0 r (by simp [freeBalance, hreadable, hline])
            (by simp [walletLocked, hline]) hr
          have hmin : min r 0 ≤ 0 := min_le_right r 0
          exact absurd hsize.pos (by linarith)
      | some line =>
          obtain ⟨f, hf⟩ := isFinite_iff.mp (hcall.wallet_finite line hline).1
          obtain ⟨l, hl⟩ := isFinite_iff.mp (hcall.wallet_finite line hline).2
          have htotal : f + r - q + min q (l - r + q) = f + min r l := by
            rcases le_total r l with hrl | hrl
            · rw [min_eq_left hrl, min_eq_left (by linarith)]
              ring
            · rw [min_eq_right hrl, min_eq_right (by linarith)]
              ring
          simp [armableBaseQuantity, hf, hl, htotal]

theorem afterSend_sizeFull {full : FullSize} (hfull : params.sizeFull level = .ok full) :
    ∃ full', (params.afterSend order orderId atMs).sizeFull level = .ok full' ∧
      full'.quantity = full.quantity ∧
      (params.afterSend order orderId atMs).sizingPrice level full' =
        params.sizingPrice level full := by
  have hprice : (params.afterSend order orderId atMs).notionalPrice level =
      params.notionalPrice level := rfl
  have hnative : (params.afterSend order orderId atMs).nativeNotionalPrice level =
      params.nativeNotionalPrice level := rfl
  unfold sizeFull at hfull ⊢
  dsimp only at hfull ⊢
  rw [hprice, hnative]
  split at hfull
  next s hs =>
    obtain rfl := Except.ok.inj hfull
    exact ⟨⟨s, none⟩, rfl, rfl, rfl⟩
  next skip hskip =>
    split at hfull
    next hdefer =>
      have hdefer' : ((params.afterSend order orderId atMs).primaryNativeDelta.isNone &&
          skip == .minNotional &&
          (params.afterSend order orderId atMs).trailingDelta.isSome) = true := hdefer
      rw [if_pos hdefer']
      split at hfull
      next s hs =>
        obtain rfl := Except.ok.inj hfull
        exact ⟨⟨s, some _⟩, rfl, rfl, rfl⟩
      next => simp at hfull
    next => simp at hfull

theorem afterSend_sized {fig : level.Figures} (hcall : LawfulCall params fig) {full : FullSize}
    {sized : DecimalString} (hsized : Sized params level full sized)
    (horder : order.quantity = sized) :
    ∃ full', Sized (params.afterSend order orderId atMs) level full' sized := by
  obtain ⟨havail, hfree⟩ := afterSend_available order orderId atMs hcall hsized horder
  obtain ⟨full', hfull', hquantity, hsizing⟩ := afterSend_sizeFull order orderId
    atMs hsized.full_eq
  refine ⟨full', hfull', ?_⟩
  have harm := hsized.sized_eq
  unfold sizeArm at harm ⊢
  rw [havail, hquantity, hsizing]
  cases hf : params.sizable.free with
  | none =>
      have hf' : (params.afterSend order orderId atMs).sizable.free = none := by
        simpa [hf] using hfree
      rw [hf] at harm
      rw [hf']
      exact harm
  | some free =>
      obtain ⟨free', hf'⟩ := Option.isSome_iff_exists.mp (by rw [hfree, hf]; rfl)
      rw [hf] at harm
      rw [hf']
      dsimp only at harm ⊢
      split at harm
      next hlt =>
        rw [if_pos hlt]
        split at harm
        next s hs => exact harm
        next => simp at harm
      next hlt =>
        rw [if_neg hlt]
        exact harm

/-! ### Nothing is left to do -/

theorem sentOrder_not_drifted {q : ℚ} (hq : order.quantity.toDecimal = some (num q))
    (hpos : 0 < q) :
    quantityDrifted (params.sentOrder order orderId atMs) order.quantity = false := by
  rw [quantityDrifted, sentOrder_unfilled order orderId atMs hq, hq]
  simpa [minQtyDrift] using hpos

/-- A native order that went out is kept: it is as tight and as large as wanted. -/
theorem afterSend_native {fig : level.Figures} (hcall : LawfulCall params fig)
    (henabled : params.enabled = true) (hlevel : params.level = some level) {full : FullSize}
    {sized : DecimalString} {trail : PrimaryTrail} {native : NativeTrail} {delta sentDelta : ℤ}
    (hsized : Sized params level full sized) (hprimary : NativePrimary params trail native delta)
    (hquantity : order.quantity = sized) (hdelta : order.trailingDelta = some sentDelta)
    (hle : sentDelta ≤ delta) :
    evaluateProtectiveStopArm (params.afterSend order orderId atMs) = settled := by
  obtain ⟨q, hq, -, hsize, -⟩ := hsized.acceptable fig hcall.finiteWallet
  obtain ⟨full', hsized'⟩ := afterSend_sized order orderId atMs hcall hsized hquantity
  have hunfilled : unfilledQuantity (params.sentOrder order orderId atMs) = some (num q) :=
    sentOrder_unfilled order orderId atMs (by rw [hquantity, hq])
  have hprimary' : NativePrimary (params.afterSend order orderId atMs) trail native delta :=
    ⟨hprimary.trail_eq, hprimary.native_eq, hprimary.delta_eq⟩
  have hsent : (params.sentOrder order orderId atMs).trailingDelta = some sentDelta := hdelta
  have hover : overQuantity (params.sentOrder order orderId atMs) (num q) = false := by
    simp [overQuantity, hunfilled, minQtyDrift, hsize.pos]
  have hunder : underQuantity (params.sentOrder order orderId atMs) (num q) = none := by
    simp [underQuantity, hunfilled, minQtyDrift, hsize.pos]
  have heval : evaluateProtectiveStopArm (params.afterSend order orderId atMs) =
      (params.afterSend order orderId atMs).decide level full' sized :=
    evaluate_of_sized (by exact henabled) (by exact hlevel) hsized'
  rw [heval, decide_of_primary hprimary', decideNative, afterSend_resting]
  simp only [hsent]
  unfold rearmNative
  simp [hq, hover, hunder, not_lt.mpr hle]

theorem afterSend_priced {fig : level.Figures} (hcall : LawfulCall params fig)
    (henabled : params.enabled = true) (hlevel : params.level = some level) {full : FullSize}
    {sized : DecimalString} (hsized : Sized params level full sized)
    (hprimary : params.primaryNativeDelta = none) (hquantity : order.quantity = sized)
    (hserves : protectiveStopNeedsRearm (params.sentOrder order orderId atMs)
      (desiredStop level sized).stopPrice sized
      (params.minStopDrift.getD TradingBot.minStopDrift)
      (params.afterSend order orderId atMs).restingTrailDelta = false) :
    evaluateProtectiveStopArm (params.afterSend order orderId atMs) = settled := by
  obtain ⟨full', hsized'⟩ := afterSend_sized order orderId atMs hcall hsized hquantity
  have heval : evaluateProtectiveStopArm (params.afterSend order orderId atMs) =
      (params.afterSend order orderId atMs).decide level full' sized :=
    evaluate_of_sized (by exact henabled) (by exact hlevel) hsized'
  have hprimary' : (params.afterSend order orderId atMs).primaryNativeDelta = none := hprimary
  rw [heval, decide_of_no_primary hprimary']
  unfold decidePriced
  dsimp only
  rw [if_pos]
  unfold settledAt
  rw [afterSend_resting, Option.any_some, Bool.not_eq_true']
  exact hserves

/-- The drift band of the arm is positive. -/
theorem LawfulCall.drift_eq {fig : level.Figures} (h : LawfulCall params fig) :
    ∃ drift : ℚ, params.minStopDrift.getD TradingBot.minStopDrift = num drift ∧ 0 < drift := by
  cases hd : params.minStopDrift with
  | none => exact ⟨1 / 1000, rfl, by norm_num⟩
  | some d =>
      obtain ⟨q, rfl, hq⟩ := h.drift_pos d hd
      exact ⟨q, rfl, hq⟩

theorem sentPriced_serves {fig : level.Figures} (hcall : LawfulCall params fig)
    {full : FullSize} {sized : DecimalString} (hsized : Sized params level full sized)
    (hquantity : order.quantity = sized) (hdelta : order.trailingDelta = none)
    (hstop : order.stopPrice = some (desiredStop level sized).stopPrice) :
    protectiveStopNeedsRearm (params.sentOrder order orderId atMs)
      (desiredStop level sized).stopPrice sized
      (params.minStopDrift.getD TradingBot.minStopDrift)
      (params.afterSend order orderId atMs).restingTrailDelta = false := by
  obtain ⟨q, hq, -, hsize, -⟩ := hsized.acceptable fig hcall.finiteWallet
  obtain ⟨drift, hdrift, hdrift_pos⟩ := hcall.drift_eq
  have hno_trail : (params.afterSend order orderId atMs).restingTrailDelta = none := by
    unfold restingTrailDelta
    rw [afterSend_resting]
    simp [sentOrder, hdelta]
  have hsent_delta : (params.sentOrder order orderId atMs).trailingDelta = none := hdelta
  obtain ⟨trigger, htrigger⟩ : ∃ t, t = roundHalfUp fig.stop (num fig.tick).decimalPlaces :=
    ⟨_, rfl⟩
  have hprinted : (desiredStop level sized).stopPrice = .printed (num trigger) := by
    rw [desiredStop, fig.stop_eq, fig.tick_eq, htrigger]
    rfl
  have hsent_stop : safeDecimal (params.sentOrder order orderId atMs).stopPrice =
      some (num trigger) := by
    have hsent : (params.sentOrder order orderId atMs).stopPrice = order.stopPrice := rfl
    rw [hsent, hstop, hprinted]
    rfl
  have hsteady : triggerDrifted (num trigger) (.printed (num trigger)) (num drift) = false := by
    simpa [triggerDrifted] using mul_pos (htrigger ▸ hcall.trigger_pos) hdrift_pos
  have hsize_steady : quantityDrifted (params.sentOrder order orderId atMs) sized = false := by
    rw [← hquantity]
    exact sentOrder_not_drifted order orderId atMs (by rw [hquantity, hq]) hsize.pos
  unfold protectiveStopNeedsRearm
  rw [hno_trail, hsent_delta, hsent_stop, hprinted, hdrift]
  simp [hsteady, hsize_steady]

/-- A band escape that went out serves: it is compared on the configured distance. -/
theorem escaped_serves {fig : level.Figures} (hcall : LawfulCall params fig)
    {full : FullSize} {sized : DecimalString} (hsized : Sized params level full sized)
    {native : NativeTrail} {delta : ℤ} (hnative : params.nativeTrail = some native)
    (htrailing : params.trailingDelta = some delta) (hquantity : order.quantity = sized)
    (hdelta : order.trailingDelta = some delta) :
    protectiveStopNeedsRearm (params.sentOrder order orderId atMs)
      (desiredStop level sized).stopPrice sized
      (params.minStopDrift.getD TradingBot.minStopDrift)
      (params.afterSend order orderId atMs).restingTrailDelta = false := by
  obtain ⟨q, hq, -, hsize, -⟩ := hsized.acceptable fig hcall.finiteWallet
  have hrest : (params.afterSend order orderId atMs).restingTrailDelta = some delta := by
    have hnative' : (params.afterSend order orderId atMs).nativeTrail = some native := hnative
    have htrailing' : (params.afterSend order orderId atMs).trailingDelta = some delta := htrailing
    unfold restingTrailDelta
    rw [afterSend_resting, hnative', htrailing']
    simp [sentOrder, hdelta]
  have hsent_delta : (params.sentOrder order orderId atMs).trailingDelta = some delta := hdelta
  have hsize_steady : quantityDrifted (params.sentOrder order orderId atMs) sized = false := by
    rw [← hquantity]
    exact sentOrder_not_drifted order orderId atMs (by rw [hquantity, hq]) hsize.pos
  unfold protectiveStopNeedsRearm
  rw [hrest, hsent_delta]
  simp [hsize_steady]

end AfterSend

/-! ### One step, and every run -/

/-- The order a sent decision carries, read back off the arm's answer. -/
theorem order_of_send (hseams : LawfulSeams params) {place : Bool → Decision}
    {order order' : OrderParams} {intent : OrderIntent} {d : Decision}
    (hplace : ∀ rearm, ∃ intent, place rearm = .placeOrder intent order)
    (hd : d ∈ (params.send place).decisions) (horder : d.order = some (intent, order')) :
    order' = order := by
  rcases send_eq hseams hplace with ⟨-, i, hsend⟩ | ⟨resting, i, reason, -, hsend⟩
  · rw [hsend] at hd
    obtain rfl := List.mem_singleton.mp hd
    exact (Prod.mk.inj (Option.some.inj horder)).2.symm
  · rw [hsend] at hd
    obtain rfl := List.mem_singleton.mp hd
    exact (Prod.mk.inj (Option.some.inj horder)).2.symm

theorem effectiveDelta_le (delta restingDelta : ℤ) :
    effectiveDelta delta restingDelta ≤ delta := by
  unfold effectiveDelta
  split
  next => exact le_rfl
  next h => exact not_lt.mp h

/-- What was sent settles: on the next input the arm neither sends nor refuses. -/
theorem settled_after_send {fig : level.Figures} (hseams : LawfulSeams params)
    (hcall : LawfulCall params fig) (henabled : params.enabled = true)
    (hlevel : params.level = some level) {d : Decision} {intent : OrderIntent}
    {order : OrderParams} (hd : d ∈ (evaluateProtectiveStopArm params).decisions)
    (horder : d.order = some (intent, order)) (orderId : ℕ) (atMs : ℤ) :
    evaluateProtectiveStopArm (params.afterSend order orderId atMs) = settled := by
  have houtcome := arm_outcome henabled hlevel
  generalize evaluateProtectiveStopArm params = arm at houtcome hd
  cases houtcome with
  | refused blocker => simp [refuse] at hd
  | keptNative => simp [settled] at hd
  | keptPriced => simp [settled] at hd
  | sentNative hsized hprimary =>
      obtain rfl := order_of_send hseams
        (fun rearm => hseams.native _ hprimary.native_eq _ rearm) hd horder
      exact afterSend_native _ orderId atMs hcall henabled hlevel hsized hprimary rfl rfl le_rfl
  | rearmedNative hsized hprimary hresting hdelta hrearm =>
      obtain ⟨i, hbuild⟩ := hseams.native _ hprimary.native_eq _ true
      obtain ⟨reason, hreplace⟩ := hseams.replace _ i _
      rw [hbuild, hreplace] at hd
      obtain rfl := List.mem_singleton.mp hd
      obtain rfl := (Prod.mk.inj (Option.some.inj horder)).2.symm
      exact afterSend_native _ orderId atMs hcall henabled hlevel hsized hprimary rfl rfl
        (effectiveDelta_le _ _)
  | escaped hsized hprimary hnative hdelta houtside hfloor =>
      obtain rfl := order_of_send hseams (fun rearm => hseams.native _ hnative _ rearm) hd horder
      exact afterSend_priced _ orderId atMs hcall henabled hlevel hsized hprimary rfl
        (escaped_serves _ orderId atMs hcall hsized hnative hdelta rfl rfl)
  | sentPriced hsized hprimary hpending hinside =>
      obtain rfl := order_of_send hseams (fun rearm => hseams.place _ rearm) hd horder
      exact afterSend_priced _ orderId atMs hcall henabled hlevel hsized hprimary rfl
        (sentPriced_serves _ orderId atMs hcall hsized rfl rfl rfl)

theorem arm_decisions (hseams : LawfulSeams params) (henabled : params.enabled = true)
    (hlevel : params.level = some level) :
    (evaluateProtectiveStopArm params).decisions = [] ∨
      ∃ d intent order, (evaluateProtectiveStopArm params).decisions = [d] ∧
        d.order = some (intent, order) := by
  have hsend : ∀ {place : Bool → Decision} {order : OrderParams},
      (∀ rearm, ∃ intent, place rearm = .placeOrder intent order) →
      (params.send place).decisions = [] ∨
        ∃ d intent order, (params.send place).decisions = [d] ∧
          d.order = some (intent, order) := by
    intro place order hplace
    rcases send_eq hseams hplace with ⟨-, intent, h⟩ | ⟨resting, intent, reason, -, h⟩
    · exact .inr ⟨_, intent, order, by rw [h], rfl⟩
    · exact .inr ⟨_, intent, order, by rw [h], rfl⟩
  have houtcome := arm_outcome henabled hlevel
  generalize evaluateProtectiveStopArm params = arm at houtcome ⊢
  cases houtcome with
  | refused blocker => exact .inl rfl
  | keptNative => exact .inl rfl
  | keptPriced => exact .inl rfl
  | sentNative hsized hprimary =>
      exact hsend fun rearm => hseams.native _ hprimary.native_eq _ rearm
  | rearmedNative hsized hprimary hresting hdelta hrearm =>
      obtain ⟨intent, hbuild⟩ := hseams.native _ hprimary.native_eq _ true
      obtain ⟨reason, hreplace⟩ := hseams.replace _ intent _
      exact .inr ⟨_, intent, _, rfl, by rw [hbuild, hreplace]; rfl⟩
  | escaped hsized hprimary hnative hdelta houtside hfloor =>
      exact hsend fun rearm => hseams.native _ hnative _ rearm
  | sentPriced hsized hprimary hpending hinside =>
      exact hsend fun rearm => hseams.place _ rearm

/-- The input of the tick after this one, for a fixed market, wallet total and config. -/
def ProtectiveStopArmParams.next (params : ProtectiveStopArmParams Config State Bundle)
    (orderId : ℕ) (atMs : ℤ) : ProtectiveStopArmParams Config State Bundle :=
  match (evaluateProtectiveStopArm params).decisions.findSome? (·.order) with
  | some (_, order) => params.afterSend order orderId atMs
  | none => params

/-- The decisions of `n` ticks in a row; `ids` is what the exchange stamps on an order. -/
def armRun (ids : ℕ → ℕ × ℤ) : ℕ → ProtectiveStopArmParams Config State Bundle → List Decision
  | 0, _ => []
  | n + 1, params =>
      (evaluateProtectiveStopArm params).decisions ++
        armRun ids n (params.next (ids n).1 (ids n).2)

theorem armRun_of_decisions_nil (ids : ℕ → ℕ × ℤ)
    (h : (evaluateProtectiveStopArm params).decisions = []) (n : ℕ) :
    armRun ids n params = [] := by
  induction n with
  | zero => rfl
  | succ n ih =>
      have hnext : params.next (ids n).1 (ids n).2 = params := by
        rw [ProtectiveStopArmParams.next, h]
        rfl
      rw [armRun, h, hnext, ih, List.append_nil]

theorem sampleParams_lawfulCall : LawfulCall (sampleParams [] 1 0 0 none) sampleFigures where
  reclaimable_eq := rfl
  reclaimable_finite := rfl
  wallet_finite := by
    rintro line hline
    obtain rfl : ⟨num 1, num 0⟩ = line := by
      simpa [sampleParams, sampleMarket] using hline
    exact ⟨rfl, rfl⟩
  trigger_pos := by decide +kernel
  drift_pos := by simp [sampleParams]

/-- The sample arm with no drift band: a resting trigger has always drifted by zero or more. -/
def bandlessParams : ProtectiveStopArmParams Unit Unit Unit :=
  { sampleParams [] 1 0 0 none with minStopDrift := some (num 0) }

/-- The sample arm with a stop below half a tick, on a symbol without a minimum notional. -/
def subTickParams : ProtectiveStopArmParams Unit Unit Unit :=
  { sampleParams [] 1 0 0 none with
    level := some
      { sampleLevel with
        stop := num (4 / 1000)
        limit := num (4 / 1000)
        filters := { sampleLevel.filters with minNotional := num 0 } } }

end TradingBot
