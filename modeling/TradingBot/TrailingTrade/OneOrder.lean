import TradingBot.TrailingTrade.TickActs

/-!
# One order per tick

A tick places at most one order, so it never buys and sells at once, and a sell
that closes a position while our own protective stop rests replaces that stop
in the same request. The order's client id is new among the open orders of its
side, except where an id is meant to recur: an operator's order keeps the id of
the override that asked for it, so that a repeated dispatch coalesces at the
exchange.
-/

namespace TradingBot.TrailingTrade

open Decimal EarlyExit

variable {input : TTInput} {d : Decision}

/-! ### Vocabulary -/

def Decision.placedSide (d : Decision) : Option OrderSide := d.order.map (·.1.side)

/-- An order of the list is our own protective stop, still on the book. -/
def isOwnStop (input : TTInput) (o : OpenOrder) : Bool :=
  o.clientOrderId == protectiveStopClientOrderId input.profile.id input.market.symbol &&
    isRestingSell o

/-- An order of the tick's symbol that is still on the book. -/
structure OpenOn (input : TTInput) (o : OpenOrder) : Prop where
  listed : o ∈ input.openOrders
  symbol : o.symbol = input.market.symbol
  resting : isRestingStatus o.status = true

/-- The decisions take an order off the book. -/
def Retires (decisions : List Decision) (o : OpenOrder) : Prop :=
  ∃ d ∈ decisions, d.cancels = some o.orderId

/-- No placed order has the client id of an open order that stays. -/
def FreshIds (input : TTInput) (decisions : List Decision) : Prop :=
  ∀ d ∈ decisions, ∀ intent params, d.order = some (intent, params) →
    ∀ o, OpenOn input o → o.clientOrderId = intent.clientOrderId → Retires decisions o

/-- The cases in which a placed order may have the id of an open order that stays. -/
inductive MayRecur (input : TTInput) (decisions : List Decision) (intent : OrderIntent)
    (o : OpenOrder) : Prop where
  /-- An operator's manual order or close, which carries the id of its override. -/
  | operator (override : Override) (asked : input.bundle.override = some override)
      (kind : override.kind ≠ .triggerBuy)
      (signed : intent.overrideActionId = some override.overrideActionId)
  /-- The open order is on the other side of the market. -/
  | otherSide (side : o.side ≠ intent.side)
  /-- The order is the protective stop, in the place of one resting stop while a second rests. -/
  | twin (stop : OpenOrder) (params : OrderParams) (listed : stop ∈ input.openOrders)
      (own : isOwnStop input stop = true) (twin : isOwnStop input o = true) (other : stop ≠ o)
      (reason : intent.reason = "protective-stop")
      (id : intent.clientOrderId =
        protectiveStopClientOrderId input.profile.id input.market.symbol)
      (replaces : decisions = [.replaceOrder stop.orderId supersededReason intent params])

/-- What holds of the orders of every tick. -/
structure OneOrder (input : TTInput) (decisions : List Decision) : Prop where
  one : (decisions.filter fun d => d.order.isSome).length ≤ 1
  oneSided : ¬ ((∃ d ∈ decisions, Decision.placedSide d = some .buy) ∧
    ∃ d ∈ decisions, Decision.placedSide d = some .sell)
  fused : (∃ o ∈ input.openOrders, isOwnStop input o = true) →
    (∀ override payload, input.bundle.override = some override →
      override.kind ≠ .manualOrder payload) →
    ∀ d ∈ decisions, ∀ intent params, d.order = some (intent, params) → intent.side = .sell →
      intent.reason ≠ "protective-stop" →
      ∃ stop ∈ input.openOrders, isOwnStop input stop = true ∧
        decisions = [.replaceOrder stop.orderId supersededReason intent params]
  fresh : ∀ d ∈ decisions, ∀ intent params, d.order = some (intent, params) →
    ∀ o, OpenOn input o → o.clientOrderId = intent.clientOrderId →
      Retires decisions o ∨ MayRecur input decisions intent o

/-! ### Lists with one order -/

theorem one_of_silent_append {silent : List Decision} (hsilent : ∀ d ∈ silent, d.order = none)
    (d : Decision) :
    ((silent ++ [d]).filter fun d => d.order.isSome).length ≤ 1 := by
  have hnone : silent.filter (fun d => d.order.isSome) = [] := by
    apply List.filter_eq_nil_iff.mpr
    intro d hd
    simp [hsilent d hd]
  rw [List.filter_append, hnone, List.nil_append]
  exact (List.length_filter_le _ _).trans le_rfl

/-- Two placements of a list with at most one are the same. -/
theorem eq_of_one {decisions : List Decision}
    (one : (decisions.filter fun d => d.order.isSome).length ≤ 1) {d d' : Decision}
    (hd : d ∈ decisions) (hd' : d' ∈ decisions) (horder : d.order.isSome = true)
    (horder' : d'.order.isSome = true) : d = d' := by
  have hmem : d ∈ decisions.filter fun d => d.order.isSome := List.mem_filter.mpr ⟨hd, horder⟩
  have hmem' : d' ∈ decisions.filter fun d => d.order.isSome := List.mem_filter.mpr ⟨hd', horder'⟩
  generalize decisions.filter (fun d => d.order.isSome) = placed at one hmem hmem'
  rcases placed with _ | ⟨only, _ | ⟨second, rest⟩⟩
  · cases hmem
  · rw [List.mem_singleton.mp hmem, List.mem_singleton.mp hmem']
  · simp at one

theorem oneSided_of_one {decisions : List Decision}
    (one : (decisions.filter fun d => d.order.isSome).length ≤ 1) :
    ¬ ((∃ d ∈ decisions, Decision.placedSide d = some .buy) ∧
      ∃ d ∈ decisions, Decision.placedSide d = some .sell) := by
  rintro ⟨⟨d, hd, hbuy⟩, d', hd', hsell⟩
  have hsome : ∀ {d : Decision} {side : OrderSide}, Decision.placedSide d = some side →
      d.order.isSome = true := by
    intro d side h
    obtain ⟨o, ho, -⟩ := Option.map_eq_some_iff.mp h
    rw [ho]
    rfl
  have heq := eq_of_one one hd hd' (hsome hbuy) (hsome hsell)
  rw [heq, hsell] at hbuy
  cases hbuy

/-- Signing an override's decisions places no more orders. -/
theorem one_asSent {decisions : List Decision} (sender : Option String)
    (one : (decisions.filter fun d => d.order.isSome).length ≤ 1) :
    ((asSent sender decisions).filter fun d => d.order.isSome).length ≤ 1 := by
  cases sender with
  | none => exact one
  | some overrideActionId =>
      have hsame : ((fun d : Decision => d.order.isSome) ∘ Decision.attribute overrideActionId) =
          fun d => d.order.isSome := by
        funext d
        simp
      rw [asSent, Option.elim_some, attributeToOverride, List.filter_map, List.length_map, hsame]
      exact one

theorem OneOrder.of_placed {decisions : List Decision}
    (one : (decisions.filter fun d => d.order.isSome).length ≤ 1)
    (placed : ∀ d ∈ decisions, ∀ intent params, d.order = some (intent, params) →
      ((∃ o ∈ input.openOrders, isOwnStop input o = true) →
        (∀ override payload, input.bundle.override = some override →
          override.kind ≠ .manualOrder payload) →
        intent.side = .sell → intent.reason ≠ "protective-stop" →
        ∃ stop ∈ input.openOrders, isOwnStop input stop = true ∧
          decisions = [.replaceOrder stop.orderId supersededReason intent params]) ∧
      ∀ o, OpenOn input o → o.clientOrderId = intent.clientOrderId →
        Retires decisions o ∨ MayRecur input decisions intent o) :
    OneOrder input decisions where
  one := one
  oneSided := oneSided_of_one one
  fused hstop hmanual d hd intent params horder :=
    (placed d hd intent params horder).1 hstop hmanual
  fresh d hd intent params horder := (placed d hd intent params horder).2

theorem one_singleton (d : Decision) :
    (([d] : List Decision).filter fun d => d.order.isSome).length ≤ 1 :=
  @one_of_silent_append [] (fun _ h => by cases h) d

/-! ### Buys -/

theorem oneOrder_of_buy {decisions : List Decision}
    (one : (decisions.filter fun d => d.order.isSome).length ≤ 1)
    (buys : ∀ d ∈ decisions, ∀ intent params, d.order = some (intent, params) →
      intent.side = .buy)
    (clears : ∀ o, OpenOn input o → o.side = .buy → Retires decisions o) :
    OneOrder input decisions := by
  refine .of_placed one ?_
  intro d hd intent params horder
  have hbuy := buys d hd intent params horder
  refine ⟨fun _ _ hsell => ?_, fun o hopen _ => ?_⟩
  · rw [hbuy] at hsell
    cases hsell
  · cases hside : o.side with
    | buy => exact .inl (clears o hopen hside)
    | sell =>
        refine .inr (.otherSide ?_)
        rw [hside, hbuy]
        decide

theorem clears_of_noOpenBuy {decisions : List Decision} (hopen : NoOpenBuy input) (o : OpenOrder)
    (ho : OpenOn input o) (hbuy : o.side = .buy) : Retires decisions o := by
  have hnone := List.any_eq_false.mp hopen o ho.listed
  simp [ho.symbol, hbuy] at hnone

/-- Signing takes the same orders off the book. -/
theorem Retires.asSent {decisions : List Decision} {o : OpenOrder} (h : Retires decisions o)
    (sender : Option String) : Retires (asSent sender decisions) o := by
  obtain ⟨d, hd, hcancels⟩ := h
  cases sender with
  | none => exact ⟨d, hd, hcancels⟩
  | some overrideActionId =>
      refine ⟨Decision.attribute overrideActionId d, List.mem_map_of_mem hd, ?_⟩
      cases d <;> exact hcancels

theorem oneOrder_rung (sender : Option String) (level : ℕ) (quantity : DecimalString)
    (stopLimit : Option StopLimit) :
    OneOrder input (asSent sender (staleCancels input level ++
      [buildGridBuyDecision input quantity level stopLimit])) := by
  refine oneOrder_of_buy (one_asSent sender (one_of_silent_append staleCancels_silent _)) ?_ ?_
  · exact fun d hd intent params horder => side_of_rung hd horder
  · intro o hopen hbuy
    refine Retires.asSent ⟨_, List.mem_append_left _ (List.mem_map_of_mem ?_), rfl⟩ sender
    exact List.mem_filter.mpr ⟨hopen.listed, by simp [isOpenBuy, hopen.symbol, hbuy]⟩

theorem oneOrder_single (sender : Option String) {intent : OrderIntent} {params : OrderParams}
    (hbuy : intent.side = .buy) (hopen : NoOpenBuy input) :
    OneOrder input (asSent sender [.placeOrder intent params]) := by
  refine oneOrder_of_buy (one_asSent sender (one_singleton _)) ?_ ?_
  · exact fun d hd intent' params' horder => (side_of_single hd horder).trans hbuy
  · exact clears_of_noOpenBuy hopen

/-! ### Sells -/

theorem exists_resting {o : OpenOrder} (ho : o ∈ input.openOrders)
    (hown : isOwnStop input o = true) :
    ∃ stop, restingProtectiveStop input = some stop := by
  cases h : restingProtectiveStop input with
  | some stop => exact ⟨stop, rfl⟩
  | none =>
      unfold restingProtectiveStop findRestingProtectiveStop at h
      rw [List.find?_eq_none] at h
      exact absurd hown (h o ho)

theorem own_of_resting {stop : OpenOrder} (h : restingProtectiveStop input = some stop) :
    stop ∈ input.openOrders ∧ isOwnStop input stop = true :=
  ⟨List.mem_of_find?_eq_some h, List.find?_some h⟩

theorem closing_of_own (intent : OrderIntent) (params : OrderParams)
    (hstop : ∃ o ∈ input.openOrders, isOwnStop input o = true) :
    ∃ stop ∈ input.openOrders, isOwnStop input stop = true ∧
      closingSellDecisions input (.placeOrder intent params) =
        [.replaceOrder stop.orderId supersededReason intent params] := by
  obtain ⟨o, ho, hown⟩ := hstop
  obtain ⟨stop, hresting⟩ := exists_resting ho hown
  obtain ⟨hlisted, hown'⟩ := own_of_resting hresting
  refine ⟨stop, hlisted, hown', ?_⟩
  rw [closingSellDecisions, hresting]
  rfl

theorem one_closing (intent : OrderIntent) (params : OrderParams) :
    ((closingSellDecisions input (.placeOrder intent params)).filter
      fun d => d.order.isSome).length ≤ 1 := by
  rcases closingSellDecisions_eq input intent params with heq | ⟨resting, -, heq⟩
  · rw [heq]
    exact one_singleton _
  · rw [heq]
    exact one_singleton _

theorem oneOrder_closing (sender : Option String) {intent : OrderIntent} {params : OrderParams}
    (fresh : ∀ (decisions : List Decision) (signed : OrderIntent), signed.side = intent.side →
      (∀ overrideActionId, sender = some overrideActionId →
        signed.overrideActionId = some overrideActionId) →
      ∀ o, OpenOn input o → o.clientOrderId = intent.clientOrderId →
        Retires decisions o ∨ MayRecur input decisions signed o) :
    OneOrder input (asSent sender (closingSellDecisions input (.placeOrder intent params))) := by
  refine .of_placed (one_asSent sender (one_closing intent params)) ?_
  intro d hd intent' params' horder
  obtain ⟨d', hd', intent'', horder', hside, -, hid⟩ := order_of_asSent hd horder
  rw [order_of_mem_closing hd'] at horder'
  cases horder'
  refine ⟨fun hstop _ _ _ => ?_, fun o hopen hsame =>
    fresh _ intent' hside (fun id hsender => ?_) o hopen (hsame.trans hid)⟩
  swap
  · subst hsender
    exact signed_of_attributed hd horder
  obtain ⟨stop, hlisted, hown, hclosing⟩ := closing_of_own intent params hstop
  refine ⟨stop, hlisted, hown, ?_⟩
  rw [hclosing] at hd ⊢
  cases sender with
  | none =>
      rw [List.mem_singleton.mp hd] at horder
      cases horder
      rfl
  | some overrideActionId =>
      rw [asSent, Option.elim_some, attributeToOverride, List.map_singleton] at hd ⊢
      rw [List.mem_singleton.mp hd] at horder
      cases horder
      rfl

theorem sellId_ne_stopId (profileId symbol seed : String) :
    sellClientOrderId profileId symbol seed ≠ protectiveStopClientOrderId profileId symbol := by
  intro heq
  have hlast := congrArg (fun id : String => id.toList.getLast?) heq
  simp [sellClientOrderId, protectiveStopClientOrderId, List.getLast?_cons,
    List.getLast?_append] at hlast

theorem fresh_of_noForeignSell (hopen : NoForeignSell input) {reason seed : String}
    {decisions : List Decision} {signed : OrderIntent} (hside : signed.side = .sell) (o : OpenOrder)
    (ho : OpenOn input o)
    (hid : o.clientOrderId =
      (sellIntent input reason (sellClientOrderId input.profile.id input.market.symbol seed)
        false).clientOrderId) :
    Retires decisions o ∨ MayRecur input decisions signed o := by
  cases hoside : o.side with
  | buy =>
      refine .inr (.otherSide ?_)
      rw [hoside, hside]
      decide
  | sell =>
      have hnone := List.any_eq_false.mp hopen o ho.listed
      rw [hid] at hnone
      exact absurd (sellId_ne_stopId input.profile.id input.market.symbol seed)
        (by simpa [ho.symbol, hoside, sellIntent] using hnone)

/-! ### The protective stop -/

/-- The arm sends nothing, takes our stop off the book, places one where none rests, or replaces
the one that rests. -/
inductive ArmSends (input : TTInput) : List Decision → Prop where
  | nothing : ArmSends input []
  | cancel (stop : OpenOrder) : ArmSends input [buildProtectiveStopCancel stop supersededReason]
  | place (params : OrderParams) (none_resting : restingProtectiveStop input = none) :
      ArmSends input [.placeOrder (protectiveStopIntent input false) params]
  | replace (stop : OpenOrder) (params : OrderParams)
      (resting : restingProtectiveStop input = some stop) :
      ArmSends input
        [.replaceOrder stop.orderId supersededReason (protectiveStopIntent input true) params]

theorem armSends_of_send {state : TTState} {place : Bool → Decision} {params : OrderParams}
    (hplace : ∀ rearm, place rearm = .placeOrder (protectiveStopIntent input rearm) params) :
    ArmSends input ((protectiveStopParams input state).send place).decisions := by
  unfold ProtectiveStopArmParams.send
  split
  · next hnone =>
      rw [hplace false]
      exact .place params hnone
  · next stop hstop =>
      rw [hplace true]
      exact .replace stop params hstop

theorem evaluateProtectiveStop_armSends (input : TTInput) (state : TTState) :
    ArmSends input (evaluateProtectiveStop input state).decisions := by
  change ArmSends input (evaluateProtectiveStopArm (protectiveStopParams input state)).decisions
  cases henabled : (protectiveStopParams input state).enabled with
  | false =>
      rw [evaluateProtectiveStopArm, henabled]
      exact .nothing
  | true =>
      cases hlevel : (protectiveStopParams input state).level with
      | none =>
          rw [evaluateProtectiveStopArm, henabled, hlevel]
          cases (protectiveStopParams input state).resting with
          | none => exact .nothing
          | some stop => exact .cancel stop
      | some level =>
          have houtcome := arm_outcome henabled hlevel
          generalize evaluateProtectiveStopArm (protectiveStopParams input state) = arm at houtcome
          cases houtcome with
          | refused blocker => exact .nothing
          | keptNative => exact .nothing
          | keptPriced => exact .nothing
          | sentNative hsized hprimary => cases hprimary.trail_eq
          | rearmedNative hsized hprimary => cases hprimary.trail_eq
          | escaped hsized hprimary hnative =>
              obtain ⟨settings, -, rfl⟩ := Option.map_eq_some_iff.mp hnative
              exact armSends_of_send fun _ => rfl
          | sentPriced => exact armSends_of_send fun _ => rfl

/-- Among the open orders of its side, our stop's id belongs to the stop it replaces. -/
theorem oneOrder_armed (state : TTState) :
    OneOrder input (evaluateProtectiveStop input state).decisions := by
  have hsends := evaluateProtectiveStop_armSends input state
  generalize (evaluateProtectiveStop input state).decisions = decisions at hsends
  have hone : (decisions.filter fun d => d.order.isSome).length ≤ 1 := by
    cases hsends with
    | nothing => simp
    | cancel stop => exact one_singleton _
    | place params _ => exact one_singleton _
    | replace stop params _ => exact one_singleton _
  have hintent : ∀ d ∈ decisions, ∀ intent params, d.order = some (intent, params) →
      ∃ rearm, intent = protectiveStopIntent input rearm := by
    intro d hd intent params horder
    cases hsends with
    | nothing => cases hd
    | cancel stop =>
        rw [List.mem_singleton.mp hd] at horder
        cases horder
    | place params' _ =>
        rw [List.mem_singleton.mp hd] at horder
        cases horder
        exact ⟨false, rfl⟩
    | replace stop params' _ =>
        rw [List.mem_singleton.mp hd] at horder
        cases horder
        exact ⟨true, rfl⟩
  refine .of_placed hone ?_
  intro d hd intent params horder
  obtain ⟨rearm, rfl⟩ := hintent d hd intent params horder
  refine ⟨fun _ _ _ hreason => absurd rfl hreason, fun o hopen hid => ?_⟩
  cases hside : o.side with
  | buy =>
      refine .inr (.otherSide ?_)
      rw [hside]
      exact nofun
  | sell =>
      have hown : isOwnStop input o = true := by
        simp only [isOwnStop, isRestingSell, hside, hopen.resting, hid]
        simp [protectiveStopIntent, sellIntent]
      obtain ⟨stop, hresting⟩ := exists_resting hopen.listed hown
      cases hsends with
      | nothing => cases hd
      | cancel other =>
          rw [List.mem_singleton.mp hd] at horder
          cases horder
      | place params' hnone =>
          rw [hnone] at hresting
          cases hresting
      | replace stop' params' hresting' =>
          have hretires : Retires [.replaceOrder stop'.orderId supersededReason
              (protectiveStopIntent input true) params'] stop' :=
            ⟨_, List.mem_singleton_self _, rfl⟩
          by_cases hsame : stop' = o
          · exact .inl (hsame ▸ hretires)
          · obtain ⟨hlisted, hown'⟩ := own_of_resting hresting'
            rw [List.mem_singleton.mp hd] at horder
            have hintent : protectiveStopIntent input true = protectiveStopIntent input rearm :=
              (Prod.mk.inj (Option.some.inj horder)).1
            exact .inr (.twin stop' params' hlisted hown' hown hsame rfl rfl (by rw [hintent]))

/-- An operator's manual order, alone or over a resting stop. -/
theorem oneOrder_manual {override : Override} {payload : ManualOrderRequest}
    (hoverride : input.bundle.override = some override)
    (hkind : override.kind = .manualOrder payload) (quantity : DecimalString) (closes : Bool) :
    OneOrder input (attributeToOverride
      (if closes then
        closingSellDecisions input
          (buildManualOrderDecision input payload quantity override.overrideActionId)
      else [buildManualOrderDecision input payload quantity override.overrideActionId])
      override.overrideActionId) := by
  have hrecurs (decisions : List Decision) (signed : OrderIntent) (o : OpenOrder)
      (hsigned : signed.overrideActionId = some override.overrideActionId) :
      Retires decisions o ∨ MayRecur input decisions signed o :=
    .inr (.operator override hoverride (by rw [hkind]; exact nofun) hsigned)
  cases closes with
  | true =>
      exact oneOrder_closing (some override.overrideActionId)
        fun ds signed _ hsigned o _ _ => hrecurs ds signed o (hsigned _ rfl)
  | false =>
      refine .of_placed (one_asSent (some override.overrideActionId) (one_singleton _)) ?_
      intro d hd intent params horder
      exact ⟨fun _ hmanual => absurd hkind (hmanual override payload hoverride),
        fun o _ _ => hrecurs _ intent o (signed_of_attributed hd horder)⟩

/-- Normalising the state leaves everything an order is judged against. -/
theorem OneOrder.of_normalized {decisions : List Decision}
    (h : OneOrder (normalizedInput input) decisions) : OneOrder input decisions where
  one := h.one
  oneSided := h.oneSided
  fused := h.fused
  fresh := by
    intro d hd intent params horder o hopen hid
    rcases h.fresh d hd intent params horder o ⟨hopen.listed, hopen.symbol, hopen.resting⟩ hid
      with hretires | hrecurs
    · exact .inl hretires
    · refine .inr ?_
      cases hrecurs with
      | operator override asked kind signed => exact .operator override asked kind signed
      | otherSide side => exact .otherSide side
      | twin stop params listed own twin other reason id replaces =>
          exact .twin stop params listed own twin other reason id replaces

/-! ### Every tick -/

/-- An open order of one coin under a client id. -/
def sampleOpenOrder (orderId : ℕ) (clientOrderId : String) (side : OrderSide) (type : OrderType) :
    OpenOrder where
  orderId
  clientOrderId
  symbol := "BTCUSDT"
  side
  type
  status := "NEW"
  price := .raw "50"
  origQty := .raw "1"
  executedQty := .raw "0"
  stopPrice := some (.raw "50")
  trailingDelta := none
  transactTimeMs := 0

def sampleStopOrder (orderId : ℕ) : OpenOrder :=
  sampleOpenOrder orderId (protectiveStopClientOrderId "p" "BTCUSDT") .sell .stopLossLimit

/-- The sample position at its stop-loss, with our protective stop resting. -/
def restingStopInput : TTInput :=
  { sampleInput sampleConfig sampleHeld "89" 1 with openOrders := [sampleStopOrder 7] }

/-- Some decision places an order under the id of an open order that the decisions leave. -/
def reusesId (decisions : List Decision) (o : OpenOrder) : Bool :=
  decisions.any (fun d => d.order.any fun order => order.1.clientOrderId == o.clientOrderId) &&
    decisions.all fun d => d.cancels != some o.orderId

theorem not_freshIds_of_reuses {decisions : List Decision} {o : OpenOrder} (hopen : OpenOn input o)
    (h : reusesId decisions o = true) : ¬ FreshIds input decisions := by
  intro hfresh
  rw [reusesId, Bool.and_eq_true, List.any_eq_true, List.all_eq_true] at h
  obtain ⟨⟨d, hd, hplaced⟩, hkept⟩ := h
  obtain ⟨order, horder, hid⟩ := (Option.any_eq_true _ _).mp hplaced
  obtain ⟨d', hd', hcancels⟩ :=
    hfresh d hd order.1 order.2 horder o hopen (beq_iff_eq.mp hid).symm
  have hnot := hkept d' hd'
  rw [hcancels] at hnot
  simp at hnot

/-- The operator's limit order is dispatched again while it rests. -/
def retriedManualInput : TTInput :=
  { sampleInput sampleConfig initialTTState "100" 0 with
    bundle :=
      { sampleBundle with
        override := some ⟨"1f0c2a9e-77", .manualOrder
          { side := .buy, quantity := some "1", quoteAmount := none, price := some "50"
            type := .limit }⟩ }
    openOrders := [sampleOpenOrder 7 (manualOrderClientOrderId "1f0c2a9e-77") .buy .limit] }

/-- An open SELL goes by the id of the entry rung. -/
def borrowedIdInput : TTInput :=
  { sampleInput sampleConfig initialTTState "100" 0 with
    openOrders := [sampleOpenOrder 7 (gridBuyClientOrderId "p" "BTCUSDT" 0) .sell .limit] }

/-- Two stops rest under our id, far below the level. -/
def twinStopsInput : TTInput :=
  { sampleInput
      { sampleConfig with
        sell := { sampleConfig.sell with
          protectiveStop := some
            { enabled := true, limitOffsetPercentage := some "0.995", onBandBlock := none } } }
      sampleHeld "100" 1 with
    openOrders := [sampleStopOrder 7, sampleStopOrder 8] }

end TradingBot.TrailingTrade
