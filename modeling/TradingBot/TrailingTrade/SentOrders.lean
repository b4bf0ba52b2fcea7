import TradingBot.Core.ArmOutcome
import TradingBot.Core.PreviewDrift
import TradingBot.TrailingTrade.TickOutcome

/-!
# The orders a tick sends

Which side and which reason the decisions of a tick carry, for each thing a
tick can do. Signing a decision with an override's id changes neither.
-/

namespace TradingBot

def Decision.sends (side : OrderSide) (symbol : String) (d : Decision) : Bool :=
  d.order.any fun o => o.1.side == side && o.1.symbol == symbol

end TradingBot

namespace TradingBot.TrailingTrade

variable {input : TTInput} {state : TTState} {d : Decision}

/-! ### Signing -/

@[simp] theorem order_attribute (overrideActionId : String) (d : Decision) :
    (Decision.attribute overrideActionId d).order =
      d.order.map fun o => ({ o.1 with overrideActionId := some overrideActionId }, o.2) := by
  cases d <;> rfl

@[simp] theorem reasonOf_attribute (overrideActionId : String) (d : Decision) :
    reasonOf (Decision.attribute overrideActionId d) = reasonOf d := by
  cases d <;> rfl

@[simp] theorem sends_attribute (side : OrderSide) (symbol overrideActionId : String)
    (d : Decision) :
    (Decision.attribute overrideActionId d).sends side symbol = d.sends side symbol := by
  cases d <;> rfl

theorem mem_asSent {sender : Option String} {decisions : List Decision}
    (h : d ∈ asSent sender decisions) :
    ∃ d' ∈ decisions, d = sender.elim d' (Decision.attribute · d') := by
  cases sender with
  | none => exact ⟨d, h, rfl⟩
  | some overrideActionId =>
      obtain ⟨d', hd', rfl⟩ := List.mem_map.mp h
      exact ⟨d', hd', rfl⟩

theorem order_of_asSent {sender : Option String} {decisions : List Decision} {intent : OrderIntent}
    {params : OrderParams} (hd : d ∈ asSent sender decisions)
    (horder : d.order = some (intent, params)) :
    ∃ d' ∈ decisions, ∃ intent', d'.order = some (intent', params) ∧
      intent.side = intent'.side ∧ intent.reason = intent'.reason ∧
      intent.clientOrderId = intent'.clientOrderId := by
  obtain ⟨d', hd', rfl⟩ := mem_asSent hd
  refine ⟨d', hd', ?_⟩
  cases sender with
  | none => exact ⟨intent, horder, rfl, rfl, rfl⟩
  | some overrideActionId =>
      rw [Option.elim_some, order_attribute, Option.map_eq_some_iff] at horder
      obtain ⟨⟨intent', params'⟩, horder', heq⟩ := horder
      cases heq
      exact ⟨intent', horder', rfl, rfl, rfl⟩

theorem signed_of_attributed {overrideActionId : String} {decisions : List Decision}
    {intent : OrderIntent} {params : OrderParams}
    (hd : d ∈ attributeToOverride decisions overrideActionId)
    (horder : d.order = some (intent, params)) :
    intent.overrideActionId = some overrideActionId := by
  obtain ⟨d', -, rfl⟩ := List.mem_map.mp hd
  rw [order_attribute, Option.map_eq_some_iff] at horder
  obtain ⟨_, -, heq⟩ := horder
  cases heq
  rfl

/-! ### What the parts of a tick send -/

theorem closingSellDecisions_eq (input : TTInput) (intent : OrderIntent) (params : OrderParams) :
    closingSellDecisions input (.placeOrder intent params) = [.placeOrder intent params] ∨
      ∃ resting, restingProtectiveStop input = some resting ∧
        closingSellDecisions input (.placeOrder intent params) =
          [.replaceOrder resting.orderId supersededReason intent params] := by
  unfold closingSellDecisions
  split
  · exact .inl rfl
  · next resting hresting => exact .inr ⟨resting, hresting, rfl⟩

theorem order_of_mem_closing {intent : OrderIntent} {params : OrderParams}
    (h : d ∈ closingSellDecisions input (.placeOrder intent params)) :
    d.order = some (intent, params) := by
  rcases closingSellDecisions_eq input intent params with heq | ⟨resting, -, heq⟩ <;>
  · rw [heq, List.mem_singleton] at h
    rw [h]
    rfl

theorem reasonOf_of_order {intent : OrderIntent} {params : OrderParams}
    (h : d.order = some (intent, params)) : reasonOf d = some intent.reason := by
  cases d <;> simp_all [Decision.order, reasonOf]

theorem evaluateProtectiveStop_sends (hd : d ∈ (evaluateProtectiveStop input state).decisions) :
    (∃ rearm params, d.order = some (protectiveStopIntent input rearm, params)) ∨
      ∃ orderId symbol, d = .cancelOrder orderId supersededReason symbol := by
  refine decisions_of_builders (P := fun d =>
    (∃ rearm params, d.order = some (protectiveStopIntent input rearm, params)) ∨
      ∃ orderId symbol, d = .cancelOrder orderId supersededReason symbol) ?_ ?_ ?_ ?_ d hd
  · exact fun desired rearm => .inl ⟨rearm, _, rfl⟩
  · intro trail htrail desired rearm
    obtain ⟨settings, -, rfl⟩ := Option.map_eq_some_iff.mp htrail
    exact .inl ⟨rearm, _, rfl⟩
  · intro resting place hplace
    rcases hplace with ⟨rearm, params, horder⟩ | ⟨orderId, symbol, rfl⟩
    · refine .inl ⟨rearm, params, ?_⟩
      cases place <;> exact horder
    · exact .inr ⟨orderId, symbol, rfl⟩
  · exact fun resting => .inr ⟨_, _, rfl⟩

theorem side_of_protectiveStop {intent : OrderIntent} {params : OrderParams}
    (hd : d ∈ (evaluateProtectiveStop input state).decisions)
    (horder : d.order = some (intent, params)) : intent.side = .sell := by
  rcases evaluateProtectiveStop_sends hd with ⟨rearm, params', hsent⟩ | ⟨orderId, symbol, rfl⟩
  · rw [hsent] at horder
    cases horder
    rfl
  · cases horder

theorem side_of_closing {reason seed : String} {quantity : DecimalString} {intent : OrderIntent}
    {params : OrderParams}
    (hd : d ∈ closingSellDecisions input (buildSellDecision input reason quantity seed))
    (horder : d.order = some (intent, params)) : intent.side = .sell := by
  rw [order_of_mem_closing hd] at horder
  cases horder
  rfl

theorem mem_staleCancels {level : ℕ} (h : d ∈ staleCancels input level) :
    ∃ o ∈ openBuysFor input, ∃ why ∈ ["tt-grid-reprice-l", "tt-grid-promote-l"],
      d = .cancelOrder o.orderId (why ++ toString level) (some input.market.symbol) := by
  obtain ⟨o, ho, rfl⟩ := List.mem_map.mp h
  refine ⟨o, ho, _, ?_, rfl⟩
  split
  · exact List.mem_cons_self
  · exact List.mem_cons_of_mem _ List.mem_cons_self

theorem staleCancels_silent {level : ℕ} : ∀ d ∈ staleCancels input level, d.order = none := by
  intro d hd
  obtain ⟨o, -, why, -, rfl⟩ := mem_staleCancels hd
  rfl

theorem side_of_rung {sender : Option String} {level : ℕ} {quantity : DecimalString}
    {stopLimit : Option StopLimit} {intent : OrderIntent} {params : OrderParams}
    (hd : d ∈ asSent sender (staleCancels input level ++
      [buildGridBuyDecision input quantity level stopLimit]))
    (horder : d.order = some (intent, params)) : intent.side = .buy := by
  obtain ⟨d', hd', intent', horder', hside, -⟩ := order_of_asSent hd horder
  rw [hside]
  rw [List.mem_append, List.mem_singleton] at hd'
  rcases hd' with hd' | rfl
  · rw [staleCancels_silent d' hd'] at horder'
    cases horder'
  · cases horder'
    rfl

theorem side_of_single {sender : Option String} {intent intent' : OrderIntent}
    {params params' : OrderParams} (hd : d ∈ asSent sender [.placeOrder intent params])
    (horder : d.order = some (intent', params')) : intent'.side = intent.side := by
  obtain ⟨d', hd', intent'', horder', hside, -⟩ := order_of_asSent hd horder
  rw [List.mem_singleton.mp hd'] at horder'
  cases horder'
  exact hside

theorem mem_cancelBuys {orders : List OpenOrder} {reason : String}
    (h : d ∈ cancelBuys input orders reason) :
    ∃ o ∈ orders, d = .cancelOrder o.orderId reason (some input.market.symbol) := by
  obtain ⟨o, ho, rfl⟩ := List.mem_map.mp h
  exact ⟨o, ho, rfl⟩

theorem mem_report {block : Option RegimeBlock}
    (h : d ∈ entryTimeoutCancels input state block ++ regimeBlockCancels input block ++
      [tickSnapshot input]) :
    (∃ o ∈ openBuysFor input, ∃ why ∈ ["tt-entry-timeout", "tt-regime-entry-block"],
        d = .cancelOrder o.orderId why (some input.market.symbol)) ∨
      d = tickSnapshot input := by
  rw [List.mem_append, List.mem_append, List.mem_singleton] at h
  rcases h with (h | h) | h
  · unfold entryTimeoutCancels at h
    dsimp only at h
    split at h
    · obtain ⟨o, ho, rfl⟩ := mem_cancelBuys h
      exact .inl ⟨o, (List.mem_filter.mp ho).1, _, List.mem_cons_self, rfl⟩
    · cases h
  · unfold regimeBlockCancels at h
    split at h
    · obtain ⟨o, ho, rfl⟩ := mem_cancelBuys h
      exact .inl ⟨o, ho, _, List.mem_cons_of_mem _ List.mem_cons_self, rfl⟩
    · cases h
  · exact .inr h

/-! ### The ticks that sell on the stop-loss -/

/-- A text that starts with another letter is not the stop-loss reason. -/
theorem stale_ne_stopLoss {why rest : String}
    (h : why ∈ ["tt-grid-reprice-l", "tt-grid-promote-l"]) : why ++ rest ≠ "grid-stop-loss" := by
  intro heq
  have hhead := congrArg (fun s : String => s.toList.head?) heq
  simp only [List.mem_cons, List.not_mem_nil, or_false] at h
  rcases h with rfl | rfl <;> simp at hhead

theorem reasonOf_grid {now : ℤ} {before after : TTState} {decisions : List Decision}
    (h : GridEmits input now before after decisions) (hd : d ∈ decisions) :
    reasonOf d ≠ some "grid-stop-loss" := by
  cases h with
  | rung target level quantity htarget hlevel hrepriced hafter hdecisions =>
      rw [hdecisions, List.mem_append, List.mem_singleton] at hd
      rcases hd with hd | rfl
      · obtain ⟨o, -, why, hwhy, rfl⟩ := mem_staleCancels hd
        exact fun h => stale_ne_stopLoss hwhy (Option.some.inj h)
      · exact (by decide : some "grid-buy" ≠ some "grid-stop-loss")

theorem reasonOf_forced {now : ℤ} {before after : TTState} {decisions : List Decision}
    (h : ForcedEmits input now before after decisions)
    (hd : d ∈ decisions) : reasonOf d ≠ some "grid-stop-loss" := by
  cases h with
  | grid emits => exact reasonOf_grid emits hd
  | single quantity noGrid hafter hdecisions =>
      rw [hdecisions, List.mem_singleton] at hd
      rw [hd]
      exact (by decide : some "grid-buy" ≠ some "grid-stop-loss")

theorem reasonOf_manual {payload : ManualOrderRequest} {quantity : DecimalString}
    {overrideActionId : String} {closes : Prop} [Decidable closes]
    (hd : d ∈ attributeToOverride
      (if closes then
        closingSellDecisions input
          (buildManualOrderDecision input payload quantity overrideActionId)
      else [buildManualOrderDecision input payload quantity overrideActionId]) overrideActionId) :
    reasonOf d = some "manual" := by
  obtain ⟨d', hd', rfl⟩ := List.mem_map.mp hd
  rw [reasonOf_attribute]
  split at hd'
  · rw [reasonOf_of_order (order_of_mem_closing hd')]
  · rw [List.mem_singleton.mp hd']
    rfl

/-- A tick that ends before its position is looked at sells on no stop-loss. -/
theorem reasonOf_early {start : TTState} {output : TTOutput}
    (h : EarlyOutcome input start output) (hd : d ∈ output.decisions) :
    reasonOf d ≠ some "grid-stop-loss" := by
  cases h with
  | quiet keeps hdecisions =>
      rw [hdecisions, List.mem_singleton] at hd
      rw [hd]
      exact nofun
  | manual payload quantity overrideActionId keeps hdecisions =>
      rw [hdecisions] at hd
      rw [reasonOf_manual hd]
      exact (by decide : some "manual" ≠ some "grid-stop-loss")
  | forced sender before after decisions from_ emits next sent =>
      rw [sent] at hd
      obtain ⟨d', hd', rfl⟩ := mem_asSent hd
      have hreason := reasonOf_forced emits hd'
      cases sender with
      | none => exact hreason
      | some overrideActionId => rwa [Option.elim, reasonOf_attribute]
  | sold quantity overrideActionId flat index schemaVersion hdecisions =>
      rw [hdecisions] at hd
      obtain ⟨d', hd', rfl⟩ := List.mem_map.mp hd
      rw [reasonOf_attribute, reasonOf_of_order (order_of_mem_closing hd')]
      exact (by decide : some "manual" ≠ some "grid-stop-loss")

theorem reasonOf_buy {output : TTOutput} (h : BuyOutcome input state output)
    (hd : d ∈ output.decisions) :
    reasonOf d ≠ some "grid-stop-loss" := by
  cases h with
  | pyramid quantity addIndex addPrice held next hdecisions =>
      rw [hdecisions, List.mem_singleton] at hd
      rw [hd]
      exact (by decide : some "bull-pyramid" ≠ some "grid-stop-loss")
  | grid after hasGrid unblocked emits next => exact reasonOf_grid emits hd
  | first quantity noGrid unblocked flat keeps hdecisions =>
      rw [hdecisions, List.mem_singleton] at hd
      rw [hd]
      exact (by decide : some "grid-buy" ≠ some "grid-stop-loss")
  | report index block hblock hindex next hdecisions =>
      rw [hdecisions] at hd
      rcases mem_report hd with ⟨o, -, why, hwhy, rfl⟩ | rfl
      · simp only [List.mem_cons, List.not_mem_nil, or_false] at hwhy
        rcases hwhy with rfl | rfl
        · exact (by decide : some "tt-entry-timeout" ≠ some "grid-stop-loss")
        · exact (by decide : some "tt-regime-entry-block" ≠ some "grid-stop-loss")
      · exact nofun

theorem stopFires_of_terminal {output : TTOutput} (h : SellTerminal input state output)
    (hd : d ∈ output.decisions)
    (hreason : reasonOf d = some "grid-stop-loss") :
    ∃ lbp price stopLoss, StopFires input state lbp price stopLoss := by
  cases h with
  | sold emission reason held sells hdecisions flat index schemaVersion heldQuantity =>
      obtain ⟨quantity, seed, -, hdecision⟩ := sells.sized
      rw [hdecisions, hdecision] at hd
      rw [reasonOf_of_order (order_of_mem_closing hd)] at hreason
      refine sells.stopLoss ?_
      have htext : reason.text = "grid-stop-loss" := Option.some.inj hreason
      cases reason <;> first | rfl | simp [SellEmissionReason.text] at htext
  | refused held keeps hdecisions =>
      rw [hdecisions, List.mem_singleton] at hd
      rw [hd] at hreason
      cases hreason
  | armed at_ held keeps next hdecisions =>
      rw [hdecisions] at hd
      rcases evaluateProtectiveStop_sends hd with ⟨rearm, params, horder⟩ | ⟨orderId, symbol, rfl⟩
      · rw [reasonOf_of_order horder] at hreason
        exact absurd hreason (by decide : some "protective-stop" ≠ some "grid-stop-loss")
      · exact absurd hreason
          (by decide : some "tt-protective-stop-superseded" ≠ some "grid-stop-loss")

theorem computeTick_stopLoss {output : TTOutput} (htick : computeTick input = .ok output)
    (hd : d ∈ output.decisions)
    (hreason : reasonOf d = some "grid-stop-loss") :
    ∃ lbp price stopLoss, StopFires input input.state lbp price stopLoss := by
  have houtcome := (computeTick_outcome input).returned htick
  cases houtcome with
  | early stopped outcome => exact absurd hreason (reasonOf_early outcome hd)
  | late passes after drop outcome =>
      cases outcome with
      | buy at_ keeps outcome => exact absurd hreason (reasonOf_buy outcome hd)
      | sell terminal =>
          obtain ⟨lbp, price, stopLoss, hfires⟩ := stopFires_of_terminal terminal hd hreason
          cases drop with
          | kept h =>
              refine ⟨lbp, price, stopLoss, { hfires with lbp_eq := ?_ }⟩
              rw [← (keeps_startState input).avgEntryPrice]
              exact hfires.lbp_eq
          | dropped h => cases hfires.lbp_eq

end TradingBot.TrailingTrade
