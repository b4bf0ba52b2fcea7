import TradingBot.Worker.OrderHandlers

/-!
# Retired orders that had executed

An order that leaves the book after a part of it executed has moved base, and
no fill is adopted for it: the stream path looks at finished orders only. A
replacement repairs every such order it learns of, whichever answer carried the
record, and so does a cancel that had to ask; a cancel the exchange accepts
neither schedules the repair nor keeps the executed quantity.
-/

namespace TradingBot.Worker

/-- One run of a handler, with everything the exchange answered. -/
inductive Retirement where
  | cancel (ctx : CancelContext) (decision : CancelDecision)
      (answer probe : Except ExchangeError OrderBody)
  | replace (ctx : ReplaceContext) (decision : ReplaceDecision) (answers : ReplaceAnswers)

namespace Retirement

def handled : Retirement → Handled
  | cancel ctx decision answer probe => cancelOrderHandler ctx decision answer probe
  | replace ctx decision answers => replaceOrderHandler ctx decision answers

def symbol : Retirement → Option String
  | cancel ctx decision _ _ => cancelSymbol ctx decision
  | replace _ decision _ => some decision.intent.symbol

def orderId : Retirement → ℕ
  | cancel _ decision _ _ => decision.orderId
  | replace _ decision _ => decision.cancelOrderId

/-- The record of the retired order the exchange gave: with the cancel, with the cancel leg of a
replacement or of its failure, or when asked. -/
def received : Retirement → Option OrderBody
  | cancel ctx decision answer probe =>
      match cancelSymbol ctx decision, answer with
      | none, _ => none
      | some _, .ok dto => some dto
      | some _, .error (.api err) => if err.code = -2011 then probe.toOption else none
      | some _, .error _ => none
  | replace ctx _ answers =>
      if ctx.weightLimit1m ≤ ctx.weight then none
      else
        match answers.replace with
        | .ok dto => if dto.cancelResult.any (· ≠ "SUCCESS") then none else dto.cancelResponse
        | .error (.transport _) => answers.probe.toOption
        | .error (.orderBudget ..) => none
        | .error (.api err) =>
            if err.code = -2022 then
              if err.cancelLegCode = some (-2011) then answers.probe.toOption else none
            else if err.code = -2021 then err.cancelLeg
            else none

/-- The handler schedules a reconcile of the symbol, and the row it closes keeps what executed. -/
structure Repairs (r : Retirement) (record : OrderBody) : Prop where
  reconciles : ∃ symbol cause, r.symbol = some symbol ∧
    .enqueueReconcile symbol cause ∈ r.handled.effects
  closes : ∃ status closedAtMs raw,
    .closeOrder r.orderId status closedAtMs (some raw) ∈ r.handled.effects ∧
      raw.executedQty = record.executedQty

end Retirement

/-- The record is of an order that left the book after moving base. -/
structure OrderBody.MovedBase (record : OrderBody) : Prop where
  terminal : record.isTerminal = true
  executed : executedSomething record.executedQty = true

/-- The exchange accepts a cancel with the record of an order that had moved base. -/
inductive Retirement.CancelsExecuted : Retirement → Prop where
  | intro (ctx : CancelContext) (decision : CancelDecision) (dto : OrderBody)
      (probe : Except ExchangeError OrderBody) (sent : (cancelSymbol ctx decision).isSome = true)
      (moved : dto.MovedBase) : CancelsExecuted (.cancel ctx decision (.ok dto) probe)

/-! ### Cancels -/

section Cancel

variable {ctx : CancelContext} {decision : CancelDecision} {symbol : String}

theorem mem_markReleased {effect : Effect} (h : effect ∈ markReleased ctx symbol) :
    ∃ asset amount, effect = .markReleased asset amount := by
  unfold markReleased at h
  split at h
  · rcases List.mem_cons.mp h with rfl | h
    · exact ⟨_, _, rfl⟩
    · obtain ⟨asset, -, rfl⟩ := Option.map_eq_some_iff.mp (Option.mem_toList.mp h)
      exact ⟨_, _, rfl⟩
  · rw [List.mem_singleton.mp h]
    exact ⟨_, _, rfl⟩
  · obtain ⟨asset, -, rfl⟩ := Option.map_eq_some_iff.mp (Option.mem_toList.mp h)
    exact ⟨_, _, rfl⟩

/-- An accepted cancel schedules nothing. -/
theorem cancel_ok_no_reconcile (dto : OrderBody) (probe : Except ExchangeError OrderBody)
    (hsymbol : cancelSymbol ctx decision = some symbol) (reconciled : String)
    (cause : SymbolReconcileCause) :
    .enqueueReconcile reconciled cause ∉
      (cancelOrderHandler ctx decision (.ok dto) probe).effects := by
  intro h
  rw [cancelOrderHandler, hsymbol] at h
  rcases List.mem_cons.mp h with h | h
  · cases h
  · rcases List.mem_append.mp h with h | h
    · obtain ⟨asset, amount, h⟩ := mem_markReleased h
      cases h
    · simp [closeCancelled] at h

theorem cancelProbed_repairs {err : BinanceApiError} {order : OrderBody}
    (hsymbol : cancelSymbol ctx decision = some symbol) (hcode : err.code = -2011)
    (moved : order.MovedBase) :
    (Retirement.cancel ctx decision (.error (.api err)) (.ok order)).Repairs order := by
  have hhandled : (Retirement.cancel ctx decision (.error (.api err)) (.ok order)).handled =
      cancelProbed ctx decision symbol (.ok order) := by
    simp [Retirement.handled, cancelOrderHandler, hsymbol, hcode]
  refine ⟨⟨symbol, .cancel2011Fill, hsymbol, ?_⟩,
    ⟨order.status, order.updateTime, order, ?_, rfl⟩⟩
  · rw [hhandled]
    simp [cancelProbed, moved.terminal, moved.executed]
  · rw [hhandled]
    simp [cancelProbed, moved.terminal, closeCancelled, Retirement.orderId]

end Cancel

/-! ### Replacements -/

section Replace

variable {ctx : ReplaceContext} {decision : ReplaceDecision} {answers : ReplaceAnswers}
  {record : OrderBody}

/-- The report of a retired leg is among the effects. -/
def Reports (ctx : ReplaceContext) (decision : ReplaceDecision) (record : OrderBody)
    (effects : List Effect) : Prop :=
  ∃ leg, asRetiredLeg record = some leg ∧ reportCancelledLeg ctx decision (some leg) ⊆ effects

theorem Reports.after {handled : Handled} (h : Reports ctx decision record handled.effects)
    (effects : List Effect) : Reports ctx decision record (handled.after effects).effects := by
  obtain ⟨leg, hleg, hsub⟩ := h
  exact ⟨leg, hleg, List.Subset.trans hsub (List.subset_append_right _ _)⟩

theorem exists_leg (moved : record.MovedBase) :
    ∃ leg, asRetiredLeg record = some leg ∧ isTerminalOrderStatus leg.status = true ∧
      leg.executedQty = record.executedQty ∧ leg.raw = record := by
  have hterminal := moved.terminal
  unfold OrderBody.isTerminal at hterminal
  cases hstatus : record.status with
  | none =>
      rw [hstatus] at hterminal
      cases hterminal
  | some status =>
      rw [hstatus, Option.any_some] at hterminal
      refine ⟨⟨status, record.transactTime.or record.updateTime, record.executedQty, record⟩, ?_,
        hterminal, rfl, rfl⟩
      rw [asRetiredLeg, hstatus]
      rfl

theorem closeOrder_mem_report (ctx : ReplaceContext) (decision : ReplaceDecision)
    (leg : RetiredLeg) :
    ∃ status closedAtMs, .closeOrder decision.cancelOrderId status closedAtMs (some leg.raw) ∈
      reportCancelledLeg ctx decision (some leg) :=
  ⟨_, _, List.mem_append_left _ (List.mem_cons_of_mem _ List.mem_cons_self)⟩

theorem Reports.repairs (h : Reports ctx decision record
      (replaceOrderHandler ctx decision answers).effects) (moved : record.MovedBase) :
    (Retirement.replace ctx decision answers).Repairs record := by
  obtain ⟨leg, hleg, hsub⟩ := h
  obtain ⟨leg', hleg', -, hexecuted, hraw⟩ := exists_leg moved
  obtain rfl : leg = leg' := Option.some.inj (hleg.symm.trans hleg')
  obtain ⟨status, closedAtMs, hclose⟩ := closeOrder_mem_report ctx decision leg
  refine ⟨⟨decision.intent.symbol, .cancel2011Fill, rfl, hsub ?_⟩,
    ⟨status, closedAtMs, leg.raw, hsub hclose, by rw [hraw]⟩⟩
  simp [reportCancelledLeg, hexecuted, moved.executed]

theorem retireAndRePlaceSuccessor_reports {leg : RetiredLeg} (retiredBy : String)
    (hleg : asRetiredLeg record = some leg) :
    Reports ctx decision record
      (retireAndRePlaceSuccessor ctx decision answers retiredBy (some leg)).effects := by
  refine ⟨leg, hleg, ?_⟩
  unfold retireAndRePlaceSuccessor
  split
  · exact List.Subset.refl _
  · unfold Handled.after
    rw [List.append_assoc]
    exact List.subset_append_left _ _

theorem probedLeg_eq {leg : RetiredLeg} (hprobe : answers.probe = .ok record)
    (hleg : asRetiredLeg record = some leg) (hterminal : isTerminalOrderStatus leg.status = true) :
    probedLeg answers = some leg := by
  unfold probedLeg
  rw [hprobe]
  simp [hleg, hterminal]

theorem replace_repairs
    (hreceived : (Retirement.replace ctx decision answers).received = some record)
    (moved : record.MovedBase) : (Retirement.replace ctx decision answers).Repairs record := by
  refine Reports.repairs ?_ moved
  obtain ⟨leg, hleg, hterminal, -, -⟩ := exists_leg moved
  unfold Retirement.received at hreceived
  dsimp only at hreceived
  unfold replaceOrderHandler
  split at hreceived
  · cases hreceived
  · next hweight =>
      rw [if_neg hweight]
      apply Reports.after
      unfold replaceDispatch
      split at hreceived
      · next dto hanswer =>
          rw [hanswer]
          unfold replaceAnswered
          dsimp only
          split at hreceived
          · cases hreceived
          · next hsuccess =>
              rw [if_neg hsuccess, hreceived, Option.bind_some, hleg]
              exact ⟨leg, hleg, List.subset_append_left _ _⟩
      · next message hanswer =>
          rw [hanswer]
          have hprobe : answers.probe = .ok record := by
            cases h : answers.probe with
            | error e => rw [h] at hreceived; cases hreceived
            | ok order => rw [h] at hreceived; cases hreceived; rfl
          refine ⟨leg, hleg, ?_⟩
          simp only [replaceLost, probedLeg_eq hprobe hleg hterminal]
          exact List.subset_append_right _ _
      · cases hreceived
      · next err hanswer =>
          rw [hanswer]
          dsimp only
          split at hreceived
          · next hcode =>
              rw [if_pos hcode]
              split at hreceived
              · next hcancel =>
                  have hprobe : answers.probe = .ok record := by
                    cases h : answers.probe with
                    | error e => rw [h] at hreceived; cases hreceived
                    | ok order => rw [h] at hreceived; cases hreceived; rfl
                  unfold cancelLegRefused
                  dsimp only
                  rw [if_pos hcancel, probedLeg_eq hprobe hleg hterminal]
                  apply Reports.after
                  dsimp only
                  split
                  · exact ⟨leg, hleg, List.Subset.refl _⟩
                  · exact retireAndRePlaceSuccessor_reports _ hleg
              · cases hreceived
          · next hcode =>
              rw [if_neg hcode]
              split at hreceived
              · next hother =>
                  rw [if_pos hother, hreceived, Option.bind_some, hleg]
                  exact retireAndRePlaceSuccessor_reports _ hleg
              · cases hreceived

end Replace

/-- A retirement repairs what it learned of an order that had moved base, unless a cancel was
accepted with that record. -/
theorem partial_retirements_repaired_iff (r : Retirement) :
    (∀ record, r.received = some record → record.MovedBase → r.Repairs record) ↔
      ¬ r.CancelsExecuted := by
  constructor
  · rintro hrepairs ⟨ctx, decision, dto, probe, sent, moved⟩
    obtain ⟨symbol, hsymbol⟩ := Option.isSome_iff_exists.mp sent
    have hreceived : (Retirement.cancel ctx decision (.ok dto) probe).received = some dto := by
      simp [Retirement.received, hsymbol]
    obtain ⟨reconciled, cause, -, hmem⟩ := (hrepairs dto hreceived moved).reconciles
    exact cancel_ok_no_reconcile dto probe hsymbol reconciled cause hmem
  · intro hclean record hreceived moved
    cases r with
    | replace ctx decision answers => exact replace_repairs hreceived moved
    | cancel ctx decision answer probe =>
        cases hsymbol : cancelSymbol ctx decision with
        | none => simp [Retirement.received, hsymbol] at hreceived
        | some symbol =>
            cases answer with
            | ok dto =>
                simp only [Retirement.received, hsymbol, Option.some.injEq] at hreceived
                exact absurd (.intro ctx decision dto probe (by simp [hsymbol]) (hreceived ▸ moved))
                  hclean
            | error err =>
                cases err with
                | api err =>
                    simp only [Retirement.received, hsymbol] at hreceived
                    split at hreceived
                    · next hcode =>
                        cases probe with
                        | error e => cases hreceived
                        | ok order =>
                            cases hreceived
                            exact cancelProbed_repairs hsymbol hcode moved
                    · cases hreceived
                | orderBudget windowMs waitMs =>
                    simp [Retirement.received, hsymbol] at hreceived
                | transport message => simp [Retirement.received, hsymbol] at hreceived

/-- Half of a resting order of two coins has executed when its cancel goes through. -/
def sampleHalfFilled : OrderBody :=
  { status := some "CANCELED", executedQty := some "1", transactTime := some 1000
    updateTime := none }

def sampleCancel : Retirement :=
  .cancel ⟨1000, "USDT", some ⟨"BTCUSDT", "grid-buy", some .buy, some "1", some "100"⟩⟩
    ⟨7, "tt-grid-promote-l1", some "BTCUSDT"⟩ (.ok sampleHalfFilled) (.ok sampleHalfFilled)

/-- The cancel is recorded and nothing is repaired. -/
theorem accepted_cancel_repairs_nothing :
    sampleCancel.received = some sampleHalfFilled ∧ sampleHalfFilled.MovedBase ∧
      ¬ sampleCancel.Repairs sampleHalfFilled := by
  refine ⟨rfl, ⟨by decide +kernel, by decide +kernel⟩, fun h => ?_⟩
  obtain ⟨reconciled, cause, -, hmem⟩ := h.reconciles
  exact cancel_ok_no_reconcile sampleHalfFilled (.ok sampleHalfFilled)
    (by decide +kernel : cancelSymbol _ _ = some "BTCUSDT") reconciled cause hmem

end TradingBot.Worker
