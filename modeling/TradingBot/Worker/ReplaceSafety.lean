import Mathlib.Logic.Relation
import TradingBot.Worker.AmbiguousPlacement

/-!
# Replacements against the exchange

A replacement cancels the resting order and places its successor as one request
of the exchange: the successor is placed only when the cancel went through. The
resting order may fill, expire or be cancelled by somebody else at any time, an
answer may be lost, and a request whose answer was lost may be executed later.
The handler may place the successor a second time, bare. What it leaves on the
book, closes in its records and reports is judged against the exchange itself.
-/

namespace TradingBot.Worker

open Decimal

/-! ### What follows a placement -/

/-- The step of the bookkeeping that failed: the row's own write, or one after it. -/
inductive BookkeepingFault where
  | persist (message : String)
  | publish (message : String)

section FollowUp

variable (intent : OrderIntent) (params : OrderParams)

/-- An accepted market order is remembered, so that the next tick does not send it again. -/
def rememberPlacement : List Effect :=
  if params.type = .market then [.recordPlacement intent.clientOrderId intent.symbol] else []

/-- The books of an order the exchange accepted. The row takes the slot of its intent. -/
def recordPlacedOrder (fault : Option BookkeepingFault) (dto : PlaceOrderDto) : Handled :=
  let status := dto.status.getD "NEW"
  let persisted : List Effect :=
    [.persistOrder dto,
      if isTerminalOrderStatus status then .evictOpenOrder intent.symbol dto.orderId
      else .cacheOpenOrder intent.symbol dto.orderId]
  let failed := fun (message : String) (written : List Effect) =>
    { result := .failed false .accepted false ("order accepted but bookkeeping failed: " ++ message)
      effects := rememberPlacement intent params ++ written ++
        [.persistTracking dto.orderId dto.clientOrderId status,
          .emergencyNotify "order-bookkeeping-failed" intent.symbol,
          .recordBookkeepingFailure intent.symbol dto.orderId message] : Handled }
  match fault with
  | none =>
      ⟨.ok, rememberPlacement intent params ++ persisted ++
        [.emitPlaced dto.orderId dto.clientOrderId status]⟩
  | some (.persist message) => failed message []
  | some (.publish message) => failed message persisted

/-- A resolved placement writes its row under an intent of its own. -/
def handleResolution (resolution : PlacementResolution) : Handled :=
  ⟨resolution.result,
    match resolution.recorded with
    | none => []
    | some order =>
        .persistTracking order.orderId intent.clientOrderId order.status ::
          rememberPlacement intent params ++
          [.emergencyNotify "order-bookkeeping-failed" intent.symbol]⟩

end FollowUp

/-! ### The exchange -/

inductive ExchangeStatus where
  | new
  | partiallyFilled
  | filled
  | canceled
  | rejected
  | expired
  | expiredInMatch

namespace ExchangeStatus

def text : ExchangeStatus → String
  | new => "NEW"
  | partiallyFilled => "PARTIALLY_FILLED"
  | filled => "FILLED"
  | canceled => "CANCELED"
  | rejected => "REJECTED"
  | expired => "EXPIRED"
  | expiredInMatch => "EXPIRED_IN_MATCH"

/-- The order is on the book. -/
def live : ExchangeStatus → Bool
  | new | partiallyFilled => true
  | _ => false

theorem isTerminalOrderStatus_text (status : ExchangeStatus) :
    isTerminalOrderStatus status.text = !status.live := by
  cases status <;> decide +kernel

theorem text_eq_filled {status : ExchangeStatus} (h : status.text = "FILLED") :
    status = .filled := by
  cases status <;> first | rfl | exact absurd h (by decide)

end ExchangeStatus

/-- An order as the exchange has it, with the text it prints of what has executed. -/
structure ExchangeOrder where
  status : ExchangeStatus
  executedQty : String
  executed : ℚ
  parses : parse executedQty = some (num executed)
  nonneg : 0 ≤ executed
  filled_pos : status = .filled → 0 < executed

namespace ExchangeOrder

variable (order : ExchangeOrder)

def live : Bool := order.status.live

def cancel : ExchangeOrder := { order with status := .canceled, filled_pos := nofun }

/-- The body is the exchange's record of the order. -/
structure RecordedBy (body : OrderBody) : Prop where
  status : body.status = some order.status.text
  executedQty : body.executedQty = some order.executedQty

/-- The body is the record, or tells nothing. -/
def DescribedBy (body : OrderBody) : Prop := body.status = none ∨ order.RecordedBy body

end ExchangeOrder

/-- A request that was sent and not answered. -/
inductive Request where
  | cancelReplace
  | place

/-- The two orders, and the request that may still be executed. -/
structure Exchange where
  retired : ExchangeOrder
  successor : Option ExchangeOrder
  pending : Option Request

namespace Exchange

/-- A request is executed whole: the successor is placed only after the cancel. -/
inductive Executes : Request → Exchange → Exchange → Prop where
  | replaced {e : Exchange} (placed : ExchangeOrder) (live : e.retired.live = true) :
      Executes .cancelReplace e { e with retired := e.retired.cancel, successor := some placed }
  | successorRefused {e : Exchange} (live : e.retired.live = true) :
      Executes .cancelReplace e { e with retired := e.retired.cancel }
  | cancelRefused (e : Exchange) : Executes .cancelReplace e e
  | placed {e : Exchange} (placed : ExchangeOrder) :
      Executes .place e { e with successor := some placed }
  | placeRefused (e : Exchange) : Executes .place e e

/-- What the exchange does by itself: orders on the book fill, expire or are cancelled by others,
and an unanswered request is executed or comes to nothing. -/
inductive Move : Exchange → Exchange → Prop where
  | retired {e : Exchange} (next : ExchangeOrder) (live : e.retired.live = true)
      (grows : e.retired.executed ≤ next.executed) : Move e { e with retired := next }
  | successor {e : Exchange} {placed : ExchangeOrder} (next : ExchangeOrder)
      (known : e.successor = some placed) (live : placed.live = true)
      (grows : placed.executed ≤ next.executed) : Move e { e with successor := some next }
  | execute {e e' : Exchange} {request : Request} (sent : e.pending = some request)
      (executes : Executes request e e') : Move e { e' with pending := none }
  | expire (e : Exchange) : Move e { e with pending := none }

/-- The second exchange is the first, any number of moves later. -/
def Later : Exchange → Exchange → Prop := Relation.ReflTransGen Move

/-- The exchange answers the replacement. -/
inductive AnswersReplace : Exchange → Except ExchangeError CancelReplaceDto → Exchange → Prop where
  | success {e : Exchange} (placed : ExchangeOrder) (dto : CancelReplaceDto)
      (live : e.retired.live = true) (result : dto.cancelResult.any (· ≠ "SUCCESS") = false)
      (record : ∀ body ∈ dto.cancelResponse, e.retired.cancel.DescribedBy body) :
      AnswersReplace e (.ok dto)
        { e with retired := e.retired.cancel, successor := some placed }
  /-- The documentation has no such answer. -/
  | halfDone {e e' : Exchange} (dto : CancelReplaceDto)
      (result : dto.cancelResult.any (· ≠ "SUCCESS") = true)
      (executes : Executes .cancelReplace e e') : AnswersReplace e (.ok dto) e'
  | cancelRefused {e : Exchange} (err : BinanceApiError) (code : err.code = -2022)
      (gone : err.cancelLegCode = some (-2011) → e.retired.live = false) :
      AnswersReplace e (.error (.api err)) e
  | successorRefused {e : Exchange} (err : BinanceApiError) (code : err.code = -2021)
      (live : e.retired.live = true)
      (record : ∀ body ∈ err.cancelLeg, e.retired.cancel.RecordedBy body) :
      AnswersReplace e (.error (.api err)) { e with retired := e.retired.cancel }
  | orderBudget {e : Exchange} (windowMs waitMs : ℤ) :
      AnswersReplace e (.error (.orderBudget windowMs waitMs)) e
  | refused {e : Exchange} (err : BinanceApiError) (code : err.code ≠ -2022 ∧ err.code ≠ -2021)
      (phase : err.phase = .rejected) : AnswersReplace e (.error (.api err)) e
  | unclear {e : Exchange} (err : BinanceApiError) (code : err.code ≠ -2022 ∧ err.code ≠ -2021)
      (phase : err.phase = .ambiguous) :
      AnswersReplace e (.error (.api err)) { e with pending := some .cancelReplace }
  | lost {e : Exchange} (message : String) :
      AnswersReplace e (.error (.transport message)) { e with pending := some .cancelReplace }

def AnswersProbe (e : Exchange) : Except ExchangeError OrderBody → Prop
  | .ok body => e.retired.DescribedBy body
  | .error _ => True

/-- The exchange answers the bare placement. -/
inductive AnswersPlace : Exchange → Except ExchangeError PlaceOrderDto → Exchange → Prop where
  | placed {e : Exchange} (placed : ExchangeOrder) (dto : PlaceOrderDto) :
      AnswersPlace e (.ok dto) { e with successor := some placed }
  | orderBudget {e : Exchange} (windowMs waitMs : ℤ) :
      AnswersPlace e (.error (.orderBudget windowMs waitMs)) e
  | refused {e : Exchange} (err : BinanceApiError) (phase : err.phase = .rejected) :
      AnswersPlace e (.error (.api err)) e
  | unclear {e : Exchange} (err : BinanceApiError) (phase : err.phase = .ambiguous) :
      AnswersPlace e (.error (.api err)) { e with pending := some .place }
  | lost {e : Exchange} (message : String) :
      AnswersPlace e (.error (.transport message)) { e with pending := some .place }

end Exchange

/-! ### The bare placement -/

/-- The record a bare placement goes by, if one is sent at all. -/
def barePlacement (ctx : ReplaceContext) (answers : ReplaceAnswers) : Option (Option RetiredLeg) :=
  if ctx.weightLimit1m ≤ ctx.weight then none
  else
    match answers.replace with
    | .error (.api err) =>
        let leg : Option (Option RetiredLeg) :=
          if err.code = -2022 then
            if err.cancelLegCode = some (-2011) then
              ((probedLeg answers).filter fun leg =>
                !(leg.status = "FILLED" && executedSomething leg.executedQty)).map some
            else none
          else if err.code = -2021 then some (err.cancelLeg.bind asRetiredLeg)
          else none
        leg.filter fun leg => !leg.any fun leg => executedSomething leg.executedQty
    | _ => none

/-- What the handler makes of the answer to the bare placement. -/
def placedBare (ctx : ReplaceContext) (decision : ReplaceDecision) (retiredBy : String) :
    Except ExchangeError PlaceOrderDto → Handled
  | .error err => rePlaceFailed ctx decision retiredBy err
  | .ok dto => (ctx.recordPlacedOrder decision.intent decision.params dto).after [.recordWeight]

section Bare

variable {ctx : ReplaceContext} {decision : ReplaceDecision} {answers : ReplaceAnswers}

@[simp]
theorem Handled.after_result (effects : List Effect) (handled : Handled) :
    (handled.after effects).result = handled.result := rfl

@[simp]
theorem Handled.after_effects (effects : List Effect) (handled : Handled) :
    (handled.after effects).effects = effects ++ handled.effects := rfl

theorem replaceOrderHandler_open (hopen : ctx.weight < ctx.weightLimit1m) :
    replaceOrderHandler ctx decision answers = (replaceDispatch ctx decision answers).after
      ((if closesPosition decision then [.forgetPlacements decision.intent.symbol] else []) ++
        [.registerOwner decision.intent.clientOrderId, .recordWeight]) := by
  rw [replaceOrderHandler, if_neg (not_le.mpr hopen)]

/-- A bare placement follows a cancel that was refused because the order was gone, or a cancel that
went through without its successor. -/
theorem barePlacement_cases {leg : Option RetiredLeg} (h : barePlacement ctx answers = some leg) :
    ctx.weight < ctx.weightLimit1m ∧
      (leg.any fun leg => executedSomething leg.executedQty) = false ∧
      ∃ err, answers.replace = .error (.api err) ∧
        ((err.code = -2022 ∧ err.cancelLegCode = some (-2011) ∧
            ∃ record, leg = some record ∧ probedLeg answers = some record) ∨
          (err.code = -2021 ∧ leg = err.cancelLeg.bind asRetiredLeg)) := by
  unfold barePlacement at h
  split at h
  · cases h
  · next hopen =>
      refine ⟨not_le.mp hopen, ?_⟩
      split at h
      · next err hreplace =>
          dsimp only at h
          obtain ⟨hleg, hunmoved⟩ := Option.filter_eq_some_iff.mp h
          refine ⟨by simpa using hunmoved, err, hreplace, ?_⟩
          split at hleg
          · next hcode =>
              split at hleg
              · next hgone =>
                  obtain ⟨record, hrecord, rfl⟩ := Option.map_eq_some_iff.mp hleg
                  exact .inl ⟨hcode, hgone, record, rfl, (Option.filter_eq_some_iff.mp hrecord).1⟩
              · cases hleg
          · split at hleg
            · next hcode =>
                exact .inr ⟨hcode, (Option.some.inj hleg).symm⟩
            · cases hleg
      · cases h

theorem retireAndRePlaceSuccessor_result {retiredBy : String} {leg : Option RetiredLeg}
    (h : (leg.any fun leg => executedSomething leg.executedQty) = false) :
    (retireAndRePlaceSuccessor ctx decision answers retiredBy leg).result =
      (placedBare ctx decision retiredBy answers.place).result := by
  rw [retireAndRePlaceSuccessor, if_neg (by simp [h])]
  cases answers.place <;> rfl

theorem result_of_barePlacement {leg : Option RetiredLeg}
    (h : barePlacement ctx answers = some leg) :
    ∃ retiredBy, (replaceOrderHandler ctx decision answers).result =
      (placedBare ctx decision retiredBy answers.place).result := by
  obtain ⟨hopen, hunmoved, err, hreplace, hcases⟩ := barePlacement_cases h
  rw [replaceOrderHandler_open hopen, Handled.after_result, replaceDispatch, hreplace]
  dsimp only
  rcases hcases with ⟨hcode, hgone, record, rfl, hprobed⟩ | ⟨hcode, rfl⟩
  · have hunfilled : executedSomething record.executedQty = false := by simpa using hunmoved
    refine ⟨"-2022/-2011", ?_⟩
    rw [if_pos hcode, cancelLegRefused, if_pos hgone, Handled.after_result, hprobed]
    dsimp only
    rw [if_neg (by simp [hunfilled])]
    exact retireAndRePlaceSuccessor_result hunmoved
  · refine ⟨"-2021", ?_⟩
    rw [if_neg (by simp [hcode]), if_pos hcode]
    exact retireAndRePlaceSuccessor_result hunmoved

end Bare

/-! ### A handler's run -/

/-- A replacement, up to what the exchange does and answers. One call at most loses its response. -/
structure ReplaceSchedule where
  nowMs : ℤ
  slot : Option OrderSlot
  weight : ℕ
  weightLimit1m : ℕ
  decision : ReplaceDecision
  fault : Option BookkeepingFault
  responseLost : Bool
  timing : LostPlacement
  lost_sent : responseLost = true → weight < weightLimit1m

namespace ReplaceSchedule

variable (s : ReplaceSchedule)

/-- The placement as the resolution finds it, with the message of the error that was thrown. -/
def lostPlacement (err : ExchangeError) : LostPlacement :=
  { s.timing with message := err.errorMessage }

def ctx (admittedAt : Option ℤ) : ReplaceContext where
  nowMs := s.nowMs
  slot := s.slot
  weight := s.weight
  weightLimit1m := s.weightLimit1m
  recordPlacedOrder intent params dto := recordPlacedOrder intent params s.fault dto
  resolveAmbiguousPlacement intent params err :=
    handleResolution intent params ((s.lostPlacement err).resolution admittedAt)

end ReplaceSchedule

/-- The answer to the replacement or to the bare placement was lost. -/
def losesResponse (ctx : ReplaceContext) (answers : ReplaceAnswers) : Prop :=
  ctx.weight < ctx.weightLimit1m ∧ (∃ message, answers.replace = .error (.transport message)) ∨
    (barePlacement ctx answers).isSome = true ∧
      ∃ message, answers.place = .error (.transport message)

/-- The exchange beside a run of the handler: before each call, after it, and at any time after the
handler returned. A placement that was lost and is on the exchange was admitted at some instant. -/
structure ExchangeRun (s : ReplaceSchedule) where
  answers : ReplaceAnswers
  admittedAt : Option ℤ
  start : Exchange
  asked : Exchange
  answered : Exchange
  probed : Exchange
  beforePlace : Exchange
  afterPlace : Exchange
  final : Exchange
  unplaced : start.successor = none
  idle : start.pending = none
  start_asked : start.Later asked
  replace : if s.weightLimit1m ≤ s.weight then answered = asked
    else asked.AnswersReplace answers.replace answered
  answered_probed : answered.Later probed
  probe : probed.AnswersProbe answers.probe
  probed_place : probed.Later beforePlace
  place : if (barePlacement (s.ctx admittedAt) answers).isSome then
      beforePlace.AnswersPlace answers.place afterPlace
    else afterPlace = beforePlace
  place_final : afterPlace.Later final
  loses : s.responseLost = true ↔ losesResponse (s.ctx admittedAt) answers
  admissible : s.timing.Admissible admittedAt
  admitted : s.responseLost = true → final.successor.isSome = true → admittedAt.isSome = true

/-- The write closes the row of the order; a new row may take over the slot it is in. -/
def Effect.closesRow (orderId : ℕ) : Effect → Bool
  | .closeOrder id .. => id == orderId
  | .persistOrder _ => true
  | _ => false

namespace ExchangeRun

variable {s : ReplaceSchedule} (run : ExchangeRun s)

def handled : Handled := replaceOrderHandler (s.ctx run.admittedAt) s.decision run.answers

/-- The record of the retired order allows a bare placement. -/
def Unsold (leg : Option RetiredLeg) : Prop :=
  ∃ record ∈ leg, isTerminalOrderStatus record.status = true ∧ record.status ≠ "FILLED" ∧
    record.executedQty.bind parse = some (num 0)

/-- The replacement failed after the cancel, and told nothing of the order it cancelled. -/
def CancelledUnseen : Prop :=
  ∃ err, run.answers.replace = .error (.api err) ∧ err.code = -2021 ∧ err.cancelLeg = none

structure Safe : Prop where
  unsold : ∀ leg, barePlacement (s.ctx run.admittedAt) run.answers = some leg →
    Unsold leg ∨ run.CancelledUnseen
  one_live : ¬(run.final.retired.live = true ∧ run.final.successor.any (·.live) = true)
  closed : run.handled.effects.any (Effect.closesRow s.decision.cancelOrderId) = true →
    run.probed.retired.live = false
  unplaced : run.handled.result.HasPhase .preCall ∨ run.handled.result.HasPhase .rejected →
    run.final.successor = none

end ExchangeRun

/-! ### What the exchange keeps -/

namespace Exchange

variable {e e' : Exchange}

/-- An order that left the book stays as it is. -/
theorem Move.retired_eq (h : Move e e') (hgone : e.retired.live = false) :
    e'.retired = e.retired := by
  cases h with
  | retired next live => simp [hgone] at live
  | successor => rfl
  | execute sent executes =>
      cases executes with
      | replaced placed live => simp [hgone] at live
      | successorRefused live => simp [hgone] at live
      | cancelRefused => rfl
      | placed => rfl
      | placeRefused => rfl
  | expire => rfl

theorem Later.retired_eq (h : e.Later e') (hgone : e.retired.live = false) :
    e'.retired = e.retired := by
  induction h with
  | refl => rfl
  | tail _ hmove ih => exact (hmove.retired_eq (by rw [ih]; exact hgone)).trans ih

/-- No successor, and no request that could place one. -/
structure Unplaced (e : Exchange) : Prop where
  successor : e.successor = none
  pending : e.pending = none

theorem Move.unplaced (h : Move e e') (hunplaced : e.Unplaced) : e'.Unplaced := by
  cases h with
  | retired => exact ⟨hunplaced.successor, hunplaced.pending⟩
  | successor next known => simp [hunplaced.successor] at known
  | execute sent => simp [hunplaced.pending] at sent
  | expire => exact ⟨hunplaced.successor, rfl⟩

theorem Later.unplaced (h : e.Later e') (hunplaced : e.Unplaced) : e'.Unplaced := by
  induction h with
  | refl => exact hunplaced
  | tail _ hmove ih => exact hmove.unplaced ih

/-- A successor, or a request that places one by itself, is there only when the order it succeeds
has left the book. -/
structure Succeeds (e : Exchange) : Prop where
  successor : e.successor.isSome = true → e.retired.live = false
  place : e.pending = some .place → e.retired.live = false

theorem Unplaced.succeeds (h : e.Unplaced) : e.Succeeds :=
  ⟨fun hsome => by simp [h.successor] at hsome, fun hplace => by simp [h.pending] at hplace⟩

theorem Succeeds.of_gone (hgone : e.retired.live = false) : e.Succeeds :=
  ⟨fun _ => hgone, fun _ => hgone⟩

theorem Executes.succeeds {request : Request} (h : Executes request e e')
    (hsucceeds : e.Succeeds) (hsent : e.pending = some request) : e'.Succeeds := by
  cases h with
  | replaced => exact .of_gone rfl
  | successorRefused => exact .of_gone rfl
  | cancelRefused => exact hsucceeds
  | placed => exact .of_gone (hsucceeds.place hsent)
  | placeRefused => exact hsucceeds

theorem Move.succeeds (h : Move e e') (hsucceeds : e.Succeeds) : e'.Succeeds := by
  cases h with
  | retired next live =>
      refine ⟨fun hsome => ?_, fun hplace => ?_⟩
      · simp [hsucceeds.successor hsome] at live
      · simp [hsucceeds.place hplace] at live
  | successor next known =>
      exact ⟨fun _ => hsucceeds.successor (by simp [known]), hsucceeds.place⟩
  | execute sent executes =>
      exact ⟨(executes.succeeds hsucceeds sent).successor, nofun⟩
  | expire => exact ⟨hsucceeds.successor, nofun⟩

theorem Later.succeeds (h : e.Later e') (hsucceeds : e.Succeeds) : e'.Succeeds := by
  induction h with
  | refl => exact hsucceeds
  | tail _ hmove ih => exact hmove.succeeds ih

theorem AnswersReplace.succeeds {answer : Except ExchangeError CancelReplaceDto}
    (h : e.AnswersReplace answer e') (hunplaced : e.Unplaced) : e'.Succeeds := by
  cases h with
  | success => exact .of_gone rfl
  | halfDone dto result executes =>
      cases executes with
      | replaced => exact .of_gone rfl
      | successorRefused => exact .of_gone rfl
      | cancelRefused => exact hunplaced.succeeds
  | cancelRefused => exact hunplaced.succeeds
  | successorRefused => exact .of_gone rfl
  | orderBudget => exact hunplaced.succeeds
  | refused => exact hunplaced.succeeds
  | unclear => exact ⟨hunplaced.succeeds.successor, nofun⟩
  | lost => exact ⟨hunplaced.succeeds.successor, nofun⟩

theorem AnswersPlace.retired_eq {answer : Except ExchangeError PlaceOrderDto}
    (h : e.AnswersPlace answer e') : e'.retired = e.retired := by
  cases h <;> rfl

theorem Succeeds.one_live (h : e.Succeeds) :
    ¬(e.retired.live = true ∧ e.successor.any (·.live) = true) := by
  rintro ⟨hlive, hsuccessor⟩
  have hgone := h.successor (by
    cases hsome : e.successor with
    | none => simp [hsome] at hsuccessor
    | some => rfl)
  simp [hgone] at hlive

end Exchange

namespace ExchangeOrder

variable {order : ExchangeOrder} {body : OrderBody}

theorem executed_eq_zero (h : executedSomething (some order.executedQty) = false) :
    order.executed = 0 := by
  refine le_antisymm ?_ order.nonneg
  simpa [executedSomething, order.parses, gt, lt] using h

/-- A record of an order that moved nothing and is off the book allows a bare placement. -/
theorem RecordedBy.unsold (h : order.RecordedBy body) (hgone : order.live = false)
    {record : RetiredLeg} (hrecord : asRetiredLeg body = some record)
    (hunmoved : executedSomething record.executedQty = false) :
    ExchangeRun.Unsold (some record) := by
  rw [asRetiredLeg, h.status] at hrecord
  obtain rfl := Option.some.inj hrecord
  dsimp only at hunmoved ⊢
  rw [h.executedQty] at hunmoved
  have hzero := executed_eq_zero hunmoved
  refine ⟨_, rfl, ?_, ?_, ?_⟩
  · rw [ExchangeStatus.isTerminalOrderStatus_text]
    simpa [live] using hgone
  · intro hfilled
    have hpos := order.filled_pos (ExchangeStatus.text_eq_filled hfilled)
    exact absurd hzero hpos.ne'
  · simp [h.executedQty, order.parses, hzero]

end ExchangeOrder

/-! ### What the handler reports and closes -/

section Handler

variable {ctx : ReplaceContext} {decision : ReplaceDecision} {answers : ReplaceAnswers}

/-- The phases that let the next tick send the successor again. -/
def DecisionResult.Unsent (result : DecisionResult) : Prop :=
  result.HasPhase .preCall ∨ result.HasPhase .rejected

theorem recordPlacedOrder_sent (intent : OrderIntent) (params : OrderParams)
    (fault : Option BookkeepingFault) (dto : PlaceOrderDto) :
    ¬(recordPlacedOrder intent params fault dto).result.Unsent := by
  rcases fault with _ | message | message <;>
    simp [recordPlacedOrder, DecisionResult.Unsent, DecisionResult.HasPhase]

/-- An error that leaves open whether the request was executed stays open, or counts as accepted. -/
theorem classifyBinanceError_ambiguous {err : BinanceApiError} (hphase : err.phase = .ambiguous) :
    ¬(classifyBinanceError err).result.Unsent := by
  unfold classifyBinanceError
  simp only [hphase, BinanceCallPhase.ofCall]
  repeat' split
  all_goals simp [DecisionResult.Unsent, DecisionResult.HasPhase]

theorem rePlaceFailed_ambiguous {retiredBy : String} {err : BinanceApiError}
    (hphase : err.phase = .ambiguous) :
    ¬(rePlaceFailed ctx decision retiredBy (.api err)).result.Unsent := by
  have hclassified := classifyBinanceError_ambiguous hphase
  rw [rePlaceFailed]
  split
  · simp [DecisionResult.Unsent, DecisionResult.HasPhase]
  · next hresult =>
      rw [hresult] at hclassified
      exact hclassified

theorem replaceClassified_ambiguous {err : BinanceApiError} (hphase : err.phase = .ambiguous) :
    ¬(replaceClassified ctx decision err).result.Unsent := by
  rw [replaceClassified]
  rw [if_pos hphase]
  dsimp only
  split
  · simp [DecisionResult.Unsent, DecisionResult.HasPhase]
  · exact classifyBinanceError_ambiguous hphase

theorem replaceAnswered_sent {dto : CancelReplaceDto}
    (hrecord : ∀ intent params dto, ¬(ctx.recordPlacedOrder intent params dto).result.Unsent) :
    ¬(replaceAnswered ctx decision dto).result.Unsent := by
  rw [replaceAnswered]
  split
  · simp [DecisionResult.Unsent, DecisionResult.HasPhase]
  · rw [Handled.after_result]
    split
    · simp [DecisionResult.Unsent, DecisionResult.HasPhase]
    · exact hrecord _ _ _

variable {orderId : ℕ}

theorem replaceUnresolved_keeps :
    (replaceUnresolved ctx decision).any (Effect.closesRow orderId) = false := rfl

theorem notifyClassifiedEmergency_keeps (classified : ClassifiedError) :
    (notifyClassifiedEmergency decision classified).any (Effect.closesRow orderId) = false := by
  rw [notifyClassifiedEmergency]
  split <;> rfl

theorem replaceClassified_keeps (err : BinanceApiError) :
    (replaceClassified ctx decision err).effects.any (Effect.closesRow orderId) = false := by
  rw [replaceClassified]
  split
  · exact replaceUnresolved_keeps
  · split
    · simp [notifyClassifiedEmergency_keeps, Effect.closesRow]
    · exact notifyClassifiedEmergency_keeps _

theorem handleResolution_keeps (intent : OrderIntent) (params : OrderParams)
    (resolution : PlacementResolution) :
    (handleResolution intent params resolution).effects.any (Effect.closesRow orderId) = false := by
  rw [handleResolution]
  dsimp only
  split
  · rfl
  · rw [rememberPlacement]
    split <;> rfl

theorem closesRow_open (hopen : ctx.weight < ctx.weightLimit1m) :
    (replaceOrderHandler ctx decision answers).effects.any (Effect.closesRow orderId) =
      (replaceDispatch ctx decision answers).effects.any (Effect.closesRow orderId) := by
  rw [replaceOrderHandler_open hopen, Handled.after_effects, List.any_append, List.any_append]
  cases closesPosition decision <;> rfl

theorem not_closesRow_throttled (hthrottled : ctx.weightLimit1m ≤ ctx.weight) :
    (replaceOrderHandler ctx decision answers).effects.any (Effect.closesRow orderId) = false := by
  rw [replaceOrderHandler, if_pos hthrottled]
  rfl

variable {e e' : Exchange}

/-- Unless the answer was lost, a row is closed only when the answer took the order off the book. -/
theorem gone_of_closesRow (h : e.AnswersReplace answers.replace e')
    (hcloses : (replaceDispatch ctx decision answers).effects.any (Effect.closesRow orderId) =
      true) :
    e'.retired.live = false ∨ ∃ message, answers.replace = .error (.transport message) := by
  rw [replaceDispatch] at hcloses
  generalize answers.replace = answer at h hcloses ⊢
  cases h with
  | success => exact .inl rfl
  | halfDone dto result =>
      dsimp only at hcloses
      rw [replaceAnswered, if_pos result] at hcloses
      simp [replaceUnresolved_keeps] at hcloses
  | cancelRefused err code gone =>
      dsimp only at hcloses
      rw [if_pos code, cancelLegRefused] at hcloses
      by_cases hleg : err.cancelLegCode = some (-2011)
      · exact .inl (gone hleg)
      · rw [if_neg hleg] at hcloses
        simp [replaceUnresolved_keeps] at hcloses
  | successorRefused => exact .inl rfl
  | orderBudget => cases hcloses
  | refused err code =>
      dsimp only at hcloses
      rw [if_neg code.1, if_neg code.2, replaceClassified_keeps] at hcloses
      cases hcloses
  | unclear err code =>
      dsimp only at hcloses
      rw [if_neg code.1, if_neg code.2, replaceClassified_keeps] at hcloses
      cases hcloses
  | lost message => exact .inr ⟨message, rfl⟩

/-- Where a bare placement may follow, the retired order is off the book and the exchange has
nothing of the successor. -/
theorem gone_of_retired {err : BinanceApiError} (h : e.AnswersReplace (.error (.api err)) e')
    (hunplaced : e.Unplaced)
    (hretired : err.code = -2022 ∧ err.cancelLegCode = some (-2011) ∨ err.code = -2021) :
    e'.retired.live = false ∧ e'.Unplaced := by
  cases h with
  | cancelRefused err code gone =>
      rcases hretired with ⟨-, hleg⟩ | hcode
      · exact ⟨gone hleg, hunplaced⟩
      · simp [hcode] at code
  | successorRefused => exact ⟨rfl, hunplaced.successor, hunplaced.pending⟩
  | refused err code =>
      rcases hretired with ⟨hcode, -⟩ | hcode
      · exact absurd hcode code.1
      · exact absurd hcode code.2
  | unclear err code =>
      rcases hretired with ⟨hcode, -⟩ | hcode
      · exact absurd hcode code.1
      · exact absurd hcode code.2

theorem recordedBy_cancelLeg {err : BinanceApiError} (h : e.AnswersReplace (.error (.api err)) e')
    (hcode : err.code = -2021) {body : OrderBody} (hbody : err.cancelLeg = some body) :
    e'.retired.RecordedBy body := by
  cases h with
  | cancelRefused err code => simp [hcode] at code
  | successorRefused err code live record => exact record body hbody
  | refused err code => exact absurd hcode code.2
  | unclear err code => exact absurd hcode code.2

/-- Unless the answer was lost, the handler reports the successor as unsent only when the exchange
has nothing of it. -/
theorem unplaced_of_unsent (h : e.AnswersReplace answers.replace e') (hunplaced : e.Unplaced)
    (hrecord : ∀ intent params dto, ¬(ctx.recordPlacedOrder intent params dto).result.Unsent)
    (hunsent : (replaceDispatch ctx decision answers).result.Unsent) :
    e'.Unplaced ∨ ∃ message, answers.replace = .error (.transport message) := by
  rw [replaceDispatch] at hunsent
  generalize answers.replace = answer at h hunsent ⊢
  cases h with
  | success => exact absurd hunsent (replaceAnswered_sent hrecord)
  | halfDone => exact absurd hunsent (replaceAnswered_sent hrecord)
  | cancelRefused => exact .inl hunplaced
  | successorRefused => exact .inl ⟨hunplaced.successor, hunplaced.pending⟩
  | orderBudget => exact .inl hunplaced
  | refused => exact .inl hunplaced
  | unclear err code phase =>
      dsimp only at hunsent
      rw [if_neg code.1, if_neg code.2] at hunsent
      exact absurd hunsent (replaceClassified_ambiguous phase)
  | lost message => exact .inr ⟨message, rfl⟩

theorem unplaced_of_unsent_bare {retiredBy : String}
    {answer : Except ExchangeError PlaceOrderDto} (h : e.AnswersPlace answer e')
    (hunplaced : e.Unplaced)
    (hrecord : ∀ intent params dto, ¬(ctx.recordPlacedOrder intent params dto).result.Unsent)
    (hunsent : (placedBare ctx decision retiredBy answer).result.Unsent) :
    e'.Unplaced ∨ ∃ message, answer = .error (.transport message) := by
  cases h with
  | placed placed dto => exact absurd hunsent (hrecord _ _ _)
  | orderBudget => exact .inl hunplaced
  | refused => exact .inl hunplaced
  | unclear err phase =>
      exact absurd hunsent (@rePlaceFailed_ambiguous ctx decision retiredBy err phase)
  | lost message => exact .inr ⟨message, rfl⟩

end Handler

/-! ### Safety of a run -/

namespace ExchangeRun

variable {s : ReplaceSchedule} (run : ExchangeRun s)

theorem asked_unplaced : run.asked.Unplaced := run.start_asked.unplaced ⟨run.unplaced, run.idle⟩

theorem answers_replace (hopen : s.weight < s.weightLimit1m) :
    run.asked.AnswersReplace run.answers.replace run.answered := by
  have hreplace := run.replace
  rwa [if_neg (not_le.mpr hopen)] at hreplace

/-- An order off the book when the replacement is answered is off the book from then on. -/
theorem gone_from_answered (hgone : run.answered.retired.live = false) :
    run.probed.retired.live = false ∧ run.beforePlace.retired.live = false := by
  have hprobed := run.answered_probed.retired_eq hgone
  have hgoneProbed : run.probed.retired.live = false := by
    rw [hprobed]
    exact hgone
  refine ⟨hgoneProbed, ?_⟩
  rw [run.probed_place.retired_eq hgoneProbed]
  exact hgoneProbed

theorem probed_recorded {leg : RetiredLeg} (h : probedLeg run.answers = some leg) :
    run.probed.retired.live = false ∧
      ∃ body, run.probed.retired.RecordedBy body ∧ asRetiredLeg body = some leg := by
  have hprobe := run.probe
  rw [probedLeg] at h
  split at h
  · next body hbody =>
      obtain ⟨hleg, hterminal⟩ := Option.filter_eq_some_iff.mp h
      rw [hbody] at hprobe
      rcases hprobe with hnone | hrecorded
      · simp [asRetiredLeg, hnone] at hleg
      · refine ⟨?_, body, hrecorded, hleg⟩
        rw [asRetiredLeg, hrecorded.status] at hleg
        obtain rfl := Option.some.inj hleg
        rw [ExchangeStatus.isTerminalOrderStatus_text] at hterminal
        simpa [ExchangeOrder.live] using hterminal
  · cases h

/-- A bare placement goes by the record of an order that left the book and sold nothing. -/
theorem bare_unsold {leg : Option RetiredLeg}
    (h : barePlacement (s.ctx run.admittedAt) run.answers = some leg) :
    run.answered.retired.live = false ∧ run.answered.Unplaced ∧
      (Unsold leg ∨ run.CancelledUnseen) := by
  obtain ⟨hopen, hunmoved, err, hreplace, hcases⟩ := barePlacement_cases h
  have hanswered := run.answers_replace hopen
  rw [hreplace] at hanswered
  rcases hcases with ⟨hcode, hleg, record, rfl, hprobed⟩ | ⟨hcode, rfl⟩
  · obtain ⟨hretired, hunplaced⟩ :=
      gone_of_retired hanswered run.asked_unplaced (.inl ⟨hcode, hleg⟩)
    refine ⟨hretired, hunplaced, .inl ?_⟩
    obtain ⟨hgone, body, hrecorded, hrecord⟩ := run.probed_recorded hprobed
    exact hrecorded.unsold hgone hrecord (by simpa using hunmoved)
  · obtain ⟨hgone, hunplaced⟩ := gone_of_retired hanswered run.asked_unplaced (.inr hcode)
    refine ⟨hgone, hunplaced, ?_⟩
    cases hbody : err.cancelLeg with
    | none => exact .inr ⟨err, hreplace, hcode, hbody⟩
    | some body =>
        have hrecorded := recordedBy_cancelLeg hanswered hcode hbody
        obtain ⟨record, hrecord⟩ : ∃ record, asRetiredLeg body = some record := by
          simp [asRetiredLeg, hrecorded.status]
        rw [hbody, Option.bind_some, hrecord] at hunmoved
        rw [Option.bind_some, hrecord]
        exact .inl (hrecorded.unsold hgone hrecord (by simpa using hunmoved))

theorem final_succeeds : run.final.Succeeds := by
  refine run.place_final.succeeds ?_
  have hanswered : run.answered.Succeeds := by
    have hreplace := run.replace
    split at hreplace
    · rw [hreplace]
      exact run.asked_unplaced.succeeds
    · exact hreplace.succeeds run.asked_unplaced
  have hbefore := run.probed_place.succeeds (run.answered_probed.succeeds hanswered)
  have hplace := run.place
  split at hplace
  · next hbare =>
      obtain ⟨leg, hleg⟩ := Option.isSome_iff_exists.mp hbare
      refine .of_gone ?_
      rw [hplace.retired_eq]
      exact (run.gone_from_answered (run.bare_unsold hleg).1).2
  · rw [hplace]
    exact hbefore

theorem closed_gone
    (h : run.handled.effects.any (Effect.closesRow s.decision.cancelOrderId) = true) :
    run.probed.retired.live = false := by
  rcases lt_or_ge s.weight s.weightLimit1m with hopen | hthrottled
  · have hcloses := h
    rw [handled, closesRow_open (by exact hopen)] at hcloses
    rcases gone_of_closesRow (run.answers_replace hopen) hcloses with hgone | ⟨message, hlost⟩
    · exact (run.gone_from_answered hgone).1
    · rw [replaceDispatch, hlost] at hcloses
      dsimp only at hcloses
      rw [replaceLost] at hcloses
      cases hprobed : probedLeg run.answers with
      | none =>
          rw [hprobed] at hcloses
          simp [replaceUnresolved_keeps, ReplaceSchedule.ctx, handleResolution_keeps,
            Effect.closesRow] at hcloses
      | some leg => exact (run.probed_recorded hprobed).1
  · rw [handled, not_closesRow_throttled (by exact hthrottled)] at h
    cases h

/-- A lost placement that is reported as unsent is on the exchange only where the report was
premature. -/
theorem unplaced_of_lost (hconclusive : s.timing.RejectsConclusively)
    (hlost : s.responseLost = true) {err : ExchangeError}
    (h : ((s.lostPlacement err).resolution run.admittedAt).result.Unsent) :
    run.final.successor = none := by
  have hrejected := h.resolve_left (LostPlacement.not_preCall _ _)
  have hnever : run.admittedAt = none :=
    @LostPlacement.never_admitted_of_rejected (s.lostPlacement err) run.admittedAt hconclusive
      run.admissible hrejected
  cases hsuccessor : run.final.successor with
  | none => rfl
  | some placed =>
      have hadmitted := run.admitted hlost (by simp [hsuccessor])
      simp [hnever] at hadmitted

theorem beforePlace_unplaced (h : run.answered.Unplaced) : run.beforePlace.Unplaced :=
  run.probed_place.unplaced (run.answered_probed.unplaced h)

theorem unplaced_of_no_bare (h : run.answered.Unplaced)
    (hbare : barePlacement (s.ctx run.admittedAt) run.answers = none) :
    run.final.successor = none := by
  have hplace := run.place
  rw [hbare, if_neg (by simp)] at hplace
  have hafter := run.beforePlace_unplaced h
  rw [← hplace] at hafter
  exact (run.place_final.unplaced hafter).successor

theorem unplaced_final (hconclusive : s.responseLost = true → s.timing.RejectsConclusively)
    (h : run.handled.result.Unsent) : run.final.successor = none := by
  have hrecord (intent : OrderIntent) (params : OrderParams) (dto : PlaceOrderDto) :
      ¬((s.ctx run.admittedAt).recordPlacedOrder intent params dto).result.Unsent :=
    recordPlacedOrder_sent intent params s.fault dto
  rcases lt_or_ge s.weight s.weightLimit1m with hopen | hthrottled
  · cases hbare : barePlacement (s.ctx run.admittedAt) run.answers with
    | none =>
        have hunsent := h
        rw [handled, replaceOrderHandler_open (by exact hopen)] at hunsent
        rcases unplaced_of_unsent (run.answers_replace hopen) run.asked_unplaced hrecord hunsent
          with hunplaced | ⟨message, hlost⟩
        · exact run.unplaced_of_no_bare hunplaced hbare
        · have hresponse := run.loses.mpr (.inl ⟨hopen, message, hlost⟩)
          rw [Handled.after_result, replaceDispatch, hlost] at hunsent
          exact run.unplaced_of_lost (hconclusive hresponse) hresponse hunsent
    | some leg =>
        have hplace := run.place
        rw [hbare, if_pos (by rfl)] at hplace
        have hbefore := run.beforePlace_unplaced (run.bare_unsold hbare).2.1
        obtain ⟨retiredBy, hresult⟩ := @result_of_barePlacement _ s.decision _ _ hbare
        have hunsent := h
        rw [handled, hresult] at hunsent
        rcases unplaced_of_unsent_bare hplace hbefore hrecord hunsent with
          hafter | ⟨message, hlost⟩
        · exact (run.place_final.unplaced hafter).successor
        · have hresponse := run.loses.mpr (.inr ⟨by simp [hbare], message, hlost⟩)
          rw [hlost] at hunsent
          exact run.unplaced_of_lost (hconclusive hresponse) hresponse hunsent
  · have hreplace := run.replace
    rw [if_pos hthrottled] at hreplace
    refine run.unplaced_of_no_bare ?_ (by rw [barePlacement, if_pos (by exact hthrottled)])
    rw [hreplace]
    exact run.asked_unplaced

theorem safe_of_conclusive (hconclusive : s.responseLost = true → s.timing.RejectsConclusively) :
    run.Safe where
  unsold _ h := (run.bare_unsold h).2.2
  one_live := run.final_succeeds.one_live
  closed := run.closed_gone
  unplaced := run.unplaced_final hconclusive

/-! ### A lost response -/

theorem parse_zero_text : parse "0" = some (num 0) := by
  decide +kernel

/-- A resting order of which nothing has executed. -/
def untouched : ExchangeOrder where
  status := .new
  executedQty := "0"
  executed := 0
  parses := parse_zero_text
  nonneg := Rat.le_refl
  filled_pos := nofun

/-- The replacement is lost and executed at the last instant; the probe of the retired order
fails. -/
def executedLate (s : ReplaceSchedule) (hlost : s.responseLost = true) (admittedAt : ℤ)
    (hadmissible : s.timing.Admissible (some admittedAt)) : ExchangeRun s where
  answers := ⟨.error (.transport "socket hang up"), .error (.transport "socket hang up"),
    .error (.transport "socket hang up")⟩
  admittedAt := some admittedAt
  start := ⟨untouched, none, none⟩
  asked := ⟨untouched, none, none⟩
  answered := ⟨untouched, none, some .cancelReplace⟩
  probed := ⟨untouched, none, some .cancelReplace⟩
  beforePlace := ⟨untouched, none, some .cancelReplace⟩
  afterPlace := ⟨untouched, none, some .cancelReplace⟩
  final := ⟨untouched.cancel, some untouched, none⟩
  unplaced := rfl
  idle := rfl
  start_asked := .refl
  replace := by
    rw [if_neg (not_le.mpr (s.lost_sent hlost))]
    exact .lost _
  answered_probed := .refl
  probe := trivial
  probed_place := .refl
  place := by simp [barePlacement]
  place_final := .single (.execute rfl (.replaced untouched rfl))
  loses := ⟨fun _ => .inl ⟨s.lost_sent hlost, _, rfl⟩, fun _ => hlost⟩
  admissible := hadmissible
  admitted _ _ := rfl

theorem executedLate_unsafe {s : ReplaceSchedule} {hlost : s.responseLost = true} {admittedAt : ℤ}
    {hadmissible : s.timing.Admissible (some admittedAt)}
    (h : ((s.lostPlacement (.transport "socket hang up")).resolution
      (some admittedAt)).result.HasPhase .rejected) :
    ¬(executedLate s hlost admittedAt hadmissible).Safe := by
  intro hsafe
  have hnone := hsafe.unplaced (.inr (by
    rw [handled, replaceOrderHandler_open (by exact s.lost_sent hlost)]
    exact h))
  cases hnone

end ExchangeRun

/-- A replacement is safe whatever the exchange does, exactly where a lost response is resolved on
conclusive evidence. -/
theorem replaceOrderHandler_safe_iff (s : ReplaceSchedule) (hwaits : s.timing.Waits) :
    (∀ run : ExchangeRun s, run.Safe) ↔
      (s.responseLost = true → s.timing.RejectsConclusively) := by
  constructor
  · intro hsafe hlost
    by_contra hpremature
    exact ExchangeRun.executedLate_unsafe
      (@LostPlacement.rejected_of_not_rejectsConclusively (s.lostPlacement _)
        ⟨hwaits.answer, hwaits.window⟩ hpremature)
      (hsafe (.executedLate s hlost _ s.timing.admissible_lastAdmission))
  · intro hconclusive run
    exact run.safe_of_conclusive hconclusive

/-- A protective stop that a market exit replaces. -/
def stopToExit : ReplaceDecision where
  cancelOrderId := 41
  reason := "exit"
  intent := ⟨"BTCUSDT", .sell, "exit", "tt-exit", [], none, false⟩
  params := ⟨.market, .raw "0.5", none, none, none, none⟩

/-- The response to the replacement is lost. -/
def lostExit (timing : LostPlacement) : ReplaceSchedule where
  nowMs := 10000
  slot := none
  weight := 0
  weightLimit1m := 1000
  decision := stopToExit
  fault := none
  responseLost := true
  timing := timing
  lost_sent _ := by decide

theorem lostExit_safe :
    LostPlacement.promptlyProbed.Waits ∧
      ∀ run : ExchangeRun (lostExit LostPlacement.promptlyProbed), run.Safe := by
  have hwaits : LostPlacement.promptlyProbed.Waits := ⟨by decide, by decide⟩
  exact ⟨hwaits, (replaceOrderHandler_safe_iff (lostExit LostPlacement.promptlyProbed) hwaits).mpr
    fun _ => .inr (LostPlacement.conclusive_of_stamped hwaits rfl (by decide))⟩

/-- The exit was executed a second after it was signed, and the answer to the probe came late: it
is on the exchange and reported as rejected. -/
theorem lost_exit_reported_rejected :
    ∃ run : ExchangeRun (lostExit LostPlacement.lateAnswer),
      run.handled.result = .failed true .rejected false
        "binance call failed and the order provably never landed: socket hang up" ∧
      run.final.successor.isSome = true ∧ ¬run.Safe := by
  refine ⟨.executedLate _ rfl 11000 LostPlacement.lateAnswer_admissible, by decide +kernel, rfl,
    ExchangeRun.executedLate_unsafe ?_⟩
  have hresult : (((lostExit LostPlacement.lateAnswer).lostPlacement
      (.transport "socket hang up")).resolution (some 11000)).result = .failed true .rejected false
        "binance call failed and the order provably never landed: socket hang up" := by
    decide +kernel
  rw [hresult]
  rfl

end TradingBot.Worker
