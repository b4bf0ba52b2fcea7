import TradingBot.Lib.Json
import TradingBot.Worker.OrderHandlers
import TradingBot.Worker.OrderRefusal

/-!
# Runs of the refusal circuit

What the tick handler does with the refusal state around a placement: it reads
the stored state, holds the placement back or lets it through, and moves the
state on by what became of it. The state is stored as JSON for a quarter of an
hour. A stored text is the value it parses to, and one that does not parse is
like one that is not there.
-/

namespace TradingBot.Worker

/-! ### The stored state -/

def orderRefusalThreshold : ℕ := 3

def orderRefusalProbeMs : ℤ := 60000

def orderRefusalTtlMs : ℤ := 900000

def timeInForceText : TimeInForce → String
  | .gtc => "GTC"
  | .ioc => "IOC"
  | .fok => "FOK"

def RefusalCount.count : RefusalCount → ℕ
  | once => 1
  | twice => 2
  | tripped _ => 3

def textOrNull : Option String → Json
  | some text => .str text
  | none => .null

def integerOrNull : Option ℤ → Json
  | some n => .num n
  | none => .null

def OrderRequestIdentity.toJson (request : OrderRequestIdentity) : Json :=
  .obj
    [("clientOrderId", .str request.clientOrderId),
      ("cancelOrderId", integerOrNull request.cancelOrderId),
      ("symbol", .str request.symbol),
      ("side", .str request.side.text),
      ("type", .str request.type.text),
      ("quantity", .str request.quantity),
      ("price", textOrNull request.price),
      ("stopPrice", textOrNull request.stopPrice),
      ("trailingDelta", integerOrNull request.trailingDelta),
      ("timeInForce", textOrNull (request.timeInForce.map timeInForceText))]

def OrderRefusalState.toJson (state : OrderRefusalState) : Json :=
  .obj
    ([("v", .num 1), ("request", state.request.toJson),
        ("rejection", .obj [("code", .num state.rejection.code),
          ("msg", .str state.rejection.msg)]),
        ("count", .num state.count.count)] ++
      match state.count with
      | .tripped nextProbeAtMs => [("nextProbeAtMs", .num nextProbeAtMs)]
      | _ => [])

/-- The fields of an object; an array is an object without any of the fields asked for. -/
def recordOf : Json → Option (List (String × Json))
  | .obj fields => some fields
  | .arr _ => some []
  | _ => none

def fieldOf (key : String) (fields : List (String × Json)) : Json :=
  (InsertionMap.get key fields).getD .undefined

def asText : Json → Option String
  | .str text => some text
  | _ => none

def asInteger : Json → Option ℤ
  | .num q => if q.den = 1 then some q.num else none
  | _ => none

/-- Null is no value; anything else has to read as one. -/
def nullable {α : Type} (read : Json → Option α) : Json → Option (Option α)
  | .null => some none
  | value => (read value).map some

def orNull : Json → Json
  | .undefined => .null
  | value => value

def asSide (value : Json) : Option OrderSide :=
  (asText value).bind fun text => [OrderSide.buy, .sell].find? (·.text = text)

def asRequestType (value : Json) : Option OrderType :=
  (asText value).bind fun text =>
    [OrderType.limit, .market, .stopLoss, .stopLossLimit].find? (·.text = text)

def asTimeInForce (value : Json) : Option TimeInForce :=
  (asText value).bind fun text => [TimeInForce.gtc, .ioc, .fok].find? (timeInForceText · = text)

def parseRequest (value : Json) : Option OrderRequestIdentity := do
  let r ← recordOf value
  let clientOrderId ← asText (fieldOf "clientOrderId" r)
  let cancelOrderId ← nullable asInteger (orNull (fieldOf "cancelOrderId" r))
  let symbol ← asText (fieldOf "symbol" r)
  let side ← asSide (fieldOf "side" r)
  let type ← asRequestType (fieldOf "type" r)
  let quantity ← asText (fieldOf "quantity" r)
  let price ← nullable asText (fieldOf "price" r)
  let stopPrice ← nullable asText (fieldOf "stopPrice" r)
  let trailingDelta ← nullable asInteger (orNull (fieldOf "trailingDelta" r))
  let timeInForce ← nullable asTimeInForce (fieldOf "timeInForce" r)
  return { clientOrderId, cancelOrderId, symbol, side, type, quantity, price, stopPrice,
           trailingDelta, timeInForce }

/-- The count a stored state has; a tripped circuit has to say when it is probed. -/
def parseCount (r : List (String × Json)) : Option RefusalCount :=
  match asInteger (fieldOf "count" r) with
  | some 1 => some .once
  | some 2 => some .twice
  | some 3 =>
      match fieldOf "nextProbeAtMs" r with
      | .num nextProbeAtMs => some (.tripped nextProbeAtMs)
      | _ => none
  | _ => none

def parseOrderRefusalState (raw : Option Json) : Option OrderRefusalState := do
  let r ← recordOf (← raw)
  let request ← parseRequest (fieldOf "request" r)
  let rejection ← recordOf (fieldOf "rejection" r)
  let code ← asInteger (fieldOf "code" rejection)
  let msg ← asText (fieldOf "msg" rejection)
  if asInteger (fieldOf "v" r) ≠ some 1 then none
  else
    let count ← parseCount r
    return { request, rejection := { code, msg }, count }

section Stored

theorem asInteger_intCast (n : ℤ) : asInteger (.num n) = some n := by simp [asInteger]

theorem nullable_integer (n : Option ℤ) :
    nullable asInteger (orNull (integerOrNull n)) = some n := by
  cases n with
  | none => rfl
  | some n => simp [integerOrNull, orNull, nullable, asInteger_intCast]

theorem nullable_text (text : Option String) : nullable asText (textOrNull text) = some text := by
  cases text <;> rfl

theorem nullable_timeInForce (timeInForce : Option TimeInForce) :
    nullable asTimeInForce (textOrNull (timeInForce.map timeInForceText)) = some timeInForce := by
  cases timeInForce with
  | none => rfl
  | some value => cases value <;> rfl

theorem asSide_text (side : OrderSide) : asSide (.str side.text) = some side := by
  cases side <;> rfl

theorem asRequestType_text (type : OrderType) : asRequestType (.str type.text) = some type := by
  cases type <;> rfl

/-- A request is read back as it was stored. -/
theorem parseRequest_toJson (request : OrderRequestIdentity) :
    parseRequest request.toJson = some request := by
  simp [parseRequest, OrderRequestIdentity.toJson, recordOf, fieldOf, InsertionMap.get, asText,
    nullable_integer, nullable_text, nullable_timeInForce, asSide_text, asRequestType_text]

/-- A state is read back as it was stored. -/
theorem parseOrderRefusalState_toJson (state : OrderRefusalState) :
    parseOrderRefusalState (some state.toJson) = some state := by
  obtain ⟨request, rejection, count⟩ := state
  have hone : asInteger (.num 1) = some 1 := asInteger_intCast 1
  have htwo : asInteger (.num 2) = some 2 := asInteger_intCast 2
  have hthree : asInteger (.num 3) = some 3 := asInteger_intCast 3
  cases count <;>
    simp [parseOrderRefusalState, OrderRefusalState.toJson, recordOf, fieldOf, InsertionMap.get,
      asText, parseRequest_toJson, asInteger_intCast, parseCount, RefusalCount.count, hone, htwo,
      hthree]

end Stored

/-! ### The transition -/

/-- A decision that places an order. -/
def PlacementDecision := { decision : Decision // isPlacement decision = true }

theorem isSome_buildOrderRequestIdentity {decision : Decision} (h : isPlacement decision = true) :
    (buildOrderRequestIdentity decision).isSome = true := by
  cases decision with
  | placeOrder | replaceOrder => rfl
  | _ => cases h

def PlacementDecision.request (decision : PlacementDecision) : OrderRequestIdentity :=
  (buildOrderRequestIdentity decision.1).get (isSome_buildOrderRequestIdentity decision.2)

/-- What an attempted placement came to, with the exchange's error where it is one. -/
inductive PlacementResult where
  | ok
  | failed (retryable : Bool) (phase : DecisionPhase) (cause : Option BinanceApiError)

inductive OrderPlacementOutcome where
  | circuitDeferred (decision : PlacementDecision)
  | notAttempted (decision : PlacementDecision)
  | result (decision : PlacementDecision) (result : PlacementResult)

def OrderPlacementOutcome.decision : OrderPlacementOutcome → PlacementDecision
  | circuitDeferred decision | notAttempted decision | result decision _ => decision

inductive RefusalEvent where
  | tripped
  | probeRefused

structure OrderRefusalTransition where
  state : Option OrderRefusalState
  event : Option RefusalEvent

/-- A refusal by the exchange that the same request would meet again. -/
def structuralRejection : PlacementResult → Option OrderRejectionIdentity
  | .failed false .rejected (some cause) => some ⟨cause.code, cause.msg⟩
  | _ => none

/-- The next state after the same refusal of the same request. -/
def OrderRefusalState.again (previous : OrderRefusalState) (nowMs : ℤ) : OrderRefusalTransition :=
  match previous.count with
  | .once => ⟨some { previous with count := .twice }, none⟩
  | .twice =>
      ⟨some { previous with count := .tripped (nowMs + orderRefusalProbeMs) }, some .tripped⟩
  | .tripped _ =>
      ⟨some { previous with count := .tripped (nowMs + orderRefusalProbeMs) }, some .probeRefused⟩

/-- A probe that came due and was not sent is put off. -/
def OrderRefusalState.postpone (previous : OrderRefusalState) (nowMs : ℤ) : OrderRefusalState :=
  match previous.count with
  | .tripped nextProbeAtMs =>
      if nowMs < nextProbeAtMs then previous
      else { previous with count := .tripped (nowMs + orderRefusalProbeMs) }
  | _ => previous

def transitionOrderRefusal (previous : Option OrderRefusalState)
    (outcome : Option OrderPlacementOutcome) (nowMs : ℤ) : OrderRefusalTransition :=
  match outcome with
  | none => ⟨none, none⟩
  | some outcome =>
      let request := outcome.decision.request
      let same := previous.filter fun previous => previous.request = request
      match outcome with
      | .circuitDeferred _ => ⟨same, none⟩
      | .notAttempted _ => ⟨same.map (·.postpone nowMs), none⟩
      | .result _ result =>
          match structuralRejection result with
          | none => ⟨none, none⟩
          | some rejection =>
              match same.filter fun previous => previous.rejection = rejection with
              | none => ⟨some { request, rejection, count := .once }, none⟩
              | some previous => previous.again nowMs

/-! ### Ticks -/

/-- One tick: when it reads the stored state, when it judges its placement, when the order is sent
and when the state is moved on; and what the placement comes to, unless it is never attempted. -/
structure RefusalTick where
  readMs : ℤ
  gateMs : ℤ
  sentMs : ℤ
  settledMs : ℤ
  read_le_gate : readMs ≤ gateMs
  gate_le_sent : gateMs ≤ sentMs
  sent_le_settled : sentMs ≤ settledMs
  placement : Option PlacementDecision
  answer : Option PlacementResult

structure StoredRefusal where
  body : Json
  expiresAtMs : ℤ

/-- A placement that was attempted: what it asked, how it was refused and when it was sent. -/
structure Attempt where
  request : OrderRequestIdentity
  rejection : Option OrderRejectionIdentity
  sentMs : ℤ

/-- What is stored, and every attempt there was, the last first; nothing reads the attempts. -/
structure RefusalWorld where
  stored : Option StoredRefusal
  attempts : List Attempt

namespace RefusalWorld

def start : RefusalWorld := ⟨none, []⟩

variable (world : RefusalWorld) (tick : RefusalTick)

/-- The stored state as the tick finds it. -/
def raw : Option StoredRefusal := world.stored.filter fun stored => tick.readMs < stored.expiresAtMs

def refusalState : Option OrderRefusalState :=
  parseOrderRefusalState ((world.raw tick).map (·.body))

/-- Whether the tick holds its placement back. -/
def defers : Bool :=
  tick.placement.any fun decision =>
    (orderRefusalGate (world.refusalState tick) decision.1 tick.gateMs).defer

def outcome : Option OrderPlacementOutcome :=
  tick.placement.map fun decision =>
    if world.defers tick then .circuitDeferred decision
    else
      match tick.answer with
      | none => .notAttempted decision
      | some result => .result decision result

/-- The attempt the tick makes, if it makes one. -/
def attempt : Option Attempt :=
  match world.outcome tick with
  | some (.result decision result) =>
      some ⟨decision.request, structuralRejection result, tick.sentMs⟩
  | _ => none

/-- A state that is kept is not written again. -/
def write : Option StoredRefusal :=
  let state := world.refusalState tick
  match (transitionOrderRefusal state (world.outcome tick) tick.settledMs).state with
  | none => none
  | some next =>
      if state = some next then world.raw tick
      else some ⟨next.toJson, tick.settledMs + orderRefusalTtlMs⟩

def step : RefusalWorld where
  stored := world.write tick
  attempts := (world.attempt tick).toList ++ world.attempts

/-- The stored state is that of a tripped circuit. -/
def isTripped : Bool :=
  (parseOrderRefusalState (world.stored.map (·.body))).any fun state =>
    state.count.count = orderRefusalThreshold

/-- Ticks that place a request one after another without an attempt. -/
def Waits (request : OrderRequestIdentity) : RefusalWorld → List RefusalTick → Prop
  | _, [] => True
  | world, tick :: rest =>
      (∃ decision, tick.placement = some decision ∧ decision.request = request) ∧
        world.attempt tick = none ∧ Waits request (world.step tick) rest

/-- The world after some ticks. -/
def after (ticks : List RefusalTick) : RefusalWorld := ticks.foldl step start

end RefusalWorld

/-- The clock does not go back from one tick to a later one. -/
def ChronologicalTicks (ticks : List RefusalTick) : Prop :=
  ticks.Pairwise fun earlier later => earlier.settledMs ≤ later.readMs

/-! ### What one transition can do -/

section Transition

variable {previous next : OrderRefusalState} {state : Option OrderRefusalState}
  {outcome : Option OrderPlacementOutcome} {decision : PlacementDecision} {nowMs : ℤ}

theorem OrderRefusalState.again_state (previous : OrderRefusalState) (nowMs : ℤ) :
    ∃ count, (previous.again nowMs).state = some { previous with count } ∧
      count.count ≤ previous.count.count + 1 ∧
      ∀ nextProbeAtMs, count = .tripped nextProbeAtMs →
        nextProbeAtMs = nowMs + orderRefusalProbeMs := by
  unfold OrderRefusalState.again
  split
  · next hcount => exact ⟨.twice, rfl, by simp [RefusalCount.count, hcount], by simp⟩
  · next hcount =>
      exact ⟨.tripped (nowMs + orderRefusalProbeMs), rfl, by simp [RefusalCount.count, hcount],
        fun _ h => (RefusalCount.tripped.inj h).symm⟩
  · next hcount =>
      exact ⟨.tripped (nowMs + orderRefusalProbeMs), rfl, by simp [RefusalCount.count, hcount],
        fun _ h => (RefusalCount.tripped.inj h).symm⟩

theorem OrderRefusalState.postpone_same (previous : OrderRefusalState) (nowMs : ℤ) :
    (previous.postpone nowMs).request = previous.request ∧
      (previous.postpone nowMs).rejection = previous.rejection ∧
      (previous.postpone nowMs).count.count = previous.count.count := by
  unfold OrderRefusalState.postpone
  split
  · next hcount =>
      split
      · exact ⟨rfl, rfl, rfl⟩
      · exact ⟨rfl, rfl, by simp [RefusalCount.count, hcount]⟩
  · exact ⟨rfl, rfl, rfl⟩

theorem transition_unattempted (houtcome : outcome = some (.circuitDeferred decision) ∨
      outcome = some (.notAttempted decision))
    (h : (transitionOrderRefusal state outcome nowMs).state = some next) :
    ∃ previous, state = some previous ∧ next.request = previous.request ∧
      next.rejection = previous.rejection ∧ next.count.count = previous.count.count := by
  rcases houtcome with rfl | rfl
  · obtain ⟨hstate, -⟩ := Option.filter_eq_some_iff.mp h
    exact ⟨next, hstate, rfl, rfl, rfl⟩
  · obtain ⟨previous, hsame, rfl⟩ := Option.map_eq_some_iff.mp h
    obtain ⟨hstate, -⟩ := Option.filter_eq_some_iff.mp hsame
    exact ⟨previous, hstate, previous.postpone_same nowMs⟩

theorem transition_result {result : PlacementResult}
    (h : (transitionOrderRefusal state (some (.result decision result)) nowMs).state = some next) :
    structuralRejection result = some next.rejection ∧ next.request = decision.request ∧
      (next.count = .once ∨ ∃ previous, state = some previous ∧
        previous.request = next.request ∧ previous.rejection = next.rejection ∧
        next.count.count ≤ previous.count.count + 1) ∧
      ∀ nextProbeAtMs, next.count = .tripped nextProbeAtMs →
        nextProbeAtMs = nowMs + orderRefusalProbeMs := by
  simp only [transitionOrderRefusal, OrderPlacementOutcome.decision] at h
  split at h
  · cases h
  · next rejection hrejection =>
      split at h
      · cases h
        exact ⟨hrejection, rfl, .inl rfl, by simp⟩
      · next previous hprevious =>
          obtain ⟨hsame, hsameRejection⟩ := Option.filter_eq_some_iff.mp hprevious
          obtain ⟨hstate, hrequest⟩ := Option.filter_eq_some_iff.mp hsame
          obtain ⟨count, hnext, hcount, hprobe⟩ := previous.again_state nowMs
          rw [hnext] at h
          cases h
          exact ⟨by rw [hrejection, ← of_decide_eq_true hsameRejection],
            of_decide_eq_true hrequest, .inr ⟨previous, hstate, rfl, rfl, hcount⟩, hprobe⟩

end Transition

/-! ### Refusals are explained by attempts -/

section Explained

variable {world : RefusalWorld} {tick : RefusalTick} {state : OrderRefusalState}
  {attempts : List Attempt}

/-- What an attempt asked and how it was refused. -/
def Attempt.refusal (attempt : Attempt) : OrderRequestIdentity × Option OrderRejectionIdentity :=
  (attempt.request, attempt.rejection)

/-- The last attempts are as many refusals of the request as the state counts. -/
def Explains (attempts : List Attempt) (state : OrderRefusalState) : Prop :=
  List.replicate state.count.count (state.request, some state.rejection) <+:
    attempts.map Attempt.refusal

def RefusalWorld.Explained (world : RefusalWorld) : Prop :=
  ∀ stored, world.stored = some stored →
    ∃ state : OrderRefusalState, stored.body = state.toJson ∧ Explains world.attempts state

theorem RefusalWorld.raw_eq_some {stored : StoredRefusal} (h : world.raw tick = some stored) :
    world.stored = some stored ∧ tick.readMs < stored.expiresAtMs := by
  obtain ⟨hstored, hlive⟩ := Option.filter_eq_some_iff.mp h
  exact ⟨hstored, of_decide_eq_true hlive⟩

theorem RefusalWorld.Explained.refusalState (h : world.Explained)
    (hstate : world.refusalState tick = some state) : Explains world.attempts state := by
  rw [RefusalWorld.refusalState] at hstate
  cases hraw : world.raw tick with
  | none =>
      rw [hraw] at hstate
      cases hstate
  | some stored =>
      obtain ⟨found, hbody, hexplains⟩ := h stored (RefusalWorld.raw_eq_some hraw).1
      rw [hraw, Option.map_some, hbody, parseOrderRefusalState_toJson] at hstate
      exact Option.some.inj hstate ▸ hexplains

theorem RefusalWorld.attempt_of_result {decision : PlacementDecision} {result : PlacementResult}
    (h : world.outcome tick = some (.result decision result)) :
    world.attempt tick = some ⟨decision.request, structuralRejection result, tick.sentMs⟩ := by
  rw [RefusalWorld.attempt, h]

theorem RefusalWorld.attempt_of_unattempted {decision : PlacementDecision}
    (h : world.outcome tick = some (.circuitDeferred decision) ∨
      world.outcome tick = some (.notAttempted decision)) : world.attempt tick = none := by
  rcases h with h | h <;> rw [RefusalWorld.attempt, h]

/-- The state a tick moves on to is explained with the tick's own attempt. -/
theorem RefusalWorld.Explained.transition (h : world.Explained)
    (hnext : (transitionOrderRefusal (world.refusalState tick) (world.outcome tick)
      tick.settledMs).state = some state) :
    Explains (world.step tick).attempts state := by
  have hkept : ∀ decision, world.outcome tick = some (.circuitDeferred decision) ∨
      world.outcome tick = some (.notAttempted decision) →
      Explains (world.step tick).attempts state := by
    intro decision houtcome
    obtain ⟨previous, hprevious, hrequest, hrejection, hcount⟩ :=
      transition_unattempted houtcome hnext
    have hexplains := h.refusalState hprevious
    rw [RefusalWorld.step, RefusalWorld.attempt_of_unattempted houtcome]
    rwa [Explains, hrequest, hrejection, hcount]
  cases houtcome : world.outcome tick with
  | none =>
      rw [houtcome] at hnext
      cases hnext
  | some outcome =>
      cases outcome with
      | circuitDeferred decision => exact hkept decision (.inl houtcome)
      | notAttempted decision => exact hkept decision (.inr houtcome)
      | result decision result =>
          rw [houtcome] at hnext
          obtain ⟨hrejection, hrequest, hcount, -⟩ := transition_result hnext
          have hattempts : (world.step tick).attempts.map Attempt.refusal =
              (state.request, some state.rejection) :: world.attempts.map Attempt.refusal := by
            rw [RefusalWorld.step, RefusalWorld.attempt_of_result houtcome, hrejection, hrequest]
            rfl
          rw [Explains, hattempts]
          rcases hcount with hcount | ⟨previous, hprevious, hrequest', hrejection', hcount⟩
          · rw [hcount]
            exact List.cons_prefix_cons.mpr ⟨rfl, List.nil_prefix⟩
          · have hexplains := h.refusalState hprevious
            rw [Explains, hrequest', hrejection'] at hexplains
            have hmore : List.replicate state.count.count (state.request, some state.rejection) <+:
                List.replicate (previous.count.count + 1)
                  (state.request, some state.rejection) := by
              rw [List.prefix_iff_eq_take, List.length_replicate, List.take_replicate,
                min_eq_left hcount]
            exact hmore.trans (List.cons_prefix_cons.mpr ⟨rfl, hexplains⟩)

theorem RefusalWorld.Explained.step (h : world.Explained) : (world.step tick).Explained := by
  intro stored hstored
  change world.write tick = some stored at hstored
  rw [RefusalWorld.write] at hstored
  split at hstored
  · cases hstored
  · next next hnext =>
      have hexplains := h.transition hnext
      split at hstored
      · next hsame =>
          obtain ⟨found, hbody, -⟩ := h stored (RefusalWorld.raw_eq_some hstored).1
          rw [RefusalWorld.refusalState, hstored, Option.map_some, hbody,
            parseOrderRefusalState_toJson, Option.some.injEq] at hsame
          subst hsame
          exact ⟨found, hbody, hexplains⟩
      · cases hstored
        exact ⟨next, rfl, hexplains⟩

theorem RefusalWorld.after_concat (ticks : List RefusalTick) (tick : RefusalTick) :
    RefusalWorld.after (ticks ++ [tick]) = (RefusalWorld.after ticks).step tick := by
  rw [RefusalWorld.after, List.foldl_append]
  rfl

theorem RefusalWorld.explained_after (ticks : List RefusalTick) :
    (RefusalWorld.after ticks).Explained := by
  induction ticks using List.reverseRecOn with
  | nil => exact fun stored h => by cases h
  | append_singleton earlier tick ih =>
      rw [RefusalWorld.after_concat]
      exact ih.step

theorem RefusalWorld.defers_eq_true {decision : PlacementDecision}
    (hplacement : tick.placement = some decision) :
    world.defers tick = true ↔
      ∃ state nextProbeAtMs, world.refusalState tick = some state ∧
        state.request = decision.request ∧ state.count = .tripped nextProbeAtMs ∧
        (tick.gateMs : ℚ) < nextProbeAtMs := by
  have hidentity : buildOrderRequestIdentity decision.1 = some decision.request :=
    (Option.some_get _).symm
  rw [RefusalWorld.defers, hplacement, Option.any_some]
  unfold orderRefusalGate
  split
  · next request rejection nextProbeAtMs hstate =>
      rw [hidentity]
      by_cases hrequest : request = decision.request
      · subst hrequest
        by_cases hearly : (tick.gateMs : ℚ) < nextProbeAtMs <;> simp [hstate, hearly]
      · simp [hstate, hrequest, Ne.symm hrequest]
  · next hstate =>
      constructor
      · intro h
        cases h
      · rintro ⟨⟨request, rejection, count⟩, nextProbeAtMs, hfound, -, rfl, -⟩
        exact absurd hfound (hstate request rejection nextProbeAtMs)

end Explained

/-! ### Probes are spaced -/

section Spaced

variable {world : RefusalWorld} {tick : RefusalTick} {request : OrderRequestIdentity}
  {decision : PlacementDecision} {untilMs nowMs laterMs : ℤ}

/-- Until a time, whatever is stored holds a request back. -/
def RefusalWorld.Guards (world : RefusalWorld) (request : OrderRequestIdentity)
    (untilMs nowMs : ℤ) : Prop :=
  untilMs ≤ nowMs ∨
    ∃ (stored : StoredRefusal) (state : OrderRefusalState) (nextProbeAtMs : ℚ),
      world.stored = some stored ∧ stored.body = state.toJson ∧ state.request = request ∧
        state.count = .tripped nextProbeAtMs ∧ (untilMs : ℚ) ≤ nextProbeAtMs ∧
        untilMs ≤ stored.expiresAtMs

theorem RefusalWorld.Guards.later (h : world.Guards request untilMs nowMs)
    (hlater : nowMs ≤ laterMs) : world.Guards request untilMs laterMs :=
  h.imp_left fun hdue => hdue.trans hlater

theorem RefusalWorld.Guards.held (h : world.Guards request untilMs nowMs)
    (hread : nowMs ≤ tick.readMs) (hearly : tick.gateMs < untilMs)
    (hplacement : tick.placement = some decision) (hrequest : decision.request = request) :
    world.defers tick = true ∧ (world.step tick).stored = world.stored := by
  have hbefore : tick.readMs < untilMs := tick.read_le_gate.trans_lt hearly
  obtain hdue | ⟨stored, state, nextProbeAtMs, hstored, hbody, hsame, hcount, hprobe, hexpires⟩ := h
  · exact absurd (hdue.trans hread) (not_le.mpr hbefore)
  · have hraw : world.raw tick = some stored := by
      rw [RefusalWorld.raw, hstored, Option.filter_some,
        if_pos (decide_eq_true (hbefore.trans_le hexpires))]
    have hstate : world.refusalState tick = some state := by
      rw [RefusalWorld.refusalState, hraw, Option.map_some, hbody, parseOrderRefusalState_toJson]
    have hdefers : world.defers tick = true := by
      refine (RefusalWorld.defers_eq_true hplacement).mpr
        ⟨state, nextProbeAtMs, hstate, ?_, hcount, ?_⟩
      · rw [hsame, hrequest]
      · exact lt_of_lt_of_le (by exact_mod_cast hearly) hprobe
    refine ⟨hdefers, ?_⟩
    have houtcome : world.outcome tick = some (.circuitDeferred decision) := by
      rw [RefusalWorld.outcome, hplacement, Option.map_some, if_pos hdefers]
    have hkept : (transitionOrderRefusal (some state) (some (.circuitDeferred decision))
        tick.settledMs).state = some state := by
      simp [transitionOrderRefusal, OrderPlacementOutcome.decision, hsame, hrequest]
    change world.write tick = world.stored
    rw [RefusalWorld.write, houtcome, hstate]
    simp only [hkept, hraw, hstored, if_true]

theorem RefusalWorld.Guards.attempt (h : world.Guards request untilMs nowMs)
    (hread : nowMs ≤ tick.readMs) {attempt : Attempt} (hattempt : world.attempt tick = some attempt)
    (hrequest : attempt.request = request) : untilMs ≤ attempt.sentMs := by
  rw [RefusalWorld.attempt] at hattempt
  split at hattempt
  · next decision result houtcome =>
      cases hattempt
      by_contra hearly
      have hgate : tick.gateMs < untilMs := tick.gate_le_sent.trans_lt (not_le.mp hearly)
      obtain ⟨placed, hplacement, hresult⟩ := Option.map_eq_some_iff.mp houtcome
      split at hresult
      · cases hresult
      · next hdefers =>
          have hplaced : placed.request = request := by
            split at hresult <;> cases hresult
            exact hrequest
          exact hdefers (h.held hread hgate hplacement hplaced).1
  · cases hattempt

theorem RefusalWorld.Guards.waits {waits : List RefusalTick}
    (h : world.Guards request untilMs nowMs) (hwaits : world.Waits request waits)
    (hread : ∀ wait ∈ waits, nowMs ≤ wait.readMs) (hclock : ChronologicalTicks waits)
    (hend : ∀ wait ∈ waits, wait.settledMs ≤ laterMs) (hlater : nowMs ≤ laterMs) :
    (waits.foldl RefusalWorld.step world).Guards request untilMs laterMs := by
  induction waits generalizing world nowMs with
  | nil => exact h.later hlater
  | cons wait rest ih =>
      obtain ⟨⟨decision, hplacement, hrequest⟩, -, hrest⟩ := hwaits
      obtain ⟨hfirst, hclock⟩ := List.pairwise_cons.mp hclock
      have hsettled : wait.gateMs ≤ wait.settledMs := wait.gate_le_sent.trans wait.sent_le_settled
      have hstep : (world.step wait).Guards request untilMs wait.settledMs := by
        rcases le_or_gt untilMs wait.gateMs with hdue | hearly
        · exact .inl (hdue.trans hsettled)
        · have hread := hread wait List.mem_cons_self
          have hstored := (h.held hread hearly hplacement hrequest).2
          rcases h with hdue | hguards
          · exact .inl (((hdue.trans hread).trans wait.read_le_gate).trans hsettled)
          · refine .inr ?_
            rw [hstored]
            exact hguards
      exact ih hstep hrest hfirst hclock (fun w hw => hend w (List.mem_cons_of_mem wait hw))
        (hend wait List.mem_cons_self)

theorem RefusalCount.exists_tripped {count : RefusalCount}
    (h : count.count = orderRefusalThreshold) :
      ∃ nextProbeAtMs, count = .tripped nextProbeAtMs := by
  cases count with
  | once | twice => cases h
  | tripped nextProbeAtMs => exact ⟨nextProbeAtMs, rfl⟩

/-- A circuit that is tripped and not probed yet makes no attempt. -/
theorem RefusalWorld.not_result_of_early {state : OrderRefusalState} {nextProbeAtMs : ℚ}
    {result : PlacementResult} (hstate : world.refusalState tick = some state)
    (hrequest : state.request = decision.request) (hcount : state.count = .tripped nextProbeAtMs)
    (hearly : (tick.gateMs : ℚ) < nextProbeAtMs) :
    world.outcome tick ≠ some (.result decision result) := by
  intro houtcome
  obtain ⟨placed, hplacement, hresult⟩ := Option.map_eq_some_iff.mp houtcome
  split at hresult
  · cases hresult
  · next hdefers =>
      have hplaced : placed = decision := by
        split at hresult <;> cases hresult
        rfl
      subst hplaced
      exact hdefers ((RefusalWorld.defers_eq_true hplacement).mpr
        ⟨state, nextProbeAtMs, hstate, hrequest, hcount, hearly⟩)

theorem RefusalWorld.guards_of_tripped {attempt : Attempt}
    (hattempt : world.attempt tick = some attempt) (htripped : (world.step tick).isTripped = true) :
    (world.step tick).Guards attempt.request (attempt.sentMs + orderRefusalProbeMs)
      tick.settledMs := by
  rw [RefusalWorld.attempt] at hattempt
  split at hattempt
  · next decision result houtcome =>
      cases hattempt
      have hwrite : (world.step tick).stored = world.write tick := rfl
      rw [RefusalWorld.write] at hwrite
      rw [RefusalWorld.isTripped] at htripped
      split at hwrite
      · rw [hwrite] at htripped
        cases htripped
      · next next hnext =>
          rw [houtcome] at hnext
          obtain ⟨-, hrequest, -, hprobe⟩ := transition_result hnext
          have hcount : next.count.count = orderRefusalThreshold := by
            rw [hwrite] at htripped
            split at htripped
            · next hsame =>
                change (world.refusalState tick).any _ = true at htripped
                rw [hsame] at htripped
                exact of_decide_eq_true htripped
            · rw [Option.map_some, parseOrderRefusalState_toJson] at htripped
              exact of_decide_eq_true htripped
          obtain ⟨nextProbeAtMs, hcount⟩ := RefusalCount.exists_tripped hcount
          have hdue := hprobe nextProbeAtMs hcount
          have hlate : tick.sentMs + orderRefusalProbeMs ≤ tick.settledMs + orderRefusalProbeMs :=
            add_le_add_left tick.sent_le_settled _
          split at hwrite
          · next hsame =>
              have hgate : tick.gateMs < tick.settledMs + orderRefusalProbeMs :=
                (tick.gate_le_sent.trans tick.sent_le_settled).trans_lt
                  (lt_add_of_pos_right _ (by decide))
              refine absurd houtcome (RefusalWorld.not_result_of_early hsame hrequest hcount ?_)
              rw [hdue]
              exact_mod_cast hgate
          · refine .inr ⟨_, next, nextProbeAtMs, hwrite, rfl, hrequest, hcount, ?_, ?_⟩
            · rw [hdue]
              exact_mod_cast hlate
            · exact hlate.trans (by simp [orderRefusalProbeMs, orderRefusalTtlMs])
  · cases hattempt

end Spaced

/-- A placement is held back only after three refusals of its very request in the same words, with
nothing attempted since; while a tripped circuit waits on a request, its probes are a minute apart;
and a state is read back as it was stored. -/
theorem refusal_circuit_bounds (ticks : List RefusalTick) (hclock : ChronologicalTicks ticks) :
    (∀ earlier tick rest, ticks = earlier ++ tick :: rest →
      ∀ decision, tick.placement = some decision →
        (RefusalWorld.after earlier).defers tick = true →
        ∃ rejection, List.replicate 3 (decision.request, some rejection) <+:
          (RefusalWorld.after earlier).attempts.map Attempt.refusal) ∧
    (∀ earlier tick rest, ticks = earlier ++ tick :: rest →
      ∀ decision, tick.placement = some decision →
        (∀ last ∈ (RefusalWorld.after earlier).attempts.head?, decision.request ≠ last.request) →
        (RefusalWorld.after earlier).defers tick = false) ∧
    (∀ earlier first waits second rest, ticks = earlier ++ first :: (waits ++ second :: rest) →
      ∀ refused next, (RefusalWorld.after earlier).attempt first = some refused →
        (RefusalWorld.after (earlier ++ [first])).isTripped = true →
        (RefusalWorld.after (earlier ++ [first])).Waits refused.request waits →
        (RefusalWorld.after (earlier ++ first :: waits)).attempt second = some next →
        next.request = refused.request →
        refused.sentMs + orderRefusalProbeMs ≤ next.sentMs) ∧
    ∀ previous outcome nowMs state,
      (transitionOrderRefusal previous outcome nowMs).state = some state →
      parseOrderRefusalState (some state.toJson) = some state := by
  have hdeferred : ∀ earlier tick decision, tick.placement = some decision →
      (RefusalWorld.after earlier).defers tick = true →
      ∃ rejection, List.replicate 3 (decision.request, some rejection) <+:
        (RefusalWorld.after earlier).attempts.map Attempt.refusal := by
    intro earlier tick decision hplacement hdefers
    obtain ⟨state, nextProbeAtMs, hstate, hrequest, hcount, -⟩ :=
      (RefusalWorld.defers_eq_true hplacement).mp hdefers
    have hexplains := (RefusalWorld.explained_after earlier).refusalState hstate
    rw [Explains, hrequest, hcount] at hexplains
    exact ⟨state.rejection, hexplains⟩
  refine ⟨?_, ?_, ?_, ?_⟩
  · intro earlier tick rest _ decision hplacement hdefers
    exact hdeferred earlier tick decision hplacement hdefers
  · intro earlier tick rest _ decision hplacement hother
    by_contra hdefers
    obtain ⟨rejection, hlast⟩ := hdeferred earlier tick decision hplacement (by simpa using hdefers)
    cases hattempts : (RefusalWorld.after earlier).attempts with
    | nil =>
        rw [hattempts] at hlast
        exact absurd (List.prefix_nil.mp hlast) (by simp)
    | cons last older =>
        rw [hattempts, List.map_cons, List.replicate_succ, List.cons_prefix_cons] at hlast
        exact hother last (by simp [hattempts]) (congrArg Prod.fst hlast.1)
  · intro earlier first waits second rest hticks refused next hrefused htripped
      hwaits hnext hrequest
    rw [hticks] at hclock
    obtain ⟨hfirst, hrest⟩ := List.pairwise_cons.mp (List.pairwise_append.mp hclock).2.1
    obtain ⟨hwaiting, -, hbefore⟩ := List.pairwise_append.mp hrest
    have hworld : RefusalWorld.after (earlier ++ first :: waits) =
        waits.foldl RefusalWorld.step (RefusalWorld.after (earlier ++ [first])) := by
      rw [RefusalWorld.after, RefusalWorld.after, List.foldl_append, List.foldl_append]
      rfl
    have hguards : (RefusalWorld.after (earlier ++ [first])).Guards refused.request
        (refused.sentMs + orderRefusalProbeMs) first.settledMs := by
      rw [RefusalWorld.after_concat] at htripped ⊢
      exact RefusalWorld.guards_of_tripped hrefused htripped
    have hlate : first.settledMs ≤ second.readMs :=
      hfirst second (List.mem_append_right waits List.mem_cons_self)
    rw [hworld] at hnext
    exact (hguards.waits hwaits (fun w hw => hfirst w (List.mem_append_left _ hw)) hwaiting
      (fun w hw => hbefore w hw second List.mem_cons_self) hlate).attempt le_rfl hnext hrequest
  · intro previous outcome nowMs state _
    exact parseOrderRefusalState_toJson state

/-! ### A balance that is too small -/

/-- A market buy the wallet cannot pay for. -/
def unpaidBuy : PlacementDecision :=
  ⟨.placeOrder
      { symbol := "BTCUSDT", side := .buy, reason := "entry", clientOrderId := "buy-1", info := []
        overrideActionId := none, deferrable := true }
      { type := .market, quantity := "0.5", price := none, stopPrice := none, trailingDelta := none
        timeInForce := none },
    rfl⟩

def insufficientBalance : PlacementResult :=
  .failed false .rejected
    (some { status := 400, code := -2010
            msg := "Account has insufficient balance for requested action."
            message := "Binance API error -2010", phase := .rejected, cancelLegCode := none
            cancelLeg := none })

/-- A tick that is over in the millisecond it begins. -/
def tickAt (ms : ℤ) (placement : Option PlacementDecision) : RefusalTick where
  readMs := ms
  gateMs := ms
  sentMs := ms
  settledMs := ms
  read_le_gate := le_rfl
  gate_le_sent := le_rfl
  sent_le_settled := le_rfl
  placement
  answer := some insufficientBalance

/-- The order is refused three times, a second apart. -/
def refusedThrice : List RefusalTick := [0, 1000, 2000].map (tickAt · (some unpaidBuy))

theorem chronological_tickAt {times : List (ℤ × Option PlacementDecision)}
    (h : (times.map Prod.fst).Pairwise (· ≤ ·)) :
    ChronologicalTicks (times.map fun time => tickAt time.1 time.2) :=
  List.pairwise_map.mpr (List.pairwise_map.mp h)

/-- The fourth time the order is held back, for it has been refused three times. -/
theorem fourth_refusal_held_back :
    (RefusalWorld.after refusedThrice).defers (tickAt 3000 (some unpaidBuy)) = true ∧
      ∃ rejection, List.replicate 3 (unpaidBuy.request, some rejection) <+:
        (RefusalWorld.after refusedThrice).attempts.map Attempt.refusal := by
  have hdefers : (RefusalWorld.after refusedThrice).defers
      (tickAt 3000 (some unpaidBuy)) = true := by
    decide +kernel
  refine ⟨hdefers, ?_⟩
  exact (refusal_circuit_bounds (refusedThrice ++ [tickAt 3000 (some unpaidBuy)])
    (@chronological_tickAt [(0, some unpaidBuy), (1000, some unpaidBuy), (2000, some unpaidBuy),
      (3000, some unpaidBuy)] (by decide))).1 refusedThrice (tickAt 3000 (some unpaidBuy)) [] rfl
    unpaidBuy rfl hdefers

/-- A tick that places nothing forgets the refusals, and the order is sent again two seconds after
the one that tripped the circuit. -/
theorem quiet_tick_resends_refused :
    ∃ ticks : List RefusalTick, ChronologicalTicks ticks ∧
      (RefusalWorld.after (ticks.take 3)).isTripped = true ∧
      ((RefusalWorld.after ticks).attempts.take 2).map Attempt.sentMs = [4000, 2000] ∧
      ((RefusalWorld.after ticks).attempts.take 2).map Attempt.refusal =
        List.replicate 2 (unpaidBuy.request, structuralRejection insufficientBalance) := by
  refine ⟨[(0, some unpaidBuy), (1000, some unpaidBuy), (2000, some unpaidBuy), (3000, none),
    (4000, some unpaidBuy)].map fun time => tickAt time.1 time.2,
    chronological_tickAt (by decide), ?_, ?_, ?_⟩
  · decide +kernel
  · decide +kernel
  · decide +kernel

end TradingBot.Worker
