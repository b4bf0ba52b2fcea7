import TradingBot.TrailingTrade.Lifecycle
import TradingBot.TrailingTrade.TickActs

/-!
# Cooldowns over whole runs

A profile remembers when it last sold at a loss and until when a signal-driven
sell keeps it out. Both latches outlive the position, survive fills, clears and
the merge of two concurrent writes, and every entry of a flat profile waits for
both. Two ticks lose the memory of a loss: a rung bought by a position that was
adopted while the wait was still running, and a stop-loss that fires at a price
that is not below cost. The runs below take neither.
-/

namespace TradingBot.TrailingTrade

open Decimal EarlyExit

variable {input : TTInput} {start : TTState} {output : TTOutput}

/-! ### Merging two writes -/

/-- The later of two stamps; an absent one never wins. -/
def laterMs : Option ℤ → Option ℤ → Option ℤ
  | none, b => b
  | a, none => a
  | some a, some b => some (if a ≥ b then a else b)

/-- The body of a concurrent write, with the later of each latch. -/
def mergeTTLatchFields (base latchSource : TTState) : TTState :=
  let lastLossExitAt := laterMs base.lastLossExitAt latchSource.lastLossExitAt
  { base with
    lastLossExitAt
    -- the reason stays paired with the stamp that won, the fresh one on a tie
    lastLossExitReason :=
      if lastLossExitAt.isSome && lastLossExitAt == latchSource.lastLossExitAt then
        latchSource.lastLossExitReason
      else if lastLossExitAt.isSome && lastLossExitAt == base.lastLossExitAt then
        base.lastLossExitReason
      else none
    forceSellCooldownUntilMs :=
      laterMs base.forceSellCooldownUntilMs latchSource.forceSellCooldownUntilMs
    autoTriggerBuyAtMs := laterMs base.autoTriggerBuyAtMs latchSource.autoTriggerBuyAtMs }

/-- A stamp reaches a time. -/
def Reaches (stamp : Option ℤ) (t : ℤ) : Prop := ∃ at_, stamp = some at_ ∧ t ≤ at_

/-- A merge never moves a stamp earlier. -/
theorem Reaches.laterMs {base latest : Option ℤ} {t : ℤ} (h : Reaches latest t) :
    Reaches (laterMs base latest) t := by
  obtain ⟨at_, rfl, hle⟩ := h
  cases base with
  | none => exact ⟨at_, rfl, hle⟩
  | some b =>
      refine ⟨if b ≥ at_ then b else at_, rfl, ?_⟩
      split
      · next hge => exact hle.trans hge
      · exact hle

/-! ### Exits and entries of a tick -/

def places (kind : OrderIntent → Bool) (decisions : List Decision) : Bool :=
  decisions.any fun d => d.order.any fun o => kind o.1

def exitsBy (reason : SellEmissionReason) (decisions : List Decision) : Bool :=
  places (fun intent => intent.side == .sell && intent.reason == reason.text) decisions

/-- The tick closes its position on a stop-loss or a break-even stop, or below cost on a signal or
a trend. -/
def closesAtLoss (input : TTInput) (output : TTOutput) : Bool :=
  exitsBy .gridStopLoss output.decisions || exitsBy .breakEvenStop output.decisions ||
    (belowCost input input.state.avgEntryPrice &&
      (exitsBy .technicalsForceSell output.decisions || exitsBy .regimeExit output.decisions))

def placesBuy (decisions : List Decision) : Bool := places (·.side == .buy) decisions

/-- The strategy itself buys, with no position: a tick's buy leaves the basis it decided on. -/
def entersFlat (input : TTInput) (output : TTOutput) : Bool :=
  input.bundle.override.isNone && output.nextState.avgEntryPrice.isNone &&
    placesBuy output.decisions

/-- An operator's trigger makes the strategy buy. -/
def entersOnTrigger (input : TTInput) (output : TTOutput) : Bool :=
  input.bundle.override.any (fun o => o.kind == .triggerBuy) && placesBuy output.decisions

theorem exists_of_places {kind : OrderIntent → Bool} {decisions : List Decision}
    (h : places kind decisions = true) :
    ∃ d ∈ decisions, ∃ intent params, d.order = some (intent, params) ∧ kind intent = true := by
  obtain ⟨d, hd, hany⟩ := List.any_eq_true.mp h
  cases horder : d.order with
  | none =>
      rw [horder] at hany
      cases hany
  | some o =>
      rw [horder] at hany
      exact ⟨d, hd, o.1, o.2, horder, hany⟩

/-- No exit reason is another one's text, nor that of an operator's sell or of the stop. -/
theorem SellEmissionReason.text_injective {a b : SellEmissionReason} (h : a.text = b.text) :
    a = b := by
  cases a <;> cases b <;> first | rfl | (revert h; decide)

theorem SellEmissionReason.text_ne (reason : SellEmissionReason) :
    "manual" ≠ reason.text ∧ "protective-stop" ≠ reason.text := by
  cases reason <;> decide

theorem TickActs.exitLatches {reason : SellEmissionReason} (acts : TickActs input start output)
    (h : exitsBy reason output.decisions = true) :
    ExitLatches input start reason output.nextState := by
  obtain ⟨d, hd, intent, params, horder, hkind⟩ := exists_of_places h
  rw [Bool.and_eq_true, beq_iff_eq, beq_iff_eq] at hkind
  obtain ⟨hside, hreason⟩ := hkind
  have hreasonOf : reasonOf d = some reason.text := hreason ▸ reasonOf_of_order horder
  cases acts with
  | rests silent latches =>
      rw [silent d hd] at horder
      cases horder
  | manual override payload quantity override_eq kind decisions latches =>
      rw [decisions] at hd
      exact absurd (Option.some.inj ((reasonOf_manual hd).symm.trans hreasonOf)) reason.text_ne.1
  | liquidates override quantity seed override_eq kind decisions latches =>
      rw [decisions] at hd
      obtain ⟨d', hd', rfl⟩ := List.mem_map.mp hd
      rw [reasonOf_attribute, reasonOf_of_order (order_of_mem_closing hd')] at hreasonOf
      exact absurd (Option.some.inj hreasonOf) reason.text_ne.1
  | arms at_ decisions latches =>
      rw [decisions] at hd
      rcases evaluateProtectiveStop_sends hd with ⟨rearm, params', horder'⟩ | ⟨orderId, symbol, rfl⟩
      · rw [reasonOf_of_order horder'] at hreasonOf
        exact absurd (Option.some.inj hreasonOf) reason.text_ne.2
      · cases horder
  | sells reason' quantity seed unasked noForeignSell decisions latches =>
      rw [decisions] at hd
      rw [reasonOf_of_order (order_of_mem_closing hd)] at hreasonOf
      cases SellEmissionReason.text_injective (Option.some.inj hreasonOf)
      exact latches
  | rung sender target level quantity unasked level_eq sized capped cooled decisions latches =>
      rw [decisions] at hd
      cases hside.symm.trans (side_of_rung hd horder)
  | single sender quantity unasked noOpenBuy sized cooled decisions latches =>
      rw [decisions] at hd
      cases hside.symm.trans (side_of_single hd horder)
  | adds quantity addIndex pyramid unasked noOpenBuy held sized capped decisions latches =>
      rw [decisions, List.mem_singleton] at hd
      subst hd
      cases horder
      cases hside

theorem exitsBy_sells {reason : SellEmissionReason} {quantity : DecimalString} {seed : String}
    (h : output.decisions =
      closingSellDecisions input (buildSellDecision input reason.text quantity seed)) :
    exitsBy reason output.decisions = true := by
  rw [h]
  unfold buildSellDecision
  rcases closingSellDecisions_eq input _ _ with heq | ⟨resting, -, heq⟩
  · rw [heq]
    simp [exitsBy, places, Decision.order, sellIntent]
  · rw [heq]
    simp [exitsBy, places, Decision.order, sellIntent]

/-! ### What a tick leaves of its latches -/

/-- A tick keeps its latches, or leaves them as its exit or its buy does. -/
inductive LatchStep (input : TTInput) (start : TTState) (output : TTOutput) : Prop where
  | kept (latches : KeepsLatches start output.nextState)
  | exited (reason : SellEmissionReason) (exits : exitsBy reason output.decisions = true)
      (latches : ExitLatches input start reason output.nextState)
  | bought (sender : Option String) (unasked : sender = none → input.bundle.override = none)
      (cooled : Cooled input start sender output.nextState)
      (latches : BuyLatches start sender output.nextState)

theorem TickActs.latchStep (acts : TickActs input start output) :
    LatchStep input start output := by
  cases acts with
  | rests silent latches => exact .kept latches
  | manual override payload quantity override_eq kind decisions latches => exact .kept latches
  | liquidates override quantity seed override_eq kind decisions latches => exact .kept latches
  | arms at_ decisions latches => exact .kept latches
  | sells reason quantity seed unasked noForeignSell decisions latches =>
      exact .exited reason (exitsBy_sells decisions) latches
  | rung sender target level quantity unasked level_eq sized capped cooled decisions latches =>
      exact .bought sender unasked cooled latches
  | single sender quantity unasked noOpenBuy sized cooled decisions latches =>
      exact .bought sender unasked cooled latches
  | adds quantity addIndex pyramid unasked noOpenBuy held sized capped decisions latches =>
      exact .kept latches

/-- The cooldowns a buy waited for, where it is the strategy's own or asked for by a trigger. -/
theorem TickActs.cooled (acts : TickActs input start output)
    (hbuys : placesBuy output.decisions = true)
    (hkind : input.bundle.override = none ∧ output.nextState.avgEntryPrice = none ∨
      ∃ override, input.bundle.override = some override ∧ override.kind = .triggerBuy) :
    ∃ sender, Cooled input start sender output.nextState ∧
      (input.bundle.override = none → sender = none) ∧
      (input.bundle.override.isSome = true → sender.isSome = true) := by
  obtain ⟨d, hd, intent, params, horder, hside⟩ := exists_of_places hbuys
  rw [beq_iff_eq] at hside
  have hsender {sender : Option String} (unasked : sender = none → input.bundle.override = none)
      (cooled : Cooled input start sender output.nextState) :
      ∃ sender, Cooled input start sender output.nextState ∧
        (input.bundle.override = none → sender = none) ∧
        (input.bundle.override.isSome = true → sender.isSome = true) := by
    refine ⟨sender, cooled, fun hnone => ?_, fun hsome => ?_⟩
    · cases sender with
      | none => rfl
      | some id =>
          obtain ⟨override, hoverride, -⟩ := cooled.override id rfl
          rw [hnone] at hoverride
          cases hoverride
    · cases sender with
      | none =>
          rw [unasked rfl] at hsome
          cases hsome
      | some id => rfl
  -- an operator's own orders are asked for, and by no trigger-buy
  have hoperator {override : Override} (override_eq : input.bundle.override = some override)
      (hother : override.kind ≠ .triggerBuy) : False := by
    rcases hkind with ⟨hnone, -⟩ | ⟨asked, hasked, hbuy⟩
    · rw [hnone] at override_eq
      cases override_eq
    · rw [hasked] at override_eq
      cases override_eq
      exact hother hbuy
  cases acts with
  | rests silent latches =>
      rw [silent d hd] at horder
      cases horder
  | manual override payload quantity override_eq kind decisions latches =>
      exact (hoperator override_eq (by simp [kind])).elim
  | liquidates override quantity seed override_eq kind decisions latches =>
      exact (hoperator override_eq (by simp [kind])).elim
  | arms at_ decisions latches =>
      rw [decisions] at hd
      cases hside.symm.trans (side_of_protectiveStop hd horder)
  | sells reason quantity seed unasked noForeignSell decisions latches =>
      rw [decisions] at hd
      cases hside.symm.trans (side_of_closing hd horder)
  | rung sender target level quantity unasked level_eq sized capped cooled decisions latches =>
      exact hsender unasked cooled
  | single sender quantity unasked noOpenBuy sized cooled decisions latches =>
      exact hsender unasked cooled
  | adds quantity addIndex pyramid unasked noOpenBuy held sized capped decisions latches =>
      rcases hkind with ⟨-, hflat⟩ | ⟨asked, hasked, -⟩
      · rw [hflat] at held
        cases held
      · rw [unasked] at hasked
        cases hasked

/-- The stop-loss fires at a price that is not below cost. -/
def StopsAtCost (input : TTInput) : Prop :=
  ∃ lbp price stopLoss, StopFires input input.state lbp price stopLoss ∧ price.lt lbp = false

/-- A position's ladder buys its next rung while the wait after a loss is still running. -/
structure ForgetsLoss (input : TTInput) : Prop where
  unasked : input.bundle.override = none
  cooling : lossExitCooldownActive input.state input.config input.nowMs = true
  climbs : Climbs (normalizedInput input) (startState input)

/-- The tick loses no memory of a loss. -/
structure KeepsMemory (input : TTInput) : Prop where
  stops : ¬ StopsAtCost input
  climbs : ¬ ForgetsLoss input

section Tick

variable (htick : computeTick input = .ok output)
include htick

theorem tick_exitLatches {reason : SellEmissionReason}
    (h : exitsBy reason output.decisions = true) :
    ExitLatches (normalizedInput input) (startState input) reason output.nextState :=
  ((computeTick_acts input).returned htick).exitLatches h

theorem tick_stamps_loss (hstops : ¬ StopsAtCost input)
    (hcloses : closesAtLoss input output = true) :
    output.nextState.lastLossExitAt = some input.nowMs := by
  have hstart := (keeps_startState input).avgEntryPrice
  have hstamp {reason : SellEmissionReason} (hexits : exitsBy reason output.decisions = true)
      (hloss : remembersLoss input input.state.avgEntryPrice reason = true) :
      output.nextState.lastLossExitAt = some input.nowMs := by
    refine (tick_exitLatches htick hexits).lossExit.trans (if_pos ?_)
    rw [hstart]
    exact hloss
  unfold closesAtLoss at hcloses
  rw [Bool.or_eq_true, Bool.or_eq_true, Bool.and_eq_true, Bool.or_eq_true] at hcloses
  rcases hcloses with (hexits | hexits) | ⟨hbelow, hexits | hexits⟩
  · -- the stop fires on the basis the tick started with, and then below it
    obtain ⟨d, hd, intent, params, horder, hkind⟩ := exists_of_places hexits
    rw [Bool.and_eq_true, beq_iff_eq, beq_iff_eq] at hkind
    have hreason : reasonOf d = some "grid-stop-loss" :=
      (reasonOf_of_order horder).trans (congrArg some hkind.2)
    obtain ⟨lbp, price, stopLoss, hfires⟩ := computeTick_stopLoss htick hd hreason
    refine hstamp hexits ?_
    simp only [remembersLoss, belowCost, hfires.price_eq, hfires.lbp_eq]
    by_contra hlt
    exact hstops ⟨lbp, price, stopLoss, hfires, by simpa using hlt⟩
  · exact hstamp hexits rfl
  · exact hstamp hexits hbelow
  · exact hstamp hexits hbelow

/-- The memory of a loss stays, is renewed, or goes once the wait is over. -/
theorem tick_keeps_loss (hclimbs : ¬ ForgetsLoss input) :
    output.nextState.lastLossExitAt = input.state.lastLossExitAt ∨
      output.nextState.lastLossExitAt = some input.nowMs ∨
      lossExitCooldownActive input.state input.config input.nowMs = false := by
  have hstart := (keepsLatches_startState input).lossExit
  cases ((computeTick_acts input).returned htick).latchStep with
  | kept latches => exact .inl (latches.lossExit.trans hstart)
  | exited reason exits latches =>
      have hloss := latches.lossExit
      split at hloss
      · exact .inr (.inl hloss)
      · exact .inl (hloss.trans hstart)
  | bought sender unasked cooled latches =>
      cases sender with
      | some overrideActionId => exact .inl (latches.lossExit.trans hstart)
      | none =>
          refine .inr (.inr ?_)
          cases hheld : output.nextState.avgEntryPrice with
          | none =>
              have hover := cooled.loss rfl hheld
              unfold lossExitCooldownActive at hover ⊢
              rwa [hstart] at hover
          | some avg =>
              -- a rung under a position does not look at the wait: this is the branch left out
              have hladder := cooled.climbs rfl (by simp [hheld])
              by_contra hcooling
              exact hclimbs ⟨unasked rfl, by simpa using hcooling, hladder⟩

theorem tick_keeps_deadline (h : exitsBy .technicalsForceSell output.decisions = false) :
    output.nextState.forceSellCooldownUntilMs = input.state.forceSellCooldownUntilMs := by
  have hstart := (keepsLatches_startState input).forceSell
  cases ((computeTick_acts input).returned htick).latchStep with
  | kept latches => exact latches.forceSell.trans hstart
  | exited reason exits latches =>
      have hother : reason ≠ .technicalsForceSell := by
        rintro rfl
        rw [exits] at h
        cases h
      exact (latches.forceSell.trans (if_neg hother)).trans hstart
  | bought sender unasked cooled latches => exact latches.forceSell.trans hstart

/-- The strategy enters with no position only once both waits are over. -/
theorem entersFlat_waited (h : entersFlat input output = true) :
    lossExitCooldownActive input.state input.config input.nowMs = false ∧
      forceSellCooldownActive input.state input.nowMs = false := by
  unfold entersFlat at h
  rw [Bool.and_eq_true, Bool.and_eq_true, Option.isNone_iff_eq_none,
    Option.isNone_iff_eq_none] at h
  obtain ⟨⟨hunasked, hflat⟩, hbuys⟩ := h
  have hlatches := keepsLatches_startState input
  obtain ⟨sender, hcooled, hsender, -⟩ :=
    ((computeTick_acts input).returned htick).cooled hbuys (.inl ⟨hunasked, hflat⟩)
  have hloss := hcooled.loss (hsender hunasked) hflat
  have hforce := hcooled.forceSell (.inr hflat)
  unfold lossExitCooldownActive at hloss ⊢
  unfold forceSellCooldownActive at hforce ⊢
  rw [hlatches.lossExit] at hloss
  rw [hlatches.forceSell] at hforce
  exact ⟨hloss, hforce⟩

/-- A trigger-buy waits for the signal-driven sell's deadline too. -/
theorem entersOnTrigger_waited (h : entersOnTrigger input output = true) :
    forceSellCooldownActive input.state input.nowMs = false := by
  unfold entersOnTrigger at h
  rw [Bool.and_eq_true] at h
  obtain ⟨htrigger, hbuys⟩ := h
  cases hoverride : input.bundle.override with
  | none =>
      rw [hoverride] at htrigger
      cases htrigger
  | some override =>
      rw [hoverride] at htrigger
      obtain ⟨sender, hcooled, -, hsender⟩ :=
        ((computeTick_acts input).returned htick).cooled hbuys
          (.inr ⟨override, hoverride, beq_iff_eq.mp htrigger⟩)
      have hforce := hcooled.forceSell (.inl (hsender (congrArg Option.isSome hoverride)))
      unfold forceSellCooldownActive at hforce ⊢
      rwa [(keepsLatches_startState input).forceSell] at hforce

end Tick

/-! ### Timelines -/

/-- A run so far: the body it is at, every body it has had, its clock, and what it has to remember:
the times of its losing exits and the deadlines of its signal-driven sells. -/
structure Timeline where
  body : TTState
  bodies : List TTState
  clock : ℤ
  losses : List ℤ
  deadlines : List ℤ

namespace Timeline

def initial (body : TTState) (clock : ℤ) : Timeline := ⟨body, [body], clock, [], []⟩

def moved (line : Timeline) (body : TTState) : Timeline :=
  { line with body, bodies := body :: line.bodies }

def afterTick (line : Timeline) (input : TTInput) (output : TTOutput) : Timeline :=
  { line.moved output.nextState with
    clock := input.nowMs
    losses := if closesAtLoss input output then input.nowMs :: line.losses else line.losses
    deadlines :=
      if exitsBy .technicalsForceSell output.decisions then
        output.nextState.forceSellCooldownUntilMs.toList ++ line.deadlines
      else line.deadlines }

end Timeline

/-- The worker adopts a fill into a body, or clears its position. -/
def Adopts (before after : TTState) : Prop :=
  (∃ fill, applyFill before fill = some after) ∨
    ∃ resetGridIndex, clearPosition before resetGridIndex = some after

/-- One step of a run. A writer on the side leaves a body that a later merge may start from. -/
inductive TimelineStep (config : TTConfig) (ok : TTInput → Prop) : Timeline → Timeline → Prop where
  | tick {line : Timeline} (input : TTInput) (output : TTOutput)
      (config_eq : input.config = config) (state_eq : input.state = line.body)
      (clock_le : line.clock ≤ input.nowMs) (allowed : ok input)
      (tick_eq : computeTick input = .ok output) :
      TimelineStep config ok line (line.afterTick input output)
  | adopted {line : Timeline} (next : TTState) (writes : Adopts line.body next) :
      TimelineStep config ok line (line.moved next)
  | adoptedAside {line : Timeline} (body next : TTState) (known : body ∈ line.bodies)
      (writes : Adopts body next) :
      TimelineStep config ok line { line with bodies := next :: line.bodies }
  | merged {line : Timeline} (base : TTState) (known : base ∈ line.bodies) :
      TimelineStep config ok line (line.moved (mergeTTLatchFields base line.body))

/-- The runs of one configuration, from any body. -/
def TimelineReached (config : TTConfig) (ok : TTInput → Prop) (line : Timeline) : Prop :=
  ∃ body clock, Relation.ReflTransGen (TimelineStep config ok) (.initial body clock) line

/-- No entry of the tick jumps a cooldown of the run. -/
structure WaitsFor (line : Timeline) (input : TTInput) (output : TTOutput) : Prop where
  loss : entersFlat input output = true →
    ∀ t ∈ line.losses, ¬ input.nowMs < lossCooldownDeadline input.config t
  forceSell : entersFlat input output = true ∨ entersOnTrigger input output = true →
    ∀ deadline ∈ line.deadlines, ¬ input.nowMs < deadline

/-! ### The invariant of a run -/

/-- The wait of a signal-driven sell, in milliseconds. -/
def forceSellCooldownMs (config : TTConfig) : ℤ :=
  (resolveForceSellGuards config.technicals).cooldownMinutes * 60000

/-- Everything the run has to remember is in its body, unless the wait is over. -/
structure Timeline.Remembers (config : TTConfig) (line : Timeline) : Prop where
  past : ∀ t ∈ line.losses, t ≤ line.clock
  loss : ∀ t ∈ line.losses,
    lossCooldownDeadline config t ≤ line.clock ∨ Reaches line.body.lastLossExitAt t
  ahead : ∀ deadline ∈ line.deadlines,
    0 < forceSellCooldownMs config ∧ deadline ≤ line.clock + forceSellCooldownMs config
  forceSell : ∀ deadline ∈ line.deadlines,
    deadline ≤ line.clock ∨ Reaches line.body.forceSellCooldownUntilMs deadline

theorem lossCooldownDeadline_mono {config : TTConfig} {t u : ℤ} (h : t ≤ u) :
    lossCooldownDeadline config t ≤ lossCooldownDeadline config u := by
  unfold lossCooldownDeadline
  omega

theorem over_of_not_cooling {config : TTConfig} {state : TTState} {now t : ℤ}
    (hreaches : Reaches state.lastLossExitAt t)
    (hover : lossExitCooldownActive state config now = false) :
    lossCooldownDeadline config t ≤ now := by
  obtain ⟨at_, hat, hle⟩ := hreaches
  rw [lossExitCooldownActive, hat, Option.any_some, decide_eq_false_iff_not, not_lt] at hover
  exact (lossCooldownDeadline_mono hle).trans hover

theorem Adopts.keepsLatches {before after : TTState} (h : Adopts before after) :
    KeepsLatches before after := by
  rcases h with ⟨fill, hfill⟩ | ⟨reset, hclear⟩
  · unfold applyFill at hfill
    split at hfill
    · cases hfill
    · split at hfill
      · cases hfill
        exact ⟨rfl, rfl⟩
      · cases hfill
        exact ⟨rfl, rfl⟩
      · split at hfill
        · cases hfill
        · cases hfill
          exact ⟨rfl, rfl⟩
  · unfold clearPosition at hclear
    split at hclear
    · cases hclear
    · cases hclear
      constructor <;> (repeat' split) <;> rfl

namespace Timeline.Remembers

variable {config : TTConfig} {line : Timeline}

theorem moved {body : TTState} (h : line.Remembers config)
    (hloss : ∀ t, Reaches line.body.lastLossExitAt t → Reaches body.lastLossExitAt t)
    (hforce : ∀ t, Reaches line.body.forceSellCooldownUntilMs t →
      Reaches body.forceSellCooldownUntilMs t) :
    (line.moved body).Remembers config where
  past := h.past
  loss t ht := (h.loss t ht).imp_right (hloss t)
  ahead := h.ahead
  forceSell t ht := (h.forceSell t ht).imp_right (hforce t)

theorem loss_tick (h : line.Remembers config) (hconfig : input.config = config)
    (hstate : input.state = line.body) (hclock : line.clock ≤ input.nowMs)
    (hclimbs : ¬ ForgetsLoss input) (htick : computeTick input = .ok output) {t : ℤ}
    (ht : t ∈ line.losses) :
    lossCooldownDeadline config t ≤ input.nowMs ∨ Reaches output.nextState.lastLossExitAt t := by
  rcases h.loss t ht with hover | hreaches
  · exact .inl (hover.trans hclock)
  · rw [← hstate] at hreaches
    rcases tick_keeps_loss htick hclimbs with hkept | hstamped | hcool
    · exact .inr (hkept ▸ hreaches)
    · exact .inr ⟨input.nowMs, hstamped, (h.past t ht).trans hclock⟩
    · rw [hconfig] at hcool
      exact .inl (over_of_not_cooling hreaches hcool)

/-- The deadline of a signal-driven sell only moves further out. -/
theorem forceSell_tick (h : line.Remembers config) (hconfig : input.config = config)
    (hstate : input.state = line.body) (hclock : line.clock ≤ input.nowMs)
    (htick : computeTick input = .ok output) {deadline : ℤ} (hmem : deadline ∈ line.deadlines) :
    deadline ≤ input.nowMs ∨ Reaches output.nextState.forceSellCooldownUntilMs deadline := by
  obtain ⟨hpos, hahead⟩ := h.ahead deadline hmem
  rcases h.forceSell deadline hmem with hover | hreaches
  · exact .inl (hover.trans hclock)
  · rw [← hstate] at hreaches
    cases hexits : exitsBy .technicalsForceSell output.decisions with
    | false => exact .inr (tick_keeps_deadline htick hexits ▸ hreaches)
    | true =>
        have hset := (tick_exitLatches htick hexits).forceSell
        rw [if_pos rfl, show forceSellDeadline (normalizedInput input) =
          some (input.nowMs + forceSellCooldownMs config) by
            subst hconfig
            exact if_pos hpos] at hset
        exact .inr ⟨_, hset, by omega⟩

theorem tick (h : line.Remembers config) (hconfig : input.config = config)
    (hstate : input.state = line.body) (hclock : line.clock ≤ input.nowMs)
    (hallowed : KeepsMemory input) (htick : computeTick input = .ok output) :
    (line.afterTick input output).Remembers config where
  past := by
    intro t ht
    dsimp only [Timeline.afterTick] at ht ⊢
    split at ht
    · rcases List.mem_cons.mp ht with rfl | ht
      · exact le_rfl
      · exact (h.past t ht).trans hclock
    · exact (h.past t ht).trans hclock
  loss := by
    intro t ht
    dsimp only [Timeline.afterTick, Timeline.moved] at ht ⊢
    split at ht
    · next hcloses =>
        rcases List.mem_cons.mp ht with rfl | ht
        · exact .inr ⟨_, tick_stamps_loss htick hallowed.stops hcloses, le_rfl⟩
        · exact h.loss_tick hconfig hstate hclock hallowed.climbs htick ht
    · exact h.loss_tick hconfig hstate hclock hallowed.climbs htick ht
  ahead := by
    intro deadline hmem
    dsimp only [Timeline.afterTick] at hmem ⊢
    have hold (hmem : deadline ∈ line.deadlines) : 0 < forceSellCooldownMs config ∧
        deadline ≤ input.nowMs + forceSellCooldownMs config := by
      obtain ⟨hpos, hahead⟩ := h.ahead deadline hmem
      exact ⟨hpos, by omega⟩
    split at hmem
    · next hexits =>
        rcases List.mem_append.mp hmem with hnew | hmem
        · have hset := (tick_exitLatches htick hexits).forceSell
          rw [if_pos rfl] at hset
          rw [hset, Option.mem_toList, forceSellDeadline] at hnew
          split at hnew
          · next hpos =>
              cases hnew
              subst hconfig
              exact ⟨hpos, le_rfl⟩
          · cases hnew
        · exact hold hmem
    · exact hold hmem
  forceSell := by
    intro deadline hmem
    dsimp only [Timeline.afterTick, Timeline.moved] at hmem ⊢
    split at hmem
    · rcases List.mem_append.mp hmem with hnew | hmem
      · exact .inr ⟨deadline, Option.mem_toList.mp hnew, le_rfl⟩
      · exact h.forceSell_tick hconfig hstate hclock htick hmem
    · exact h.forceSell_tick hconfig hstate hclock htick hmem

theorem step {next : Timeline} (h : line.Remembers config)
    (hstep : TimelineStep config KeepsMemory line next) : next.Remembers config := by
  cases hstep with
  | tick input output config_eq state_eq clock_le allowed tick_eq =>
      exact h.tick config_eq state_eq clock_le allowed tick_eq
  | adopted next writes =>
      exact h.moved (fun _ hr => writes.keepsLatches.lossExit ▸ hr)
        (fun _ hr => writes.keepsLatches.forceSell ▸ hr)
  | adoptedAside body next known writes => exact ⟨h.past, h.loss, h.ahead, h.forceSell⟩
  | merged base known => exact h.moved (fun _ hr => hr.laterMs) (fun _ hr => hr.laterMs)

theorem reached (h : TimelineReached config KeepsMemory line) : line.Remembers config := by
  obtain ⟨body, clock, hrun⟩ := h
  induction hrun with
  | refl => exact ⟨nofun, nofun, nofun, nofun⟩
  | tail _ hstep ih => exact ih.step hstep

theorem waitsFor (h : line.Remembers config) (hconfig : input.config = config)
    (hstate : input.state = line.body) (hclock : line.clock ≤ input.nowMs)
    (htick : computeTick input = .ok output) : WaitsFor line input output where
  loss := by
    intro henters t ht
    rw [not_lt]
    rcases h.loss t ht with hover | hreaches
    · rw [hconfig]
      exact hover.trans hclock
    · rw [← hstate] at hreaches
      exact over_of_not_cooling hreaches (entersFlat_waited htick henters).1
  forceSell := by
    intro henters deadline hmem
    rw [not_lt]
    rcases h.forceSell deadline hmem with hover | ⟨until_, hset, hle⟩
    · exact hover.trans hclock
    · have hwaited : forceSellCooldownActive input.state input.nowMs = false := by
        rcases henters with henters | henters
        · exact (entersFlat_waited htick henters).2
        · exact entersOnTrigger_waited htick henters
      rw [forceSellCooldownActive, hstate, hset, Option.any_some, decide_eq_false_iff_not,
        not_lt] at hwaited
      exact hle.trans hwaited

end Timeline.Remembers

/-- The sample profile with a second rung, and an hour's wait after a loss. -/
def sampleCautious : TTConfig :=
  { sampleConfig with
    buy := { sampleConfig.buy with
      lossCooldownMinutes := 60
      gridLevels := sampleConfig.buy.gridLevels ++
        [{ triggerPercentage := "0.99", stopPricePercentage := "", limitPricePercentage := ""
           minPurchaseAmount := "", maxPurchaseAmount := "100" }] } }

/-- The timeline after a tick that sells on no signal. -/
def Timeline.ticked (line : Timeline) (input : TTInput) (loss : Bool) : Timeline :=
  { line.moved (tickedState input) with
    clock := input.nowMs
    losses := if loss then input.nowMs :: line.losses else line.losses }

theorem timelineStep_ticked {ok : TTInput → Prop} (line : Timeline) (input : TTInput) {loss : Bool}
    (hstate : input.state = line.body) (hclock : line.clock ≤ input.nowMs) (hok : ok input)
    (h : (computeTick input).toOption.map (fun output =>
      (closesAtLoss input output, exitsBy .technicalsForceSell output.decisions)) =
        some (loss, false)) :
    TimelineStep input.config ok line (line.ticked input loss) := by
  obtain ⟨output, htick, hshown⟩ := exists_ok_of_map h
  rw [Prod.mk.injEq] at hshown
  have hstep := TimelineStep.tick input output rfl hstate hclock hok htick
  rw [Timeline.afterTick, hshown.1, hshown.2] at hstep
  rw [Timeline.ticked, tickedState, htick]
  exact hstep

/-- The body after a fill. -/
def adoptedState (state : TTState) (fill : AdoptedFill) : TTState :=
  (applyFill state fill).getD state

theorem timelineStep_adopted (config : TTConfig) {ok : TTInput → Prop} (line : Timeline)
    {fill : AdoptedFill} (h : (applyFill line.body fill).isSome = true) :
    TimelineStep config ok line (line.moved (adoptedState line.body fill)) := by
  obtain ⟨next, hnext⟩ := Option.isSome_iff_exists.mp h
  refine .adopted _ (.inl ⟨fill, ?_⟩)
  rw [adoptedState, hnext]
  rfl

/-- The price has fallen through the stop of the sample position. -/
def sampleStoppedOut : TTInput := sampleInput sampleCautious sampleHeld "80" 1

theorem sampleStoppedOut_keepsMemory : KeepsMemory sampleStoppedOut where
  stops := by
    rintro ⟨lbp, price, stopLoss, hfires, hlt⟩
    have hlbp : lbp = num 100 := Option.some.inj (hfires.lbp_eq.symm.trans (by decide +kernel))
    have hprice : price = num 80 := Option.some.inj (hfires.price_eq.symm.trans (by decide +kernel))
    rw [hlbp, hprice] at hlt
    revert hlt
    decide +kernel
  climbs h := absurd h.cooling (by decide)

/-- An hour after it was stopped out, the profile enters again. -/
def sampleReentry : TTInput :=
  { sampleInput sampleCautious (tickedState sampleStoppedOut) "80" 0 with nowMs := 3601000 }

/-- A buy that was still out fills after the stop, and the price falls to the second rung. -/
def sampleClimb : TTInput :=
  { sampleInput sampleCautious
      (adoptedState (tickedState sampleStoppedOut) (.buy (.raw "100") (.raw "1"))) "98" 1 with
    nowMs := 2000 }

/-- The position is sold off before the rung fills. -/
def sampleForgotten : TTInput :=
  { sampleInput sampleCautious (adoptedState (tickedState sampleClimb) .empty) "98" 0 with
    nowMs := 3000 }

/-- The sample profile with a stop at its cost. -/
def sampleTight : TTConfig :=
  { sampleCautious with sell := { sampleCautious.sell with stopLossPercentage := "1" } }

def sampleStoppedAtCost : TTInput := sampleInput sampleTight sampleHeld "100" 1

def sampleUnremembered : TTInput :=
  { sampleInput sampleTight (tickedState sampleStoppedAtCost) "100" 0 with nowMs := 2000 }

end TradingBot.TrailingTrade
