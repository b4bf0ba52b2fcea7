import TradingBot.Lib.LabelledRun
import TradingBot.Worker.OverrideActions

/-!
# The ticket of an override

One profile and symbol. The operator's intent is a row, a key and, from the
moment a tick has deleted the key, that tick's ticket. Ticks run one at a time
and may die at any point. Every write has a deadline at which its tick stops to
wait for it; it is then still on its way, and lands later or never. The operator
cancels, and two sweeps run, at any time.
-/

namespace TradingBot.Worker

open OverrideActions

/-! ### Ticks -/

/-- The claim of a tick on the row of the override it took. -/
structure OverrideClaim where
  tick : ℕ
  override : Override
  claimAt : ℕ
deriving DecidableEq

/-- The row the claim is on. -/
def OverrideClaim.id (claim : OverrideClaim) : String := claim.override.overrideActionId

inductive ClaimVerdict where
  | won
  | lost
  | unresolved
deriving DecidableEq

structure OverrideTicket where
  claim : OverrideClaim
  ttlMs : Option ℤ
  /-- What the tick knows of its claim; absent while it waits. -/
  verdict : Option ClaimVerdict
  orderAttempted : Bool
  deterministic : Bool

/-- The row the tick holds. -/
def OverrideTicket.id (ticket : OverrideTicket) : String := ticket.claim.id

/-- What a tick finds between taking the override and the executor. -/
structure TickWork where
  decisions : List Decision
  env : TickEnv
  overrideDeferred : Bool
  operatorActions : List String
  declineReason : Option String

namespace TickWork

variable (work : TickWork)

def halt : HaltFilterResult := applyEntryHalts work.env.halts work.decisions

def defer : Bool := (refusalGate work.env work.halt.kept).defer

/-- The tick reaches the executor with an order. -/
def attemptsOrder : Bool := (work.halt.kept.find? isPlacement).isSome && !work.defer

def applied : Except MultiPlacementError (List AppliedDecision) :=
  applyAll work.env.executor work.defer work.halt.kept

/-- The orders of an override that the executor is handed. The refusal circuit withholds the
orders of a whole batch, and a batch of two is refused before anything is sent. -/
def dispatched (id : String) : List Decision :=
  match work.applied with
  | .error _ => []
  | .ok _ => if work.defer then [] else work.halt.kept.filter (isOurs id)

def placedAnOrder (applied : List AppliedDecision) : Bool :=
  applied.any fun a =>
    isPlacement a.decision &&
      (!a.result.isFailed || a.result.failure.any fun failure => !failure.deferred)

def suppressedReason : EntryHaltKind → String
  | .dailyLoss =>
      "Today's loss limit has been reached, so new buys are paused until the next UTC day. " ++
        "Selling and cancelling still work."
  | .lossStreak =>
      "Too many losing exits in a short window, so new buys are paused for the configured " ++
        "pause. Selling and cancelling still work."
  | .drawdown =>
      "Realised drawdown reached your limit, so new buys are paused for the configured pause. " ++
        "Selling and cancelling still work."

/-- What the handler settles an override with once the executor answered. -/
def settleArgs (ticket : OverrideTicket) (applied : List AppliedDecision) (elapsedMs : ℤ) :
    SettleOverrideArgs where
  ttlMs := ticket.ttlMs
  elapsedMs
  deferred := work.overrideDeferred && !placedAnOrder applied
  supported := some (isOverrideKindSupported work.operatorActions ticket.claim.override.kind)
  declineReason := work.declineReason
  orderFate := resolveOverrideOrderFate ticket.id applied work.halt.dropped
    (suppressedReason (work.halt.kinds.head?.getD .dailyLoss))

end TickWork

/-- What a tick that did not get so far settles it with. -/
def OverrideTicket.abortArgs (ticket : OverrideTicket) (elapsedMs : ℤ) : SettleOverrideArgs where
  ttlMs := ticket.ttlMs
  elapsedMs
  deferred := false
  supported := none
  declineReason := none
  orderFate := .aborted ticket.orderAttempted ticket.deterministic
    (ticket.verdict == some .unresolved)

inductive TickPhase where
  | idle
  /-- The key was read and is to be deleted. -/
  | read (override : Override) (ttlMs : Option ℤ)
  | held (ticket : OverrideTicket)
  /-- The claim was won, and the breadcrumb is awaited. -/
  | ready (ticket : OverrideTicket) (work : TickWork)
  | dispatching (ticket : OverrideTicket) (work : TickWork)
  | answered (ticket : OverrideTicket) (work : TickWork) (applied : List AppliedDecision)
  | compensating (ticket : OverrideTicket)
  /-- Nothing speaks against the settlement of the aborted tick. -/
  | cleared (ticket : OverrideTicket)
  /-- The reply to the key's restoration is awaited. -/
  | rearming (ticket : OverrideTicket)

/-! ### The system -/

/-- A write that was sent. -/
inductive OverrideWrite where
  | setKey (override : Override)
  | deleteKey
  | claim (claim : OverrideClaim)
  | release (claim : OverrideClaim)
  | rearm (claim : OverrideClaim)
  | settle (id : String) (outcome : OverrideOutcomeInput)
  | markPickedUp (id : String)

/-- A cancel: the row it found is read before the delete. -/
inductive CancelRequest where
  | read (target : Option String)
  | deleted (target : Option String)
  | evicting

/-- What happened, as far as it is claimed about. -/
inductive OverrideEvent where
  | armed (tick claimAt : ℕ)
  | claimed (tick : ℕ) (id : String)
  | cancelled (id : String)
  | dispatched (tick : ℕ) (id : String)
  | ended (tick : ℕ) (id : String) (result : DecisionResult)
deriving DecidableEq

def overrideClaimStaleMs : ℕ := 10 * 60 * 1000

def overrideOutcomeWindowMs : ℕ := 600000

structure OverrideWorld where
  clock : ℕ
  rows : List OverrideActionRow
  key : Option Override
  issued : List String
  writes : List OverrideWrite
  cancels : List CancelRequest
  ticks : ℕ
  phase : TickPhase
  /-- The last event first. -/
  events : List OverrideEvent

inductive OverrideStep where
  | setClock (now : ℕ)
  | arm (override : Override)
  | cancelRead
  | cancelDelete (index : ℕ)
  | cancelAnswer (index : ℕ)
  | cancelEvict (index : ℕ)
  | readKey (ttlMs : Option ℤ)
  | deleteKey
  | deleteFails
  | verdictTimeout
  | gate (work : TickWork)
  | dispatch
  | answer
  | settle (elapsedMs : ℤ)
  | abort (deterministic : Bool)
  | checkLive (answered : Bool)
  | settleAborted (elapsedMs : ℤ)
  | rearmDeadline
  | land (index : ℕ) (replied : Bool)
  | lose (index : ℕ)
  | crash
  | expireKey
  | sweepClaims
  | sweepPickedUp
  | sweepUntouched

namespace OverrideWorld

def start : OverrideWorld where
  clock := 0
  rows := []
  key := none
  issued := []
  writes := []
  cancels := []
  ticks := 0
  phase := .idle
  events := []

variable (s : OverrideWorld)

/-- Whether a cancel drops the key: no row is active, or the one that is was claimed by a worker
that is taken for dead. -/
def evicts (target : Option String) : Bool :=
  match findActiveForSymbol s.rows with
  | none => true
  | some active =>
      (target == some active.id || active.processingAt.isSome) &&
        active.processingAt.any fun claimAt => decide (overrideClaimStaleMs < s.clock - claimAt)

/-- The tick settles the override, or hands it on: the claim comes off and the key goes back. -/
def settleWith (ticket : OverrideTicket) (args : SettleOverrideArgs) : OverrideWorld :=
  if args.rearms then
    { s with
      phase := .rearming ticket
      writes := s.writes ++ [.release ticket.claim, .rearm ticket.claim] }
  else { s with phase := .idle, writes := s.writes ++ [.settle ticket.id args.outcome] }

/-- The tick that waits for its claim learns of it. -/
def hearVerdict (claim : OverrideClaim) (verdict : ClaimVerdict) : TickPhase → TickPhase
  | .held ticket =>
      if ticket.claim = claim ∧ ticket.verdict = none then
        .held { ticket with verdict := some verdict }
      else .held ticket
  | .compensating ticket =>
      if ticket.claim = claim ∧ ticket.verdict = none then
        .compensating { ticket with verdict := some verdict }
      else .compensating ticket
  | phase => phase

/-- The row the tick holds is the newest that is active. -/
def isLive (id : String) : Bool := (findActiveForSymbol s.rows).any (·.id == id)

def landClaim (claim : OverrideClaim) (replied : Bool) : OverrideWorld :=
  let wins := claims s.rows claim.id
  { s with
    rows := claimAction s.rows claim.id claim.claimAt
    events := if wins then .claimed claim.tick claim.id :: s.events else s.events
    phase := if replied then hearVerdict claim (if wins then .won else .lost) s.phase
      else s.phase }

/-- The key is restored unless a newer override has it, which the tick that waits settles on. -/
def landRearm (claim : OverrideClaim) (replied : Bool) : OverrideWorld :=
  match s.key with
  | none =>
      { s with
        key := some claim.override
        phase := match s.phase with
          | .rearming ticket => if replied ∧ ticket.claim = claim then .idle else .rearming ticket
          | phase => phase }
  | some _ =>
      match s.phase with
      | .rearming ticket =>
          if replied ∧ ticket.claim = claim then
            { s with phase := .idle, writes := s.writes ++ [.settle claim.id ⟨.superseded, none⟩] }
          else s
      | _ => s

def landed (replied : Bool) : OverrideWrite → OverrideWorld
  | .setKey override => { s with key := some override }
  | .deleteKey => { s with key := none }
  | .claim claim => s.landClaim claim replied
  | .release claim => { s with rows := releaseClaim s.rows claim.id claim.claimAt }
  | .rearm claim => s.landRearm claim replied
  | .settle id outcome => { s with rows := OverrideActions.settle s.rows s.clock id outcome }
  | .markPickedUp id => { s with rows := markPickedUp s.rows s.clock id }

def step : OverrideStep → Option OverrideWorld
  | .setClock now => some { s with clock := now }
  | .arm override =>
      if override.overrideActionId ∈ s.issued then none
      else
        some { s with
          rows := record s.rows s.clock override.overrideActionId
          issued := override.overrideActionId :: s.issued
          writes := s.writes ++ [.setKey override] }
  | .cancelRead =>
      some { s with cancels := s.cancels ++ [.read ((findActiveForSymbol s.rows).map (·.id))] }
  | .cancelDelete index =>
      match s.cancels[index]? with
      | some (.read target) =>
          some { s with
            rows := deletePendingForSymbol s.rows
            cancels := s.cancels.set index (.deleted target)
            events := (deletedIds s.rows).map .cancelled ++ s.events }
      | _ => none
  | .cancelAnswer index =>
      match s.cancels[index]? with
      | some (.deleted target) =>
          some { s with
            cancels := if s.evicts target then s.cancels.set index .evicting
              else s.cancels.eraseIdx index }
      | _ => none
  | .cancelEvict index =>
      match s.cancels[index]? with
      | some .evicting => some { s with key := none, cancels := s.cancels.eraseIdx index }
      | _ => none
  | .readKey ttlMs =>
      match s.phase, s.key with
      | .idle, some override => some { s with phase := .read override ttlMs }
      | _, _ => none
  | .deleteKey =>
      match s.phase with
      | .read override ttlMs =>
          let claim : OverrideClaim := ⟨s.ticks, override, s.clock⟩
          some { s with
            key := none
            ticks := s.ticks + 1
            phase := .held ⟨claim, ttlMs, none, false, false⟩
            writes := s.writes ++ [.claim claim]
            events := .armed s.ticks s.clock :: s.events }
      | _ => none
  | .deleteFails =>
      match s.phase with
      | .read _ _ => some { s with phase := .idle, writes := s.writes ++ [.deleteKey] }
      | _ => none
  | .verdictTimeout =>
      match s.phase with
      | .held ticket =>
          if ticket.verdict = none then
            some { s with phase := .held { ticket with verdict := some .unresolved } }
          else none
      | .compensating ticket =>
          if ticket.verdict = none then
            some { s with phase := .compensating { ticket with verdict := some .unresolved } }
          else none
      | _ => none
  | .gate work =>
      match s.phase with
      | .held ticket =>
          match ticket.verdict with
          | none => none
          | some .won =>
              some { s with
                phase := .ready { ticket with orderAttempted := work.attemptsOrder } work
                writes := if work.attemptsOrder then s.writes ++ [.markPickedUp ticket.id]
                  else s.writes }
          | some _ => some { s with phase := .compensating ticket }
      | _ => none
  | .dispatch =>
      match s.phase with
      | .ready ticket work =>
          some { s with
            phase := .dispatching ticket work
            events := (work.dispatched ticket.id).map
              (fun _ => .dispatched ticket.claim.tick ticket.id) ++ s.events }
      | _ => none
  | .answer =>
      match s.phase with
      | .dispatching ticket work =>
          match work.applied with
          | .error _ => none
          | .ok applied =>
              some { s with
                phase := .answered ticket work applied
                events := (applied.filter fun a => isOurs ticket.id a.decision).map
                  (fun a => .ended ticket.claim.tick ticket.id a.result) ++ s.events }
      | _ => none
  | .settle elapsedMs =>
      match s.phase with
      | .answered ticket work applied =>
          some (s.settleWith ticket (work.settleArgs ticket applied elapsedMs))
      | _ => none
  | .abort deterministic =>
      match s.phase with
      | .read _ _ => some { s with phase := .idle }
      | .held ticket => some { s with phase := .compensating { ticket with deterministic } }
      | .ready ticket _ => some { s with phase := .compensating ticket }
      | .dispatching ticket _ => some { s with phase := .compensating ticket }
      | .answered ticket _ _ => some { s with phase := .compensating ticket }
      | _ => none
  | .checkLive answered =>
      match s.phase with
      | .compensating ticket =>
          if ticket.verdict = none then none
          else if ticket.orderAttempted || answered && s.isLive ticket.id then
            some { s with phase := .cleared ticket }
          else some { s with phase := .idle }
      | _ => none
  | .settleAborted elapsedMs =>
      match s.phase with
      | .cleared ticket => some (s.settleWith ticket (ticket.abortArgs elapsedMs))
      | _ => none
  | .rearmDeadline =>
      match s.phase with
      | .rearming _ => some { s with phase := .idle }
      | _ => none
  | .land index replied =>
      s.writes[index]?.map fun write =>
        { s with writes := s.writes.eraseIdx index }.landed replied write
  | .lose index => s.writes[index]?.map fun _ => { s with writes := s.writes.eraseIdx index }
  | .crash => some { s with phase := .idle }
  | .expireKey => some { s with key := none }
  | .sweepClaims =>
      some { s with rows := reapStaleProcessing s.rows (s.clock - overrideClaimStaleMs) }
  | .sweepPickedUp =>
      some { s with rows := reapPickedUp s.rows s.clock (s.clock - overrideOutcomeWindowMs) }
  | .sweepUntouched =>
      some { s with rows := reapUntouched s.rows s.clock (s.clock - overrideOutcomeWindowMs) }

end OverrideWorld

end TradingBot.Worker
