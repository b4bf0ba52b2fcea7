import TradingBot.Worker.TickCommit

/-!
# How an override is settled

A tick that took an operator's override either settles it with the outcome the
operator got, or hands it to the next tick. It is handed on where nothing of it
can have executed and a retry can help: the strategy deferred it, its order
failed before it reached the book, or the tick died with nothing dispatched.
-/

namespace TradingBot.Worker

inductive OverrideOutcomeStatus where
  | applied
  | rejected
  | unknown
  | superseded
  | expired

structure OverrideOutcomeInput where
  status : OverrideOutcomeStatus
  reason : Option String

def OverrideKind.text : OverrideKind → String
  | .manualOrder _ => "manual-order"
  | .triggerBuy => "trigger-buy"
  | .triggerSell => "trigger-sell"

def isOverrideKindSupported (operatorActions : List String) (kind : OverrideKind) : Bool :=
  operatorActions.contains (OverrideKind.text kind)

/-- The result of a decision that failed. -/
structure DecisionFailure where
  retryable : Bool
  phase : DecisionPhase
  deferred : Bool
  reason : String
deriving DecidableEq

def DecisionResult.failure : DecisionResult → Option DecisionFailure
  | .ok => none
  | .failed retryable phase deferred reason => some ⟨retryable, phase, deferred, reason⟩

/-- What became of the orders a tick emitted for its override. -/
inductive OverrideOrderFate where
  | none
  | placed (reason : Option String)
  | failed (result : DecisionFailure)
  | suppressed (reason : String)
  | aborted (dispatched deterministic claimUnresolved : Bool)
deriving DecidableEq

/-- Sent again it cannot double, and it may get through. -/
def isOrderRetriable (result : DecisionFailure) : Bool :=
  (result.phase == .preCall || result.phase == .rejected) && result.retryable

def outcomeOfFailure (result : DecisionFailure) : OverrideOutcomeInput :=
  match result.phase with
  | .ambiguous => ⟨.unknown, some result.reason⟩
  | .accepted => ⟨.applied, some result.reason⟩
  | _ => ⟨.rejected, some result.reason⟩

/-- An order is the override's by its id and nothing else. -/
def isOurs (overrideActionId : String) (d : Decision) : Bool :=
  isPlacement d && d.order.any (·.1.overrideActionId == some overrideActionId)

def resolveOverrideOrderFate (overrideActionId : String) (applied : List AppliedDecision)
    (suppressed : List Decision) (suppressedReason : String) : OverrideOrderFate :=
  if suppressed.any (isOurs overrideActionId) then .suppressed suppressedReason
  else
    let ours := applied.filter fun a => isOurs overrideActionId a.decision
    if ours.isEmpty then .none
    else
      match (ours.filterMap (·.result.failure)).head? with
      | none => .placed none
      | some failure =>
          if ours.any fun a => !a.result.isFailed then
            .placed (some ("a sibling order for this override failed: " ++ failure.reason))
          else .failed failure

/-- What the settlement of an override reads. -/
structure SettleOverrideArgs where
  ttlMs : Option ℤ
  elapsedMs : ℤ
  deferred : Bool
  supported : Option Bool
  declineReason : Option String
  orderFate : OverrideOrderFate

namespace SettleOverrideArgs

variable (args : SettleOverrideArgs)

/-- What is left of the operator's window. -/
def remainingMs : ℤ := args.ttlMs.getD 0 - args.elapsedMs

def strategyDeferred : Bool :=
  args.orderFate == .none && args.deferred && args.supported == some true

def orderRetriable : Bool :=
  match args.orderFate with
  | .failed result => isOrderRetriable result
  | _ => false

def abortedUndispatched : Bool :=
  match args.orderFate with
  | .aborted dispatched deterministic claimUnresolved =>
      !dispatched && !deterministic && !claimUnresolved
  | _ => false

/-- The override goes to the next tick. -/
def rearms : Bool :=
  (args.strategyDeferred || args.orderRetriable || args.abortedUndispatched) &&
    decide (0 < args.remainingMs)

/-- Why a strategy that emitted no order did not act. -/
def declined : String :=
  match args.declineReason with
  | some reason => reason
  | none =>
      if args.supported == some false then "this strategy does not support this action"
      else "the strategy did not act on this override"

/-- The outcome of an override that is not handed on. -/
def outcome : OverrideOutcomeInput :=
  match args.orderFate with
  | .aborted true _ _ =>
      ⟨.unknown, some "the tick failed while dispatching this override; check the exchange"⟩
  | .aborted false _ true =>
      ⟨.rejected,
        some "the bot could not confirm it owned this override; nothing was run, re-issue it"⟩
  | .aborted false true false =>
      ⟨.rejected,
        some "the strategy failed on the tick carrying this override; nothing was run"⟩
  | .aborted false false false =>
      ⟨.expired,
        some "a tick consumed this override and failed before it could be dispatched"⟩
  | .suppressed reason => ⟨.rejected, some reason⟩
  | .placed reason => ⟨.applied, reason⟩
  | .failed result => outcomeOfFailure result
  | .none => ⟨.rejected, some args.declined⟩

end SettleOverrideArgs

/-! ### What handing on takes -/

theorem unexecuted_of_retriable {result : DecisionResult} {failure : DecisionFailure}
    (hfailure : result.failure = some failure) (h : isOrderRetriable failure = true) :
    result.unexecuted = true := by
  cases result with
  | ok => cases hfailure
  | failed retryable phase deferred reason =>
      obtain rfl := Option.some.inj hfailure
      exact (Bool.and_eq_true_iff.mp h).1

/-- An override that is handed on emitted no order, or its order failed without executing, or its
tick died before it dispatched. -/
theorem SettleOverrideArgs.fate_of_rearms {args : SettleOverrideArgs} (h : args.rearms = true) :
    args.orderFate = .none ∨
      (∃ failure, args.orderFate = .failed failure ∧ isOrderRetriable failure = true) ∨
      ∃ deterministic claimUnresolved,
        args.orderFate = .aborted false deterministic claimUnresolved := by
  obtain ⟨hcause, -⟩ := Bool.and_eq_true_iff.mp h
  rw [Bool.or_eq_true, Bool.or_eq_true] at hcause
  rcases hcause with (hdeferred | hretriable) | haborted
  · simp only [strategyDeferred, Bool.and_eq_true, beq_iff_eq] at hdeferred
    exact .inl hdeferred.1.1
  · refine .inr (.inl ?_)
    rw [orderRetriable] at hretriable
    split at hretriable
    · next failure hfate => exact ⟨failure, hfate, hretriable⟩
    · cases hretriable
  · refine .inr (.inr ?_)
    rw [abortedUndispatched] at haborted
    split at haborted
    · next dispatched deterministic claimUnresolved hfate =>
        simp only [Bool.and_eq_true, Bool.not_eq_true'] at haborted
        obtain ⟨⟨rfl, -⟩, -⟩ := haborted
        exact ⟨deterministic, claimUnresolved, hfate⟩
    · cases haborted

section Fate

variable {overrideActionId : String} {applied : List AppliedDecision} {suppressed : List Decision}
  {suppressedReason : String}

theorem ours_eq_nil_of_fate_none
    (h : resolveOverrideOrderFate overrideActionId applied suppressed suppressedReason = .none) :
    applied.filter (fun a => isOurs overrideActionId a.decision) = [] := by
  rw [resolveOverrideOrderFate] at h
  split at h
  · cases h
  · dsimp only at h
    split at h
    · next hempty => exact List.isEmpty_iff.mp hempty
    · split at h
      · cases h
      · split at h
        · cases h
        · cases h

/-- Only a tick that died reports that it did. -/
theorem fate_ne_aborted {dispatched deterministic claimUnresolved : Bool} :
    resolveOverrideOrderFate overrideActionId applied suppressed suppressedReason ≠
      .aborted dispatched deterministic claimUnresolved := by
  rw [resolveOverrideOrderFate]
  split
  · nofun
  · dsimp only
    split
    · nofun
    · split
      · nofun
      · split
        · nofun
        · nofun

theorem exists_ours_of_fate_failed {failure : DecisionFailure}
    (h : resolveOverrideOrderFate overrideActionId applied suppressed suppressedReason =
      .failed failure) :
    ∃ a ∈ applied.filter (fun a => isOurs overrideActionId a.decision),
      a.result.failure = some failure := by
  rw [resolveOverrideOrderFate] at h
  split at h
  · cases h
  · dsimp only at h
    split at h
    · cases h
    · split at h
      · cases h
      · next found hfound =>
          split at h
          · cases h
          · cases h
            obtain ⟨a, hours, hresult⟩ := List.mem_filterMap.mp (List.mem_of_head? hfound)
            exact ⟨a, hours, hresult⟩

end Fate

end TradingBot.Worker
