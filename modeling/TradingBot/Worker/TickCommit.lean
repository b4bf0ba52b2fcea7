import TradingBot.Lib.LabelledRun
import TradingBot.TrailingTrade.FlatGrid
import TradingBot.Worker.OrderHandlers
import TradingBot.Worker.OrderRefusal

/-!
# What a tick commits

Between a strategy's answer and the commit of the state it computed, five
mechanisms can keep its order off the exchange: an entry breaker drops it, the
refusal circuit withholds it, the order budget sheds it, a failed cancel ahead
of it skips it, and the exchange refuses it. The handlers of single decisions
are the executor's answers, one for each position of the batch.
-/

namespace TradingBot.Worker

/-! ### Entry breakers -/

inductive EntryHaltKind where
  | dailyLoss
  | lossStreak
  | drawdown
deriving DecidableEq

def entryHaltKinds : List EntryHaltKind := [.dailyLoss, .lossStreak, .drawdown]

/-- The two reads of the breaker flags: how many are set, then each of them. Either can fail. -/
structure HaltReads where
  probe : Except String ℕ
  flags : Except String (EntryHaltKind → ℕ)

structure HaltFilterResult where
  kept : List Decision
  dropped : List Decision
  kinds : List EntryHaltKind

def isBuyPlacement : Decision → Bool
  | .placeOrder intent _ => intent.side == .buy
  | .replaceOrder _ _ intent _ => intent.side == .buy
  | _ => false

/-- The breakers a tick finds active. A failed read finds none. -/
def HaltReads.kinds (reads : HaltReads) : List EntryHaltKind :=
  match reads.probe, reads.flags with
  | .ok count, .ok flags =>
      if count = 0 then [] else entryHaltKinds.filter fun kind => decide (0 < flags kind)
  | _, _ => []

def suppressBuyEntries (decisions : List Decision) : List Decision × List Decision :=
  (decisions.filter fun d => !isBuyPlacement d, decisions.filter isBuyPlacement)

def applyEntryHalts (reads : HaltReads) (decisions : List Decision) : HaltFilterResult :=
  if reads.kinds.isEmpty then { kept := decisions, dropped := [], kinds := [] }
  else
    let filtered := suppressBuyEntries decisions
    { kept := filtered.1, dropped := filtered.2, kinds := reads.kinds }

/-! ### The executor -/

def skipped : DecisionResult :=
  .failed true .preCall false "skipped: an earlier order in this tick failed"

def deferred : DecisionResult :=
  .failed true .preCall true
    "deferred: no Binance order-rate headroom; the resting order still protects the position"

def repeatedRefusalDeferred : DecisionResult :=
  .failed true .preCall true
    ("deferred: Binance rejected this exact order three times; " ++
      "the bot probes it once per minute")

def isOrder : Decision → Bool
  | .placeOrder _ _ => true
  | .cancelOrder _ _ _ => true
  | .replaceOrder _ _ _ _ => true
  | _ => false

structure AppliedDecision where
  decision : Decision
  result : DecisionResult

structure MultiPlacementError where
  placements : ℕ

/-- What the handlers answer to each decision of the batch, and whether the order budget has
headroom, where the account has one. -/
structure Executor where
  answers : ℕ → Decision → DecisionResult
  hasHeadroom : Option Bool

def DecisionResult.isFailed : DecisionResult → Bool
  | .ok => false
  | .failed _ _ _ _ => true

section Executor

variable (executor : Executor)

def applyTick (index : ℕ) : Decision → DecisionResult
  | .noop => .ok
  | d => executor.answers index d

/-- The batch from `index` on: what is withheld, shed, skipped or attempted, in this order. A failed
attempt of an order breaks the chain. -/
def applyFrom (refusalDeferredFrom : Option ℕ) (shed : Bool) :
    ℕ → Bool → List Decision → List AppliedDecision
  | _, _, [] => []
  | index, broken, d :: rest =>
      if refusalDeferredFrom.any (· ≤ index) then
        ⟨d, repeatedRefusalDeferred⟩ :: applyFrom refusalDeferredFrom shed (index + 1) broken rest
      else if shed && isOrder d then
        ⟨d, deferred⟩ :: applyFrom refusalDeferredFrom shed (index + 1) broken rest
      else if broken then
        ⟨d, skipped⟩ :: applyFrom refusalDeferredFrom shed (index + 1) broken rest
      else
        let result := applyTick executor index d
        ⟨d, result⟩ ::
          applyFrom refusalDeferredFrom shed (index + 1) (result.isFailed && isOrder d) rest

/-- A placement that may be shed is, when the budget has no room for it. -/
def shedsBatch (decisions : List Decision) : Bool :=
  (decisions.find? isPlacement).any (fun d => d.order.any (·.1.deferrable)) &&
    executor.hasHeadroom == some false

def applyAll (deferRepeatedRefusal : Bool) (decisions : List Decision) :
    Except MultiPlacementError (List AppliedDecision) :=
  let placements := (decisions.filter isPlacement).length
  if 1 < placements then .error ⟨placements⟩
  else
    let refusalDeferredFrom :=
      if deferRepeatedRefusal then decisions.findIdx? isOrder else none
    let shed := refusalDeferredFrom.isNone && shedsBatch executor decisions
    .ok (applyFrom executor refusalDeferredFrom shed 0 false decisions)

end Executor

/-! ### The commit -/

/-- Everything a tick reads once its strategy has answered. A refusal state that could not be read
is absent; one that is not there is null. -/
structure TickEnv where
  halts : HaltReads
  refusalState : Option (Option OrderRefusalState)
  nowMs : ℤ
  executor : Executor

structure Settled (State : Type) where
  applied : List AppliedDecision
  committed : Option State

def refusalGate (env : TickEnv) (kept : List Decision) : RefusalGate :=
  match env.refusalState, kept.find? isPlacement with
  | some state, some decision => orderRefusalGate state decision env.nowMs
  | _, _ => ⟨false, false⟩

/-- The order provably never executed: before the call, or refused by the exchange. -/
def DecisionResult.unexecuted : DecisionResult → Bool
  | .failed _ phase _ _ => phase == .preCall || phase == .rejected
  | .ok => false

def failedPlacement (applied : List AppliedDecision) : Option AppliedDecision :=
  applied.find? fun a => isPlacement a.decision && a.result.isFailed

def orderDidNotExecute (applied : List AppliedDecision) : Bool :=
  (failedPlacement applied).any fun a => a.result.unexecuted

/-- The tick handler from the strategy's answer to the commit. -/
def settleTick {State : Type} (output : TickOutput State) (env : TickEnv) :
    Except MultiPlacementError (Settled State) := do
  let halt := applyEntryHalts env.halts output.decisions
  let applied ← applyAll env.executor (refusalGate env halt.kept).defer halt.kept
  return { applied
           committed := if orderDidNotExecute applied then none else some output.nextState }

/-! ### What became of the order -/

/-- What became of the order a strategy's answer rests on. -/
inductive PlacementFate where
  | nothing
  | dropped
  | withheld
  | shed
  | skipped
  | attempted (result : DecisionResult)
deriving DecidableEq

/-- There was no order, or it may be on the exchange. -/
def PlacementFate.mayHaveLanded : PlacementFate → Bool
  | nothing => true
  | attempted result => !result.unexecuted
  | _ => false

/-- One of the orders attempted ahead of the placement failed. -/
def earlierOrderFailed (executor : Executor) (before : List Decision) : Bool :=
  before.zipIdx.any fun p => isOrder p.1 && (applyTick executor p.2 p.1).isFailed

/-- What becomes of a placement the breakers let through. -/
def keptFate (env : TickEnv) (kept : List Decision) (d : Decision) : PlacementFate :=
  let index := kept.findIdx isPlacement
  if (refusalGate env kept).defer then .withheld
  else if shedsBatch env.executor kept then .shed
  else if earlierOrderFailed env.executor (kept.take index) then .skipped
  else .attempted (applyTick env.executor index d)

def placementFate (decisions : List Decision) (env : TickEnv) : PlacementFate :=
  let kept := (applyEntryHalts env.halts decisions).kept
  match decisions.find? isPlacement, kept.find? isPlacement with
  | none, _ => .nothing
  | some _, none => .dropped
  | some _, some d => keptFate env kept d

/-- A breaker is active, and the strategy answers with a buy. -/
structure BuyHalted (decisions : List Decision) (env : TickEnv) : Prop where
  active : env.halts.kinds ≠ []
  buys : decisions.any isBuyPlacement = true

/-! ### The batch, seen from its placement -/

theorem isOrder_of_isPlacement {d : Decision} (h : isPlacement d = true) : isOrder d = true := by
  cases d with
  | placeOrder => rfl
  | replaceOrder => rfl
  | noop => cases h
  | cancelOrder => cases h
  | emitEvent => cases h
  | setKv => cases h
  | deleteKv => cases h

theorem isPlacement_of_isBuyPlacement {d : Decision} (h : isBuyPlacement d = true) :
    isPlacement d = true := by
  cases d with
  | placeOrder => rfl
  | replaceOrder => rfl
  | noop => cases h
  | cancelOrder => cases h
  | emitEvent => cases h
  | setKv => cases h
  | deleteKv => cases h

section Batch

variable (executor : Executor) (refusalDeferredFrom : Option ℕ) (shed : Bool)

/-- What is done with one decision of a batch. -/
def treatment (index : ℕ) (broken : Bool) (d : Decision) : DecisionResult :=
  if refusalDeferredFrom.any (· ≤ index) then repeatedRefusalDeferred
  else if shed && isOrder d then deferred
  else if broken then skipped
  else applyTick executor index d

/-- Whether the chain is broken behind it. -/
def brokenBehind (index : ℕ) (broken : Bool) (d : Decision) : Bool :=
  broken || !refusalDeferredFrom.any (· ≤ index) && !shed && isOrder d &&
    (applyTick executor index d).isFailed

theorem applyFrom_cons (index : ℕ) (broken : Bool) (d : Decision) (rest : List Decision) :
    applyFrom executor refusalDeferredFrom shed index broken (d :: rest) =
      ⟨d, treatment executor refusalDeferredFrom shed index broken d⟩ ::
        applyFrom executor refusalDeferredFrom shed (index + 1)
          (brokenBehind executor refusalDeferredFrom shed index broken d) rest := by
  rw [applyFrom, treatment, brokenBehind]
  by_cases hwithheld : refusalDeferredFrom.any (· ≤ index) = true
  · simp [hwithheld]
  · by_cases hshed : (shed && isOrder d) = true
    · obtain ⟨rfl, horder⟩ := Bool.and_eq_true_iff.mp hshed
      simp [hwithheld, horder]
    · by_cases hbroken : broken = true
      · simp [hwithheld, hshed, hbroken]
      · have hbreaks : ((applyTick executor index d).isFailed && isOrder d) =
            (!shed && isOrder d && (applyTick executor index d).isFailed) := by
          cases shed with
          | false => rw [Bool.not_false, Bool.true_and, Bool.and_comm]
          | true =>
              have horder : isOrder d = false := by simpa using hshed
              simp [horder]
        simp [hwithheld, hshed, hbroken, hbreaks]

variable {executor refusalDeferredFrom shed}

theorem failedPlacement_of_quiet {decisions : List Decision}
    (hquiet : ∀ d ∈ decisions, isPlacement d = false) (index : ℕ) (broken : Bool) :
    failedPlacement (applyFrom executor refusalDeferredFrom shed index broken decisions) =
      none := by
  induction decisions generalizing index broken with
  | nil => rfl
  | cons d rest ih =>
      rw [applyFrom_cons, failedPlacement, List.find?_cons_of_neg]
      · exact ih (fun d' hd' => hquiet d' (List.mem_cons_of_mem _ hd')) _ _
      · simp [hquiet d (List.mem_cons_self ..)]

/-- Ahead of the placement a batch only decides whether the chain is broken. -/
theorem failedPlacement_append {before rest : List Decision}
    (hquiet : ∀ d ∈ before, isPlacement d = false) (index : ℕ) (broken : Bool) :
    ∃ broken', failedPlacement
        (applyFrom executor refusalDeferredFrom shed index broken (before ++ rest)) =
      failedPlacement
        (applyFrom executor refusalDeferredFrom shed (index + before.length) broken' rest) ∧
      (refusalDeferredFrom = none → shed = false →
        broken' = (broken || (before.zipIdx index).any fun p =>
          isOrder p.1 && (applyTick executor p.2 p.1).isFailed)) := by
  induction before generalizing index broken with
  | nil => exact ⟨broken, rfl, fun _ _ => (Bool.or_false broken).symm⟩
  | cons d before ih =>
      obtain ⟨broken', hfound, hbroken⟩ :=
        ih (fun d' hd' => hquiet d' (List.mem_cons_of_mem _ hd')) (index + 1)
          (brokenBehind executor refusalDeferredFrom shed index broken d)
      refine ⟨broken', ?_, fun hnone hunshed => ?_⟩
      · rw [List.cons_append, applyFrom_cons, failedPlacement, List.find?_cons_of_neg]
        · rw [← failedPlacement, hfound, List.length_cons, Nat.add_right_comm, Nat.add_assoc]
        · simp [hquiet d (List.mem_cons_self ..)]
      · rw [hbroken hnone hunshed, brokenBehind, hnone, hunshed, List.zipIdx_cons, List.any_cons]
        simp [Bool.or_assoc]

theorem failedPlacement_placed {d : Decision} {after : List Decision}
    (hplaced : isPlacement d = true)
    (hquiet : ∀ d' ∈ after, isPlacement d' = false) (index : ℕ) (broken : Bool) :
    orderDidNotExecute
        (applyFrom executor refusalDeferredFrom shed index broken (d :: after)) =
      (treatment executor refusalDeferredFrom shed index broken d).unexecuted := by
  rw [applyFrom_cons, orderDidNotExecute, failedPlacement]
  cases hresult : treatment executor refusalDeferredFrom shed index broken d with
  | ok =>
      rw [List.find?_cons_of_neg (by simp [DecisionResult.isFailed]), ← failedPlacement,
        failedPlacement_of_quiet hquiet]
      rfl
  | failed retryable phase deferred reason =>
      rw [List.find?_cons_of_pos (by simp [hplaced, DecisionResult.isFailed])]
      rfl

end Batch

/-! ### The commit, seen from the order -/

section Commit

variable {kept decisions : List Decision} {env : TickEnv} {d : Decision}

/-- The only placement of a batch, with what stands ahead of it and behind it. -/
theorem exists_split_of_placed (hone : (kept.filter isPlacement).length ≤ 1)
    (hfound : kept.find? isPlacement = some d) :
    ∃ before after, kept = before ++ d :: after ∧ isPlacement d = true ∧
      (∀ d' ∈ before, isPlacement d' = false) ∧ (∀ d' ∈ after, isPlacement d' = false) := by
  obtain ⟨hplaced, before, after, rfl, hbefore⟩ := List.find?_eq_some_iff_append.mp hfound
  refine ⟨before, after, rfl, hplaced, fun d' hd' => by simpa using hbefore d' hd', ?_⟩
  intro d' hd'
  by_contra hd
  rw [List.filter_append, List.filter_cons_of_pos hplaced, List.length_append,
    List.length_cons] at hone
  have hmem := List.length_pos_of_mem
    (List.mem_filter.mpr ⟨hd', Bool.eq_true_of_not_eq_false hd⟩)
  omega

theorem eq_of_isPlacement {d' : Decision} (hone : (kept.filter isPlacement).length ≤ 1)
    (hfound : kept.find? isPlacement = some d) (hmem : d' ∈ kept)
    (hplaced : isPlacement d' = true) :
    d' = d := by
  obtain ⟨before, after, rfl, -, hbefore, hafter⟩ := exists_split_of_placed hone hfound
  rcases List.mem_append.mp hmem with hmem | hmem
  · cases (hbefore d' hmem).symm.trans hplaced
  · rcases List.mem_cons.mp hmem with heq | hmem
    · exact heq
    · cases (hafter d' hmem).symm.trans hplaced

/-- What became of the placement is what is done with it behind the decisions ahead of it. -/
theorem orderDidNotExecute_split {executor : Executor}
    {refusalDeferredFrom : Option ℕ} {shed : Bool}
    {before after : List Decision} (hplaced : isPlacement d = true)
    (hbefore : ∀ d' ∈ before, isPlacement d' = false)
    (hafter : ∀ d' ∈ after, isPlacement d' = false) :
    ∃ broken, orderDidNotExecute
        (applyFrom executor refusalDeferredFrom shed 0 false (before ++ d :: after)) =
      (treatment executor refusalDeferredFrom shed before.length broken d).unexecuted ∧
      (refusalDeferredFrom = none → shed = false →
        broken = earlierOrderFailed executor before) := by
  obtain ⟨broken, hfound, hbroken⟩ :=
    @failedPlacement_append executor refusalDeferredFrom shed before (d :: after) hbefore 0 false
  refine ⟨broken, ?_, fun hnone hunshed => ?_⟩
  · rw [orderDidNotExecute, hfound, Nat.zero_add, ← orderDidNotExecute,
      failedPlacement_placed hplaced hafter]
  · rw [hbroken hnone hunshed, Bool.false_or]
    rfl

/-- The circuit withholds the batch from its first order on, and so its placement. -/
theorem findIdx?_isOrder_le (hfound : kept.find? isPlacement = some d) :
    (kept.findIdx? isOrder).any (· ≤ kept.findIdx isPlacement) = true := by
  have hle : kept.findIdx isOrder ≤ kept.findIdx isPlacement :=
    List.findIdx_le_findIdx fun _ _ h => isOrder_of_isPlacement h
  have hlt : kept.findIdx isPlacement < kept.length := by
    rw [List.findIdx_lt_length]
    exact ⟨d, List.mem_of_find?_eq_some hfound, List.find?_some hfound⟩
  rw [List.findIdx?_eq_guard_findIdx_lt, Option.guard_pos (by simpa using hle.trans_lt hlt)]
  simpa using hle

/-- The placement of a batch executes exactly when its fate says that it may have. -/
theorem applyAll_placed (hone : (kept.filter isPlacement).length ≤ 1)
    (hfound : kept.find? isPlacement = some d) :
    ∃ applied, applyAll env.executor (refusalGate env kept).defer kept = .ok applied ∧
      orderDidNotExecute applied = !(keptFate env kept d).mayHaveLanded := by
  obtain ⟨before, after, hkept, hplaced, hbefore, hafter⟩ := exists_split_of_placed hone hfound
  have hindex : kept.findIdx isPlacement = before.length := by
    rw [hkept, List.findIdx_append, List.findIdx_eq_length_of_false (by simpa using hbefore)]
    simp [List.findIdx_cons, hplaced]
  have htake : kept.take before.length = before := by rw [hkept, List.take_left']; rfl
  refine ⟨_, if_neg (by omega), ?_⟩
  unfold keptFate
  dsimp only
  rw [hindex, htake]
  by_cases hdefer : (refusalGate env kept).defer = true
  · -- withheld
    have hfrom := findIdx?_isOrder_le hfound
    rw [hindex] at hfrom
    rw [if_pos hdefer, if_pos hdefer]
    obtain ⟨broken, hexecuted, -⟩ := @orderDidNotExecute_split d env.executor
      (kept.findIdx? isOrder) ((kept.findIdx? isOrder).isNone && shedsBatch env.executor kept)
      before after hplaced hbefore hafter
    rw [← hkept] at hexecuted
    rw [hexecuted, treatment, if_pos hfrom]
    rfl
  · rw [if_neg hdefer, if_neg hdefer]
    obtain ⟨broken, hexecuted, hbroken⟩ := @orderDidNotExecute_split d env.executor
      none (shedsBatch env.executor kept) before after hplaced hbefore hafter
    rw [← hkept] at hexecuted
    rw [Option.isNone_none, Bool.true_and, hexecuted, treatment, Option.any_none,
      if_neg Bool.false_ne_true]
    by_cases hshed : shedsBatch env.executor kept = true
    · rw [if_pos hshed, hshed, isOrder_of_isPlacement hplaced]
      rfl
    · rw [if_neg hshed, hbroken rfl (Bool.eq_false_iff.mpr hshed), Bool.eq_false_iff.mpr hshed,
        Bool.false_and, if_neg Bool.false_ne_true]
      split
      · rfl
      · exact (Bool.not_not _).symm

/-- A batch without a placement executes, as far as the commit is concerned. -/
theorem applyAll_quiet (hfound : kept.find? isPlacement = none) (defer : Bool) :
    ∃ applied, applyAll env.executor defer kept = .ok applied ∧
      orderDidNotExecute applied = false := by
  have hquiet : ∀ d ∈ kept, isPlacement d = false := by
    intro d hd
    exact Bool.eq_false_iff.mpr (List.find?_eq_none.mp hfound d hd)
  have hnone : kept.filter isPlacement = [] := by
    rw [List.filter_eq_nil_iff]
    exact List.find?_eq_none.mp hfound
  refine ⟨_, if_neg (by rw [hnone]; decide), ?_⟩
  rw [orderDidNotExecute, failedPlacement_of_quiet hquiet]
  rfl

theorem kept_sublist (reads : HaltReads) (decisions : List Decision) :
    (applyEntryHalts reads decisions).kept.Sublist decisions := by
  unfold applyEntryHalts
  split
  · exact .refl _
  · exact List.filter_sublist

theorem placementFate_of_kept
    (hfound : (applyEntryHalts env.halts decisions).kept.find? isPlacement = some d) :
    placementFate decisions env = keptFate env (applyEntryHalts env.halts decisions).kept d := by
  unfold placementFate
  dsimp only
  split
  · next hnone =>
      have hmem := (kept_sublist env.halts decisions).subset (List.mem_of_find?_eq_some hfound)
      exact absurd (List.find?_some hfound) (List.find?_eq_none.mp hnone d hmem)
  · next hnone =>
      rw [hfound] at hnone
      cases hnone
  · next d' hfound' =>
      rw [hfound] at hfound'
      cases hfound'
      rfl

theorem placementFate_of_quiet
    (hfound : (applyEntryHalts env.halts decisions).kept.find? isPlacement = none) :
    (placementFate decisions env).mayHaveLanded = true ∨
      placementFate decisions env = .dropped := by
  unfold placementFate
  dsimp only
  rw [hfound]
  cases decisions.find? isPlacement with
  | none => exact .inl rfl
  | some _ => exact .inr rfl

theorem keptFate_ne_dropped (env : TickEnv) (kept : List Decision) (d : Decision) :
    keptFate env kept d ≠ .dropped := by
  unfold keptFate
  dsimp only
  split
  · exact PlacementFate.noConfusion
  · split
    · exact PlacementFate.noConfusion
    · split
      · exact PlacementFate.noConfusion
      · exact PlacementFate.noConfusion

theorem settleTick_committed {State : Type} (output : TickOutput State)
    (hone : (output.decisions.filter isPlacement).length ≤ 1) :
    ∃ settled, settleTick output env = .ok settled ∧
      settled.committed =
        if (placementFate output.decisions env).mayHaveLanded = true ∨
          placementFate output.decisions env = .dropped then some output.nextState else none := by
  have hkept : ((applyEntryHalts env.halts output.decisions).kept.filter isPlacement).length ≤ 1 :=
    ((kept_sublist env.halts output.decisions).filter isPlacement).length_le.trans hone
  cases hfound : (applyEntryHalts env.halts output.decisions).kept.find? isPlacement with
  | none =>
      obtain ⟨applied, happlied, hexecuted⟩ := @applyAll_quiet _ env hfound
        (refusalGate env (applyEntryHalts env.halts output.decisions).kept).defer
      refine ⟨_, by rw [settleTick, happlied]; rfl, ?_⟩
      rw [if_pos (placementFate_of_quiet hfound), hexecuted, if_neg Bool.false_ne_true]
  | some d =>
      obtain ⟨applied, happlied, hexecuted⟩ := @applyAll_placed _ env d hkept hfound
      refine ⟨_, by rw [settleTick, happlied]; rfl, ?_⟩
      rw [placementFate_of_kept hfound]
      dsimp only
      cases hlanded :
        (keptFate env (applyEntryHalts env.halts output.decisions).kept d).mayHaveLanded with
      | true => simp [hexecuted, hlanded]
      | false => simp [hexecuted, hlanded, keptFate_ne_dropped]

theorem committed_of_settleTick {State : Type} {output : TickOutput State} {settled : Settled State}
    (h : settleTick output env = .ok settled) :
    settled.committed = none ∨ settled.committed = some output.nextState := by
  unfold settleTick at h
  dsimp only at h
  cases happlied : applyAll env.executor
      (refusalGate env (applyEntryHalts env.halts output.decisions).kept).defer
      (applyEntryHalts env.halts output.decisions).kept with
  | error err =>
      rw [happlied] at h
      cases h
  | ok applied =>
      rw [happlied] at h
      cases h
      dsimp only
      split
      · exact .inl rfl
      · exact .inr rfl

/-- The breakers drop the placement exactly when one is active and it buys. -/
theorem placementFate_eq_dropped_iff (hone : (decisions.filter isPlacement).length ≤ 1) :
    placementFate decisions env = .dropped ↔ BuyHalted decisions env := by
  constructor
  · intro hdropped
    by_contra hhalted
    have hkept : (applyEntryHalts env.halts decisions).kept = decisions := by
      unfold applyEntryHalts
      split
      · rfl
      · next hactive =>
          dsimp only [suppressBuyEntries]
          rw [List.filter_eq_self]
          intro d hd
          rw [Bool.not_eq_true', Bool.eq_false_iff]
          intro hbuys
          exact hhalted ⟨by simpa using hactive, List.any_eq_true.mpr ⟨d, hd, hbuys⟩⟩
    cases hfound : decisions.find? isPlacement with
    | none =>
        unfold placementFate at hdropped
        dsimp only at hdropped
        rw [hfound] at hdropped
        cases hdropped
    | some d =>
        rw [placementFate_of_kept (by rw [hkept]; exact hfound)] at hdropped
        exact keptFate_ne_dropped _ _ _ hdropped
  · intro hhalted
    obtain ⟨d, hd, hbuys⟩ := List.any_eq_true.mp hhalted.buys
    have hplaced := isPlacement_of_isBuyPlacement hbuys
    obtain ⟨first, hfirst⟩ := Option.isSome_iff_exists.mp
      (List.find?_isSome.mpr ⟨d, hd, hplaced⟩ : (decisions.find? isPlacement).isSome = true)
    have hnone : (applyEntryHalts env.halts decisions).kept.find? isPlacement = none := by
      rw [applyEntryHalts, if_neg (by simpa using hhalted.active), List.find?_eq_none]
      intro d' hd' hplaced'
      obtain ⟨hd', hkept⟩ := List.mem_filter.mp hd'
      -- the buy is the only placement, so this one is the buy
      rw [eq_of_isPlacement hone hfirst hd' hplaced', ← eq_of_isPlacement hone hfirst hd hplaced,
        hbuys] at hkept
      cases hkept
    unfold placementFate
    dsimp only
    rw [hnone, hfirst]

/-- The tick commits the state of its strategy's answer exactly when the
order that state assumes may have been placed. -/
def CommitsWhatLanded {State : Type} (output : TickOutput State) (env : TickEnv) : Prop :=
  ∃ settled, settleTick output env = .ok settled ∧
    settled.committed =
      if (placementFate output.decisions env).mayHaveLanded then some output.nextState else none

theorem commitsWhatLanded_iff {State : Type} (output : TickOutput State)
    (hone : (output.decisions.filter isPlacement).length ≤ 1) :
    CommitsWhatLanded output env ↔ ¬ BuyHalted output.decisions env := by
  obtain ⟨settled, hsettled, hcommitted⟩ := @settleTick_committed env State output hone
  rw [← placementFate_eq_dropped_iff hone]
  constructor
  · rintro ⟨settled', hsettled', hlanded⟩ hdropped
    rw [hsettled] at hsettled'
    cases hsettled'
    rw [hcommitted, if_pos (.inr hdropped), hdropped] at hlanded
    cases hlanded
  · intro hkept
    refine ⟨settled, hsettled, hcommitted.trans (if_congr ?_ rfl rfl)⟩
    exact or_iff_left hkept

end Commit

/-! ### Ticks of a trailing-trade profile -/

open EarlyExit TrailingTrade LabelledRun

/-- One tick: what it reads, and whether the override it carries is its own. -/
structure TickLabel where
  input : TTInput
  env : TickEnv
  claimed : Bool

/-- The input of the tick, on the persisted body. -/
def TickLabel.on (label : TickLabel) (body : TTState) : TTInput :=
  { label.input with state := body }

/-- The body a tick leaves. A tick that throws or stands down leaves the one it found. -/
def tickBody (body : TTState) (label : TickLabel) : TTState :=
  match computeTick (label.on body) with
  | .error _ => body
  | .ok output =>
      if !label.claimed then body
      else
        match settleTick output label.env with
        | .error _ => body
        | .ok settled => settled.committed.getD body

/-- A breaker is active on the tick. -/
def TickLabel.Halts (label : TickLabel) : Prop := label.env.halts.kinds ≠ []

/-- The tick's strategy does not answer with a buy that a breaker drops. -/
def KeepsBuys (body : TTState) (label : TickLabel) : Prop :=
  ∀ output, computeTick (label.on body) = .ok output → ¬ BuyHalted output.decisions label.env

/-- The profile holds nothing and its ladder is not on rung 0. -/
structure OffRung (body : TTState) : Prop where
  flat : body.avgEntryPrice = none
  index : body.currentGridTradeIndex ≠ some 0

/-- A tick that buys nothing does not put a flat ladder on its first rung. -/
theorem offRung_of_quiet {input : TTInput} {output : TTOutput} (hoff : OffRung input.state)
    (hquiet : ∀ d ∈ output.decisions, d.sends .buy input.market.symbol = false)
    (htick : computeTick input = .ok output) : OffRung output.nextState := by
  have hstart := keeps_startState input
  have hflat : (startState input).avgEntryPrice = none := hstart.avgEntryPrice.trans hoff.flat
  have hindex : (startState input).currentGridTradeIndex ≠ some 0 := by
    rw [hstart.currentGridTradeIndex]
    exact hoff.index
  have hkept : KeepsRung (startState input) output → OffRung output.nextState := fun hkept =>
    ⟨hkept.avgEntryPrice.trans hflat, fun hzero => hindex (hkept.index hzero hflat)⟩
  have hfreed : KeepsCost (startState input) output.nextState ∨
      FlatClean output.nextState ∧ OnlySells input output →
      output.nextState.avgEntryPrice = none :=
    fun h => h.elim (fun hcost => hcost.avgEntryPrice.trans hflat) fun h => h.1.avgEntryPrice
  cases (computeTick_outcome input).returned htick with
  | early stopped outcome =>
      rcases outcome.rung hquiet with hnone | hrung
      · exact ⟨hfreed outcome.keepsCost_or_sells, by rw [hnone]; exact (Option.some_ne_none 0).symm⟩
      · exact hkept hrung
  | late passes after drop outcome =>
      rw [drop.eq_of_flat hflat] at outcome
      cases outcome.rung hflat hquiet with
      | freed hnone =>
          exact ⟨hfreed outcome.keepsCost_or_sells,
            by rw [hnone]; exact (Option.some_ne_none 0).symm⟩
      | kept rung => exact hkept rung
      | blocked block hsame =>
          exact ⟨hfreed outcome.keepsCost_or_sells, by rw [hsame]; exact hindex⟩

theorem isBuyPlacement_of_sends {d : Decision} {symbol : String} (h : d.sends .buy symbol = true) :
    isBuyPlacement d = true := by
  cases d with
  | placeOrder intent params => exact (Bool.and_eq_true_iff.mp h).1
  | replaceOrder cancelOrderId reason intent params => exact (Bool.and_eq_true_iff.mp h).1
  | noop => cases h
  | cancelOrder => cases h
  | emitEvent => cases h
  | setKv => cases h
  | deleteKv => cases h

/-- Under a breaker that drops nothing, a tick leaves a flat ladder off its first rung. -/
theorem offRung_tickBody {body : TTState} {label : TickLabel} (hoff : OffRung body)
    (hhalts : label.Halts) (hkeeps : KeepsBuys body label) : OffRung (tickBody body label) := by
  unfold tickBody
  split
  · exact hoff
  · next output htick =>
      have hquiet : ∀ d ∈ output.decisions, d.sends .buy (label.on body).market.symbol = false := by
        intro d hd
        rw [Bool.eq_false_iff]
        intro hbuy
        exact hkeeps output htick
          ⟨hhalts, List.any_eq_true.mpr ⟨d, hd, isBuyPlacement_of_sends hbuy⟩⟩
      have hnext := @offRung_of_quiet (label.on body) output hoff hquiet htick
      split
      · exact hoff
      · split
        · exact hoff
        · next settled hsettled =>
            rcases committed_of_settleTick hsettled with hcommitted | hcommitted
            · rw [hcommitted]
              exact hoff
            · rw [hcommitted]
              exact hnext

/-- A tick commits only if its order may have been placed, unless a breaker dropped it; and ticks
under a breaker that drop no buy leave a flat ladder that is on no rung off its first. -/
theorem ticks_commit_what_landed {State : Type} (output : TickOutput State) (env : TickEnv)
    (start body : TTState) (hone : (output.decisions.filter isPlacement).length ≤ 1) :
    (CommitsWhatLanded output env ↔ ¬ BuyHalted output.decisions env) ∧
      (Reach (fun body label => some (tickBody body label))
          (fun body label => label.Halts ∧ KeepsBuys body label) start body →
        start.avgEntryPrice = none → start.currentGridTradeIndex = none →
          body.currentGridTradeIndex ≠ some 0) := by
  refine ⟨commitsWhatLanded_iff output hone, fun hrun hflat hindex => ?_⟩
  have hoff : OffRung body := by
    refine hrun.invariant ⟨hflat, by rw [hindex]; exact (Option.some_ne_none 0).symm⟩ ?_
    intro before label after hoff hok htaken
    cases htaken
    exact offRung_tickBody hoff hok.1 hok.2
  exact hoff.index

/-! ### Sample ticks -/

/-- The daily loss limit is hit; the exchange would take any order. -/
def sampleHalted : TickEnv where
  halts := { probe := .ok 1, flags := .ok fun kind => if kind = .dailyLoss then 1 else 0 }
  refusalState := some none
  nowMs := 1000
  executor := { answers := fun _ _ => .ok, hasHeadroom := none }

def sampleLabel (input : TTInput) : TickLabel := { input, env := sampleHalted, claimed := true }

theorem sampleLabel_halts (input : TTInput) : (sampleLabel input).Halts := by
  have hactive : sampleHalted.halts.kinds ≠ [] := by decide
  exact hactive

/-- A profile that waits for its uptrend stays off its ladder under the daily loss limit, and a stop
that is hit is still sold and committed. -/
theorem halted_profile_sells_and_waits :
    (∃ output, computeTick (sampleInput sampleConfig sampleHeld "80" 1) = .ok output ∧
      output.decisions.any isPlacement = true ∧ CommitsWhatLanded output sampleHalted) ∧
      (tickBody initialTTState
        (sampleLabel (sampleInput sampleUptrend initialTTState "100" 1))).currentGridTradeIndex ≠
          some 0 := by
  obtain ⟨output, htick, hshown⟩ := exists_ok_of_map
    (by decide +kernel : (computeTick (sampleInput sampleConfig sampleHeld "80" 1)).toOption.map
      (fun output => (output.decisions.any isPlacement, output.decisions.any isBuyPlacement,
        (output.decisions.filter isPlacement).length)) = some (true, false, 1))
  simp only [Prod.mk.injEq] at hshown
  obtain ⟨hplaces, hsells, hone⟩ := hshown
  have hquiet : (computeTick (sampleInput sampleUptrend initialTTState "100" 1)).toOption.map
      (fun output => output.decisions.any isBuyPlacement) = some false := by
    decide +kernel
  obtain ⟨hcommits, hruns⟩ := ticks_commit_what_landed output sampleHalted initialTTState
    (tickBody initialTTState (sampleLabel (sampleInput sampleUptrend initialTTState "100" 1)))
    hone.le
  constructor
  · refine ⟨output, htick, hplaces, hcommits.mpr fun hhalted => ?_⟩
    cases hsells.symm.trans hhalted.buys
  · refine hruns (.single ⟨_, ⟨sampleLabel_halts _, ?_⟩, rfl⟩) rfl rfl
    intro waiting hwaiting hhalted
    have hnone : (computeTick (sampleInput sampleUptrend initialTTState "100" 1)).toOption.map
        (fun output => output.decisions.any isBuyPlacement) = some true := by
      rw [show computeTick (sampleInput sampleUptrend initialTTState "100" 1) = .ok waiting
        from hwaiting]
      exact congrArg some hhalted.buys
    cases hquiet.symm.trans hnone

/-- The daily loss limit drops the entry of a flat profile, and the tick commits the state that
assumes it went out: the ladder is on its first rung without an order. -/
theorem halted_entry_commits_its_rung :
    (∃ output, computeTick (sampleInput sampleConfig initialTTState "100" 0) = .ok output ∧
      (output.decisions.filter isPlacement).length = 1 ∧
      placementFate output.decisions sampleHalted = .dropped ∧
      (∃ settled, settleTick output sampleHalted = .ok settled ∧
        settled.committed = some output.nextState) ∧
      ¬ CommitsWhatLanded output sampleHalted) ∧
      initialTTState.avgEntryPrice = none ∧ initialTTState.currentGridTradeIndex = none ∧
      ∃ body, Reach (fun body label => some (tickBody body label)) (fun _ label => label.Halts)
        initialTTState body ∧ body.currentGridTradeIndex = some 0 := by
  obtain ⟨output, htick, hshown⟩ := exists_ok_of_map
    (by decide +kernel : (computeTick
      (sampleInput sampleConfig initialTTState "100" 0)).toOption.map
      (fun output => ((output.decisions.filter isPlacement).length,
        output.decisions.any isBuyPlacement)) = some (1, true))
  simp only [Prod.mk.injEq] at hshown
  obtain ⟨hone, hbuys⟩ := hshown
  have hhalted : BuyHalted output.decisions sampleHalted := ⟨by decide +kernel, hbuys⟩
  have hdropped := (placementFate_eq_dropped_iff hone.le).mpr hhalted
  obtain ⟨settled, hsettled, hcommitted⟩ := @settleTick_committed sampleHalted _ output hone.le
  rw [if_pos (.inr hdropped)] at hcommitted
  refine ⟨⟨output, htick, hone, hdropped, ⟨settled, hsettled, hcommitted⟩, ?_⟩, rfl, rfl, ?_⟩
  · exact fun hlanded => (commitsWhatLanded_iff output hone.le).mp hlanded hhalted
  · refine ⟨_, .single ⟨sampleLabel (sampleInput sampleConfig initialTTState "100" 0),
      sampleLabel_halts _, rfl⟩, ?_⟩
    decide +kernel

end TradingBot.Worker
