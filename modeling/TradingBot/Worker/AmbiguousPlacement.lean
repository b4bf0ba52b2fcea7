import Mathlib.Tactic.Linarith
import TradingBot.Worker.OrderHandlers

/-!
# Placements whose response was lost

A signed placement whose response never arrived may still be admitted by the
exchange while its receive window is open. The worker asks for the order by its
client id, waits the window out and asks again; a found order has to be younger
than the signature, because client ids are reused. Two clocks are involved: the
worker's, and the exchange's, which stamps the orders.
-/

namespace TradingBot.Worker

/-! ### The resolution -/

/-- How long after its timestamp the exchange still admits a request. -/
def defaultRecvWindowMs : ℤ := 5000

/-- Slack on top of the window for the error of the measured offset. -/
def clockSkewMarginMs : ℤ := 1000

/-- When a request was signed, on the worker's clock, and the offset it was signed with. -/
structure SignedCallTiming where
  signedAtLocalMs : ℤ
  timeOffsetMs : ℤ

/-- An order as a probe returns it; its time is the exchange's. -/
structure ProbedOrder where
  orderId : ℕ
  time : ℤ
  status : String
deriving DecidableEq

inductive Probe where
  | found (order : ProbedOrder)
  | absent
  | unknown
deriving DecidableEq

/-- A resolution: its result, and the order it recorded as placed. -/
structure PlacementResolution where
  result : DecisionResult
  recorded : Option ProbedOrder

/-- The timing a thrown error carries, or the call's own clock reading. -/
def signedTiming (timing : Option SignedCallTiming) (calledAtMs : ℤ) : SignedCallTiming :=
  timing.getD ⟨calledAtMs, 0⟩

def SignedCallTiming.sentAtBinanceMs (timing : SignedCallTiming) : ℤ :=
  timing.signedAtLocalMs + timing.timeOffsetMs

/-- When the worker stops waiting, on its own clock. -/
def SignedCallTiming.windowEndMs (timing : SignedCallTiming) : ℤ :=
  timing.signedAtLocalMs + defaultRecvWindowMs + clockSkewMarginMs

/-- What the last probe says of the placement. -/
def resolveProbe (timing : SignedCallTiming) (message : String) : Probe → PlacementResolution
  | .unknown => ⟨.failed true .ambiguous false ("binance call failed: " ++ message), none⟩
  | .absent =>
      ⟨.failed true .rejected false
        ("binance call failed and the order provably never landed: " ++ message), none⟩
  | .found order =>
      if order.time < timing.sentAtBinanceMs then
        ⟨.failed true .ambiguous false
          ("binance response lost and the probe could not identify this attempt's order: " ++
            message), none⟩
      else
        ⟨.failed false .accepted false
          ("binance response lost; the order reached the exchange (" ++ order.status ++ "): " ++
            message), some order⟩

/-- Probe, and if the order is absent while the window is open, wait it out and probe again. The
clock is read after the first answer. -/
def resolveAmbiguousPlacement (timing : Option SignedCallTiming) (calledAtMs : ℤ)
    (message : String) (first : Probe) (nowMs : ℤ) (second : Probe) : PlacementResolution :=
  let timing := signedTiming timing calledAtMs
  if first = .absent ∧ 0 < timing.windowEndMs - nowMs then resolveProbe timing message second
  else resolveProbe timing message first

def DecisionResult.HasPhase (phase : DecisionPhase) : DecisionResult → Prop
  | .ok => False
  | .failed _ actual _ _ => actual = phase

/-! ### The exchange and the clocks -/

/--
A lost placement, up to what the exchange does with it. Instants without a
remark are on the worker's clock; the exchange's is ahead by the true offset.
The error carries the timing unless it was thrown by a request that was signed
again.
-/
structure LostPlacement where
  calledAtMs : ℤ
  signedAtMs : ℤ
  timeOffsetMs : ℤ
  trueOffsetMs : ℤ
  stamped : Bool
  message : String
  attempt : ℕ
  status : String
  /-- An older terminal order of the same client id, on the exchange's clock. -/
  namesake : Option ProbedOrder
  firstServedAtMs : ℤ
  firstAnswered : Bool
  readAtMs : ℤ
  secondServedAtMs : ℤ
  secondAnswered : Bool
  offset_near : |timeOffsetMs - trueOffsetMs| ≤ 1000
  called_le : calledAtMs ≤ signedAtMs
  namesake_older : ∀ order ∈ namesake, order.time < signedAtMs + timeOffsetMs
  signed_le : signedAtMs ≤ firstServedAtMs
  served_le : firstServedAtMs ≤ readAtMs

namespace LostPlacement

variable (p : LostPlacement)

/-- The timing the worker's resolution goes by. -/
def timing : Option SignedCallTiming :=
  if p.stamped then some ⟨p.signedAtMs, p.timeOffsetMs⟩ else none

def resolvedTiming : SignedCallTiming := signedTiming p.timing p.calledAtMs

/-- The last instant of the exchange's clock at which it admits the placement. -/
def lastAdmission : ℤ := p.signedAtMs + p.timeOffsetMs + defaultRecvWindowMs

/-- When the exchange may admit the placement, on its clock: once sent, within the window. -/
def Admissible (admittedAt : Option ℤ) : Prop :=
  ∀ t ∈ admittedAt, p.signedAtMs + p.trueOffsetMs ≤ t ∧ t ≤ p.lastAdmission

/-- A second probe comes after the first answer and after the wait. -/
structure Waits : Prop where
  answer : p.readAtMs ≤ p.secondServedAtMs
  window : p.resolvedTiming.windowEndMs ≤ p.secondServedAtMs

def admittedOrder (t : ℤ) : ProbedOrder := ⟨p.attempt, t, p.status⟩

/-- What the exchange answers a probe: the placement once it is admitted, else its namesake. -/
def probe (admittedAt : Option ℤ) (servedAtMs : ℤ) (answered : Bool) : Probe :=
  if !answered then .unknown
  else
    match admittedAt.filter (· ≤ servedAtMs + p.trueOffsetMs) with
    | some t => .found (p.admittedOrder t)
    | none => (p.namesake.map Probe.found).getD .absent

def resolution (admittedAt : Option ℤ) : PlacementResolution :=
  resolveAmbiguousPlacement p.timing p.calledAtMs p.message
    (p.probe admittedAt p.firstServedAtMs p.firstAnswered) p.readAtMs
    (p.probe admittedAt p.secondServedAtMs p.secondAnswered)

/-- The verdict is right: rejected means never admitted, accepted means this very order was. -/
structure SoundFor (admittedAt : Option ℤ) : Prop where
  rejected : (p.resolution admittedAt).result.HasPhase .rejected → admittedAt = none
  accepted : (p.resolution admittedAt).result.HasPhase .accepted →
    ∃ t, admittedAt = some t ∧ (p.resolution admittedAt).recorded = some (p.admittedOrder t)

/-- Every answer is believed only when it is conclusive. -/
def Conclusive : Prop :=
  p.firstAnswered = false ∨
    match p.namesake with
    | some order => order.time < p.resolvedTiming.sentAtBinanceMs
    | none =>
        if p.readAtMs < p.resolvedTiming.windowEndMs then
          p.secondAnswered = false ∨ p.lastAdmission ≤ p.secondServedAtMs + p.trueOffsetMs
        else p.lastAdmission ≤ p.firstServedAtMs + p.trueOffsetMs

/-! ### When the verdict is right -/

variable {p} {admittedAt : Option ℤ} {servedAtMs : ℤ}

theorem probe_unanswered : p.probe admittedAt servedAtMs false = .unknown := rfl

/-- A probe after the admission finds the placement. -/
theorem probe_admitted {t : ℤ} (ht : t ≤ servedAtMs + p.trueOffsetMs) :
    p.probe (some t) servedAtMs true = .found (p.admittedOrder t) := by
  have hseen : (some t).filter (· ≤ servedAtMs + p.trueOffsetMs) = some t := by
    simpa [Option.filter] using ht
  simp only [probe, hseen]
  rfl

theorem probe_unadmitted (h : ∀ t ∈ admittedAt, servedAtMs + p.trueOffsetMs < t) :
    p.probe admittedAt servedAtMs true = (p.namesake.map Probe.found).getD .absent := by
  cases admittedAt with
  | none => rfl
  | some t =>
      have hunseen : (some t).filter (· ≤ servedAtMs + p.trueOffsetMs) = none := by
        simpa [Option.filter] using h t rfl
      simp only [probe, hunseen]
      rfl

theorem admitted_or_unseen (p : LostPlacement) (admittedAt : Option ℤ) (servedAtMs : ℤ) :
    (∃ t, admittedAt = some t ∧ t ≤ servedAtMs + p.trueOffsetMs) ∨
      ∀ t ∈ admittedAt, servedAtMs + p.trueOffsetMs < t := by
  cases admittedAt with
  | none => exact .inr (by simp)
  | some t =>
      rcases le_or_gt t (servedAtMs + p.trueOffsetMs) with hle | hlt
      · exact .inl ⟨t, rfl, hle⟩
      · exact .inr (by simpa using hlt)

theorem resolution_first
    (h : p.probe admittedAt p.firstServedAtMs p.firstAnswered ≠ .absent ∨
      p.resolvedTiming.windowEndMs ≤ p.readAtMs) :
    p.resolution admittedAt = resolveProbe p.resolvedTiming p.message
      (p.probe admittedAt p.firstServedAtMs p.firstAnswered) := by
  unfold resolution resolveAmbiguousPlacement
  rw [if_neg]
  · rfl
  · rintro ⟨habsent, hopen⟩
    rcases h with hseen | hclosed
    · exact hseen habsent
    · exact absurd hopen (by simpa [resolvedTiming] using hclosed)

theorem resolution_second
    (habsent : p.probe admittedAt p.firstServedAtMs p.firstAnswered = .absent)
    (hopen : p.readAtMs < p.resolvedTiming.windowEndMs) :
    p.resolution admittedAt = resolveProbe p.resolvedTiming p.message
      (p.probe admittedAt p.secondServedAtMs p.secondAnswered) := by
  unfold resolution resolveAmbiguousPlacement
  rw [if_pos ⟨habsent, by simpa [resolvedTiming] using hopen⟩]
  rfl

/-- A verdict on this very order, or no verdict, is right. -/
theorem soundFor_of_found {t : ℤ}
    (h : p.resolution (some t) = resolveProbe p.resolvedTiming p.message
      (.found (p.admittedOrder t))) : p.SoundFor (some t) := by
  refine ⟨?_, ?_⟩
  · rw [h, resolveProbe]
    split <;> simp [DecisionResult.HasPhase]
  · rw [h, resolveProbe]
    split
    · simp [DecisionResult.HasPhase]
    · intro _
      exact ⟨t, rfl, rfl⟩

theorem soundFor_of_ambiguous {retryable deferred : Bool} {reason : String}
    (h : (p.resolution admittedAt).result = .failed retryable .ambiguous deferred reason) :
    p.SoundFor admittedAt := by
  refine ⟨?_, ?_⟩ <;>
  · rw [h]
    simp [DecisionResult.HasPhase]

/-- Nothing found is right where the placement can no longer be admitted. -/
theorem soundFor_of_absent (hadmissible : p.Admissible admittedAt) {servedAtMs : ℤ}
    (hclosed : p.lastAdmission ≤ servedAtMs + p.trueOffsetMs)
    (hunseen : ∀ t ∈ admittedAt, servedAtMs + p.trueOffsetMs < t)
    (h : p.resolution admittedAt = resolveProbe p.resolvedTiming p.message .absent) :
    p.SoundFor admittedAt := by
  have hnever : admittedAt = none := by
    cases hadmitted : admittedAt with
    | none => rfl
    | some t => exact absurd (hunseen t hadmitted) (not_lt.mpr
        ((hadmissible t hadmitted).2.trans hclosed))
  refine ⟨fun _ => hnever, ?_⟩
  rw [h]
  simp [DecisionResult.HasPhase, resolveProbe]

theorem soundFor_of_conclusive (hconclusive : p.Conclusive)
    (hadmissible : p.Admissible admittedAt) : p.SoundFor admittedAt := by
  cases hanswered : p.firstAnswered with
  | false =>
      have hfirst : p.resolution admittedAt = resolveProbe p.resolvedTiming p.message .unknown := by
        rw [resolution_first (.inl (by simp [hanswered, probe_unanswered])), hanswered,
          probe_unanswered]
      exact soundFor_of_ambiguous (by rw [hfirst]; rfl)
  | true =>
      replace hconclusive := hconclusive.resolve_left (by simp [hanswered])
      rcases p.admitted_or_unseen admittedAt p.firstServedAtMs with ⟨t, rfl, ht⟩ | hunseen
      · refine soundFor_of_found ?_
        rw [resolution_first (.inl (by simp [hanswered, probe_admitted ht])), hanswered,
          probe_admitted ht]
      · have hprobe := probe_unadmitted hunseen
        cases hnamesake : p.namesake with
        | some order =>
            rw [hnamesake] at hconclusive hprobe
            have hfirst : p.resolution admittedAt =
                resolveProbe p.resolvedTiming p.message (.found order) := by
              rw [resolution_first (.inl (by simp [hanswered, hprobe])), hanswered, hprobe]
              rfl
            rw [resolveProbe, if_pos hconclusive] at hfirst
            exact soundFor_of_ambiguous (congrArg PlacementResolution.result hfirst)
        | none =>
            rw [hnamesake] at hconclusive hprobe
            dsimp only at hconclusive
            split at hconclusive
            · next hopen =>
                have hsecond := resolution_second (by rw [hanswered]; exact hprobe) hopen
                cases hsecondAnswered : p.secondAnswered with
                | false =>
                    rw [hsecondAnswered, probe_unanswered] at hsecond
                    exact soundFor_of_ambiguous (by rw [hsecond]; rfl)
                | true =>
                    rw [hsecondAnswered] at hsecond hconclusive
                    rcases p.admitted_or_unseen admittedAt p.secondServedAtMs with
                      ⟨t, rfl, ht⟩ | hunseenLater
                    · rw [probe_admitted ht] at hsecond
                      exact soundFor_of_found hsecond
                    · rw [probe_unadmitted hunseenLater, hnamesake] at hsecond
                      exact soundFor_of_absent hadmissible
                        (hconclusive.resolve_left (by simp)) hunseenLater
                        hsecond
            · next hclosed =>
                have hfirst := @resolution_first p admittedAt (.inr (not_lt.mp hclosed))
                rw [hanswered, hprobe] at hfirst
                exact soundFor_of_absent hadmissible hconclusive hunseen hfirst

/-! ### When it is wrong -/

/-- A namesake that passes for the placement is taken for one never admitted. -/
theorem not_soundFor_of_namesake {order : ProbedOrder} (hanswered : p.firstAnswered = true)
    (hnamesake : p.namesake = some order)
    (hyoung : p.resolvedTiming.sentAtBinanceMs ≤ order.time) : ¬p.SoundFor none := by
  have hprobe : p.probe none p.firstServedAtMs true = .found order := by
    rw [probe_unadmitted (by simp), hnamesake]
    rfl
  have hfirst := @resolution_first p none (.inl (by simp [hanswered, hprobe]))
  rw [hanswered, hprobe, resolveProbe, if_neg (not_lt.mpr hyoung)] at hfirst
  intro hsound
  obtain ⟨t, hadmitted, -⟩ := hsound.accepted (by rw [hfirst]; rfl)
  cases hadmitted

theorem admissible_lastAdmission (p : LostPlacement) : p.Admissible (some p.lastAdmission) := by
  intro t ht
  obtain rfl : p.lastAdmission = t := by simpa using ht
  refine ⟨?_, le_rfl⟩
  have hnear := abs_le.mp p.offset_near
  simp only [lastAdmission, defaultRecvWindowMs]
  linarith [hnear.1]

/-- A placement the exchange admits at the last instant is missed by every earlier probe. -/
theorem probe_lastAdmission (hnamesake : p.namesake = none)
    (hearly : servedAtMs + p.trueOffsetMs < p.lastAdmission) :
    p.probe (some p.lastAdmission) servedAtMs true = .absent := by
  rw [probe_unadmitted (by simpa using hearly), hnamesake]
  rfl

/-- The probe the verdict rests on may miss a placement that is admitted after it. -/
theorem resolution_lastAdmission (hwaits : p.Waits) (hnamesake : p.namesake = none)
    (h : ¬p.Conclusive) :
    p.resolution (some p.lastAdmission) = resolveProbe p.resolvedTiming p.message .absent := by
  rw [Conclusive, not_or, hnamesake] at h
  obtain ⟨hanswered, hinconclusive⟩ := h
  replace hanswered : p.firstAnswered = true := by simpa using hanswered
  dsimp only at hinconclusive
  split at hinconclusive
  · next hopen =>
      rw [not_or, not_le] at hinconclusive
      obtain ⟨hsecond, hearly⟩ := hinconclusive
      -- The first probe is served before the second, so it misses the placement too.
      have hearlier : p.firstServedAtMs + p.trueOffsetMs < p.lastAdmission := by
        linarith [p.served_le, hwaits.answer]
      rw [resolution_second (by rw [hanswered, probe_lastAdmission hnamesake hearlier]) hopen,
        eq_true_of_ne_false hsecond, probe_lastAdmission hnamesake hearly]
  · next hclosed =>
      rw [resolution_first (.inr (not_lt.mp hclosed)), hanswered,
        probe_lastAdmission hnamesake (not_le.mp hinconclusive)]

theorem exists_unsound (hwaits : p.Waits) (h : ¬p.Conclusive) :
    ∃ admittedAt, p.Admissible admittedAt ∧ ¬p.SoundFor admittedAt := by
  cases hnamesake : p.namesake with
  | some order =>
      rw [Conclusive, not_or, hnamesake] at h
      obtain ⟨hanswered, hyoung⟩ := h
      exact ⟨none, by simp [Admissible],
        not_soundFor_of_namesake (by simpa using hanswered) hnamesake (not_lt.mp hyoung)⟩
  | none =>
      refine ⟨some p.lastAdmission, p.admissible_lastAdmission, fun hsound => ?_⟩
      have hresolution := resolution_lastAdmission hwaits hnamesake h
      have hnever := hsound.rejected (by rw [hresolution]; rfl)
      cases hnever

/-! ### Rejections -/

theorem not_preCall (p : LostPlacement) (admittedAt : Option ℤ) :
    ¬(p.resolution admittedAt).result.HasPhase .preCall := by
  have hprobe (timing : SignedCallTiming) (message : String) (probe : Probe) :
      ¬(resolveProbe timing message probe).result.HasPhase .preCall := by
    cases probe with
    | unknown => simp [resolveProbe, DecisionResult.HasPhase]
    | absent => simp [resolveProbe, DecisionResult.HasPhase]
    | found order =>
        rw [resolveProbe]
        split <;> simp [DecisionResult.HasPhase]
  unfold resolution resolveAmbiguousPlacement
  dsimp only
  split
  · exact hprobe _ _ _
  · exact hprobe _ _ _

theorem not_rejected_of_namesake {order : ProbedOrder} (hnamesake : p.namesake = some order) :
    ¬(p.resolution admittedAt).result.HasPhase .rejected := by
  have hseen : ∃ probe, probe ≠ .absent ∧
      p.probe admittedAt p.firstServedAtMs p.firstAnswered = probe := by
    cases hanswered : p.firstAnswered with
    | false => exact ⟨.unknown, by simp, probe_unanswered⟩
    | true =>
        rcases p.admitted_or_unseen admittedAt p.firstServedAtMs with ⟨t, rfl, ht⟩ | hunseen
        · exact ⟨_, by simp, probe_admitted ht⟩
        · exact ⟨.found order, by simp, by rw [probe_unadmitted hunseen, hnamesake]; rfl⟩
  obtain ⟨probe, hfound, hprobe⟩ := hseen
  rw [resolution_first (.inl (by rwa [hprobe])), hprobe]
  cases probe with
  | unknown => simp [resolveProbe, DecisionResult.HasPhase]
  | absent => exact absurd rfl hfound
  | found found =>
      rw [resolveProbe]
      split <;> simp [DecisionResult.HasPhase]

/-- What it takes to believe a rejection. -/
def RejectsConclusively (p : LostPlacement) : Prop := p.namesake.isSome = true ∨ p.Conclusive

theorem never_admitted_of_rejected (h : p.RejectsConclusively)
    (hadmissible : p.Admissible admittedAt)
    (hrejected : (p.resolution admittedAt).result.HasPhase .rejected) : admittedAt = none := by
  rcases h with hnamesake | hconclusive
  · obtain ⟨order, horder⟩ := Option.isSome_iff_exists.mp hnamesake
    exact absurd hrejected (not_rejected_of_namesake horder)
  · exact (soundFor_of_conclusive hconclusive hadmissible).rejected hrejected

theorem rejected_of_not_rejectsConclusively (hwaits : p.Waits) (h : ¬p.RejectsConclusively) :
    (p.resolution (some p.lastAdmission)).result.HasPhase .rejected := by
  rw [RejectsConclusively, not_or, Bool.not_eq_true, Option.isSome_eq_false_iff,
    Option.isNone_iff_eq_none] at h
  rw [resolution_lastAdmission hwaits h.1 h.2]
  rfl

/-! ### Soundness -/

/-- With the timing on the error and the clock read before the window closes, every answer is
conclusive. -/
theorem conclusive_of_stamped (hwaits : p.Waits) (hstamped : p.stamped = true)
    (hprompt : p.readAtMs < p.resolvedTiming.windowEndMs) : p.Conclusive := by
  have htiming : p.resolvedTiming = ⟨p.signedAtMs, p.timeOffsetMs⟩ := by
    simp [resolvedTiming, timing, hstamped, signedTiming]
  refine .inr ?_
  cases hnamesake : p.namesake with
  | some order =>
      rw [htiming]
      exact p.namesake_older order hnamesake
  | none =>
      dsimp only
      rw [if_pos hprompt]
      have hwindow := hwaits.window
      have hnear := abs_le.mp p.offset_near
      rw [htiming] at hwindow
      simp only [SignedCallTiming.windowEndMs, clockSkewMarginMs] at hwindow
      simp only [lastAdmission]
      exact .inr (by linarith [hnear.2])

/-- Rejected means never admitted and accepted means admitted, whatever the exchange does with
the placement, exactly where every answer is conclusive. -/
theorem resolution_sound_iff (p : LostPlacement) (hwaits : p.Waits) :
    (∀ admittedAt, p.Admissible admittedAt → p.SoundFor admittedAt) ↔ p.Conclusive := by
  constructor
  · intro hsound
    by_contra hinconclusive
    obtain ⟨admittedAt, hadmissible, hunsound⟩ := exists_unsound hwaits hinconclusive
    exact hunsound (hsound admittedAt hadmissible)
  · intro hconclusive admittedAt hadmissible
    exact soundFor_of_conclusive hconclusive hadmissible

/-- A stop whose first probe was served 300 ms after the signature; the clock was read then. -/
def promptlyProbed : LostPlacement where
  calledAtMs := 10000
  signedAtMs := 10000
  timeOffsetMs := 0
  trueOffsetMs := 0
  stamped := true
  message := "socket hang up"
  attempt := 7
  status := "NEW"
  namesake := none
  firstServedAtMs := 10300
  firstAnswered := true
  readAtMs := 10400
  secondServedAtMs := 16050
  secondAnswered := true
  offset_near := by decide
  called_le := by decide
  namesake_older := by simp
  signed_le := by decide
  served_le := by decide

theorem promptlyProbed_sound :
    promptlyProbed.Waits ∧
      ∀ admittedAt, promptlyProbed.Admissible admittedAt → promptlyProbed.SoundFor admittedAt := by
  have hwaits : promptlyProbed.Waits := ⟨by decide, by decide⟩
  exact ⟨hwaits, (resolution_sound_iff promptlyProbed hwaits).mpr
    (conclusive_of_stamped hwaits rfl (by decide))⟩

/-- The same stop where the answer reached the worker 6 s after the signature. -/
def lateAnswer : LostPlacement :=
  { promptlyProbed with readAtMs := 16000, served_le := by decide }

theorem lateAnswer_admissible : lateAnswer.Admissible (some 11000) := by
  intro t ht
  obtain rfl : 11000 = t := by simpa using ht
  decide

/-- Admitted a second after the signature, it is reported as never landed. -/
theorem late_answer_rejects_admitted :
    lateAnswer.Waits ∧ lateAnswer.Admissible (some 11000) ∧
      (lateAnswer.resolution (some 11000)).result = .failed true .rejected false
        "binance call failed and the order provably never landed: socket hang up" ∧
      ¬lateAnswer.SoundFor (some 11000) := by
  have hresult : (lateAnswer.resolution (some 11000)).result = .failed true .rejected false
      "binance call failed and the order provably never landed: socket hang up" := by
    decide +kernel
  refine ⟨⟨by decide, by decide⟩, lateAnswer_admissible, hresult, ?_⟩
  intro hsound
  have hnever := hsound.rejected (by rw [hresult]; rfl)
  cases hnever

end LostPlacement

end TradingBot.Worker
