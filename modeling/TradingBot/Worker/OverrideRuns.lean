import TradingBot.Worker.OverrideCustody

/-!
# Overrides execute at most once

What the steps of a tick keep of the invariant, and what follows for a run: an
override is dispatched under a claim that won and was not cancelled, and again
only after its orders so far provably did not execute.
-/

namespace TradingBot.Worker

open OverrideActions LabelledRun

namespace OverrideWorld

variable {s t : OverrideWorld} {phase : TickPhase} {id : String} {index : ℕ}
  {write : OverrideWrite}

/-! ### Ticks -/

theorem Kept.note (h : s.Kept) {added : List OverrideEvent}
    (hdispatched : ∀ tick id, .dispatched tick id ∉ added)
    (harmed : ∀ tick claimAt, .armed tick claimAt ∉ added)
    (hcancelled : ∀ id, .cancelled id ∉ added) : Kept { s with events := added ++ s.events } :=
  { h with
    once := h.once.append hdispatched harmed
    clear := fun id hpos => (h.clear id hpos).append (hdispatched · id)
    fits := h.fits.append hdispatched
    uncancelled := fun row hrow hmem =>
      (List.mem_append.mp hmem).elim (hcancelled row.id) (h.uncancelled row hrow)
    cancelled := fun id hmem =>
      (List.mem_append.mp hmem).elim (absurd · (hcancelled id)) (h.cancelled id)
    sent := fun tick id hmem =>
      (List.mem_append.mp hmem).elim (absurd · (hdispatched tick id)) (h.sent tick id)
    fenced := fun claim hclaim => by
      obtain ⟨⟨tick, hstamp⟩, hother⟩ := h.fenced claim hclaim
      exact ⟨⟨tick, List.mem_append_right _ hstamp⟩, hother⟩ }

theorem Kept.claimRow (h : s.Kept) (claim : OverrideClaim) :
    Kept { s with
      rows := claimAction s.rows claim.id claim.claimAt
      events := if claims s.rows claim.id then .claimed claim.tick claim.id :: s.events
        else s.events } := by
  have hids : (claimAction s.rows claim.id claim.claimAt).map (·.id) = s.rows.map (·.id) :=
    map_id_update fun _ => rfl
  have hrows := h.withRows hids fun ticket _ hheld => hheld.claimAction claim.id claim.claimAt
  split
  · exact @Kept.note _ hrows [.claimed claim.tick claim.id] (by simp) (by simp) (by simp)
  · exact hrows

section Verdict

variable {claim : OverrideClaim} {verdict : ClaimVerdict}

theorem hearVerdict_reads : (hearVerdict claim verdict phase).reads = phase.reads := by
  cases phase <;> simp only [hearVerdict] <;> split <;> rfl

theorem hearVerdict_carried : (hearVerdict claim verdict phase).carried = phase.carried := by
  cases phase <;> simp only [hearVerdict] <;> split <;> rfl

theorem hearVerdict_undispatched {ticket : OverrideTicket}
    (h : (hearVerdict claim verdict phase).undispatched = some ticket) :
    ∃ before, phase.undispatched = some before ∧ before.claim = ticket.claim := by
  cases phase with
  | held before =>
      rw [hearVerdict] at h
      split at h
      · obtain rfl := Option.some.inj h
        exact ⟨before, rfl, rfl⟩
      · exact ⟨ticket, h, rfl⟩
  | compensating before =>
      rw [hearVerdict] at h
      split at h <;> cases h
  | ready before work => exact ⟨ticket, h, rfl⟩
  | _ => cases h

theorem fits_hearVerdict {rows : List OverrideActionRow} {events : List OverrideEvent}
    (h : phase.Fits rows events) (hwon : verdict = .won →
      .claimed claim.tick claim.id ∈ events ∧ Held rows claim.id claim.claimAt) :
    (hearVerdict claim verdict phase).Fits rows events := by
  cases phase with
  | held ticket =>
      rw [hearVerdict]
      split
      · next hwaits =>
          obtain ⟨rfl, -⟩ := hwaits
          exact ⟨h.1, h.2.1, fun hverdict => hwon (Option.some.inj hverdict)⟩
      · exact h
  | compensating ticket =>
      rw [hearVerdict]
      split <;> exact h
  | _ => exact h

theorem Kept.hearVerdict (h : s.Kept) (hwon : verdict = .won →
      .claimed claim.tick claim.id ∈ s.events ∧ Held s.rows claim.id claim.claimAt) :
    Kept { s with phase := hearVerdict claim verdict s.phase } :=
  h.advance hearVerdict_reads hearVerdict_carried (fits_hearVerdict h.fits hwon)
    fun _ => hearVerdict_undispatched

theorem Kept.landClaim (h : s.Kept) (claim : OverrideClaim) (replied : Bool) :
    (s.landClaim claim replied).Kept := by
  have hrow := h.claimRow claim
  cases replied with
  | false => exact hrow
  | true =>
      refine hrow.hearVerdict fun hwon => ?_
      cases hclaims : claims s.rows claim.id with
      | false =>
          rw [hclaims] at hwon
          cases hwon
      | true => exact ⟨by simp, held_of_claims hclaims⟩

end Verdict

theorem Kept.take (h : s.Kept) {override : Override} {ttlMs : Option ℤ}
    (hphase : s.phase = .read override ttlMs)
    (hclock : ∀ tick claimAt, .armed tick claimAt ∈ s.events → claimAt < s.clock) :
    Kept { s with
      key := none
      ticks := s.ticks + 1
      phase := .held ⟨⟨s.ticks, override, s.clock⟩, ttlMs, none, false, false⟩
      writes := s.writes ++ [.claim ⟨s.ticks, override, s.clock⟩]
      events := .armed s.ticks s.clock :: s.events } := by
  have hadded : ∀ tick id, .dispatched tick id ∉ [OverrideEvent.armed s.ticks s.clock] := by simp
  have hfits := h.fits
  rw [hphase] at hfits
  have hstamped : Kept { s with
      ticks := s.ticks + 1, events := .armed s.ticks s.clock :: s.events } :=
    { h with
      once := ⟨fun tick hmem => Nat.lt_irrefl _ (hclock tick _ hmem), h.once⟩
      clear := fun id hpos => (h.clear id hpos).cons nofun
      fits := h.fits.append hadded
      uncancelled := fun row hrow hmem => h.uncancelled row hrow (by simpa using hmem)
      cancelled := fun id hmem => h.cancelled id (by simpa using hmem)
      sent := fun tick id hmem => h.sent tick id (by simpa using hmem)
      fenced := fun claim hclaim => by
        obtain ⟨⟨tick, hstamp⟩, hother⟩ := h.fenced claim hclaim
        exact ⟨⟨tick, List.mem_cons_of_mem _ hstamp⟩, hother⟩ }
  have hsent := @Kept.addWrite _ (.claim ⟨s.ticks, override, s.clock⟩) hstamped rfl nofun
  refine hsent.move (fun id => ?_) (fun id hpos => ?_) ⟨List.mem_cons_self, ?_, nofun⟩ ?_
  · have hsame : TickPhase.holds
        (.held ⟨⟨s.ticks, override, s.clock⟩, ttlMs, none, false, false⟩) id =
        s.phase.holds id := by
      rw [hphase]
      rfl
    rw [keyHolds_none, hsame]
    exact Nat.add_le_add_left (Nat.add_le_add_right (Nat.zero_le _) _) _
  · rw [keyHolds_none] at hpos
    exact hsent.clear id (hpos.trans_le (Nat.add_le_add_right (Nat.zero_le _) _))
  · exact NoneExecuted.cons hfits nofun
  · intro claim hclaim
    obtain ⟨hstamp, -⟩ := hsent.fenced claim hclaim
    refine ⟨hstamp, fun ticket hticket => ?_⟩
    obtain rfl := Option.some.inj hticket
    have hmem : .release claim ∈ s.writes := by simpa using hclaim
    obtain ⟨⟨tick, hearlier⟩, -⟩ := h.fenced claim hmem
    exact (hclock tick _ hearlier).ne

/-- The dispatch of an override's orders: its row is in the table, and nobody else has it. -/
theorem Kept.dispatch (h : s.Kept) {ticket : OverrideTicket} {work : TickWork}
    (hphase : s.phase = .ready ticket work) :
    Kept { s with
      phase := .dispatching ticket work
      events := (work.dispatched ticket.id).map
        (fun _ => .dispatched ticket.claim.tick ticket.id) ++ s.events } := by
  have hfits := h.fits
  rw [hphase] at hfits
  obtain ⟨harmed, hnone, hattempted, hclaimed, row, hrow, hid, -⟩ := hfits
  have hholds : s.phase.holds ticket.id = 1 := by
    rw [hphase]
    exact if_pos rfl
  have hsame : ∀ tick id, .dispatched tick id ∈
      (work.dispatched ticket.id).map
        (fun _ => OverrideEvent.dispatched ticket.claim.tick ticket.id) →
      tick = ticket.claim.tick ∧ id = ticket.id := by
    intro tick id hmem
    obtain ⟨_, -, hevent⟩ := List.mem_map.mp hmem
    cases hevent
    exact ⟨rfl, rfl⟩
  have hwaiting : ∀ id, s.waiting id =
      keyHolds (.dispatching ticket work) s.key id + writesHold s.writes id := by
    intro id
    rw [waiting, hphase]
    rfl
  have hcancelled : .cancelled ticket.id ∉ s.events := by
    rw [← hid]
    exact h.uncancelled row hrow
  exact
    { h with
      once := h.once.dispatch _ hclaimed hcancelled (hnone.but _)
      single := fun id => by
        have hsingle := h.single id
        rw [hphase] at hsingle
        rw [hwaiting] at hsingle
        exact hsingle
      issued := fun id hpos => by
        refine h.issued id ?_
        rw [hphase, hwaiting]
        exact hpos
      clear := fun id hpos => by
        have hpos' : 0 < s.waiting id := by
          rw [hwaiting]
          exact hpos
        refine (h.clear id hpos').append fun tick hmem => ?_
        obtain ⟨-, rfl⟩ := hsame tick id hmem
        have hsingle := h.single ticket.id
        omega
      fits := by
        refine ⟨List.mem_append_right _ harmed, ?_, hattempted, fun hnil => ?_⟩
        · exact (hnone.but _).append fun tick hmem => (hsame tick _ hmem).1
        · rw [hnil]
          exact hnone
      uncancelled := fun row hrow hmem => by
        refine h.uncancelled row hrow ?_
        simpa using hmem
      cancelled := fun id hmem => h.cancelled id (by simpa using hmem)
      sent := fun tick id hmem => by
        rcases List.mem_append.mp hmem with hmem | hmem
        · obtain ⟨-, rfl⟩ := hsame tick id hmem
          exact h.issued ticket.id (by omega)
        · exact h.sent tick id hmem
      fenced := fun claim hclaim => by
        obtain ⟨⟨tick, hstamp⟩, -⟩ := h.fenced claim hclaim
        exact ⟨⟨tick, List.mem_append_right _ hstamp⟩, forall_undispatched rfl _⟩ }

section Answer

variable {ticket : OverrideTicket} {work : TickWork} {applied : List AppliedDecision}

theorem applyFrom_decisions {executor : Executor} {refusalDeferredFrom : Option ℕ} {shed : Bool}
    (decisions : List Decision) (position : ℕ) (broken : Bool) :
    (applyFrom executor refusalDeferredFrom shed position broken decisions).map (·.decision) =
      decisions := by
  induction decisions generalizing position broken with
  | nil => rfl
  | cons d rest ih => rw [applyFrom_cons, List.map_cons, ih]

/-- The executor answers every decision it is handed. -/
theorem decisions_of_applied (happlied : work.applied = .ok applied) :
    applied.map (·.decision) = work.halt.kept := by
  rw [TickWork.applied, applyAll] at happlied
  dsimp only at happlied
  split at happlied
  · cases happlied
  · cases happlied
    exact applyFrom_decisions ..

/-- A tick that reaches the executor with no order dispatches none. -/
theorem dispatched_eq_nil (hattempts : work.attemptsOrder = false) :
    work.dispatched id = [] := by
  rw [TickWork.dispatched]
  split
  · rfl
  · split
    · rfl
    · next hdefer =>
        rw [List.filter_eq_nil_iff]
        intro d hd hours
        have hplacement : isPlacement d = true := (Bool.and_eq_true_iff.mp hours).1
        have hfound : (work.halt.kept.find? isPlacement).isSome = true :=
          List.find?_isSome.mpr ⟨d, hd, hplacement⟩
        rw [TickWork.attemptsOrder, hfound, Bool.true_and, Bool.not_eq_false'] at hattempts
        exact hdefer hattempts

/-- A tick none of whose orders was the override's dispatched none of it. -/
theorem dispatched_eq_nil_of_ours (happlied : work.applied = .ok applied)
    (hours : applied.filter (fun a => isOurs id a.decision) = []) : work.dispatched id = [] := by
  rw [TickWork.dispatched, happlied]
  dsimp only
  split
  · rfl
  · rw [← decisions_of_applied happlied, List.filter_map]
    rw [List.map_eq_nil_iff]
    exact hours

theorem noneExecuted_of_rearms {rows : List OverrideActionRow} {events : List OverrideEvent}
    (h : (TickPhase.dispatching ticket work).Fits rows events)
    (happlied : work.applied = .ok applied) {elapsedMs : ℤ}
    (hrearms : (work.settleArgs ticket applied elapsedMs).rearms = true) :
    NoneExecuted ((applied.filter fun a => isOurs ticket.id a.decision).map
      (fun a => .ended ticket.claim.tick ticket.id a.result) ++ events) ticket.id := by
  obtain ⟨-, hbut, -, hnil⟩ := h
  rcases SettleOverrideArgs.fate_of_rearms hrearms with hnone | ⟨failure, hfailed, hretriable⟩ |
      ⟨deterministic, claimUnresolved, haborted⟩
  · have hours := ours_eq_nil_of_fate_none hnone
    rw [hours]
    exact hnil (dispatched_eq_nil_of_ours happlied hours)
  · obtain ⟨a, ha, hfailure⟩ := exists_ours_of_fate_failed hfailed
    intro tick hdispatched
    rcases List.mem_append.mp hdispatched with hmem | hmem
    · simp at hmem
    · by_cases hsame : tick = ticket.claim.tick
      · subst hsame
        exact ⟨a.result, List.mem_append_left _ (List.mem_map_of_mem ha),
          unexecuted_of_retriable hfailure hretriable⟩
      · obtain ⟨result, hended, hunexecuted⟩ := hbut tick hmem hsame
        exact ⟨result, List.mem_append_right _ hended, hunexecuted⟩
  · exact absurd haborted fate_ne_aborted

theorem Kept.answer (h : s.Kept) (hphase : s.phase = .dispatching ticket work)
    (happlied : work.applied = .ok applied) :
    Kept { s with
      phase := .answered ticket work applied
      events := (applied.filter fun a => isOurs ticket.id a.decision).map
        (fun a => .ended ticket.claim.tick ticket.id a.result) ++ s.events } := by
  have hfits := h.fits
  rw [hphase] at hfits
  have hnoted := @Kept.note s h ((applied.filter fun a => isOurs ticket.id a.decision).map
    fun a => .ended ticket.claim.tick ticket.id a.result) (by simp) (by simp) (by simp)
  refine hnoted.advance ?_ ?_ ⟨?_, fun hattempted => ?_, fun elapsedMs hrearms => ?_⟩
    (forall_undispatched rfl _)
  · rw [hphase]
    rfl
  · rw [hphase]
    rfl
  · exact List.mem_append_right _ hfits.1
  · rw [hfits.2.2.1] at hattempted
    exact (hfits.2.2.2 (dispatched_eq_nil hattempted)).append (by simp)
  · exact noneExecuted_of_rearms hfits happlied hrearms

end Answer

theorem Kept.landRearm (h : s.Kept) {claim : OverrideClaim} (replied : Bool)
    (hwrite : s.writes[index]? = some (.rearm claim)) :
    ({ s with writes := s.writes.eraseIdx index }.landRearm claim replied).Kept := by
  have herased := h.erase hwrite
  rw [OverrideWorld.landRearm]
  split
  · have hrestored := @Kept.landKey s index _ h hwrite claim.override rfl
    dsimp only
    split
    · next ticket hphase =>
        split
        · exact hrestored.toIdle
        · rw [← hphase]
          exact hrestored
    · exact hrestored
  · dsimp only
    split
    · split
      · exact herased.toIdle.addWrite rfl nofun
      · exact herased
    · exact herased

theorem Kept.land (h : s.Kept) (replied : Bool) (hwrite : s.writes[index]? = some write) :
    ({ s with writes := s.writes.eraseIdx index }.landed replied write).Kept := by
  have herased := h.erase hwrite
  cases write with
  | setKey override => exact h.landKey hwrite rfl
  | deleteKey => exact herased.dropKey
  | claim claim => exact herased.landClaim claim replied
  | release claim => exact h.landRelease hwrite
  | rearm claim => exact h.landRearm replied hwrite
  | settle id outcome => exact herased.consume _ _ _
  | markPickedUp id =>
      exact herased.withRows (map_id_update fun _ => rfl) fun _ _ hheld => hheld.markPickedUp _ _

/-! ### Steps -/

theorem Kept.readKey (h : s.Kept) {override : Override} (hphase : s.phase = .idle)
    (hkey : s.key = some override) (ttlMs : Option ℤ) :
    Kept { s with phase := .read override ttlMs } := by
  have hread : ∀ id, keyHolds (.read override ttlMs) s.key id = 0 := by
    intro id
    rw [keyHolds, hkey, if_neg]
    rintro ⟨hsame, hother⟩
    exact hother hsame
  have hholds : ∀ id, (TickPhase.read override ttlMs).holds id = keyHolds s.phase s.key id := by
    intro id
    rw [keyHolds, hkey, hphase]
    simp [TickPhase.holds, TickPhase.carried, TickPhase.reads]
  refine h.move (fun id => ?_) (fun id hpos => ?_) ?_ fun claim hclaim => ?_
  · rw [hread, hholds, waiting]
    omega
  · rw [hread] at hpos
    exact h.clear id (hpos.trans_le (Nat.add_le_add_right (Nat.zero_le _) _))
  · refine h.clear _ ?_
    rw [waiting, ← hholds]
    exact Nat.add_pos_left (by simp [TickPhase.holds, TickPhase.carried]) _
  · exact ⟨(h.fenced claim hclaim).1, forall_undispatched rfl _⟩

theorem Kept.gate (h : s.Kept) {ticket : OverrideTicket} (hphase : s.phase = .held ticket)
    (hwon : ticket.verdict = some .won) (work : TickWork) :
    Kept { s with
      phase := .ready { ticket with orderAttempted := work.attemptsOrder } work
      writes := if work.attemptsOrder then s.writes ++ [.markPickedUp ticket.id]
        else s.writes } := by
  have hfits := h.fits
  rw [hphase] at hfits
  have hready : Kept { s with
      phase := .ready { ticket with orderAttempted := work.attemptsOrder } work } := by
    refine h.advance ?_ ?_ ⟨hfits.1, hfits.2.1, rfl, hfits.2.2 hwon⟩ fun passed hpassed => ?_
    · rw [hphase]
      rfl
    · rw [hphase]
      rfl
    · obtain rfl := Option.some.inj hpassed
      exact ⟨ticket, by rw [hphase]; rfl, rfl⟩
  split
  · exact hready.addWrite rfl nofun
  · exact hready

/-- A tick that stands down keeps its override, and may hand it on if it attempted no order. -/
theorem Kept.compensate (h : s.Kept) {ticket : OverrideTicket}
    (hcarried : s.phase.carried = some ticket.id) (hreads : s.phase.reads = none)
    (harmed : ticket.Armed s.events)
    (hclear : ticket.orderAttempted = false → NoneExecuted s.events ticket.id) :
    Kept { s with phase := .compensating ticket } :=
  h.advance hreads.symm hcarried.symm ⟨harmed, hclear⟩ (forall_undispatched rfl _)

theorem step_kept {label : OverrideStep} (h : s.Kept) (horderly : s.Orderly label)
    (hstep : s.step label = some t) : t.Kept := by
  have hfits := h.fits
  cases label with
  | setClock now =>
      cases hstep
      exact { h with }
  | arm override =>
      simp only [step] at hstep
      split at hstep
      · cases hstep
      · next hfresh =>
          cases hstep
          exact h.arm hfresh s.clock
  | cancelRead =>
      cases hstep
      exact { h with }
  | cancelDelete index =>
      simp only [step] at hstep
      split at hstep
      · cases hstep
        exact h.cancelDelete _
      · cases hstep
  | cancelAnswer index =>
      simp only [step] at hstep
      split at hstep
      · cases hstep
        exact { h with }
      · cases hstep
  | cancelEvict index =>
      simp only [step] at hstep
      split at hstep
      · cases hstep
        exact { h.dropKey with }
      · cases hstep
  | readKey ttlMs =>
      simp only [step] at hstep
      split at hstep
      · next override hphase hkey =>
          cases hstep
          exact h.readKey hphase hkey ttlMs
      · cases hstep
  | deleteKey =>
      simp only [step] at hstep
      split at hstep
      · next override ttlMs hphase =>
          cases hstep
          exact h.take hphase horderly
      · cases hstep
  | deleteFails =>
      simp only [step] at hstep
      split at hstep
      · cases hstep
        exact h.toIdle.addWrite rfl nofun
      · cases hstep
  | verdictTimeout =>
      simp only [step] at hstep
      split at hstep
      · next ticket hphase =>
          split at hstep
          · cases hstep
            rw [hphase] at hfits
            refine h.advance ?_ ?_ ⟨hfits.1, hfits.2.1, nofun⟩ fun passed hpassed => ?_
            · rw [hphase]
              rfl
            · rw [hphase]
              rfl
            · obtain rfl := Option.some.inj hpassed
              exact ⟨ticket, by rw [hphase]; rfl, rfl⟩
          · cases hstep
      · next ticket hphase =>
          split at hstep
          · cases hstep
            rw [hphase] at hfits
            exact h.compensate (by rw [hphase]; rfl) (by rw [hphase]; rfl) hfits.1 hfits.2
          · cases hstep
      · cases hstep
  | gate work =>
      simp only [step] at hstep
      split at hstep
      · next ticket hphase =>
          split at hstep
          · cases hstep
          · next hwon =>
              cases hstep
              exact h.gate hphase hwon work
          · cases hstep
            rw [hphase] at hfits
            exact h.compensate (by rw [hphase]; rfl) (by rw [hphase]; rfl) hfits.1
              fun _ => hfits.2.1
      · cases hstep
  | dispatch =>
      simp only [step] at hstep
      split at hstep
      · next ticket work hphase =>
          cases hstep
          exact h.dispatch hphase
      · cases hstep
  | answer =>
      simp only [step] at hstep
      split at hstep
      · next ticket work hphase =>
          split at hstep
          · cases hstep
          · next applied happlied =>
              cases hstep
              exact h.answer hphase happlied
      · cases hstep
  | settle elapsedMs =>
      simp only [step] at hstep
      split at hstep
      · next ticket work applied hphase =>
          cases hstep
          rw [hphase] at hfits
          exact h.settleWith (by rw [hphase]; rfl) (by rw [hphase]; rfl) hfits.1
            (hfits.2.2 elapsedMs)
      · cases hstep
  | abort deterministic =>
      simp only [step] at hstep
      split at hstep
      · cases hstep
        exact h.toIdle
      · next ticket hphase =>
          cases hstep
          rw [hphase] at hfits
          exact h.compensate (by rw [hphase]; rfl) (by rw [hphase]; rfl) hfits.1 fun _ => hfits.2.1
      · next ticket work hphase =>
          cases hstep
          rw [hphase] at hfits
          exact h.compensate (by rw [hphase]; rfl) (by rw [hphase]; rfl) hfits.1 fun _ => hfits.2.1
      · next ticket work hphase =>
          cases hstep
          rw [hphase] at hfits
          refine h.compensate (by rw [hphase]; rfl) (by rw [hphase]; rfl) hfits.1
            fun hattempted => ?_
          rw [hfits.2.2.1] at hattempted
          exact hfits.2.2.2 (dispatched_eq_nil hattempted)
      · next ticket work applied hphase =>
          cases hstep
          rw [hphase] at hfits
          exact h.compensate (by rw [hphase]; rfl) (by rw [hphase]; rfl) hfits.1 hfits.2.1
      · cases hstep
  | checkLive answered =>
      simp only [step] at hstep
      split at hstep
      · next ticket hphase =>
          split at hstep
          · cases hstep
          · split at hstep
            · cases hstep
              rw [hphase] at hfits
              exact h.advance (by rw [hphase]; rfl) (by rw [hphase]; rfl) hfits
                (forall_undispatched rfl _)
            · cases hstep
              exact h.toIdle
      · cases hstep
  | settleAborted elapsedMs =>
      simp only [step] at hstep
      split at hstep
      · next ticket hphase =>
          cases hstep
          rw [hphase] at hfits
          refine h.settleWith (by rw [hphase]; rfl) (by rw [hphase]; rfl) hfits.1 fun hrearms => ?_
          refine hfits.2 ?_
          rcases SettleOverrideArgs.fate_of_rearms hrearms with hnone | ⟨failure, hfailed, -⟩ |
              ⟨deterministic, claimUnresolved, haborted⟩
          · cases hnone
          · cases hfailed
          · exact (OverrideOrderFate.aborted.inj haborted).1
      · cases hstep
  | rearmDeadline =>
      simp only [step] at hstep
      split at hstep
      · cases hstep
        exact h.toIdle
      · cases hstep
  | land index replied =>
      obtain ⟨write, hwrite, rfl⟩ := Option.map_eq_some_iff.mp hstep
      exact h.land replied hwrite
  | lose index =>
      obtain ⟨write, hwrite, rfl⟩ := Option.map_eq_some_iff.mp hstep
      exact h.erase hwrite
  | crash =>
      cases hstep
      exact h.toIdle
  | expireKey =>
      cases hstep
      exact h.dropKey
  | sweepClaims =>
      cases hstep
      refine h.withRows (map_id_update fun _ => rfl) fun ticket hticket hheld => ?_
      exact hheld.reapStaleProcessing (Nat.sub_le_iff_le_add.mpr (horderly ticket hticket))
  | sweepPickedUp =>
      cases hstep
      exact h.consume _ _ _
  | sweepUntouched =>
      cases hstep
      exact h.consume _ _ _

/-- In a run in which every tick takes a later stamp and no sweep takes a tick for dead that is
about to dispatch, no override executes twice, or after its cancel. -/
theorem overrides_execute_once (s : OverrideWorld) (hreach : Reach step Orderly start s) :
    ExecutesOnce s.events :=
  (hreach.invariant start_kept fun _ _ _ hkept horderly hstep =>
    step_kept hkept horderly hstep).once

/-! ### Runs -/

def forceSell : Override := ⟨"a", .triggerSell⟩

def forcedOrder : Decision :=
  .placeOrder ⟨"BTCUSDT", .sell, "trigger-sell", "c", [], some "a", false⟩
    ⟨.market, .raw "1", none, none, none, none⟩

/-- A tick that sells for the override, and what the executor answers. -/
def sells (result : DecisionResult) : TickWork where
  decisions := [forcedOrder]
  env := ⟨⟨.ok 0, .ok fun _ => 0⟩, none, 0, ⟨fun _ _ => result, none⟩⟩
  overrideDeferred := false
  operatorActions := ["trigger-sell"]
  declineReason := none

def checksOrder (s : OverrideWorld) : OverrideStep → Bool
  | .deleteKey => s.events.all fun
      | .armed _ claimAt => decide (claimAt < s.clock)
      | _ => true
  | .sweepClaims => false
  | _ => true

theorem orderly_of_checksOrder (s : OverrideWorld) (label : OverrideStep)
    (h : s.checksOrder label = true) : s.Orderly label := by
  cases label with
  | deleteKey =>
      intro tick claimAt hmem
      exact of_decide_eq_true (List.all_eq_true.mp h _ hmem)
  | sweepClaims => cases h
  | _ => trivial

/-- A tick's order is turned away before it is sent; the next tick sells. -/
def sellsAgain : List OverrideStep :=
  [.setClock 5, .arm forceSell, .land 0 true, .readKey (some 300000), .deleteKey, .land 0 true,
    .gate (sells (.failed true .preCall false "throttled")), .dispatch, .answer, .settle 100,
    .land 0 true, .land 0 true, .land 0 true, .setClock 9, .readKey (some 299000), .deleteKey,
    .land 0 true, .gate (sells .ok), .dispatch, .answer, .settle 100, .land 0 true, .land 0 true]

theorem sellsAgain_once : ∃ s, Reach step Orderly start s ∧
    .dispatched 0 "a" ∈ s.events ∧ .dispatched 1 "a" ∈ s.events ∧ ExecutesOnce s.events := by
  have hevents : (run step checksOrder start sellsAgain).map (·.events) =
      some [.ended 1 "a" .ok, .dispatched 1 "a", .claimed 1 "a", .armed 1 9,
        .ended 0 "a" (.failed true .preCall false "throttled"), .dispatched 0 "a",
        .claimed 0 "a", .armed 0 5] := by decide +kernel
  obtain ⟨s, hrun, hevents⟩ := Option.map_eq_some_iff.mp hevents
  have hreach : Reach step Orderly start s := reach_of_run orderly_of_checksOrder hrun
  exact ⟨s, hreach, by simp [hevents], by simp [hevents], overrides_execute_once s hreach⟩

/-- A tick stalls between its claim and the executor for as long as a claim is taken to live. The
expiry sweep still finds the row fresh, the next statement of the same pass clears the claim, and
the operator cancels. -/
def stalls : List OverrideStep :=
  [.arm forceSell, .land 0 true, .readKey (some 300000), .deleteKey, .land 0 true,
    .setClock 600000, .sweepPickedUp, .sweepUntouched, .setClock 600001, .sweepClaims,
    .cancelRead, .cancelDelete 0, .cancelAnswer 0, .cancelEvict 0, .gate (sells .ok), .dispatch]

/-- Two ticks take the override within one millisecond. -/
def retries : List OverrideStep :=
  [.arm forceSell, .land 0 true, .readKey (some 300000), .deleteKey, .land 0 true,
    .gate (sells (.failed true .preCall false "throttled")), .dispatch, .answer, .settle 0,
    .land 0 true, .land 0 true, .land 0 true, .readKey (some 300000), .deleteKey]

/-- The cancelled override is dispatched, and two ticks have one stamp. -/
theorem cancelled_override_dispatched :
    (∃ s, Reach step (fun _ _ => True) start s ∧
      s.events = [.dispatched 0 "a", .cancelled "a", .claimed 0 "a", .armed 0 0] ∧
      ¬ ExecutesOnce s.events) ∧
    ∃ s, Reach step (fun _ _ => True) start s ∧ .armed 0 0 ∈ s.events ∧ .armed 1 0 ∈ s.events := by
  constructor
  · have hevents : (run step (fun _ _ => true) start stalls).map (·.events) =
        some [.dispatched 0 "a", .cancelled "a", .claimed 0 "a", .armed 0 0] := by decide +kernel
    obtain ⟨s, hrun, hevents⟩ := Option.map_eq_some_iff.mp hevents
    refine ⟨s, reach_of_run (fun _ _ _ => trivial) hrun, hevents, ?_⟩
    rw [hevents]
    rintro ⟨⟨-, hcancelled, -⟩, -⟩
    exact hcancelled List.mem_cons_self
  · have hevents : (run step (fun _ _ => true) start retries).map (·.events) =
        some [.armed 1 0, .ended 0 "a" (.failed true .preCall false "throttled"),
          .dispatched 0 "a", .claimed 0 "a", .armed 0 0] := by decide +kernel
    obtain ⟨s, hrun, hevents⟩ := Option.map_eq_some_iff.mp hevents
    exact ⟨s, reach_of_run (fun _ _ _ => trivial) hrun, by simp [hevents], by simp [hevents]⟩

end OverrideWorld

end TradingBot.Worker
