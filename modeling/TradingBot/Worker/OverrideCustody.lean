import Mathlib.Data.List.Perm.Subperm
import TradingBot.Worker.OverrideTicket

/-!
# Whose hands an override is in

What is claimed of the operator's overrides, and the invariant behind it. An
override is in the key, in a write on its way or in a tick's hands, and in one
of these only; outside its tick's hands none of its orders can have executed.
A claimed row stays in the table until its tick has dispatched, as long as no
release has its stamp and no sweep takes it for dead.
-/

namespace TradingBot.Worker

open OverrideActions LabelledRun

/-! ### What is claimed -/

/-- Every dispatch of an override so far ended without executing. -/
def NoneExecuted (events : List OverrideEvent) (id : String) : Prop :=
  ∀ tick, .dispatched tick id ∈ events →
    ∃ result, .ended tick id result ∈ events ∧ result.unexecuted = true

/-- Every dispatch but those of one tick did. -/
def NoneExecutedBut (events : List OverrideEvent) (id : String) (but : ℕ) : Prop :=
  ∀ tick, .dispatched tick id ∈ events → tick ≠ but →
    ∃ result, .ended tick id result ∈ events ∧ result.unexecuted = true

/-- An order of an override was dispatched by a tick whose claim had won, while no cancel had
deleted the row, and after every dispatch by another tick had ended without executing. No two
ticks claim with one stamp. -/
def ExecutesOnce : List OverrideEvent → Prop
  | [] => True
  | .dispatched tick id :: earlier =>
      (.claimed tick id ∈ earlier ∧ .cancelled id ∉ earlier ∧ NoneExecutedBut earlier id tick) ∧
        ExecutesOnce earlier
  | .armed _ claimAt :: earlier => (∀ tick, .armed tick claimAt ∉ earlier) ∧ ExecutesOnce earlier
  | _ :: earlier => ExecutesOnce earlier

/-- The ticket of a tick that has not dispatched. -/
def TickPhase.undispatched : TickPhase → Option OverrideTicket
  | .held ticket => some ticket
  | .ready ticket _ => some ticket
  | _ => none

namespace OverrideWorld

variable (s : OverrideWorld)

/-- The clock has moved on since the last tick took its stamp, and no sweep takes a tick for dead
that is about to dispatch. -/
def Orderly : OverrideStep → Prop
  | .deleteKey => ∀ tick claimAt, .armed tick claimAt ∈ s.events → claimAt < s.clock
  | .sweepClaims =>
      ∀ ticket, s.phase.undispatched = some ticket →
        s.clock ≤ ticket.claim.claimAt + overrideClaimStaleMs
  | _ => True

end OverrideWorld

/-! ### Events -/

section Events

variable {events : List OverrideEvent} {id : String}

theorem NoneExecuted.but (h : NoneExecuted events id) (tick : ℕ) :
    NoneExecutedBut events id tick := fun other hother _ => h other hother

theorem NoneExecuted.append {added : List OverrideEvent} (h : NoneExecuted events id)
    (hadded : ∀ tick, .dispatched tick id ∉ added) : NoneExecuted (added ++ events) id := by
  intro tick hdispatched
  rcases List.mem_append.mp hdispatched with hmem | hmem
  · exact absurd hmem (hadded tick)
  · obtain ⟨result, hended, hunexecuted⟩ := h tick hmem
    exact ⟨result, List.mem_append_right _ hended, hunexecuted⟩

theorem NoneExecuted.cons {event : OverrideEvent} (h : NoneExecuted events id)
    (hevent : ∀ tick, .dispatched tick id ≠ event) : NoneExecuted (event :: events) id :=
  @NoneExecuted.append events id [event] h fun tick hmem => hevent tick (List.mem_singleton.mp hmem)

theorem NoneExecutedBut.append {added : List OverrideEvent} {but : ℕ}
    (h : NoneExecutedBut events id but)
    (hadded : ∀ tick, .dispatched tick id ∈ added → tick = but) :
    NoneExecutedBut (added ++ events) id but := by
  intro tick hdispatched hother
  rcases List.mem_append.mp hdispatched with hmem | hmem
  · exact absurd (hadded tick hmem) hother
  · obtain ⟨result, hended, hunexecuted⟩ := h tick hmem hother
    exact ⟨result, List.mem_append_right _ hended, hunexecuted⟩

theorem ExecutesOnce.append {added : List OverrideEvent} (h : ExecutesOnce events)
    (hdispatched : ∀ tick id, .dispatched tick id ∉ added)
    (harmed : ∀ tick claimAt, .armed tick claimAt ∉ added) : ExecutesOnce (added ++ events) := by
  induction added with
  | nil => exact h
  | cons event rest ih =>
      have hrest := ih (fun tick id hmem => hdispatched tick id (List.mem_cons_of_mem _ hmem))
        fun tick claimAt hmem => harmed tick claimAt (List.mem_cons_of_mem _ hmem)
      cases event with
      | armed tick claimAt => exact absurd (List.mem_cons_self ..) (harmed tick claimAt)
      | claimed tick id => exact hrest
      | cancelled id => exact hrest
      | dispatched tick id => exact absurd (List.mem_cons_self ..) (hdispatched tick id)
      | ended tick id result => exact hrest

theorem ExecutesOnce.dispatch {α : Type} {tick : ℕ} (h : ExecutesOnce events) (orders : List α)
    (hclaimed : .claimed tick id ∈ events) (hcancelled : .cancelled id ∉ events)
    (hbut : NoneExecutedBut events id tick) :
    ExecutesOnce (orders.map (fun _ => .dispatched tick id) ++ events) := by
  induction orders with
  | nil => exact h
  | cons order rest ih =>
      refine ⟨⟨List.mem_append_right _ hclaimed, fun hmem => ?_, ?_⟩, ih⟩
      · rcases List.mem_append.mp hmem with hmem | hmem
        · obtain ⟨_, -, hevent⟩ := List.mem_map.mp hmem
          cases hevent
        · exact hcancelled hmem
      · refine hbut.append fun other hmem => ?_
        obtain ⟨_, -, hevent⟩ := List.mem_map.mp hmem
        cases hevent
        rfl

end Events

/-! ### Whose hands an override is in -/

/-- The override a tick has in hand. One whose key is still to be restored is not. -/
def TickPhase.carried : TickPhase → Option String
  | .idle => none
  | .read override _ => some override.overrideActionId
  | .held ticket => some ticket.id
  | .ready ticket _ => some ticket.id
  | .dispatching ticket _ => some ticket.id
  | .answered ticket _ _ => some ticket.id
  | .compensating ticket => some ticket.id
  | .cleared ticket => some ticket.id
  | .rearming _ => none

/-- The override whose key was read and is still to be deleted. -/
def TickPhase.reads : TickPhase → Option String
  | .read override _ => some override.overrideActionId
  | _ => none

/-- The override a write puts into the key. -/
def OverrideWrite.restores : OverrideWrite → Option String
  | .setKey override => some override.overrideActionId
  | .rearm taken => some taken.id
  | _ => none

def TickPhase.holds (phase : TickPhase) (id : String) : ℕ :=
  if phase.carried = some id then 1 else 0

/-- A key that was read counts as its tick's. -/
def keyHolds (phase : TickPhase) (key : Option Override) (id : String) : ℕ :=
  if key.map (·.overrideActionId) = some id ∧ phase.reads ≠ some id then 1 else 0

def writesHold (writes : List OverrideWrite) (id : String) : ℕ :=
  writes.countP fun write => write.restores = some id

/-- How often an override waits for a tick. -/
def OverrideWorld.waiting (s : OverrideWorld) (id : String) : ℕ :=
  keyHolds s.phase s.key id + writesHold s.writes id

/-! ### What a tick relies on -/

namespace OverrideTicket

variable (ticket : OverrideTicket)

/-- The tick's stamp is on record. -/
def Armed (events : List OverrideEvent) : Prop :=
  .armed ticket.claim.tick ticket.claim.claimAt ∈ events

/-- The tick's claim won, and its row is safe from a cancel. -/
def Owns (rows : List OverrideActionRow) (events : List OverrideEvent) : Prop :=
  .claimed ticket.claim.tick ticket.id ∈ events ∧ Held rows ticket.id ticket.claim.claimAt

end OverrideTicket

/-- What holds while a tick is in a phase. -/
def TickPhase.Fits (rows : List OverrideActionRow) (events : List OverrideEvent) :
    TickPhase → Prop
  | .idle => True
  | .read override _ => NoneExecuted events override.overrideActionId
  | .held ticket =>
      ticket.Armed events ∧ NoneExecuted events ticket.id ∧
        (ticket.verdict = some .won → ticket.Owns rows events)
  | .ready ticket work =>
      ticket.Armed events ∧ NoneExecuted events ticket.id ∧
        ticket.orderAttempted = work.attemptsOrder ∧ ticket.Owns rows events
  | .dispatching ticket work =>
      ticket.Armed events ∧ NoneExecutedBut events ticket.id ticket.claim.tick ∧
        ticket.orderAttempted = work.attemptsOrder ∧
        (work.dispatched ticket.id = [] → NoneExecuted events ticket.id)
  | .answered ticket work applied =>
      ticket.Armed events ∧ (ticket.orderAttempted = false → NoneExecuted events ticket.id) ∧
        ∀ elapsedMs, (work.settleArgs ticket applied elapsedMs).rearms = true →
          NoneExecuted events ticket.id
  | .compensating ticket =>
      ticket.Armed events ∧ (ticket.orderAttempted = false → NoneExecuted events ticket.id)
  | .cleared ticket =>
      ticket.Armed events ∧ (ticket.orderAttempted = false → NoneExecuted events ticket.id)
  | .rearming _ => True

section Fits

variable {phase : TickPhase} {rows rows' : List OverrideActionRow}
  {events added : List OverrideEvent}

theorem TickPhase.Fits.append (h : phase.Fits rows events)
    (hadded : ∀ tick id, .dispatched tick id ∉ added) : phase.Fits rows (added ++ events) := by
  have harmed : ∀ ticket : OverrideTicket, ticket.Armed events → ticket.Armed (added ++ events) :=
    fun ticket harmed => List.mem_append_right _ harmed
  have hnone : ∀ id, NoneExecuted events id → NoneExecuted (added ++ events) id :=
    fun id hnone => hnone.append (hadded · id)
  have howns : ∀ ticket : OverrideTicket, ticket.Owns rows events →
      ticket.Owns rows (added ++ events) :=
    fun ticket howns => ⟨List.mem_append_right _ howns.1, howns.2⟩
  cases phase with
  | idle => trivial
  | read override ttlMs => exact hnone _ h
  | held ticket => exact ⟨harmed _ h.1, hnone _ h.2.1, fun hwon => howns _ (h.2.2 hwon)⟩
  | ready ticket work => exact ⟨harmed _ h.1, hnone _ h.2.1, h.2.2.1, howns _ h.2.2.2⟩
  | dispatching ticket work =>
      refine ⟨harmed _ h.1, h.2.1.append fun tick hmem => ?_, h.2.2.1, fun hnil => ?_⟩
      · exact absurd hmem (hadded tick _)
      · exact hnone _ (h.2.2.2 hnil)
  | answered ticket work applied =>
      exact ⟨harmed _ h.1, fun hattempted => hnone _ (h.2.1 hattempted),
        fun elapsedMs hrearms => hnone _ (h.2.2 elapsedMs hrearms)⟩
  | compensating ticket => exact ⟨harmed _ h.1, fun hattempted => hnone _ (h.2 hattempted)⟩
  | cleared ticket => exact ⟨harmed _ h.1, fun hattempted => hnone _ (h.2 hattempted)⟩
  | rearming ticket => trivial

theorem TickPhase.Fits.withRows (h : phase.Fits rows events)
    (hheld : ∀ ticket, phase.undispatched = some ticket →
      Held rows ticket.id ticket.claim.claimAt → Held rows' ticket.id ticket.claim.claimAt) :
    phase.Fits rows' events := by
  cases phase with
  | held ticket => exact ⟨h.1, h.2.1, fun hwon => ⟨(h.2.2 hwon).1, hheld _ rfl (h.2.2 hwon).2⟩⟩
  | ready ticket work => exact ⟨h.1, h.2.1, h.2.2.1, h.2.2.2.1, hheld _ rfl h.2.2.2.2⟩
  | idle => trivial
  | read override ttlMs => exact h
  | dispatching ticket work => exact h
  | answered ticket work applied => exact h
  | compensating ticket => exact h
  | cleared ticket => exact h
  | rearming ticket => trivial

end Fits

/-! ### The invariant -/

namespace OverrideWorld

/-- An override is in at most one pair of hands, and waits for a tick only where none of its
orders can have executed. The rows are those that were armed and not cancelled, and a release on
its way is none of the tick that is about to dispatch. -/
structure Kept (s : OverrideWorld) : Prop where
  once : ExecutesOnce s.events
  single : ∀ id, s.phase.holds id + s.waiting id ≤ 1
  issued : ∀ id, 0 < s.phase.holds id + s.waiting id → id ∈ s.issued
  clear : ∀ id, 0 < s.waiting id → NoneExecuted s.events id
  fits : s.phase.Fits s.rows s.events
  ids : (s.rows.map (·.id)).Nodup
  known : ∀ row ∈ s.rows, row.id ∈ s.issued
  uncancelled : ∀ row ∈ s.rows, .cancelled row.id ∉ s.events
  cancelled : ∀ id, .cancelled id ∈ s.events → id ∈ s.issued
  sent : ∀ tick id, .dispatched tick id ∈ s.events → id ∈ s.issued
  fenced : ∀ claim, .release claim ∈ s.writes →
    (∃ tick, .armed tick claim.claimAt ∈ s.events) ∧
      ∀ ticket, s.phase.undispatched = some ticket → claim.claimAt ≠ ticket.claim.claimAt

theorem forall_undispatched {phase : TickPhase} (h : phase.undispatched = none)
    (P : OverrideTicket → Prop) (ticket : OverrideTicket)
    (hticket : phase.undispatched = some ticket) : P ticket := by
  rw [h] at hticket
  cases hticket

theorem start_kept : start.Kept where
  once := trivial
  single id := by simp [start, TickPhase.holds, TickPhase.carried, waiting, keyHolds, writesHold]
  issued id := by simp [start, TickPhase.holds, TickPhase.carried, waiting, keyHolds, writesHold]
  clear id := by simp [start, waiting, keyHolds, writesHold]
  fits := trivial
  ids := List.nodup_nil
  known := nofun
  uncancelled := nofun
  cancelled := nofun
  sent := nofun
  fenced := nofun

variable {s t : OverrideWorld} {phase : TickPhase} {key : Option Override}
  {writes : List OverrideWrite} {id : String} {index : ℕ} {write : OverrideWrite}

/-! #### Passing an override on -/

theorem keyHolds_le (override : Override) :
    keyHolds phase (some override) id ≤ if override.overrideActionId = id then 1 else 0 := by
  simp only [keyHolds, Option.map_some, Option.some.injEq]
  split
  · next h => rw [if_pos h.1]
  · exact Nat.zero_le _

theorem keyHolds_none : keyHolds phase none id = 0 := by
  simp [keyHolds]

theorem writesHold_append (writes : List OverrideWrite) (write : OverrideWrite) (id : String) :
    writesHold (writes ++ [write]) id =
      writesHold writes id + if write.restores = some id then 1 else 0 := by
  simp [writesHold, List.countP_append, List.countP_singleton]

theorem writesHold_erase (hwrite : writes[index]? = some write) (id : String) :
    writesHold writes id =
      writesHold (writes.eraseIdx index) id + if write.restores = some id then 1 else 0 := by
  obtain ⟨hlt, rfl⟩ := List.getElem?_eq_some_iff.mp hwrite
  have hperm := List.getElem_cons_eraseIdx_perm hlt
  rw [writesHold, ← hperm.countP_eq, List.countP_cons, writesHold]
  simp

/-- A step that hands overrides on: nobody gains one, and none waits that may have executed. -/
theorem Kept.move (h : s.Kept)
    (hhands : ∀ id, phase.holds id + (keyHolds phase key id + writesHold writes id) ≤
      s.phase.holds id + s.waiting id)
    (hclear : ∀ id, 0 < keyHolds phase key id + writesHold writes id → NoneExecuted s.events id)
    (hfits : phase.Fits s.rows s.events)
    (hfenced : ∀ claim, .release claim ∈ writes →
      (∃ tick, .armed tick claim.claimAt ∈ s.events) ∧
        ∀ ticket, phase.undispatched = some ticket → claim.claimAt ≠ ticket.claim.claimAt) :
    Kept { s with phase, key, writes } :=
  { h with
    single := fun id => (hhands id).trans (h.single id)
    issued := fun id hpos => h.issued id (hpos.trans_le (hhands id))
    clear := hclear
    fits := hfits
    fenced := hfenced }

/-- A tick goes on with what it has in hand. -/
theorem Kept.advance (h : s.Kept) (hreads : phase.reads = s.phase.reads)
    (hcarried : phase.carried = s.phase.carried) (hfits : phase.Fits s.rows s.events)
    (hundispatched : ∀ ticket, phase.undispatched = some ticket →
      ∃ before, s.phase.undispatched = some before ∧ before.claim = ticket.claim) :
    Kept { s with phase } := by
  have hwaiting : ∀ id, keyHolds phase s.key id + writesHold s.writes id = s.waiting id := by
    intro id
    rw [waiting, keyHolds, keyHolds, hreads]
  refine h.move (fun id => ?_) (fun id hpos => ?_) hfits fun claim hclaim => ?_
  · rw [hwaiting, TickPhase.holds, hcarried]
    rfl
  · rw [hwaiting] at hpos
    exact h.clear id hpos
  · obtain ⟨harmed, hother⟩ := h.fenced claim hclaim
    refine ⟨harmed, fun ticket hticket => ?_⟩
    obtain ⟨before, hbefore, hsame⟩ := hundispatched ticket hticket
    rw [← hsame]
    exact hother before hbefore

theorem carried_of_reads (h : phase.reads = some id) : phase.carried = some id := by
  cases phase <;> first | exact h | cases h

theorem noneExecuted_of_reads {rows : List OverrideActionRow} {events : List OverrideEvent}
    (h : phase.Fits rows events) (hreads : phase.reads = some id) : NoneExecuted events id := by
  cases phase <;> cases hreads
  exact h

/-- A tick that ends drops what it has in hand; a key it has not deleted waits again. -/
theorem Kept.toIdle (h : s.Kept) : Kept { s with phase := .idle } := by
  have hidle : ∀ id, keyHolds .idle s.key id ≤ keyHolds s.phase s.key id ∨
      s.phase.reads = some id := by
    intro id
    by_cases hreads : s.phase.reads = some id
    · exact .inr hreads
    · refine .inl ?_
      simp only [keyHolds]
      split
      · next hkey => rw [if_pos ⟨hkey.1, hreads⟩]
      · exact Nat.zero_le _
  refine h.move (fun id => ?_) (fun id hpos => ?_) trivial fun claim hclaim => ?_
  · have hzero : TickPhase.idle.holds id = 0 := rfl
    rw [hzero, Nat.zero_add]
    rcases hidle id with hle | hreads
    · exact (Nat.add_le_add_right hle _).trans (Nat.le_add_left _ _)
    · have hholds : s.phase.holds id = 1 := if_pos (carried_of_reads hreads)
      have hkey : keyHolds .idle s.key id ≤ 1 := by
        rw [keyHolds]
        split
        · exact le_rfl
        · exact Nat.zero_le _
      rw [hholds, waiting]
      omega
  · rcases hidle id with hle | hreads
    · exact h.clear id (hpos.trans_le (Nat.add_le_add_right hle _))
    · exact noneExecuted_of_reads h.fits hreads
  · exact ⟨(h.fenced claim hclaim).1, forall_undispatched rfl _⟩

theorem Kept.dropKey (h : s.Kept) : Kept { s with key := none } := by
  refine h.move (fun id => ?_) (fun id hpos => ?_) h.fits h.fenced
  · rw [keyHolds_none, waiting]
    omega
  · rw [keyHolds_none] at hpos
    exact h.clear id (hpos.trans_le (by rw [waiting]; omega))

theorem Kept.addWrite (h : s.Kept) (hrestores : write.restores = none)
    (hrelease : ∀ claim, write ≠ .release claim) :
    Kept { s with writes := s.writes ++ [write] } := by
  have hsame : ∀ id, writesHold (s.writes ++ [write]) id = writesHold s.writes id := by
    intro id
    rw [writesHold_append, hrestores]
    rfl
  refine h.move (fun id => ?_) (fun id hpos => ?_) h.fits fun claim hclaim => ?_
  · rw [hsame, waiting]
  · rw [hsame] at hpos
    exact h.clear id hpos
  · rcases List.mem_append.mp hclaim with hmem | hmem
    · exact h.fenced claim hmem
    · exact absurd (List.mem_singleton.mp hmem).symm (hrelease claim)

theorem Kept.erase (h : s.Kept) (hwrite : s.writes[index]? = some write) :
    Kept { s with writes := s.writes.eraseIdx index } := by
  have hle : ∀ id, writesHold (s.writes.eraseIdx index) id ≤ writesHold s.writes id := by
    intro id
    rw [writesHold_erase hwrite id]
    exact Nat.le_add_right _ _
  refine h.move (fun id => ?_) (fun id hpos => ?_) h.fits fun claim hclaim => ?_
  · rw [waiting]
    exact Nat.add_le_add_left (Nat.add_le_add_left (hle id) _) _
  · exact h.clear id (hpos.trans_le (Nat.add_le_add_left (hle id) _))
  · exact h.fenced claim (List.mem_of_mem_eraseIdx hclaim)

theorem Kept.landKey (h : s.Kept) (hwrite : s.writes[index]? = some write) {override : Override}
    (hrestores : write.restores = some override.overrideActionId) :
    Kept { s with key := some override, writes := s.writes.eraseIdx index } := by
  have hpassed : ∀ id, keyHolds s.phase (some override) id +
      writesHold (s.writes.eraseIdx index) id ≤ writesHold s.writes id := by
    intro id
    rw [writesHold_erase hwrite id, hrestores, Nat.add_comm]
    have hkey := @keyHolds_le s.phase id override
    simp only [Option.some.injEq]
    omega
  refine h.move (fun id => ?_) (fun id hpos => ?_) h.fits fun claim hclaim => ?_
  · rw [waiting]
    exact Nat.add_le_add_left ((hpassed id).trans (Nat.le_add_left _ _)) _
  · exact h.clear id ((hpos.trans_le (hpassed id)).trans_le (Nat.le_add_left _ _))
  · exact h.fenced claim (List.mem_of_mem_eraseIdx hclaim)

theorem Kept.settleWith (h : s.Kept) {ticket : OverrideTicket} {args : SettleOverrideArgs}
    (hcarried : s.phase.carried = some ticket.id) (hreads : s.phase.reads = none)
    (harmed : ticket.Armed s.events)
    (hclear : args.rearms = true → NoneExecuted s.events ticket.id) :
    (s.settleWith ticket args).Kept := by
  rw [OverrideWorld.settleWith]
  split
  · next hrearms =>
      have hholds : ∀ id, s.phase.holds id = if ticket.id = id then 1 else 0 := by
        intro id
        rw [TickPhase.holds, hcarried]
        simp only [Option.some.injEq]
      have hwrites : ∀ id, writesHold
          (s.writes ++ [.release ticket.claim, .rearm ticket.claim]) id =
          writesHold s.writes id + if ticket.id = id then 1 else 0 := by
        intro id
        have hsplit : s.writes ++ [.release ticket.claim, .rearm ticket.claim] =
            (s.writes ++ [.release ticket.claim]) ++ [.rearm ticket.claim] := by simp
        rw [hsplit, writesHold_append, writesHold_append]
        simp only [OverrideWrite.restores, Option.some.injEq, reduceCtorEq, if_false, Nat.add_zero]
        rfl
      have hkey : ∀ id, keyHolds (.rearming ticket) s.key id = keyHolds s.phase s.key id := by
        intro id
        rw [keyHolds, keyHolds, hreads]
        rfl
      refine h.move (fun id => ?_) (fun id hpos => ?_) trivial fun claim hclaim => ?_
      · have hzero : (TickPhase.rearming ticket).holds id = 0 := rfl
        rw [hzero, hkey, hwrites, hholds, waiting]
        omega
      · rw [hkey, hwrites] at hpos
        by_cases hsame : ticket.id = id
        · rw [← hsame]
          exact hclear hrearms
        · rw [if_neg hsame] at hpos
          exact h.clear id hpos
      · refine ⟨?_, forall_undispatched rfl _⟩
        rcases List.mem_append.mp hclaim with hmem | hmem
        · exact (h.fenced claim hmem).1
        · simp only [List.mem_cons, OverrideWrite.release.injEq, reduceCtorEq, List.not_mem_nil,
            or_false] at hmem
          subst hmem
          exact ⟨_, harmed⟩
  · exact h.toIdle.addWrite rfl nofun

/-! #### Rows -/

theorem mem_ids {rows rows' : List OverrideActionRow} (hids : rows'.map (·.id) = rows.map (·.id))
    {row : OverrideActionRow} (hrow : row ∈ rows') : ∃ before ∈ rows, before.id = row.id := by
  have hmem : row.id ∈ rows'.map (·.id) := List.mem_map_of_mem hrow
  rw [hids] at hmem
  exact List.mem_map.mp hmem

/-- A write that keeps the row of a tick about to dispatch. -/
theorem Kept.withRows (h : s.Kept) {rows : List OverrideActionRow}
    (hids : rows.map (·.id) = s.rows.map (·.id))
    (hheld : ∀ ticket, s.phase.undispatched = some ticket →
      Held s.rows ticket.id ticket.claim.claimAt → Held rows ticket.id ticket.claim.claimAt) :
    Kept { s with rows } :=
  { h with
    fits := h.fits.withRows hheld
    ids := by
      rw [hids]
      exact h.ids
    known := fun row hrow => by
      obtain ⟨before, hbefore, hid⟩ := mem_ids hids hrow
      rw [← hid]
      exact h.known before hbefore
    uncancelled := fun row hrow => by
      obtain ⟨before, hbefore, hid⟩ := mem_ids hids hrow
      rw [← hid]
      exact h.uncancelled before hbefore }

theorem Kept.consume (h : s.Kept) (now : ℕ) (narrow : OverrideActionRow → Bool)
    (outcome : OverrideOutcomeInput) :
    Kept { s with rows := consume s.rows now narrow outcome } :=
  h.withRows (map_id_consume now narrow outcome) fun _ _ hheld => hheld.consume now narrow outcome

theorem Kept.landRelease (h : s.Kept) {claim : OverrideClaim}
    (hwrite : s.writes[index]? = some (.release claim)) :
    Kept { s with
      rows := releaseClaim s.rows claim.id claim.claimAt
      writes := s.writes.eraseIdx index } := by
  refine (h.erase hwrite).withRows (map_id_update fun _ => rfl) fun ticket hticket hheld => ?_
  have hother := (h.fenced claim (List.mem_of_getElem? hwrite)).2 ticket hticket
  exact hheld.releaseClaim claim.id hother

/-- A new row, and its key on the way. -/
theorem Kept.arm (h : s.Kept) {override : Override}
    (hfresh : override.overrideActionId ∉ s.issued) (now : ℕ) :
    Kept { s with
      rows := record s.rows now override.overrideActionId
      issued := override.overrideActionId :: s.issued
      writes := s.writes ++ [.setKey override] } := by
  have hzero : s.phase.holds override.overrideActionId +
      s.waiting override.overrideActionId = 0 := by
    by_contra hpos
    exact hfresh (h.issued _ (Nat.pos_of_ne_zero hpos))
  have hwrites : ∀ id, writesHold (s.writes ++ [.setKey override]) id =
      writesHold s.writes id + if override.overrideActionId = id then 1 else 0 := by
    intro id
    rw [writesHold_append]
    simp only [OverrideWrite.restores, Option.some.injEq]
  have hids : (record s.rows now override.overrideActionId).map (·.id) =
      s.rows.map (·.id) ++ [override.overrideActionId] := by
    rw [record, List.map_append, map_id_consume]
    rfl
  have hrow : ∀ row ∈ record s.rows now override.overrideActionId,
      (∃ before ∈ s.rows, before.id = row.id) ∨ row.id = override.overrideActionId := by
    intro row hrow
    have hmem : row.id ∈ (record s.rows now override.overrideActionId).map (·.id) :=
      List.mem_map_of_mem hrow
    rw [hids] at hmem
    exact (List.mem_append.mp hmem).imp List.mem_map.mp List.mem_singleton.mp
  exact
    { h with
      single := fun id => by
        have hbefore := h.single id
        simp only [waiting] at hbefore hzero ⊢
        rw [hwrites]
        split
        · next hsame =>
            subst hsame
            omega
        · omega
      issued := fun id hpos => by
        by_cases hsame : override.overrideActionId = id
        · rw [hsame]
          exact List.mem_cons_self
        · refine List.mem_cons_of_mem _ (h.issued id ?_)
          simp only [waiting, hwrites, if_neg hsame] at hpos
          exact hpos
      clear := fun id hpos => by
        by_cases hsame : override.overrideActionId = id
        · -- nothing was dispatched of an override that is armed only now
          subst hsame
          exact fun tick hdispatched => absurd (h.sent tick _ hdispatched) hfresh
        · refine h.clear id ?_
          simp only [waiting, hwrites, if_neg hsame] at hpos
          exact hpos
      fits := h.fits.withRows fun _ _ hheld => hheld.record now _
      ids := by
        rw [hids]
        refine List.nodup_append.mpr ⟨h.ids, List.nodup_singleton _, ?_⟩
        rintro id hid other hother rfl
        obtain ⟨row, hbefore, rfl⟩ := List.mem_map.mp hid
        rw [← List.mem_singleton.mp hother] at hfresh
        exact hfresh (h.known row hbefore)
      known := fun row hmem => by
        rcases hrow row hmem with ⟨before, hbefore, hid⟩ | hid
        · rw [← hid]
          exact List.mem_cons_of_mem _ (h.known before hbefore)
        · rw [hid]
          exact List.mem_cons_self
      uncancelled := fun row hmem => by
        rcases hrow row hmem with ⟨before, hbefore, hid⟩ | hid
        · rw [← hid]
          exact h.uncancelled before hbefore
        · rw [hid]
          exact fun hcancelled => hfresh (h.cancelled _ hcancelled)
      cancelled := fun id hid => List.mem_cons_of_mem _ (h.cancelled id hid)
      sent := fun tick id hid => List.mem_cons_of_mem _ (h.sent tick id hid)
      fenced := fun claim hclaim => by
        rcases List.mem_append.mp hclaim with hmem | hmem
        · exact h.fenced claim hmem
        · cases List.mem_singleton.mp hmem }

theorem Kept.cancelDelete (h : s.Kept) (cancels : List CancelRequest) :
    Kept { s with
      rows := deletePendingForSymbol s.rows
      cancels
      events := (deletedIds s.rows).map .cancelled ++ s.events } := by
  have hadded : ∀ tick id, .dispatched tick id ∉
      (deletedIds s.rows).map OverrideEvent.cancelled := by simp
  have hsublist : (deletePendingForSymbol s.rows).Sublist s.rows := List.filter_sublist
  have hmem : ∀ id, .cancelled id ∈ (deletedIds s.rows).map OverrideEvent.cancelled ++ s.events →
      id ∈ deletedIds s.rows ∨ .cancelled id ∈ s.events := by
    intro id hid
    simpa using hid
  exact
    { h with
      once := h.once.append hadded (by simp)
      clear := fun id hpos => (h.clear id hpos).append (hadded · id)
      fits := (h.fits.withRows fun _ _ hheld => hheld.deletePendingForSymbol).append hadded
      ids := h.ids.sublist (hsublist.map _)
      known := fun row hrow => h.known row (hsublist.subset hrow)
      uncancelled := fun row hrow hcancelled => by
        rcases hmem row.id hcancelled with hdeleted | hearlier
        · exact not_deleted_of_mem h.ids hrow hdeleted
        · exact h.uncancelled row (hsublist.subset hrow) hearlier
      cancelled := fun id hid => by
        rcases hmem id hid with hdeleted | hearlier
        · obtain ⟨row, hrow, rfl⟩ := List.mem_map.mp hdeleted
          exact h.known row (List.mem_of_mem_filter hrow)
        · exact h.cancelled id hearlier
      sent := fun tick id hid => by
        rcases List.mem_append.mp hid with hmem | hmem
        · exact absurd hmem (hadded tick id)
        · exact h.sent tick id hmem
      fenced := fun claim hclaim => by
        obtain ⟨⟨tick, harmed⟩, hother⟩ := h.fenced claim hclaim
        exact ⟨⟨tick, List.mem_append_right _ harmed⟩, hother⟩ }

end OverrideWorld

end TradingBot.Worker
