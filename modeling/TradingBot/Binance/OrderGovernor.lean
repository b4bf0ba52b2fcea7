import Mathlib.Data.Rat.Floor
import TradingBot.Lib.LabelledRun
import TradingBot.Lib.RollingTally

/-!
# The order-rate governor

One account's order budget over several rolling windows at once. A reservation
commits when it fits in every window and otherwise sleeps until the blocking
window's oldest record ages out, then checks again against whatever the windows
have become: another reservation may have landed, the exchange's own count may
have topped a window up, and the window set itself may have been replaced.

A step is what runs between two suspensions of the program: an entry, a wake, an
abort, a header reading, a new window set, a look at the tally, or the clock
moving on.
-/

namespace TradingBot.OrderGovernor

open RollingTally LabelledRun

/-- One row of the exchange's order limits. -/
structure OrderRateWindow where
  windowMs : ℚ
  limit : ℚ

abbrev Record := Entry ℚ ℚ

/-- A metered window. The program keeps `records`; `recorded` is everything it ever put there. -/
structure WindowState where
  windowMs : ℚ
  ceiling : ℤ
  records : List Record
  recorded : List Record
deriving DecidableEq

/-! ### Windows -/

/-- The limit after the haircut, never rounded to nothing. -/
def ceilingOf (utilisation limit : ℚ) : ℤ := max 1 ⌊limit * utilisation⌋

/-- Set a window under its length, in the place that length already has. -/
def setWindow (w : WindowState) : List WindowState → List WindowState
  | [] => [w]
  | v :: ws => if v.windowMs = w.windowMs then w :: ws else v :: setWindow w ws

/-- A row as a window, with the tally its length already carries. -/
def carryWindow (utilisation : ℚ) (previous : List WindowState) (row : OrderRateWindow) :
    WindowState :=
  let carried := previous.find? (·.windowMs == row.windowMs)
  { windowMs := row.windowMs
    ceiling := ceilingOf utilisation row.limit
    records := (carried.map (·.records)).getD []
    recorded := (carried.map (·.recorded)).getD [] }

/-- Replace the window set, or refuse a malformed one whole. -/
def applyWindows (utilisation : ℚ) (previous : List WindowState) (next : List OrderRateWindow) :
    Option (List WindowState) :=
  if next.all fun row => 0 < row.windowMs && 0 < row.limit then
    some (next.foldl (fun ws row => setWindow (carryWindow utilisation previous row) ws) [])
  else none

/-- Drop what the window has left behind. -/
def WindowState.prune (now : ℚ) (w : WindowState) : WindowState :=
  { w with records := expire (now - w.windowMs) w.records }

def WindowState.record (now amount : ℚ) (w : WindowState) : WindowState :=
  { w with
    records := w.records ++ [⟨now, amount⟩]
    recorded := w.recorded ++ [⟨now, amount⟩] }

/-- The rolling count, once the window has been pruned. -/
def WindowState.used (now : ℚ) (w : WindowState) : ℚ := total (w.prune now).records

/-- The windows as the scan leaves them, and the first that cannot admit the count. -/
def blockingWindow (count : ℕ) (now : ℚ) :
    List WindowState → List WindowState × Option WindowState
  | [] => ([], none)
  | w :: ws =>
      if w.ceiling < w.used now + count then (w.prune now :: ws, some (w.prune now))
      else
        let (scanned, blocked) := blockingWindow count now ws
        (w.prune now :: scanned, blocked)

def commit (count : ℕ) (now : ℚ) (windows : List WindowState) : List WindowState :=
  windows.map (·.record now count)

/-! ### Reservations -/

/-- The longest one reservation may wait in all. -/
def maxReserveWaitMs : ℚ := 60000

/-- One turn of the reservation loop. -/
inductive Attempt where
  | commits (windows : List WindowState)
  | refused (windows : List WindowState) (windowMs waitMs : ℚ)
  | sleeps (windows : List WindowState) (waitMs : ℚ)

def attempt (count : ℕ) (deadline now : ℚ) (windows : List WindowState) : Attempt :=
  match blockingWindow count now windows with
  | (scanned, none) => .commits (commit count now scanned)
  | (scanned, some blocked) =>
      match blocked.records with
      -- believed unreachable by the source, which commits here unchecked
      | [] => .commits (commit count now scanned)
      | oldest :: _ =>
          let waitMs := max 1 (oldest.ts + blocked.windowMs - now)
          if deadline < now + waitMs then .refused scanned blocked.windowMs waitMs
          else .sleeps scanned waitMs

/-- A reservation asleep; `checkedAt` and `checks` are its last check and their number. -/
structure Reservation where
  count : ℕ
  enteredAt : ℚ
  checkedAt : ℚ
  wakeAt : ℚ
  checks : ℕ
deriving DecidableEq

def Reservation.deadline (r : Reservation) : ℚ := r.enteredAt + maxReserveWaitMs

/-- A reservation at its entry, before its first check. -/
def Reservation.entering (count : ℕ) (now : ℚ) : Reservation where
  count
  enteredAt := now
  checkedAt := now
  wakeAt := now
  checks := 0

/-- The governor, its clock and its sleepers; `committed` is what was admitted since the windows
were last set. -/
structure System where
  windows : List WindowState
  now : ℚ
  waiting : List Reservation
  committed : List Record
deriving DecidableEq

inductive Label where
  | advance (now : ℚ)
  | reserve (count : ℕ)
  | wake (sleeper : ℕ)
  | abort (sleeper : ℕ)
  | observe (windowMs used : ℚ)
  | reconfigure (next : List OrderRateWindow)
  | hasHeadroom (count : ℕ)
  | used (windowMs : ℚ)

/-- A window's count topped up to the exchange's own, never down. -/
def WindowState.topUp (now used : ℚ) (w : WindowState) : WindowState :=
  if w.used now < used then (w.prune now).record now (used - w.used now) else w.prune now

/-- Rework the window of a given length. -/
def onWindow (windowMs : ℚ) (f : WindowState → WindowState) (windows : List WindowState) :
    List WindowState :=
  windows.map fun w => if w.windowMs = windowMs then f w else w

def unsatisfiable (count : ℕ) (windows : List WindowState) : Bool :=
  windows.any fun w => w.ceiling < count

/-- Settle one turn of a reservation's loop. -/
def check (s : System) (r : Reservation) (others : List Reservation) : System :=
  match attempt r.count r.deadline s.now s.windows with
  | .commits windows =>
      { s with windows, waiting := others, committed := s.committed ++ [⟨s.now, r.count⟩] }
  | .refused windows _ _ => { s with windows, waiting := others }
  | .sleeps windows waitMs =>
      { s with
        windows
        waiting := others ++
          [{ r with checkedAt := s.now, wakeAt := s.now + waitMs, checks := r.checks + 1 }] }

def step (utilisation : ℚ) (s : System) : Label → Option System
  | .advance now => if s.now ≤ now then some { s with now } else none
  | .reserve count =>
      -- a count of nothing and one no window can ever hold both throw
      if count = 0 || unsatisfiable count s.windows then some s
      else some (check s (.entering count s.now) s.waiting)
  | .wake i =>
      match s.waiting[i]? with
      | none => none
      | some r => if s.now < r.wakeAt then none else some (check s r (s.waiting.eraseIdx i))
  | .abort i =>
      if i < s.waiting.length then some { s with waiting := s.waiting.eraseIdx i } else none
  | .observe windowMs used =>
      if used < 0 then some s
      else some { s with windows := onWindow windowMs (·.topUp s.now used) s.windows }
  | .reconfigure next =>
      match applyWindows utilisation s.windows next with
      | none => some s
      | some windows => some { s with windows, committed := [] }
  | .hasHeadroom count =>
      if count = 0 || unsatisfiable count s.windows then some s
      else some { s with windows := (blockingWindow count s.now s.windows).1 }
  | .used windowMs => some { s with windows := onWindow windowMs (·.prune s.now) s.windows }

/-- The governor as it is built from its first window set. -/
def created (utilisation : ℚ) (rows : List OrderRateWindow) (now : ℚ) : Option System :=
  if 0 < utilisation ∧ utilisation ≤ 1 then
    (applyWindows utilisation [] rows).map fun windows =>
      { windows, now, waiting := [], committed := [] }
  else none

/-! ### What a window remembers -/

/-- A window at an instant: what it dropped has left it, and what was admitted is recorded. -/
structure Tallied (now : ℚ) (committed : List Record) (w : WindowState) : Prop where
  width : 0 < w.windowMs
  past : ∃ dropped, w.recorded = dropped ++ w.records ∧ ∀ e ∈ dropped, e.ts ≤ now - w.windowMs
  chronological : Chronological w.recorded
  seen : ∀ e ∈ w.recorded, e.ts ≤ now
  nonneg : ∀ e ∈ w.recorded, 0 ≤ e.amount
  holds : committed.Sublist w.recorded
  span : ∀ start, total (between start (start + w.windowMs) committed) ≤ (w.ceiling : ℚ)

section Window

variable {now now' : ℚ} {committed : List Record} {w : WindowState} {count : ℕ}

/-- The lazily pruned count is the count of everything recorded in the window. -/
theorem Tallied.used_eq (h : Tallied now committed w) :
    w.used now = total (since (now - w.windowMs) w.recorded) :=
  congrArg total (Remembers.expire_eq h.past h.chronological)

theorem Tallied.prune (h : Tallied now committed w) : Tallied now committed (w.prune now) :=
  { h with past := Remembers.expire h.past }

theorem Tallied.later (h : Tallied now committed w) (hle : now ≤ now') :
    Tallied now' committed w :=
  { h with
    past := Remembers.later h.past (sub_le_sub_right hle _)
    seen := fun e he => (h.seen e he).trans hle }

/-- Recording more keeps the tally, if what counts as admitted still fits. -/
theorem Tallied.record {amount : ℚ} {admitted : List Record} (h : Tallied now committed w)
    (hamount : 0 ≤ amount) (hadmitted : admitted.Sublist (w.recorded ++ [⟨now, amount⟩]))
    (hspan : ∀ start, total (between start (start + w.windowMs) admitted) ≤ (w.ceiling : ℚ)) :
    Tallied now admitted (w.record now amount) := by
  obtain ⟨dropped, heq, hpast⟩ := h.past
  refine ⟨h.width, ⟨dropped, ?_, hpast⟩, chronological_append h.chronological h.seen,
    ?_, ?_, hadmitted,
    hspan⟩
  · simp [WindowState.record, heq]
  · intro e he
    rcases List.mem_append.mp he with he | he
    · exact h.seen e he
    · rw [List.mem_singleton.mp he]
  · intro e he
    rcases List.mem_append.mp he with he | he
    · exact h.nonneg e he
    · rw [List.mem_singleton.mp he]
      exact hamount

theorem Tallied.topUp {used : ℚ} (h : Tallied now committed w) :
    Tallied now committed (w.topUp now used) := by
  unfold WindowState.topUp
  split
  · next hless =>
      have hpruned := h.prune
      exact hpruned.record (sub_nonneg.mpr hless.le)
        (hpruned.holds.trans (List.sublist_append_left _ _)) hpruned.span
  · exact h.prune

/-- An admission that fits beside the rolling count keeps every span within the ceiling. -/
theorem Tallied.admits (h : Tallied now committed w)
    (hfits : w.used now + count ≤ (w.ceiling : ℚ)) :
    Tallied now (committed ++ [⟨now, count⟩]) (w.record now count) := by
  have hpart : total (since (now - w.windowMs) committed) ≤ w.used now := by
    rw [h.used_eq]
    refine total_le_of_sublist (h.holds.filter _) fun e he => ?_
    exact h.nonneg e (List.mem_of_mem_filter he)
  refine h.record (by positivity) (h.holds.append (List.Sublist.refl _)) ?_
  exact span_append_le (fun e he => h.nonneg e (h.holds.subset he)) h.span
    ((add_le_add_left hpart _).trans hfits)

theorem Tallied.recorded_le (h : Tallied now committed w)
    (hfits : w.used now + count ≤ (w.ceiling : ℚ)) :
    total (since (now - w.windowMs) (w.record now count).recorded) ≤ (w.ceiling : ℚ) := by
  have hnew : since (now - w.windowMs) [(⟨now, (count : ℚ)⟩ : Record)] = [⟨now, (count : ℚ)⟩] := by
    simp [since, h.width]
  change total (since _ (w.recorded ++ [_])) ≤ _
  rw [since, List.filter_append, total_append, ← since, ← since, hnew, total_singleton,
    ← h.used_eq]
  exact hfits

end Window

/-! ### The scan -/

section Scan

variable {count : ℕ} {now : ℚ} {windows scanned : List WindowState} {blocked : WindowState}

/-- A scan without a blocker pruned every window and found room in it. -/
theorem blockingWindow_none (h : (blockingWindow count now windows).2 = none) :
    (blockingWindow count now windows).1 = windows.map (·.prune now) ∧
      ∀ w ∈ windows, w.used now + count ≤ (w.ceiling : ℚ) := by
  induction windows with
  | nil => exact ⟨rfl, by simp⟩
  | cons w ws ih =>
      unfold blockingWindow at h ⊢
      split at h
      · cases h
      · next hroom =>
          obtain ⟨hscanned, hfits⟩ := ih h
          rw [if_neg hroom]
          refine ⟨by simp [hscanned], fun v hv => ?_⟩
          rcases List.mem_cons.mp hv with rfl | hv
          · exact not_lt.mp hroom
          · exact hfits v hv

theorem blockingWindow_some (h : (blockingWindow count now windows).2 = some blocked) :
    ∃ w ∈ windows, blocked = w.prune now ∧ (w.ceiling : ℚ) < w.used now + count := by
  induction windows with
  | nil => cases h
  | cons w ws ih =>
      unfold blockingWindow at h
      split at h
      · next hfull => exact ⟨w, List.mem_cons_self, (Option.some.inj h).symm, hfull⟩
      · obtain ⟨v, hv, heq, hfull⟩ := ih h
        exact ⟨v, List.mem_cons_of_mem w hv, heq, hfull⟩

theorem mem_scanned {v : WindowState} (hv : v ∈ (blockingWindow count now windows).1) :
    ∃ w ∈ windows, v = w ∨ v = w.prune now := by
  induction windows with
  | nil => cases hv
  | cons w ws ih =>
      unfold blockingWindow at hv
      split at hv
      · rcases List.mem_cons.mp hv with rfl | hv
        · exact ⟨w, List.mem_cons_self, .inr rfl⟩
        · exact ⟨v, List.mem_cons_of_mem w hv, .inl rfl⟩
      · rcases List.mem_cons.mp hv with rfl | hv
        · exact ⟨w, List.mem_cons_self, .inr rfl⟩
        · obtain ⟨u, hu, heq⟩ := ih hv
          exact ⟨u, List.mem_cons_of_mem w hu, heq⟩

theorem blocked_has_records (hroom : unsatisfiable count windows = false)
    (h : (blockingWindow count now windows).2 = some blocked) : blocked.records ≠ [] := by
  obtain ⟨w, hw, rfl, hfull⟩ := blockingWindow_some h
  intro hempty
  have hceiling : (count : ℤ) ≤ w.ceiling := by
    simpa [unsatisfiable] using List.any_eq_false.mp hroom w hw
  have hused : w.used now = 0 := by rw [WindowState.used, hempty]; rfl
  rw [hused, zero_add] at hfull
  exact absurd hfull (not_lt.mpr (by exact_mod_cast hceiling))

theorem attempt_cases (deadline : ℚ) (hguard : ∀ blocked,
      (blockingWindow count now windows).2 = some blocked → blocked.records ≠ []) :
    (attempt count deadline now windows = .commits (commit count now (windows.map (·.prune now))) ∧
        ∀ w ∈ windows, w.used now + count ≤ (w.ceiling : ℚ)) ∨
      (∃ windowMs waitMs, attempt count deadline now windows =
        .refused (blockingWindow count now windows).1 windowMs waitMs) ∨
      ∃ waitMs, attempt count deadline now windows =
          .sleeps (blockingWindow count now windows).1 waitMs ∧
        1 ≤ waitMs ∧ now + waitMs ≤ deadline := by
  unfold attempt
  split
  · next scanned heq =>
      obtain ⟨hscanned, hfits⟩ := blockingWindow_none (congrArg Prod.snd heq)
      rw [heq] at hscanned
      exact .inl ⟨by rw [← hscanned], hfits⟩
  · next scanned blocked heq =>
      rw [heq] at hguard ⊢
      split
      · next hempty => exact absurd hempty (hguard blocked rfl)
      · next oldest rest _ =>
          dsimp only
          split
          · exact .inr (.inl ⟨_, _, rfl⟩)
          · next hin => exact .inr (.inr ⟨_, rfl, le_max_left _ _, not_lt.mp hin⟩)

end Scan

/-! ### Whole runs -/

/-- A sleeper: its last check, its next one within the deadline, and how many there have been. -/
structure Patient (r : Reservation) : Prop where
  later : r.checkedAt + 1 ≤ r.wakeAt
  inTime : r.wakeAt ≤ r.deadline
  counted : r.enteredAt + r.checks ≤ r.wakeAt

structure Invariant (s : System) : Prop where
  tallied : ∀ w ∈ s.windows, Tallied s.now s.committed w
  patient : ∀ r ∈ s.waiting, Patient r

/-- The step does not wake a reservation whose first blocking window has nothing recorded. -/
def BlockedByRecords (s : System) : Label → Prop
  | .wake i => ∀ r, s.waiting[i]? = some r → ∀ blocked,
      (blockingWindow r.count s.now s.windows).2 = some blocked → blocked.records ≠ []
  | _ => True

/-- A step that admits a reservation. -/
def Admits (s t : System) : Prop := ∃ count, t.committed = s.committed ++ [⟨s.now, count⟩]

section Runs

variable {utilisation : ℚ} {s t : System} {r : Reservation} {others : List Reservation}

theorem tallied_scanned {count : ℕ} (h : ∀ w ∈ s.windows, Tallied s.now s.committed w) :
    ∀ w ∈ (blockingWindow count s.now s.windows).1, Tallied s.now s.committed w := by
  intro v hv
  obtain ⟨w, hw, rfl | rfl⟩ := mem_scanned hv
  · exact h v hw
  · exact (h w hw).prune

theorem Tallied.used_prune {now : ℚ} {committed : List Record} {w : WindowState}
    (h : Tallied now committed w) : (w.prune now).used now = w.used now := by
  rw [h.prune.used_eq, h.used_eq]
  rfl

theorem check_now (s : System) (r : Reservation) (others : List Reservation) :
    (check s r others).now = s.now := by
  unfold check
  split <;> rfl

theorem check_keeps (hs : Invariant s) (hothers : ∀ r ∈ others, Patient r)
    (hentered : r.enteredAt + r.checks ≤ s.now)
    (hguard : ∀ blocked,
      (blockingWindow r.count s.now s.windows).2 = some blocked → blocked.records ≠ []) :
    Invariant (check s r others) ∧ (Admits s (check s r others) → ∀ w ∈ (check s r others).windows,
      total (since (s.now - w.windowMs) w.recorded) ≤ (w.ceiling : ℚ)) := by
  have hnot : ∀ committed : List Record, committed = s.committed →
      ¬ ∃ count, committed = s.committed ++ [(⟨s.now, count⟩ : Record)] := by
    rintro committed rfl ⟨count, heq⟩
    simpa using congrArg List.length heq
  unfold check
  obtain ⟨heq, hfits⟩ | ⟨windowMs, waitMs, heq⟩ | ⟨waitMs, heq, hwait, hin⟩ :=
    attempt_cases r.deadline hguard
  · -- admitted: it fits beside everything recorded in every window
    rw [heq]
    have hroom : ∀ w ∈ s.windows, Tallied s.now s.committed (w.prune s.now) ∧
        (w.prune s.now).used s.now + r.count ≤ ((w.prune s.now).ceiling : ℚ) := fun w hw =>
      ⟨(hs.tallied w hw).prune, by
        rw [(hs.tallied w hw).used_prune]
        exact hfits w hw⟩
    have hmem : ∀ v ∈ commit r.count s.now (s.windows.map (·.prune s.now)),
        ∃ w ∈ s.windows, v = (w.prune s.now).record s.now r.count := by
      intro v hv
      obtain ⟨u, hu, rfl⟩ := List.mem_map.mp hv
      obtain ⟨w, hw, rfl⟩ := List.mem_map.mp hu
      exact ⟨w, hw, rfl⟩
    refine ⟨⟨fun v hv => ?_, hothers⟩, fun _ v hv => ?_⟩
    · obtain ⟨w, hw, rfl⟩ := hmem v hv
      exact (hroom w hw).1.admits (hroom w hw).2
    · obtain ⟨w, hw, rfl⟩ := hmem v hv
      exact (hroom w hw).1.recorded_le (hroom w hw).2
  · rw [heq]
    exact ⟨⟨tallied_scanned hs.tallied, hothers⟩, fun hadmits => absurd hadmits (hnot _ rfl)⟩
  · rw [heq]
    refine ⟨⟨tallied_scanned hs.tallied, fun q hq => ?_⟩,
      fun hadmits => absurd hadmits (hnot _ rfl)⟩
    rcases List.mem_append.mp hq with hq | hq
    · exact hothers q hq
    · rw [List.mem_singleton.mp hq]
      refine ⟨by simpa using hwait, hin, ?_⟩
      push_cast
      linarith

theorem mem_setWindow {v w : WindowState} {ws : List WindowState} (hv : v ∈ setWindow w ws) :
    v = w ∨ v ∈ ws := by
  induction ws with
  | nil => exact .inl (List.mem_singleton.mp hv)
  | cons u ws ih =>
      unfold setWindow at hv
      split at hv
      · rcases List.mem_cons.mp hv with rfl | hv
        · exact .inl rfl
        · exact .inr (List.mem_cons_of_mem u hv)
      · rcases List.mem_cons.mp hv with rfl | hv
        · exact .inr List.mem_cons_self
        · exact (ih hv).imp_right (List.mem_cons_of_mem u)

/-- Every window of a new set is one of its rows, with the tally of its length. -/
theorem mem_applyWindows {previous windows : List WindowState} {next : List OrderRateWindow}
    (h : applyWindows utilisation previous next = some windows) {v : WindowState}
    (hv : v ∈ windows) :
    ∃ row, 0 < row.windowMs ∧ v = carryWindow utilisation previous row := by
  unfold applyWindows at h
  split at h
  · next hall =>
      cases h
      have hfold : ∀ (rows : List OrderRateWindow) (ws : List WindowState),
          (∀ row ∈ rows, 0 < row.windowMs) →
          (∀ w ∈ ws, ∃ row, 0 < row.windowMs ∧ w = carryWindow utilisation previous row) →
          ∀ w ∈ rows.foldl (fun ws row => setWindow (carryWindow utilisation previous row) ws) ws,
            ∃ row, 0 < row.windowMs ∧ w = carryWindow utilisation previous row := by
        intro rows
        induction rows with
        | nil => exact fun ws _ hws => hws
        | cons row rows ih =>
            intro ws hrows hws
            refine ih _ (fun r hr => hrows r (List.mem_cons_of_mem row hr)) fun w hw => ?_
            rcases mem_setWindow hw with rfl | hw
            · exact ⟨row, hrows row List.mem_cons_self, rfl⟩
            · exact hws w hw
      refine hfold next [] (fun row hrow => ?_) (by simp) v hv
      have hrow := List.all_eq_true.mp hall row hrow
      exact of_decide_eq_true ((Bool.and_eq_true _ _).mp hrow).1
  · cases h

/-- A window set starts from the tallies it inherits, with nothing admitted under it yet. -/
theorem tallied_carryWindow {now : ℚ} {committed : List Record} {previous : List WindowState}
    {row : OrderRateWindow} (hprevious : ∀ w ∈ previous, Tallied now committed w)
    (hrow : 0 < row.windowMs) : Tallied now [] (carryWindow utilisation previous row) := by
  have hceiling : (0 : ℚ) ≤ (ceilingOf utilisation row.limit : ℤ) := by
    exact_mod_cast (zero_le_one.trans (le_max_left 1 _) : (0 : ℤ) ≤ ceilingOf utilisation row.limit)
  cases hfind : previous.find? (·.windowMs == row.windowMs) with
  | none =>
      refine ⟨hrow, ⟨[], ?_, by simp⟩, ?_, ?_, ?_, List.nil_sublist _, fun _ => hceiling⟩
      · simp [carryWindow, hfind]
      · simp [carryWindow, hfind, Chronological]
      · simp [carryWindow, hfind]
      · simp [carryWindow, hfind]
  | some w =>
      have hw := hprevious w (List.mem_of_find?_eq_some hfind)
      have hlength : w.windowMs = row.windowMs := by simpa using List.find?_some hfind
      have hrecords : (carryWindow utilisation previous row).records = w.records := by
        simp [carryWindow, hfind]
      have hrecorded : (carryWindow utilisation previous row).recorded = w.recorded := by
        simp [carryWindow, hfind]
      refine ⟨hrow, ?_, hrecorded ▸ hw.chronological, hrecorded ▸ hw.seen, hrecorded ▸ hw.nonneg,
        List.nil_sublist _, fun _ => hceiling⟩
      rw [hrecords, hrecorded]
      change ∃ dropped : List Record, _ ∧ ∀ e ∈ dropped, e.ts ≤ now - row.windowMs
      rw [← hlength]
      exact hw.past

theorem mem_onWindow {windowMs : ℚ} {f : WindowState → WindowState} {windows : List WindowState}
    {v : WindowState} (hv : v ∈ onWindow windowMs f windows) :
    ∃ w ∈ windows, v = w ∨ v = f w := by
  obtain ⟨w, hw, rfl⟩ := List.mem_map.mp hv
  refine ⟨w, hw, ?_⟩
  split
  · exact .inr rfl
  · exact .inl rfl

theorem patient_eraseIdx (hs : Invariant s) (i : ℕ) : ∀ r ∈ s.waiting.eraseIdx i, Patient r :=
  fun r hr => hs.patient r (List.mem_of_mem_eraseIdx hr)

/-- Every step the guard allows keeps the invariant, and admits only within the ceilings. -/
theorem step_keeps {label : Label} (hs : Invariant s) (hguard : BlockedByRecords s label)
    (htaken : step utilisation s label = some t) :
    Invariant t ∧ (Admits s t → ∀ w ∈ t.windows,
      total (since (t.now - w.windowMs) w.recorded) ≤ (w.ceiling : ℚ)) := by
  -- a step that leaves the admissions alone, or forgets them, admits nothing
  have hquiet : ∀ {u : System}, u.committed = s.committed ∨ u.committed = [] → ¬ Admits s u := by
    rintro u (hu | hu) ⟨count, hcount⟩
    · rw [hu] at hcount
      simpa using congrArg List.length hcount
    · rw [hu] at hcount
      simpa using congrArg List.length hcount
  cases label with
  | advance now =>
      simp only [step] at htaken
      split at htaken
      · next hle =>
          cases htaken
          exact ⟨⟨fun w hw => (hs.tallied w hw).later hle, hs.patient⟩,
            fun h => absurd h (hquiet (.inl rfl))⟩
      · cases htaken
  | reserve count =>
      simp only [step] at htaken
      split at htaken
      · cases htaken
        exact ⟨hs, fun h => absurd h (hquiet (.inl rfl))⟩
      · next hpossible =>
          cases htaken
          have hroom : unsatisfiable count s.windows = false :=
            (Bool.or_eq_false_iff.mp (Bool.eq_false_of_not_eq_true hpossible)).2
          have hentered : (Reservation.entering count s.now).enteredAt +
              (Reservation.entering count s.now).checks ≤ s.now := by
            simp [Reservation.entering]
          rw [check_now]
          exact check_keeps hs hs.patient hentered fun blocked h => blocked_has_records hroom h
  | wake i =>
      simp only [step] at htaken
      split at htaken
      · cases htaken
      · next r hr =>
          split at htaken
          · cases htaken
          · next hdue =>
              cases htaken
              have hr' := hs.patient r (List.mem_of_getElem? hr)
              rw [check_now]
              exact check_keeps hs (patient_eraseIdx hs i)
                (hr'.counted.trans (not_lt.mp hdue)) (hguard r hr)
  | abort i =>
      simp only [step] at htaken
      split at htaken
      · cases htaken
        exact ⟨⟨hs.tallied, patient_eraseIdx hs i⟩, fun h => absurd h (hquiet (.inl rfl))⟩
      · cases htaken
  | observe windowMs used =>
      simp only [step] at htaken
      split at htaken
      · cases htaken
        exact ⟨hs, fun h => absurd h (hquiet (.inl rfl))⟩
      · cases htaken
        refine ⟨⟨fun v hv => ?_, hs.patient⟩, fun h => absurd h (hquiet (.inl rfl))⟩
        obtain ⟨w, hw, rfl | rfl⟩ := mem_onWindow hv
        · exact hs.tallied v hw
        · exact (hs.tallied w hw).topUp
  | reconfigure next =>
      simp only [step] at htaken
      split at htaken
      · cases htaken
        exact ⟨hs, fun h => absurd h (hquiet (.inl rfl))⟩
      · next windows happlied =>
          cases htaken
          refine ⟨⟨fun v hv => ?_, hs.patient⟩, fun h => absurd h (hquiet (.inr rfl))⟩
          obtain ⟨row, hrow, rfl⟩ := mem_applyWindows happlied hv
          exact tallied_carryWindow hs.tallied hrow
  | hasHeadroom count =>
      simp only [step] at htaken
      split at htaken
      · cases htaken
        exact ⟨hs, fun h => absurd h (hquiet (.inl rfl))⟩
      · cases htaken
        exact ⟨⟨tallied_scanned hs.tallied, hs.patient⟩, fun h => absurd h (hquiet (.inl rfl))⟩
  | used windowMs =>
      cases htaken
      refine ⟨⟨fun v hv => ?_, hs.patient⟩, fun h => absurd h (hquiet (.inl rfl))⟩
      obtain ⟨w, hw, rfl | rfl⟩ := mem_onWindow hv
      · exact hs.tallied v hw
      · exact (hs.tallied w hw).prune

theorem invariant_created {rows : List OrderRateWindow} {now : ℚ}
    (h : created utilisation rows now = some s) : Invariant s := by
  unfold created at h
  split at h
  · obtain ⟨windows, happlied, rfl⟩ := Option.map_eq_some_iff.mp h
    refine ⟨fun v hv => ?_, by simp⟩
    obtain ⟨row, hrow, rfl⟩ := mem_applyWindows happlied hv
    have hnone : ∀ w ∈ ([] : List WindowState), Tallied now [] w := by simp
    exact tallied_carryWindow hnone hrow
  · cases h

theorem check_past_deadline (h : r.deadline ≤ s.now) : (check s r others).waiting = others := by
  have hlate : ∀ windows waitMs,
      attempt r.count r.deadline s.now s.windows ≠ .sleeps windows waitMs := by
    intro windows waitMs heq
    unfold attempt at heq
    split at heq
    · cases heq
    · split at heq
      · cases heq
      · dsimp only at heq
        split at heq
        · cases heq
        · next hin =>
            refine hin (lt_of_le_of_lt h ?_)
            exact lt_add_of_pos_right _ (lt_of_lt_of_le one_pos (le_max_left 1 _))
  unfold check
  split
  · rfl
  · rfl
  · next windows waitMs heq => exact absurd heq (hlate windows waitMs)

/--
A run in which no reservation wakes to a blocking window with an empty tally
never over-admits: an admission leaves every window's recorded count within its
ceiling, what is admitted in one window's length under one window set is within
that ceiling, and a reservation still asleep is due again within its deadline,
after at most as many checks as the deadline has milliseconds. A check at the
deadline or later ends it.
-/
theorem governor_never_over_admits (utilisation : ℚ) (rows : List OrderRateWindow) (start : ℚ)
    (s₀ s t : System) (label : Label) (hcreated : created utilisation rows start = some s₀)
    (hrun : Reach (step utilisation) BlockedByRecords s₀ s) (hguard : BlockedByRecords s label)
    (htaken : step utilisation s label = some t) :
    (Admits s t → ∀ w ∈ t.windows,
        total (since (t.now - w.windowMs) w.recorded) ≤ (w.ceiling : ℚ)) ∧
      (∀ w ∈ t.windows, ∀ opens,
        total (between opens (opens + w.windowMs) t.committed) ≤ (w.ceiling : ℚ)) ∧
      (∀ r ∈ t.waiting, r.checkedAt < r.wakeAt ∧ r.wakeAt ≤ r.enteredAt + maxReserveWaitMs ∧
        r.checks ≤ maxReserveWaitMs) ∧
      ∀ i r, label = .wake i → s.waiting[i]? = some r → r.enteredAt + maxReserveWaitMs ≤ s.now →
        t.waiting = s.waiting.eraseIdx i := by
  have hs : Invariant s := hrun.invariant (invariant_created hcreated)
    fun _ _ _ h hok htaken => (step_keeps h hok htaken).1
  obtain ⟨ht, hadmits⟩ := step_keeps hs hguard htaken
  refine ⟨hadmits, fun w hw => (ht.tallied w hw).span, fun r hr => ?_, ?_⟩
  · have hpatient := ht.patient r hr
    have hdue : r.wakeAt ≤ r.enteredAt + maxReserveWaitMs := hpatient.inTime
    exact ⟨by linarith [hpatient.later], hdue, by linarith [hpatient.counted]⟩
  · rintro i r rfl hr hpast
    simp only [step, hr] at htaken
    split at htaken
    · cases htaken
    · cases htaken
      exact check_past_deadline hpast

end Runs

/-! ### A window set tightened under a sleeper -/

/-- The published ten-second row of the exchange's live venue. -/
def liveRow : OrderRateWindow := { windowMs := 10000, limit := 100 }

def liveGovernor : System where
  windows := [{ windowMs := 10000, ceiling := 80, records := [], recorded := [] }]
  now := 0
  waiting := []
  committed := []

/-- Two reservations of fifty and forty, the second asleep until the first ages out. -/
def sleeperQueued : System where
  windows := [{ windowMs := 10000, ceiling := 80, records := [⟨0, 50⟩], recorded := [⟨0, 50⟩] }]
  now := 0
  waiting := [{ count := 40, enteredAt := 0, checkedAt := 0, wakeAt := 10000, checks := 1 }]
  committed := [⟨0, 50⟩]

/-- The same after the row was tightened and the first reservation left the window. -/
def sleeperStranded : System :=
  { sleeperQueued with
    windows := [{ windowMs := 10000, ceiling := 8, records := [⟨0, 50⟩], recorded := [⟨0, 50⟩] }]
    now := 10000
    committed := [] }

/-- Ten seconds later, the sleeper wakes and is admitted
beside a record that has left the window. -/
def sleeperAdmitted : System :=
  { sleeperQueued with
    windows := [{ windowMs := 10000, ceiling := 80, records := [⟨10000, 40⟩]
                  recorded := [⟨0, 50⟩, ⟨10000, 40⟩] }]
    now := 10000
    waiting := []
    committed := [⟨0, 50⟩, ⟨10000, 40⟩] }

/-- Both reservations are admitted, and no ten seconds take more than the ceiling. -/
theorem sleeper_within_ceiling :
    step (4 / 5) { sleeperQueued with now := 10000 } (.wake 0) = some sleeperAdmitted ∧
      ∀ w ∈ sleeperAdmitted.windows, ∀ opens,
        total (between opens (opens + w.windowMs) sleeperAdmitted.committed) ≤ (w.ceiling : ℚ) := by
  have hfirst : Reach (step (4 / 5)) BlockedByRecords liveGovernor
      { sleeperQueued with waiting := [] } :=
    .single ⟨.reserve 50, trivial, by decide +kernel⟩
  have hqueued : Reach (step (4 / 5)) BlockedByRecords liveGovernor sleeperQueued :=
    hfirst.tail ⟨.reserve 40, trivial, by decide +kernel⟩
  have hreach : Reach (step (4 / 5)) BlockedByRecords liveGovernor
      { sleeperQueued with now := 10000 } :=
    hqueued.tail ⟨.advance 10000, trivial, by decide +kernel⟩
  have hwakes : step (4 / 5) { sleeperQueued with now := 10000 } (.wake 0) =
      some sleeperAdmitted := by decide +kernel
  have hguard : BlockedByRecords { sleeperQueued with now := 10000 } (.wake 0) := by
    -- with the first record gone, no window blocks the sleeper
    rintro r hr blocked hblocked
    cases hr
    have hfits : (blockingWindow 40 10000 sleeperQueued.windows).2 = none := by decide +kernel
    cases hfits.symm.trans hblocked
  exact ⟨hwakes, (governor_never_over_admits (4 / 5) [liveRow] 0 liveGovernor _ sleeperAdmitted
    (.wake 0) (by decide +kernel) hreach hguard hwakes).2.1⟩

/-- Forty orders are admitted into a window that may hold eight. -/
theorem tightened_under_sleeper_over_admits :
    created (4 / 5) [liveRow] 0 = some liveGovernor ∧
      Reach (step (4 / 5)) (fun _ _ => True) liveGovernor sleeperStranded ∧
      ∃ t, step (4 / 5) sleeperStranded (.wake 0) = some t ∧ Admits sleeperStranded t ∧
        ∃ w ∈ t.windows, (w.ceiling : ℚ) < total (since (t.now - w.windowMs) w.recorded) := by
  have hrun : run (step (4 / 5)) (fun _ _ => true) liveGovernor
      [.reserve 50, .reserve 40, .reconfigure [{ windowMs := 10000, limit := 10 }],
        .advance 10000] = some sleeperStranded := by
    decide +kernel
  refine ⟨by decide +kernel, reach_of_run (fun _ _ _ => trivial) hrun, ?_⟩
  refine ⟨{ sleeperStranded with
    windows := [{ windowMs := 10000, ceiling := 8, records := [⟨10000, 40⟩]
                  recorded := [⟨0, 50⟩, ⟨10000, 40⟩] }]
    waiting := []
    committed := [⟨10000, 40⟩] }, by decide +kernel, ⟨40, rfl⟩, _, List.mem_cons_self, ?_⟩
  decide +kernel

end TradingBot.OrderGovernor
