import Mathlib.Algebra.Order.BigOperators.Group.Finset
import TradingBot.Binance.WeightGovernor
import TradingBot.Lib.LabelledRun

/-!
# The in-process governor

What one process admitted, as a rolling tally with a band at its top kept free
for orders. The shared governor falls back on it: while the key cannot be
reached, an order is metered by its own pod and a bulk read is turned away.
-/

namespace TradingBot.WeightGovernor

open RollingTally LabelledRun

/-- A reservation asleep until the oldest record has left the window. -/
structure Sleeper where
  cost : ℚ
  priority : Bool
  wakeAt : ℚ
deriving DecidableEq

/-- The program keeps `records`; `recorded` is everything it ever put there. -/
structure LocalGovernor where
  records : List (Entry ℚ ℚ)
  recorded : List (Entry ℚ ℚ)
  waiting : List Sleeper
deriving DecidableEq

inductive LocalAct where
  | reserve (cost : ℚ) (priority : Bool)
  | wake (sleeper : ℕ)
  | abort (sleeper : ℕ)
  | used

namespace LocalGovernor

def created : LocalGovernor := ⟨[], [], []⟩

def prune (now : ℚ) (g : LocalGovernor) : LocalGovernor :=
  { g with records := expire (now - windowMs) g.records }

def usedNow (now : ℚ) (g : LocalGovernor) : ℚ := total (g.prune now).records

def record (now cost : ℚ) (g : LocalGovernor) : LocalGovernor :=
  { g with
    records := g.records ++ [⟨now, cost⟩]
    recorded := g.recorded ++ [⟨now, cost⟩] }

/-- One turn of a reservation's loop. -/
def turn (config : Config) (now cost : ℚ) (priority : Bool) (g : LocalGovernor) : LocalGovernor :=
  if g.usedNow now + cost ≤ config.computeAdmissionLimit cost priority then
    (g.prune now).record now cost
  else
    match (g.prune now).records with
    -- believed unreachable by the source, which admits here unchecked
    | [] => (g.prune now).record now cost
    | oldest :: _ =>
        { g.prune now with
          waiting := g.waiting ++ [⟨cost, priority, now + max 1 (oldest.ts + windowMs - now)⟩] }

/-- A negative cost and one above the ceiling throw. -/
def reserve (config : Config) (now cost : ℚ) (priority : Bool) (g : LocalGovernor) :
    LocalGovernor :=
  if cost < 0 ∨ config.ceiling < cost then g else g.turn config now cost priority

def act (config : Config) (now : ℚ) (g : LocalGovernor) : LocalAct → Option LocalGovernor
  | .reserve cost priority => some (g.reserve config now cost priority)
  | .wake i =>
      match g.waiting[i]? with
      | none => none
      | some r =>
          if now < r.wakeAt then none
          else some ({ g with waiting := g.waiting.eraseIdx i }.turn config now r.cost r.priority)
  | .abort i =>
      if i < g.waiting.length then some { g with waiting := g.waiting.eraseIdx i } else none
  | .used => some (g.prune now)

end LocalGovernor

/-! ### What the tally keeps -/

/-- A governor none of whose admissions may fill its window above a cap. -/
structure Metered (config : Config) (cap now : ℚ) (g : LocalGovernor) : Prop where
  remembers : Remembers (now - windowMs) g.records g.recorded
  chronological : Chronological g.recorded
  seen : ∀ e ∈ g.recorded, e.ts ≤ now
  nonneg : ∀ e ∈ g.recorded, 0 ≤ e.amount
  span : ∀ start, total (between start (start + windowMs) g.recorded) ≤ cap
  costs : ∀ r ∈ g.waiting, 0 ≤ r.cost ∧ r.cost ≤ config.ceiling
  limits : ∀ r ∈ g.waiting, config.computeAdmissionLimit r.cost r.priority ≤ cap

section Metered

variable {config : Config} {cap now now' cost : ℚ} {priority : Bool} {g g' : LocalGovernor}

/-- A limit holds the call it is for, so no call waits for ever. -/
theorem Config.le_computeAdmissionLimit (h : cost ≤ config.ceiling) :
    cost ≤ config.computeAdmissionLimit cost priority := by
  unfold computeAdmissionLimit
  split
  · exact h
  · next hfits =>
      rw [Bool.or_eq_true, not_or, decide_eq_true_eq, not_lt] at hfits
      exact hfits.2

theorem metered_created (hcap : 0 ≤ cap) : Metered config cap now .created where
  remembers := ⟨[], rfl, fun _ he => absurd he List.not_mem_nil⟩
  chronological := List.Pairwise.nil
  seen _ he := absurd he List.not_mem_nil
  nonneg _ he := absurd he List.not_mem_nil
  span _ := hcap
  costs _ hr := absurd hr List.not_mem_nil
  limits _ hr := absurd hr List.not_mem_nil

theorem Metered.later (h : Metered config cap now g) (hle : now ≤ now') :
    Metered config cap now' g :=
  { h with
    remembers := h.remembers.later (sub_le_sub_right hle _)
    seen := fun e he => (h.seen e he).trans hle }

theorem Metered.prune (h : Metered config cap now g) : Metered config cap now (g.prune now) :=
  { h with remembers := h.remembers.expire }

theorem Metered.erase (h : Metered config cap now g) (i : ℕ) :
    Metered config cap now { g with waiting := g.waiting.eraseIdx i } :=
  { h with
    costs := fun r hr => h.costs r (List.mem_of_mem_eraseIdx hr)
    limits := fun r hr => h.limits r (List.mem_of_mem_eraseIdx hr) }

/-- The lazily pruned count is the count of everything admitted in the window. -/
theorem Metered.usedNow_eq (h : Metered config cap now g) :
    g.usedNow now = total (since (now - windowMs) g.recorded) :=
  congrArg total (h.remembers.expire_eq h.chronological)

theorem Metered.usedNow_le (h : Metered config cap now g) : g.usedNow now ≤ cap := by
  have hsame : since (now - windowMs) g.recorded =
      between (now - windowMs) (now - windowMs + windowMs) g.recorded :=
    List.filter_congr fun e he => by simp [h.seen e he]
  rw [h.usedNow_eq, hsame]
  exact h.span _

theorem Metered.record (h : Metered config cap now g) (hcost : 0 ≤ cost)
    (hfits : g.usedNow now + cost ≤ cap) :
      Metered config cap now ((g.prune now).record now cost) where
  remembers := h.remembers.expire.append _
  chronological := chronological_append h.chronological h.seen
  seen e he := by
    rcases List.mem_append.mp he with he | he
    · exact h.seen e he
    · rw [List.mem_singleton.mp he]
  nonneg e he := by
    rcases List.mem_append.mp he with he | he
    · exact h.nonneg e he
    · rw [List.mem_singleton.mp he]
      exact hcost
  span := span_append_le h.nonneg h.span (h.usedNow_eq ▸ hfits)
  costs := h.costs
  limits := h.limits

theorem turn_fits (hfits : g.usedNow now + cost ≤ config.computeAdmissionLimit cost priority) :
    g.turn config now cost priority = (g.prune now).record now cost := if_pos hfits

/-- A turn admits what fits, and otherwise puts the reservation to sleep. -/
theorem turn_cases (now : ℚ) (priority : Bool) (g : LocalGovernor)
    (hceiling : cost ≤ config.ceiling) :
    (g.usedNow now + cost ≤ config.computeAdmissionLimit cost priority ∧
      g.turn config now cost priority = (g.prune now).record now cost) ∨
    ∃ wakeAt, g.turn config now cost priority =
      { g.prune now with waiting := g.waiting ++ [⟨cost, priority, wakeAt⟩] } := by
  unfold LocalGovernor.turn
  split
  · next hfits => exact .inl ⟨hfits, rfl⟩
  · next hfull =>
      split
      · next hempty =>
          -- an empty window has room for every call
          have hused : g.usedNow now = 0 := congrArg total hempty
          rw [hused, zero_add] at hfull
          exact absurd (Config.le_computeAdmissionLimit hceiling) hfull
      · exact .inr ⟨_, rfl⟩

theorem Metered.turn (h : Metered config cap now g) (hcost : 0 ≤ cost)
    (hceiling : cost ≤ config.ceiling) (hlimit : config.computeAdmissionLimit cost priority ≤ cap) :
    Metered config cap now (g.turn config now cost priority) := by
  obtain ⟨hfits, heq⟩ | ⟨wakeAt, heq⟩ := turn_cases now priority g hceiling
  · rw [heq]
    exact h.record hcost (hfits.trans hlimit)
  · rw [heq]
    refine { h.prune with costs := fun r hr => ?_, limits := fun r hr => ?_ }
    · rcases List.mem_append.mp hr with hr | hr
      · exact h.costs r hr
      · rw [List.mem_singleton.mp hr]
        exact ⟨hcost, hceiling⟩
    · rcases List.mem_append.mp hr with hr | hr
      · exact h.limits r hr
      · rw [List.mem_singleton.mp hr]
        exact hlimit

theorem Metered.reserve (h : Metered config cap now g)
    (hlimit : config.computeAdmissionLimit cost priority ≤ cap) :
    Metered config cap now (g.reserve config now cost priority) := by
  unfold LocalGovernor.reserve
  split
  · exact h
  · next hcost =>
      rw [not_or, not_lt, not_lt] at hcost
      exact h.turn hcost.1 hcost.2 hlimit

/-- The calls that come in may fill the window to the cap at most. -/
def LocalAct.Limited (config : Config) (cap : ℚ) : LocalAct → Prop
  | .reserve cost priority => config.computeAdmissionLimit cost priority ≤ cap
  | _ => True

theorem Metered.act {a : LocalAct} (h : Metered config cap now g) (ha : a.Limited config cap)
    (hact : g.act config now a = some g') : Metered config cap now g' := by
  cases a with
  | reserve cost priority =>
      cases hact
      exact h.reserve ha
  | wake i =>
      unfold LocalGovernor.act at hact
      dsimp only at hact
      split at hact
      · cases hact
      · next r hr =>
          split at hact
          · cases hact
          · cases hact
            have hmem := List.mem_of_getElem? hr
            exact (h.erase i).turn (h.costs r hmem).1 (h.costs r hmem).2 (h.limits r hmem)
  | abort i =>
      unfold LocalGovernor.act at hact
      dsimp only at hact
      split at hact
      · cases hact
        exact h.erase i
      · cases hact
  | used =>
      cases hact
      exact h.prune

/-- Once a window has passed without an admission, a turn admits. -/
theorem Metered.turn_idle (h : Metered config cap now g) (hceiling : cost ≤ config.ceiling)
    (hidle : ∀ e ∈ g.recorded, e.ts + windowMs ≤ now) :
    (g.turn config now cost priority).recorded = g.recorded ++ [⟨now, cost⟩] := by
  have hnone : since (now - windowMs) g.recorded = [] :=
    List.filter_eq_nil_iff.mpr fun e he => by
      simpa using (le_sub_iff_add_le.mpr (hidle e he))
  have hused : g.usedNow now = 0 := by
    rw [h.usedNow_eq, hnone]
    rfl
  rw [turn_fits (by rw [hused, zero_add]; exact Config.le_computeAdmissionLimit hceiling)]
  rfl

end Metered

/-! ### One process -/

/-- A process and its clock. -/
structure Process where
  now : ℚ
  governor : LocalGovernor
deriving DecidableEq

inductive ProcessLabel where
  | advance (now : ℚ)
  | act (a : LocalAct)

def Process.created (now : ℚ) : Process := ⟨now, .created⟩

def Process.step (config : Config) (s : Process) : ProcessLabel → Option Process
  | .advance now => if s.now ≤ now then some { s with now } else none
  | .act a => (s.governor.act config s.now a).map fun governor => { s with governor }

def ProcessLabel.Limited (config : Config) (cap : ℚ) : ProcessLabel → Prop
  | .advance _ => True
  | .act a => a.Limited config cap

/-- A bulk read that fits below the order band. -/
def ProcessLabel.bulk (config : Config) : ProcessLabel → Bool
  | .act (.reserve cost priority) => !priority && cost ≤ config.ceiling - config.orderReserve
  | _ => true

section Runs

variable {config : Config} {cap : ℚ} {s t : Process}

theorem metered_of_reach {now : ℚ} {ok : ProcessLabel → Prop} (hcap : 0 ≤ cap)
    (hok : ∀ label, ok label → label.Limited config cap)
    (hrun : Reach (Process.step config) (fun _ label => ok label) (.created now) s) :
    Metered config cap s.now s.governor := by
  refine hrun.invariant (P := fun s => Metered config cap s.now s.governor)
    (metered_created hcap) ?_
  intro s label t h hlabel hstep
  cases label with
  | advance now =>
      unfold Process.step at hstep
      dsimp only at hstep
      split at hstep
      · next hle =>
          cases hstep
          exact h.later hle
      · cases hstep
  | act a =>
      obtain ⟨governor, hact, rfl⟩ := Option.map_eq_some_iff.mp hstep
      exact h.act (hok _ hlabel) hact

theorem limited_ceiling (label : ProcessLabel) : label.Limited config config.ceiling := by
  rcases label with _ | (_ | _ | _ | _)
  case act.reserve cost priority => exact config.computeAdmissionLimit_le cost priority
  all_goals trivial

theorem limited_of_bulk (label : ProcessLabel) (h : label.bulk config = true) :
    label.Limited config (config.ceiling - config.orderReserve) := by
  rcases label with _ | (_ | _ | _ | _)
  case act.reserve cost priority =>
    obtain ⟨hbulk, hfits⟩ := (Bool.and_eq_true _ _).mp h
    obtain rfl : priority = false := by simpa using hbulk
    show config.computeAdmissionLimit cost false ≤ _
    unfold Config.computeAdmissionLimit
    rw [if_neg (by simpa using hfits)]
  all_goals trivial

/-- However the reservations of a process interleave, and whatever is aborted, no window admits more
than the ceiling; and a reservation asleep is admitted by its next turn once a window has passed in
which nothing was. -/
theorem in_process_window_bounded (config : Config) (now : ℚ) (s : Process)
    (hrun : Reach (Process.step config) (fun _ _ => True) (.created now) s) :
    (∀ start, total (between start (start + windowMs) s.governor.recorded) ≤ config.ceiling) ∧
      ∀ i r, s.governor.waiting[i]? = some r → r.wakeAt ≤ s.now →
        (∀ e ∈ s.governor.recorded, e.ts + windowMs ≤ s.now) →
        ∃ t, Process.step config s (.act (.wake i)) = some t ∧
          t.governor.recorded = s.governor.recorded ++ [⟨s.now, r.cost⟩] := by
  have h := metered_of_reach config.ceiling_pos.le (fun label _ => limited_ceiling label) hrun
  refine ⟨h.span, fun i r hr hwake hidle => ?_⟩
  have hmem := List.mem_of_getElem? hr
  refine ⟨⟨s.now, LocalGovernor.turn config s.now r.cost r.priority
      { s.governor with waiting := s.governor.waiting.eraseIdx i }⟩, ?_,
    (h.erase i).turn_idle (h.costs r hmem).2 hidle⟩
  unfold Process.step LocalGovernor.act
  dsimp only
  rw [hr]
  dsimp only
  rw [if_neg (not_lt.mpr hwake)]
  rfl

/-- The ceiling is spent at once, and the next call waits for a window. -/
theorem second_call_waits_a_window :
    ∃ s t, Process.step defaultConfig s (.act (.wake 0)) = some t ∧
      t.governor.recorded = [⟨0, 960⟩, ⟨60000, 400⟩] := by
  have hrun : run (Process.step defaultConfig) (fun _ _ => true) (.created 0)
      [.act (.reserve 960 true), .act (.reserve 400 false), .advance 60000] =
      some ⟨60000, [⟨0, 960⟩], [⟨0, 960⟩], [⟨400, false, 60000⟩]⟩ := by decide +kernel
  exact ⟨_, (in_process_window_bounded defaultConfig 0 _
    (reach_of_run (fun _ _ _ => trivial) hrun)).2 0 _ rfl le_rfl (by simp [windowMs])⟩

/-- Whatever bulk reads a process has run, one order that fits the band is admitted at once. -/
theorem order_never_waits_for_bulk (config : Config) (now : ℚ) (s : Process)
    (hrun : Reach (Process.step config) (fun _ label => label.bulk config = true) (.created now) s)
    (cost : ℚ) (hnonneg : 0 ≤ cost) (hcost : cost ≤ config.orderReserve) :
    ∃ t, Process.step config s (.act (.reserve cost true)) = some t ∧
      t.governor.waiting = s.governor.waiting ∧
      t.governor.recorded = s.governor.recorded ++ [⟨s.now, cost⟩] := by
  have hband : 0 ≤ config.ceiling - config.orderReserve := by
    have := config.reserve_lt
    exact sub_nonneg.mpr this.le
  have h := metered_of_reach hband limited_of_bulk hrun
  have hlimit : config.computeAdmissionLimit cost true = config.ceiling := if_pos rfl
  have hfits : s.governor.usedNow s.now + cost ≤ config.computeAdmissionLimit cost true := by
    rw [hlimit]
    linarith [h.usedNow_le]
  have hcalled : s.governor.reserve config s.now cost true =
      (s.governor.prune s.now).record s.now cost := by
    unfold LocalGovernor.reserve
    have hceiling : cost ≤ config.ceiling := hcost.trans config.reserve_lt.le
    rw [if_neg (not_or.mpr ⟨not_lt.mpr hnonneg, not_lt.mpr hceiling⟩)]
    exact turn_fits hfits
  refine ⟨⟨s.now, (s.governor.prune s.now).record s.now cost⟩, ?_, rfl, rfl⟩
  exact congrArg (fun governor => some (⟨s.now, governor⟩ : Process)) hcalled

/-- The defaults with a band of eight. -/
def bandConfig : Config :=
  { defaultConfig with
    orderReserve := 8
    reserve_nonneg := by norm_num
    reserve_lt := by decide +kernel }

theorem order_admitted_beside_bulk :
    ∃ s t, Process.step bandConfig s (.act (.reserve 8 true)) = some t ∧
      t.governor.waiting = [⟨2, false, 60000⟩] ∧ t.governor.recorded = [⟨0, 952⟩, ⟨0, 8⟩] := by
  have hrun : run (Process.step bandConfig) (fun _ label => label.bulk bandConfig) (.created 0)
      [.act (.reserve 952 false), .act (.reserve 2 false)] =
      some ⟨0, [⟨0, 952⟩], [⟨0, 952⟩], [⟨2, false, 60000⟩]⟩ := by decide +kernel
  exact ⟨_, order_never_waits_for_bulk bandConfig 0 _ (reach_of_run (fun _ _ h => h) hrun) 8
    (by norm_num) le_rfl⟩

end Runs

/-! ### Outages -/

/-- The pods at one instant of the clock they share: the key, their backstops, the calls whose
script ran, with the reading each was sent with, and what a reply let through. -/
structure Fleet (n : ℕ) where
  now : ℚ
  key : Option Key
  pods : Fin n → LocalGovernor
  sent : List Attempt
  admitted : List (Entry ℚ ℚ)

inductive FleetLabel (n : ℕ) where
  | advance (now : ℚ)
  | script (pod : Fin n) (reading cost : ℚ) (priority replied : Bool)
  | unavailable (pod : Fin n) (cost : ℚ) (priority : Bool)
  | wake (pod : Fin n) (sleeper : ℕ)
  | abort (pod : Fin n) (sleeper : ℕ)

def Fleet.created (n : ℕ) (now : ℚ) : Fleet n := ⟨now, none, fun _ => .created, [], []⟩

def Fleet.act {n : ℕ} (config : Config) (s : Fleet n) (pod : Fin n) (a : LocalAct) :
    Option (Fleet n) :=
  ((s.pods pod).act config s.now a).map fun g => { s with pods := Function.update s.pods pod g }

def Fleet.step {n : ℕ} (config : Config) (s : Fleet n) : FleetLabel n → Option (Fleet n)
  | .advance now => if s.now ≤ now then some { s with now } else none
  -- a call left in the queue reaches the server with the reading it was made with
  | .script pod reading cost priority replied =>
      if s.now < reading ∨ cost < 0 ∨ config.ceiling < cost then none
      else
        let a : Attempt := ⟨s.now, pod, reading, cost, priority⟩
        let (key, granted) := attempt config s.key a
        some { s with
          key
          sent := s.sent ++ [a]
          -- a reply that comes too late has charged the key and let nothing through
          admitted := if granted && replied then s.admitted ++ [⟨s.now, cost⟩] else s.admitted }
  -- an order falls back on its pod's own tally, a bulk read throws
  | .unavailable pod cost priority =>
      if priority then s.act config pod (.reserve cost true) else some s
  | .wake pod i => s.act config pod (.wake i)
  | .abort pod i => s.act config pod (.abort i)

/-- A script that runs in the order of the readings, and within a lag of its own. -/
def FleetLabel.InTime {n : ℕ} (lag : ℚ) (s : Fleet n) : FleetLabel n → Prop
  | .script _ reading _ _ _ => s.now ≤ reading + lag ∧ ∀ a ∈ s.sent, a.reading ≤ reading
  | _ => True

instance {n : ℕ} (lag : ℚ) (s : Fleet n) : DecidablePred (FleetLabel.InTime lag s)
  | .script .. => inferInstanceAs (Decidable (_ ∧ _))
  | .advance _ | .unavailable .. | .wake .. | .abort .. => .isTrue trivial

/-- The key once the scripts of some calls have run. -/
def keyAfter (config : Config) (key : Option Key) (attempts : List Attempt) : Option Key :=
  attempts.foldl (fun key a => (attempt config key a).1) key

structure Fleet.Inv {n : ℕ} (config : Config) (lag : ℚ) (s : Fleet n) : Prop where
  key : s.key = keyAfter config none s.sent
  schedule : Schedule config s.sent
  reads : InOrder 0 lag s.sent
  past : ∀ a ∈ s.sent, a.instant ≤ s.now
  admitted : s.admitted.Sublist (WeightGovernor.admitted config none s.sent)
  pods : ∀ p, Metered config config.ceiling s.now (s.pods p)

section Outages

variable {n : ℕ} {config : Config} {lag : ℚ} {s t : Fleet n}

theorem admitted_snoc (attempts : List Attempt) (key : Option Key) (a : Attempt) :
    admitted config key (attempts ++ [a]) = admitted config key attempts ++
      if (attempt config (keyAfter config key attempts) a).2 then [⟨a.instant, a.cost⟩]
      else [] := by
  induction attempts generalizing key with
  | nil => exact List.append_nil _
  | cons b rest ih =>
      rw [List.cons_append, admitted, admitted]
      dsimp only
      rw [ih, List.append_assoc]
      rfl

theorem Fleet.Inv.act {pod : Fin n} {a : LocalAct} (h : s.Inv config lag)
    (ha : a.Limited config config.ceiling) (hstep : s.act config pod a = some t) :
    t.Inv config lag := by
  obtain ⟨g, hact, rfl⟩ := Option.map_eq_some_iff.mp hstep
  refine { h with pods := fun p => ?_ }
  by_cases hp : p = pod
  · rw [hp]
    show Metered config _ _ (Function.update s.pods pod g pod)
    rw [Function.update_self]
    exact (h.pods pod).act ha hact
  · show Metered config _ _ (Function.update s.pods pod g p)
    rw [Function.update_of_ne hp]
    exact h.pods p

theorem Fleet.Inv.step {label : FleetLabel n} (h : s.Inv config lag) (htime : label.InTime lag s)
    (hstep : s.step config label = some t) : t.Inv config lag := by
  cases label with
  | advance now =>
      unfold Fleet.step at hstep
      dsimp only at hstep
      split at hstep
      · next hle =>
          cases hstep
          exact { h with
            past := fun a ha => (h.past a ha).trans hle
            pods := fun p => (h.pods p).later hle }
      · cases hstep
  | script pod reading cost priority replied =>
      unfold Fleet.step at hstep
      dsimp only at hstep
      split at hstep
      · cases hstep
      · next hcost =>
          cases hstep
          obtain ⟨hread, hcost, hceiling⟩ := by simpa only [not_or, not_lt] using hcost
          obtain ⟨hfresh, hafter⟩ := htime
          refine ⟨?_, ⟨?_, ?_, ?_⟩, ⟨?_, ?_, ?_⟩, ?_, ?_, h.pods⟩
          · rw [h.key, keyAfter, keyAfter, List.foldl_append]
            rfl
          · exact List.pairwise_append.mpr ⟨h.schedule.ordered, List.pairwise_singleton _ _,
              fun a ha b hb => List.mem_singleton.mp hb ▸ h.past a ha⟩
          · exact List.forall_mem_append.mpr
              ⟨h.schedule.cost_nonneg, List.forall_mem_singleton.mpr hcost⟩
          · exact List.forall_mem_append.mpr
              ⟨h.schedule.cost_le, List.forall_mem_singleton.mpr hceiling⟩
          · exact List.pairwise_append.mpr ⟨h.reads.ordered, List.pairwise_singleton _ _,
              fun a ha b hb => List.mem_singleton.mp hb ▸ hafter a ha⟩
          · exact List.forall_mem_append.mpr
              ⟨h.reads.read, List.forall_mem_singleton.mpr (by simpa using hread)⟩
          · exact List.forall_mem_append.mpr
              ⟨h.reads.fresh, List.forall_mem_singleton.mpr (by simpa using hfresh)⟩
          · exact List.forall_mem_append.mpr ⟨h.past, List.forall_mem_singleton.mpr le_rfl⟩
          · show List.Sublist _ (WeightGovernor.admitted config none (s.sent ++ [_]))
            rw [admitted_snoc, ← h.key]
            split
            · next hboth =>
                rw [if_pos (Bool.and_eq_true _ _ ▸ hboth).1]
                exact h.admitted.append (List.Sublist.refl _)
            · exact h.admitted.trans (List.sublist_append_left _ _)
  | unavailable pod cost priority =>
      cases priority with
      | false =>
          cases hstep
          exact h
      | true =>
          exact h.act (a := .reserve cost true) (config.computeAdmissionLimit_le cost true) hstep
  | wake pod i => exact h.act (a := .wake i) trivial hstep
  | abort pod i => exact h.act (a := .abort i) trivial hstep

/-- Through outages, with replies lost in any order and scripts up to a lag late but in the order of
their readings: the key lets twice the ceiling and what the lag refills through in a window, and
each pod's backstop the ceiling once. -/
theorem outage_overspend_bounded (config : Config) (n : ℕ) (now lag : ℚ) (hnonneg : 0 ≤ lag)
    (hlag : lag ≤ windowMs) (s : Fleet n)
    (hrun : Reach (Fleet.step config) (FleetLabel.InTime lag) (.created n now) s) (start : ℚ) :
    total (between start (start + windowMs) s.admitted) ≤ (2 + lag / windowMs) * config.ceiling ∧
      total (between start (start + windowMs) s.admitted) +
        ∑ p, total (between start (start + windowMs) (s.pods p).recorded) ≤
          (n + 2 + lag / windowMs) * config.ceiling := by
  have h : s.Inv config lag := by
    refine hrun.invariant (P := Fleet.Inv config lag)
      ⟨rfl, ⟨.nil, ?_, ?_⟩, ⟨.nil, ?_, ?_⟩, ?_, ?_, fun _ => ?_⟩
      fun s label t h htime hstep => h.step htime hstep
    all_goals first
      | exact List.forall_mem_nil _
      | exact List.Sublist.refl _
      | exact metered_created config.ceiling_pos.le
  have hshared : total (between start (start + windowMs) s.admitted) ≤
      (2 + lag / windowMs) * config.ceiling := by
    refine (total_le_of_sublist (h.admitted.filter _) fun e he => ?_).trans
      (h.schedule.window_le hlag hnonneg h.reads start)
    obtain ⟨a, ha, rfl⟩ := mem_admitted (List.mem_of_mem_filter he)
    exact h.schedule.cost_nonneg a ha
  refine ⟨hshared, ?_⟩
  have hpods : ∑ p, total (between start (start + windowMs) (s.pods p).recorded) ≤
      n * config.ceiling := by
    have hsum := Finset.sum_le_card_nsmul Finset.univ
      (fun p => total (between start (start + windowMs) (s.pods p).recorded)) config.ceiling
      fun p _ => (h.pods p).span start
    simpa using hsum
  linarith

/-- A full key, two full backstops, and a call that reaches the server ten seconds late. -/
theorem outage_runs : (run (Fleet.step defaultConfig)
    (fun s label => decide (FleetLabel.InTime 10000 s label)) (.created 2 0)
    [.script 0 0 960 true true, .unavailable 0 960 true, .unavailable 1 960 true, .advance 30000,
      .script 1 20000 320 true true]).isSome = true := by
  decide +kernel

def outage : Fleet 2 := Option.get _ outage_runs

theorem late_call_beside_outage :
    outage.admitted = [⟨0, 960⟩, ⟨30000, 320⟩] ∧ (∀ p, (outage.pods p).recorded = [⟨0, 960⟩]) ∧
      total (between (-1) (-1 + windowMs) outage.admitted) +
        ∑ p, total (between (-1) (-1 + windowMs) (outage.pods p).recorded) ≤
          ((2 : ℕ) + 2 + 10000 / windowMs) * defaultConfig.ceiling :=
  ⟨by decide +kernel, by decide +kernel, (outage_overspend_bounded defaultConfig 2 0 10000
    (by norm_num) (by norm_num [windowMs]) outage (reach_of_run
      (fun _ _ htime => of_decide_eq_true htime) (Option.some_get outage_runs).symm) (-1)).2⟩

end Outages

end TradingBot.WeightGovernor
