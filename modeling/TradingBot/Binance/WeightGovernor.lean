import Mathlib.Data.Rat.Floor
import Mathlib.Tactic.FieldSimp
import TradingBot.Lib.LeakyBucket
import TradingBot.Lib.RollingTally

/-!
# The shared weight governor

The per-address request weight all worker pods share, kept as one key whose
level decays with time. A pod reads its own clock and sends the reading with the
cost of the call it wants to make; the script, which runs later, decays, checks
and accounts in one step on the server, and stores the reading it was sent.
-/

namespace TradingBot.WeightGovernor

open LeakyBucket RollingTally

/-- The span the exchange meters, in milliseconds. -/
def windowMs : ℚ := 60000

/-- An idle key is dropped after two windows. -/
def keyTtlMs : ℚ := windowMs * 2

/-- The governor's options, as its constructor accepts them. -/
structure Config where
  budget : ℚ
  targetUtilisation : ℚ
  orderReserve : ℚ
  budget_pos : 0 < budget
  utilisation_pos : 0 < targetUtilisation
  utilisation_le : targetUtilisation ≤ 1
  reserve_nonneg : 0 ≤ orderReserve
  reserve_lt : orderReserve < ⌊budget * targetUtilisation⌋

namespace Config

variable (config : Config)

/-- The soft ceiling. -/
def ceiling : ℚ := ⌊config.budget * config.targetUtilisation⌋

def refillPerMs : ℚ := config.ceiling / windowMs

/-- The level one call may fill the bucket to: bulk reads leave the order band free. -/
def computeAdmissionLimit (cost : ℚ) (priority : Bool) : ℚ :=
  if priority || cost > config.ceiling - config.orderReserve then config.ceiling
  else config.ceiling - config.orderReserve

theorem ceiling_pos : 0 < config.ceiling :=
  lt_of_le_of_lt config.reserve_nonneg config.reserve_lt

theorem refillPerMs_nonneg : 0 ≤ config.refillPerMs :=
  div_nonneg config.ceiling_pos.le (by norm_num [windowMs])

theorem computeAdmissionLimit_le (cost : ℚ) (priority : Bool) :
    config.computeAdmissionLimit cost priority ≤ config.ceiling := by
  unfold computeAdmissionLimit
  split
  · exact le_rfl
  · linarith [config.reserve_nonneg]

end Config

/-! ### The script -/

/-- The stored level, the clock reading it was stored with, and when the server drops it. -/
structure Key where
  used : ℚ
  ts : ℚ
  expiresAt : ℚ

/-- The key as the server finds it: gone once its time to live has run out. -/
def found (key : Option Key) (serverNow : ℚ) : Option Key := key.filter (serverNow ≤ ·.expiresAt)

/-- The stored level decayed to a pod's clock reading. A missing key starts empty. -/
def decayed (refill : ℚ) (key : Option Key) (now : ℚ) : ℚ :=
  match key with
  | none => 0
  | some key => drained refill ⟨key.used, key.ts⟩ now

/-- The key after the script, and whether the call was admitted. A refusal writes nothing. -/
def bucketScript (key : Option Key) (serverNow now cost limit refill ttl : ℚ) :
    Option Key × Bool :=
  let used := decayed refill (found key serverNow) now
  if used + cost ≤ limit then
    (some { used := used + cost, ts := now, expiresAt := serverNow + ttl }, true)
  else (found key serverNow, false)

/-! ### Runs -/

/-- One call that reaches the script: the instant it runs, its pod, the reading the pod took of its
clock before it sent the call, its cost and its lane. -/
structure Attempt where
  instant : ℚ
  pod : ℕ
  reading : ℚ
  cost : ℚ
  priority : Bool

/-- The calls the governor lets through to the script, in the order the server runs them. -/
structure Schedule (config : Config) (attempts : List Attempt) : Prop where
  ordered : attempts.Pairwise (·.instant ≤ ·.instant)
  cost_nonneg : ∀ a ∈ attempts, 0 ≤ a.cost
  cost_le : ∀ a ∈ attempts, a.cost ≤ config.ceiling

/-- How far ahead of real time each pod's clock is, and how long before its script runs a call can
have had the clock read. -/
structure Timing where
  skew : ℕ → ℚ
  delays : Set ℚ
  delay_exists : delays.Nonempty
  delay_nonneg : ∀ delay ∈ delays, 0 ≤ delay

def Timing.Reads (timing : Timing) (a : Attempt) : Prop :=
  ∃ delay ∈ timing.delays, a.reading = a.instant - delay + timing.skew a.pod

def attempt (config : Config) (key : Option Key) (a : Attempt) : Option Key × Bool :=
  bucketScript key a.instant a.reading a.cost (config.computeAdmissionLimit a.cost a.priority)
    config.refillPerMs keyTtlMs

/-- What a schedule gets admitted, stamped with real time. -/
def admitted (config : Config) : Option Key → List Attempt → List (Entry ℚ ℚ)
  | _, [] => []
  | key, a :: rest =>
      let (next, granted) := attempt config key a
      (if granted then [⟨a.instant, a.cost⟩] else []) ++ admitted config next rest

/-- With agreeing clocks, no window of real time takes more than the budget. -/
def WindowBounded (config : Config) (timing : Timing) : Prop :=
  ∀ offset attempts, Schedule config attempts →
    (∀ a ∈ attempts, { timing with skew := fun _ => offset }.Reads a) → ∀ start,
    total (between start (start + windowMs) (admitted config none attempts)) ≤ config.budget

/-- From an empty bucket, a span takes at most the ceiling and what its time refills. -/
def RefillPaid (config : Config) (timing : Timing) : Prop :=
  ∀ attempts, Schedule config attempts → (∀ a ∈ attempts, timing.Reads a) →
    ∀ start span, 0 ≤ span → (∀ a ∈ attempts, start ≤ a.instant ∧ a.instant ≤ start + span) →
    total (admitted config none attempts) ≤ config.ceiling + config.ceiling * span / 60000

/-! ### One clock -/

section OneClock

variable {config : Config} {offset lag reading after : ℚ} {key : Option Key}

/-- Readings of one clock that reach the script in order, none older than a lag. -/
structure InOrder (offset lag : ℚ) (attempts : List Attempt) : Prop where
  ordered : attempts.Pairwise (·.reading ≤ ·.reading)
  read : ∀ a ∈ attempts, a.reading ≤ a.instant + offset
  fresh : ∀ a ∈ attempts, a.instant + offset ≤ a.reading + lag

/-- A key written with the readings of one clock up to this one: within the ceiling, and kept for
its whole time to live. -/
structure Stored (config : Config) (offset reading : ℚ) (key : Option Key) : Prop where
  nonneg : ∀ k, key = some k → 0 ≤ k.used
  within : ∀ k, key = some k → k.used ≤ config.ceiling
  past : ∀ k, key = some k → k.ts ≤ reading
  expires : ∀ k, key = some k → k.ts - offset + keyTtlMs ≤ k.expiresAt

theorem stored_none (config : Config) (offset reading : ℚ) : Stored config offset reading none :=
  ⟨nofun, nofun, nofun, nofun⟩

theorem Stored.later (h : Stored config offset reading key) (hle : reading ≤ after) :
    Stored config offset after key :=
  { h with past := fun k hk => (h.past k hk).trans hle }

theorem decayed_nonneg : 0 ≤ decayed config.refillPerMs key reading := by
  unfold decayed
  split
  · exact le_rfl
  · exact drained_nonneg

theorem refill_window (config : Config) : windowMs * config.refillPerMs = config.ceiling := by
  simp only [Config.refillPerMs, windowMs]
  linarith

/-- A dropped key had drained already, so dropping it changes no level. -/
theorem Stored.decayed_found {serverNow : ℚ} (h : Stored config offset reading key)
    (hfresh : serverNow + offset ≤ reading + windowMs) :
    decayed config.refillPerMs (found key serverNow) reading =
      decayed config.refillPerMs key reading := by
  cases key with
  | none => rfl
  | some k =>
      by_cases hlive : serverNow ≤ k.expiresAt
      · simp [found, Option.filter, hlive]
      · have hgone : found (some k) serverNow = none := by simp [found, Option.filter, hlive]
        rw [hgone]
        have hexpires := h.expires k rfl
        have hlong : windowMs ≤ reading - k.ts := by
          simp only [keyTtlMs] at hexpires
          linarith
        have hdrained : k.used ≤ (reading - k.ts) * config.refillPerMs := by
          calc k.used ≤ windowMs * config.refillPerMs := (h.within k rfl).trans
                (refill_window config).ge
            _ ≤ (reading - k.ts) * config.refillPerMs :=
                mul_le_mul_of_nonneg_right hlong config.refillPerMs_nonneg
        exact (drained_eq_zero hdrained config.refillPerMs_nonneg).symm

theorem decayed_le_later (hle : reading ≤ after) :
    decayed config.refillPerMs key reading ≤
      decayed config.refillPerMs key after + (after - reading) * config.refillPerMs := by
  cases key with
  | none =>
      have := mul_nonneg (sub_nonneg.mpr hle) config.refillPerMs_nonneg
      simpa [decayed] using this
  | some k => exact drained_le_later config.refillPerMs_nonneg hle

/-- One call: what it is granted is exactly what the level rises by. -/
theorem Stored.attempt {a : Attempt} (h : Stored config offset a.reading key) (hcost : 0 ≤ a.cost)
    (hread : a.reading ≤ a.instant + offset) (hfresh : a.instant + offset ≤ a.reading + windowMs) :
    Stored config offset a.reading (attempt config key a).1 ∧
      decayed config.refillPerMs (attempt config key a).1 a.reading =
        decayed config.refillPerMs key a.reading +
          (if (attempt config key a).2 then a.cost else 0) := by
  have hlevel := h.decayed_found hfresh
  unfold WeightGovernor.attempt bucketScript
  dsimp only
  split
  · next hfits =>
      have hsum : 0 ≤ decayed config.refillPerMs (found key a.instant) a.reading + a.cost :=
        add_nonneg decayed_nonneg hcost
      refine ⟨⟨?_, ?_, ?_, ?_⟩, ?_⟩
      · rintro k ⟨⟩
        exact hsum
      · rintro k ⟨⟩
        exact hfits.trans (config.computeAdmissionLimit_le _ _)
      · rintro k ⟨⟩
        exact le_rfl
      · rintro k ⟨⟩
        dsimp only
        linarith
      · rw [← hlevel]
        exact drained_self hsum
  · refine ⟨?_, by simpa using hlevel⟩
    have hsub : ∀ k, found key a.instant = some k → key = some k := fun k hk =>
      (Option.filter_eq_some_iff.mp hk).1
    exact ⟨fun k hk => h.nonneg k (hsub k hk), fun k hk => h.within k (hsub k hk),
      fun k hk => h.past k (hsub k hk), fun k hk => h.expires k (hsub k hk)⟩

theorem Stored.decayed_le (h : Stored config offset reading key) :
    decayed config.refillPerMs key reading ≤ config.ceiling := by
  cases key with
  | none => exact config.ceiling_pos.le
  | some k =>
      exact (drained_le config.refillPerMs_nonneg (h.nonneg k rfl)).trans (h.within k rfl)

/-- An admission is stamped with the instant of its call. -/
theorem mem_admitted {attempts : List Attempt} {e : Entry ℚ ℚ}
    (he : e ∈ admitted config key attempts) : ∃ a ∈ attempts, e = ⟨a.instant, a.cost⟩ := by
  induction attempts generalizing key with
  | nil => cases he
  | cons a rest ih =>
      rcases List.mem_append.mp he with he | he
      · split at he
        · exact ⟨a, List.mem_cons_self, List.mem_singleton.mp he⟩
        · cases he
      · obtain ⟨b, hb, heq⟩ := ih he
        exact ⟨b, List.mem_cons_of_mem a hb, heq⟩

/-- What a call adds to the admissions that pass a test. -/
theorem total_filter_admitted (a : Attempt) (rest : List Attempt) (p : Entry ℚ ℚ → Bool) :
    total ((admitted config key (a :: rest)).filter p) =
      (if p ⟨a.instant, a.cost⟩ then (if (attempt config key a).2 then a.cost else 0) else 0) +
        total ((admitted config (attempt config key a).1 rest).filter p) := by
  rw [admitted]
  dsimp only
  rw [List.filter_append, total_append]
  congr 1
  cases (attempt config key a).2 <;> cases hp : p ⟨a.instant, a.cost⟩ <;> simp [total, hp]

theorem InOrder.tail {a : Attempt} {rest : List Attempt} (h : InOrder offset lag (a :: rest)) :
    InOrder offset lag rest where
  ordered := (List.pairwise_cons.mp h.ordered).2
  read b hb := h.read b (List.mem_cons_of_mem a hb)
  fresh b hb := h.fresh b (List.mem_cons_of_mem a hb)

/-- What is admitted up to an instant was drained by then or is still in the bucket. -/
theorem admitted_until_le {attempts : List Attempt} (stop : ℚ) (hlag : lag ≤ windowMs)
    (hinstants : attempts.Pairwise (·.instant ≤ ·.instant)) (hcost : ∀ a ∈ attempts, 0 ≤ a.cost)
    (hreads : InOrder offset lag attempts) (hfuture : ∀ a ∈ attempts, reading ≤ a.reading)
    (h : Stored config offset reading key) :
    total ((admitted config key attempts).filter (·.ts ≤ stop)) +
        decayed config.refillPerMs key reading ≤
      config.ceiling + max 0 (stop + offset - reading) * config.refillPerMs := by
  induction attempts generalizing key reading with
  | nil =>
      have := h.decayed_le
      have := mul_nonneg (le_max_left 0 (stop + offset - reading)) config.refillPerMs_nonneg
      simp only [admitted, List.filter_nil, total, List.map_nil, List.sum_nil]
      linarith
  | cons a rest ih =>
      obtain ⟨hlater, hrest⟩ := List.pairwise_cons.mp hinstants
      have ha := hfuture a List.mem_cons_self
      have hread := hreads.read a List.mem_cons_self
      by_cases hin : a.instant ≤ stop
      · have hfresh := hreads.fresh a List.mem_cons_self
        obtain ⟨hnext, hrises⟩ := (h.later ha).attempt (hcost a List.mem_cons_self) hread
          (by linarith)
        have hrest := ih hrest (fun b hb => hcost b (List.mem_cons_of_mem a hb)) hreads.tail
          (List.pairwise_cons.mp hreads.ordered).1 hnext
        have hdrain : decayed config.refillPerMs key reading ≤
            decayed config.refillPerMs key a.reading + (a.reading - reading) * config.refillPerMs :=
          decayed_le_later ha
        rw [total_filter_admitted, if_pos (by simpa using hin)]
        rw [hrises, max_eq_right (by linarith)] at hrest
        rw [max_eq_right (by linarith)]
        linarith
      · -- this call and all after it come too late to count
        have hnone : (admitted config key (a :: rest)).filter (·.ts ≤ stop) = [] := by
          refine List.filter_eq_nil_iff.mpr fun e he => ?_
          obtain ⟨b, hb, rfl⟩ := mem_admitted he
          have hb : a.instant ≤ b.instant := by
            rcases List.mem_cons.mp hb with rfl | hb
            · exact le_rfl
            · exact hlater b hb
          simpa using lt_of_lt_of_le (not_le.mp hin) hb
        have := h.decayed_le
        have := mul_nonneg (le_max_left 0 (stop + offset - reading)) config.refillPerMs_nonneg
        rw [hnone, total, List.map_nil, List.sum_nil]
        linarith

/-- Between two instants, whatever came before them. -/
theorem admitted_between_le {attempts : List Attempt} {start stop : ℚ} (hlag : lag ≤ windowMs)
    (hnonneg : 0 ≤ lag) (hinstants : attempts.Pairwise (·.instant ≤ ·.instant))
    (hcost : ∀ a ∈ attempts, 0 ≤ a.cost) (hreads : InOrder offset lag attempts)
    (hfuture : ∀ a ∈ attempts, reading ≤ a.reading) (h : Stored config offset reading key)
    (hstop : start ≤ stop) :
    total (between start stop (admitted config key attempts)) ≤
      config.ceiling + (stop - start + lag) * config.refillPerMs := by
  have hspan : 0 ≤ (stop - start + lag) * config.refillPerMs :=
    mul_nonneg (add_nonneg (sub_nonneg.mpr hstop) hnonneg) config.refillPerMs_nonneg
  induction attempts generalizing key reading with
  | nil =>
      have := config.ceiling_pos
      simp only [admitted, between, List.filter_nil, total, List.map_nil, List.sum_nil]
      linarith
  | cons a rest ih =>
      obtain ⟨hlater, hrest⟩ := List.pairwise_cons.mp hinstants
      have hread := hreads.read a List.mem_cons_self
      have hfresh := hreads.fresh a List.mem_cons_self
      by_cases hbefore : a.instant ≤ start
      · obtain ⟨hnext, -⟩ := (h.later (hfuture a List.mem_cons_self)).attempt
          (hcost a List.mem_cons_self) hread (by linarith)
        have hrest := ih hrest (fun b hb => hcost b (List.mem_cons_of_mem a hb)) hreads.tail
          (List.pairwise_cons.mp hreads.ordered).1 hnext
        rw [between, total_filter_admitted, if_neg (by simp [not_lt.mpr hbefore]), zero_add]
        exact hrest
      · -- from here on every call is after the start
        have hall : ∀ b ∈ a :: rest, start < b.instant ∧ a.reading ≤ b.reading :=
          List.forall_mem_cons.mpr ⟨⟨not_le.mp hbefore, le_rfl⟩, fun b hb =>
            ⟨(not_le.mp hbefore).trans_le (hlater b hb),
              (List.pairwise_cons.mp hreads.ordered).1 b hb⟩⟩
        have hbound := admitted_until_le stop hlag hinstants hcost hreads
          (fun b hb => (hall b hb).2) (h.later (hfuture a List.mem_cons_self))
        have hsame : between start stop (admitted config key (a :: rest)) =
            (admitted config key (a :: rest)).filter (·.ts ≤ stop) := by
          refine List.filter_congr fun e he => ?_
          obtain ⟨b, hb, rfl⟩ := mem_admitted he
          simp [(hall b hb).1]
        have hreach : max 0 (stop + offset - a.reading) ≤ stop - start + lag :=
          max_le (add_nonneg (sub_nonneg.mpr hstop) hnonneg) (by linarith)
        have := mul_le_mul_of_nonneg_right hreach config.refillPerMs_nonneg
        have hlevel : 0 ≤ decayed config.refillPerMs key a.reading := decayed_nonneg
        rw [hsame]
        linarith

theorem Schedule.window_le {attempts : List Attempt} (h : Schedule config attempts)
    (hlag : lag ≤ windowMs) (hnonneg : 0 ≤ lag) (hreads : InOrder offset lag attempts)
    (start : ℚ) :
    total (between start (start + windowMs) (admitted config none attempts)) ≤
      (2 + lag / windowMs) * config.ceiling := by
  have hfuture : ∀ a ∈ attempts, attempts.head?.elim 0 (·.reading) ≤ a.reading := by
    cases attempts with
    | nil => exact List.forall_mem_nil _
    | cons first rest =>
        exact List.forall_mem_cons.mpr ⟨le_rfl, (List.pairwise_cons.mp hreads.ordered).1⟩
  have hbound := admitted_between_le hlag hnonneg h.ordered h.cost_nonneg hreads hfuture
    (stored_none config offset _) (by norm_num [windowMs] : start ≤ start + windowMs)
  have hrate : lag * config.refillPerMs = lag / windowMs * config.ceiling := by
    simp only [Config.refillPerMs]
    ring
  rw [add_sub_cancel_left, add_mul, refill_window, hrate] at hbound
  linarith

end OneClock

/-! ### When the bounds hold -/

section Bounds

variable {config : Config} {timing : Timing}

theorem refillPerMs_pos (config : Config) : 0 < config.refillPerMs :=
  div_pos config.ceiling_pos (by norm_num [windowMs])

theorem inOrder_of_agree {delay : ℚ} {attempts : List Attempt} (h : Schedule config attempts)
    (hagree : ∀ p q, timing.skew p = timing.skew q) (honly : ∀ d ∈ timing.delays, d = delay)
    (hreads : ∀ a ∈ attempts, timing.Reads a) :
    InOrder (timing.skew 0 - delay) 0 attempts := by
  have heq : ∀ a ∈ attempts, a.reading = a.instant + (timing.skew 0 - delay) := by
    intro a ha
    obtain ⟨d, hd, hreading⟩ := hreads a ha
    rw [hreading, honly d hd, hagree a.pod 0]
    ring
  refine ⟨h.ordered.imp_of_mem fun ha hb hle => ?_, fun a ha => (heq a ha).le, fun a ha => ?_⟩
  · rw [heq _ ha, heq _ hb]
    linarith
  · rw [heq a ha, add_zero]

/-- Twice the ceiling is what one window can take: a full bucket and a full refill. -/
theorem windowBounded_of_le (h : 2 * config.ceiling ≤ config.budget)
    (honly : timing.delays.Subsingleton) : WindowBounded config timing := by
  intro offset attempts hschedule hreads start
  obtain ⟨delay, hdelay⟩ := timing.delay_exists
  have hsame := @inOrder_of_agree _ { timing with skew := fun _ => offset } _ _ hschedule
    (fun _ _ => rfl) (fun d hd => honly hd hdelay) hreads
  have hbound := hschedule.window_le (by norm_num [windowMs]) le_rfl hsame start
  rw [zero_div, add_zero] at hbound
  exact hbound.trans h

/-- With one clock and one delay, no time is counted twice. -/
theorem refillPaid_of_agree (hagree : ∀ p q, timing.skew p = timing.skew q)
    (honly : timing.delays.Subsingleton) : RefillPaid config timing := by
  intro attempts hschedule hreads start span hspan hin
  obtain ⟨delay, hdelay⟩ := timing.delay_exists
  have hsame := inOrder_of_agree hschedule hagree (fun d hd => honly hd hdelay) hreads
  have hfuture : ∀ a ∈ attempts, start + (timing.skew 0 - delay) ≤ a.reading := by
    intro a ha
    linarith [(hin a ha).1, hsame.fresh a ha]
  have hbound := admitted_until_le (start + span) (by norm_num [windowMs])
    hschedule.ordered hschedule.cost_nonneg hsame hfuture (stored_none config _ _)
  have hall : (admitted config none attempts).filter (·.ts ≤ start + span) =
      admitted config none attempts := by
    refine List.filter_eq_self.mpr fun e he => ?_
    obtain ⟨a, ha, rfl⟩ := mem_admitted he
    exact decide_eq_true (hin a ha).2
  have hrefill : span * config.refillPerMs = config.ceiling * span / 60000 := by
    simp only [Config.refillPerMs, windowMs]
    ring
  rw [hall, max_eq_right (by linarith), decayed] at hbound
  linarith

theorem admitted_grants {key : Option Key} {instant reading cost before : ℚ} {pod : ℕ}
    {rest : List Attempt}
    (hbefore : decayed config.refillPerMs (found key instant) reading = before)
    (hfits : before + cost ≤ config.ceiling) :
    admitted config key ({ instant, pod, reading, cost, priority := true } :: rest) =
      ⟨instant, cost⟩ ::
        admitted config
          (some { used := before + cost, ts := reading, expiresAt := instant + keyTtlMs })
          rest := by
  have hlimit : config.computeAdmissionLimit cost true = config.ceiling := by
    simp [Config.computeAdmissionLimit]
  have hgrants : attempt config key { instant, pod, reading, cost, priority := true } =
      (some { used := before + cost, ts := reading, expiresAt := instant + keyTtlMs }, true) := by
    rw [attempt, bucketScript, hlimit, hbefore]
    exact if_pos hfits
  rw [admitted, hgrants]
  rfl

/-- A key still within its time to live, read by a pod's clock. -/
theorem decayed_live {k : Key} {serverNow now : ℚ} (hlive : serverNow ≤ k.expiresAt) :
    decayed config.refillPerMs (found (some k) serverNow) now =
      drained config.refillPerMs ⟨k.used, k.ts⟩ now := by
  simp [found, Option.filter, hlive, decayed]

/-- A full bucket, and half the budget as soon as that much has drained. -/
def burst (config : Config) (delay : ℚ) : List Attempt :=
  [{ instant := 0, pod := 0, reading := -delay, cost := config.ceiling, priority := true },
   { instant := config.budget / 2 / config.refillPerMs, pod := 0
     reading := config.budget / 2 / config.refillPerMs - delay, cost := config.budget / 2
     priority := true }]

theorem le_of_windowBounded (h : WindowBounded config timing) :
    2 * config.ceiling ≤ config.budget := by
  by_contra hover
  obtain ⟨delay, hdelay⟩ := timing.delay_exists
  have hc := config.ceiling_pos
  have hr := refillPerMs_pos config
  have hb := config.budget_pos
  have hhalf : config.budget / 2 < config.ceiling := by linarith
  -- the second call comes before the first has left the window
  have hdrains : config.budget / 2 / config.refillPerMs * config.refillPerMs = config.budget / 2 :=
    div_mul_cancel₀ _ hr.ne'
  have hwait : 0 ≤ config.budget / 2 / config.refillPerMs := by positivity
  have hsoon : config.budget / 2 / config.refillPerMs < windowMs := by
    rw [div_lt_iff₀ hr, refill_window]
    exact hhalf
  have hschedule : Schedule config (burst config delay) := by
    exact ⟨by simpa [burst] using hwait, by simp [burst, hc.le, (half_pos hb).le],
      by simp [burst, hhalf.le]⟩
  have hreads : ∀ a ∈ burst config delay, { timing with skew := fun _ => 0 }.Reads a :=
    List.forall_mem_cons.mpr ⟨⟨delay, hdelay, by simp⟩,
      List.forall_mem_singleton.mpr ⟨delay, hdelay, by simp⟩⟩
  have hadmitted : admitted config none (burst config delay) =
      [⟨0, config.ceiling⟩, ⟨config.budget / 2 / config.refillPerMs, config.budget / 2⟩] := by
    rw [burst, admitted_grants rfl (by simp [found, decayed]), admitted_grants rfl]
    · rfl
    · rw [decayed_live (by simpa [keyTtlMs] using by linarith)]
      have hleft : config.budget / 2 / config.refillPerMs * config.refillPerMs ≤
          config.ceiling := by linarith
      simp only [drained, found, decayed, Option.filter_none, zero_add, sub_neg_eq_add,
        sub_add_cancel, max_eq_right hwait, hdrains]
      rw [max_eq_right (by linarith)]
      linarith
  have hbound := h 0 (burst config delay) hschedule hreads
    (config.budget / 2 / config.refillPerMs - windowMs)
  have hboth : total (between (config.budget / 2 / config.refillPerMs - windowMs)
      (config.budget / 2 / config.refillPerMs - windowMs + windowMs)
      [⟨0, config.ceiling⟩, ⟨config.budget / 2 / config.refillPerMs, config.budget / 2⟩]) =
        config.ceiling + config.budget / 2 := by
    have hwindow : (0 : ℚ) < windowMs := by norm_num [windowMs]
    simp [between, total, hsoon, hwait, hwindow]
  rw [hadmitted, hboth] at hbound
  linarith

/-- A reading, an earlier one that turns the stored clock back, and the first again, at one
instant. -/
def mint (config : Config) (p q : ℕ) (late early cost : ℚ) : List Attempt :=
  [{ instant := 0, pod := p, reading := late, cost := config.ceiling, priority := true },
   { instant := 0, pod := q, reading := early, cost := 0, priority := true },
   { instant := 0, pod := p, reading := late, cost, priority := true }]

/-- No reading that can reach the script is later than another at the same instant. -/
theorem agree_of_refillPaid (h : RefillPaid config timing) {d e : ℚ} (hd : d ∈ timing.delays)
    (he : e ∈ timing.delays) (p q : ℕ) : timing.skew p - d ≤ timing.skew q - e := by
  by_contra hahead
  obtain ⟨late, hlate⟩ : ∃ late, late = timing.skew p - d := ⟨_, rfl⟩
  obtain ⟨early, hearly⟩ : ∃ early, early = timing.skew q - e := ⟨_, rfl⟩
  rw [← hlate, ← hearly, not_le] at hahead
  have hc := config.ceiling_pos
  have hr := refillPerMs_pos config
  -- what the difference between the readings drains, though no time has passed
  obtain ⟨cost, hcost⟩ : ∃ cost, cost = min config.ceiling ((late - early) * config.refillPerMs) :=
    ⟨_, rfl⟩
  have hpos : 0 < cost := by
    rw [hcost]
    exact lt_min hc (mul_pos (by linarith) hr)
  have hle : cost ≤ config.ceiling := hcost ▸ min_le_left _ _
  have hschedule : Schedule config (mint config p q late early cost) :=
    ⟨by simp [mint], by simp [mint, hc.le, hpos.le], by simp [mint, hc.le, hle]⟩
  have hreads : ∀ a ∈ mint config p q late early cost, timing.Reads a := by
    have hfirst : late = 0 - d + timing.skew p := by linarith
    exact List.forall_mem_cons.mpr ⟨⟨d, hd, hfirst⟩, List.forall_mem_cons.mpr
      ⟨⟨e, he, by dsimp only; linarith⟩, List.forall_mem_singleton.mpr ⟨d, hd, hfirst⟩⟩⟩
  have hadmitted : admitted config none (mint config p q late early cost) =
      [⟨0, config.ceiling⟩, ⟨0, 0⟩, ⟨0, cost⟩] := by
    have hback : decayed config.refillPerMs
        (found (some { used := 0 + config.ceiling, ts := late, expiresAt := 0 + keyTtlMs }) 0)
        early = config.ceiling := by
      rw [decayed_live (by norm_num [keyTtlMs, windowMs]), drained,
        max_eq_left (by linarith : early - late ≤ 0), zero_mul, sub_zero, zero_add]
      exact max_eq_right hc.le
    have hminted : decayed config.refillPerMs
        (found (some { used := config.ceiling + 0, ts := early, expiresAt := 0 + keyTtlMs }) 0)
        late + cost ≤ config.ceiling := by
      rw [decayed_live (by norm_num [keyTtlMs, windowMs]), drained,
        max_eq_right (by linarith : 0 ≤ late - early), add_zero]
      rcases le_total config.ceiling ((late - early) * config.refillPerMs) with hall | hpart
      · rw [max_eq_left (by linarith), zero_add]
        exact hle
      · rw [max_eq_right (by linarith), hcost, min_eq_right hpart]
        linarith
    have hfirst : decayed config.refillPerMs (found none 0) late = 0 := rfl
    rw [mint, admitted_grants hfirst (by simp), admitted_grants hback (by simp),
      admitted_grants rfl hminted, admitted]
  have hbound := h (mint config p q late early cost) hschedule hreads 0 0 le_rfl (by simp [mint])
  rw [hadmitted] at hbound
  have htotal : total [(⟨0, config.ceiling⟩ : Entry ℚ ℚ), ⟨0, 0⟩, ⟨0, cost⟩] =
      config.ceiling + cost := by
    simp [total]
  rw [htotal] at hbound
  linarith

/--
The governor respects the exchange's window, and refills nothing that no time
paid for, exactly when twice its ceiling fits in the budget, the pods' clocks
agree and every script runs the same time after its pod read the clock.
-/
theorem governor_bounds_iff (config : Config) (timing : Timing) :
    (WindowBounded config timing ∧ RefillPaid config timing) ↔
      2 * config.ceiling ≤ config.budget ∧ (∀ p q, timing.skew p = timing.skew q) ∧
        timing.delays.Subsingleton := by
  constructor
  · rintro ⟨hwindow, hrefill⟩
    obtain ⟨delay, hdelay⟩ := timing.delay_exists
    refine ⟨le_of_windowBounded hwindow, fun p q => ?_, fun d hd e he => ?_⟩
    · have hpq := agree_of_refillPaid hrefill hdelay hdelay p q
      have hqp := agree_of_refillPaid hrefill hdelay hdelay q p
      linarith
    · have hde := agree_of_refillPaid hrefill hd he 0 0
      have hed := agree_of_refillPaid hrefill he hd 0 0
      linarith
  · rintro ⟨hceiling, hagree, honly⟩
    exact ⟨windowBounded_of_le hceiling honly, refillPaid_of_agree hagree honly⟩

end Bounds

/-- The constructor's defaults. -/
def defaultConfig : Config where
  budget := 1200
  targetUtilisation := 4 / 5
  orderReserve := 0
  budget_pos := by norm_num
  utilisation_pos := by norm_num
  utilisation_le := by norm_num
  reserve_nonneg := le_rfl
  reserve_lt := by decide +kernel

/-- Scripts that run at once, on clocks of the given skews. -/
def prompt (skew : ℕ → ℚ) : Timing := ⟨skew, {0}, Set.singleton_nonempty 0, by simp⟩

/-- One clock, and a script that may run 400 ms after it was read. -/
def dawdling : Timing := ⟨fun _ => 0, {0, 400}, Set.insert_nonempty 0 _, by simp⟩

/--
On the default settings a full bucket and half a window's refill spend 1440 of a
budget of 1200. At one instant, a pod one second ahead of another is granted
sixteen that no time has paid for, and one that reads 1000, 600 and 1000 of one
clock is granted six.
-/
theorem default_governor_overspends :
    admitted defaultConfig none
        [{ instant := 0, pod := 0, reading := 0, cost := 960, priority := true },
         { instant := 30000, pod := 1, reading := 30000, cost := 480, priority := true }] =
      [⟨0, 960⟩, ⟨30000, 480⟩] ∧
      ¬ WindowBounded defaultConfig (prompt fun _ => 0) ∧
      admitted defaultConfig none
        [{ instant := 0, pod := 0, reading := 1000, cost := 960, priority := true },
         { instant := 0, pod := 1, reading := 0, cost := 0, priority := true },
         { instant := 0, pod := 0, reading := 1000, cost := 16, priority := true }] =
      [⟨0, 960⟩, ⟨0, 0⟩, ⟨0, 16⟩] ∧
      ¬ RefillPaid defaultConfig (prompt fun pod => if pod = 0 then 1000 else 0) ∧
      admitted defaultConfig none
        [{ instant := 1000, pod := 0, reading := 1000, cost := 960, priority := true },
         { instant := 1000, pod := 0, reading := 600, cost := 0, priority := true },
         { instant := 1000, pod := 0, reading := 1000, cost := 6, priority := true }] =
      [⟨1000, 960⟩, ⟨1000, 0⟩, ⟨1000, 6⟩] ∧
      ¬ RefillPaid defaultConfig dawdling := by
  refine ⟨by decide +kernel, fun h => ?_, by decide +kernel, fun h => ?_, by decide +kernel,
    fun h => ?_⟩
  · have hceiling : ¬ 2 * defaultConfig.ceiling ≤ defaultConfig.budget := by decide +kernel
    exact hceiling (le_of_windowBounded h)
  · have hclocks := agree_of_refillPaid h rfl rfl 0 1
    norm_num [prompt] at hclocks
  · have hdelays := agree_of_refillPaid h (.inl rfl) (.inr rfl) 0 0
    norm_num [dawdling] at hdelays

end TradingBot.WeightGovernor
