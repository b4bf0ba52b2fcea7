import Mathlib.Algebra.Order.Ring.Unbundled.Rat
import Mathlib.Data.List.Dedup
import TradingBot.Lib.FanOutLog

/-!
# The shared snapshot of the open orders

The profiles of an account share one list of the open orders of a symbol. It is
seeded from the exchange when it is absent, and from then on every placement,
every cancel and every report patches it in place. An upsert creates an absent
list, a removal and a patch do not, and a seed gives way to a list that is
there. The exchange is the log of its reports, and each stream of the account
reads that log at its own pace.
-/

namespace TradingBot.Worker

open FanOutLog

/-! ### The list -/

structure CachedOrder where
  orderId : ℕ
  executedQty : ℚ
  cummulativeQuoteQty : ℚ
  status : String

/-- Insert or replace, by order id. -/
def upsertList (order : CachedOrder) : List CachedOrder → List CachedOrder
  | [] => [order]
  | first :: rest =>
      if first.orderId = order.orderId then order :: rest else first :: upsertList order rest

def patchList (orderId : ℕ) (executedQty cumQuote : ℚ) (status : String) :
    List CachedOrder → List CachedOrder
  | [] => []
  | first :: rest =>
      if first.orderId = orderId then
        { first with executedQty, cummulativeQuoteQty := cumQuote, status } :: rest
      else first :: patchList orderId executedQty cumQuote status rest

/-- The key of the list; absent until something creates it. -/
abbrev OpenOrdersKey := Option (List CachedOrder)

def upsertOpenOrder (key : OpenOrdersKey) (order : CachedOrder) : OpenOrdersKey :=
  some (upsertList order (key.getD []))

def removeOpenOrder (key : OpenOrdersKey) (orderId : ℕ) : OpenOrdersKey :=
  key.map (·.filter (·.orderId ≠ orderId))

def patchOpenOrder (key : OpenOrdersKey) (orderId : ℕ) (executedQty cumQuote : ℚ)
    (status : String) : OpenOrdersKey :=
  key.map (patchList orderId executedQty cumQuote status)

/-- The write of a cold load, which only seeds an absent key. -/
def seedOpenOrders (key : OpenOrdersKey) (snapshot : List CachedOrder) : OpenOrdersKey :=
  key.or (some snapshot)

/-- What the list says has executed of an order. -/
def listed (list : List CachedOrder) (orderId : ℕ) : Option ℚ :=
  (list.find? (·.orderId = orderId)).map (·.executedQty)

/-! ### The exchange -/

inductive Reported where
  | new
  | partiallyFilled (cumQty cumQuoteQty : ℚ)
  | terminal

/-- What a report says of an order that is on the book. -/
def Reported.standing : Reported → Option (ℚ × ℚ)
  | new => some (0, 0)
  | partiallyFilled cumQty cumQuoteQty => some (cumQty, cumQuoteQty)
  | terminal => none

abbrev ReportLog := List (ℕ × Reported)

/-- What has executed of an order, and for how much, while it is on the book. -/
def onBook (log : ReportLog) (orderId : ℕ) : Option (ℚ × ℚ) :=
  (latest log orderId).bind Reported.standing

/-- What has executed of an order that is on the book. -/
def standing (log : ReportLog) (orderId : ℕ) : Option ℚ := (onBook log orderId).map (·.1)

/-- The report at a place of the log says this much of an order has executed. -/
def FilledAt (log : ReportLog) (p orderId : ℕ) (cumQty : ℚ) : Prop :=
  ∃ cumQuoteQty, log[p]? = some (orderId, Reported.partiallyFilled cumQty cumQuoteQty)

/-- The open orders as the exchange lists them. -/
def liveOrders (log : ReportLog) : List CachedOrder :=
  (log.map (·.1)).dedup.filterMap fun orderId =>
    (onBook log orderId).map fun executed =>
      ⟨orderId, executed.1, executed.2, if executed.1 = 0 then "NEW" else "PARTIALLY_FILLED"⟩

/-- A placement that was answered; its write to the list is on the way. -/
structure Placement where
  orderId : ℕ
  status : String
  terminal : Bool

/-- A read of the book whose write is on its way, and how much of the log the read has seen. -/
structure ColdLoad where
  readAt : ℕ
  snapshot : List CachedOrder

/-- The exchange, the key and what is on its way to it. How much of the log the read had seen that
seeded the list is only remembered; no operation looks at it. -/
structure CacheWorld where
  log : ReportLog
  cursors : List ℕ
  key : OpenOrdersKey
  placements : List Placement
  cancels : List ℕ
  coldLoads : List ColdLoad
  seededAt : ℕ

/-- What a placement has done by the time it is answered. -/
inductive PlaceOutcome where
  | rests
  | executes (cumQty cumQuoteQty : ℚ)
  | ends

def PlaceOutcome.reports : PlaceOutcome → List Reported
  | rests => [.new]
  | executes cumQty cumQuoteQty => [.new, .partiallyFilled cumQty cumQuoteQty]
  | ends => [.new, .terminal]

/-- What a placement executes is something. -/
def PlaceOutcome.valid : PlaceOutcome → Bool
  | executes cumQty _ => 0 < cumQty
  | _ => true

def PlaceOutcome.placement (orderId : ℕ) : PlaceOutcome → Placement
  | rests => ⟨orderId, "NEW", false⟩
  | executes _ _ => ⟨orderId, "PARTIALLY_FILLED", false⟩
  | ends => ⟨orderId, "FILLED", true⟩

/-- A step of the exchange, or an atomic operation on the key. -/
inductive CacheStep where
  | place (orderId : ℕ) (outcome : PlaceOutcome)
  /-- An order the worker has no answer of: placed by hand, or its response was lost. -/
  | arrive (orderId : ℕ)
  | fill (orderId : ℕ) (cumQty cumQuoteQty : ℚ)
  | finish (orderId : ℕ)
  | cancel (orderId : ℕ)
  | coldRead
  | coldWrite (index : ℕ)
  | writePlaced (index : ℕ)
  | writeCancelled (index : ℕ)
  | deliver (stream : ℕ)
  | reconnect

namespace CacheWorld

def start (streams : ℕ) : CacheWorld where
  log := []
  cursors := List.replicate (streams + 1) 0
  key := none
  placements := []
  cancels := []
  coldLoads := []
  seededAt := 0

variable (s : CacheWorld)

def report (orderId : ℕ) (reported : Reported) : CacheWorld :=
  { s with log := s.log ++ [(orderId, reported)] }

/-- The write of a placement: a resting order is added as one that executed nothing. -/
def placedKey (placement : Placement) : OpenOrdersKey :=
  if placement.terminal then removeOpenOrder s.key placement.orderId
  else upsertOpenOrder s.key ⟨placement.orderId, 0, 0, placement.status⟩

def deliveredKey (key : OpenOrdersKey) (orderId : ℕ) : Reported → OpenOrdersKey
  | .new => key
  | .partiallyFilled cumQty cumQuoteQty =>
      patchOpenOrder key orderId cumQty cumQuoteQty "PARTIALLY_FILLED"
  | .terminal => removeOpenOrder key orderId

def step : CacheStep → Option CacheWorld
  | .place orderId outcome =>
      if latest s.log orderId = none ∧ outcome.valid then
        some (outcome.reports.foldl (·.report orderId ·)
          { s with placements := s.placements ++ [outcome.placement orderId] })
      else none
  | .arrive orderId => if latest s.log orderId = none then some (s.report orderId .new) else none
  | .fill orderId cumQty cumQuoteQty =>
      if (standing s.log orderId).any (· < cumQty) then
        some (s.report orderId (.partiallyFilled cumQty cumQuoteQty))
      else none
  | .finish orderId =>
      if (standing s.log orderId).isSome then some (s.report orderId .terminal) else none
  | .cancel orderId =>
      if (standing s.log orderId).isSome then
        some { s.report orderId .terminal with cancels := s.cancels ++ [orderId] }
      else none
  | .coldRead => some { s with coldLoads := s.coldLoads ++ [⟨s.log.length, liveOrders s.log⟩] }
  | .coldWrite index =>
      s.coldLoads[index]?.map fun load =>
        { s with
          key := seedOpenOrders s.key load.snapshot
          coldLoads := s.coldLoads.eraseIdx index
          seededAt := if s.key.isNone then load.readAt else s.seededAt }
  | .writePlaced index =>
      s.placements[index]?.map fun placement =>
        { s with key := s.placedKey placement, placements := s.placements.eraseIdx index }
  | .writeCancelled index =>
      s.cancels[index]?.map fun orderId =>
        { s with key := removeOpenOrder s.key orderId, cancels := s.cancels.eraseIdx index }
  | .deliver stream =>
      match s.cursors[stream]? with
      | none => none
      | some cursor =>
          match unread s.log cursor with
          | [] => none
          | (orderId, reported) :: _ =>
              some { s with
                key := deliveredKey s.key orderId reported
                cursors := s.cursors.set stream (cursor + 1) }
  | .reconnect => some { s with key := none, seededAt := 0 }

/-! ### What is claimed of it -/

/-- Every report was processed on every stream, and no operation is on its way. -/
structure Quiescent : Prop where
  reports : ∀ cursor ∈ s.cursors, s.log.length ≤ cursor
  placements : s.placements = []
  cancels : s.cancels = []
  coldLoads : s.coldLoads = []

/-- A list that is there names the orders on the book, each once, with what has executed. -/
def Tracks : Prop :=
  ∀ list, s.key = some list →
    (list.map (·.orderId)).Nodup ∧ ∀ orderId, listed list orderId = standing s.log orderId

/-- No entry that stays says less has executed than before. -/
def NeverLowers (t : CacheWorld) : Prop :=
  ∀ before after orderId executed now, s.key = some before → t.key = some after →
    listed before orderId = some executed → listed after orderId = some now → executed ≤ now

/-! ### The condition -/

/-- A report that changes an entry is still to be read. -/
def Reporting (orderId : ℕ) : Prop :=
  ∃ cursor ∈ s.cursors, ∃ reported, (orderId, reported) ∈ unread s.log cursor ∧ reported ≠ .new

/-- The list is off for an order, and something on its way will mend it. -/
def Mending (list : List CachedOrder) (orderId : ℕ) : Prop :=
  (∃ placement ∈ s.placements, placement.orderId = orderId) ∨
    (listed list orderId).isSome = true ∧
      (s.Reporting orderId ∨ standing s.log orderId = none ∧ orderId ∈ s.cancels)

/-- The list is right about an order, or will be. -/
def Settles (list : List CachedOrder) (orderId : ℕ) : Prop :=
  listed list orderId = standing s.log orderId ∨ s.Mending list orderId

/-- From a point of the log on, no stream has read a partial fill of the order, nor had the read
seen one that seeded the list. -/
def UnseenFrom (orderId start : ℕ) : Prop :=
  ∀ seen ∈ s.seededAt :: s.cursors, ∀ p cumQty, start ≤ p → p < seen →
    ¬ FilledAt s.log p orderId cumQty

/-- The steps that do not lose an update. -/
def Orderly : CacheStep → Prop
  | .arrive _ => s.key = none
  | .coldWrite index =>
      s.key = none → ∀ load, s.coldLoads[index]? = some load →
        ∀ orderId, s.Settles load.snapshot orderId
  | .writePlaced index =>
      ∀ placement, s.placements[index]? = some placement → placement.terminal = false →
        (standing s.log placement.orderId = some 0 ∨ s.Reporting placement.orderId ∨
            standing s.log placement.orderId = none ∧ placement.orderId ∈ s.cancels) ∧
          s.UnseenFrom placement.orderId 0 ∧
          (s.key = none → ∀ orderId, orderId ≠ placement.orderId →
            standing s.log orderId = none ∨
              ∃ other ∈ s.placements, other.orderId = orderId)
  | .deliver stream =>
      ∀ cursor orderId cumQty cumQuoteQty rest, s.cursors[stream]? = some cursor →
        unread s.log cursor = (orderId, .partiallyFilled cumQty cumQuoteQty) :: rest →
          s.UnseenFrom orderId (cursor + 1)
  | _ => True

end CacheWorld

/-! ### The operations on the list -/

section List

variable {list : List CachedOrder} {orderId other : ℕ} {order : CachedOrder}
  {executedQty cumQuote : ℚ} {status : String}

theorem listed_upsert_self :
    listed (upsertList order list) order.orderId = some order.executedQty := by
  induction list with
  | nil => simp [upsertList, listed]
  | cons first rest ih =>
      rw [upsertList]
      split
      · simp [listed]
      · next hother => simpa [listed, hother] using ih

theorem listed_upsert_other (h : other ≠ order.orderId) :
    listed (upsertList order list) other = listed list other := by
  induction list with
  | nil => simp [upsertList, listed, h.symm]
  | cons first rest ih =>
      rw [upsertList]
      split
      · next hsame => simp [listed, h.symm, hsame]
      · by_cases hfirst : first.orderId = other
        · simp [listed, hfirst]
        · simpa [listed, hfirst] using ih

theorem mem_ids_upsert :
    other ∈ (upsertList order list).map (·.orderId) →
      other = order.orderId ∨ other ∈ list.map (·.orderId) := by
  induction list with
  | nil => simp [upsertList]
  | cons first rest ih =>
      rw [upsertList]
      split
      · simp only [List.map_cons, List.mem_cons]
        rintro (h | h)
        · exact .inl h
        · exact .inr (.inr h)
      · simp only [List.map_cons, List.mem_cons]
        rintro (h | h)
        · exact .inr (.inl h)
        · exact (ih h).imp_right .inr

theorem nodup_upsert (h : (list.map (·.orderId)).Nodup) :
    ((upsertList order list).map (·.orderId)).Nodup := by
  induction list with
  | nil => simp [upsertList]
  | cons first rest ih =>
      rw [List.map_cons, List.nodup_cons] at h
      rw [upsertList]
      split
      · next hsame =>
          rw [List.map_cons, List.nodup_cons, ← hsame]
          exact h
      · next hother =>
          rw [List.map_cons, List.nodup_cons]
          refine ⟨fun hmem => ?_, ih h.2⟩
          rcases mem_ids_upsert hmem with hsame | hmem
          · exact hother hsame
          · exact h.1 hmem

theorem listed_patch_self :
    listed (patchList orderId executedQty cumQuote status list) orderId =
      (listed list orderId).map fun _ => executedQty := by
  induction list with
  | nil => rfl
  | cons first rest ih =>
      rw [patchList]
      split
      · next hsame => simp [listed, hsame]
      · next hother => simpa [listed, hother] using ih

theorem listed_patch_other (h : other ≠ orderId) :
    listed (patchList orderId executedQty cumQuote status list) other = listed list other := by
  induction list with
  | nil => rfl
  | cons first rest ih =>
      rw [patchList]
      split
      · next hsame => simp [listed, hsame, h.symm]
      · by_cases hfirst : first.orderId = other
        · simp [listed, hfirst]
        · simpa [listed, hfirst] using ih

theorem ids_patch :
    (patchList orderId executedQty cumQuote status list).map (·.orderId) =
      list.map (·.orderId) := by
  induction list with
  | nil => rfl
  | cons first rest ih =>
      rw [patchList]
      split
      · rfl
      · rw [List.map_cons, ih, List.map_cons]

theorem listed_remove_self : listed (list.filter (·.orderId ≠ orderId)) orderId = none := by
  simp [listed]

theorem listed_remove_other (h : other ≠ orderId) :
    listed (list.filter (·.orderId ≠ orderId)) other = listed list other := by
  rw [listed, listed, List.find?_filter]
  congr 2
  funext entry
  by_cases hsame : entry.orderId = other
  · simp [hsame, h]
  · simp [hsame]

theorem nodup_remove (h : (list.map (·.orderId)).Nodup) :
    ((list.filter (·.orderId ≠ orderId)).map (·.orderId)).Nodup :=
  h.sublist (List.filter_sublist.map _)

end List

/-! ### The log -/

section Log

variable {log : ReportLog} {orderId other : ℕ} {reported : Reported}

theorem standing_report_self :
    standing (log ++ [(orderId, reported)]) orderId = reported.standing.map (·.1) := by
  rw [standing, onBook, latest_append_self]
  rfl

theorem standing_report_other (h : other ≠ orderId) :
    standing (log ++ [(orderId, reported)]) other = standing log other := by
  rw [standing, onBook, latest_append_of_ne h, standing, onBook]

theorem ids_filterMap_sublist {f : ℕ → Option CachedOrder} (hf : ∀ id order, f id = some order →
    order.orderId = id) (ids : List ℕ) :
    ((ids.filterMap f).map (·.orderId)).Sublist ids := by
  induction ids with
  | nil => exact .slnil
  | cons first rest ih =>
      cases hfirst : f first with
      | none =>
          rw [List.filterMap_cons_none hfirst]
          exact ih.cons first
      | some order =>
          rw [List.filterMap_cons_some hfirst, List.map_cons, hf _ _ hfirst]
          exact ih.cons_cons first

theorem liveOrder_orderId {id : ℕ} {order : CachedOrder}
    (h : ((onBook log id).map fun executed =>
      (⟨id, executed.1, executed.2, if executed.1 = 0 then "NEW" else "PARTIALLY_FILLED"⟩ :
        CachedOrder)) = some order) : order.orderId = id := by
  obtain ⟨executed, -, rfl⟩ := Option.map_eq_some_iff.mp h
  rfl

theorem nodup_liveOrders : ((liveOrders log).map (·.orderId)).Nodup := by
  exact (List.nodup_dedup _).sublist
    (ids_filterMap_sublist (fun id order => liveOrder_orderId) _)

/-- An order is reported once as new, first, and is not reported again once it ended. -/
def LogValid (log : ReportLog) : Prop :=
  log.Pairwise fun earlier later =>
    earlier.1 = later.1 → earlier.2 ≠ .terminal ∧ later.2 ≠ .new

theorem LogValid.append (h : LogValid log)
    (hnew : ∀ entry ∈ log, entry.1 = orderId → entry.2 ≠ .terminal ∧ reported ≠ .new) :
    LogValid (log ++ [(orderId, reported)]) := by
  refine List.pairwise_append.mpr ⟨h, List.pairwise_singleton _ _, ?_⟩
  intro entry hentry added hadded
  rw [List.mem_singleton.mp hadded]
  exact hnew entry hentry

theorem LogValid.not_ended (h : LogValid log) (hlive : (standing log orderId).isSome = true)
    {entry : ℕ × Reported} (hentry : entry ∈ log) (hsame : entry.1 = orderId) :
    entry.2 ≠ .terminal := by
  rcases entry with ⟨found, reported⟩
  obtain rfl : found = orderId := hsame
  rintro rfl
  obtain ⟨before, rest, rfl⟩ := List.append_of_mem hentry
  have hrest : ∀ later, (found, later) ∉ rest := by
    intro later hmem
    obtain ⟨-, hcons, -⟩ := List.pairwise_append.mp h
    exact ((List.pairwise_cons.mp hcons).1 _ hmem rfl).1 rfl
  rw [standing, onBook, latest_of_split rfl hrest] at hlive
  cases hlive

/-- A report that follows another of its order is not the first, and the other not the last. -/
theorem LogValid.later {cursor : ℕ} {rest : ReportLog} {later : Reported} (h : LogValid log)
    (hunread : unread log cursor = (orderId, reported) :: rest) (hmem : (orderId, later) ∈ rest) :
    reported ≠ .terminal ∧ later ≠ .new := by
  have hpairs : (unread log cursor).Pairwise _ := h.sublist (List.drop_sublist cursor log)
  rw [hunread] at hpairs
  exact (List.pairwise_cons.mp hpairs).1 _ hmem rfl

theorem FilledAt.lt {p : ℕ} {cumQty : ℚ} (h : FilledAt log p orderId cumQty) :
    p < log.length := by
  obtain ⟨_, hreport⟩ := h
  exact (List.getElem?_eq_some_iff.mp hreport).1

theorem FilledAt.append {p : ℕ} {cumQty : ℚ}
    (h : FilledAt log p orderId cumQty) (added : ReportLog) :
    FilledAt (log ++ added) p orderId cumQty := by
  have hlt := h.lt
  obtain ⟨cumQuoteQty, hreport⟩ := h
  exact ⟨cumQuoteQty, (List.getElem?_append_left hlt).trans hreport⟩

theorem FilledAt.of_append {p : ℕ} {cumQty : ℚ}
    (h : FilledAt (log ++ [(orderId, reported)]) p other cumQty) :
    FilledAt log p other cumQty ∨ p = log.length ∧ other = orderId ∧
      ∃ cumQuoteQty, reported = .partiallyFilled cumQty cumQuoteQty := by
  obtain ⟨cumQuoteQty, hreport⟩ := h
  rw [List.getElem?_append] at hreport
  split at hreport
  · exact .inl ⟨cumQuoteQty, hreport⟩
  · obtain ⟨hlt, heq⟩ := List.getElem?_eq_some_iff.mp hreport
    rw [List.length_singleton] at hlt
    simp only [List.getElem_singleton, Prod.mk.injEq] at heq
    exact .inr ⟨by omega, heq.1.symm, cumQuoteQty, heq.2⟩

theorem standing_eq_some {executed : ℚ}
    (h : standing log orderId = some executed) :
    executed = 0 ∨ ∃ p, FilledAt log p orderId executed := by
  obtain ⟨found, hfound, rfl⟩ := Option.map_eq_some_iff.mp h
  obtain ⟨reported, hlatest, hstanding⟩ := Option.bind_eq_some_iff.mp hfound
  cases reported with
  | new => exact .inl (by rw [← Option.some.inj hstanding])
  | partiallyFilled cumQty cumQuoteQty =>
      obtain rfl := Option.some.inj hstanding
      obtain ⟨p, hp⟩ := List.mem_iff_getElem?.mp (exists_of_latest hlatest)
      exact .inr ⟨p, cumQuoteQty, hp⟩
  | terminal => cases hstanding

theorem filledAt_of_unread {rest : ReportLog} {cursor : ℕ} {cumQty cumQuoteQty : ℚ}
    (h : unread log cursor = (orderId, .partiallyFilled cumQty cumQuoteQty) :: rest) :
    FilledAt log cursor orderId cumQty := by
  refine ⟨cumQuoteQty, ?_⟩
  rw [← List.head?_drop]
  exact congrArg List.head? h

end Log

end TradingBot.Worker
