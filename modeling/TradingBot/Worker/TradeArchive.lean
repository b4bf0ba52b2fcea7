import Mathlib.Algebra.BigOperators.Group.List.Basic
import Mathlib.Algebra.Order.Field.Rat
import Mathlib.Data.List.Dedup
import Mathlib.Data.List.Sort
import TradingBot.Core.Contract
import TradingBot.Lib.LabelledRun

/-!
# Forward archiving

The filled orders of one profile and symbol are archived in windows. A job reads
the newest edge of the archive, lists the orders closed after it, adds up those
closed until the newest one listed, and inserts a row, each in a statement of its
own. Between the statements orders become visible and other jobs run.
-/

namespace TradingBot.Worker

open LabelledRun

/-- A filled row of `orders`; the times are those of the exchange. -/
structure FilledOrder where
  id : String
  binanceOrderId : ℕ
  clientOrderId : String
  intent : String
  side : OrderSide
  executedQty : Option String
  cummulativeQuoteQty : Option ℚ
  baseCommissionNetted : Option String
  realizedPnl : Option ℚ
  costBasisQuote : Option ℚ
  closedAt : ℤ
deriving DecidableEq

structure OrderSummary where
  orderId : String
  binanceOrderId : ℕ
  clientOrderId : String
  intent : String
  side : Option OrderSide
  status : String
  executedQty : Option String
  cummulativeQuoteQty : Option ℚ
  baseCommissionNetted : Option String
  closedAt : Option ℤ

def summariseOrder (row : FilledOrder) : OrderSummary where
  orderId := row.id
  binanceOrderId := row.binanceOrderId
  clientOrderId := row.clientOrderId
  intent := row.intent
  side := some row.side
  status := "FILLED"
  executedQty := row.executedQty
  cummulativeQuoteQty := row.cummulativeQuoteQty
  baseCommissionNetted := row.baseCommissionNetted
  closedAt := some row.closedAt

structure ArchiveSummary where
  totalBuyQuote : ℚ
  totalSellQuote : ℚ
  breakdown : List (String × ℚ)
  profit : ℚ
  orderCount : ℕ
  missingCostBasis : ℕ

/-- A row of `trade_archive`; rows from before `cycle_end` existed have none. -/
structure ArchiveRow where
  totalBuyQuote : ℚ
  totalSellQuote : ℚ
  breakdown : List (String × ℚ)
  profit : ℚ
  missingCostBasis : ℕ
  orders : List OrderSummary
  archivedAt : ℤ
  cycleEnd : Option ℤ

/-! ### The statements of a job -/

def ArchiveRow.watermark (row : ArchiveRow) : ℤ := row.cycleEnd.getD row.archivedAt

/-- The watermark the next archive starts from. -/
def latestArchivedAt (archive : List ArchiveRow) : Option ℤ :=
  (archive.map (·.watermark)).max?

/-- Closed after `since`, and not after `until` where there is one. -/
def FilledOrder.ClosedIn (since till : Option ℤ) (row : FilledOrder) : Prop :=
  (∀ bound ∈ till, row.closedAt ≤ bound) ∧ ∀ bound ∈ since, bound < row.closedAt

instance (since till : Option ℤ) (row : FilledOrder) : Decidable (row.ClosedIn since till) :=
  inferInstanceAs (Decidable (_ ∧ _))

/-- The order of `desc(closed_at)`. -/
def FilledOrder.Later (a b : FilledOrder) : Prop := b.closedAt ≤ a.closedAt

instance : DecidableRel FilledOrder.Later := fun a b =>
  inferInstanceAs (Decidable (b.closedAt ≤ a.closedAt))

def listClosedSince (orders : List FilledOrder) (since till : Option ℤ) : List FilledOrder :=
  (orders.filter (·.ClosedIn since till)).insertionSort FilledOrder.Later

/-- A sum over the values that are not null. -/
def sumOf (field : FilledOrder → Option ℚ) (filled : List FilledOrder) : ℚ :=
  (filled.filterMap field).sum

def breakdownKey (row : FilledOrder) : String := row.intent ++ ":" ++ row.side.text

/-- The filled quote of each pair of intent and side. -/
def breakdownOf (filled : List FilledOrder) : List (String × ℚ) :=
  (filled.map breakdownKey).dedup.map fun key =>
    (key, sumOf (·.cummulativeQuoteQty) (filled.filter fun row => breakdownKey row = key))

def summarizeArchiveSince (orders : List FilledOrder) (since : Option ℤ) (till : ℤ) :
    Option ArchiveSummary :=
  let filled := orders.filter (·.ClosedIn since (some till))
  let bought := sumOf (·.costBasisQuote) filled
  let profit := sumOf (·.realizedPnl) filled
  if filled.length = 0 then none
  else some {
    totalBuyQuote := bought
    totalSellQuote := bought + profit
    breakdown := breakdownOf filled
    profit
    orderCount := filled.length
    missingCostBasis := filled.countP fun row => row.side = .sell ∧ row.realizedPnl = none }

/-- The upper edge of the window: the newest close listed, or the clock where nothing is. -/
def archiveCutoff (rows : List FilledOrder) (nowMs : ℤ) : ℤ :=
  (rows.head?.map (·.closedAt)).getD nowMs

/-- The row that a job inserts. -/
def archiveRow (summary : ArchiveSummary) (rows : List FilledOrder) (cutoff nowMs : ℤ) :
    ArchiveRow where
  totalBuyQuote := summary.totalBuyQuote
  totalSellQuote := summary.totalSellQuote
  breakdown := summary.breakdown
  profit := summary.profit
  missingCostBasis := summary.missingCostBasis
  orders := rows.map summariseOrder
  archivedAt := nowMs
  cycleEnd := some ((rows.head?.map (·.closedAt)).getD cutoff)

/-- On a conflict over `cycle_end` nothing is inserted. -/
def insertArchive (archive : List ArchiveRow) (row : ArchiveRow) : List ArchiveRow :=
  if row.cycleEnd.isSome ∧ ∃ held ∈ archive, held.cycleEnd = row.cycleEnd then archive
  else archive ++ [row]

/-! ### Jobs -/

/-- What a job has read so far. -/
inductive ArchivePhase where
  | started
  | read (since : Option ℤ)
  | listed (since : Option ℤ) (rows : List FilledOrder) (cutoff : ℤ)
  | summarised (since : Option ℤ) (rows : List FilledOrder) (cutoff : ℤ) (summary : ArchiveSummary)
  | finished
  | failed

def ArchivePhase.Running : ArchivePhase → Prop
  | finished | failed => False
  | _ => True

instance : DecidablePred ArchivePhase.Running
  | .finished | .failed => isFalse id
  | .started | .read _ | .listed _ _ _ | .summarised _ _ _ _ => isTrue trivial

/-- A job. The orders that were visible and not stranded when it started, and whether it was the
only one running then, are noted for the statements alone. -/
structure ArchiveJob where
  seen : List FilledOrder
  alone : Bool
  phase : ArchivePhase

structure ArchiveWorld where
  orders : List FilledOrder
  archive : List ArchiveRow
  jobs : List ArchiveJob

inductive ArchiveEvent where
  /-- A filled order becomes visible. -/
  | visible (order : FilledOrder)
  | start
  /-- The job at the index takes its next step at the time. -/
  | advance (index : ℕ) (nowMs : ℤ)
  | fail (index : ℕ)

namespace ArchiveWorld

def empty : ArchiveWorld := ⟨[], [], []⟩

/-- The order is visible, yet closed no later than the archive reaches and in none of its rows. -/
def Stranded (world : ArchiveWorld) (order : FilledOrder) : Prop :=
  (∃ newest ∈ latestArchivedAt world.archive, order.closedAt ≤ newest) ∧
    ∀ row ∈ world.archive, order.id ∉ row.orders.map (·.orderId)

instance (world : ArchiveWorld) : DecidablePred world.Stranded := fun _ =>
  inferInstanceAs (Decidable (_ ∧ _))

/-- The next step of a job: the archive and the phase after it. -/
def next (world : ArchiveWorld) (nowMs : ℤ) : ArchivePhase → Option (List ArchiveRow × ArchivePhase)
  | .started => some (world.archive, .read (latestArchivedAt world.archive))
  | .read since =>
      let rows := listClosedSince world.orders since none
      some (world.archive, .listed since rows (archiveCutoff rows nowMs))
  | .listed since rows cutoff =>
      match summarizeArchiveSince world.orders since cutoff with
      | none => some (world.archive, .finished)
      | some summary => some (world.archive, .summarised since rows cutoff summary)
  | .summarised _ rows cutoff summary =>
      some (insertArchive world.archive (archiveRow summary rows cutoff nowMs), .finished)
  | .finished | .failed => none

def step (world : ArchiveWorld) : ArchiveEvent → Option ArchiveWorld
  | .visible order =>
      if order.id ∈ world.orders.map (·.id) then none
      else some { world with orders := world.orders ++ [order] }
  | .start =>
      let alone := decide (∀ job ∈ world.jobs, ¬ job.phase.Running)
      some { world with
        jobs := world.jobs ++ [⟨world.orders.filter (¬ world.Stranded ·), alone, .started⟩] }
  | .advance index nowMs => do
      let job ← world.jobs[index]?
      let (archive, phase) ← world.next nowMs job.phase
      return { world with archive, jobs := world.jobs.set index { job with phase } }
  | .fail index => do
      let job ← world.jobs[index]?
      if job.phase.Running then
        return { world with jobs := world.jobs.set index { job with phase := .failed } }
      else none

/-! ### What a run is asked -/

/-- Some row of the archive lists the order. -/
def Listed (world : ArchiveWorld) (order : FilledOrder) : Prop :=
  ∃ row ∈ world.archive, order.id ∈ row.orders.map (·.orderId)

/-- The archive still ends where the job found it, or the key of its row is taken. -/
def Unmoved (world : ArchiveWorld) : ArchivePhase → Prop
  | .summarised since rows cutoff _ => latestArchivedAt world.archive = since ∨
      ∃ held ∈ world.archive, held.cycleEnd = some ((rows.head?.map (·.closedAt)).getD cutoff)
  | _ => True

/-- Every order that the sums are about to run over was listed. -/
def Agrees (world : ArchiveWorld) : ArchivePhase → Prop
  | .listed since rows cutoff =>
      ∀ order ∈ world.orders, order.ClosedIn since (some cutoff) → order ∈ rows
  | _ => True

/-- The condition on the phase of a job, for the step that the job takes. -/
def Advances (condition : ArchiveWorld → ArchivePhase → Prop) (world : ArchiveWorld) :
    ArchiveEvent → Prop
  | .advance index _ => ∀ job ∈ world.jobs[index]?, condition world job.phase
  | _ => True

/-! ### One step -/

/-- What the next step of a job can be. -/
inductive Next (world : ArchiveWorld) (nowMs : ℤ) :
    ArchivePhase → List ArchiveRow → ArchivePhase → Prop where
  | read : Next world nowMs .started world.archive (.read (latestArchivedAt world.archive))
  | list (since : Option ℤ) : Next world nowMs (.read since) world.archive
      (.listed since (listClosedSince world.orders since none)
        (archiveCutoff (listClosedSince world.orders since none) nowMs))
  | nothing {since rows cutoff} (h : summarizeArchiveSince world.orders since cutoff = none) :
      Next world nowMs (.listed since rows cutoff) world.archive .finished
  | summarise {since rows cutoff summary}
      (h : summarizeArchiveSince world.orders since cutoff = some summary) :
      Next world nowMs (.listed since rows cutoff) world.archive
        (.summarised since rows cutoff summary)
  | insert (since : Option ℤ) (rows : List FilledOrder) (cutoff : ℤ) (summary : ArchiveSummary) :
      Next world nowMs (.summarised since rows cutoff summary)
        (insertArchive world.archive (archiveRow summary rows cutoff nowMs)) .finished

section Step

variable {world after : ArchiveWorld} {nowMs : ℤ} {phase phase' : ArchivePhase}
  {archive : List ArchiveRow} {index : ℕ} {job : ArchiveJob} {order : FilledOrder}
  {since : Option ℤ} {rows : List FilledOrder} {cutoff bound : ℤ}

theorem next_cases (h : world.next nowMs phase = some (archive, phase')) :
    Next world nowMs phase archive phase' := by
  cases phase with
  | started =>
      cases h
      exact .read
  | read since =>
      cases h
      exact .list since
  | listed since rows cutoff =>
      rw [next] at h
      split at h
      · next hsummary =>
          cases h
          exact .nothing hsummary
      · next summary hsummary =>
          cases h
          exact .summarise hsummary
  | summarised since rows cutoff summary =>
      cases h
      exact .insert since rows cutoff summary
  | finished => cases h
  | failed => cases h

/-- What one event does. -/
inductive Moves (world : ArchiveWorld) : ArchiveEvent → ArchiveWorld → Prop where
  | visible {order : FilledOrder} (fresh : order.id ∉ world.orders.map (·.id)) :
      Moves world (.visible order) { world with orders := world.orders ++ [order] }
  | start : Moves world .start { world with
      jobs := world.jobs ++ [⟨world.orders.filter (¬ world.Stranded ·),
        decide (∀ job ∈ world.jobs, ¬ job.phase.Running), .started⟩] }
  | advance {index : ℕ} {nowMs : ℤ} {job : ArchiveJob} {archive : List ArchiveRow}
      {phase : ArchivePhase} (at_index : world.jobs[index]? = some job)
      (next : Next world nowMs job.phase archive phase) :
      Moves world (.advance index nowMs)
        { world with archive, jobs := world.jobs.set index { job with phase } }
  | fail {index : ℕ} {job : ArchiveJob} (at_index : world.jobs[index]? = some job)
      (running : job.phase.Running) :
      Moves world (.fail index)
        { world with jobs := world.jobs.set index { job with phase := .failed } }

theorem step_moves {event : ArchiveEvent} (h : world.step event = some after) :
    Moves world event after := by
  cases event with
  | visible order =>
      rw [step, Option.ite_none_left_eq_some] at h
      obtain ⟨hfresh, ⟨⟩⟩ := h
      exact .visible hfresh
  | start =>
      cases h
      exact .start
  | advance index nowMs =>
      obtain ⟨job, hjob, h⟩ := Option.bind_eq_some_iff.mp h
      obtain ⟨⟨archive, phase⟩, hnext, ⟨⟩⟩ := Option.bind_eq_some_iff.mp h
      exact .advance hjob (next_cases hnext)
  | fail index =>
      obtain ⟨job, hjob, h⟩ := Option.bind_eq_some_iff.mp h
      split at h
      · next hrunning =>
          cases h
          exact .fail hjob hrunning
      · cases h

/-! ### Windows -/

/-- The archive reaches the time. -/
def Reaches (archive : List ArchiveRow) (bound : ℤ) : Prop := ∃ row ∈ archive, bound ≤ row.watermark

theorem latestArchivedAt_reaches {newest : ℤ} (h : latestArchivedAt archive = some newest) :
    Reaches archive newest ∧ ∀ row ∈ archive, row.watermark ≤ newest := by
  obtain ⟨hmem, hle⟩ := List.max?_eq_some_iff.mp h
  obtain ⟨row, hrow, heq⟩ := List.mem_map.mp hmem
  exact ⟨⟨row, hrow, heq.ge⟩, fun row hrow => hle _ (List.mem_map_of_mem hrow)⟩

theorem exists_latest_of_reaches (h : Reaches archive bound) :
    ∃ newest ∈ latestArchivedAt archive, bound ≤ newest := by
  obtain ⟨row, hrow, hle⟩ := h
  cases hlatest : latestArchivedAt archive with
  | none =>
      rw [latestArchivedAt, List.max?_eq_none_iff, List.map_eq_nil_iff] at hlatest
      simp [hlatest] at hrow
  | some newest =>
      exact ⟨newest, rfl, hle.trans ((latestArchivedAt_reaches hlatest).2 row hrow)⟩

theorem mem_listClosedSince {orders : List FilledOrder} {till : Option ℤ} :
    order ∈ listClosedSince orders since till ↔ order ∈ orders ∧ order.ClosedIn since till := by
  rw [listClosedSince, List.mem_insertionSort, List.mem_filter, decide_eq_true_eq]

instance : Std.Total FilledOrder.Later := ⟨fun a b => le_total b.closedAt a.closedAt⟩

instance : IsTrans FilledOrder FilledOrder.Later := ⟨fun _ _ _ hab hbc => le_trans hbc hab⟩

theorem listClosedSince_le_cutoff {orders : List FilledOrder} {till : Option ℤ}
    (h : order ∈ listClosedSince orders since till) :
    order.closedAt ≤ archiveCutoff (listClosedSince orders since till) nowMs := by
  have hsorted : (listClosedSince orders since till).Pairwise FilledOrder.Later :=
    List.pairwise_insertionSort _ _
  cases hlist : listClosedSince orders since till with
  | nil =>
      rw [hlist] at h
      cases h
  | cons newest rest =>
      rw [hlist] at h hsorted
      rcases List.mem_cons.mp h with rfl | h
      · exact le_refl _
      · exact (List.pairwise_cons.mp hsorted).1 order h

theorem archiveCutoff_head (rows : List FilledOrder) (nowMs : ℤ) :
    (rows.head?.map (·.closedAt)).getD (archiveCutoff rows nowMs) = archiveCutoff rows nowMs := by
  rw [archiveCutoff]
  cases rows.head? <;> rfl

theorem insertArchive_cases (archive : List ArchiveRow) (row : ArchiveRow)
    (hedge : row.cycleEnd = some bound) :
    (insertArchive archive row = archive ++ [row] ∧
      ¬ ∃ held ∈ archive, held.cycleEnd = some bound) ∨
      (insertArchive archive row = archive ∧ Reaches archive bound) := by
  rw [insertArchive]
  split
  · next hconflict =>
      obtain ⟨-, held, hheld, heq⟩ := hconflict
      refine .inr ⟨rfl, held, hheld, ?_⟩
      rw [ArchiveRow.watermark, heq, hedge, Option.getD_some]
  · next hfree => exact .inl ⟨rfl, fun hheld => hfree ⟨by simp [hedge], hedge ▸ hheld⟩⟩

theorem subset_insertArchive (archive : List ArchiveRow) (row : ArchiveRow) :
    archive ⊆ insertArchive archive row := by
  rw [insertArchive]
  split
  · exact List.Subset.refl archive
  · exact List.subset_append_left _ _

theorem Next.archive_subset (h : Next world nowMs phase archive phase') :
    world.archive ⊆ archive := by
  cases h with
  | insert since rows cutoff summary => exact subset_insertArchive _ _
  | _ => exact List.Subset.refl _

theorem Moves.archive_subset {event : ArchiveEvent} (h : Moves world event after) :
    world.archive ⊆ after.archive := by
  cases h with
  | advance _ hnext => exact hnext.archive_subset
  | _ => exact List.Subset.refl _

theorem Moves.orders_subset {event : ArchiveEvent} (h : Moves world event after) :
    world.orders ⊆ after.orders := by
  cases h with
  | visible => exact List.subset_append_left _ _
  | _ => exact List.Subset.refl _

/-! ### What every run keeps -/

/-- The rows a job listed: distinct visible orders of its window, the newest at the upper edge. -/
structure Lists (orders : List FilledOrder) (since : Option ℤ) (rows : List FilledOrder)
    (cutoff : ℤ) : Prop where
  visible : rows ⊆ orders
  distinct : (rows.map (·.id)).Nodup
  closedIn : ∀ order ∈ rows, order.ClosedIn since (some cutoff)
  edge : (rows.head?.map (·.closedAt)).getD cutoff = cutoff

/-- What a job has read is still true. -/
def ReadsSound (orders : List FilledOrder) (archive : List ArchiveRow) : ArchivePhase → Prop
  | .read since => ∀ bound ∈ since, Reaches archive bound
  | .listed since rows cutoff | .summarised since rows cutoff _ =>
      (∀ bound ∈ since, Reaches archive bound) ∧ Lists orders since rows cutoff
  | _ => True

structure Sound (world : ArchiveWorld) : Prop where
  distinct : (world.orders.map (·.id)).Nodup
  jobs : ∀ job ∈ world.jobs, ReadsSound world.orders world.archive job.phase
  filed : ∀ row ∈ world.archive, ∀ id ∈ row.orders.map (·.orderId),
    ∃ order ∈ world.orders, order.id = id ∧ order.closedAt ≤ row.watermark

theorem Lists.mono {orders orders' : List FilledOrder} (h : Lists orders since rows cutoff)
    (hsub : orders ⊆ orders') : Lists orders' since rows cutoff :=
  { h with visible := List.Subset.trans h.visible hsub }

theorem ReadsSound.mono {orders orders' : List FilledOrder} {archive' : List ArchiveRow}
    (h : ReadsSound orders archive phase) (horders : orders ⊆ orders')
    (harchive : archive ⊆ archive') : ReadsSound orders' archive' phase := by
  have hreaches : ∀ bound, Reaches archive bound → Reaches archive' bound := by
    rintro bound ⟨row, hrow, hle⟩
    exact ⟨row, harchive hrow, hle⟩
  cases phase with
  | read since => exact fun bound hbound => hreaches bound (h bound hbound)
  | listed since rows cutoff =>
      exact ⟨fun bound hbound => hreaches bound (h.1 bound hbound), h.2.mono horders⟩
  | summarised since rows cutoff summary =>
      exact ⟨fun bound hbound => hreaches bound (h.1 bound hbound), h.2.mono horders⟩
  | _ => trivial

theorem Sound.order_unique {other : FilledOrder} (h : world.Sound) (horder : order ∈ world.orders)
    (hother : other ∈ world.orders) (hid : order.id = other.id) : order = other :=
  List.inj_on_of_nodup_map h.distinct horder hother hid

theorem lists_listClosedSince (hdistinct : (world.orders.map (·.id)).Nodup) (since : Option ℤ)
    (nowMs : ℤ) :
    Lists world.orders since (listClosedSince world.orders since none)
      (archiveCutoff (listClosedSince world.orders since none) nowMs) where
  visible := fun _ horder => (mem_listClosedSince.mp horder).1
  distinct := by
    have hperm : ((listClosedSince world.orders since none).map (·.id)).Perm
        ((world.orders.filter (·.ClosedIn since none)).map (·.id)) :=
      (List.perm_insertionSort _ _).map _
    exact hperm.nodup_iff.mpr (hdistinct.sublist (List.filter_sublist.map _))
  closedIn order horder := by
    refine ⟨?_, (mem_listClosedSince.mp horder).2.2⟩
    rintro _ ⟨⟩
    exact listClosedSince_le_cutoff horder
  edge := archiveCutoff_head _ nowMs

theorem Next.readsSound (hsound : world.Sound)
    (hphase : ReadsSound world.orders world.archive phase)
    (h : Next world nowMs phase archive phase') : ReadsSound world.orders archive phase' := by
  cases h with
  | read => exact fun bound hbound => (latestArchivedAt_reaches hbound).1
  | list since => exact ⟨hphase, lists_listClosedSince hsound.distinct since nowMs⟩
  | summarise => exact hphase
  | nothing => trivial
  | insert => trivial

theorem Next.filed (hsound : world.Sound) (hphase : ReadsSound world.orders world.archive phase)
    (h : Next world nowMs phase archive phase') :
    ∀ row ∈ archive, ∀ id ∈ row.orders.map (·.orderId),
      ∃ order ∈ world.orders, order.id = id ∧ order.closedAt ≤ row.watermark := by
  cases h with
  | insert since rows cutoff summary =>
      obtain ⟨-, hlists⟩ := hphase
      have hedge : (archiveRow summary rows cutoff nowMs).cycleEnd = some cutoff :=
        congrArg some hlists.edge
      rcases insertArchive_cases world.archive _ hedge with ⟨hinserted, -⟩ | ⟨hkept, -⟩
      · rw [hinserted]
        intro row hrow id hid
        rcases List.mem_append.mp hrow with hrow | hrow
        · exact hsound.filed row hrow id hid
        · obtain rfl := List.mem_singleton.mp hrow
          simp only [archiveRow, List.map_map, List.mem_map, Function.comp_apply] at hid
          obtain ⟨order, horder, rfl⟩ := hid
          refine ⟨order, hlists.visible horder, rfl, ?_⟩
          rw [ArchiveRow.watermark, hedge]
          exact (hlists.closedIn order horder).1 cutoff rfl
      · rw [hkept]
        exact hsound.filed
  | _ => exact hsound.filed

theorem forall_set {P : ArchivePhase → Prop} (hjobs : ∀ job ∈ world.jobs, P job.phase)
    (hphase : P phase) : ∀ other ∈ world.jobs.set index { job with phase }, P other.phase := by
  intro other hother
  rcases List.mem_or_eq_of_mem_set hother with hother | rfl
  · exact hjobs other hother
  · exact hphase

theorem Sound.moves {event : ArchiveEvent} (h : world.Sound) (hmoves : Moves world event after) :
    after.Sound := by
  have hjobs : ∀ job ∈ world.jobs, ReadsSound after.orders after.archive job.phase :=
    fun job hjob => (h.jobs job hjob).mono hmoves.orders_subset hmoves.archive_subset
  cases hmoves with
  | @visible order hfresh =>
      refine ⟨?_, hjobs, ?_⟩
      · rw [List.map_append, List.nodup_append]
        refine ⟨h.distinct, List.nodup_singleton _, ?_⟩
        rintro id hid _ hnew rfl
        obtain rfl := List.mem_singleton.mp hnew
        exact hfresh hid
      · intro row hrow id hid
        obtain ⟨order, horder, hfiled⟩ := h.filed row hrow id hid
        exact ⟨order, List.mem_append_left _ horder, hfiled⟩
  | start =>
      refine ⟨h.distinct, fun job hjob => ?_, h.filed⟩
      rcases List.mem_append.mp hjob with hjob | hjob
      · exact hjobs job hjob
      · obtain rfl := List.mem_singleton.mp hjob
        trivial
  | advance hjob hnext =>
      have hphase := h.jobs _ (List.mem_of_getElem? hjob)
      have hafter := hnext.readsSound h hphase
      have hfiled := hnext.filed h hphase
      exact ⟨h.distinct, forall_set hjobs hafter, hfiled⟩
  | fail hjob hrunning => exact ⟨h.distinct, forall_set hjobs trivial, h.filed⟩

theorem sound_empty : empty.Sound :=
  ⟨List.nodup_nil, by simp [empty], by simp [empty]⟩

/-! ### Coverage -/

/-- A job that has listed what closed after a watermark has the order, where it closed after. -/
def HoldsOrder (order : FilledOrder) : ArchivePhase → Prop
  | .listed since rows _ | .summarised since rows _ _ => order.ClosedIn since none → order ∈ rows
  | _ => True

/-- The order is visible, and no edge passes it without a row that lists it. -/
structure Awaited (world : ArchiveWorld) (order : FilledOrder) : Prop where
  visible : order ∈ world.orders
  reached : Reaches world.archive order.closedAt → world.Listed order
  windows : ∀ job ∈ world.jobs, HoldsOrder order job.phase

theorem Listed.mono (h : world.Listed order) (hsub : world.archive ⊆ after.archive) :
    after.Listed order := by
  obtain ⟨row, hrow, hlisted⟩ := h
  exact ⟨row, hsub hrow, hlisted⟩

theorem Awaited.listed_or_mem (h : world.Awaited order)
    (hreaches : ∀ bound ∈ since, Reaches world.archive bound)
    (hholds : order.ClosedIn since none → order ∈ rows) : world.Listed order ∨ order ∈ rows := by
  by_cases hafter : order.ClosedIn since none
  · exact .inr (hholds hafter)
  · simp only [FilledOrder.ClosedIn, Option.mem_def, reduceCtorEq, false_implies, implies_true,
      true_and, not_forall, not_lt] at hafter
    obtain ⟨bound, hbound, hle⟩ := hafter
    obtain ⟨row, hrow, hbound⟩ := hreaches bound hbound
    exact .inl (h.reached ⟨row, hrow, hle.trans hbound⟩)

theorem Awaited.finishes (h : world.Awaited order)
    (hphase : ReadsSound world.orders world.archive phase) (hholds : HoldsOrder order phase)
    (hnext : Next world nowMs phase archive .finished) :
    ∃ row ∈ archive, order.id ∈ row.orders.map (·.orderId) := by
  cases hnext with
  | @nothing since rows cutoff hnothing =>
      rcases h.listed_or_mem hphase.1 hholds with hlisted | hmem
      · exact hlisted
      · -- the sums run over the order as well, so they cannot be empty
        have hfilled : order ∈ world.orders.filter (·.ClosedIn since (some cutoff)) :=
          List.mem_filter.mpr ⟨h.visible, decide_eq_true (hphase.2.closedIn order hmem)⟩
        rw [summarizeArchiveSince, ite_eq_left_iff] at hnothing
        have hnone := Classical.byContradiction fun hsome => Option.some_ne_none _ (hnothing hsome)
        rw [List.length_eq_zero_iff.mp hnone] at hfilled
        cases hfilled
  | insert since rows cutoff summary =>
      have hedge : (archiveRow summary rows cutoff nowMs).cycleEnd = some cutoff :=
        congrArg some hphase.2.edge
      rcases h.listed_or_mem hphase.1 hholds with ⟨row, hrow, hlisted⟩ | hmem
      · exact ⟨row, subset_insertArchive _ _ hrow, hlisted⟩
      · rcases insertArchive_cases world.archive _ hedge with ⟨hinserted, -⟩ |
          ⟨hkept, held, hheld, hle⟩
        · rw [hinserted]
          refine ⟨_, List.mem_append_right _ (List.mem_singleton_self _), ?_⟩
          simp only [archiveRow, List.map_map, List.mem_map, Function.comp_apply]
          exact ⟨order, hmem, rfl⟩
        · rw [hkept]
          exact h.reached ⟨held, hheld, ((hphase.2.closedIn order hmem).1 cutoff rfl).trans hle⟩

theorem Awaited.next (h : world.Awaited order)
    (hphase : ReadsSound world.orders world.archive phase) (hholds : HoldsOrder order phase)
    (hnext : Next world nowMs phase archive phase') :
    HoldsOrder order phase' ∧ (Reaches archive order.closedAt →
      ∃ row ∈ archive, order.id ∈ row.orders.map (·.orderId)) := by
  cases hnext with
  | read => exact ⟨trivial, h.reached⟩
  | list since => exact ⟨fun hin => mem_listClosedSince.mpr ⟨h.visible, hin⟩, h.reached⟩
  | nothing => exact ⟨trivial, h.reached⟩
  | summarise => exact ⟨hholds, h.reached⟩
  | insert since rows cutoff summary =>
      exact ⟨trivial, fun _ => h.finishes hphase hholds (.insert since rows cutoff summary)⟩

theorem Awaited.moves {event : ArchiveEvent} (h : world.Awaited order) (hsound : world.Sound)
    (hmoves : Moves world event after) : after.Awaited order := by
  cases hmoves with
  | visible hfresh => exact ⟨List.mem_append_left _ h.visible, h.reached, h.windows⟩
  | start =>
      refine ⟨h.visible, h.reached, fun job hjob => ?_⟩
      rcases List.mem_append.mp hjob with hjob | hjob
      · exact h.windows job hjob
      · obtain rfl := List.mem_singleton.mp hjob
        trivial
  | advance hjob hnext =>
      have hmem := List.mem_of_getElem? hjob
      obtain ⟨hholds, hreached⟩ := h.next (hsound.jobs _ hmem) (h.windows _ hmem) hnext
      exact ⟨h.visible, hreached, forall_set h.windows hholds⟩
  | fail hjob hrunning => exact ⟨h.visible, h.reached, forall_set h.windows trivial⟩

/-- What a job that started alone saw is awaited, and listed once it has finished. -/
structure Covers (world : ArchiveWorld) : Prop where
  sound : world.Sound
  awaited : ∀ job ∈ world.jobs, job.alone = true → ∀ order ∈ job.seen, world.Awaited order
  finished : ∀ job ∈ world.jobs, job.alone = true → job.phase = .finished →
    ∀ order ∈ job.seen, world.Listed order

theorem awaited_of_alone (halone : ∀ job ∈ world.jobs, ¬ job.phase.Running)
    (hvisible : order ∈ world.orders) (hnot : ¬ world.Stranded order) : world.Awaited order := by
  refine ⟨hvisible, fun hreaches => ?_, fun job hjob => ?_⟩
  · by_contra hunlisted
    refine hnot ⟨exists_latest_of_reaches hreaches, fun row hrow hmem => ?_⟩
    exact hunlisted ⟨row, hrow, hmem⟩
  · have hstopped := halone job hjob
    cases hphase : job.phase with
    | listed since rows cutoff =>
        rw [hphase] at hstopped
        exact absurd trivial hstopped
    | summarised since rows cutoff summary =>
        rw [hphase] at hstopped
        exact absurd trivial hstopped
    | _ => trivial

theorem Covers.moves {event : ArchiveEvent} (h : world.Covers) (hmoves : Moves world event after) :
    after.Covers := by
  have hsound := h.sound.moves hmoves
  have hawaits : ∀ order, world.Awaited order → after.Awaited order :=
    fun order hawaited => hawaited.moves h.sound hmoves
  have hlists : ∀ order, world.Listed order → after.Listed order :=
    fun order hlisted => hlisted.mono hmoves.archive_subset
  have hold : ∀ job ∈ world.jobs, job.alone = true → ∀ order ∈ job.seen,
      after.Awaited order ∧ (job.phase = .finished → after.Listed order) :=
    fun job hjob halone order horder => ⟨hawaits order (h.awaited job hjob halone order horder),
      fun hfinished => hlists order (h.finished job hjob halone hfinished order horder)⟩
  suffices hall : ∀ job ∈ after.jobs, job.alone = true → ∀ order ∈ job.seen,
      after.Awaited order ∧ (job.phase = .finished → after.Listed order) from
    ⟨hsound, fun job hjob halone order horder => (hall job hjob halone order horder).1,
      fun job hjob halone hfinished order horder => (hall job hjob halone order horder).2 hfinished⟩
  cases hmoves with
  | visible hfresh => exact hold
  | start =>
      intro job hjob halone order horder
      rcases List.mem_append.mp hjob with hjob | hjob
      · exact hold job hjob halone order horder
      · obtain rfl := List.mem_singleton.mp hjob
        obtain ⟨hvisible, hnot⟩ := List.mem_filter.mp horder
        exact ⟨hawaits order (awaited_of_alone (of_decide_eq_true halone) hvisible
          (by simpa using hnot)), nofun⟩
  | @advance index nowMs job archive phase hjob hnext =>
      have hmem := List.mem_of_getElem? hjob
      intro other hother halone order horder
      rcases List.mem_or_eq_of_mem_set hother with hother | rfl
      · exact hold other hother halone order horder
      · have hawaited := h.awaited job hmem halone order horder
        refine ⟨hawaits order hawaited, fun hfinished => ?_⟩
        have hphase : phase = .finished := hfinished
        subst hphase
        exact hawaited.finishes (h.sound.jobs job hmem) (hawaited.windows job hmem) hnext
  | @fail index job hjob hrunning =>
      have hmem := List.mem_of_getElem? hjob
      intro other hother halone order horder
      rcases List.mem_or_eq_of_mem_set hother with hother | rfl
      · exact hold other hother halone order horder
      · exact ⟨hawaits order (h.awaited job hmem halone order horder), nofun⟩

theorem covers_empty : empty.Covers :=
  ⟨sound_empty, by simp [empty], by simp [empty]⟩

/-! ### No order twice -/

def listedIds (archive : List ArchiveRow) : List String :=
  archive.flatMap fun row => row.orders.map (·.orderId)

theorem mem_listedIds {id : String} :
    id ∈ listedIds archive ↔ ∃ row ∈ archive, id ∈ row.orders.map (·.orderId) :=
  List.mem_flatMap

/-- A row inserted where the archive still ends lists nothing that is listed already. -/
theorem Next.listedIds_nodup (hsound : world.Sound)
    (hphase : ReadsSound world.orders world.archive phase)
    (hnodup : (listedIds world.archive).Nodup) (hunmoved : world.Unmoved phase)
    (h : Next world nowMs phase archive phase') : (listedIds archive).Nodup := by
  cases h with
  | insert since rows cutoff summary =>
      obtain ⟨-, hlists⟩ := hphase
      have hedge : (archiveRow summary rows cutoff nowMs).cycleEnd = some cutoff :=
        congrArg some hlists.edge
      rcases insertArchive_cases world.archive _ hedge with ⟨hinserted, hfree⟩ | ⟨hkept, -⟩
      · have hsince : latestArchivedAt world.archive = since :=
          hunmoved.resolve_right (hlists.edge.symm ▸ hfree)
        have hids : (archiveRow summary rows cutoff nowMs).orders.map (·.orderId) =
            rows.map (·.id) := List.map_map
        rw [hinserted, listedIds, List.flatMap_append, List.flatMap_singleton, hids]
        refine List.nodup_append.mpr ⟨hnodup, hlists.distinct, ?_⟩
        rintro id hold _ hnew rfl
        obtain ⟨row, hrow, hid⟩ := mem_listedIds.mp hold
        obtain ⟨filed, hfiled, hfiledId, hle⟩ := hsound.filed row hrow id hid
        obtain ⟨order, horder, hsame⟩ := List.mem_map.mp hnew
        obtain rfl := hsound.order_unique (hlists.visible horder) hfiled (hsame.trans hfiledId.symm)
        -- the one closed by the watermark, the other after it
        obtain ⟨newest, hnewest, hbound⟩ := exists_latest_of_reaches ⟨row, hrow, hle⟩
        rw [hsince] at hnewest
        exact absurd hbound (not_le.mpr ((hlists.closedIn order horder).2 newest hnewest))
      · rw [hkept]
        exact hnodup
  | _ => exact hnodup

structure ListsOnce (world : ArchiveWorld) : Prop where
  sound : world.Sound
  once : (listedIds world.archive).Nodup

theorem ListsOnce.moves {event : ArchiveEvent} (h : world.ListsOnce)
    (hunmoved : Advances Unmoved world event) (hmoves : Moves world event after) :
    after.ListsOnce := by
  have hsound := h.sound.moves hmoves
  cases hmoves with
  | advance hjob hnext =>
      have hphase := h.sound.jobs _ (List.mem_of_getElem? hjob)
      have honce := hnext.listedIds_nodup h.sound hphase h.once (hunmoved _ hjob)
      exact ⟨hsound, honce⟩
  | _ => exact ⟨hsound, h.once⟩

/-! ### Profits -/

/-- The realised profit of the orders with the ids. -/
def profitOf (orders : List FilledOrder) (ids : List String) : ℚ :=
  sumOf (·.realizedPnl) (orders.filter (·.id ∈ ids))

theorem profitOf_visible {orders : List FilledOrder} {ids : List String}
    (hids : ∀ id ∈ ids, id ∈ orders.map (·.id)) (hfresh : order.id ∉ orders.map (·.id)) :
    profitOf (orders ++ [order]) ids = profitOf orders ids := by
  have hnot : order.id ∉ ids := fun hid => hfresh (hids order.id hid)
  rw [profitOf, profitOf, List.filter_append]
  simp [hnot]

/-- What a job has added up is the profit of the rows it listed. -/
def Tallied (orders : List FilledOrder) : ArchivePhase → Prop
  | .summarised _ rows _ summary => summary.profit = profitOf orders (rows.map (·.id))
  | _ => True

theorem Next.tallied (hsound : world.Sound)
    (hphase : ReadsSound world.orders world.archive phase) (hagrees : world.Agrees phase)
    (h : Next world nowMs phase archive phase') : Tallied world.orders phase' := by
  cases h with
  | @summarise since rows cutoff summary hsummary =>
      obtain ⟨-, hlists⟩ := hphase
      have hfilled : world.orders.filter (·.ClosedIn since (some cutoff)) =
          world.orders.filter (·.id ∈ rows.map (·.id)) := by
        refine List.filter_congr fun order horder =>
          decide_eq_decide.mpr ⟨fun hin => ?_, fun hid => ?_⟩
        · exact List.mem_map_of_mem (hagrees order horder hin)
        · obtain ⟨listed, hlisted, hsame⟩ := List.mem_map.mp hid
          obtain rfl := hsound.order_unique (hlists.visible hlisted) horder hsame
          exact hlists.closedIn listed hlisted
      rw [summarizeArchiveSince, Option.ite_none_left_eq_some] at hsummary
      obtain ⟨-, ⟨⟩⟩ := hsummary
      exact congrArg (sumOf (·.realizedPnl)) hfilled
  | _ => trivial

/-- Every row has the profit of the orders it lists. -/
structure Adds (world : ArchiveWorld) : Prop where
  sound : world.Sound
  jobs : ∀ job ∈ world.jobs, Tallied world.orders job.phase
  rows : ∀ row ∈ world.archive,
    row.profit = profitOf world.orders (row.orders.map (·.orderId))

theorem Next.adds (hphase : ReadsSound world.orders world.archive phase)
    (htallied : Tallied world.orders phase)
    (hrows : ∀ row ∈ world.archive,
      row.profit = profitOf world.orders (row.orders.map (·.orderId)))
    (h : Next world nowMs phase archive phase') :
    ∀ row ∈ archive, row.profit = profitOf world.orders (row.orders.map (·.orderId)) := by
  cases h with
  | insert since rows cutoff summary =>
      have hedge : (archiveRow summary rows cutoff nowMs).cycleEnd = some cutoff :=
        congrArg some hphase.2.edge
      rcases insertArchive_cases world.archive _ hedge with ⟨hinserted, -⟩ | ⟨hkept, -⟩
      · rw [hinserted]
        intro row hrow
        rcases List.mem_append.mp hrow with hrow | hrow
        · exact hrows row hrow
        · obtain rfl := List.mem_singleton.mp hrow
          rw [archiveRow, List.map_map]
          exact htallied
      · rw [hkept]
        exact hrows
  | _ => exact hrows

theorem Adds.moves {event : ArchiveEvent} (h : world.Adds)
    (hagrees : Advances Agrees world event) (hmoves : Moves world event after) : after.Adds := by
  have hsound := h.sound.moves hmoves
  cases hmoves with
  | @visible order hfresh =>
      refine ⟨hsound, fun job hjob => ?_, fun row hrow => ?_⟩
      · have htallied := h.jobs job hjob
        have hreads := h.sound.jobs job hjob
        cases hphase : job.phase with
        | summarised since rows cutoff summary =>
            rw [hphase] at htallied hreads
            refine Eq.trans htallied (profitOf_visible (fun id hid => ?_) hfresh).symm
            obtain ⟨listed, hlisted, rfl⟩ := List.mem_map.mp hid
            exact List.mem_map_of_mem (hreads.2.visible hlisted)
        | _ => trivial
      · rw [h.rows row hrow]
        refine (profitOf_visible (fun id hid => ?_) hfresh).symm
        obtain ⟨filed, hfiled, rfl, -⟩ := h.sound.filed row hrow id hid
        exact List.mem_map_of_mem hfiled
  | start =>
      refine ⟨hsound, fun job hjob => ?_, h.rows⟩
      rcases List.mem_append.mp hjob with hjob | hjob
      · exact h.jobs job hjob
      · obtain rfl := List.mem_singleton.mp hjob
        trivial
  | advance hjob hnext =>
      have hmem := List.mem_of_getElem? hjob
      have hphase := h.sound.jobs _ hmem
      have htallied := hnext.tallied h.sound hphase (hagrees _ hjob)
      have hrows := hnext.adds hphase (h.jobs _ hmem) h.rows
      exact ⟨hsound, forall_set h.jobs htallied, hrows⟩
  | fail hjob hrunning => exact ⟨hsound, forall_set h.jobs trivial, h.rows⟩

end Step

/-! ### Runs -/

/--
In every run an order that is visible, and not stranded, when a job starts alone
is listed once the job has finished. No order is listed twice where every row
goes in at the end that its job found, and every profit is that of the orders
listed where no sums run over an order that was not.
-/
theorem forward_archiving {world : ArchiveWorld}
    (hrun : Reach step (fun _ _ => True) .empty world) :
    (∀ job ∈ world.jobs, job.alone = true → job.phase = .finished →
      ∀ order ∈ job.seen, world.Listed order) ∧
    (Reach step (Advances Unmoved) .empty world → (listedIds world.archive).Nodup) ∧
    (Reach step (Advances Agrees) .empty world → ∀ row ∈ world.archive,
      row.profit = profitOf world.orders (row.orders.map (·.orderId))) := by
  refine ⟨?_, fun hunmoved => ?_, fun hagrees => ?_⟩
  · exact (hrun.invariant covers_empty fun _ _ _ hcovers _ hstep =>
      hcovers.moves (step_moves hstep)).finished
  · exact (hunmoved.invariant ⟨sound_empty, List.nodup_nil⟩
      fun _ _ _ honce hok hstep => ListsOnce.moves honce hok (step_moves hstep)).once
  · exact (hagrees.invariant ⟨sound_empty, by simp [empty], by simp [empty]⟩
      fun _ _ _ hadds hok hstep => Adds.moves hadds hok (step_moves hstep)).rows

/-! ### Two sales -/

instance (world : ArchiveWorld) : DecidablePred world.Unmoved
  | .summarised _ _ _ _ => inferInstanceAs (Decidable (_ ∨ _))
  | .started | .read _ | .listed _ _ _ | .finished | .failed => isTrue trivial

instance (world : ArchiveWorld) : DecidablePred world.Agrees
  | .listed since rows cutoff => inferInstanceAs
      (Decidable (∀ order ∈ world.orders, order.ClosedIn since (some cutoff) → order ∈ rows))
  | .started | .read _ | .summarised _ _ _ _ | .finished | .failed => isTrue trivial

instance (condition : ArchiveWorld → ArchivePhase → Prop)
    [∀ world, DecidablePred (condition world)] (world : ArchiveWorld) :
    DecidablePred (Advances condition world)
  | .advance index _ =>
      inferInstanceAs (Decidable (∀ job ∈ world.jobs[index]?, condition world job.phase))
  | .visible _ | .start | .fail _ => isTrue trivial

instance (world : ArchiveWorld) : DecidablePred world.Listed := fun order =>
  inferInstanceAs (Decidable (∃ row ∈ world.archive, order.id ∈ row.orders.map (·.orderId)))

def sampleSale (id : String) (realizedPnl : ℚ) (closedAt : ℤ) : FilledOrder where
  id
  binanceOrderId := 1
  clientOrderId := id
  intent := "exit"
  side := .sell
  executedQty := some "1"
  cummulativeQuoteQty := some 100
  baseCommissionNetted := none
  realizedPnl := some realizedPnl
  costBasisQuote := some 90
  closedAt

/-- A job that runs from its start to its end. -/
def wholeJob (index : ℕ) (nowMs : ℤ) : List ArchiveEvent :=
  .start :: List.replicate 4 (.advance index nowMs)

/-- Two sales, each archived by a job of its own. -/
def orderlyEvents : List ArchiveEvent :=
  .visible (sampleSale "a" 1 10) :: wholeJob 0 15 ++
    .visible (sampleSale "b" 2 20) :: wholeJob 1 25

theorem orderly_archiving :
    ∃ world : ArchiveWorld, (∀ job ∈ world.jobs, job.alone = true → job.phase = .finished →
        ∀ order ∈ job.seen, world.Listed order) ∧
      listedIds world.archive = ["a", "b"] ∧ (listedIds world.archive).Nodup ∧
      ∀ row ∈ world.archive, row.profit = profitOf world.orders (row.orders.map (·.orderId)) := by
  have hunmoved : ∃ world, LabelledRun.run step
      (fun world event =>
        decide (Advances Unmoved world event) && decide (Advances Agrees world event))
      .empty orderlyEvents = some world ∧ listedIds world.archive = ["a", "b"] :=
    ⟨_, rfl, by decide +kernel⟩
  obtain ⟨world, hrun, hids⟩ := hunmoved
  have hreach := forward_archiving (reach_of_run (fun _ _ _ => trivial) hrun)
  exact ⟨world, hreach.1, hids,
    hreach.2.1 (reach_of_run (fun _ _ hok => of_decide_eq_true (Bool.and_elim_left hok)) hrun),
    hreach.2.2 (reach_of_run (fun _ _ hok => of_decide_eq_true (Bool.and_elim_right hok)) hrun)⟩

/-- The second sale becomes visible after the first was archived, and closed before it. -/
def lateEvents : List ArchiveEvent :=
  .visible (sampleSale "a" 1 10) :: wholeJob 0 15 ++ [.visible (sampleSale "b" 2 5)]

/-- Two jobs read the same watermark, and end at different sales. -/
def doubledEvents : List ArchiveEvent :=
  [.visible (sampleSale "a" 1 10), .start, .start, .advance 0 15, .advance 1 15] ++
    List.replicate 3 (.advance 0 15) ++
    .visible (sampleSale "b" 2 20) :: List.replicate 3 (.advance 1 25)

/-- The second sale becomes visible between the two reads of a job, and closed with the first. -/
def tiedEvents : List ArchiveEvent :=
  [.visible (sampleSale "a" 1 10), .start, .advance 0 15, .advance 0 15,
    .visible (sampleSale "b" 2 10), .advance 0 15, .advance 0 15]

/--
A sale that becomes visible after a later one was archived is listed in no row;
two jobs that read the same watermark list a sale twice; and a sale that becomes
visible between the two reads of a job is summed but not listed.
-/
theorem disorderly_archiving :
    (∃ before after : ArchiveWorld, lateEvents.foldlM step empty = some before ∧
      sampleSale "b" 2 5 ∈ before.orders ∧ (∀ job ∈ before.jobs, ¬ job.phase.Running) ∧
      (wholeJob 1 25).dropLast.foldlM step before = some after ∧
      after.jobs[1]?.map (·.phase) = some .finished ∧ ¬ after.Listed (sampleSale "b" 2 5)) ∧
    (∃ world : ArchiveWorld, doubledEvents.foldlM step empty = some world ∧
      listedIds world.archive = ["a", "b", "a"]) ∧
    ∃ world : ArchiveWorld, tiedEvents.foldlM step empty = some world ∧
      ∃ row ∈ world.archive, row.orders.map (·.orderId) = ["a"] ∧ row.profit = 3 ∧
        profitOf world.orders ["a"] = 1 := by
  refine ⟨⟨_, _, rfl, ?_, ?_, rfl, rfl, ?_⟩, ⟨_, rfl, ?_⟩, ⟨_, rfl, ?_⟩⟩
  all_goals decide +kernel

end ArchiveWorld

end TradingBot.Worker
