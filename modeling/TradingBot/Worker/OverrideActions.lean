import Mathlib.Data.List.Nodup
import TradingBot.Worker.OverrideSettlement

/-!
# The rows of the operator's overrides

The rows of one profile and symbol, oldest first. A row is pending, claimed by
the stamp of the tick that acts on it, or consumed with an outcome; it leaves
the table only by a cancel, and only while it is pending.
-/

namespace TradingBot.Worker

structure OverrideActionRow where
  id : String
  createdAt : ℕ
  processingAt : Option ℕ
  pickedUpAt : Option ℕ
  consumedAt : Option ℕ
  outcome : Option OverrideOutcomeInput

namespace OverrideActions

variable (rows : List OverrideActionRow)

/-- An update of the rows that meet a condition. -/
def update (meets : OverrideActionRow → Bool) (set : OverrideActionRow → OverrideActionRow) :
    List OverrideActionRow :=
  rows.map fun row => if meets row then set row else row

/-- The one terminal write: a settled row's outcome does not change. -/
def consume (now : ℕ) (narrow : OverrideActionRow → Bool) (outcome : OverrideOutcomeInput) :
    List OverrideActionRow :=
  update rows (fun row => row.consumedAt.isNone && narrow row)
    fun row => { row with consumedAt := some now, outcome := some outcome }

/-- Arming an override settles the one it replaces, unless a tick has it. -/
def record (now : ℕ) (id : String) : List OverrideActionRow :=
  consume rows now (fun row => row.processingAt.isNone && row.pickedUpAt.isNone)
      ⟨.superseded, some "a newer override for this symbol replaced it before it ran"⟩ ++
    [⟨id, now, none, none, none, none⟩]

def claimable (id : String) (row : OverrideActionRow) : Bool :=
  row.id == id && row.consumedAt.isNone && row.processingAt.isNone

def claimAction (id : String) (claimAt : ℕ) : List OverrideActionRow :=
  update rows (claimable id) fun row => { row with processingAt := some claimAt }

/-- Whether a claim wins. -/
def claims (id : String) : Bool := rows.any (claimable id)

def settle (now : ℕ) (id : String) (outcome : OverrideOutcomeInput) : List OverrideActionRow :=
  consume rows now (·.id == id) outcome

/-- A release is fenced: it clears the claim of its own stamp only. -/
def releaseClaim (id : String) (claimAt : ℕ) : List OverrideActionRow :=
  update rows
    (fun row => row.id == id && row.consumedAt.isNone && row.processingAt == some claimAt)
    fun row => { row with processingAt := none }

def reapStaleProcessing (staleBefore : ℕ) : List OverrideActionRow :=
  update rows
    (fun row => row.consumedAt.isNone && row.processingAt.any (decide <| · < staleBefore))
    fun row => { row with processingAt := none }

def markPickedUp (now : ℕ) (id : String) : List OverrideActionRow :=
  update rows (fun row => row.id == id && row.consumedAt.isNone && row.pickedUpAt.isNone)
    fun row => { row with pickedUpAt := some now }

/-- The first statement of the expiry sweep: rows a tick took and never came back from. -/
def reapPickedUp (now staleBefore : ℕ) : List OverrideActionRow :=
  consume rows now (fun row => decide (row.createdAt < staleBefore) && row.pickedUpAt.isSome)
    ⟨.unknown, some "a tick consumed this override and no outcome was recorded"⟩

/-- The second: rows no tick took. -/
def reapUntouched (now staleBefore : ℕ) : List OverrideActionRow :=
  consume rows now (fun row => decide (row.createdAt < staleBefore) && row.pickedUpAt.isNone)
    ⟨.expired, some "no tick ran inside the override window"⟩

def deletable (row : OverrideActionRow) : Bool :=
  row.consumedAt.isNone && row.processingAt.isNone

def deletePendingForSymbol : List OverrideActionRow := rows.filter fun row => !deletable row

def deletedIds : List String := (rows.filter deletable).map (·.id)

/-- The later row, and of two of one moment the one with the larger id. -/
def newer (a b : OverrideActionRow) : Bool :=
  decide (b.createdAt < a.createdAt) || a.createdAt == b.createdAt && decide (b.id < a.id)

/-- The newest row that is not consumed. -/
def findActiveForSymbol : Option OverrideActionRow :=
  (rows.filter (·.consumedAt.isNone)).foldl
    (fun best row => some (best.elim row fun b => if newer row b then row else b)) none

/-! ### What the writes keep -/

/-- A row that no cancel deletes while the stamp stands. -/
def HeldBy (claimAt : ℕ) (row : OverrideActionRow) : Prop :=
  row.consumedAt.isSome = true ∨ row.processingAt = some claimAt

/-- The row of an override is claimed by the stamp, or settled. -/
def Held (id : String) (claimAt : ℕ) : Prop := ∃ row ∈ rows, row.id = id ∧ HeldBy claimAt row

variable {rows} {id : String} {claimAt : ℕ}

theorem map_id_update {meets : OverrideActionRow → Bool}
    {set : OverrideActionRow → OverrideActionRow} (hset : ∀ row, (set row).id = row.id) :
    (update rows meets set).map (·.id) = rows.map (·.id) := by
  rw [update, List.map_map]
  refine List.map_congr_left fun row _ => ?_
  simp only [Function.comp_apply]
  split
  · exact hset row
  · rfl

theorem Held.update {meets : OverrideActionRow → Bool}
    {set : OverrideActionRow → OverrideActionRow} (h : Held rows id claimAt)
    (hset : ∀ row, (set row).id = row.id)
    (hkept : ∀ row, row.id = id → meets row = true → HeldBy claimAt row →
      HeldBy claimAt (set row)) :
    Held (update rows meets set) id claimAt := by
  obtain ⟨row, hrow, hid, hheld⟩ := h
  refine ⟨_, List.mem_map_of_mem hrow, ?_⟩
  split
  · next hmeets => exact ⟨(hset row).trans hid, hkept row hid hmeets hheld⟩
  · exact ⟨hid, hheld⟩

theorem Held.consume (h : Held rows id claimAt) (now : ℕ) (narrow : OverrideActionRow → Bool)
    (outcome : OverrideOutcomeInput) : Held (consume rows now narrow outcome) id claimAt :=
  h.update (fun _ => rfl) fun _ _ _ _ => .inl rfl

theorem map_id_consume (now : ℕ) (narrow : OverrideActionRow → Bool)
    (outcome : OverrideOutcomeInput) :
    (consume rows now narrow outcome).map (·.id) = rows.map (·.id) :=
  map_id_update fun _ => rfl

theorem Held.record (h : Held rows id claimAt) (now : ℕ) (armed : String) :
    Held (record rows now armed) id claimAt := by
  obtain ⟨row, hrow, hheld⟩ := h.consume now
    (fun row => row.processingAt.isNone && row.pickedUpAt.isNone)
    ⟨.superseded, some "a newer override for this symbol replaced it before it ran"⟩
  exact ⟨row, List.mem_append_left _ hrow, hheld⟩

theorem Held.claimAction (h : Held rows id claimAt) (claimed : String) (other : ℕ) :
    Held (claimAction rows claimed other) id claimAt := by
  refine h.update (fun _ => rfl) fun row _ hmeets hheld => ?_
  -- a row that can be claimed is not held
  simp only [claimable, Bool.and_eq_true, beq_iff_eq, Option.isNone_iff_eq_none] at hmeets
  rcases hheld with hconsumed | hclaimed
  · rw [hmeets.1.2] at hconsumed
    cases hconsumed
  · rw [hmeets.2] at hclaimed
    cases hclaimed

theorem held_of_claims (h : claims rows id = true) :
    Held (claimAction rows id claimAt) id claimAt := by
  obtain ⟨row, hrow, hclaimable⟩ := List.any_eq_true.mp h
  refine ⟨_, List.mem_map_of_mem hrow, ?_⟩
  rw [if_pos hclaimable]
  simp only [claimable, Bool.and_eq_true, beq_iff_eq] at hclaimable
  exact ⟨hclaimable.1.1, .inr rfl⟩

theorem Held.releaseClaim (h : Held rows id claimAt) (released : String) {other : ℕ}
    (hother : other ≠ claimAt) : Held (releaseClaim rows released other) id claimAt := by
  refine h.update (fun _ => rfl) fun row _ hmeets hheld => ?_
  simp only [Bool.and_eq_true, beq_iff_eq, Option.isNone_iff_eq_none] at hmeets
  rcases hheld with hconsumed | hclaimed
  · exact .inl hconsumed
  · rw [hmeets.2] at hclaimed
    exact absurd (Option.some.inj hclaimed) hother

/-- The sweep leaves a claim that is not older than its horizon. -/
theorem Held.reapStaleProcessing (h : Held rows id claimAt) {staleBefore : ℕ}
    (hfresh : staleBefore ≤ claimAt) : Held (reapStaleProcessing rows staleBefore) id claimAt := by
  refine h.update (fun _ => rfl) fun row _ hmeets hheld => ?_
  rcases hheld with hconsumed | hclaimed
  · exact .inl hconsumed
  · simp only [Bool.and_eq_true, hclaimed, Option.any_some, decide_eq_true_eq] at hmeets
    exact absurd hmeets.2 (Nat.not_lt.mpr hfresh)

theorem Held.markPickedUp (h : Held rows id claimAt) (now : ℕ) (marked : String) :
    Held (markPickedUp rows now marked) id claimAt :=
  h.update (fun _ => rfl) fun _ _ _ hheld => hheld

theorem Held.deletePendingForSymbol (h : Held rows id claimAt) :
    Held (deletePendingForSymbol rows) id claimAt := by
  obtain ⟨row, hrow, hid, hheld⟩ := h
  refine ⟨row, List.mem_filter.mpr ⟨hrow, ?_⟩, hid, hheld⟩
  rw [deletable, Bool.not_eq_true', Bool.and_eq_false_iff]
  rcases hheld with hconsumed | hclaimed
  · exact .inl (by rw [Option.isNone_eq_false_iff, hconsumed])
  · exact .inr (by rw [hclaimed]; rfl)

theorem not_deleted_of_mem (hnodup : (rows.map (·.id)).Nodup) {row : OverrideActionRow}
    (hrow : row ∈ deletePendingForSymbol rows) : row.id ∉ deletedIds rows := by
  intro hdeleted
  obtain ⟨other, hother, hid⟩ := List.mem_map.mp hdeleted
  obtain ⟨hmem, hkept⟩ := List.mem_filter.mp hrow
  obtain ⟨hmem', hdeletable⟩ := List.mem_filter.mp hother
  obtain rfl := List.inj_on_of_nodup_map hnodup hmem' hmem hid
  rw [hdeletable] at hkept
  cases hkept

end OverrideActions

end TradingBot.Worker
