import Mathlib.Data.List.Basic

/-!
# Logs read by several readers

One log of keyed entries, appended at the end and read by several readers, each
in order and at its own pace. A reader is the number of entries it has read.
What holds of a key is what the last entry of the key says.
-/

namespace TradingBot.FanOutLog

variable {κ β : Type} {log rest : List (κ × β)} {key other : κ} {b : β} {cursor : ℕ}

/-! ### Readers -/

/-- The entries a reader has not read. -/
def unread (log : List (κ × β)) (cursor : ℕ) : List (κ × β) := log.drop cursor

theorem mem_unread_append {entry : κ × β} (h : entry ∈ unread log cursor) (added : κ × β) :
    entry ∈ unread (log ++ [added]) cursor := by
  rw [unread, List.drop_append]
  exact List.mem_append_left _ h

theorem appended_mem_unread (h : cursor ≤ log.length) (added : κ × β) :
    added ∈ unread (log ++ [added]) cursor := by
  rw [unread, List.drop_append_of_le_length h]
  exact List.mem_append_right _ (List.mem_singleton_self _)

theorem unread_succ (h : unread log cursor = (key, b) :: rest) :
    unread log (cursor + 1) = rest := by
  rw [unread, ← List.drop_drop]
  rw [unread] at h
  rw [h]
  rfl

/-! ### What holds of a key -/

variable [DecidableEq κ]

/-- The last entry of a key. -/
def latest (log : List (κ × β)) (key : κ) : Option β :=
  ((log.filter (·.1 = key)).getLast?).map (·.2)

theorem latest_append_self : latest (log ++ [(key, b)]) key = some b := by
  simp [latest]

theorem latest_append_of_ne (h : other ≠ key) :
    latest (log ++ [(key, b)]) other = latest log other := by
  simp [latest, h.symm]

theorem latest_eq_none_iff : latest log key = none ↔ ∀ entry ∈ log, entry.1 ≠ key := by
  simp [latest]

theorem exists_of_latest (h : latest log key = some b) : (key, b) ∈ log := by
  obtain ⟨⟨found, value⟩, hlast, rfl⟩ := Option.map_eq_some_iff.mp h
  obtain ⟨hmem, hkey⟩ := List.mem_filter.mp (List.mem_of_getLast? hlast)
  obtain rfl : found = key := by simpa using hkey
  exact hmem

/-- An entry is the last of its key where no other of its key follows. -/
theorem latest_of_split {before : List (κ × β)} (hlog : log = before ++ (key, b) :: rest)
    (h : ∀ later, (key, later) ∉ rest) : latest log key = some b := by
  have hnone : rest.filter (·.1 = key) = [] := by
    rw [List.filter_eq_nil_iff]
    rintro ⟨found, later⟩ hmem hfound
    obtain rfl : found = key := by simpa using hfound
    exact h later hmem
  rw [hlog, latest, List.filter_append, List.filter_cons_of_pos (by simp), hnone]
  simp

/-- The entry a reader reads next is the last of its key, or another of its key follows. -/
theorem latest_or_later (h : unread log cursor = (key, b) :: rest) :
    latest log key = some b ∨ ∃ later, (key, later) ∈ rest := by
  by_cases hlater : ∃ later, (key, later) ∈ rest
  · exact .inr hlater
  · refine .inl (@latest_of_split κ β log rest key b _ (log.take cursor) ?_ (not_exists.mp hlater))
    rw [← h, unread, List.take_append_drop]

end TradingBot.FanOutLog
