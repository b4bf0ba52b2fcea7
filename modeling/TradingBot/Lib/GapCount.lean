import Mathlib.Data.List.Induction
import Mathlib.Data.List.Nodup

/-!
# Folds that count gaps

A fold over untrusted items counts what it could not use. An item fits if it is
good and its key, where it has one, is not that of an earlier item. The count
ends at nothing exactly if every item fits, and then the state is the one that
the items alone lead to.
-/

namespace GapCount

variable {σ ι κ : Type} {step : σ → ι → σ} {gaps : σ → ℕ}

/-- An item that a fold can use after the items before it. -/
structure Fits (Good : ι → Prop) (key : ι → Option κ) (done : List ι) (a : ι) : Prop where
  good : Good a
  fresh : ∀ k ∈ key a, k ∉ done.filterMap key

/-- Items that a fold can use one after the other. -/
structure FitsAll (Good : ι → Prop) (key : ι → Option κ) (items : List ι) : Prop where
  good : ∀ a ∈ items, Good a
  fresh : (items.filterMap key).Nodup

section Items

variable {Good : ι → Prop} {key : ι → Option κ} {items : List ι} {a : ι}

theorem fitsAll_nil : FitsAll Good key [] where
  good _ ha := absurd ha List.not_mem_nil
  fresh := List.nodup_nil

theorem fitsAll_concat :
    FitsAll Good key (items ++ [a]) ↔ FitsAll Good key items ∧ Fits Good key items a := by
  have hkeys : (items ++ [a]).filterMap key = items.filterMap key ++ (key a).toList := by
    rw [List.filterMap_append]
    cases hkey : key a with
    | none => rw [List.filterMap_cons_none hkey, List.filterMap_nil]; rfl
    | some k => rw [List.filterMap_cons_some hkey, List.filterMap_nil]; rfl
  constructor
  · intro h
    have hnodup := h.fresh
    rw [hkeys, List.nodup_append] at hnodup
    refine ⟨⟨fun b hb => h.good b (List.mem_append_left _ hb), hnodup.1⟩,
      ⟨h.good a (List.mem_append_right _ List.mem_cons_self), ?_⟩⟩
    intro k hk hmem
    exact hnodup.2.2 k hmem k (Option.mem_toList.mpr hk) rfl
  · rintro ⟨hitems, ha⟩
    refine ⟨?_, ?_⟩
    · intro b hb
      rcases List.mem_append.mp hb with hb | hb
      · exact hitems.good b hb
      · obtain rfl := List.mem_singleton.mp hb
        exact ha.good
    · rw [hkeys, List.nodup_append]
      refine ⟨hitems.fresh, ?_, ?_⟩
      · cases key a with
        | none => exact List.nodup_nil
        | some k => exact List.nodup_singleton k
      · rintro k hmem _ hk rfl
        exact ha.fresh k (Option.mem_toList.mp hk) hmem

theorem FitsAll.perm {items' : List ι} (h : FitsAll Good key items) (hperm : items.Perm items') :
    FitsAll Good key items' :=
  ⟨fun b hb => h.good b (hperm.mem_iff.mpr hb), (hperm.filterMap key).nodup_iff.mp h.fresh⟩

end Items

/-- The count certifies the items: it is nothing exactly if they fit, and then the state is the one
they lead to. -/
theorem foldl_certifies {Good : ι → Prop} {key : ι → Option κ} {After : List ι → σ → Prop} {s₀ : σ}
    (hmono : ∀ s a, gaps s ≤ gaps (step s a)) (hstart : After [] s₀) (hzero : gaps s₀ = 0)
    (hfit : ∀ done s a, After done s → gaps s = 0 → Fits Good key done a →
      After (done ++ [a]) (step s a) ∧ gaps (step s a) = 0)
    (hgap : ∀ done s a, After done s → gaps s = 0 → gaps (step s a) = 0 → Fits Good key done a)
    (items : List ι) :
    (gaps (items.foldl step s₀) = 0 ↔ FitsAll Good key items) ∧
      (FitsAll Good key items → After items (items.foldl step s₀)) := by
  induction items using List.reverseRecOn with
  | nil => exact ⟨⟨fun _ => fitsAll_nil, fun _ => hzero⟩, fun _ => hstart⟩
  | append_singleton items a ih =>
      rw [List.foldl_append, List.foldl_cons, List.foldl_nil]
      obtain ⟨hiff, hafter⟩ := ih
      refine ⟨⟨?_, ?_⟩, ?_⟩
      · intro h
        have hbefore : gaps (items.foldl step s₀) = 0 := Nat.le_zero.mp (h ▸ hmono _ a)
        have hitems := hiff.mp hbefore
        exact fitsAll_concat.mpr ⟨hitems, hgap _ _ a (hafter hitems) hbefore h⟩
      · intro h
        obtain ⟨hitems, ha⟩ := fitsAll_concat.mp h
        exact (hfit _ _ a (hafter hitems) (hiff.mpr hitems) ha).2
      · intro h
        obtain ⟨hitems, ha⟩ := fitsAll_concat.mp h
        exact (hfit _ _ a (hafter hitems) (hiff.mpr hitems) ha).1

end GapCount
