import TradingBot.Discovery.Run

/-!
# What one resolution may do

The adds are a greedy fill of the available slots, the four classes of current
symbols partition them, and a removal is a faded symbol that may go.
-/

namespace TradingBot.Discovery

open GreedyFill

namespace ResolveInput

variable {env : Environment} {i : ResolveInput} {s : String} {c : CurrentAutoSymbol}

/-! ### The adds -/

/-- What lets a candidate in beside the adds already made, slots aside. -/
def admits (env : Environment) (i : ResolveInput) (add : List String) (symbol : String) : Bool :=
  !i.currentSet.contains symbol && !i.pinnedMembers.contains symbol &&
    !i.overlay.blocked.contains symbol &&
    !inCooldown (i.lastFlattenAtMsBySymbol symbol) i.cfg i.nowMs && !i.correlated env add symbol

theorem considerAdd_eq (env : Environment) (i : ResolveInput) (add : List String)
    (symbol : String) :
    i.considerAdd env add symbol =
      if add.length < i.availableSlots env ∧ i.admits env add symbol = true then add ++ [symbol]
      else add := by
  unfold considerAdd admits
  generalize i.currentSet.contains symbol = current
  generalize i.pinnedMembers.contains symbol = pinned
  generalize i.overlay.blocked.contains symbol = blocked
  generalize inCooldown (i.lastFlattenAtMsBySymbol symbol) i.cfg i.nowMs = cooling
  generalize i.correlated env add symbol = correlated
  by_cases hroom : i.availableSlots env ≤ add.length
  · simp [hroom, not_lt.mpr hroom]
  · cases current <;> cases pinned <;> cases blocked <;> cases cooling <;> cases correlated <;>
      simp [hroom]

theorem foldl_considerAdd (env : Environment) (i : ResolveInput) (add candidates : List String) :
    candidates.foldl (i.considerAdd env) add =
      fill (i.admits env) (i.availableSlots env) add candidates := by
  induction candidates generalizing add with
  | nil => rfl
  | cons symbol rest ih =>
      rw [List.foldl_cons, considerAdd_eq, fill]
      split
      · exact ih _
      · exact ih _

theorem add_eq_fill (env : Environment) (i : ResolveInput) :
    i.add env = fill (i.admits env) (i.availableSlots env) [] (i.eligible env) :=
  foldl_considerAdd env i [] (i.eligible env)

theorem add_spec (env : Environment) (i : ResolveInput) :
    (i.add env).Sublist (i.eligible env) ∧
      ∀ s ∈ i.add env, ∃ among, i.admits env among s = true := by
  obtain ⟨extra, hextra, hsub, hadmits⟩ :=
    fill_eq_append (i.admits env) (i.availableSlots env) [] (i.eligible env)
  rw [add_eq_fill, hextra, List.nil_append]
  exact ⟨hsub, hadmits⟩

theorem length_add_le (env : Environment) (i : ResolveInput) :
    (i.add env).length ≤ i.availableSlots env := by
  rw [add_eq_fill]
  exact length_fill_le (Nat.zero_le _)

theorem mem_add (h : s ∈ i.add env) :
    s ∈ i.eligible env ∧ s ∉ i.currentSet ∧ s ∉ i.overlay.blocked ∧
      inCooldown (i.lastFlattenAtMsBySymbol s) i.cfg i.nowMs = false := by
  obtain ⟨hsub, hadmits⟩ := add_spec env i
  obtain ⟨among, hadmit⟩ := hadmits s h
  simp only [admits, Bool.and_eq_true, Bool.not_eq_true', List.contains_eq_mem,
    decide_eq_false_iff_not] at hadmit
  exact ⟨hsub.subset h, hadmit.1.1.1.1, hadmit.1.1.2, hadmit.1.2⟩

/-! ### The removals -/

theorem mem_yielding :
    c ∈ i.yielding env ↔ c ∈ i.currentAuto ∧ i.isEligible env c = false ∧ i.reapable c = true ∧
      i.isKeepable c = true := by
  rw [yielding, List.mem_insertionSort, faded, List.mem_filter, List.mem_filter]
  simp only [Bool.not_eq_true', Bool.and_eq_true, and_assoc]

theorem mem_reaped :
    s ∈ i.reaped env ↔ ∃ c ∈ i.currentAuto, c.symbol = s ∧ i.isEligible env c = false ∧
      i.reapable c = true ∧ i.isKeepable c = false := by
  rw [reaped, List.mem_map]
  simp only [faded, List.mem_filter, Bool.not_eq_true', Bool.and_eq_true]
  constructor
  · rintro ⟨c, ⟨⟨hmem, hfaded⟩, hreap, hkeep⟩, rfl⟩
    exact ⟨c, hmem, rfl, hfaded, hreap, hkeep⟩
  · rintro ⟨c, hmem, rfl, hfaded, hreap, hkeep⟩
    exact ⟨c, ⟨⟨hmem, hfaded⟩, hreap, hkeep⟩, rfl⟩

/-- A removed symbol is a faded one that may go; a tradable one only as one of the evicted. -/
theorem mem_remove (h : s ∈ i.remove env) :
    ∃ c ∈ i.currentAuto, c.symbol = s ∧ i.isEligible env c = false ∧ i.reapable c = true ∧
      (i.isKeepable c = false ∨ c ∈ i.evicted env) := by
  rcases List.mem_append.mp h with h | h
  · obtain ⟨c, hmem, hsymbol, hfaded, hreap, hkeep⟩ := mem_reaped.mp h
    exact ⟨c, hmem, hsymbol, hfaded, hreap, .inl hkeep⟩
  · obtain ⟨c, hc, hsymbol⟩ := List.mem_map.mp h
    obtain ⟨hmem, hfaded, hreap, -⟩ := mem_yielding.mp (List.mem_of_mem_take hc)
    exact ⟨c, hmem, hsymbol, hfaded, hreap, .inr hc⟩

/-- The removals are some of the current symbols. -/
theorem remove_subset (env : Environment) (i : ResolveInput) : i.remove env ⊆ i.currentSet := by
  intro s hs
  obtain ⟨c, hc, rfl, -⟩ := mem_remove hs
  exact List.mem_map_of_mem hc

theorem eligible_not_removed (h : s ∈ i.eligible env) : s ∉ i.remove env := by
  intro hs
  obtain ⟨c, -, rfl, hfaded, -⟩ := mem_remove hs
  rw [isEligible, List.contains_eq_mem, decide_eq_false_iff_not] at hfaded
  exact hfaded h

/-! ### Counting the classes -/

/-- The four classes partition the current symbols. -/
theorem length_currentAuto (env : Environment) (i : ResolveInput) :
    i.currentAuto.length = (i.kept env).length + (i.protectedFaded env).length +
      (i.yielding env).length + (i.reaped env).length := by
  have hfaded : (i.kept env).length + (i.faded env).length = i.currentAuto.length :=
    (List.length_eq_length_filter_add _).symm
  have hreap : ((i.faded env).filter fun c => i.reapable c).length +
      (i.protectedFaded env).length = (i.faded env).length :=
    (List.length_eq_length_filter_add _).symm
  have hkeep := List.length_eq_length_filter_add (l := (i.faded env).filter fun c => i.reapable c)
    i.isKeepable
  rw [List.filter_filter, List.filter_filter] at hkeep
  have hyield : (i.yielding env).length =
      ((i.faded env).filter fun c => i.isKeepable c && i.reapable c).length := by
    rw [yielding, List.length_insertionSort]
    simp only [Bool.and_comm]
  have hgone : (i.reaped env).length =
      ((i.faded env).filter fun c => !i.isKeepable c && i.reapable c).length := by
    rw [reaped, List.length_map]
    simp only [Bool.and_comm]
  omega

theorem nodup_remove (hnodup : i.currentSet.Nodup) : (i.remove env).Nodup := by
  have hsymbols : ∀ {c c' : CurrentAutoSymbol}, c ∈ i.currentAuto → c' ∈ i.currentAuto →
      c.symbol = c'.symbol → c = c' := fun hc hc' h => List.inj_on_of_nodup_map hnodup hc hc' h
  refine List.nodup_append.mpr ⟨?_, ?_, ?_⟩
  · exact hnodup.sublist ((List.filter_sublist.trans List.filter_sublist).map _)
  · have hyield : ((i.yielding env).map (·.symbol)).Nodup := by
      have hperm : (i.yielding env).Perm _ := List.perm_insertionSort _ _
      rw [(hperm.map _).nodup_iff]
      exact hnodup.sublist ((List.filter_sublist.trans List.filter_sublist).map _)
    exact hyield.sublist ((List.take_sublist _ _).map _)
  · rintro s hs _ ht rfl
    obtain ⟨c, hc, rfl, -, -, hkeep⟩ := mem_reaped.mp hs
    obtain ⟨c', hc', hsymbol⟩ := List.mem_map.mp ht
    obtain ⟨hmem', -, -, hkeep'⟩ := mem_yielding.mp (List.mem_of_mem_take hc')
    rw [hsymbols hmem' hc hsymbol, hkeep] at hkeep'
    cases hkeep'

theorem length_remove (env : Environment) (i : ResolveInput) :
    (i.remove env).length = (i.reaped env).length +
      Min.min ((i.add env).length - i.freeSlots env) (i.yielding env).length := by
  rw [remove, List.length_append, List.length_map, evicted, List.length_take]

/-- Within the cap, a rotation stays within it, and fills it where a tradable symbol yields. -/
theorem rotation_size (hcap : i.currentAuto.length ≤ i.cfg.maxAutoSymbols) :
    (i.remove env).length ≤ i.currentAuto.length ∧
    i.currentAuto.length - (i.remove env).length + (i.add env).length ≤ i.cfg.maxAutoSymbols ∧
    (i.evicted env ≠ [] → i.add env ≠ [] ∧
      i.currentAuto.length - (i.remove env).length + (i.add env).length =
        i.cfg.maxAutoSymbols) := by
  have hclasses := length_currentAuto env i
  have hremove := length_remove env i
  have hadd := length_add_le env i
  have hevicted : i.evicted env ≠ [] → i.freeSlots env < (i.add env).length := by
    intro h
    by_contra hroom
    rw [evicted, Nat.sub_eq_zero_of_le (not_lt.mp hroom)] at h
    exact h rfl
  have hnonempty : i.freeSlots env < (i.add env).length → i.add env ≠ [] := by
    intro h hempty
    rw [hempty] at h
    exact absurd h (Nat.not_lt_zero _)
  unfold availableSlots rawSlots at hadd
  have hfree : i.freeSlots env = (i.rawSlots env - (i.yielding env).length).toNat := rfl
  unfold rawSlots at hfree
  by_cases hallow : i.allowAdds = true
  · rw [if_pos hallow] at hadd hfree
    refine ⟨by omega, by omega, ?_⟩
    intro h
    exact ⟨hnonempty (hevicted h), by have := hevicted h; omega⟩
  · rw [if_neg hallow] at hadd hfree
    refine ⟨by omega, by omega, ?_⟩
    intro h
    have := hevicted h
    omega

theorem blocked_adds (hblocked : i.allowAdds = false) : i.add env = [] ∧ i.evicted env = [] := by
  have hslots : i.availableSlots env = 0 := by simp [availableSlots, rawSlots, hblocked]
  have hadd : i.add env = [] := by
    have := length_add_le env i
    rw [hslots, Nat.le_zero, List.length_eq_zero_iff] at this
    exact this
  refine ⟨hadd, ?_⟩
  rw [evicted, hadd, List.length_nil, Nat.zero_sub, List.take_zero]

/-- Of the symbols that may yield, those held longest go first. -/
theorem evicted_oldest {c c' : CurrentAutoSymbol} (hc : c ∈ i.evicted env)
    (hc' : c' ∈ i.yielding env) (hstays : c' ∉ i.evicted env) : c.addedAtMs ≤ c'.addedAtMs := by
  have hsorted : (i.yielding env).Pairwise fun a b => a.addedAtMs ≤ b.addedAtMs :=
    List.pairwise_insertionSort _ _
  rw [← List.take_append_drop ((i.add env).length - i.freeSlots env) (i.yielding env),
    List.pairwise_append] at hsorted
  rw [← List.take_append_drop ((i.add env).length - i.freeSlots env) (i.yielding env),
    List.mem_append] at hc'
  exact hsorted.2.2 c hc c' (hc'.resolve_left hstays)

end ResolveInput

end TradingBot.Discovery
