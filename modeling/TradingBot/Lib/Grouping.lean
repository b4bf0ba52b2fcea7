import Mathlib.Algebra.BigOperators.Group.List.Basic
import Mathlib.Data.List.Induction
import Mathlib.Data.List.Perm.Basic
import Mathlib.Algebra.Order.Group.Multiset
import TradingBot.Lib.InsertionMap

/-!
# Folding a list into groups

A list folded into a map of accumulators, one for each key: an element goes to
the accumulator of its key, which it opens with a seed if it is the first. The
accumulator of a key is the fold over the elements of that key, so what adds up
over the groups adds up over the list, and the order of the list does not
matter where it does not matter to the fold.
-/

namespace Grouping

open InsertionMap

variable {ι κ β : Type} [DecidableEq κ] {key : ι → κ} {seed : ι → β} {step : β → ι → β}

def add (key : ι → κ) (seed : ι → β) (step : β → ι → β) (m : List (κ × β)) (a : ι) : List (κ × β) :=
  set (key a) (step ((get (key a) m).getD (seed a)) a) m

def group (key : ι → κ) (seed : ι → β) (step : β → ι → β) (items : List ι) : List (κ × β) :=
  items.foldl (add key seed step) []

/-- The elements of a key. -/
def members (key : ι → κ) (k : κ) (items : List ι) : List ι := items.filter fun a => key a = k

theorem group_concat (items : List ι) (a : ι) :
    group key seed step (items ++ [a]) = add key seed step (group key seed step items) a := by
  rw [group, List.foldl_append]
  rfl

/-- The accumulator of a key is the fold over the elements of that key. -/
theorem get_group (items : List ι) (k : κ) :
    get k (group key seed step items) =
      (members key k items).head?.map fun first =>
        (members key k items).foldl step (seed first) := by
  induction items using List.reverseRecOn with
  | nil => rfl
  | append_singleton items a ih =>
      rw [group_concat, add]
      by_cases hk : key a = k
      · have hmembers : members key k (items ++ [a]) = members key k items ++ [a] := by
          simp [members, List.filter_append, hk]
        subst hk
        rw [get_set_self, ih, hmembers]
        cases members key (key a) items with
        | nil => rfl
        | cons first rest => simp [List.foldl_append]
      · have hmembers : members key k (items ++ [a]) = members key k items := by
          simp [members, List.filter_append, hk]
        rw [get_set_other (Ne.symm hk), ih, hmembers]

theorem nodup_keys_group (items : List ι) : (keys (group key seed step items)).Nodup := by
  induction items using List.reverseRecOn with
  | nil => exact List.nodup_nil
  | append_singleton items a ih =>
      rw [group_concat]
      exact nodup_keys_set ih

theorem mem_group {items : List ι} {k : κ} {b : β} (h : (k, b) ∈ group key seed step items) :
    ∃ first rest, members key k items = first :: rest ∧
      b = (members key k items).foldl step (seed first) := by
  have hget := get_of_mem (nodup_keys_group items) h
  rw [get_group] at hget
  obtain ⟨first, hfirst, hfold⟩ := Option.map_eq_some_iff.mp hget
  obtain ⟨rest, hrest⟩ := List.head?_eq_some_iff.mp hfirst
  exact ⟨first, rest, hrest, hfold.symm⟩

theorem forall_group {P : κ → β → Prop} {items : List ι}
    (hseed : ∀ a ∈ items, P (key a) (seed a))
    (hstep : ∀ a ∈ items, ∀ b, P (key a) b → P (key a) (step b a)) {k : κ} {b : β}
    (h : (k, b) ∈ group key seed step items) : P k b := by
  induction items using List.reverseRecOn generalizing k b with
  | nil => cases h
  | append_singleton items a ih =>
      have ha : a ∈ items ++ [a] := List.mem_append_right items List.mem_cons_self
      have ih' : ∀ {k b}, (k, b) ∈ group key seed step items → P k b :=
        ih (fun c hc => hseed c (List.mem_append_left _ hc))
          fun c hc => hstep c (List.mem_append_left _ hc)
      rw [group_concat] at h
      rcases mem_of_mem_set h with heq | hmem
      · cases heq
        refine hstep a ha _ ?_
        cases hget : get (key a) (group key seed step items) with
        | none => exact hseed a ha
        | some b => exact ih' (mem_of_get hget)
      · exact ih' hmem

/-! ### Sums over the groups -/

section Sums

variable {M : Type} [AddCommMonoid M]

theorem sum_set (f : β → M) {m : List (κ × β)} {k : κ} {b : β} {x : M}
    (hvalue : f b = (get k m).elim 0 f + x) :
    ((set k b m).map fun entry => f entry.2).sum = (m.map fun entry => f entry.2).sum + x := by
  induction m with
  | nil => simpa [InsertionMap.set, InsertionMap.get] using hvalue
  | cons entry rest ih =>
      rw [InsertionMap.set]
      rw [InsertionMap.get] at hvalue
      split at hvalue
      · next hentry =>
          rw [if_pos hentry]
          simp only [List.map_cons, List.sum_cons, hvalue, Option.elim_some]
          exact add_right_comm _ _ _
      · next hentry =>
          rw [if_neg hentry]
          simp only [List.map_cons, List.sum_cons, ih hvalue]
          exact (add_assoc _ _ _).symm

/-- What each element adds to its group, the groups together have of all elements. -/
theorem sum_group {P : κ → β → Prop} {items : List ι} (hseed : ∀ a ∈ items, P (key a) (seed a))
    (hstep : ∀ a ∈ items, ∀ b, P (key a) b → P (key a) (step b a)) {f : β → M} {g : ι → M}
    (hzero : ∀ a, f (seed a) = 0)
    (hadd : ∀ a ∈ items, ∀ b, P (key a) b → f (step b a) = f b + g a) :
    ((group key seed step items).map fun entry => f entry.2).sum = (items.map g).sum := by
  induction items using List.reverseRecOn with
  | nil => rfl
  | append_singleton items a ih =>
      have ha : a ∈ items ++ [a] := List.mem_append_right items List.mem_cons_self
      have hseed' : ∀ c ∈ items, P (key c) (seed c) :=
        fun c hc => hseed c (List.mem_append_left _ hc)
      have hstep' : ∀ c ∈ items, ∀ b, P (key c) b → P (key c) (step b c) :=
        fun c hc => hstep c (List.mem_append_left _ hc)
      rw [group_concat, add, sum_set f (x := g a),
        ih hseed' hstep' fun c hc => hadd c (List.mem_append_left _ hc), List.map_append,
        List.sum_append, List.map_singleton, List.sum_singleton]
      cases hget : get (key a) (group key seed step items) with
      | none => simp [hadd a ha _ (hseed a ha), hzero]
      | some b => simpa using hadd a ha b (forall_group hseed' hstep' (mem_of_get hget))

theorem perm_flatten_group {ι : Type} (key : ι → κ) (items : List ι) :
    ((group key (fun _ => []) (fun list a => list ++ [a]) items).map (·.2)).flatten.Perm items := by
  have hflat : ∀ lists : List (List ι),
      (lists.map Multiset.ofList).sum = Multiset.ofList lists.flatten := by
    intro lists
    induction lists with
    | nil => rfl
    | cons list lists ih =>
        rw [List.map_cons, List.sum_cons, ih, List.flatten_cons, ← Multiset.coe_add]
  have hsum : ((group key (fun _ => []) (fun list a => list ++ [a]) items).map
      fun entry => Multiset.ofList entry.2).sum =
        (items.map fun a => Multiset.ofList [a]).sum :=
    @sum_group ι κ (List ι) _ key (fun _ => []) (fun list a => list ++ [a]) (Multiset ι) _
      (fun _ _ => True) items (fun _ _ => trivial) (fun _ _ _ _ => trivial) Multiset.ofList
      (fun a => Multiset.ofList [a]) (fun _ => rfl) fun _ _ _ _ => (Multiset.coe_add _ _).symm
  refine Multiset.coe_eq_coe.mp ?_
  calc Multiset.ofList ((group key (fun _ => []) (fun list a => list ++ [a]) items).map
        (·.2)).flatten
      = (items.map fun a => Multiset.ofList [a]).sum := by rw [← hflat, List.map_map]; exact hsum
    _ = ((items.map fun a => [a]).map Multiset.ofList).sum := by rw [List.map_map]; rfl
    _ = Multiset.ofList items := by rw [hflat, ← List.flatMap_def, List.flatMap_singleton']

end Sums

/-! ### Reordering -/

/-- Where the fold does not care about the order, neither do the groups. -/
theorem perm_group {items items' : List ι}
    (hseed : ∀ a ∈ items, ∀ b ∈ items, key a = key b → seed a = seed b)
    (hcomm : ∀ b x y, step (step b x) y = step (step b y) x) (h : items.Perm items') :
    (group key seed step items).Perm (group key seed step items') := by
  have hget : ∀ k, get k (group key seed step items) = get k (group key seed step items') := by
    intro k
    have hmembers : (members key k items).Perm (members key k items') := h.filter _
    rw [get_group, get_group]
    cases hitems : members key k items with
    | nil =>
        rw [hitems] at hmembers
        rw [hmembers.nil_eq]
    | cons first rest =>
        rw [hitems] at hmembers
        cases hitems' : members key k items' with
        | nil =>
            rw [hitems'] at hmembers
            exact absurd hmembers.length_eq (by simp)
        | cons first' rest' =>
            rw [hitems'] at hmembers
            have hkey : ∀ {list : List ι} {a : ι}, a ∈ members key k list → a ∈ list ∧ key a = k :=
              fun ha => by simpa [members] using ha
            obtain ⟨hfirst, hk⟩ := hkey (hitems ▸ List.mem_cons_self : first ∈ members key k items)
            obtain ⟨hfirst', hk'⟩ :=
              hkey (hitems' ▸ List.mem_cons_self : first' ∈ members key k items')
            have hsame : seed first = seed first' :=
              hseed first hfirst first' (h.mem_iff.mpr hfirst') (hk.trans hk'.symm)
            simp only [List.head?_cons, Option.map_some, Option.some.injEq]
            rw [hsame]
            exact hmembers.foldl_eq' (fun x _ y _ b => hcomm b x y) _
  refine (List.perm_ext_iff_of_nodup (List.Nodup.of_map _ (nodup_keys_group items))
    (List.Nodup.of_map _ (nodup_keys_group items'))).mpr fun entry => ?_
  constructor
  · intro hmem
    exact mem_of_get ((hget _).symm.trans (get_of_mem (nodup_keys_group items) hmem))
  · intro hmem
    exact mem_of_get ((hget _).trans (get_of_mem (nodup_keys_group items') hmem))

end Grouping
