import Mathlib.Computability.RegularExpressions

/-!
# Patterns over characters

The constructs of anchored text patterns as regular expressions, and what a text
that matches them looks like.
-/

namespace Pattern

open RegularExpression

/-- A character class. -/
def oneOf : List Char → RegularExpression Char
  | [] => 0
  | c :: cs => char c + oneOf cs

def optional (p : RegularExpression Char) : RegularExpression Char := p + 1

def many (p : RegularExpression Char) : RegularExpression Char := p.star

def many1 (p : RegularExpression Char) : RegularExpression Char := p * p.star

variable {p q : RegularExpression Char} {cs : List Char}

theorem oneOf_rmatch {allowed : List Char} :
    (oneOf allowed).rmatch cs ↔ ∃ c ∈ allowed, cs = [c] := by
  induction allowed with
  | nil =>
      unfold oneOf
      rw [zero_rmatch]
      simp
  | cons c rest ih =>
      unfold oneOf
      rw [add_rmatch_iff, char_rmatch_iff, ih]
      simp

theorem optional_rmatch : (optional p).rmatch cs ↔ p.rmatch cs ∨ cs = [] := by
  unfold optional
  rw [add_rmatch_iff, one_rmatch_iff]

theorem many_oneOf_rmatch {allowed : List Char} :
    (many (oneOf allowed)).rmatch cs ↔ ∀ c ∈ cs, c ∈ allowed := by
  unfold many
  rw [star_rmatch_iff]
  constructor
  · rintro ⟨pieces, rfl, hpieces⟩ c hc
    obtain ⟨piece, hpiece, hmem⟩ := List.mem_flatten.mp hc
    obtain ⟨d, hd, rfl⟩ := oneOf_rmatch.mp (hpieces piece hpiece).2
    obtain rfl := List.mem_singleton.mp hmem
    exact hd
  · intro hall
    refine ⟨cs.map fun c => [c], ?_, ?_⟩
    · induction cs with
      | nil => rfl
      | cons c rest ih =>
          rw [List.map_cons, List.flatten_cons, ← ih fun d hd => hall d (List.mem_cons_of_mem _ hd)]
          rfl
    · intro piece hpiece
      obtain ⟨c, hc, rfl⟩ := List.mem_map.mp hpiece
      exact ⟨List.cons_ne_nil _ _, oneOf_rmatch.mpr ⟨c, hall c hc, rfl⟩⟩

theorem many1_oneOf_rmatch {allowed : List Char} :
    (many1 (oneOf allowed)).rmatch cs ↔ cs ≠ [] ∧ ∀ c ∈ cs, c ∈ allowed := by
  unfold many1
  rw [mul_rmatch_iff]
  constructor
  · rintro ⟨first, rest, rfl, hfirst, hrest⟩
    obtain ⟨c, hc, rfl⟩ := oneOf_rmatch.mp hfirst
    refine ⟨List.cons_ne_nil _ _, ?_⟩
    intro d hd
    rcases List.mem_cons.mp hd with rfl | hd
    · exact hc
    · exact many_oneOf_rmatch.mp hrest d hd
  · rintro ⟨hne, hall⟩
    obtain ⟨c, rest, rfl⟩ := List.exists_cons_of_ne_nil hne
    exact ⟨[c], rest, rfl, oneOf_rmatch.mpr ⟨c, hall c List.mem_cons_self, rfl⟩,
      many_oneOf_rmatch.mpr fun d hd => hall d (List.mem_cons_of_mem _ hd)⟩

end Pattern
