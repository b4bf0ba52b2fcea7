import TradingBot.Lib.DecimalText

/-!
# Decimal literals

The plain shape of a decimal in text: an optional sign, digits with an optional
point, an optional exponent. The library reads such a text as the number it
spells, and what it prints in plain notation is one.
-/

namespace Decimal

inductive LiteralSign where
  | none
  | plus
  | minus

namespace LiteralSign

def text : LiteralSign → List Char
  | none => []
  | plus => ['+']
  | minus => ['-']

def isMinus : LiteralSign → Bool
  | minus => true
  | _ => false

end LiteralSign

structure LiteralExponent where
  mark : Char
  sign : LiteralSign
  digits : List Char

/-- A decimal literal; `fraction` is what stands after the point, if there is one. -/
structure Literal where
  sign : LiteralSign
  whole : List Char
  fraction : Option (List Char)
  exponent : Option LiteralExponent

/-- The number that decimal digits spell. -/
def digitsNat (cs : List Char) : ℕ := Nat.ofDigitChars 10 cs 0

namespace LiteralExponent

def text (e : LiteralExponent) : List Char := e.mark :: (e.sign.text ++ e.digits)

def value (e : LiteralExponent) : ℤ :=
  if e.sign.isMinus then -digitsNat e.digits else digitsNat e.digits

structure WellFormed (e : LiteralExponent) : Prop where
  mark : e.mark = 'e' ∨ e.mark = 'E'
  nonempty : e.digits ≠ []
  digits : ∀ c ∈ e.digits, c.isDigit = true

end LiteralExponent

namespace Literal

def mantissa (l : Literal) : List Char := l.whole ++ l.fraction.getD []

def fractionText (l : Literal) : List Char := (l.fraction.map ('.' :: ·)).getD []

def exponentText (l : Literal) : List Char := (l.exponent.map (·.text)).getD []

/-- The text without its sign. -/
def body (l : Literal) : List Char := l.whole ++ (l.fractionText ++ l.exponentText)

def text (l : Literal) : List Char := l.sign.text ++ l.body

def exponentValue (l : Literal) : ℤ := (l.exponent.map (·.value)).getD 0

/-- The number without its sign. -/
def magnitude (l : Literal) : ℚ :=
  (digitsNat l.mantissa : ℚ) / 10 ^ (l.fraction.getD []).length * 10 ^ l.exponentValue

def value (l : Literal) : ℚ := if l.sign.isMinus then -l.magnitude else l.magnitude

/-- At least one digit, before the point or after it. -/
structure WellFormed (l : Literal) : Prop where
  nonempty : l.mantissa ≠ []
  digits : ∀ c ∈ l.mantissa, c.isDigit = true
  exponent : ∀ e ∈ l.exponent, e.WellFormed

end Literal

/-! ### Reading a literal -/

section Reading

variable {c : Char} {cs ds rest : List Char} {l : Literal}

theorem isDigit_iff : c.isDigit = true ↔ 48 ≤ c.toNat ∧ c.toNat ≤ 57 := by
  unfold Char.isDigit
  rw [Bool.and_eq_true, decide_eq_true_iff, decide_eq_true_iff]
  exact Iff.rfl

theorem le_iff_toNat_le {a b : Char} : a ≤ b ↔ a.toNat ≤ b.toNat := Iff.rfl

theorem digitValue_ten : digitValue 10 c = if c.isDigit then some (c.toNat - 48) else none := by
  unfold digitValue
  simp only [le_iff_toNat_le]
  by_cases hc : c.isDigit = true
  · obtain ⟨hlow, hhigh⟩ := isDigit_iff.mp hc
    rw [if_pos hc, if_pos ⟨hlow, hhigh⟩]
    exact Option.filter_some_pos (by simp; omega)
  · have hnot : ¬ ('0'.toNat ≤ c.toNat ∧ c.toNat ≤ '9'.toNat) := mt isDigit_iff.mpr hc
    rw [if_neg hc, if_neg hnot]
    split
    · exact Option.filter_some_neg (by simp)
    · split
      · exact Option.filter_some_neg (by simp)
      · rfl

theorem takeDigits_append (hds : ∀ c ∈ ds, c.isDigit = true)
    (hrest : ∀ c ∈ rest.head?, c.isDigit = false) :
    takeDigits 10 (ds ++ rest) = (ds.map fun c => c.toNat - 48, rest) := by
  induction ds with
  | nil =>
      cases rest with
      | nil => rfl
      | cons c cs =>
          have hc := hrest c rfl
          rw [List.nil_append]
          unfold takeDigits
          rw [digitValue_ten, hc]
          rfl
  | cons d ds ih =>
      have hd := hds d List.mem_cons_self
      rw [List.cons_append]
      unfold takeDigits
      rw [digitValue_ten, hd, ih fun c hc => hds c (List.mem_cons_of_mem _ hc)]
      rfl

theorem digitsValue_map (cs : List Char) :
    digitsValue 10 (cs.map fun c => c.toNat - 48) = digitsNat cs := by
  unfold digitsValue digitsNat Nat.ofDigitChars
  rw [List.foldl_map]
  congr 1
  funext acc c
  rw [Nat.mul_comm]
  rfl

theorem dropSeparators_eq_self (h : '_' ∉ cs) : dropSeparators cs = cs := by
  induction cs using dropSeparators.induct with
  | case1 c d cs _ => exact absurd (List.mem_cons_of_mem _ List.mem_cons_self) h
  | case2 c d cs _ => exact absurd (List.mem_cons_of_mem _ List.mem_cons_self) h
  | case3 c cs hpair ih =>
      rw [dropSeparators.eq_2 _ _ hpair, ih fun hmem => h (List.mem_cons_of_mem _ hmem)]
  | case4 => rfl

theorem isDigit_mark {e : LiteralExponent} (h : e.WellFormed) : e.mark.isDigit = false := by
  rcases h.mark with hmark | hmark <;> rw [hmark] <;> rfl

/-- The digits of an exponent, whatever sign they follow, end the text. -/
theorem takeDigits_eq (hds : ∀ c ∈ ds, c.isDigit = true) :
    takeDigits 10 ds = (ds.map fun c => c.toNat - 48, []) := by
  have h := @takeDigits_append ds [] hds nofun
  rw [List.append_nil] at h
  exact h

theorem parseExponent_text {e : LiteralExponent} (h : e.WellFormed) :
    parseExponent 'e' e.text = some e.value := by
  have hmark : e.mark.toLower = 'e' := by
    rcases h.mark with hmark | hmark <;> rw [hmark] <;> rfl
  have htaken := takeDigits_eq h.digits
  obtain ⟨d, ds, hdigits⟩ := List.exists_cons_of_ne_nil h.nonempty
  have hd : d.isDigit = true := h.digits d (hdigits ▸ List.mem_cons_self)
  have hvalue := digitsValue_map e.digits
  unfold LiteralExponent.text LiteralExponent.value parseExponent
  dsimp only
  rw [if_neg (not_not.mpr hmark)]
  rw [hdigits] at htaken hvalue ⊢
  rw [List.map_cons] at htaken hvalue
  cases hsign : e.sign with
  | plus => simp [LiteralSign.text, LiteralSign.isMinus, htaken, hvalue]
  | minus => simp [LiteralSign.text, LiteralSign.isMinus, htaken, hvalue]
  | none =>
      have hplus : d ≠ '+' := by
        rintro rfl
        cases hd
      have hminus : d ≠ '-' := by
        rintro rfl
        cases hd
      simp [LiteralSign.text, LiteralSign.isMinus, hplus, hminus, htaken, hvalue]

theorem parseExponent_exponentText (h : l.WellFormed) :
    parseExponent 'e' l.exponentText = some l.exponentValue := by
  unfold Literal.exponentText Literal.exponentValue
  cases hexponent : l.exponent with
  | none => rfl
  | some e => exact parseExponent_text (h.exponent e hexponent)

theorem head?_exponentText (h : l.WellFormed) :
    ∀ c ∈ l.exponentText.head?, c.isDigit = false ∧ c ≠ '.' := by
  intro c hc
  unfold Literal.exponentText at hc
  cases hexponent : l.exponent with
  | none =>
      rw [hexponent] at hc
      cases hc
  | some e =>
      have he := h.exponent e hexponent
      rw [hexponent] at hc
      obtain rfl : e.mark = c := Option.some.inj hc
      refine ⟨isDigit_mark he, ?_⟩
      rcases he.mark with hmark | hmark <;> rw [hmark] <;> decide

theorem takeFraction_text (h : l.WellFormed) :
    takeFraction 10 (l.fractionText ++ l.exponentText) =
      ((l.fraction.getD []).map fun c => c.toNat - 48, l.exponentText) := by
  have hdigits : ∀ c ∈ l.fraction.getD [], c.isDigit = true := fun c hc =>
    h.digits c (List.mem_append_right _ hc)
  have hhead := head?_exponentText h
  unfold Literal.fractionText
  cases hfraction : l.fraction with
  | none =>
      dsimp only [Option.map_none, Option.getD_none, List.nil_append, List.map_nil]
      unfold takeFraction
      split
      · next rest heq =>
          rw [heq] at hhead
          exact absurd rfl (hhead '.' rfl).2
      · rfl
  | some fraction =>
      rw [hfraction] at hdigits
      exact takeDigits_append hdigits fun c hc => (hhead c hc).1

theorem parseLiteral_body (h : l.WellFormed) :
    parseLiteral 10 10 'e' l.body = some l.magnitude := by
  have hwhole : takeDigits 10 l.body =
      (l.whole.map fun c => c.toNat - 48, l.fractionText ++ l.exponentText) := by
    refine takeDigits_append (fun c hc => h.digits c (List.mem_append_left _ hc)) ?_
    intro c hc
    unfold Literal.fractionText at hc
    cases hfraction : l.fraction with
    | none =>
        rw [hfraction] at hc
        exact (head?_exponentText h c hc).1
    | some fraction =>
        rw [hfraction] at hc
        obtain rfl : '.' = c := Option.some.inj hc
        rfl
  unfold parseLiteral
  rw [hwhole]
  dsimp only
  rw [takeFraction_text h]
  dsimp only
  have hsome : ¬ (l.whole.map (fun c => c.toNat - 48) = [] ∧
      (l.fraction.getD []).map (fun c => c.toNat - 48) = []) := by
    rintro ⟨hwhole, hfraction⟩
    apply h.nonempty
    unfold Literal.mantissa
    rw [List.map_eq_nil_iff.mp hwhole, List.map_eq_nil_iff.mp hfraction]
    rfl
  rw [if_neg hsome, parseExponent_exponentText h, Option.map_some, ← List.map_append,
    digitsValue_map, List.length_map]
  unfold Literal.magnitude Literal.mantissa
  norm_num

theorem exists_head_body (h : l.WellFormed) :
    ∃ c cs, l.body = c :: cs ∧ (c.isDigit = true ∨ c = '.') := by
  unfold Literal.body
  cases hwhole : l.whole with
  | cons d ds =>
      exact ⟨d, _, rfl, .inl (h.digits d (List.mem_append_left _ (hwhole ▸ List.mem_cons_self)))⟩
  | nil =>
      have hne := h.nonempty
      unfold Literal.mantissa at hne
      rw [hwhole, List.nil_append] at hne
      unfold Literal.fractionText
      cases hfraction : l.fraction with
      | none =>
          rw [hfraction] at hne
          exact absurd rfl hne
      | some fraction => exact ⟨'.', _, rfl, .inr rfl⟩

theorem underscore_notMem_digits (hds : ∀ c ∈ ds, c.isDigit = true) : '_' ∉ ds := by
  intro hmem
  cases hds '_' hmem

theorem underscore_notMem_body (h : l.WellFormed) : '_' ∉ l.body := by
  have hmantissa := underscore_notMem_digits h.digits
  unfold Literal.mantissa at hmantissa
  rw [List.mem_append, not_or] at hmantissa
  unfold Literal.body Literal.fractionText Literal.exponentText
  rw [List.mem_append, List.mem_append, not_or, not_or]
  refine ⟨hmantissa.1, ?_, ?_⟩
  · cases hfraction : l.fraction with
    | none => exact List.not_mem_nil
    | some fraction =>
        rw [hfraction] at hmantissa
        exact List.not_mem_cons_of_ne_of_not_mem (by decide) hmantissa.2
  · cases hexponent : l.exponent with
    | none => exact List.not_mem_nil
    | some e =>
        have he := h.exponent e hexponent
        have hdigits := underscore_notMem_digits he.digits
        refine List.not_mem_cons_of_ne_of_not_mem ?_ ?_
        · rcases he.mark with hmark | hmark <;> rw [hmark] <;> decide
        · rw [List.mem_append, not_or]
          exact ⟨by cases e.sign <;> decide, hdigits⟩

theorem parseUnsigned_body (h : l.WellFormed) : parseUnsigned l.body = some (num l.magnitude) := by
  obtain ⟨c, cs, hbody, hc⟩ := exists_head_body h
  have hinfinity : l.body ≠ "Infinity".toList := by
    intro heq
    rw [hbody] at heq
    obtain rfl := (List.cons.inj heq).1
    rcases hc with hc | hc <;> cases hc
  have hnan : l.body ≠ "NaN".toList := by
    intro heq
    rw [hbody] at heq
    obtain rfl := (List.cons.inj heq).1
    rcases hc with hc | hc <;> cases hc
  unfold parseUnsigned
  rw [if_neg hinfinity, if_neg hnan, dropSeparators_eq_self (underscore_notMem_body h),
    parseLiteral_body h]
  rfl

/-- The library reads a literal as the number it spells. -/
theorem parse_text (h : l.WellFormed) : parse (String.ofList l.text) = some (num l.value) := by
  have hunsigned := parseUnsigned_body h
  unfold parse Literal.text Literal.value
  rw [String.toList_ofList]
  cases l.sign with
  | plus => exact hunsigned
  | minus =>
      change (parseUnsigned l.body).map neg = _
      rw [hunsigned]
      rfl
  | none =>
      obtain ⟨c, cs, hbody, hc⟩ := exists_head_body h
      change _ = some (num l.magnitude)
      rw [← hunsigned]
      dsimp only [LiteralSign.text, List.nil_append]
      rw [hbody]
      have hplus : c ≠ '+' := by
        rintro rfl
        rcases hc with hc | hc <;> cases hc
      have hminus : c ≠ '-' := by
        rintro rfl
        rcases hc with hc | hc <;> cases hc
      simp [hplus, hminus]

end Reading

/-! ### Printing one -/

section Printing

variable {q : ℚ} {digits : List Char} {places : ℕ}

/-- The literal that a plain rendering spells. -/
def pointedLiteral (sign : LiteralSign) (digits : List Char) (places : ℕ) : Literal :=
  let padded := List.replicate (places + 1 - digits.length) '0' ++ digits
  { sign
    whole := if places = 0 then digits else padded.take (padded.length - places)
    fraction := if places = 0 then none else some (padded.drop (padded.length - places))
    exponent := none }

theorem text_pointedLiteral (sign : LiteralSign) (digits : List Char) (places : ℕ) :
    (pointedLiteral sign digits places).text = sign.text ++ pointed digits places := by
  unfold pointedLiteral pointed Literal.text Literal.body Literal.fractionText Literal.exponentText
  by_cases hplaces : places = 0
  · simp [hplaces]
  · simp [hplaces]

theorem mantissa_pointedLiteral (sign : LiteralSign) (digits : List Char) (places : ℕ) :
    digitsNat (pointedLiteral sign digits places).mantissa = digitsNat digits := by
  unfold pointedLiteral Literal.mantissa
  by_cases hplaces : places = 0
  · simp [hplaces]
  · simp only [if_neg hplaces, Option.getD_some, List.take_append_drop]
    unfold digitsNat
    rw [Nat.ofDigitChars_append, Nat.ofDigitChars_replicate_zero, Nat.mul_zero]

theorem length_fraction_pointedLiteral (sign : LiteralSign) (digits : List Char) (places : ℕ) :
    ((pointedLiteral sign digits places).fraction.getD []).length = places := by
  unfold pointedLiteral
  by_cases hplaces : places = 0
  · simp [hplaces]
  · simp only [if_neg hplaces, Option.getD_some, List.length_drop, List.length_append,
      List.length_replicate]
    omega

theorem wellFormed_pointedLiteral (sign : LiteralSign) (hne : digits ≠ [])
    (hdigits : ∀ c ∈ digits, c.isDigit = true) :
    (pointedLiteral sign digits places).WellFormed := by
  have hpadded : ∀ c ∈ List.replicate (places + 1 - digits.length) '0' ++ digits,
      c.isDigit = true := by
    intro c hc
    rcases List.mem_append.mp hc with hzero | hdigit
    · rw [List.eq_of_mem_replicate hzero]
      rfl
    · exact hdigits c hdigit
  unfold pointedLiteral
  by_cases hplaces : places = 0
  · subst hplaces
    exact ⟨by simpa [Literal.mantissa] using hne, by simpa [Literal.mantissa] using hdigits, nofun⟩
  · refine ⟨?_, ?_, nofun⟩
    · unfold Literal.mantissa
      simp only [if_neg hplaces, Option.getD_some, List.take_append_drop]
      exact List.append_ne_nil_of_right_ne_nil _ hne
    · unfold Literal.mantissa
      simp only [if_neg hplaces, Option.getD_some, List.take_append_drop]
      exact hpadded

/-- The literal in which a number is printed in plain notation. -/
def fixedLiteral (q : ℚ) : Literal :=
  pointedLiteral (if q < 0 then .minus else .none)
    (Nat.toDigits 10 ⌊|q| * 10 ^ (num q).decimalPlaces⌋.toNat) (num q).decimalPlaces

theorem toFixed_eq (q : ℚ) : (num q).toFixed = String.ofList (fixedLiteral q).text := by
  unfold fixedLiteral toFixed plainDigits
  rw [text_pointedLiteral]
  by_cases hq : q < 0
  · simp [hq, LiteralSign.text]
  · simp [hq, LiteralSign.text]

theorem wellFormed_fixedLiteral (q : ℚ) : (fixedLiteral q).WellFormed :=
  wellFormed_pointedLiteral _ Nat.toDigits_ne_nil fun _ hc =>
    Nat.isDigit_of_mem_toDigits (by decide) (by decide) hc

theorem exists_mul_pow_decimalPlaces (hq : Terminating q) :
    ∃ z : ℤ, q * 10 ^ (num q).decimalPlaces = z := by
  obtain ⟨m, hm⟩ := Grid.den_dvd_decimalPlaces hq
  refine ⟨q.num * m, ?_⟩
  have hm' : (10 : ℚ) ^ (num q).decimalPlaces = q.den * m := by exact_mod_cast hm
  rw [hm', ← mul_assoc, Rat.mul_den_eq_num]
  push_cast
  rfl

/-- Plain notation is exact on a finite expansion. -/
theorem value_fixedLiteral (hq : Terminating q) : (fixedLiteral q).value = q := by
  obtain ⟨z, hz⟩ := exists_mul_pow_decimalPlaces hq
  have hten : (10 : ℚ) ^ (num q).decimalPlaces ≠ 0 := by positivity
  have habs : |q| * 10 ^ (num q).decimalPlaces = (z.natAbs : ℚ) := by
    rw [← abs_of_pos (by positivity : (0 : ℚ) < 10 ^ (num q).decimalPlaces), ← abs_mul, hz,
      Nat.cast_natAbs, Int.cast_abs]
  have hmagnitude : (fixedLiteral q).magnitude = |q| := by
    unfold Literal.magnitude fixedLiteral
    rw [mantissa_pointedLiteral, length_fraction_pointedLiteral]
    have hexponent : (pointedLiteral (if q < 0 then .minus else .none)
        (Nat.toDigits 10 ⌊|q| * 10 ^ (num q).decimalPlaces⌋.toNat)
        (num q).decimalPlaces).exponentValue = 0 := rfl
    rw [hexponent, zpow_zero, mul_one]
    unfold digitsNat
    rw [Nat.ofDigitChars_ten_toDigits, habs, Int.floor_natCast, Int.toNat_natCast, ← habs,
      mul_div_assoc, div_self hten, mul_one]
  unfold Literal.value
  rw [hmagnitude]
  unfold fixedLiteral pointedLiteral
  dsimp only
  by_cases hneg : q < 0
  · rw [if_pos hneg, abs_of_neg hneg]
    exact neg_neg q
  · rw [if_neg hneg, abs_of_nonneg (not_lt.mp hneg)]
    rfl

/-- The library reads its own plain notation back. -/
theorem parse_toFixed (hq : Terminating q) : parse (num q).toFixed = some (num q) := by
  rw [toFixed_eq, parse_text (wellFormed_fixedLiteral q), value_fixedLiteral hq]

end Printing

end Decimal
