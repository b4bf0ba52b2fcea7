import Mathlib.Data.Int.Log
import Mathlib.Tactic.FinCases
import Mathlib.Tactic.IntervalCases
import TradingBot.Lib.DecimalLiteral
import TradingBot.Lib.Pattern

/-!
# Decimals on the wire

Money crosses the wire as decimal text. The schema accepts decimal literals of a
bounded exponent and prints them in plain notation. The library turns a number
past its own exponent range into an infinity or a zero, so the schema reads a
zero off the text.
-/

namespace TradingBot.Contracts

open Decimal Pattern RegularExpression

/-! ### The patterns -/

def digitClass : RegularExpression Char :=
  oneOf ['0', '1', '2', '3', '4', '5', '6', '7', '8', '9']

def zeroClass : RegularExpression Char := oneOf ['0']

def signPattern : RegularExpression Char := optional (oneOf ['+', '-'])

def exponentPattern : RegularExpression Char :=
  optional (oneOf ['e', 'E'] * (signPattern * many1 digitClass))

/-- `DECIMAL_RE`. -/
def decimalRe : RegularExpression Char :=
  signPattern *
    ((many1 digitClass * optional (char '.' * many digitClass) + char '.' * many1 digitClass) *
      exponentPattern)

/-- `ZERO_MANTISSA_RE`. -/
def zeroMantissaRe : RegularExpression Char :=
  signPattern *
    ((many1 zeroClass * (optional (char '.') * many zeroClass) + char '.' * many1 zeroClass) *
      exponentPattern)

/-! ### The library's constructor -/

/-- The largest exponent of a finite number of the library; its smallest is the opposite. -/
def maxE : ℤ := 9000000000000000

/-- What becomes of an exact value: past the exponent range it is an infinity or a zero. -/
def clamp : Decimal → Decimal
  | num q =>
      if q = 0 then num 0
      else if maxE < Int.log 10 |q| then inf (q < 0)
      else if Int.log 10 |q| < -maxE then num 0
      else num q
  | x => x

/-- `new Decimal(s)`, `none` where it throws. -/
def newDecimal (s : String) : Option Decimal := (parse s).map clamp

/-- The base-ten exponent of a finite number, that of a zero being zero. -/
def exponentOf : Decimal → ℤ
  | num q => if q = 0 then 0 else Int.log 10 |q|
  | _ => 0

/-! ### The schemas -/

def maxWireExponent : ℤ := 308

def isWireDecimal (s : String) : Bool :=
  if !decimalRe.rmatch s.toList then false
  else
    match newDecimal s with
    | none => false
    | some d =>
        if !d.isFinite then false
        else if d = num 0 then zeroMantissaRe.rmatch s.toList
        else |exponentOf d| ≤ maxWireExponent

def asDecimalString (s : String) : Option String := (newDecimal s).map toFixed

/-- The `DecimalString` schema. -/
def parseDecimalString (s : String) : Option String :=
  if isWireDecimal s then asDecimalString s else none

/-- The `PositiveDecimalString` schema. -/
def parsePositiveDecimalString (s : String) : Option String :=
  if isWireDecimal s && (newDecimal s).any (·.gt (num 0)) then asDecimalString s else none

/-! ### What the patterns match -/

section Patterns

variable {cs : List Char} {c : Char}

theorem mem_digits :
    c ∈ ['0', '1', '2', '3', '4', '5', '6', '7', '8', '9'] ↔ c.isDigit = true := by
  constructor
  · intro hc
    fin_cases hc <;> rfl
  · intro hc
    obtain ⟨hlow, hhigh⟩ := isDigit_iff.mp hc
    rw [← Char.ofNat_toNat c]
    interval_cases c.toNat <;> decide

theorem signPattern_rmatch : signPattern.rmatch cs ↔ ∃ sign : LiteralSign, sign.text = cs := by
  unfold signPattern
  rw [optional_rmatch, oneOf_rmatch]
  constructor
  · rintro (⟨c, hc, rfl⟩ | rfl)
    · rcases List.mem_cons.mp hc with rfl | hc
      · exact ⟨.plus, rfl⟩
      · obtain rfl := List.mem_singleton.mp hc
        exact ⟨.minus, rfl⟩
    · exact ⟨.none, rfl⟩
  · rintro ⟨sign, rfl⟩
    cases sign with
    | none => exact .inr rfl
    | plus => exact .inl ⟨'+', by decide, rfl⟩
    | minus => exact .inl ⟨'-', by decide, rfl⟩

theorem exponentPattern_rmatch : exponentPattern.rmatch cs ↔
    ∃ e : Option LiteralExponent, (∀ x ∈ e, x.WellFormed) ∧ (e.map (·.text)).getD [] = cs := by
  unfold exponentPattern
  rw [optional_rmatch, mul_rmatch_iff]
  constructor
  · rintro (⟨mark, rest, rfl, hmark, hrest⟩ | rfl)
    · obtain ⟨c, hc, rfl⟩ := oneOf_rmatch.mp hmark
      obtain ⟨signText, digits, rfl, hsign, hdigits⟩ := (mul_rmatch_iff _ _ _).mp hrest
      obtain ⟨sign, rfl⟩ := signPattern_rmatch.mp hsign
      obtain ⟨hne, hall⟩ := many1_oneOf_rmatch.mp hdigits
      refine ⟨some ⟨c, sign, digits⟩, ?_, rfl⟩
      rintro _ ⟨⟩
      exact ⟨by simpa using hc, hne, fun d hd => mem_digits.mp (hall d hd)⟩
    · exact ⟨none, nofun, rfl⟩
  · rintro ⟨e, hwell, rfl⟩
    cases e with
    | none => exact .inr rfl
    | some e =>
        have he := hwell e rfl
        refine .inl ⟨[e.mark], e.sign.text ++ e.digits, rfl, ?_, ?_⟩
        · exact oneOf_rmatch.mpr ⟨e.mark, by simpa using he.mark, rfl⟩
        · refine (mul_rmatch_iff _ _ _).mpr ⟨_, _, rfl, signPattern_rmatch.mpr ⟨e.sign, rfl⟩, ?_⟩
          exact many1_oneOf_rmatch.mpr ⟨he.nonempty, fun d hd => mem_digits.mpr (he.digits d hd)⟩

/-- The mantissas: digits with an optional point behind at least one of them, or a point before. -/
theorem mantissa_rmatch :
    (many1 digitClass * optional (char '.' * many digitClass) + char '.' * many1 digitClass).rmatch
        cs ↔
      ∃ (whole : List Char) (fraction : Option (List Char)), whole ++ fraction.getD [] ≠ [] ∧
        (∀ c ∈ whole ++ fraction.getD [], c.isDigit = true) ∧
        whole ++ (fraction.map ('.' :: ·)).getD [] = cs := by
  rw [add_rmatch_iff, mul_rmatch_iff, mul_rmatch_iff]
  constructor
  · rintro (⟨whole, rest, rfl, hwhole, hrest⟩ | ⟨point, fraction, rfl, hpoint, hfraction⟩)
    · obtain ⟨hne, hall⟩ := many1_oneOf_rmatch.mp hwhole
      have hdigits : ∀ c ∈ whole, c.isDigit = true := fun c hc => mem_digits.mp (hall c hc)
      rcases optional_rmatch.mp hrest with hrest | rfl
      · obtain ⟨point, fraction, rfl, hpoint, hfraction⟩ := (mul_rmatch_iff _ _ _).mp hrest
        obtain rfl := (char_rmatch_iff _ _).mp hpoint
        refine ⟨whole, some fraction, List.append_ne_nil_of_left_ne_nil hne _, ?_, rfl⟩
        intro c hc
        rcases List.mem_append.mp hc with hc | hc
        · exact hdigits c hc
        · exact mem_digits.mp (many_oneOf_rmatch.mp hfraction c hc)
      · exact ⟨whole, none, by simpa using hne, by simpa using hdigits, rfl⟩
    · obtain rfl := (char_rmatch_iff _ _).mp hpoint
      obtain ⟨hne, hall⟩ := many1_oneOf_rmatch.mp hfraction
      exact ⟨[], some fraction, hne, fun c hc => mem_digits.mp (hall c hc), rfl⟩
  · rintro ⟨whole, fraction, hne, hall, rfl⟩
    by_cases hwhole : whole = []
    · subst hwhole
      cases fraction with
      | none => exact absurd rfl hne
      | some fraction =>
          refine .inr ⟨['.'], fraction, rfl, (char_rmatch_iff _ _).mpr rfl, ?_⟩
          exact many1_oneOf_rmatch.mpr ⟨hne, fun c hc => mem_digits.mpr (hall c hc)⟩
    · refine .inl ⟨whole, _, rfl, many1_oneOf_rmatch.mpr
        ⟨hwhole, fun c hc => mem_digits.mpr (hall c (List.mem_append_left _ hc))⟩, ?_⟩
      refine optional_rmatch.mpr ?_
      cases fraction with
      | none => exact .inr rfl
      | some fraction =>
          refine .inl ((mul_rmatch_iff _ _ _).mpr ⟨['.'], fraction, rfl, ?_, ?_⟩)
          · exact (char_rmatch_iff _ _).mpr rfl
          · exact many_oneOf_rmatch.mpr fun c hc =>
              mem_digits.mpr (hall c (List.mem_append_right _ hc))

theorem zeroMantissa_rmatch :
    (many1 zeroClass * (optional (char '.') * many zeroClass) + char '.' * many1 zeroClass).rmatch
        cs ↔
      ∃ (whole : List Char) (fraction : Option (List Char)), whole ++ fraction.getD [] ≠ [] ∧
        (∀ c ∈ whole ++ fraction.getD [], c = '0') ∧
        whole ++ (fraction.map ('.' :: ·)).getD [] = cs := by
  have hzero : ∀ {c : Char}, c ∈ ['0'] ↔ c = '0' := List.mem_singleton
  rw [add_rmatch_iff, mul_rmatch_iff, mul_rmatch_iff]
  constructor
  · rintro (⟨whole, rest, rfl, hwhole, hrest⟩ | ⟨point, fraction, rfl, hpoint, hfraction⟩)
    · obtain ⟨hne, hall⟩ := many1_oneOf_rmatch.mp hwhole
      obtain ⟨point, fraction, rfl, hpoint, hfraction⟩ := (mul_rmatch_iff _ _ _).mp hrest
      have hmore := many_oneOf_rmatch.mp hfraction
      have hboth : ∀ c ∈ whole ++ fraction, c = '0' := by
        intro c hc
        rcases List.mem_append.mp hc with hc | hc
        · exact hzero.mp (hall c hc)
        · exact hzero.mp (hmore c hc)
      rcases optional_rmatch.mp hpoint with hpoint | rfl
      · obtain rfl := (char_rmatch_iff _ _).mp hpoint
        exact ⟨whole, some fraction, List.append_ne_nil_of_left_ne_nil hne _, hboth, rfl⟩
      · refine ⟨whole ++ fraction, none, ?_, ?_, ?_⟩
        · simp [hne]
        · simpa using hboth
        · simp
    · obtain rfl := (char_rmatch_iff _ _).mp hpoint
      obtain ⟨hne, hall⟩ := many1_oneOf_rmatch.mp hfraction
      exact ⟨[], some fraction, hne, fun c hc => hzero.mp (hall c hc), rfl⟩
  · rintro ⟨whole, fraction, hne, hall, rfl⟩
    by_cases hwhole : whole = []
    · subst hwhole
      cases fraction with
      | none => exact absurd rfl hne
      | some fraction =>
          refine .inr ⟨['.'], fraction, rfl, (char_rmatch_iff _ _).mpr rfl, ?_⟩
          exact many1_oneOf_rmatch.mpr ⟨hne, fun c hc => hzero.mpr (hall c hc)⟩
    · refine .inl ⟨whole, _, rfl, many1_oneOf_rmatch.mpr
        ⟨hwhole, fun c hc => hzero.mpr (hall c (List.mem_append_left _ hc))⟩, ?_⟩
      cases fraction with
      | none =>
          exact (mul_rmatch_iff _ _ _).mpr
            ⟨[], [], rfl, optional_rmatch.mpr (.inr rfl), many_oneOf_rmatch.mpr nofun⟩
      | some fraction =>
          refine (mul_rmatch_iff _ _ _).mpr ⟨['.'], fraction, rfl, ?_, ?_⟩
          · exact optional_rmatch.mpr (.inl ((char_rmatch_iff _ _).mpr rfl))
          · exact many_oneOf_rmatch.mpr fun c hc =>
              hzero.mpr (hall c (List.mem_append_right _ hc))

theorem signed_rmatch {mantissa : RegularExpression Char} {good : List Char → Prop}
    (hmantissa : ∀ cs, mantissa.rmatch cs ↔
      ∃ (whole : List Char) (fraction : Option (List Char)), whole ++ fraction.getD [] ≠ [] ∧
      good (whole ++ fraction.getD []) ∧ whole ++ (fraction.map ('.' :: ·)).getD [] = cs) :
    (signPattern * (mantissa * exponentPattern)).rmatch cs ↔
      ∃ l : Literal, l.mantissa ≠ [] ∧ good l.mantissa ∧ (∀ e ∈ l.exponent, e.WellFormed) ∧
        l.text = cs := by
  rw [mul_rmatch_iff]
  constructor
  · rintro ⟨signText, rest, rfl, hsign, hrest⟩
    obtain ⟨sign, rfl⟩ := signPattern_rmatch.mp hsign
    obtain ⟨body, exponentText, rfl, hbody, hexponent⟩ := (mul_rmatch_iff _ _ _).mp hrest
    obtain ⟨whole, fraction, hne, hgood, rfl⟩ := (hmantissa body).mp hbody
    obtain ⟨exponent, hwell, rfl⟩ := exponentPattern_rmatch.mp hexponent
    refine ⟨⟨sign, whole, fraction, exponent⟩, hne, hgood, hwell, ?_⟩
    unfold Literal.text Literal.body Literal.fractionText Literal.exponentText
    rw [List.append_assoc]
  · rintro ⟨l, hne, hgood, hwell, rfl⟩
    refine ⟨l.sign.text, l.body, rfl, signPattern_rmatch.mpr ⟨l.sign, rfl⟩, ?_⟩
    refine (mul_rmatch_iff _ _ _).mpr ⟨l.whole ++ l.fractionText, l.exponentText, ?_, ?_, ?_⟩
    · exact (List.append_assoc _ _ _).symm
    · exact (hmantissa _).mpr ⟨l.whole, l.fraction, hne, hgood, rfl⟩
    · exact exponentPattern_rmatch.mpr ⟨l.exponent, hwell, rfl⟩

theorem decimalRe_rmatch :
    decimalRe.rmatch cs ↔ ∃ l : Literal, l.WellFormed ∧ l.text = cs := by
  refine (@signed_rmatch cs _ (fun ds => ∀ c ∈ ds, c.isDigit = true)
    fun cs => mantissa_rmatch).trans ?_
  constructor
  · rintro ⟨l, hne, hdigits, hexponent, htext⟩
    exact ⟨l, ⟨hne, hdigits, hexponent⟩, htext⟩
  · rintro ⟨l, hwell, htext⟩
    exact ⟨l, hwell.nonempty, hwell.digits, hwell.exponent, htext⟩

theorem zeroMantissaRe_rmatch : zeroMantissaRe.rmatch cs ↔
    ∃ l : Literal, l.WellFormed ∧ (∀ c ∈ l.mantissa, c = '0') ∧ l.text = cs := by
  refine (@signed_rmatch cs _ (fun ds => ∀ c ∈ ds, c = '0')
    fun cs => zeroMantissa_rmatch).trans ?_
  constructor
  · rintro ⟨l, hne, hzeros, hexponent, htext⟩
    exact ⟨l, ⟨hne, fun c hc => by rw [hzeros c hc]; rfl, hexponent⟩, hzeros, htext⟩
  · rintro ⟨l, hwell, hzeros, htext⟩
    exact ⟨l, hwell.nonempty, hzeros, hwell.exponent, htext⟩

end Patterns

/-! ### What the schemas accept -/

section Schemas

variable {s t : String} {l : Literal} {q : ℚ} {e : ℤ}

/-- The power of ten of the leading digit of a number. -/
def LeadingExponent (q : ℚ) (e : ℤ) : Prop := 10 ^ e ≤ |q| ∧ |q| < 10 ^ (e + 1)

structure Spells (s : String) (l : Literal) : Prop where
  wellFormed : l.WellFormed
  text : l.text = s.toList

theorem Spells.parse (h : Spells s l) : Decimal.parse s = some (num l.value) := by
  have hparse := parse_text h.wellFormed
  rw [h.text, String.ofList_toList] at hparse
  exact hparse

theorem leadingExponent_iff (hq : q ≠ 0) : LeadingExponent q e ↔ Int.log 10 |q| = e := by
  have hpos : 0 < |q| := abs_pos.mpr hq
  have hlower := Int.zpow_le_iff_le_log (b := 10) (by decide) (x := e) hpos
  have hupper := Int.lt_zpow_iff_log_lt (b := 10) (by decide) (x := e + 1) hpos
  unfold LeadingExponent
  push_cast at hlower hupper
  rw [hlower, hupper]
  omega

theorem exponentOf_num (hq : q ≠ 0) : exponentOf (num q) = Int.log 10 |q| := if_neg hq

theorem abs_exponentOf_le (hq : q ≠ 0) : |exponentOf (num q)| ≤ maxWireExponent ↔
    ∃ e, LeadingExponent q e ∧ |e| ≤ maxWireExponent := by
  rw [exponentOf_num hq]
  constructor
  · intro he
    exact ⟨_, (leadingExponent_iff hq).mpr rfl, he⟩
  · rintro ⟨e, hleading, he⟩
    rw [(leadingExponent_iff hq).mp hleading]
    exact he

/-- The library keeps a number of bounded exponent as it is. -/
theorem clamp_eq (hq : q ≠ 0) (he : |exponentOf (num q)| ≤ maxWireExponent) :
    clamp (num q) = num q := by
  rw [exponentOf_num hq] at he
  obtain ⟨hlower, hupper⟩ := abs_le.mp he
  unfold maxWireExponent at hlower hupper
  unfold clamp maxE
  dsimp only
  rw [if_neg hq, if_neg (by omega), if_neg (by omega)]

theorem clamp_cases (q : ℚ) :
    clamp (num q) = inf (q < 0) ∨ clamp (num q) = num 0 ∨ clamp (num q) = num q := by
  unfold clamp
  dsimp only
  split
  · exact .inr (.inl rfl)
  split
  · exact .inl rfl
  split
  · exact .inr (.inl rfl)
  · exact .inr (.inr rfl)

theorem digitsNat_eq_zero {cs : List Char} (hdigits : ∀ c ∈ cs, c.isDigit = true) :
    digitsNat cs = 0 ↔ ∀ c ∈ cs, c = '0' := by
  unfold digitsNat
  induction cs with
  | nil => simp
  | cons c rest ih =>
      have hrest := ih fun d hd => hdigits d (List.mem_cons_of_mem _ hd)
      obtain ⟨hlow, hhigh⟩ := isDigit_iff.mp (hdigits c List.mem_cons_self)
      have hzero : c.toNat - '0'.toNat = 0 ↔ c = '0' := by
        constructor
        · intro hsub
          have hsub' : c.toNat - 48 = 0 := hsub
          rw [← Char.ofNat_toNat c, show c.toNat = 48 by omega]
        · rintro rfl
          rfl
      rw [Nat.ofDigitChars_cons, Nat.mul_zero, Nat.zero_add, Nat.ofDigitChars_eq_ofDigitChars_zero,
        Nat.add_eq_zero_iff, hrest, List.forall_mem_cons, ← hzero, Nat.mul_eq_zero]
      simp

theorem value_eq_zero (h : l.WellFormed) : l.value = 0 ↔ ∀ c ∈ l.mantissa, c = '0' := by
  rw [← digitsNat_eq_zero h.digits]
  have hten : (10 : ℚ) ^ (l.fraction.getD []).length ≠ 0 := by positivity
  have hpow : (10 : ℚ) ^ l.exponentValue ≠ 0 := zpow_ne_zero _ (by norm_num)
  have hmagnitude : l.magnitude = 0 ↔ digitsNat l.mantissa = 0 := by
    unfold Literal.magnitude
    rw [mul_eq_zero, or_iff_left hpow, div_eq_zero_iff, or_iff_left hten, Nat.cast_eq_zero]
  rw [← hmagnitude]
  unfold Literal.value
  split
  · exact neg_eq_zero
  · exact Iff.rfl

/-- What the predicate decides on a literal. -/
theorem isWireDecimal_of_spells (h : Spells s l) :
    isWireDecimal s = true ↔ (∀ c ∈ l.mantissa, c = '0') ∨
      ∃ e, LeadingExponent l.value e ∧ |e| ≤ maxWireExponent := by
  have hre : decimalRe.rmatch s.toList = true := decimalRe_rmatch.mpr ⟨l, h.wellFormed, h.text⟩
  have hnew : newDecimal s = some (clamp (num l.value)) := by
    unfold newDecimal
    rw [h.parse]
    rfl
  rw [← value_eq_zero h.wellFormed]
  unfold isWireDecimal
  rw [hre, hnew]
  dsimp only
  by_cases hzero : l.value = 0
  · have hmatch : zeroMantissaRe.rmatch s.toList = true :=
      zeroMantissaRe_rmatch.mpr ⟨l, h.wellFormed, (value_eq_zero h.wellFormed).mp hzero, h.text⟩
    have hclamp : clamp (num l.value) = num 0 := by
      unfold clamp
      dsimp only
      rw [if_pos hzero]
    rw [hclamp]
    simp [hzero, hmatch]
  · -- A text of a number other than zero has no zero mantissa, whatever the library makes of it.
    have hmatch : ¬ zeroMantissaRe.rmatch s.toList = true := by
      intro hmatch
      obtain ⟨l', hwell, hzeros, htext⟩ := zeroMantissaRe_rmatch.mp hmatch
      have hsame := (Spells.parse ⟨hwell, htext⟩).symm.trans h.parse
      rw [(value_eq_zero hwell).mpr hzeros] at hsame
      exact hzero (Decimal.num.inj (Option.some.inj hsame)).symm
    rw [or_iff_right hzero, ← abs_exponentOf_le hzero]
    by_cases he : |exponentOf (num l.value)| ≤ maxWireExponent
    · rw [clamp_eq hzero he]
      simp [hzero, he]
    · refine iff_of_false ?_ he
      rcases clamp_cases l.value with hclamp | hclamp | hclamp <;> rw [hclamp]
      · simp
      · simp [hmatch]
      · simp [hzero, he]

/-- Only literals are accepted. -/
theorem spells_of_isWireDecimal (h : isWireDecimal s = true) : ∃ l, Spells s l := by
  unfold isWireDecimal at h
  cases hre : decimalRe.rmatch s.toList with
  | false =>
      rw [hre] at h
      cases h
  | true =>
      obtain ⟨l, hwell, htext⟩ := decimalRe_rmatch.mp hre
      exact ⟨l, hwell, htext⟩

/-- An accepted text is one the library keeps exactly. -/
theorem newDecimal_of_isWireDecimal (hs : Spells s l) (h : isWireDecimal s = true) :
    newDecimal s = some (num l.value) := by
  have hclamp : clamp (num l.value) = num l.value := by
    by_cases hzero : l.value = 0
    · rw [hzero]
      rfl
    · rcases (isWireDecimal_of_spells hs).mp h with hzeros | he
      · exact absurd ((value_eq_zero hs.wellFormed).mpr hzeros) hzero
      · exact clamp_eq hzero ((abs_exponentOf_le hzero).mpr he)
  unfold newDecimal
  rw [hs.parse, Option.map_some, hclamp]

theorem parseDecimalString_eq (hs : Spells s l) (h : isWireDecimal s = true) :
    parseDecimalString s = some (num l.value).toFixed := by
  unfold parseDecimalString asDecimalString
  rw [if_pos h, newDecimal_of_isWireDecimal hs h]
  rfl

/-- What is printed spells the same number, and is accepted again. -/
theorem spells_toFixed (hs : Spells s l) :
    Spells (num l.value).toFixed (fixedLiteral l.value) ∧
      (fixedLiteral l.value).value = l.value := by
  refine ⟨⟨wellFormed_fixedLiteral _, ?_⟩, value_fixedLiteral (parse_terminating hs.parse)⟩
  rw [toFixed_eq, String.toList_ofList]

theorem isWireDecimal_toFixed (hs : Spells s l) (h : isWireDecimal s = true) :
    isWireDecimal (num l.value).toFixed = true := by
  obtain ⟨hprinted, hvalue⟩ := spells_toFixed hs
  rw [isWireDecimal_of_spells hs, ← value_eq_zero hs.wellFormed] at h
  rw [isWireDecimal_of_spells hprinted, ← value_eq_zero hprinted.wellFormed, hvalue]
  exact h

/-- The schema accepts exactly the literals of zero and of a bounded exponent, prints each in plain
notation as the same number and its own output unchanged; the positive schema accepts those above
zero, with the same output. -/
theorem wire_decimals_normalise_once (s : String) :
    ((parseDecimalString s).isSome = true ↔
      ∃ l, Spells s l ∧ ((l.value = 0 ∧ ∀ c ∈ l.mantissa, c = '0') ∨
        ∃ e, LeadingExponent l.value e ∧ -308 ≤ e ∧ e ≤ 308)) ∧
    (∀ t, parseDecimalString s = some t →
      (∃ l l', Spells s l ∧ Spells t l' ∧ l'.exponent = none ∧ l'.value = l.value) ∧
        parseDecimalString t = some t) ∧
    ∀ t, parsePositiveDecimalString s = some t ↔
      parseDecimalString s = some t ∧ ∃ l, Spells s l ∧ 0 < l.value := by
  have haccepts : (parseDecimalString s).isSome = true ↔ isWireDecimal s = true := by
    constructor
    · intro hsome
      by_contra hrefused
      unfold parseDecimalString at hsome
      rw [if_neg hrefused] at hsome
      cases hsome
    · intro h
      obtain ⟨l, hs⟩ := spells_of_isWireDecimal h
      rw [parseDecimalString_eq hs h]
      rfl
  refine ⟨haccepts.trans ?_, ?_, ?_⟩
  · constructor
    · intro h
      obtain ⟨l, hs⟩ := spells_of_isWireDecimal h
      refine ⟨l, hs, ?_⟩
      rcases (isWireDecimal_of_spells hs).mp h with hzeros | ⟨e, hleading, he⟩
      · exact .inl ⟨(value_eq_zero hs.wellFormed).mpr hzeros, hzeros⟩
      · exact .inr ⟨e, hleading, abs_le.mp he⟩
    · rintro ⟨l, hs, ⟨-, hzeros⟩ | ⟨e, hleading, he⟩⟩
      · exact (isWireDecimal_of_spells hs).mpr (.inl hzeros)
      · exact (isWireDecimal_of_spells hs).mpr (.inr ⟨e, hleading, abs_le.mpr he⟩)
  · intro t ht
    have h : isWireDecimal s = true := haccepts.mp (by rw [ht]; rfl)
    obtain ⟨l, hs⟩ := spells_of_isWireDecimal h
    obtain rfl := Option.some.inj ((parseDecimalString_eq hs h).symm.trans ht)
    obtain ⟨hprinted, hvalue⟩ := spells_toFixed hs
    refine ⟨⟨l, _, hs, hprinted, rfl, hvalue⟩, ?_⟩
    rw [parseDecimalString_eq hprinted (isWireDecimal_toFixed hs h), hvalue]
  · intro t
    by_cases h : isWireDecimal s = true
    · obtain ⟨l, hs⟩ := spells_of_isWireDecimal h
      have hpositive : (∃ l', Spells s l' ∧ 0 < l'.value) ↔ 0 < l.value := by
        constructor
        · rintro ⟨l', hs', hpos⟩
          have hsame := hs'.parse.symm.trans hs.parse
          rw [← Decimal.num.inj (Option.some.inj hsame)]
          exact hpos
        · exact fun hpos => ⟨l, hs, hpos⟩
      unfold parsePositiveDecimalString parseDecimalString
      rw [hpositive, h, newDecimal_of_isWireDecimal hs h]
      by_cases hpos : 0 < l.value
      · simp [hpos]
      · simp [hpos]
    · unfold parsePositiveDecimalString parseDecimalString
      simp [h]

example : parseDecimalString "+1.10e-3" = some "0.0011" := by decide +kernel

end Schemas

end TradingBot.Contracts
