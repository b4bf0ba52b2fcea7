import TradingBot.Lib.Grid

/-!
# Decimal text

Wire formats and stored records carry decimals as text. `parse` is the grammar
the decimal library accepts: an optionally signed decimal literal with an
optional exponent, digit separators, the spelled-out non-finite values, and the
radix-prefixed literals. Whatever it accepts as a finite number has a finite
decimal expansion (`parse_terminating`).

`DecimalString` is the type of a text that a program reads as a decimal: either
text from outside, or text the program printed itself, which is kept as the
number that was printed because the library reads its own output back exactly.
-/

namespace Decimal

/-! ### Reading -/

def digitValue (radix : ℕ) (c : Char) : Option ℕ :=
  let v :=
    if '0' ≤ c ∧ c ≤ '9' then some (c.toNat - '0'.toNat)
    else if 'a' ≤ c ∧ c ≤ 'f' then some (c.toNat - 'a'.toNat + 10)
    else if 'A' ≤ c ∧ c ≤ 'F' then some (c.toNat - 'A'.toNat + 10)
    else none
  v.filter (· < radix)

/-- The longest run of digits at the head of a text, and what follows it. -/
def takeDigits (radix : ℕ) : List Char → List ℕ × List Char
  | [] => ([], [])
  | c :: cs =>
      match digitValue radix c with
      | none => ([], c :: cs)
      | some d => let (ds, rest) := takeDigits radix cs; (d :: ds, rest)

def digitsValue (radix : ℕ) (ds : List ℕ) : ℕ := ds.foldl (fun acc d => acc * radix + d) 0

/-- An exponent: nothing, or the mark followed by an optional sign and digits. -/
def parseExponent (mark : Char) : List Char → Option ℤ
  | [] => some 0
  | c :: cs =>
      if c.toLower ≠ mark then none
      else
        let (negative, digits) :=
          match cs with
          | '-' :: ds => (true, ds)
          | '+' :: ds => (false, ds)
          | ds => (false, ds)
        match takeDigits 10 digits with
        | ([], _) => none
        | (ds, []) => some (if negative then -(digitsValue 10 ds : ℤ) else digitsValue 10 ds)
        | (_, _ :: _) => none

/-- The digits after a point, if there is one. -/
def takeFraction (radix : ℕ) : List Char → List ℕ × List Char
  | '.' :: rest => takeDigits radix rest
  | rest => ([], rest)

/-- A mantissa in `radix` followed by a power of `base` after the exponent mark. -/
def parseLiteral (radix base : ℕ) (mark : Char) (cs : List Char) : Option ℚ :=
  let (whole, rest) := takeDigits radix cs
  let (fraction, rest) := takeFraction radix rest
  if whole = [] ∧ fraction = [] then none
  else
    (parseExponent mark rest).map fun e =>
      (digitsValue radix (whole ++ fraction) : ℚ) / radix ^ fraction.length * (base : ℚ) ^ e

/-- Drop every separator that stands between two digits. -/
def dropSeparators : List Char → List Char
  | c :: '_' :: d :: cs =>
      if c.isDigit ∧ d.isDigit then c :: dropSeparators (d :: cs)
      else c :: dropSeparators ('_' :: d :: cs)
  | c :: cs => c :: dropSeparators cs
  | [] => []

def parseRadixed : List Char → Option ℚ
  | '0' :: 'x' :: cs => parseLiteral 16 2 'p' cs
  | '0' :: 'X' :: cs => parseLiteral 16 2 'p' cs
  | '0' :: 'b' :: cs => parseLiteral 2 2 'p' cs
  | '0' :: 'B' :: cs => parseLiteral 2 2 'p' cs
  | '0' :: 'o' :: cs => parseLiteral 8 2 'p' cs
  | '0' :: 'O' :: cs => parseLiteral 8 2 'p' cs
  | _ => none

/-- A text without its sign. -/
def parseUnsigned (cs : List Char) : Option Decimal :=
  if cs = "Infinity".toList then some (inf false)
  else if cs = "NaN".toList then some nan
  else
    ((parseLiteral 10 10 'e' (dropSeparators cs)).or (parseRadixed cs)).map num

/-- The number a text denotes, or `none` where the library throws. -/
def parse (s : String) : Option Decimal :=
  match s.toList with
  | '-' :: cs => (parseUnsigned cs).map neg
  | '+' :: cs => parseUnsigned cs
  | cs => parseUnsigned cs

/-! ### What is read has a finite decimal expansion -/

section Terminating

open Grid

variable {q : ℚ}

theorem terminating_div_pow {r : ℕ} (hr : ∃ m : ℕ, r * m = 10 ^ 4) (k : ℕ) :
    Terminating (1 / (r : ℚ) ^ k) := by
  obtain ⟨m, hm⟩ := hr
  have hr0 : (r : ℚ) ≠ 0 := by
    rintro h
    rw [Nat.cast_eq_zero] at h
    simp [h] at hm
  refine ⟨4 * k, (m : ℤ) ^ k, ?_⟩
  have hm' : (10 : ℚ) ^ (4 * k) = (r * m) ^ k := by
    rw [pow_mul]
    congr 1
    exact_mod_cast hm.symm
  rw [hm', mul_pow]
  push_cast
  field_simp

theorem terminating_zpow {r : ℕ} (hr : ∃ m : ℕ, r * m = 10 ^ 4) (e : ℤ) :
    Terminating ((r : ℚ) ^ e) := by
  cases e with
  | ofNat n =>
      have := terminating_intCast ((r : ℤ) ^ n)
      simpa using this
  | negSucc n =>
      have := terminating_div_pow hr (n + 1)
      simpa [zpow_negSucc, one_div] using this

theorem parseLiteral_terminating {radix base : ℕ} {mark : Char} {cs : List Char}
    (hradix : ∃ m : ℕ, radix * m = 10 ^ 4) (hbase : ∃ m : ℕ, base * m = 10 ^ 4)
    (h : parseLiteral radix base mark cs = some q) : Terminating q := by
  simp only [parseLiteral] at h
  split at h
  · simp at h
  · obtain ⟨e, -, rfl⟩ := Option.map_eq_some_iff.mp h
    rw [div_eq_mul_one_div]
    refine terminating_mul (terminating_mul ?_ (terminating_div_pow hradix _))
      (terminating_zpow hbase e)
    exact_mod_cast terminating_intCast _

theorem parseRadixed_terminating {cs : List Char} (h : parseRadixed cs = some q) :
    Terminating q := by
  have h2 : ∃ m : ℕ, 2 * m = 10 ^ 4 := ⟨5000, by norm_num⟩
  have h8 : ∃ m : ℕ, 8 * m = 10 ^ 4 := ⟨1250, by norm_num⟩
  have h16 : ∃ m : ℕ, 16 * m = 10 ^ 4 := ⟨625, by norm_num⟩
  unfold parseRadixed at h
  split at h
  · exact parseLiteral_terminating h16 h2 h
  · exact parseLiteral_terminating h16 h2 h
  · exact parseLiteral_terminating h2 h2 h
  · exact parseLiteral_terminating h2 h2 h
  · exact parseLiteral_terminating h8 h2 h
  · exact parseLiteral_terminating h8 h2 h
  · simp at h

theorem parseUnsigned_terminating {cs : List Char} (h : parseUnsigned cs = some (num q)) :
    Terminating q := by
  have h10 : ∃ m : ℕ, 10 * m = 10 ^ 4 := ⟨1000, by norm_num⟩
  unfold parseUnsigned at h
  split at h
  · simp at h
  · split at h
    · simp at h
    · obtain ⟨r, hr, hrq⟩ := Option.map_eq_some_iff.mp h
      obtain rfl : r = q := by simpa using hrq
      rcases Option.or_eq_some_iff.mp hr with hlit | ⟨-, hrad⟩
      · exact parseLiteral_terminating h10 h10 hlit
      · exact parseRadixed_terminating hrad

/-- Every finite number a text denotes has a finite decimal expansion. -/
theorem parse_terminating {s : String} (h : parse s = some (num q)) : Terminating q := by
  unfold parse at h
  split at h
  · obtain ⟨x, hx, hneg⟩ := Option.map_eq_some_iff.mp h
    cases x with
    | nan => simp [neg] at hneg
    | inf t => simp [neg] at hneg
    | num r =>
        obtain rfl : -r = q := by simpa using hneg
        have := terminating_mul (terminating_intCast (-1)) (parseUnsigned_terminating hx)
        simpa using this
  · exact parseUnsigned_terminating h
  · exact parseUnsigned_terminating h

end Terminating

/-! ### Printing -/

/-- Digits with a decimal point before the last `places` of them. -/
def pointed (digits : List Char) (places : ℕ) : List Char :=
  if places = 0 then digits
  else
    let padded := List.replicate (places + 1 - digits.length) '0' ++ digits
    padded.take (padded.length - places) ++ '.' :: padded.drop (padded.length - places)

/-- The plain rendering of a non-negative rational with the given decimal places. -/
def plainDigits (q : ℚ) (places : ℕ) : List Char :=
  pointed (Nat.toDigits 10 ⌊q * 10 ^ places⌋.toNat) places

/-- The scientific rendering: one digit, the rest after a point, and the exponent. -/
def scientific (digits : List Char) (exponent : ℤ) : List Char :=
  let significant := (digits.reverse.dropWhile (· == '0')).reverse
  let mantissa :=
    match significant with
    | [] => ['0']
    | [d] => [d]
    | d :: ds => d :: '.' :: ds
  mantissa ++ 'e' :: (if exponent < 0 then '-' else '+') :: Nat.toDigits 10 exponent.natAbs

/--
The library's text of a number: plain notation, or scientific notation from
`1e-7` down and from `1e+21` up.
-/
def toText : Decimal → String
  | nan => "NaN"
  | inf s => if s then "-Infinity" else "Infinity"
  | num q =>
      let places := (num q).decimalPlaces
      let digits := Nat.toDigits 10 ⌊|q| * 10 ^ places⌋.toNat
      let exponent : ℤ := (digits.length : ℤ) - 1 - places
      let body :=
        if q ≠ 0 ∧ (exponent ≤ -7 ∨ 21 ≤ exponent) then scientific digits exponent
        else plainDigits |q| places
      String.ofList (if q < 0 then '-' :: body else body)

/-- The text of a number in plain notation. -/
def toFixed : Decimal → String
  | num q =>
      let body := plainDigits |q| (num q).decimalPlaces
      String.ofList (if q < 0 then '-' :: body else body)
  | x => x.toText

end Decimal

/-- A text that is read as a decimal: text from outside, or a number the program printed. -/
inductive DecimalString where
  | raw (text : String)
  | printed (value : Decimal)
deriving DecidableEq

namespace DecimalString

/-- The number the text denotes, or `none` where the library throws. -/
def toDecimal : DecimalString → Option Decimal
  | raw s => Decimal.parse s
  | printed d => some d

def text : DecimalString → String
  | raw s => s
  | printed d => d.toText

def isEmpty : DecimalString → Bool
  | raw s => s == ""
  | printed _ => false

@[simp] theorem toDecimal_raw (s : String) : (raw s).toDecimal = Decimal.parse s := rfl
@[simp] theorem toDecimal_printed (d : Decimal) : (printed d).toDecimal = some d := rfl

theorem toDecimal_of_isEmpty {s : DecimalString} (h : s.isEmpty = true) : s.toDecimal = none := by
  cases s with
  | printed d => cases h
  | raw text =>
      rw [toDecimal_raw, eq_of_beq h]
      decide +kernel

instance : Coe String DecimalString := ⟨raw⟩

end DecimalString
