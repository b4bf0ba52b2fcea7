import Mathlib.Data.Set.Card
import Mathlib.Data.Set.Finite.Lattice
import Mathlib.Order.Interval.Set.Nat
import TradingBot.Core.Contract
import TradingBot.Lib.Json

/-!
# Fingerprints of a config

A config is written as canonical text and hashed twice, the second time with a
salt behind the text. The hash reads a text from its front, so the salted pass
starts from where the first one ended.
-/

namespace TradingBot

open InsertionMap Json

/-- The order of `Array.prototype.sort` on texts. -/
def KeyOrder (a b : String × Json) : Prop := charCodes a.1 ≤ charCodes b.1

instance : DecidableRel KeyOrder := fun a b =>
  inferInstanceAs (Decidable (charCodes a.1 ≤ charCodes b.1))

/-- Properties written one after the other; this key sets the prototype and no property. -/
def assignFields (fields : List (String × Json)) : List (String × Json) :=
  fields.foldl
    (fun out field => if field.1 = "__proto__" then out else setField field.1 field.2 out) []

mutual

/-- Recursively sort object keys. -/
def canonical : Json → Json
  | .arr items => .arr (canonicalItems items)
  | .obj fields => .obj (assignFields ((canonicalFields fields).insertionSort KeyOrder))
  | value => value

def canonicalItems : List Json → List Json
  | [] => []
  | item :: rest => canonical item :: canonicalItems rest

def canonicalFields : List (String × Json) → List (String × Json)
  | [] => []
  | (key, value) :: rest => (key, canonical value) :: canonicalFields rest

end

/-- Two passes over a text, the second with the salt behind it. -/
def saltedDigest (salt json : String) : String := djb2Hex json ++ djb2Hex (json ++ salt)

def configFingerprint (config : Json) : Option String :=
  (stringify (canonical config)).map (saltedDigest "fingerprint")

structure BacktestSignatureInput where
  strategyId : String
  config : Json
  market : List (String × Json)

/-- Revision of the replay semantics. -/
def backtestEngineRevision : ℚ := 2

def backtestSignature (input : BacktestSignatureInput) : Option String :=
  (stringify (canonical (.obj [("engine", .num backtestEngineRevision),
    ("strategyId", .str input.strategyId), ("config", input.config),
    ("market", .obj input.market)]))).map (saltedDigest "backtest-signature")

/-! ### The hash -/

section Hash

theorem charCodes_append (a b : String) : charCodes (a ++ b) = charCodes a ++ charCodes b := by
  simp [charCodes]

/-- The hash goes on from where it stands. -/
theorem djb2_append (codes rest : List ℕ) :
    djb2 (codes ++ rest) = rest.foldl (fun h c => (h * 33 + c) % 2 ^ 32) (djb2 codes) :=
  List.foldl_append

theorem djb2_lt (codes : List ℕ) : djb2 codes < 2 ^ 32 := by
  induction codes using List.reverseRecOn with
  | nil => decide
  | append_singleton codes c _ =>
      rw [djb2_append]
      exact Nat.mod_lt _ (by decide)

/-- The number that hexadecimal digits denote. -/
def hexValue (digits : List Char) : ℕ :=
  digits.foldl (fun n c => n * 16 + (Decimal.digitValue 16 c).getD 0) 0

theorem hexValue_zeros (k : ℕ) (digits : List Char) :
    hexValue (List.replicate k '0' ++ digits) = hexValue digits := by
  induction k with
  | zero => rfl
  | succ k ih => exact ih

theorem digitValue_digitChar {d : ℕ} (hd : d < 16) :
    (Decimal.digitValue 16 (Nat.digitChar d)).getD 0 = d := by
  have hall : ∀ d < 16, (Decimal.digitValue 16 (Nat.digitChar d)).getD 0 = d := by decide
  exact hall d hd

theorem hexValue_toDigits (n : ℕ) : hexValue (Nat.toDigits 16 n) = n := by
  induction n using Nat.strong_induction_on with
  | _ n ih =>
      by_cases hsmall : n < 16
      · rw [Nat.toDigits_of_lt_base hsmall, hexValue, List.foldl_cons, List.foldl_nil, zero_mul,
          zero_add, digitValue_digitChar hsmall]
      · have hbig : 16 ≤ n := Nat.le_of_not_lt hsmall
        rw [Nat.toDigits_of_base_le (by decide) hbig, hexValue, List.foldl_append, ← hexValue,
          ih (n / 16) (Nat.div_lt_self (by omega) (by decide)), List.foldl_cons, List.foldl_nil,
          digitValue_digitChar (Nat.mod_lt _ (by decide))]
        exact Nat.div_add_mod' n 16

/-- The digits tell the hash. -/
theorem djb2_eq_of_djb2Hex {a b : String} (h : djb2Hex a = djb2Hex b) :
    djb2 (charCodes a) = djb2 (charCodes b) := by
  have hvalue := congrArg (fun text : String => hexValue text.toList) h
  simpa [djb2Hex, hexValue_zeros, hexValue_toDigits] using hvalue

theorem djb2Hex_length (text : String) : (djb2Hex text).length = 8 := by
  have hle : (Nat.toDigits 16 (djb2 (charCodes text))).length ≤ 8 :=
    (Nat.length_toDigits_le_iff (by decide) (by decide)).mpr (djb2_lt _)
  simp [djb2Hex]
  omega

/-- Texts that the first pass does not tell apart. -/
theorem saltedDigest_congr {salt a b : String} (h : djb2Hex a = djb2Hex b) :
    saltedDigest salt a = saltedDigest salt b := by
  have hsalted : djb2Hex (a ++ salt) = djb2Hex (b ++ salt) := by
    rw [djb2Hex, djb2Hex, charCodes_append, charCodes_append, djb2_append, djb2_append,
      djb2_eq_of_djb2Hex h]
  rw [saltedDigest, saltedDigest, h, hsalted]

/-- The first eight digits of a digest are those of the first pass. -/
theorem take_saltedDigest (salt text : String) :
    (saltedDigest salt text).toList.take 8 = (djb2Hex text).toList := by
  rw [saltedDigest, String.toList_append,
    List.take_left' (String.length_toList.trans (djb2Hex_length text))]

/-- However many texts, the digests are no more than the values of the first pass. -/
theorem encard_range_saltedDigest (salt : String) :
    (Set.range (saltedDigest salt)).encard ≤ 2 ^ 32 := by
  -- a digest is recovered from the hash of any text that has it
  let digest : ℕ → String := fun hash =>
    let digits := Nat.toDigits 16 hash
    let salted := Nat.toDigits 16
      ((charCodes salt).foldl (fun h c => (h * 33 + c) % 2 ^ 32) hash)
    String.ofList (List.replicate (8 - digits.length) '0' ++ digits) ++
      String.ofList (List.replicate (8 - salted.length) '0' ++ salted)
  have hrange : Set.range (saltedDigest salt) ⊆ digest '' Set.Iio (2 ^ 32) := by
    rintro _ ⟨text, rfl⟩
    refine ⟨djb2 (charCodes text), djb2_lt _, ?_⟩
    rw [saltedDigest, djb2Hex, djb2Hex, charCodes_append, djb2_append]
  calc (Set.range (saltedDigest salt)).encard
      ≤ (digest '' Set.Iio (2 ^ 32)).encard := Set.encard_le_encard hrange
    _ ≤ (Set.Iio (2 ^ 32 : ℕ)).encard := Set.encard_image_le _ _
    _ = 2 ^ 32 := by
        rw [Set.encard_eq_coe_toFinset_card, Set.toFinset_Iio, Nat.card_Iio]
        rfl

theorem encard_digests {ι : Type} {salt : String} {sign : ι → Option String}
    (hsign : ∀ input, ∃ text : Option String, sign input = text.map (saltedDigest salt)) :
    {digest | ∃ input, sign input = some digest}.encard ≤ 2 ^ 32 := by
  refine (Set.encard_le_encard ?_).trans (encard_range_saltedDigest salt)
  rintro digest ⟨input, hdigest⟩
  obtain ⟨text, htext⟩ := hsign input
  rw [htext] at hdigest
  obtain ⟨text, -, rfl⟩ := Option.map_eq_some_iff.mp hdigest
  exact ⟨text, rfl⟩

end Hash

/--
The digests of all texts, so of all configs and of all backtests, are at most as
many as the values of one pass, and where two agree in their first eight digits
they agree in all sixteen.
-/
theorem digest_carries_one_pass (salt : String) :
    (Set.range (saltedDigest salt)).encard ≤ 2 ^ 32 ∧
    {digest | ∃ config, configFingerprint config = some digest}.encard ≤ 2 ^ 32 ∧
    {digest | ∃ input, backtestSignature input = some digest}.encard ≤ 2 ^ 32 ∧
    ∀ a b, (saltedDigest salt a).toList.take 8 = (saltedDigest salt b).toList.take 8 →
      saltedDigest salt a = saltedDigest salt b := by
  refine ⟨encard_range_saltedDigest salt, ?_, ?_, fun a b hfirst => ?_⟩
  · exact encard_digests fun _ => ⟨_, rfl⟩
  · exact encard_digests fun _ => ⟨_, rfl⟩
  · rw [take_saltedDigest, take_saltedDigest] at hfirst
    exact saltedDigest_congr (String.toList_inj.mp hfirst)

/-- Two configs that collide in the first pass collide in the fingerprint. -/
theorem fingerprint_collides :
    configFingerprint (.str "ab") = some "7c715dccf6b7b274" ∧
      configFingerprint (.str "bA") = some "7c715dccf6b7b274" ∧
      ¬ 2 ^ 32 < {digest | ∃ config, configFingerprint config = some digest}.encard := by
  exact ⟨by decide +kernel, by decide +kernel,
    not_lt.mpr (encard_digests fun _ => ⟨_, rfl⟩)⟩

end TradingBot
