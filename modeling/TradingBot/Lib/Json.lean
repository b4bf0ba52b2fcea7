import TradingBot.Lib.DecimalText
import TradingBot.Lib.InsertionMap

/-!
# Values of JSON

The values a program reads from JSON and writes back, with the rules that
JavaScript has for them: an object enumerates its array-index keys first and the
others as they came in, and a place that was never written reads as undefined.
A number is the one its shortest decimal text denotes.
-/

/-- A value; the fields of an object stand in the order they are enumerated. -/
inductive Json where
  | undefined
  | null
  | bool (value : Bool)
  | num (value : ℚ)
  | str (value : String)
  | arr (items : List Json)
  | obj (fields : List (String × Json))

namespace Json

open InsertionMap

/-! ### Keys -/

/-- The number that a text of digits alone denotes. -/
def digitsIndex (key : String) : Option ℕ :=
  if key.toList ≠ [] ∧ key.toList.all Char.isDigit then
    some (key.toList.foldl (fun n c => n * 10 + (c.toNat - '0'.toNat)) 0)
  else none

/-- One more than the largest array index. -/
def arrayBound : ℕ := 2 ^ 32 - 1

/-- The array index that a key is the text of. -/
def arrayIndex (key : String) : Option ℕ :=
  (digitsIndex key).filter fun n => n < arrayBound ∧ toString n = key

/-- Writing a property: in place, or where its key is enumerated. -/
def setField (key : String) (value : Json) (fields : List (String × Json)) :
    List (String × Json) :=
  if key ∈ keys fields then set key value fields
  else match arrayIndex key with
    | none => fields ++ [(key, value)]
    | some index =>
        let earlier := fields.takeWhile fun field => (arrayIndex field.1).any (· < index)
        earlier ++ (key, value) :: fields.drop earlier.length

/-- Writing an element; between the end of the array and the element nothing is written. -/
def setItem (index : ℕ) (value : Json) (items : List Json) : List Json :=
  if index < items.length then items.set index value
  else if index < arrayBound then
    items ++ List.replicate (index - items.length) .undefined ++ [value]
  else items

/-! ### Text -/

/-- Four hexadecimal digits. -/
def hex4 (n : ℕ) : List Char :=
  let digits := Nat.toDigits 16 n
  List.replicate (4 - digits.length) '0' ++ digits

def quoteMark : Char := Char.ofNat 34

def backslash : Char := Char.ofNat 92

def escapeChar (c : Char) : List Char :=
  if c = quoteMark ∨ c = backslash then [backslash, c]
  else if c.toNat = 8 then [backslash, 'b']
  else if c.toNat = 9 then [backslash, 't']
  else if c.toNat = 10 then [backslash, 'n']
  else if c.toNat = 12 then [backslash, 'f']
  else if c.toNat = 13 then [backslash, 'r']
  else if c.toNat < 32 then backslash :: 'u' :: hex4 c.toNat
  else [c]

def quote (s : String) : String :=
  String.ofList (quoteMark :: s.toList.flatMap escapeChar ++ [quoteMark])

def numberText (q : ℚ) : String := (Decimal.num q).toText

mutual

/-- `JSON.stringify`; undefined has no text. -/
def stringify : Json → Option String
  | .undefined => none
  | .null => some "null"
  | .bool value => some (if value then "true" else "false")
  | .num value => some (numberText value)
  | .str value => some (quote value)
  | .arr items => some ("[" ++ String.intercalate "," (itemTexts items) ++ "]")
  | .obj fields => some ("\x7b" ++ String.intercalate "," (fieldTexts fields) ++ "\x7d")

def itemTexts : List Json → List String
  | [] => []
  | item :: rest => (stringify item).getD "null" :: itemTexts rest

def fieldTexts : List (String × Json) → List String
  | [] => []
  | (key, value) :: rest =>
      match stringify value with
      | none => fieldTexts rest
      | some text => (quote key ++ ":" ++ text) :: fieldTexts rest

end

/-! ### Structure -/

theorem induction {P : Json → Prop} (undefined : P .undefined) (null : P .null)
    (bool : ∀ value, P (.bool value)) (num : ∀ value, P (.num value))
    (str : ∀ value, P (.str value)) (arr : ∀ items, (∀ item ∈ items, P item) → P (.arr items))
    (obj : ∀ fields, (∀ field ∈ fields, P field.2) → P (.obj fields)) (value : Json) : P value :=
  @Json.rec P (fun items => ∀ item ∈ items, P item) (fun fields => ∀ field ∈ fields, P field.2)
    (fun field => P field.2) undefined null bool num str arr obj (by simp)
    (fun _ _ hhead htail => List.forall_mem_cons.mpr ⟨hhead, htail⟩) (by simp)
    (fun _ _ hhead htail => List.forall_mem_cons.mpr ⟨hhead, htail⟩)
    (fun _ _ hvalue => hvalue) value

mutual

/-- A value that JSON has a text for: nothing undefined, and no key twice. -/
def Proper : Json → Prop
  | .undefined => False
  | .null | .bool _ | .num _ | .str _ => True
  | .arr items => ProperItems items
  | .obj fields => (keys fields).Nodup ∧ ProperFields fields

def ProperItems : List Json → Prop
  | [] => True
  | item :: rest => item.Proper ∧ ProperItems rest

def ProperFields : List (String × Json) → Prop
  | [] => True
  | (_, value) :: rest => value.Proper ∧ ProperFields rest

end

theorem ProperFields.mem {fields : List (String × Json)} (h : ProperFields fields)
    {field : String × Json} (hfield : field ∈ fields) : field.2.Proper := by
  induction fields with
  | nil => cases hfield
  | cons first rest ih =>
      rcases List.mem_cons.mp hfield with rfl | hrest
      · exact h.1
      · exact ih h.2 hrest

/-- One step into a value. -/
inductive Step where
  | field (key : String)
  | item (index : ℕ)

/-- What one step leads to. -/
def child : Json → Step → Option Json
  | .obj fields, .field key => get key fields
  | .arr items, .item index => items[index]?
  | _, _ => none

/-- What stands at a path. -/
def read (value : Json) : List Step → Option Json
  | [] => some value
  | step :: rest => (value.child step).bind fun held => held.read rest

/-! ### Writing and reading -/

section Fields

variable {fields : List (String × Json)} {key other : String} {value : Json}

theorem get_append_of_not_mem {m₁ m₂ : List (String × Json)} (h : key ∉ keys m₁) :
    get key (m₁ ++ m₂) = get key m₂ := by
  induction m₁ with
  | nil => rfl
  | cons first rest ih =>
      simp only [keys, List.map_cons, List.mem_cons, not_or] at h
      rw [List.cons_append, InsertionMap.get, if_neg (Ne.symm h.1), ih h.2]

theorem get_append_of_mem {m₁ m₂ : List (String × Json)} (h : key ∈ keys m₁) :
    get key (m₁ ++ m₂) = get key m₁ := by
  induction m₁ with
  | nil => cases h
  | cons first rest ih =>
      rw [List.cons_append, InsertionMap.get, InsertionMap.get]
      split
      · rfl
      · next hfirst => exact ih ((List.mem_cons.mp h).resolve_left (Ne.symm hfirst))

theorem get_insert (front back : List (String × Json)) (hkey : key ∉ keys (front ++ back)) :
    get key (front ++ (key, value) :: back) = some value ∧
      ∀ other ≠ key, get other (front ++ (key, value) :: back) = get other (front ++ back) := by
  have hfront : key ∉ keys front := fun hmem =>
    hkey (by rw [keys, List.map_append]; exact List.mem_append_left _ hmem)
  refine ⟨?_, fun other hother => ?_⟩
  · rw [get_append_of_not_mem hfront, InsertionMap.get, if_pos rfl]
  · by_cases hmem : other ∈ keys front
    · rw [get_append_of_mem hmem, get_append_of_mem hmem]
    · rw [get_append_of_not_mem hmem, get_append_of_not_mem hmem, InsertionMap.get,
        if_neg hother.symm]

theorem get_setField :
    get key (setField key value fields) = some value ∧
      ∀ other ≠ key, get other (setField key value fields) = get other fields := by
  rw [setField]
  split
  · exact ⟨get_set_self, fun other hother => get_set_other hother⟩
  · next hnot =>
      split
      · simpa using @get_insert key value fields [] (by simpa using hnot)
      · next index _ =>
          dsimp only
          set earlier := fields.takeWhile fun field => (arrayIndex field.1).any (· < index)
          have hsplit : earlier ++ fields.drop earlier.length = fields :=
            List.prefix_iff_eq_append.mp (List.takeWhile_prefix _)
          have hinsert := @get_insert key value earlier (fields.drop earlier.length)
            (by rw [hsplit]; exact hnot)
          rw [hsplit] at hinsert
          exact hinsert

/-- Writing what is there changes nothing. -/
theorem setField_of_get (h : get key fields = some value) : setField key value fields = fields := by
  rw [setField, if_pos (mem_keys_of_get h)]
  induction fields with
  | nil => cases h
  | cons first rest ih =>
      rw [InsertionMap.get] at h
      rw [InsertionMap.set]
      split at h
      · next hfirst =>
          cases h
          rw [if_pos hfirst, ← hfirst]
      · next hfirst => rw [if_neg hfirst, ih h]

end Fields

section Items

variable {items : List Json} {index other : ℕ} {value : Json}

theorem setItem_of_getElem? (h : items[index]? = some value) :
    setItem index value items = items := by
  obtain ⟨hlt, rfl⟩ := List.getElem?_eq_some_iff.mp h
  rw [setItem, if_pos hlt, List.set_getElem_self]

theorem getElem?_setItem_self (h : index < items.length ∨ index < arrayBound) :
    (setItem index value items)[index]? = some value := by
  rw [setItem]
  split
  · next hlt => exact List.getElem?_set_self hlt
  · next hge =>
      rw [if_pos (h.resolve_left hge)]
      have hlength : (items ++ List.replicate (index - items.length) Json.undefined).length =
          index := by
        rw [List.length_append, List.length_replicate]
        omega
      rw [List.getElem?_append_right hlength.le, hlength, Nat.sub_self]
      rfl

theorem getElem?_setItem_other (hother : other ≠ index) {held : Json}
    (h : items[other]? = some held) : (setItem index value items)[other]? = some held := by
  have hlt : other < items.length := (List.getElem?_eq_some_iff.mp h).1
  rw [setItem]
  split
  · rw [List.getElem?_set_ne (Ne.symm hother)]
    exact h
  · split
    · rw [List.append_assoc, List.getElem?_append_left hlt]
      exact h
    · exact h

end Items

end Json
