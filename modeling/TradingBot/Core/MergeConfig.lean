import TradingBot.Core.ConfigFingerprint

/-!
# Overlaying a config

An override is laid over a base: object onto object key by key, an object of
positions onto an array element by element, and anything else in place of what
is there. Null inherits.
-/

namespace TradingBot

open InsertionMap Json

/-- Keys that index the prototype chain; never copied from an override. -/
def unsafeMergeKeys : List String := ["__proto__", "constructor", "prototype"]

/-- The other keys that an object answers to without owning them. -/
def inheritedKeys : List String :=
  ["toString", "toLocaleString", "valueOf", "hasOwnProperty", "isPrototypeOf",
    "propertyIsEnumerable", "__defineGetter__", "__defineSetter__", "__lookupGetter__",
    "__lookupSetter__"]

/-- `key in base ? base[key]`; a function it inherits has no text, as undefined has none. -/
def memberOf (key : String) (base : List (String × Json)) : Option Json :=
  (get key base).or (if key ∈ inheritedKeys then some .undefined else none)

/-- The keys are all positions, and there is one. -/
def hasOnlyIndexKeys (fields : List (String × Json)) : Bool :=
  !fields.isEmpty && fields.all fun field => (digitsIndex field.1).isSome

/-- `Number` of a key of digits. -/
def positionOf (key : String) : ℕ := (digitsIndex key).getD 0

mutual

def mergeConfig (base : Json) : Json → Json
  | .undefined | .null => base
  | .num value =>
      match base with
      | .str _ => .str (numberText value)
      | _ => .num value
  | .obj fields =>
      match base with
      | .arr items =>
          if hasOnlyIndexKeys fields then .arr (mergeItems items fields) else .obj fields
      | .obj own => .obj (mergeFields own own fields)
      | _ => .obj fields
  | .bool value => .bool value
  | .str value => .str value
  | .arr items => .arr items

/-- The override's fields onto the elements at their positions. -/
def mergeItems (out : List Json) : List (String × Json) → List Json
  | [] => out
  | (key, value) :: rest =>
      let merged :=
        match out[positionOf key]? with
        | some held => mergeConfig held value
        | none => value
      mergeItems (setItem (positionOf key) merged out) rest

/-- The override's fields onto those of the base. -/
def mergeFields (base out : List (String × Json)) : List (String × Json) → List (String × Json)
  | [] => out
  | (key, value) :: rest =>
      if key ∈ unsafeMergeKeys then mergeFields base out rest
      else
        let merged :=
          match memberOf key base with
          | some held => mergeConfig held value
          | none => value
        mergeFields base (setField key merged out) rest

end

/-! ### What a merge writes -/

section Members

variable {base out fields own : List (String × Json)} {items : List Json} {key : String}
  {value : Json}

/-- What a key of an override becomes. -/
def mergeMember (base : List (String × Json)) (key : String) (value : Json) : Json :=
  match memberOf key base with
  | some held => mergeConfig held value
  | none => value

theorem mergeFields_cons_dropped (h : key ∈ unsafeMergeKeys) :
    mergeFields base out ((key, value) :: fields) = mergeFields base out fields := by
  rw [mergeFields, if_pos h]

theorem mergeFields_cons_safe (h : key ∉ unsafeMergeKeys) :
    mergeFields base out ((key, value) :: fields) =
      mergeFields base (setField key (mergeMember base key value) out) fields := by
  rw [mergeFields, if_neg h]
  rfl

/-- Keys that the override does not have, or may not set, stay. -/
theorem get_mergeFields_other (h : key ∉ keys fields ∨ key ∈ unsafeMergeKeys) :
    get key (mergeFields base out fields) = get key out := by
  induction fields generalizing out with
  | nil => rw [mergeFields]
  | cons field rest ih =>
      obtain ⟨first, value⟩ := field
      have hrest : key ∉ keys rest ∨ key ∈ unsafeMergeKeys :=
        h.imp_left fun hnot hmem => hnot (List.mem_cons_of_mem _ hmem)
      by_cases hunsafe : first ∈ unsafeMergeKeys
      · rw [mergeFields_cons_dropped hunsafe, ih hrest]
      · rw [mergeFields_cons_safe hunsafe, ih hrest]
        refine get_setField.2 key ?_
        rintro rfl
        exact h.elim (fun hnot => hnot List.mem_cons_self) hunsafe

/-- A key of the override is written once. -/
theorem get_mergeFields (hdistinct : (keys fields).Nodup) (hmem : (key, value) ∈ fields)
    (hsafe : key ∉ unsafeMergeKeys) :
    get key (mergeFields base out fields) = some (mergeMember base key value) := by
  induction fields generalizing out with
  | nil => cases hmem
  | cons field rest ih =>
      obtain ⟨first, held⟩ := field
      obtain ⟨hfirst, hrest⟩ := List.nodup_cons.mp hdistinct
      by_cases hunsafe : first ∈ unsafeMergeKeys
      · rw [mergeFields_cons_dropped hunsafe]
        rcases List.mem_cons.mp hmem with heq | hmem
        · cases heq
          exact absurd hunsafe hsafe
        · exact ih hrest hmem
      · rw [mergeFields_cons_safe hunsafe]
        rcases List.mem_cons.mp hmem with heq | hmem
        · cases heq
          rw [get_mergeFields_other (.inl hfirst)]
          exact get_setField.1
        · exact ih hrest hmem

/-- Merging what every key already holds changes nothing. -/
theorem mergeFields_fixed (h : ∀ field ∈ fields, field.1 ∉ unsafeMergeKeys →
      ∃ held, get field.1 own = some held ∧ mergeConfig held field.2 = held) :
    mergeFields own own fields = own := by
  induction fields with
  | nil => rw [mergeFields]
  | cons field rest ih =>
      obtain ⟨key, value⟩ := field
      have hrest := ih fun field hfield => h field (List.mem_cons_of_mem _ hfield)
      by_cases hunsafe : key ∈ unsafeMergeKeys
      · rw [mergeFields_cons_dropped hunsafe, hrest]
      · obtain ⟨held, hget, hheld⟩ := h (key, value) List.mem_cons_self hunsafe
        have hmember : mergeMember own key value = held := by
          rw [mergeMember, memberOf, hget]
          exact hheld
        rw [mergeFields_cons_safe hunsafe, hmember, setField_of_get hget, hrest]

end Members

/-! ### Merging again -/

/-- Laying a value over itself. -/
theorem mergeConfig_self {value : Json} (h : value.Proper) : mergeConfig value value = value := by
  induction value using Json.induction with
  | obj fields ih =>
      rw [mergeConfig]
      refine congrArg Json.obj (mergeFields_fixed fun field hfield _ => ⟨field.2, ?_, ?_⟩)
      · exact get_of_mem h.1 hfield
      · exact ih field hfield (h.2.mem hfield)
  | num value =>
      rw [mergeConfig]
      exact nofun
  | _ => rw [mergeConfig]

section Items

variable {fields : List (String × Json)} {out items : List Json} {index bound : ℕ} {held : Json}

theorem mergeItems_cons (key : String) (value : Json) :
    mergeItems out ((key, value) :: fields) = mergeItems (setItem (positionOf key)
      ((out[positionOf key]?.map fun held => mergeConfig held value).getD value) out) fields := by
  rw [mergeItems]
  cases out[positionOf key]? <;> rfl

theorem getElem?_mergeItems_other (h : ∀ field ∈ fields, positionOf field.1 ≠ index)
    (hheld : out[index]? = some held) : (mergeItems out fields)[index]? = some held := by
  induction fields generalizing out with
  | nil =>
      rw [mergeItems]
      exact hheld
  | cons field rest ih =>
      obtain ⟨key, value⟩ := field
      rw [mergeItems_cons]
      exact ih (fun field hfield => h field (List.mem_cons_of_mem _ hfield))
        (getElem?_setItem_other (h (key, value) List.mem_cons_self).symm hheld)

/-- No array grows past the largest index. -/
theorem length_mergeItems_le (hout : out.length ≤ bound) (hbound : arrayBound ≤ bound) :
    (mergeItems out fields).length ≤ bound := by
  induction fields generalizing out with
  | nil =>
      rw [mergeItems]
      exact hout
  | cons field rest ih =>
      obtain ⟨key, value⟩ := field
      rw [mergeItems_cons]
      refine ih ?_
      rw [setItem]
      split
      · rw [List.length_set]
        exact hout
      · split
        · simp only [List.length_append, List.length_replicate, List.length_singleton]
          omega
        · exact hout

/-- Every element that the override wrote is one that merging again leaves, or lies past the
largest index. -/
theorem mergeItems_settles
    (hagain : ∀ field ∈ fields, ∀ held,
      mergeConfig (mergeConfig held field.2) field.2 = mergeConfig held field.2)
    (hself : ∀ field ∈ fields, mergeConfig field.2 field.2 = field.2)
    (hdistinct : (fields.map fun field => positionOf field.1).Nodup) :
    ∀ field ∈ fields,
      (∃ held, (mergeItems out fields)[positionOf field.1]? = some held ∧
        mergeConfig held field.2 = held) ∨
      (arrayBound ≤ positionOf field.1 ∧
        (mergeItems out fields).length ≤ positionOf field.1) := by
  induction fields generalizing out with
  | nil => simp
  | cons first rest ih =>
      obtain ⟨key, value⟩ := first
      obtain ⟨hfirst, hrest⟩ := List.nodup_cons.mp hdistinct
      rw [mergeItems_cons]
      refine List.forall_mem_cons.mpr ⟨?_,
        ih (fun field hfield => hagain field (List.mem_cons_of_mem _ hfield))
          (fun field hfield => hself field (List.mem_cons_of_mem _ hfield)) hrest⟩
      set merged := (out[positionOf key]?.map fun held => mergeConfig held value).getD value
      have hmerged : mergeConfig merged value = merged := by
        cases hget : out[positionOf key]? with
        | some held => simpa [merged, hget] using hagain (key, value) List.mem_cons_self held
        | none => simpa [merged, hget] using hself (key, value) List.mem_cons_self
      by_cases hroom : positionOf key < out.length ∨ positionOf key < arrayBound
      · refine .inl ⟨merged, getElem?_mergeItems_other ?_ (getElem?_setItem_self hroom), hmerged⟩
        intro field hfield heq
        exact hfirst (List.mem_map.mpr ⟨field, hfield, heq⟩)
      · push Not at hroom
        refine .inr ⟨hroom.2, length_mergeItems_le ?_ hroom.2⟩
        rw [setItem, if_neg (Nat.not_lt.mpr hroom.1), if_neg (Nat.not_lt.mpr hroom.2)]
        exact hroom.1

/-- Merging what every position already holds changes nothing. -/
theorem mergeItems_fixed (h : ∀ field ∈ fields,
      (∃ held, items[positionOf field.1]? = some held ∧ mergeConfig held field.2 = held) ∨
      (arrayBound ≤ positionOf field.1 ∧ items.length ≤ positionOf field.1)) :
    mergeItems items fields = items := by
  induction fields with
  | nil => rw [mergeItems]
  | cons field rest ih =>
      obtain ⟨key, value⟩ := field
      have hrest := ih fun field hfield => h field (List.mem_cons_of_mem _ hfield)
      rw [mergeItems_cons]
      rcases h (key, value) List.mem_cons_self with ⟨held, hget, hheld⟩ | ⟨hbound, hlength⟩
      · rw [hget, Option.map_some, Option.getD_some, hheld, setItem_of_getElem? hget, hrest]
      · rw [setItem, if_neg (Nat.not_lt.mpr hlength), if_neg (Nat.not_lt.mpr hbound), hrest]

end Items

/-! ### The overlay -/

mutual

/-- No object has two keys of the same position, such as one with a leading zero. -/
def DistinctPositions : Json → Prop
  | .obj fields =>
      (hasOnlyIndexKeys fields = true → (fields.map fun field => positionOf field.1).Nodup) ∧
        DistinctPositionsIn fields
  | _ => True

def DistinctPositionsIn : List (String × Json) → Prop
  | [] => True
  | (_, value) :: rest => DistinctPositions value ∧ DistinctPositionsIn rest

end

theorem DistinctPositionsIn.mem {fields : List (String × Json)} (h : DistinctPositionsIn fields)
    {field : String × Json} (hfield : field ∈ fields) : DistinctPositions field.2 := by
  induction fields with
  | nil => cases hfield
  | cons first rest ih =>
      rcases List.mem_cons.mp hfield with rfl | hrest
      · exact h.1
      · exact ih h.2 hrest

/-- Laying the override on once more. -/
theorem mergeConfig_again {override : Json} (h : override.Proper)
    (hpositions : DistinctPositions override) (base : Json) :
    mergeConfig (mergeConfig base override) override = mergeConfig base override := by
  induction override using Json.induction generalizing base with
  | num value => cases base <;> simp [mergeConfig]
  | obj fields ih =>
      have hself : ∀ field ∈ fields, mergeConfig field.2 field.2 = field.2 :=
        fun field hfield => mergeConfig_self (h.2.mem hfield)
      have hagain : ∀ field ∈ fields, ∀ held,
          mergeConfig (mergeConfig held field.2) field.2 = mergeConfig held field.2 :=
        fun field hfield => ih field hfield (h.2.mem hfield) (hpositions.2.mem hfield)
      cases base with
      | obj own =>
          simp only [mergeConfig]
          refine congrArg Json.obj (mergeFields_fixed fun field hfield hsafe => ?_)
          refine ⟨_, get_mergeFields h.1 hfield hsafe, ?_⟩
          rw [mergeMember]
          cases memberOf field.1 own with
          | some held => exact hagain field hfield held
          | none => exact hself field hfield
      | arr items =>
          by_cases hindex : hasOnlyIndexKeys fields = true
          · simp only [mergeConfig, if_pos hindex]
            exact congrArg Json.arr (mergeItems_fixed
              (mergeItems_settles hagain hself (hpositions.1 hindex)))
          · simp only [mergeConfig, if_neg hindex]
            simpa [mergeConfig] using mergeConfig_self h
      | _ => simpa [mergeConfig] using mergeConfig_self h
  | _ => simp [mergeConfig]

/--
The override has a value for the path, or one that takes the place of something
the path leads through.
-/
def Addresses (base override : Json) : List Step → Prop
  | [] => override ≠ .undefined ∧ override ≠ .null
  | step :: rest =>
      match base, override, step with
      | _, .undefined, _ | _, .null, _ => False
      | .obj own, .obj fields, .field key => key ∉ unsafeMergeKeys ∧
          ∃ held value, get key own = some held ∧ get key fields = some value ∧
            Addresses held value rest
      | .obj _, .obj _, .item _ => False
      | .arr items, .obj fields, .item index => hasOnlyIndexKeys fields = true →
          ∃ held value key, items[index]? = some held ∧ (key, value) ∈ fields ∧
            positionOf key = index ∧ Addresses held value rest
      | _, _, _ => True

/-- What stands at the path, and what is addressed there, is as before. -/
structure Keeps (before after : Json) (path : List Step) (found : Json) : Prop where
  read_eq : after.read path = some found
  addresses : ∀ override, ¬ Addresses before override path → ¬ Addresses after override path

theorem Keeps.trans {first second third : Json} {path : List Step} {found : Json}
    (h : Keeps first second path found) (h' : Keeps second third path found) :
    Keeps first third path found :=
  ⟨h'.read_eq, fun override hnot => h'.addresses override (h.addresses override hnot)⟩

theorem Keeps.refl {value : Json} {path : List Step} {found : Json}
    (h : value.read path = some found) : Keeps value value path found :=
  ⟨h, fun _ hnot => hnot⟩

section Steps

variable {own own' fields : List (String × Json)} {items items' out : List Json}
  {held held' found : Json} {key : String} {index : ℕ} {rest : List Step}

theorem Keeps.field (h : Keeps held held' rest found) (hbefore : get key own = some held)
    (hafter : get key own' = some held') :
    Keeps (.obj own) (.obj own') (.field key :: rest) found := by
  refine ⟨by simpa [Json.read, Json.child, hafter] using h.read_eq,
    fun override hnot haddressed => hnot ?_⟩
  cases override with
  | obj fields =>
      obtain ⟨hsafe, reached, value, hreached, hvalue, haddressed⟩ := haddressed
      cases hafter.symm.trans hreached
      refine ⟨hsafe, held, value, hbefore, hvalue, ?_⟩
      by_contra hnone
      exact h.addresses value hnone haddressed
  | _ => exact haddressed

theorem Keeps.item (h : Keeps held held' rest found) (hbefore : items[index]? = some held)
    (hafter : items'[index]? = some held') :
    Keeps (.arr items) (.arr items') (.item index :: rest) found := by
  refine ⟨by simpa [Json.read, Json.child, hafter] using h.read_eq,
    fun override hnot haddressed => hnot ?_⟩
  cases override with
  | obj fields =>
      intro hindex
      obtain ⟨reached, value, key, hreached, hmem, hposition, haddressed⟩ := haddressed hindex
      cases hafter.symm.trans hreached
      refine ⟨held, value, key, hbefore, hmem, hposition, ?_⟩
      by_contra hnone
      exact h.addresses value hnone haddressed
  | _ => exact haddressed

/-- The overrides of one element, one after the other. -/
theorem mergeItems_keeps
    (hkeeps : ∀ field ∈ fields, ∀ now, ¬ Addresses now field.2 rest →
      now.read rest = some found → Keeps now (mergeConfig now field.2) rest found)
    (hnot : ∀ field ∈ fields, positionOf field.1 = index → ¬ Addresses held field.2 rest)
    (hout : out[index]? = some held') (h : Keeps held held' rest found) :
    ∃ after, (mergeItems out fields)[index]? = some after ∧ Keeps held after rest found := by
  induction fields generalizing out held' with
  | nil => exact ⟨held', by rw [mergeItems]; exact hout, h⟩
  | cons field fields ih =>
      obtain ⟨key, value⟩ := field
      rw [mergeItems_cons]
      have hkeeps' := fun field hfield => hkeeps field (List.mem_cons_of_mem _ hfield)
      have hnot' := fun field hfield => hnot field (List.mem_cons_of_mem _ hfield)
      by_cases hposition : positionOf key = index
      · subst hposition
        have hstep := hkeeps (key, value) List.mem_cons_self held'
          (h.addresses value (hnot (key, value) List.mem_cons_self rfl)) h.read_eq
        rw [hout, Option.map_some, Option.getD_some]
        exact ih hkeeps' hnot'
          (getElem?_setItem_self (.inl (List.getElem?_eq_some_iff.mp hout).1)) (h.trans hstep)
      · exact ih hkeeps' hnot' (getElem?_setItem_other (Ne.symm hposition) hout) h

end Steps

/-- A path that the override does not address is kept. -/
theorem mergeConfig_keeps {path : List Step} {base override found : Json}
    (hproper : override.Proper) (hnot : ¬ Addresses base override path)
    (hfound : base.read path = some found) : Keeps base (mergeConfig base override) path found := by
  induction path generalizing base override with
  | nil =>
      have hnull : override = .undefined ∨ override = .null := by
        by_contra hother
        push Not at hother
        exact hnot hother
      rcases hnull with rfl | rfl
      · exact hproper.elim
      · simpa [mergeConfig] using Keeps.refl hfound
  | cons step rest ih =>
      obtain ⟨held, hchild, hrest⟩ := Option.bind_eq_some_iff.mp hfound
      cases override with
      | undefined => exact hproper.elim
      | null => simpa [mergeConfig] using Keeps.refl hfound
      | obj fields =>
          cases base with
          | obj own =>
              cases step with
              | item index => cases hchild
              | field key =>
                  rw [mergeConfig]
                  have hget : get key own = some held := hchild
                  by_cases hmerged : key ∈ keys fields ∧ key ∉ unsafeMergeKeys
                  · obtain ⟨value, hvalue⟩ := exists_get hmerged.1
                    have hmem := mem_of_get hvalue
                    have hmember : mergeMember own key value = mergeConfig held value := by
                      rw [mergeMember, memberOf, hget]
                      rfl
                    have hafter :=
                      @get_mergeFields own own fields key value hproper.1 hmem hmerged.2
                    rw [hmember] at hafter
                    have hkept := ih (hproper.2.mem hmem) (fun haddressed =>
                      hnot ⟨hmerged.2, held, value, hget, hvalue, haddressed⟩) hrest
                    exact hkept.field hget hafter
                  · have hafter : get key (mergeFields own own fields) = some held := by
                      rw [get_mergeFields_other, hget]
                      by_contra hother
                      push Not at hother
                      exact hmerged hother
                    exact (Keeps.refl hrest).field hget hafter
          | arr items =>
              cases step with
              | field key => cases hchild
              | item index =>
                  have hreplaced : hasOnlyIndexKeys fields = true ∧ ∀ field ∈ fields,
                      positionOf field.1 = index → ¬ Addresses held field.2 rest := by
                    rw [Addresses, Classical.not_imp] at hnot
                    refine ⟨hnot.1, fun field hfield hposition haddressed => hnot.2 ?_⟩
                    exact ⟨held, field.2, field.1, hchild, hfield, hposition, haddressed⟩
                  rw [mergeConfig, if_pos hreplaced.1]
                  obtain ⟨after, hafter, hkeeps⟩ := mergeItems_keeps
                    (fun field hfield now hnow hread => ih (hproper.2.mem hfield) hnow hread)
                    hreplaced.2 hchild (Keeps.refl hrest)
                  exact hkeeps.item hchild hafter
          | _ => cases hchild
      | _ => cases base <;> cases step <;> first | cases hchild | exact absurd trivial hnot

/-! ### Leaves -/

/-- The objects at the path, and at the paths before it, are merged one onto the other. -/
def MergedAt : Json → Json → List String → Prop
  | .obj _, .obj _, [] => True
  | .obj own, .obj fields, key :: rest => key ∉ unsafeMergeKeys ∧
      ∃ held value, get key own = some held ∧ get key fields = some value ∧
        MergedAt held value rest
  | _, _, _ => False

/-- A path through objects. -/
def fieldPath (path : List String) : List Step := path.map .field

/-- A scalar that is not null, or an array. -/
def IsLeaf : Json → Prop
  | .undefined | .null | .obj _ => False
  | _ => True

/-- What a leaf becomes where it lands; a number that lands on a text becomes one. -/
def landed : Option Json → Json → Json
  | some (.str _), .num value => .str (numberText value)
  | _, leaf => leaf

section Landing

variable {base override leaf : Json} {path : List String} {key : String}

theorem mergeConfig_leaf (h : IsLeaf leaf) : mergeConfig base leaf = landed (some base) leaf := by
  cases leaf with
  | num value => cases base <;> simp [mergeConfig, landed]
  | bool | str | arr => cases base <;> simp [mergeConfig, landed]
  | _ => exact h.elim

theorem read_append (value : Json) (first second : List Step) :
    value.read (first ++ second) = (value.read first).bind fun held => held.read second := by
  induction first generalizing value with
  | nil => rfl
  | cons step rest ih =>
      rw [List.cons_append, Json.read, Json.read, Option.bind_assoc]
      congr 1
      funext held
      exact ih held

theorem read_fieldPath_concat (value : Json) :
    value.read (fieldPath (path ++ [key])) =
      (value.read (fieldPath path)).bind fun held => held.child (.field key) := by
  rw [fieldPath, List.map_append, read_append]
  congr 1
  funext held
  rw [List.map_singleton, Json.read]
  cases held.child (.field key) <;> rfl

theorem MergedAt.read (hproper : override.Proper) (h : MergedAt base override path) :
    ∃ own fields, base.read (fieldPath path) = some (.obj own) ∧
      override.read (fieldPath path) = some (.obj fields) ∧ (keys fields).Nodup ∧
      (mergeConfig base override).read (fieldPath path) =
        some (.obj (mergeFields own own fields)) := by
  induction path generalizing base override with
  | nil =>
      match base, override, h with
      | .obj own, .obj fields, _ =>
          exact ⟨own, fields, rfl, rfl, hproper.1, by rw [mergeConfig]; rfl⟩
  | cons key rest ih =>
      match base, override, h with
      | .obj own, .obj fields, h =>
          obtain ⟨hsafe, held, value, hheld, hvalue, hrest⟩ := h
          have hmem := mem_of_get hvalue
          obtain ⟨ownAt, fieldsAt, hbase, hoverride, hdistinct, hmerged⟩ :=
            ih (hproper.2.mem hmem) hrest
          have hmember : mergeMember own key value = mergeConfig held value := by
            rw [mergeMember, memberOf, hheld]
            rfl
          have hafter := @get_mergeFields own own fields key value hproper.1 hmem hsafe
          rw [hmember] at hafter
          refine ⟨ownAt, fieldsAt, ?_, ?_, hdistinct, ?_⟩
          · rw [fieldPath, List.map_cons, Json.read, Json.child, hheld]
            exact hbase
          · rw [fieldPath, List.map_cons, Json.read, Json.child, hvalue]
            exact hoverride
          · rw [mergeConfig, fieldPath, List.map_cons, Json.read, Json.child, hafter]
            exact hmerged

theorem mergeMember_leaf {own : List (String × Json)} (h : IsLeaf leaf) :
    mergeMember own key leaf = landed (get key own) leaf := by
  rw [mergeMember, memberOf]
  cases get key own with
  | some held => exact mergeConfig_leaf h
  | none =>
      split
      · next held heq =>
          rw [Option.none_or, Option.ite_none_right_eq_some] at heq
          obtain ⟨-, ⟨⟩⟩ := heq
          exact mergeConfig_leaf h
      · rfl

end Landing

/--
An override is laid over a base: what it does not address is kept, its leaves
land, the keys of the prototype chain are left alone, and laying it on once more
changes nothing where no two keys of an object are the same position.
-/
theorem mergeConfig_overlays (base override : Json) (hproper : override.Proper) :
    (DistinctPositions override →
      mergeConfig (mergeConfig base override) override = mergeConfig base override) ∧
    (∀ path found, base.read path = some found → ¬ Addresses base override path →
      (mergeConfig base override).read path = some found) ∧
    (IsLeaf override → mergeConfig base override = landed (some base) override) ∧
    (∀ path key leaf, MergedAt base override path → key ∉ unsafeMergeKeys →
      override.read (fieldPath (path ++ [key])) = some leaf → IsLeaf leaf →
      (mergeConfig base override).read (fieldPath (path ++ [key])) =
        some (landed (base.read (fieldPath (path ++ [key]))) leaf)) ∧
    ∀ path key, MergedAt base override path → key ∈ unsafeMergeKeys →
      (mergeConfig base override).read (fieldPath (path ++ [key])) =
        base.read (fieldPath (path ++ [key])) := by
  refine ⟨fun hpositions => mergeConfig_again hproper hpositions base,
    fun path found hfound hnot => (mergeConfig_keeps hproper hnot hfound).read_eq,
    mergeConfig_leaf, fun path key leaf hmerged hsafe hleaf hisLeaf => ?_,
    fun path key hmerged hunsafe => ?_⟩
  · obtain ⟨own, fields, hbase, hoverride, hdistinct, hresult⟩ := hmerged.read hproper
    rw [read_fieldPath_concat, hoverride] at hleaf
    rw [read_fieldPath_concat, read_fieldPath_concat, hbase, hresult]
    exact (get_mergeFields hdistinct (mem_of_get hleaf) hsafe).trans
      (congrArg some (mergeMember_leaf hisLeaf))
  · obtain ⟨own, fields, hbase, -, -, hresult⟩ := hmerged.read hproper
    rw [read_fieldPath_concat, read_fieldPath_concat, hbase, hresult]
    exact get_mergeFields_other (.inr hunsafe)

/-- A number laid over the text of a price. -/
theorem overlay_price :
    mergeConfig (mergeConfig (.obj [("price", .str "1.05")]) (.obj [("price", .num 2)]))
        (.obj [("price", .num 2)]) =
      mergeConfig (.obj [("price", .str "1.05")]) (.obj [("price", .num 2)]) ∧
    (mergeConfig (.obj [("price", .str "1.05")]) (.obj [("price", .num 2)])).read
      (fieldPath ["price"]) = some (.str (numberText 2)) := by
  have hproper : (Json.obj [("price", .num 2)]).Proper := by
    simp [Json.Proper, Json.ProperFields, keys]
  obtain ⟨hagain, -, -, hlands, -⟩ := mergeConfig_overlays (.obj [("price", .str "1.05")])
    (.obj [("price", .num 2)]) hproper
  exact ⟨hagain (by simp [DistinctPositions, DistinctPositionsIn]),
    hlands [] "price" (.num 2) trivial (by decide) rfl trivial⟩

def patchedBase : Json := .arr [.arr [.num 1]]

/-- Both keys are the first position. -/
def patchTwice : Json := .obj [("0", .obj [("0", .num 9)]), ("00", .obj [("a", .num 1)])]

/-- The second key replaces what the first has patched, and a second pass patches that. -/
theorem overlay_not_idempotent :
    patchedBase.Proper ∧ patchTwice.Proper ∧
      mergeConfig patchedBase patchTwice = .arr [.obj [("a", .num 1)]] ∧
      mergeConfig (mergeConfig patchedBase patchTwice) patchTwice =
        .arr [.obj [("0", .num 9), ("a", .num 1)]] ∧
      mergeConfig (mergeConfig patchedBase patchTwice) patchTwice ≠
        mergeConfig patchedBase patchTwice := by
  have hkeys : arrayIndex "0" = some 0 ∧ digitsIndex "a" = none ∧ digitsIndex "0" = some 0 ∧
      digitsIndex "00" = some 0 := by decide +kernel
  obtain ⟨hzero, hletter, hdigit, hdigits⟩ := hkeys
  have honce : mergeConfig patchedBase patchTwice = .arr [.obj [("a", .num 1)]] := by
    simp [patchedBase, patchTwice, mergeConfig, mergeItems_cons, mergeItems, hasOnlyIndexKeys,
      positionOf, hdigit, hdigits, hletter, setItem]
  have htwice : mergeConfig (.arr [.obj [("a", .num 1)]]) patchTwice =
      .arr [.obj [("0", .num 9), ("a", .num 1)]] := by
    simp [patchTwice, mergeConfig, mergeItems_cons, mergeItems, hasOnlyIndexKeys, positionOf,
      hdigit, hdigits, mergeFields, memberOf, setField, setItem, inheritedKeys, unsafeMergeKeys,
      InsertionMap.get, InsertionMap.set, keys, hzero]
  rw [honce, htwice]
  refine ⟨?_, ?_, rfl, rfl, by simp⟩
  · simp [patchedBase, Json.Proper, Json.ProperItems]
  · simp [patchTwice, Json.Proper, Json.ProperFields, keys]

end TradingBot
