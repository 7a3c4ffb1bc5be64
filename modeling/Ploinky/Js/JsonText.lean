import Ploinky.Js.Object

/-!
# JSON texts

`JSON.stringify` writes an object as its properties stand, and writes a number that is not finite as
`null`; `written` is the value that reading the text gives. A list of properties that is no object,
with a name twice or out of property order, counts as the literal that builds one. `Platform.JsonText`
states what the sources rely on about the two functions, and `stable` is the form in which they compare
values.
-/

namespace Ploinky

open Js List

namespace Json

/-- The values that are JavaScript values: the names of every object are distinct and in property
order. -/
inductive Proper : Json → Prop
  | null : Proper .null
  | bool (b : Bool) : Proper (.bool b)
  | num (text : Str) : Proper (.num text)
  | str (text : Str) : Proper (.str text)
  | arr {items : List Json} (hitems : ∀ item ∈ items, Proper item) : Proper (.arr items)
  | obj {fields : List (Str × Json)} (hnodup : (fields.map Prod.fst).Nodup)
      (horder : enumerate fields = fields) (hfields : ∀ field ∈ fields, Proper field.2) :
      Proper (.obj fields)

/-- A property of a proper value is proper. -/
theorem Proper.prop {value inner : Json} {key : Str} (h : value.Proper)
    (hprop : value.prop key = some inner) : inner.Proper := by
  cases h with
  | obj hnodup horder hfields =>
    obtain ⟨l, r, rfl, -⟩ := lookup_eq_some_iff.mp hprop
    exact hfields (key, inner) (by simp)
  | null | bool | num | str | arr => cases hprop

mutual

/-- The value that the text of a value reads back as, given which texts are finite numbers. -/
def written (isNumber : Str → Bool) : Json → Json
  | .null => .null
  | .bool b => .bool b
  | .num text => if isNumber text then .num text else .null
  | .str text => .str text
  | .arr items => .arr (writtenItems isNumber items)
  | .obj fields => .obj (fromEntries (writtenFields isNumber fields))

/-- The items of an array as they read back. -/
def writtenItems (isNumber : Str → Bool) : List Json → List Json
  | [] => []
  | item :: rest => written isNumber item :: writtenItems isNumber rest

/-- The properties of an object as they read back. -/
def writtenFields (isNumber : Str → Bool) : List (Str × Json) → List (Str × Json)
  | [] => []
  | (key, value) :: rest => (key, written isNumber value) :: writtenFields isNumber rest

end

mutual

/-- `stableValue(value)`: the names of every object are sorted. -/
def stable : Json → Json
  | .null => .null
  | .bool b => .bool b
  | .num text => .num text
  | .str text => .str text
  | .arr items => .arr (stableItems items)
  | .obj fields => .obj (fromEntries ((stableFields fields).insertionSort fun a b => le a.1 b.1))

/-- The items of an array in stable form. -/
def stableItems : List Json → List Json
  | [] => []
  | item :: rest => stable item :: stableItems rest

/-- The properties of an object in stable form. -/
def stableFields : List (Str × Json) → List (Str × Json)
  | [] => []
  | (key, value) :: rest => (key, stable value) :: stableFields rest

end

variable (isNumber : Str → Bool)

/-- The items of an array are written one by one. -/
theorem writtenItems_eq_map (items : List Json) :
    writtenItems isNumber items = items.map (written isNumber) := by
  induction items with
  | nil => rfl
  | cons item items ih => rw [writtenItems, ih, map_cons]

/-- The properties of an object are written one by one. -/
theorem writtenFields_eq_mapValues (fields : List (Str × Json)) :
    writtenFields isNumber fields = mapValues (written isNumber) fields := by
  induction fields with
  | nil => rfl
  | cons field fields ih =>
    rw [writtenFields, ih]
    rfl

@[simp] theorem written_null : written isNumber .null = .null := rfl

@[simp] theorem written_bool (b : Bool) : written isNumber (.bool b) = .bool b := rfl

@[simp] theorem written_str (text : Str) : written isNumber (.str text) = .str text := rfl

/-- An array is written item by item. -/
@[simp] theorem written_arr (items : List Json) :
    written isNumber (.arr items) = .arr (items.map (written isNumber)) := by
  rw [← writtenItems_eq_map]
  rfl

/-- An object is written property by property. -/
theorem written_obj (fields : List (Str × Json)) :
    written isNumber (.obj fields) = .obj (mapValues (written isNumber) (fromEntries fields)) := by
  rw [← fromEntries_mapValues, ← writtenFields_eq_mapValues]
  rfl

/-- A literal whose names are distinct and no array indices is written as it stands. -/
theorem written_literal {fields : List (Str × Json)} (h : isLiteral (fields.map Prod.fst) = true) :
    written isNumber (.obj fields) = .obj (mapValues (written isNumber) fields) := by
  rw [written_obj, fromEntries_literal h]

/-- Writing a value that was read back changes nothing. -/
theorem written_written (value : Json) :
    written isNumber (written isNumber value) = written isNumber value := by
  induction value with
  | null | bool | str => simp
  | num text => cases h : isNumber text <;> simp [written, h]
  | arr items ih =>
    rw [written_arr, written_arr, map_map]
    congr 1
    exact map_congr_left ih
  | obj fields ih =>
    rw [written_obj, written_obj, fromEntries_mapValues, fromEntries_fromEntries]
    simp only [mapValues, map_map, obj.injEq, map_inj_left, Function.comp_apply]
    intro field hfield
    rw [ih field (mem_of_mem_fromEntries hfield)]

/-- What is read back is proper. -/
theorem proper_written (value : Json) : (written isNumber value).Proper := by
  induction value with
  | null => simpa using Proper.null
  | bool b => simpa using Proper.bool b
  | str text => simpa using Proper.str text
  | num text =>
    rw [written]
    split_ifs
    · exact .num text
    · exact .null
  | arr items ih =>
    rw [written_arr]
    exact .arr (forall_mem_map.mpr ih)
  | obj fields ih =>
    rw [written_obj, ← fromEntries_mapValues]
    refine .obj (nodup_fromEntries _) (enumerate_enumerate _) fun field hfield => ?_
    obtain ⟨old, hold, rfl⟩ := mem_map.mp (mem_of_mem_fromEntries hfield)
    exact ih old hold

end Json

/-- What the sources rely on about JSON texts. -/
structure Platform.JsonText (platform : Platform) : Prop where
  /-- The empty text is no JSON text. -/
  empty : platform.parseJson [] = none
  /-- The natural numbers that are safe integers are written as they are. -/
  safeInteger : ∀ n < 2 ^ 53, platform.isNumber (ofNat n) = true
  /-- A line break at the end of a text has no meaning. -/
  newline : ∀ text, platform.parseJson (text ++ ['\n']) = platform.parseJson text
  /-- `JSON.parse` returns a JavaScript value. -/
  parsed : ∀ text value, platform.parseJson text = some value → value.Proper
  /-- Reading what `JSON.stringify(value)` writes. -/
  stringify : ∀ value, platform.parseJson (platform.stringifyJson value) =
    some (value.written platform.isNumber)
  /-- Reading what `JSON.stringify(value, null, 2)` writes. -/
  pretty : ∀ value, platform.parseJson (platform.prettyJson value) = some (value.written platform.isNumber)

/-- Reading a file of a value in the form of `pretty`. -/
theorem Platform.JsonText.file {platform : Platform} (h : platform.JsonText) (value : Json) :
    platform.parseJson (textOf platform (utf8Bytes (platform.prettyJson value ++ ['\n']))) =
      some (value.written platform.isNumber) := by
  rw [textOf_utf8Bytes, h.newline, h.pretty]

end Ploinky
