import Ploinky.Js.Text

/-!
# JSON values

The values `JSON.parse` returns, with the JavaScript operations the sources apply to them: property
reads, truthiness and `String`. A number is kept as its canonical text, the one `String` gives; an
object is the list of its own properties in enumeration order. `undefined` is the absence of a value,
so a property read returns an option.
-/

namespace Ploinky

/-- A JSON value. -/
inductive Json where
  | null
  | bool (b : Bool)
  | num (text : Str)
  | str (text : Str)
  | arr (items : List Json)
  | obj (fields : List (Str × Json))

namespace Json

/-- Induction on JSON values, with the hypothesis for every item and every property. -/
@[induction_eliminator]
theorem induct {P : Json → Prop} (null : P .null) (bool : ∀ b, P (.bool b)) (num : ∀ text, P (.num text))
    (str : ∀ text, P (.str text)) (arr : ∀ items, (∀ item ∈ items, P item) → P (.arr items))
    (obj : ∀ fields, (∀ field ∈ fields, P field.2) → P (.obj fields)) : ∀ value, P value
  | .null => null
  | .bool b => bool b
  | .num text => num text
  | .str text => str text
  | .arr items => arr items fun item _ => induct null bool num str arr obj item
  | .obj fields => obj fields fun (_, value) _ => induct null bool num str arr obj value
decreasing_by
  · decreasing_tactic
  · have := List.sizeOf_lt_of_mem ‹_ ∈ fields›
    simp at this ⊢
    omega

mutual

/-- Equality of JSON values is decidable. -/
def decEq : (a b : Json) → Decidable (a = b)
  | .null, .null => isTrue rfl
  | .bool a, .bool b => decidable_of_iff (a = b) (by simp)
  | .num a, .num b => decidable_of_iff (a = b) (by simp)
  | .str a, .str b => decidable_of_iff (a = b) (by simp)
  | .arr a, .arr b => @decidable_of_iff _ (a = b) (by simp) (decEqItems a b)
  | .obj a, .obj b => @decidable_of_iff _ (a = b) (by simp) (decEqFields a b)
  | .null, .bool _ | .null, .num _ | .null, .str _ | .null, .arr _ | .null, .obj _
  | .bool _, .null | .bool _, .num _ | .bool _, .str _ | .bool _, .arr _ | .bool _, .obj _
  | .num _, .null | .num _, .bool _ | .num _, .str _ | .num _, .arr _ | .num _, .obj _
  | .str _, .null | .str _, .bool _ | .str _, .num _ | .str _, .arr _ | .str _, .obj _
  | .arr _, .null | .arr _, .bool _ | .arr _, .num _ | .arr _, .str _ | .arr _, .obj _
  | .obj _, .null | .obj _, .bool _ | .obj _, .num _ | .obj _, .str _ | .obj _, .arr _ =>
    isFalse (by simp)

/-- Equality of arrays is decidable. -/
def decEqItems : (a b : List Json) → Decidable (a = b)
  | [], [] => isTrue rfl
  | x :: xs, y :: ys => @decidable_of_iff _ (x = y ∧ xs = ys) (by simp)
      (@instDecidableAnd _ _ (decEq x y) (decEqItems xs ys))
  | [], _ :: _ | _ :: _, [] => isFalse (by simp)

/-- Equality of property lists is decidable. -/
def decEqFields : (a b : List (Str × Json)) → Decidable (a = b)
  | [], [] => isTrue rfl
  | x :: xs, y :: ys =>
    @decidable_of_iff _ ((x.1 = y.1 ∧ x.2 = y.2) ∧ xs = ys) (by simp [Prod.ext_iff])
      (@instDecidableAnd _ _ (@instDecidableAnd _ _ inferInstance (decEq x.2 y.2))
        (decEqFields xs ys))
  | [], _ :: _ | _ :: _, [] => isFalse (by simp)

end

instance : DecidableEq Json := decEq

mutual

/-- `String(value)`. An array is the comma-joined text of its items, `null` items being empty. -/
def toStr : Json → Str
  | .null => "null"
  | .bool true => "true"
  | .bool false => "false"
  | .num text => text
  | .str text => text
  | .arr items => Js.join (itemTexts items) ','
  | .obj _ => "[object Object]"

/-- The texts `Array.prototype.join` joins. -/
def itemTexts : List Json → List Str
  | [] => []
  | .null :: rest => [] :: itemTexts rest
  | item :: rest => toStr item :: itemTexts rest

end

/-- JavaScript truthiness. -/
def truthy : Json → Bool
  | .null => false
  | .bool b => b
  | .num text => text != ['0']
  | .str text => !text.isEmpty
  | .arr _ | .obj _ => true

/-- The plain objects among JSON values. -/
def isObject : Json → Bool
  | .obj _ => true
  | _ => false

/-- The text of a JSON string. -/
def str? : Json → Option Str
  | .str text => some text
  | _ => none

/-- A JSON number that is a natural number. -/
def natural : Json → Option Nat
  | .num text =>
    if !text.isEmpty && text.all Js.isDigit then some (Js.decimal text) else none
  | _ => none

/-- The number of the text of a natural number. -/
theorem natural_num_ofNat (n : Nat) : (num (Js.ofNat n)).natural = some n := by
  have hne : (Js.ofNat n).isEmpty = false := by
    rw [List.isEmpty_eq_false_iff]
    exact Nat.toDigits_ne_nil
  have hdigits : (Js.ofNat n).all Js.isDigit = true := by
    rw [List.all_eq_true]
    intro c hc
    have hdigit := Nat.isDigit_of_mem_toDigits (by decide) (by decide) hc
    simpa [Js.isDigit, Char.isDigit, Char.le_def] using hdigit
  have hvalue : Js.decimal (Js.ofNat n) = n := Nat.ofDigitChars_ten_toDigits
  simp [natural, hne, hdigits, hvalue]

/-- `value?.key` for a name that is no inherited property. -/
def prop (value : Json) (key : Str) : Option Json :=
  match value with
  | .obj fields => fields.lookup key
  | _ => none

/-- `Object.entries(value)` of an object. -/
def entries : Json → List (Str × Json)
  | .obj fields => fields
  | _ => []

/-- `Object.keys(value)` of an object. -/
def keys (value : Json) : List Str := value.entries.map Prod.fst

end Json

namespace Js

/-- Truthiness of a value that may be `undefined`. -/
def truthy (value : Option Json) : Bool := value.any Json.truthy

/-- `String(value || fallback)`. -/
def strOr (value : Option Json) (fallback : Str) : Str :=
  match value with
  | some json => if json.truthy then json.toStr else fallback
  | none => fallback

/-- `String(value || '').trim()`. -/
def trimmed (value : Option Json) : Str := trim (strOr value [])

/-- The names every plain object inherits from `Object.prototype`. Reading one of them from an
object that has no own property of that name gives a truthy value. -/
def inheritedNames : List Str :=
  ["constructor", "__defineGetter__", "__defineSetter__", "hasOwnProperty", "__lookupGetter__",
    "__lookupSetter__", "isPrototypeOf", "propertyIsEnumerable", "toString", "valueOf", "__proto__",
    "toLocaleString"]

/-- `table[key]` on a plain object whose own properties are an association list. An inherited
property is represented by the given stand-in. -/
def read {α : Type} (table : List (Str × α)) (inherited : α) (key : Str) : Option α :=
  match table.lookup key with
  | some value => some value
  | none => if key ∈ inheritedNames then some inherited else none

/-- A strict string equality with an optional JSON value, `value === text`. -/
def isStr (value : Option Json) (text : Str) : Bool := value == some (.str text)

end Js

end Ploinky
