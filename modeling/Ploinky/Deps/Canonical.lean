import Ploinky.Js.Error
import Ploinky.Js.Plain

/-!
# The canonical JSON of the dependency store

`canonicalValue` rebuilds every object with its names sorted, by assignment to an empty object, and
`canonicalJson` is the text of the result. The digest of that text identifies an install contract.
Assignment to the name `__proto__` creates no property, so values are told apart up to that name only.
-/

namespace Ploinky

open Js List

/-- Equality up to the order of the properties of objects: the congruence in which they may be
permuted. -/
inductive Json.Same : Json → Json → Prop
  | refl (value : Json) : Same value value
  | symm {a b : Json} (h : Same a b) : Same b a
  | trans {a b c : Json} (hab : Same a b) (hbc : Same b c) : Same a c
  | item (front back : List Json) {x y : Json} (h : Same x y) :
      Same (.arr (front ++ x :: back)) (.arr (front ++ y :: back))
  | field (front : List (Str × Json)) (key : Str) (back : List (Str × Json)) {x y : Json} (h : Same x y) :
      Same (.obj (front ++ (key, x) :: back)) (.obj (front ++ (key, y) :: back))
  | order {a b : List (Str × Json)} (hnodup : (a.map Prod.fst).Nodup) (h : a.Perm b) :
      Same (.obj a) (.obj b)

mutual

/-- The value without the properties of a name, at every depth. -/
def Json.without (name : Str) : Json → Json
  | .null => .null
  | .bool b => .bool b
  | .num text => .num text
  | .str text => .str text
  | .arr items => .arr (withoutItems name items)
  | .obj fields => .obj (withoutFields name fields)

/-- The items of an array without the properties of the name. -/
def Json.withoutItems (name : Str) : List Json → List Json
  | [] => []
  | item :: rest => item.without name :: withoutItems name rest

/-- The properties of an object without those of the name. -/
def Json.withoutFields (name : Str) : List (Str × Json) → List (Str × Json)
  | [] => []
  | (key, value) :: rest =>
    if key = name then withoutFields name rest
    else (key, value.without name) :: withoutFields name rest

end

/-- The names of every object of the value are distinct, and the name is none of them. -/
inductive Json.Lacks (name : Str) : Json → Prop
  | null : Lacks name .null
  | bool (b : Bool) : Lacks name (.bool b)
  | num (text : Str) : Lacks name (.num text)
  | str (text : Str) : Lacks name (.str text)
  | arr {items : List Json} (hitems : ∀ item ∈ items, Lacks name item) : Lacks name (.arr items)
  | obj {fields : List (Str × Json)} (hnodup : (fields.map Prod.fst).Nodup)
      (hname : name ∉ fields.map Prod.fst) (hfields : ∀ field ∈ fields, Lacks name field.2) :
      Lacks name (.obj fields)

namespace Deps

/-- `dependencyStoreError('PLOINKY_DEPS_CANONICAL_INVALID', message)`. -/
def canonicalInvalid (message : Str) : CodedError := ⟨message, "PLOINKY_DEPS_CANONICAL_INVALID"⟩

/-- `result[key] = value` on `{}`: a value for `__proto__` is no own property, it becomes the prototype
or is ignored. -/
def assign (result : List (Str × Json)) (field : Str × Json) : List (Str × Json) :=
  if field.1 = "__proto__" then result else setProperty result field

mutual

/-- `canonicalValue(value, trail)`. -/
def canonicalValue (isNumber : Str → Bool) (trail : Str) : Json → Except CodedError Json
  | .null => .ok .null
  | .arr items => return .arr (← canonicalItems isNumber trail 0 items)
  | .str text => .ok (.str text)
  | .bool b => .ok (.bool b)
  | .num text => if isNumber text then .ok (.num text)
    else .error (canonicalInvalid ("non-finite number at " ++ trail))
  | .obj fields => do
    let sorted := (canonicalFields isNumber trail fields).insertionSort fun a b => le a.1 b.1
    let values ← sorted.mapM fun field => return (field.1, ← field.2)
    return .obj (enumerate (values.foldl assign []))

/-- The canonical values of the items of an array from an index on. -/
def canonicalItems (isNumber : Str → Bool) (trail : Str) (index : Nat) :
    List Json → Except CodedError (List Json)
  | [] => .ok []
  | item :: rest => do
    let first ← canonicalValue isNumber (trail ++ '[' :: ofNat index ++ [']']) item
    return first :: (← canonicalItems isNumber trail (index + 1) rest)

/-- What the values of the properties of an object give. -/
def canonicalFields (isNumber : Str → Bool) (trail : Str) :
    List (Str × Json) → List (Str × Except CodedError Json)
  | [] => []
  | (key, value) :: rest =>
    (key, canonicalValue isNumber (trail ++ '.' :: key) value) :: canonicalFields isNumber trail rest

end

/-- `canonicalJson(value)`. -/
def canonicalJson (platform : Platform) (value : Json) : Except CodedError Str :=
  return platform.stringifyJson (← canonicalValue platform.isNumber ['$'] value)

/-- `canonicalDigest(value)`. -/
def canonicalDigest (platform : Platform) (value : Json) : Except CodedError Str :=
  return platform.sha256 (utf8Bytes (← canonicalJson platform value))

open Json

variable {isNumber : Str → Bool} {a b : Json} {trail : Str}

theorem canonicalFields_eq_map (fields : List (Str × Json)) : canonicalFields isNumber trail fields =
    fields.map fun field => (field.1, canonicalValue isNumber (trail ++ '.' :: field.1) field.2) := by
  induction fields with
  | nil => rfl
  | cons field fields ih => rw [canonicalFields, ih, map_cons]

/-- The order of the properties has no effect. -/
theorem canonicalValue_congr (h : a.Same b) (trail : Str) :
    canonicalValue isNumber trail a = canonicalValue isNumber trail b := by
  induction h generalizing trail with
  | refl => rfl
  | symm _ ih => exact (ih trail).symm
  | trans _ _ hab hbc => exact (hab trail).trans (hbc trail)
  | @item front back x y _ ih =>
    have hitems : ∀ index, canonicalItems isNumber trail index (front ++ x :: back) =
        canonicalItems isNumber trail index (front ++ y :: back) := by
      induction front with
      | nil => exact fun index => by rw [nil_append, nil_append, canonicalItems, canonicalItems, ih]
      | cons item front hfront =>
        exact fun index => by rw [cons_append, cons_append, canonicalItems, canonicalItems, hfront]
    rw [canonicalValue, canonicalValue, hitems]
  | field front key back _ ih =>
    simp only [canonicalValue, canonicalFields_eq_map, map_append, map_cons, ih]
  | @order fields others hnodup hperm =>
    rw [canonicalValue, canonicalValue, canonicalFields_eq_map, canonicalFields_eq_map,
      AssocList.insertionSort_eq_of_perm (r := fun a b => le a b = true) (by rwa [map_map]) (hperm.map _)]

/-- Elements may be replaced one by one. -/
theorem same_of_forall₂ {α : Type} {R : α → α → Prop} {f : List α → Json} {xs ys : List α}
    (hstep : ∀ front x y back, R x y → Same (f (front ++ x :: back)) (f (front ++ y :: back)))
    (h : List.Forall₂ R xs ys) (front : List α) : Same (f (front ++ xs)) (f (front ++ ys)) := by
  induction h generalizing front with
  | nil => exact .refl _
  | @cons x y xs ys hxy _ ih =>
    have hrest := ih (front ++ [y])
    rw [append_assoc, append_assoc] at hrest
    exact (hstep front x y xs hxy).trans hrest

/-- The items of an array give values that read back as the same ones. -/
theorem forall₂_canonicalItems {items results : List Json} {index : Nat}
    (h : canonicalItems isNumber trail index items = .ok results)
    (hitems : ∀ item ∈ items, ∀ trail value, canonicalValue isNumber trail item = .ok value →
      Same item (value.written isNumber)) : List.Forall₂ Same items (results.map (written isNumber)) := by
  induction items generalizing index results with
  | nil =>
    cases h
    exact .nil
  | cons item items ih =>
    obtain ⟨first, hfirst, h⟩ := bind_eq_ok.mp h
    obtain ⟨rest, hrest, h⟩ := bind_eq_ok.mp h
    cases h
    exact .cons (hitems item (.head _) _ _ hfirst) (ih hrest fun other hother => hitems other (.tail _ hother))

/-- Without the name `__proto__`, the text of the canonical value reads back as the same value. -/
theorem same_of_canonicalValue {result : Json} (hlacks : a.Lacks "__proto__")
    (h : canonicalValue isNumber trail a = .ok result) : a.Same (result.written isNumber) := by
  induction a generalizing trail result with
  | null | bool b | str text =>
    cases h
    exact .refl _
  | num text =>
    simp only [canonicalValue] at h
    split_ifs at h with hnumber
    cases h
    rw [written, if_pos hnumber]
    exact .refl _
  | arr items ih =>
    cases hlacks with | arr hlacks =>
    obtain ⟨results, hresults, h⟩ := bind_eq_ok.mp h
    cases h
    rw [written_arr]
    exact same_of_forall₂ (fun front _ _ back => .item front back) (forall₂_canonicalItems hresults
      fun item hitem _ _ => ih item hitem (hlacks item hitem)) []
  | obj fields ih =>
    cases hlacks with | obj hnodup hname hlacks =>
    obtain ⟨values, hvalues, h⟩ := bind_eq_ok.mp h
    cases h
    have hperm := perm_insertionSort (fun a b : Str × Json => le a.1 b.1 = true) fields
    rw [canonicalFields_eq_map, ← map_insertionSort (fun a b : Str × Json => le a.1 b.1 = true) _
      _ fields fun _ _ _ _ => Iff.rfl] at hvalues
    replace hvalues := forall₂_map_left_iff.mp (forall₂_of_mapM hvalues)
    have hsame : List.Forall₂ (fun x y => x.1 = y.1 ∧ Same x.2 y.2)
        (fields.insertionSort fun a b => le a.1 b.1) (mapValues (written isNumber) values) := by
      refine forall₂_map_right_iff.mpr (List.Forall₂.imp ?_
        ((forall₂_and_left _ _).mpr ⟨fun _ => hperm.mem_iff.mp, hvalues⟩))
      rintro field value ⟨hfield, hvalue⟩
      obtain ⟨found, hfound, hvalue⟩ := bind_eq_ok.mp hvalue
      cases hvalue
      exact ⟨rfl, ih field hfield (hlacks field hfield) hfound⟩
    have hkeys := forall₂_map_left_iff.mpr (forall₂_map_right_iff.mpr (hsame.imp fun _ _ h => h.1))
    rw [forall₂_eq_eq_eq, mapValues, map_map] at hkeys
    have hnames : (values.map Prod.fst).Perm (fields.map Prod.fst) := hkeys ▸ hperm.map Prod.fst
    have hassign : values.foldl assign [] = values.foldl setProperty [] := by
      refine foldl_ext _ _ _ fun start field hfield => if_neg fun hproto => hname ?_
      rw [← hproto]
      exact hnames.mem_iff.mp (mem_map_of_mem hfield)
    have hresult : written isNumber (.obj (enumerate (values.foldl assign []))) =
        .obj (mapValues (written isNumber) (enumerate values)) := by
      rw [hassign, ← fromEntries, written_obj, fromEntries_fromEntries,
        fromEntries_of_nodup (hnames.nodup_iff.mpr hnodup)]
    rw [hresult]
    refine (Same.order hnodup hperm.symm).trans ((same_of_forall₂ ?_ hsame []).trans (.order ?_ ?_))
    · rintro front ⟨key, x⟩ ⟨_, y⟩ back ⟨rfl, hxy⟩
      exact .field front key back hxy
    · simpa [mapValues, Function.comp_def] using hnames.nodup_iff.mpr hnodup
    · exact (enumerate_perm values).symm.map _

/-! ## The name `__proto__` -/

variable {name : Str}

theorem withoutItems_eq_map (items : List Json) :
    withoutItems name items = items.map (without name) := by
  induction items with
  | nil => rfl
  | cons item items ih => rw [withoutItems, ih, map_cons]

theorem withoutFields_eq (fields : List (Str × Json)) : withoutFields name fields =
    (fields.filter fun field => field.1 ≠ name).map fun field => (field.1, field.2.without name) := by
  induction fields with
  | nil => rfl
  | cons field fields ih =>
    obtain ⟨key, value⟩ := field
    by_cases hkey : key = name <;> simp [withoutFields, ih, hkey]

/-- The names that are left. -/
theorem map_fst_withoutFields (fields : List (Str × Json)) :
    (withoutFields name fields).map Prod.fst = (fields.map Prod.fst).filter (· ≠ name) := by
  rw [withoutFields_eq, map_map, filter_map]
  rfl

/-- What is left lacks the name. -/
theorem lacks_without (h : a.Proper) : (a.without name).Lacks name := by
  induction h with
  | null => exact .null
  | bool b => exact .bool b
  | num text => exact .num text
  | str text => exact .str text
  | arr _ ih =>
    rw [without, withoutItems_eq_map]
    exact .arr (forall_mem_map.mpr ih)
  | obj hnodup _ _ ih =>
    rw [without]
    refine .obj ?_ ?_ fun field hfield => ?_
    · rw [map_fst_withoutFields]
      exact hnodup.filter _
    · simp [map_fst_withoutFields]
    · rw [withoutFields_eq] at hfield
      obtain ⟨old, hold, rfl⟩ := mem_map.mp hfield
      exact ih old (mem_of_mem_filter hold)

/-- The items of an array are canonical without the name, too. -/
theorem canonicalItems_without {items results : List Json} {index : Nat}
    (hitems : ∀ item ∈ items, ∀ trail value, canonicalValue isNumber trail item = .ok value →
      canonicalValue isNumber trail (item.without name) = .ok value)
    (h : canonicalItems isNumber trail index items = .ok results) :
    canonicalItems isNumber trail index (withoutItems name items) = .ok results := by
  induction items generalizing index results with
  | nil => exact h
  | cons item items ih =>
    obtain ⟨first, hfirst, h⟩ := bind_eq_ok.mp h
    obtain ⟨rest, hrest, h⟩ := bind_eq_ok.mp h
    cases h
    rw [withoutItems, canonicalItems, hitems item (.head _) _ _ hfirst,
      ih (fun other hother => hitems other (.tail _ hother)) hrest]
    rfl

/-- The canonical value of one property. -/
def canonicalField (isNumber : Str → Bool) (trail : Str) (field : Str × Json) :
    Except CodedError (Str × Json) :=
  return (field.1, ← canonicalValue isNumber (trail ++ '.' :: field.1) field.2)

/-- The properties that are left have the values they had. -/
theorem mapM_withoutFields {fields values : List (Str × Json)}
    (hfields : ∀ field ∈ fields, ∀ trail value, canonicalValue isNumber trail field.2 = .ok value →
      canonicalValue isNumber trail (field.2.without name) = .ok value)
    (h : fields.mapM (canonicalField isNumber trail) = .ok values) :
    (withoutFields name fields).mapM (canonicalField isNumber trail) =
      .ok (values.filter fun value => value.1 ≠ name) := by
  induction fields generalizing values with
  | nil =>
    cases h
    rfl
  | cons field fields ih =>
    obtain ⟨key, value⟩ := field
    rw [mapM_cons] at h
    obtain ⟨first, hfirst, h⟩ := bind_eq_ok.mp h
    obtain ⟨rest, hrest, h⟩ := bind_eq_ok.mp h
    obtain ⟨found, hfound, hfirst⟩ := bind_eq_ok.mp hfirst
    cases h
    cases hfirst
    have hrest := ih (fun other hother => hfields other (.tail _ hother)) hrest
    by_cases hkey : key = name
    · simpa [withoutFields, hkey] using hrest
    · have hkept := hfields (key, value) (.head _) _ _ hfound
      rw [withoutFields, if_neg hkey, mapM_cons, canonicalField, hkept, hrest]
      simp [hkey]
      rfl

/-- The canonical value does not change when the properties `__proto__` are left out. -/
theorem canonicalValue_without {result : Json} (hproper : a.Proper)
    (h : canonicalValue isNumber trail a = .ok result) :
    canonicalValue isNumber trail (a.without "__proto__") = .ok result := by
  induction hproper generalizing trail result with
  | null | bool | num | str => exact h
  | arr _ ih =>
    obtain ⟨results, hresults, h⟩ := bind_eq_ok.mp h
    cases h
    rw [without, canonicalValue, canonicalItems_without (fun item hitem _ _ => ih item hitem) hresults]
    rfl
  | @obj fields hnodup _ _ ih =>
    have hvalue (fields : List (Str × Json)) : canonicalValue isNumber trail (.obj fields) =
        (fields.insertionSort fun a b => le a.1 b.1).mapM (canonicalField isNumber trail) >>=
          fun values => .ok (.obj (enumerate (values.foldl assign []))) := by
      rw [canonicalValue, canonicalFields_eq_map, ← map_insertionSort
        (fun a b : Str × Json => le a.1 b.1 = true) _ _ fields fun _ _ _ _ => Iff.rfl, mapM_map]
      rfl
    have hperm := perm_insertionSort (fun a b : Str × Json => le a.1 b.1 = true) fields
    have hsorted : (withoutFields "__proto__" fields).insertionSort (fun a b => le a.1 b.1) =
        withoutFields "__proto__" (fields.insertionSort fun a b => le a.1 b.1) := by
      have hkept : (withoutFields "__proto__" fields).Perm
          (withoutFields "__proto__" (fields.insertionSort fun a b => le a.1 b.1)) := by
        rw [withoutFields_eq, withoutFields_eq]
        exact (hperm.symm.filter _).map _
      rw [AssocList.insertionSort_eq_of_perm (r := fun a b => le a b = true)
        (by rw [map_fst_withoutFields]; exact hnodup.filter _) hkept]
      refine List.Pairwise.insertionSort_eq ?_
      have hsorted := pairwise_insertionSort
        (Order.Preimage Prod.fst fun a b : Str => le a b = true) fields
      rw [withoutFields_eq]
      exact (hsorted.filter _).map _ fun _ _ h => h
    rw [hvalue] at h
    obtain ⟨values, hvalues, h⟩ := bind_eq_ok.mp h
    cases h
    rw [without, hvalue, hsorted, mapM_withoutFields
      (fun field hfield _ _ => ih field (hperm.mem_iff.mp hfield)) hvalues]
    have hassign : (values.filter fun value => value.1 ≠ lit "__proto__").foldl assign [] =
        values.foldl assign [] := by
      rw [foldl_filter]
      refine foldl_ext _ _ _ fun start field _ => ?_
      by_cases hproto : field.1 = lit "__proto__" <;> simp [assign, hproto]
    exact congrArg (fun fields => Except.ok (Json.obj (enumerate fields))) hassign

/-- Two values of `JSON.parse` have one text exactly when they are equal up to the order of properties
once the properties `__proto__` are left out. They are told apart as they should be exactly when leaving
these out makes no equal values of different ones. -/
theorem canonicalJson_eq_iff {platform : Platform} (hjson : platform.JsonText) {s t : Str}
    (ha : a.Proper) (hb : b.Proper)
    (hs : canonicalJson platform a = .ok s) (ht : canonicalJson platform b = .ok t)
    (hsha : platform.sha256 (utf8Bytes s) = platform.sha256 (utf8Bytes t) → s = t) :
    (s = t ↔ (a.without "__proto__").Same (b.without "__proto__")) ∧
      (canonicalDigest platform a = canonicalDigest platform b ↔ s = t) ∧
      ((s = t ↔ a.Same b) ↔
        ((a.without "__proto__").Same (b.without "__proto__") → a.Same b)) := by
  have hdigest : canonicalDigest platform a = canonicalDigest platform b ↔ s = t := by
    rw [canonicalDigest, canonicalDigest, hs, ht]
    exact ⟨fun h => hsha (Except.ok.inj h), fun h => by rw [h]⟩
  obtain ⟨c, hc, hs⟩ := bind_eq_ok.mp hs
  obtain ⟨d, hd, ht⟩ := bind_eq_ok.mp ht
  cases hs
  cases ht
  have hcanonical : (a.without "__proto__").Same (b.without "__proto__") → c = d := by
    intro h
    have hwithout := canonicalValue_without ha hc
    rw [canonicalValue_congr h, canonicalValue_without hb hd] at hwithout
    exact (Except.ok.inj hwithout).symm
  have htext : platform.stringifyJson c = platform.stringifyJson d ↔
      (a.without "__proto__").Same (b.without "__proto__") := by
    refine ⟨fun h => ?_, fun h => by rw [hcanonical h]⟩
    have hread := (hjson.stringify c).symm.trans ((congrArg _ h).trans (hjson.stringify d))
    have hsame := same_of_canonicalValue (lacks_without ha) (canonicalValue_without ha hc)
    rw [Option.some.inj hread] at hsame
    exact hsame.trans (same_of_canonicalValue (lacks_without hb) (canonicalValue_without hb hd)).symm
  have hsame : a.Same b → platform.stringifyJson c = platform.stringifyJson d := by
    intro h
    rw [canonicalValue_congr h, hd] at hc
    rw [Except.ok.inj hc]
  exact ⟨htext, hdigest, fun h hwithout => h.mp (htext.mpr hwithout),
    fun h => ⟨fun heq => h (htext.mp heq), hsame⟩⟩

/-- A property `__proto__` within an object and another order of the properties make no difference. -/
theorem canonicalJson_eq_iff_nested :
    ((Json.obj [("b", .obj [("__proto__", .null)]), ("a", .null)]).without "__proto__").Same
      ((Json.obj [("a", .null), ("b", .obj [])]).without "__proto__") := by
  have hproper : ∀ fields : List (Str × Json), written (fun _ => true) (.obj fields) = .obj fields →
      (Json.obj fields).Proper := fun fields h => h ▸ Json.proper_written _ _
  exact (canonicalJson_eq_iff Plain.jsonText (hproper _ (by decide)) (hproper _ (by decide)) rfl rfl
    fun _ => by decide +kernel).1.mp (by decide +kernel)

/-- The order of properties does not change their number. -/
theorem length_entries_of_same (h : a.Same b) : a.entries.length = b.entries.length := by
  induction h with
  | refl => rfl
  | symm _ ih => exact ih.symm
  | trans _ _ hab hbc => exact hab.trans hbc
  | item => rfl
  | field => simp [entries]
  | order _ h => exact h.length_eq

/-- The contracts `{"__proto__":null}` and `{}` share their text. -/
theorem proto_contract_shared : ¬ (Json.obj [("__proto__", .null)]).Same (.obj []) ∧
    Plain.platform.parseJson "\x7b\"__proto__\":null\x7d" = some (.obj [("__proto__", .null)]) ∧
    canonicalJson Plain.platform (.obj [("__proto__", .null)]) = .ok (lit "\x7b\x7d") ∧
    canonicalJson Plain.platform (.obj []) = .ok (lit "\x7b\x7d") := by
  refine ⟨fun h => absurd (length_entries_of_same h) (by decide), ?_⟩
  decide +kernel

end Deps

end Ploinky
