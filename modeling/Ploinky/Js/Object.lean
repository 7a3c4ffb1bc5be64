import Ploinky.Js.Platform
import Ploinky.Lib.AssocList

/-!
# The property order of objects

An object enumerates the array indices among its keys first, in ascending order, and then its other
keys in the order of their creation. Building an object from a list of entries therefore does not keep
the list's order.
-/

namespace Ploinky.Js

open List

variable {α β : Type}

/-- A key that is an array index. -/
def isIndex (key : Str) : Bool :=
  key == ofNat (decimal key) && decide (decimal key < 2 ^ 32 - 1)

/-- The entries of an object in its property order, given in the order of their creation. -/
def enumerate (fields : List (Str × α)) : List (Str × α) :=
  (fields.filter fun field => isIndex field.1).insertionSort
    (fun a b => decimal a.1 ≤ decimal b.1) ++ fields.filter fun field => !isIndex field.1

/-- `object[key] = value` on a list of properties in the order of their creation. -/
def setProperty (fields : List (Str × α)) (field : Str × α) : List (Str × α) :=
  if field.1 ∈ fields.map Prod.fst then
    fields.map fun other => if other.1 = field.1 then field else other
  else fields ++ [field]

/-- `Object.fromEntries(entries)`. -/
def fromEntries (fields : List (Str × α)) : List (Str × α) := enumerate (fields.foldl setProperty [])

/-- Change the values of a list of entries. -/
def mapValues (f : α → β) (fields : List (Str × α)) : List (Str × β) :=
  fields.map fun field => (field.1, f field.2)

/-- Building an object keeps its entries. -/
theorem enumerate_perm (fields : List (Str × α)) : (enumerate fields).Perm fields := by
  refine List.Perm.trans (List.Perm.append_right _ (perm_insertionSort _ _)) ?_
  exact filter_append_perm _ _

/-- The property order depends on the keys only. -/
theorem enumerate_mapValues (f : α → β) (fields : List (Str × α)) :
    enumerate (mapValues f fields) = mapValues f (enumerate fields) := by
  unfold enumerate mapValues
  rw [map_append, filter_map, filter_map]
  rw [map_insertionSort _ fun a b : Str × β => decimal a.1 ≤ decimal b.1]
  · rfl
  · intro a _ b _
    rfl

/-- The number of the key, by which array indices are ordered. -/
def indexLe (a b : Str × α) : Prop := decimal a.1 ≤ decimal b.1

instance : DecidableRel (indexLe (α := α)) := fun _ _ => Nat.decLe _ _

instance : Std.Total (indexLe (α := α)) := ⟨fun _ _ => Nat.le_total _ _⟩

instance : IsTrans (Str × α) indexLe := ⟨fun _ _ _ => Nat.le_trans⟩

/-! ## Objects from entries -/

variable {fields start : List (Str × α)}

/-- The names of the properties that assignments create are distinct. -/
theorem nodup_foldl_setProperty (fields : List (Str × α)) (h : (start.map Prod.fst).Nodup) :
    ((fields.foldl setProperty start).map Prod.fst).Nodup := by
  induction fields generalizing start with
  | nil => exact h
  | cons field fields ih => exact ih (AssocList.nodup_keys_set h field)

/-- Assigning properties that are new appends them. -/
theorem foldl_setProperty_of_nodup (fields : List (Str × α)) (h : ((start ++ fields).map Prod.fst).Nodup) :
    fields.foldl setProperty start = start ++ fields := by
  induction fields generalizing start with
  | nil => simp
  | cons field fields ih =>
    have hnew : field.1 ∉ start.map Prod.fst := by
      rw [map_append, nodup_append] at h
      intro hmem
      exact h.2.2 _ hmem _ (by simp) rfl
    have hset : setProperty start field = start ++ [field] := if_neg hnew
    rw [foldl_cons, hset, ih (by simpa using h)]
    simp

/-- Entries with distinct names are all kept. -/
theorem fromEntries_of_nodup (h : (fields.map Prod.fst).Nodup) :
    fromEntries fields = enumerate fields := by
  unfold fromEntries
  rw [foldl_setProperty_of_nodup fields (by simpa using h)]
  rfl

/-- The names of an object are distinct. -/
theorem nodup_fromEntries (fields : List (Str × α)) : ((fromEntries fields).map Prod.fst).Nodup :=
  ((enumerate_perm _).map Prod.fst).nodup_iff.mpr (nodup_foldl_setProperty fields nodup_nil)

/-- The property order of an object is its own. -/
theorem enumerate_enumerate (fields : List (Str × α)) : enumerate (enumerate fields) = enumerate fields := by
  have hparts : ∀ indices others : List (Str × α), indices.Pairwise indexLe →
      (∀ field ∈ indices, isIndex field.1 = true) → (∀ field ∈ others, isIndex field.1 = false) →
      enumerate (indices ++ others) = indices ++ others := by
    intro indices others hsorted hindices hothers
    show insertionSort indexLe _ ++ _ = _
    rw [filter_append, filter_append, filter_eq_self.mpr hindices,
      filter_eq_nil_iff.mpr (by simpa using hothers), filter_eq_nil_iff.mpr (by simpa using hindices),
      filter_eq_self.mpr (by simpa using hothers), append_nil, hsorted.insertionSort_eq]
    rfl
  refine hparts _ _ (pairwise_insertionSort indexLe _) (fun field hfield => ?_) fun field hfield => ?_
  · exact (mem_filter.mp ((mem_insertionSort _).mp hfield)).2
  · simpa using (mem_filter.mp hfield).2

/-- An object built from the entries of an object is the same object. -/
theorem fromEntries_fromEntries (fields : List (Str × α)) :
    fromEntries (fromEntries fields) = fromEntries fields := by
  rw [fromEntries_of_nodup (nodup_fromEntries fields)]
  exact enumerate_enumerate _

/-- The properties of an object come from its entries. -/
theorem mem_of_mem_fromEntries {field : Str × α} (h : field ∈ fromEntries fields) : field ∈ fields := by
  have hstep : ∀ (rest start : List (Str × α)), field ∈ rest.foldl setProperty start →
      field ∈ start ∨ field ∈ rest := by
    intro rest
    induction rest with
    | nil => exact fun start hmem => .inl hmem
    | cons other rest ih =>
      intro start hmem
      rcases ih _ hmem with hmem | hmem
      · unfold setProperty at hmem
        grind
      · exact .inr (.tail _ hmem)
  have hmem := (enumerate_perm _).mem_iff.mp h
  simpa using hstep fields [] hmem

/-- Building an object treats its values alike. -/
theorem fromEntries_mapValues (f : α → β) (fields : List (Str × α)) :
    fromEntries (mapValues f fields) = mapValues f (fromEntries fields) := by
  have hset : ∀ (start : List (Str × α)) (field : Str × α),
      setProperty (mapValues f start) (field.1, f field.2) = mapValues f (setProperty start field) := by
    intro start field
    have hkeys : (mapValues f start).map Prod.fst = start.map Prod.fst := by
      simp [mapValues]
    unfold setProperty
    rw [hkeys]
    split_ifs
    · simp only [mapValues, map_map, map_inj_left]
      intro other _
      by_cases heq : other.1 = field.1 <;> simp [heq]
    · simp [mapValues]
  have hfold : ∀ (rest start : List (Str × α)), (mapValues f rest).foldl setProperty
      (mapValues f start) = mapValues f (rest.foldl setProperty start) := by
    intro rest
    induction rest with
    | nil => exact fun start => rfl
    | cons field rest ih =>
      intro start
      show (mapValues f rest).foldl setProperty (setProperty (mapValues f start) _) = _
      rw [hset, ih]
      rfl
  unfold fromEntries
  rw [show ([] : List (Str × β)) = mapValues f [] from rfl, hfold, enumerate_mapValues]

/-- The names are distinct and no array indices. -/
def isLiteral (names : List Str) : Bool := decide names.Nodup && names.all fun name => !isIndex name

/-- A literal with such names is the object it writes. -/
theorem fromEntries_literal (h : isLiteral (fields.map Prod.fst) = true) :
    fromEntries fields = fields := by
  simp only [isLiteral, Bool.and_eq_true, decide_eq_true_eq, all_eq_true, Bool.not_eq_true'] at h
  have hnot : ∀ field ∈ fields, isIndex field.1 = false := fun field hfield =>
    h.2 field.1 (mem_map_of_mem hfield)
  rw [fromEntries_of_nodup h.1]
  unfold enumerate
  rw [filter_eq_nil_iff.mpr (by simpa using hnot), filter_eq_self.mpr (by simpa using hnot)]
  rfl

end Ploinky.Js
