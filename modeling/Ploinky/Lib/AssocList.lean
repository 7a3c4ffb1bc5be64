import Mathlib

/-!
# Association lists

A list of pairs with distinct keys is a finite map. The file gives the lookups after the operations on
such lists, and the uniqueness of the list up to its order: two lists with the same lookups are
permutations of each other, so that sorting both by their keys gives one list.
-/

namespace AssocList

variable {κ α : Type*} [DecidableEq κ] [BEq κ] [LawfulBEq κ]

/-- The keys of a list. -/
abbrev keys (l : List (κ × α)) : List κ := l.map Prod.fst

/-- The list without a key. -/
def erase (l : List (κ × α)) (k : κ) : List (κ × α) := l.filter fun pair => pair.1 ≠ k

/-- The list with a value for a key: in the place of the key, or at the end. -/
def set (l : List (κ × α)) (pair : κ × α) : List (κ × α) :=
  if pair.1 ∈ keys l then l.map fun other => if other.1 = pair.1 then pair else other
  else l ++ [pair]

theorem lookup_cons (pair : κ × α) (l : List (κ × α)) (key : κ) :
    (pair :: l).lookup key = if key = pair.1 then some pair.2 else l.lookup key := by
  obtain ⟨k, v⟩ := pair
  rw [List.lookup_cons]
  by_cases h : key = k
  · simp [h]
  · simp [h, beq_false_of_ne h]

variable {l m : List (κ × α)} {pair : κ × α} {k : κ} {v : α}

/-- A pair of the list is found under its key. -/
theorem lookup_of_mem (hnodup : (keys l).Nodup) (h : (k, v) ∈ l) : l.lookup k = some v := by
  induction l with
  | nil => cases h
  | cons pair rest ih =>
    simp only [List.map_cons, List.nodup_cons] at hnodup
    rw [lookup_cons]
    rcases List.mem_cons.mp h with rfl | htail
    · exact if_pos rfl
    · have hkey : k ≠ pair.1 := fun hk => hnodup.1 (hk ▸ List.mem_map_of_mem htail)
      rw [if_neg hkey]
      exact ih hnodup.2 htail

omit [DecidableEq κ] in
/-- What is found is a pair of the list. -/
theorem mem_of_lookup (h : l.lookup k = some v) : (k, v) ∈ l := by
  obtain ⟨l₁, l₂, rfl, -⟩ := List.lookup_eq_some_iff.mp h
  simp

theorem lookup_eq_some_iff (hnodup : (keys l).Nodup) : l.lookup k = some v ↔ (k, v) ∈ l :=
  ⟨mem_of_lookup, lookup_of_mem hnodup⟩

theorem lookup_eq_none_iff : l.lookup k = none ↔ k ∉ keys l := by
  induction l with
  | nil => simp
  | cons pair rest ih =>
    rw [lookup_cons]
    by_cases h : k = pair.1 <;> simp [h, ih]

/-- Lookups do not depend on the order of the list. -/
theorem lookup_perm (hnodup : (keys l).Nodup) (h : l.Perm m) (k : κ) : m.lookup k = l.lookup k := by
  have hother : (keys m).Nodup := (h.map Prod.fst).nodup_iff.mp hnodup
  ext v
  rw [lookup_eq_some_iff hother, lookup_eq_some_iff hnodup, h.mem_iff]

/-- Lists with the same lookups have the same pairs. -/
theorem perm_of_lookup_eq (hl : (keys l).Nodup) (hm : (keys m).Nodup)
    (h : ∀ k, l.lookup k = m.lookup k) : l.Perm m := by
  rw [List.perm_ext_iff_of_nodup (List.Nodup.of_map _ hl) (List.Nodup.of_map _ hm)]
  intro pair
  rw [← lookup_eq_some_iff hl, ← lookup_eq_some_iff hm, h]

section Sorting

variable {r : κ → κ → Prop} [DecidableRel r] [IsTrans κ r] [Std.Total r] [Std.Antisymm r]

omit [DecidableEq κ] [BEq κ] [LawfulBEq κ] in
/-- Sorting by distinct keys does not depend on the order before it. -/
theorem insertionSort_eq_of_perm {β : Type*} {key : β → κ} {xs ys : List β} (hnodup : (xs.map key).Nodup)
    (h : xs.Perm ys) :
    xs.insertionSort (fun a b => r (key a) (key b)) = ys.insertionSort fun a b => r (key a) (key b) := by
  refine List.Perm.eq_of_pairwise ?_ (List.pairwise_insertionSort _ _) (List.pairwise_insertionSort _ _)
    ((List.perm_insertionSort _ xs).trans (h.trans (List.perm_insertionSort _ ys).symm))
  intro a b ha hb hab hba
  rw [List.mem_insertionSort] at ha hb
  exact List.inj_on_of_nodup_map hnodup ha (h.mem_iff.mpr hb) (Std.Antisymm.antisymm _ _ hab hba)

end Sorting

/-- What is left under the keys that are kept. -/
theorem lookup_filter (l : List (κ × α)) (keep : κ → Bool) (key : κ) :
    (l.filter fun pair => keep pair.1).lookup key = if keep key then l.lookup key else none := by
  induction l with
  | nil => simp
  | cons pair l ih =>
    rw [List.filter_cons]
    by_cases hkey : key = pair.1
    · subst hkey
      cases hkeep : keep pair.1 <;> simp [lookup_cons, ih, hkeep]
    · cases keep pair.1 <;> simp [lookup_cons, ih, hkey]

theorem lookup_erase (l : List (κ × α)) (k key : κ) :
    (erase l k).lookup key = if key = k then none else l.lookup key := by
  unfold erase
  rw [lookup_filter l fun other => decide (other ≠ k)]
  by_cases hkey : key = k <;> simp [hkey]

theorem lookup_map_values {β : Type*} (f : α → β) (l : List (κ × α)) (key : κ) :
    (l.map fun pair => (pair.1, f pair.2)).lookup key = (l.lookup key).map f := by
  induction l with
  | nil => rfl
  | cons pair l ih =>
    rw [List.map_cons, lookup_cons, lookup_cons, ih]
    by_cases hkey : key = pair.1 <;> simp [hkey]

omit [BEq κ] [LawfulBEq κ] in
theorem nodup_keys_erase (h : (keys l).Nodup) (k : κ) : (keys (erase l k)).Nodup :=
  h.sublist (List.filter_sublist.map _)

theorem mem_set {other : κ × α} (h : other ∈ set l pair) : other = pair ∨ other ∈ l := by
  unfold set at h
  split_ifs at h
  · obtain ⟨old, hold, rfl⟩ := List.mem_map.mp h
    by_cases hkey : old.1 = pair.1
    · exact .inl (if_pos hkey)
    · exact .inr (by rwa [if_neg hkey])
  · rw [List.mem_append, List.mem_singleton] at h
    exact h.symm

theorem lookup_set (l : List (κ × α)) (pair : κ × α) (key : κ) :
    (set l pair).lookup key = if key = pair.1 then some pair.2 else l.lookup key := by
  have hmap : ∀ l : List (κ × α),
      (l.map fun other => if other.1 = pair.1 then pair else other).lookup key =
        if key = pair.1 ∧ pair.1 ∈ keys l then some pair.2 else l.lookup key := by
    intro l
    induction l with
    | nil => simp
    | cons other rest ih =>
      rw [List.map_cons, lookup_cons, lookup_cons, ih]
      by_cases hother : other.1 = pair.1
      · by_cases hkey : key = pair.1 <;> simp [hother, hkey]
      · have hmem : pair.1 ∈ keys (other :: rest) ↔ pair.1 ∈ keys rest := by
          simp [Ne.symm hother]
        by_cases hkey : key = pair.1 <;> simp only [hother, hkey, hmem, Ne.symm hother, if_false, false_and]
  unfold set
  split_ifs with hmem hkey hkey
  · rw [hmap, if_pos ⟨hkey, hmem⟩]
  · rw [hmap, if_neg fun h => hkey h.1]
  · rw [List.lookup_append, lookup_eq_none_iff.mpr (hkey ▸ hmem), lookup_cons, if_pos hkey]
    rfl
  · rw [List.lookup_append, lookup_cons, if_neg hkey]
    simp

theorem keys_set (l : List (κ × α)) (pair : κ × α) :
    keys (set l pair) = if pair.1 ∈ keys l then keys l else keys l ++ [pair.1] := by
  unfold set
  split_ifs with hmem
  · rw [keys, List.map_map]
    refine List.map_congr_left fun other _ => ?_
    by_cases heq : other.1 = pair.1 <;> simp [heq]
  · simp [keys]

theorem nodup_keys_set (h : (keys l).Nodup) (pair : κ × α) : (keys (set l pair)).Nodup := by
  rw [keys_set]
  split_ifs with hmem
  · exact h
  · exact h.append (List.nodup_singleton _) (List.disjoint_singleton.mpr hmem)

theorem mem_keys_set {key : κ} : key ∈ keys (set l pair) ↔ key = pair.1 ∨ key ∈ keys l := by
  rw [← not_iff_not, not_or, ← lookup_eq_none_iff, ← lookup_eq_none_iff, lookup_set]
  split_ifs with hkey
  · simp [hkey]
  · simp [hkey]

end AssocList
