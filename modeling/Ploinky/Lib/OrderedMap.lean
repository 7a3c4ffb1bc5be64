import Ploinky.Lib.AssocList

/-!
# Maps in insertion order

A map that is enumerated in the order in which its keys were added. The distinct keys are part of the
type, so that a lookup determines the entry it comes from. Besides the lookups after each operation the
file gives the sums over the values, by which a running total of a table of maps is checked.
-/

/-- A finite map with its entries in the order of insertion. -/
structure OrderedMap (κ α : Type*) where
  entries : List (κ × α)
  nodup : (AssocList.keys entries).Nodup

namespace OrderedMap

open AssocList

open List hiding lookup_eq_none_iff

variable {κ α : Type*}

/-- The map without entries. -/
def empty : OrderedMap κ α := ⟨[], nodup_nil⟩

variable (m : OrderedMap κ α)

/-- The number of entries. -/
def size : Nat := m.entries.length

/-- The entries whose value meets the test. -/
def filter (keep : α → Bool) : OrderedMap κ α :=
  ⟨m.entries.filter fun pair => keep pair.2, m.nodup.sublist (filter_sublist.map _)⟩

/-- The entries from the first one on whose value does not meet the test. -/
def dropWhile (p : α → Bool) : OrderedMap κ α :=
  ⟨m.entries.dropWhile fun pair => p pair.2, m.nodup.sublist ((dropWhile_sublist _).map _)⟩

/-- The map with every value changed. -/
def mapValues {β : Type*} (f : α → β) : OrderedMap κ β :=
  ⟨m.entries.map fun pair => (pair.1, f pair.2), by
    have hkeys : AssocList.keys (m.entries.map fun pair => (pair.1, f pair.2)) =
        keys m.entries := by
      simp only [AssocList.keys, map_map]
      rfl
    rw [hkeys]
    exact m.nodup⟩

/-- The sum of a measure of the values. -/
def sum (f : α → Nat) : Nat := (m.entries.map fun pair => f pair.2).sum

variable {β : Type*} {m : OrderedMap κ α} {k : κ} {v : α}

theorem sum_mapValues (g : α → β) (f : β → Nat) :
    (m.mapValues g).sum f = m.sum fun v => f (g v) := by
  simp only [sum, mapValues, map_map]
  rfl

/-- Values that count nothing may be left out of a sum. -/
theorem sum_filter {keep : α → Bool} {f : α → Nat} (h : ∀ v, keep v = false → f v = 0) :
    (m.filter keep).sum f = m.sum f := by
  show ((m.entries.filter fun pair => keep pair.2).map fun pair => f pair.2).sum = m.sum f
  unfold sum
  induction m.entries with
  | nil => rfl
  | cons pair rest ih =>
    rw [filter_cons]
    cases hkeep : keep pair.2 with
    | true => simpa using ih
    | false => simpa [h pair.2 hkeep] using ih

variable [DecidableEq κ]

/-- The value of a key. -/
def get (k : κ) : Option α := m.entries.lookup k

/-- The map without a key. -/
def delete (k : κ) : OrderedMap κ α :=
  ⟨AssocList.erase m.entries k, AssocList.nodup_keys_erase m.nodup k⟩

/-- The map with a value for a key: in the place of the key, or at the end. -/
def set (k : κ) (v : α) : OrderedMap κ α :=
  ⟨AssocList.set m.entries (k, v), AssocList.nodup_keys_set m.nodup (k, v)⟩

/-! ## Lookups -/

theorem get_eq_some_iff : m.get k = some v ↔ (k, v) ∈ m.entries := AssocList.lookup_eq_some_iff m.nodup

@[simp]
theorem get_empty (k : κ) : (empty : OrderedMap κ α).get k = none := rfl

theorem get_delete (k key : κ) :
    (m.delete k).get key = if key = k then none else m.get key := AssocList.lookup_erase _ _ _

theorem get_set (k key : κ) (v : α) :
    (m.set k v).get key = if key = k then some v else m.get key := AssocList.lookup_set _ _ _

theorem get_mapValues (f : α → β) (k : κ) :
    (m.mapValues f).get k = (m.get k).map f := AssocList.lookup_map_values _ _ _

theorem get_filter_eq_some_iff {keep : α → Bool} :
    (m.filter keep).get k = some v ↔ m.get k = some v ∧ keep v = true := by
  rw [get_eq_some_iff, get_eq_some_iff]
  exact mem_filter

/-- An entry that does not meet the test stays when a prefix is dropped. -/
theorem get_dropWhile_of_get {p : α → Bool} (h : m.get k = some v) (hv : p v = false) :
    (m.dropWhile p).get k = some v := by
  rw [get_eq_some_iff] at h ⊢
  have hsplit := takeWhile_append_dropWhile (p := fun pair : κ × α => p pair.2) (l := m.entries)
  rw [← hsplit, mem_append] at h
  refine h.resolve_left fun htaken => ?_
  have htest := mem_takeWhile_imp htaken
  rw [hv] at htest
  cases htest

/-! ## Splitting at a key -/

/-- An entry splits the map, and the operations on its key act between the two parts. -/
theorem exists_split_of_get (h : m.get k = some v) : ∃ before after, m.entries = before ++ (k, v) :: after ∧
      (m.delete k).entries = before ++ after ∧ ∀ w, (m.set k w).entries = before ++ (k, w) :: after := by
  obtain ⟨before, after, hentries⟩ := append_of_mem (get_eq_some_iff.mp h)
  have hnodup := m.nodup
  rw [hentries, AssocList.keys, map_append, map_cons, nodup_middle,
    nodup_cons, mem_append, not_or] at hnodup
  obtain ⟨⟨hbefore, hafter⟩, -⟩ := hnodup
  have hne : ∀ {l : List (κ × α)}, k ∉ l.map Prod.fst → ∀ pair ∈ l, pair.1 ≠ k :=
    fun hl pair hpair heq => hl (heq ▸ mem_map_of_mem hpair)
  have herase : ∀ {l : List (κ × α)}, k ∉ l.map Prod.fst → erase l k = l :=
    fun hl => filter_eq_self.mpr fun pair hpair => decide_eq_true (hne hl pair hpair)
  have hmap : ∀ {l : List (κ × α)} (w : α), k ∉ l.map Prod.fst →
      (l.map fun other => if other.1 = k then (k, w) else other) = l := fun w hl =>
    (map_congr_left fun pair hpair => if_neg (hne hl pair hpair)).trans (map_id _)
  refine ⟨before, after, hentries, ?_, fun w => ?_⟩
  · show erase m.entries k = before ++ after
    rw [hentries, erase, filter_append, filter_cons_of_neg (by simp)]
    exact congrArg₂ _ (herase hbefore) (herase hafter)
  · show AssocList.set m.entries (k, w) = before ++ (k, w) :: after
    rw [AssocList.set, if_pos (by simp [hentries]), hentries, map_append,
      map_cons, if_pos rfl]
    exact congrArg₂ _ (hmap w hbefore) (congrArg _ (hmap w hafter))

/-- A new key is added at the end. -/
theorem entries_set_of_get (h : m.get k = none) (v : α) : (m.set k v).entries = m.entries ++ [(k, v)] :=
  if_neg (AssocList.lookup_eq_none_iff.mp h)

/-! ## Sizes and sums -/

theorem sum_set_of_get (h : m.get k = some v) (w : α) (f : α → Nat) :
    (m.set k w).sum f + f v = m.sum f + f w := by
  obtain ⟨before, after, hentries, -, hset⟩ := exists_split_of_get h
  simp only [sum, hset, hentries, map_append, map_cons, sum_append, sum_cons]
  omega

theorem sum_set_of_none (h : m.get k = none) (v : α) (f : α → Nat) : (m.set k v).sum f = m.sum f + f v := by
  simp [sum, entries_set_of_get h]

theorem sum_delete_of_get (h : m.get k = some v) (f : α → Nat) : (m.delete k).sum f + f v = m.sum f := by
  obtain ⟨before, after, hentries, hdelete, -⟩ := exists_split_of_get h
  simp only [sum, hdelete, hentries, map_append, map_cons, sum_append, sum_cons]
  omega

theorem size_set_of_get (h : m.get k = some v) (w : α) : (m.set k w).size = m.size := by
  obtain ⟨before, after, hentries, -, hset⟩ := exists_split_of_get h
  simp [size, hset, hentries]

theorem size_set_of_none (h : m.get k = none) (v : α) : (m.set k v).size = m.size + 1 := by
  simp [size, entries_set_of_get h]

theorem size_delete_of_get (h : m.get k = some v) : (m.delete k).size + 1 = m.size := by
  obtain ⟨before, after, hentries, hdelete, -⟩ := exists_split_of_get h
  simp [size, hdelete, hentries, Nat.add_assoc]

theorem delete_of_get (h : m.get k = none) : m.delete k = m := by
  have hkeys := AssocList.lookup_eq_none_iff.mp h
  have hentries : erase m.entries k = m.entries :=
    filter_eq_self.mpr fun pair hpair =>
      decide_eq_true fun heq => hkeys (heq ▸ mem_map_of_mem hpair)
  cases m
  simpa only [delete, mk.injEq] using hentries

/-- A map with fewer keys is smaller. -/
theorem size_lt_of_sublist {n : OrderedMap κ β}
    (h : (AssocList.keys n.entries).Sublist (AssocList.keys m.entries)) (hm : m.get k ≠ none)
    (hn : n.get k = none) : n.size < m.size := by
  have hle : n.size ≤ m.size := by simpa [size] using h.length_le
  refine lt_of_le_of_ne hle fun heq => ?_
  have hkeys : keys n.entries = keys m.entries :=
    h.eq_of_length (by simpa [size] using heq)
  have hmem := (not_congr lookup_eq_none_iff).mp hm
  rw [not_not, ← hkeys] at hmem
  exact lookup_eq_none_iff.mp hn hmem

end OrderedMap
