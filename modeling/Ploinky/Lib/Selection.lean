import Mathlib

/-!
# Choosing from a list

Two ways to choose. `tops` are the elements of the highest rank, and the fold that replaces its
choice only by an element of strictly higher rank ends at the first of them. `fresh` walks an
enumeration of names until one is not in use; an injective enumeration is left within as many steps
as there are names in use.
-/

namespace Selection

open List

variable {α : Type*}

section Rank

variable (rank : α → Nat)

/-- The highest rank in a list, or zero. -/
def topRank (l : List α) : Nat := (l.map rank).foldl max 0

/-- The elements of the highest rank. -/
def tops (l : List α) : List α := l.filter fun x => rank x == topRank rank l

/-- The better of two elements, the first one unless the second has a strictly higher rank. -/
def better (x y : α) : α := if rank y > rank x then y else x

variable {rank} {l : List α} {x y : α}

/-- The fold that computes a maximum may take its start from the list. -/
theorem topRank_cons : topRank rank (x :: l) = max (rank x) (topRank rank l) := by
  rw [topRank, map_cons, foldl_cons, Nat.max_comm, foldl_assoc]
  rfl

/-- No element has a rank above the highest. -/
theorem rank_le_topRank (rank : α → Nat) (h : x ∈ l) : rank x ≤ topRank rank l := by
  induction l with
  | nil => simp at h
  | cons a l ih =>
    rw [topRank_cons]
    rcases mem_cons.mp h with rfl | h
    · exact Nat.le_max_left _ _
    · exact Nat.le_trans (ih h) (Nat.le_max_right _ _)

/-- The highest rank of a list that is not empty is taken by some element. -/
theorem exists_rank_eq_topRank (rank : α → Nat) (h : l ≠ []) : ∃ x ∈ l, rank x = topRank rank l := by
  induction l with
  | nil => exact absurd rfl h
  | cons a l ih =>
    rw [topRank_cons]
    by_cases hl : l = []
    · exact ⟨a, mem_cons_self, by simp [hl, topRank]⟩
    · obtain ⟨x, hx, htop⟩ := ih hl
      rcases Nat.le_total (rank a) (topRank rank l) with hle | hle
      · exact ⟨x, .tail _ hx, by rw [htop, Nat.max_eq_right hle]⟩
      · exact ⟨a, mem_cons_self, by rw [Nat.max_eq_left hle]⟩

/-- Membership among the elements of the highest rank. -/
theorem mem_tops : x ∈ tops rank l ↔ x ∈ l ∧ rank x = topRank rank l := by
  simp [tops]

/-- An element below the highest rank of the rest does not matter. -/
theorem tops_cons_of_lt (h : rank x < topRank rank l) : tops rank (x :: l) = tops rank l := by
  have htop : topRank rank (x :: l) = topRank rank l := by
    rw [topRank_cons, Nat.max_eq_right (Nat.le_of_lt h)]
  rw [tops, htop, filter_cons_of_neg (by simpa using Nat.ne_of_lt h)]
  rfl

/-- An element of the highest rank comes first. -/
theorem tops_cons_of_le (h : topRank rank l ≤ rank x) :
    tops rank (x :: l) = x :: l.filter fun y => rank y == rank x := by
  have htop : topRank rank (x :: l) = rank x := by
    rw [topRank_cons, Nat.max_eq_left h]
  rw [tops, htop, filter_cons_of_pos (by simp)]

/-- The fold over `better` ends at the first element of the highest rank. -/
theorem head?_tops_cons (rank : α → Nat) (x : α) (l : List α) :
    (tops rank (x :: l)).head? = some (l.foldl (better rank) x) := by
  induction l generalizing x with
  | nil => simp [tops, topRank]
  | cons y l ih =>
    rw [foldl_cons, ← ih]
    unfold better
    split_ifs with hlt
    · -- A strictly better second element replaces the first.
      rw [tops_cons_of_lt]
      exact Nat.lt_of_lt_of_le hlt (rank_le_topRank rank (.head _))
    · rcases Nat.lt_or_ge (rank x) (topRank rank l) with hx | hx
      · have hy : rank y < topRank rank l := by omega
        rw [tops_cons_of_lt hx, tops_cons_of_lt (by rw [topRank_cons]; omega),
          tops_cons_of_lt hy]
      · rw [tops_cons_of_le hx, tops_cons_of_le (by rw [topRank_cons]; omega)]
        rfl

/-- The elements of the highest rank of a mapped list. -/
theorem tops_map {β : Type*} (rank : β → Nat) (f : α → β) (l : List α) :
    tops rank (l.map f) = (tops (fun x => rank (f x)) l).map f := by
  have htop : topRank rank (l.map f) = topRank (fun x => rank (f x)) l := by
    simp [topRank, Function.comp_def]
  simp [tops, htop, filter_map, Function.comp_def]

end Rank

section Fresh

variable [DecidableEq α] (name : Nat → α)

/-- The first name, from a number on, that is not in use, within some number of steps. -/
def freshFrom (used : List α) : Nat → Nat → α
  | 0, k => name k
  | fuel + 1, k => if name k ∈ used then freshFrom used fuel (k + 1) else name k

/-- The first name that is not in use. -/
def fresh (used : List α) : α := freshFrom name used used.length 0

variable {name} {used : List α}

/-- The search returns a name of the enumeration. -/
theorem exists_freshFrom_eq (fuel k : Nat) : ∃ n, freshFrom name used fuel k = name n := by
  induction fuel generalizing k with
  | zero => exact ⟨k, rfl⟩
  | succ fuel ih =>
    unfold freshFrom
    split_ifs
    · exact ih (k + 1)
    · exact ⟨k, rfl⟩

/-- When the search ends in a used name, every name it tried is in use. -/
theorem mem_of_freshFrom_mem {fuel k : Nat} (h : freshFrom name used fuel k ∈ used) :
    ∀ n, k ≤ n → n ≤ k + fuel → name n ∈ used := by
  induction fuel generalizing k with
  | zero =>
    intro n hk hn
    obtain rfl : n = k := by omega
    exact h
  | succ fuel ih =>
    unfold freshFrom at h
    split_ifs at h with hmem
    · intro n hk hn
      rcases Nat.eq_or_lt_of_le hk with rfl | hlt
      · exact hmem
      · exact ih h n hlt (by omega)
    · exact absurd h hmem

/-- The name found is not in use. -/
theorem fresh_not_mem (hinj : Function.Injective name) (used : List α) : fresh name used ∉ used := by
  intro h
  have hall := mem_of_freshFrom_mem h
  have hsub : (range (used.length + 1)).map name ⊆ used := by
    intro x hx
    obtain ⟨n, hn, rfl⟩ := mem_map.mp hx
    exact hall n (Nat.zero_le n) (by simpa using Nat.lt_succ_iff.mp (mem_range.mp hn))
  have hnodup : ((range (used.length + 1)).map name).Nodup :=
    List.Nodup.map hinj nodup_range
  have hlen := (hnodup.subperm hsub).length_le
  rw [length_map, length_range] at hlen
  omega

end Fresh

end Selection
