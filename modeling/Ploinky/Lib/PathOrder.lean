import Mathlib

/-!
# Paths under a separator

A path is a list over some alphabet, read as segments between occurrences of a separator. A path
covers itself and every path that continues it with a separator. The file gives the order facts of
`Covers` (it is a preorder in which the paths above a given one are comparable) and the passage
between a path and its segments, for paths in which no two separators are adjacent.
-/

namespace PathOrder

open List Option

variable {α : Type*} {sep : α} {a b p root child : List α}

/-- The path is the root or lies below it. -/
def Covers (sep : α) (root path : List α) : Prop :=
  path = root ∨ root ++ [sep] <+: path

/-- A path covers itself. -/
theorem Covers.refl (p : List α) : Covers sep p p := .inl rfl

/-- A path covers its continuations. -/
theorem covers_append (root rest : List α) : Covers sep root (root ++ sep :: rest) :=
  .inr ⟨rest, by simp⟩

/-- What a path covers properly starts with the path and a separator. -/
theorem Covers.exists_append (h : Covers sep root p) : p = root ∨ ∃ rest, p = root ++ sep :: rest := by
  rcases h with h | ⟨rest, h⟩
  · exact .inl h
  · exact .inr ⟨rest, by simp [← h]⟩

/-- A path covers what a path it covers covers. -/
theorem Covers.trans (hab : Covers sep a b) (hbp : Covers sep b p) : Covers sep a p := by
  rcases hbp.exists_append with rfl | ⟨rest, rfl⟩
  · exact hab
  · rcases hab.exists_append with rfl | ⟨middle, rfl⟩
    · exact covers_append _ rest
    · exact .inr ⟨middle ++ sep :: rest, by simp⟩

/-- A path with a separator after it that is a prefix of another such path covers that path. -/
theorem covers_of_prefix_append (h : a ++ [sep] <+: b ++ [sep]) : Covers sep a b := by
  rcases prefix_concat_iff.mp h with heq | hlead
  · exact .inl (append_cancel_right heq).symm
  · exact .inr hlead

/-- Two paths with a common proper continuation are comparable. -/
theorem covers_or_covers (ha : a ++ [sep] <+: p) (hb : b ++ [sep] <+: p) :
    Covers sep a b ∨ Covers sep b a := by
  rcases prefix_or_prefix_of_prefix ha hb with h | h
  · exact .inl (covers_of_prefix_append h)
  · exact .inr (covers_of_prefix_append h)

/-- What covers a child of a path is the child itself or covers the path. -/
theorem Covers.of_child (hchild : sep ∉ child) (h : Covers sep a (p ++ sep :: child)) :
    a = p ++ sep :: child ∨ Covers sep a p := by
  rcases h with h | h
  · exact .inl h.symm
  · right
    have hp : p ++ [sep] <+: p ++ sep :: child := ⟨child, by simp⟩
    rcases prefix_or_prefix_of_prefix h hp with hle | hle
    · exact covers_of_prefix_append hle
    · -- A longer path would put a separator into the child.
      obtain ⟨rest, hrest⟩ := hle
      obtain ⟨tail, htail⟩ := h
      rw [← hrest, append_assoc] at htail
      have hsplit : rest ++ tail = child := by simpa using htail
      cases rest using reverseRecOn with
      | nil => exact .inl (by simpa using hrest)
      | append_singleton front last =>
        have hlast : last = sep := by
          have hend := congrArg getLast? hrest
          rw [← append_assoc, getLast?_concat, getLast?_concat] at hend
          exact some.inj hend
        exact absurd (by simp [← hsplit, hlast]) hchild

/-- Joining the segments of two lists puts a separator between the two. -/
theorem intercalate_append {l m : List (List α)} (hl : l ≠ []) (hm : m ≠ []) :
    [sep].intercalate (l ++ m) = [sep].intercalate l ++ sep :: [sep].intercalate m := by
  induction l with
  | nil => exact absurd rfl hl
  | cons x l ih =>
    by_cases hnil : l = []
    · simp [hnil, intercalate_cons_of_ne_nil hm]
    · have happend : l ++ m ≠ [] := by simp [hnil]
      rw [cons_append, intercalate_cons_of_ne_nil happend, ih hnil, intercalate_cons_of_ne_nil hnil]
      simp

/-- The path continues the root by segments that are not empty. -/
inductive Extends (sep : α) (root : List α) : List α → Prop
  | refl : Extends sep root root
  | child {p child : List α} : Extends sep root p → child ≠ [] → sep ∉ child →
      Extends sep root (p ++ sep :: child)

namespace Extends

/-- A root covers its extensions. -/
theorem covers (h : Extends sep root p) : Covers sep root p := by
  induction h with
  | refl => exact .refl _
  | child _ _ _ ih => exact ih.trans (covers_append _ _)

/-- An extension of an extension is an extension. -/
theorem trans (hab : Extends sep a b) (hbp : Extends sep b p) : Extends sep a p := by
  induction hbp with
  | refl => exact hab
  | child _ hne hchild ih => exact .child ih hne hchild

/-- No separator ends an extension, unless it ends the root. -/
theorem not_suffix (h : Extends sep root p) (hlast : ¬ [sep] <:+ root) : ¬ [sep] <:+ p := by
  induction h with
  | refl => exact hlast
  | @child p child _ hne hchild _ =>
    rintro ⟨front, hfront⟩
    obtain ⟨start, last, rfl⟩ := (eq_nil_or_concat child).resolve_left hne
    have hend := congrArg getLast? hfront
    rw [concat_eq_append, ← cons_append, ← append_assoc, getLast?_concat,
      getLast?_concat] at hend
    exact hchild (by simp [some.inj hend])

/-- An extension has no adjacent separators, unless the root has or ends in one. -/
theorem not_adjacent (h : Extends sep root p) (hlast : ¬ [sep] <:+ root)
    (hadjacent : ¬ [sep, sep] <:+: root) : ¬ [sep, sep] <:+: p := by
  induction h with
  | refl => exact hadjacent
  | @child p child hp _ hchild ih =>
    rintro ⟨front, back, heq⟩
    rw [append_assoc] at heq
    rcases append_eq_append_iff.mp heq with ⟨w, hw, hrest⟩ | ⟨w, hw, hrest⟩
    · -- The pair starts in `p`: it lies in it, or `p` ends in a separator, or the child starts in one.
      match w, hrest with
      | [], hrest =>
        simp only [nil_append, cons_append, cons.injEq, true_and] at hrest
        exact hchild (hrest ▸ (.head _))
      | [x], hrest =>
        have hx : x = sep := by simpa using congrArg head? hrest.symm
        exact hp.not_suffix hlast ⟨front, by rw [hw, hx]⟩
      | x :: y :: w, hrest =>
        simp only [cons_append, cons.injEq] at hrest
        exact ih ⟨front, w, by rw [hw, ← hrest.1, ← hrest.2.1]; simp⟩
    · cases w with
      | nil =>
        simp only [nil_append, cons_append, cons.injEq, true_and] at hrest
        exact hchild (hrest ▸ (.head _))
      | cons x w =>
        simp only [cons_append, cons.injEq] at hrest
        exact hchild (by simp [hrest.2])

/-- Joined segments extend a root. -/
theorem of_intercalate {l : List (List α)} (hl : l ≠ [])
    (hsegments : ∀ segment ∈ l, segment ≠ [] ∧ sep ∉ segment) :
    Extends sep root (root ++ sep :: [sep].intercalate l) := by
  induction l generalizing root with
  | nil => exact absurd rfl hl
  | cons first l ih =>
    obtain ⟨hne, hfirst⟩ := hsegments first (.head _)
    have hchild : Extends sep root (root ++ sep :: first) := .child .refl hne hfirst
    by_cases hnil : l = []
    · simpa [hnil] using hchild
    · have hrest : Extends sep (root ++ sep :: first)
          (root ++ sep :: first ++ sep :: [sep].intercalate l) :=
        ih hnil fun segment hsegment => hsegments segment (.tail _ hsegment)
      rw [intercalate_cons_of_ne_nil hnil]
      simpa using hchild.trans hrest

end Extends

section Segments

variable [BEq α] [LawfulBEq α]

/-- The segments of a path are the non-empty pieces between its separators. -/
def segments (sep : α) (p : List α) : List (List α) :=
  (p.splitOn sep).filter fun piece => !piece.isEmpty

/-- The segments of a continued path. -/
theorem segments_append_cons (a b : List α) :
    segments sep (a ++ sep :: b) = segments sep a ++ segments sep b := by
  simp [segments, splitOn_append_cons_self]

/-- An empty piece after the first one sits between two adjacent separators or at the end. -/
theorem nil_mem_tail_splitOn {p : List α} (h : [] ∈ (p.splitOn sep).tail) :
    [sep, sep] <:+: p ∨ [sep] <:+ p := by
  by_cases hmem : sep ∈ p
  · obtain ⟨front, back, rfl, hfront⟩ := eq_append_cons_of_mem hmem
    rw [splitOn_append_cons_self_of_not_mem hfront, tail_cons] at h
    obtain ⟨first, rest, hsplit⟩ := exists_cons_of_ne_nil (splitOn_ne_nil sep back)
    rw [hsplit] at h
    rcases mem_cons.mp h with rfl | hrest
    · -- What is after the separator is empty, or starts with another one.
      have hback : [sep].intercalate ([] :: rest) = back := by rw [← hsplit, intercalate_splitOn]
      cases rest with
      | nil => exact .inr ⟨front, by simp [← hback]⟩
      | cons piece rest =>
        exact .inl ⟨front, [sep].intercalate (piece :: rest), by simp [← hback, intercalate_cons_cons]⟩
    · have hsuffix : back <:+ front ++ sep :: back := ⟨front ++ [sep], by simp⟩
      have hin : [] ∈ (back.splitOn sep).tail := hsplit ▸ hrest
      exact (nil_mem_tail_splitOn hin).imp (·.trans hsuffix.isInfix) (·.trans hsuffix)
  · rw [splitOn_eq_singleton hmem] at h
    cases h
termination_by p.length

/-- A piece has no separator. -/
theorem not_mem_of_mem_splitOn {p piece : List α} (h : piece ∈ p.splitOn sep) : sep ∉ piece := by
  by_cases hmem : sep ∈ p
  · obtain ⟨front, back, rfl, hfront⟩ := eq_append_cons_of_mem hmem
    rw [splitOn_append_cons_self_of_not_mem hfront] at h
    rcases mem_cons.mp h with rfl | h
    · exact hfront
    · exact not_mem_of_mem_splitOn h
  · rw [splitOn_eq_singleton hmem] at h
    exact mem_singleton.mp h ▸ hmem
termination_by p.length

/-- A segment is not empty and has no separator. -/
theorem mem_segments {segment : List α} (h : segment ∈ segments sep p) : segment ≠ [] ∧ sep ∉ segment := by
  obtain ⟨hpiece, hne⟩ := mem_filter.mp h
  exact ⟨by simpa using hne, not_mem_of_mem_splitOn hpiece⟩

/-- A path that starts with a separator, has no two adjacent ones and does not end in one is put
together again from its segments. -/
theorem cons_intercalate_segments {t : List α} (hadjacent : ¬ [sep, sep] <:+: sep :: t)
    (hlast : ¬ [sep] <:+ sep :: t) : sep :: [sep].intercalate (segments sep (sep :: t)) = sep :: t := by
  have hsplit : (sep :: t).splitOn sep = [] :: t.splitOn sep := by
    simpa using splitOn_append_cons_self (a := sep) [] t
  have hpieces : ∀ piece ∈ t.splitOn sep, piece ≠ [] := by
    rintro piece hpiece rfl
    have htail : [] ∈ ((sep :: t).splitOn sep).tail := by simpa [hsplit] using hpiece
    rcases nil_mem_tail_splitOn htail with h | h
    · exact hadjacent h
    · exact hlast h
  have hsegments : segments sep (sep :: t) = t.splitOn sep := by
    rw [segments, hsplit, filter_cons_of_neg (by simp)]
    exact filter_eq_self.mpr fun piece hpiece => by
      simpa using hpieces piece hpiece
  rw [hsegments, intercalate_splitOn]

end Segments

end PathOrder
