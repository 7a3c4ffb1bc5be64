import Ploinky.Lib.PathOrder
import Ploinky.Policy.AccessPath

/-!
# Normalized paths

What `normalize` guarantees about the path it returns, and how such paths match. A normalized path
is a core, or a core followed by `/*`; the core starts with a slash and has no two adjacent ones.
An entry path governs a request path exactly when it is that path, or a wildcard whose core covers
it.
-/

namespace Ploinky.Policy

open Js PathOrder List

/-- A wildcard path is its core followed by the wildcard segment. -/
theorem isWildcard_iff {path : Str} : isWildcard path = true ↔ path = stripWildcard path ++ ['/', '*'] := by
  constructor
  · intro h
    obtain ⟨core, hcore⟩ := endsWith_iff.mp h
    rw [stripWildcard, if_pos h, ← hcore]
    simp [dropLast_append_of_ne_nil]
  · intro h
    rw [isWildcard, endsWith_iff, h]
    exact suffix_append _ _

/-- A path that is no wildcard is its own core. -/
theorem stripWildcard_of_not {path : Str} (h : isWildcard path = false) : stripWildcard path = path := by
  simp [stripWildcard, h]

/-- Being within a namespace is being covered by its root. -/
theorem covers_iff {root path : Str} :
    (path == root || startsWith path (root ++ ['/'])) = true ↔ Covers '/' root path := by
  simp [Covers, startsWith_iff]

/-- An entry path matches the paths its core covers when it is a wildcard, and itself otherwise. -/
theorem matchesPath_iff {path entryPath : Str} : matchesPath path entryPath = true ↔
      path = stripWildcard entryPath ∨
        isWildcard entryPath = true ∧ stripWildcard entryPath ++ ['/'] <+: path := by
  unfold matchesPath
  split_ifs with h
  · rw [covers_iff]
    simp [Covers, h]
  · simp [stripWildcard_of_not (by simpa using h), h]

/-- What `normalize` guarantees of an accepted path. -/
structure NormalPath (path : Str) : Prop where
  starts : ∃ t, stripWildcard path = '/' :: t
  adjacent : ¬ ['/', '/'] <:+: stripWildcard path
  query : '?' ∉ path
  checked : checkPath path true = .ok path

variable {value s : Str} {allowWildcard : Bool} {c mark : Char}

/-- The checks of an accepted path, in the order of the source. -/
theorem checkPath_eq_ok_iff {path : Str} :
    checkPath value allowWildcard = .ok path ↔
      value.contains '#' = false ∧ value.contains '\x00' = false ∧ value.contains '\\' = false ∧
      hasScheme value = false ∧ startsWith value ['/'] = true ∧
      hasEncodedSeparator value = false ∧ (isWildcard value && !allowWildcard) = false ∧
      (coreOf value).contains '*' = false ∧ includes (coreOf value) ['/', '/'] = false ∧
      ((split (coreOf value) '/').contains ['.', '.'] || (split (coreOf value) '/').contains ['.']) = false ∧
      isInternal (if isWildcard value then coreOf value ++ ['/', '*'] else coreOf value) = false ∧
      (if isWildcard value then coreOf value ++ ['/', '*'] else coreOf value) = path := by
  simp only [checkPath, guard_eq_ok, Bool.not_eq_false', Except.ok.injEq]

/-- The core the checks work on is the stripped path, since a bare `/*` is put together to the
internal path `//*` and refused. -/
theorem coreOf_eq_stripWildcard
    (h : isInternal (if isWildcard value then coreOf value ++ ['/', '*'] else coreOf value) = false) :
    coreOf value = stripWildcard value := by
  unfold coreOf at h ⊢
  split_ifs at h ⊢ with hwild hempty
  · exact absurd h (by decide)
  · rfl
  · exact (stripWildcard_of_not (by simpa using hwild)).symm

/-- The checks leave an accepted value as it is. -/
theorem checkPath_spec {path : Str} (h : checkPath value allowWildcard = .ok path) :
    path = value ∧ (∃ t, stripWildcard value = '/' :: t) ∧
      ¬ ['/', '/'] <:+: stripWildcard value ∧ checkPath value true = .ok value ∧
      (allowWildcard = false → isWildcard value = false) := by
  obtain ⟨h1, h2, h3, h4, h5, h6, h7, h8, h9, h10, h11, hpath⟩ := checkPath_eq_ok_iff.mp h
  have hcore := coreOf_eq_stripWildcard h11
  have hvalue : (if isWildcard value then coreOf value ++ ['/', '*'] else coreOf value) = value := by
    rw [hcore]
    split_ifs with hwild
    · exact (isWildcard_iff.mp hwild).symm
    · exact stripWildcard_of_not (by simpa using hwild)
  refine ⟨hpath.symm.trans hvalue, ?_, ?_, ?_, ?_⟩
  · obtain ⟨t, ht⟩ := startsWith_iff.mp h5
    by_cases hwild : isWildcard value = true
    · -- The core of a wildcard is not empty, so it has the leading slash.
      have hsplit := isWildcard_iff.mp hwild
      cases hstrip : stripWildcard value with
      | nil =>
        simp [coreOf, hwild, hstrip] at hcore
      | cons c rest =>
        rw [hstrip] at hsplit
        have : c = '/' := by
          rw [hsplit] at ht
          simpa using (cons.inj ht).1.symm
        exact ⟨rest, by rw [this]⟩
    · exact ⟨t, by rw [stripWildcard_of_not (by simpa using hwild), ← ht]; rfl⟩
  · rw [← includes_iff, ← hcore, h9]
    simp
  · exact checkPath_eq_ok_iff.mpr
      ⟨h1, h2, h3, h4, h5, h6, by simp, h8, h9, h10, h11, hvalue⟩
  · rintro rfl
    simpa using h7

/-- A path that starts and ends in other characters than white space is not changed by `trim`. -/
theorem trimStart_cons (h : isSpace c = false) : trimStart (c :: s) = c :: s := by
  simp [trimStart, h]

/-- Trimming the end stops at the last character that is no white space. -/
theorem trimEnd_append_cons (front rest : Str) (h : isSpace c = false) :
    trimEnd (front ++ c :: rest) = front ++ c :: trimEnd rest := by
  unfold trimEnd rdropWhile
  rw [reverse_append, reverse_cons, append_assoc, dropWhile_append]
  split_ifs with hrest
  · have hnil : (rest.reverse.dropWhile isSpace) = [] := by simpa using hrest
    simp [hnil, h]
  · simp

/-- Cutting at a query mark keeps what has none. -/
theorem before_append {front : Str} (rest : Str) (h : mark ∉ front) :
    before (front ++ rest) mark = front ++ before rest mark := by
  unfold before
  rw [takeWhile_append_of_pos]
  intro c hc
  have : c ≠ mark := fun heq => h (heq ▸ hc)
  simpa using this

/-- A text without the mark is not cut. -/
theorem before_eq_self (h : mark ∉ s) : before s mark = s := by
  simpa [before] using before_append [] h

/-- Nothing before the cut is the mark. -/
theorem not_mem_before (s : Str) (mark : Char) : mark ∉ before s mark := by
  intro h
  have := mem_takeWhile_imp h
  simp at this

/-- `normalize` returns a normal path: the trimmed text before the query. -/
theorem normalize_spec {raw path : Str} (h : normalize raw allowWildcard = .ok path) :
    NormalPath path ∧ path = before (trim raw) '?' ∧ (allowWildcard = false → isWildcard path = false) := by
  unfold normalize at h
  split_ifs at h
  obtain ⟨rfl, hstarts, hadjacent, hchecked, hwild⟩ := checkPath_spec h
  exact ⟨⟨hstarts, hadjacent, not_mem_before _ _, hchecked⟩, rfl, hwild⟩

namespace NormalPath

variable {path : Str}

/-- A normal path starts with a slash. -/
theorem exists_cons (h : NormalPath path) : ∃ t, path = '/' :: t := by
  obtain ⟨t, ht⟩ := h.starts
  by_cases hwild : isWildcard path = true
  · exact ⟨t ++ ['/', '*'], by rw [isWildcard_iff.mp hwild, ht]; rfl⟩
  · exact ⟨t, by rw [← ht, stripWildcard_of_not (by simpa using hwild)]⟩

/-- Trimming a normal path only concerns its end. -/
theorem trim_eq (h : NormalPath path) : trim path = trimEnd path := by
  obtain ⟨t, rfl⟩ := h.exists_cons
  rw [trim, trimStart_cons (by decide)]

/-- A request written below a normal root is normalized to a path below it. -/
theorem before_trim_below (h : NormalPath path) (rest : Str) : before (trim (path ++ '/' :: rest)) '?' =
      path ++ '/' :: before (trimEnd rest) '?' := by
  obtain ⟨t, ht⟩ := h.exists_cons
  have htrim : trim (path ++ '/' :: rest) = path ++ '/' :: trimEnd rest := by
    rw [trim, ht, cons_append, trimStart_cons (by decide), ← cons_append,
      trimEnd_append_cons _ rest (by decide)]
  have hslash : '?' ∉ path ++ ['/'] := by
    simpa using h.query
  have := before_append (trimEnd rest) hslash
  rw [htrim]
  simpa using this

end NormalPath

end Ploinky.Policy
