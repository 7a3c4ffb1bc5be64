import Ploinky.Policy.Compiler
import Ploinky.Policy.NormalPath
import Ploinky.Policy.Reload

/-!
# The representative paths of a namespace

The boundaries of a namespace are its root, the cores of the entries in it and the paths between
them; every boundary also contributes one child that no core uses. `exists_base` finds, for a path of
the namespace, the deepest boundary above it, and `wildcard_above_iff` says that the wildcards above
the path are those that cover this boundary. Cores that end in a slash are left out: the compiler
drops their last, empty segment.
-/

namespace Ploinky.Policy

open Js PathOrder List

variable {root q b : Str} {entries : List Entry} {entry : Entry}

/-- The segments of the compiler are those of the path library. -/
theorem segments_eq (path : Str) : segments path = PathOrder.segments '/' path := rfl

variable {core r : Str} {localeLe : Str → Str → Bool}

/-- A normal core that does not end in a slash is joined again from its segments. -/
theorem joinPath_segments (hstart : ∃ t, core = '/' :: t) (hadjacent : ¬ ['/', '/'] <:+: core)
    (hlast : ¬ ['/'] <:+ core) : joinPath (segments core) = core := by
  obtain ⟨t, rfl⟩ := hstart
  exact cons_intercalate_segments hadjacent hlast

/-- The boundary cores are the cores in the namespace. -/
theorem mem_boundaryCores : core ∈ boundaryCores root entries ↔
      ∃ entry ∈ entries, entryCore entry = core ∧ Covers '/' root core := by
  simp only [boundaryCores, mem_filter, mem_map, isWithin, covers_iff]
  constructor
  · rintro ⟨⟨entry, ⟨hentry, -⟩, rfl⟩, hcovers⟩
    exact ⟨entry, hentry, rfl, hcovers⟩
  · rintro ⟨entry, hentry, rfl, hcovers⟩
    refine ⟨⟨entry, ⟨hentry, ?_⟩, rfl⟩, hcovers⟩
    have hwithin : isWithin root (entryCore entry) = true := covers_iff.mpr hcovers
    simp [entryIntersectsNamespace, hwithin]

/-- A boundary is the root or an initial part of a core, longer than the root. -/
theorem mem_boundaries : b ∈ boundaries root entries ↔
      b = root ∨ ∃ core ∈ boundaryCores root entries, ∃ k, (segments root).length < k ∧
        k ≤ (segments core).length ∧ b = joinPath ((segments core).take k) := by
  simp only [boundaries, mem_eraseDups, mem_cons, mem_flatMap, boundariesOf,
    mem_map, mem_range'_1]
  constructor
  · rintro (h | ⟨core, hcore, k, ⟨hlow, hhigh⟩, rfl⟩)
    · exact .inl h
    · exact .inr ⟨core, hcore, k, by omega, by omega, rfl⟩
  · rintro (h | ⟨core, hcore, k, hlow, hhigh, rfl⟩)
    · exact .inl h
    · exact .inr ⟨core, hcore, k, by omega, rfl⟩

/-- The root is a boundary. -/
theorem root_mem_boundaries : root ∈ boundaries root entries :=
  mem_boundaries.mpr (.inl rfl)

/-- A core below the root shows that the root does not end in a slash, and is joined from the
segments of the root and further ones. -/
theorem segments_of_below {rest : Str} (hadjacent : ¬ ['/', '/'] <:+: core)
    (hcore : core = root ++ '/' :: rest) :
    ¬ ['/'] <:+ root ∧ segments core = segments root ++ segments rest := by
  constructor
  · rintro ⟨front, hfront⟩
    refine hadjacent ⟨front, rest, ?_⟩
    rw [hcore, ← hfront]
    simp
  · rw [segments_eq, segments_eq, segments_eq, hcore, segments_append_cons]

/-- The root of a namespace as `normalize` returns it. -/
structure IsRoot (root : Str) : Prop where
  normal : NormalPath root
  plain : isWildcard root = false

namespace IsRoot

/-- A root starts with a slash. -/
theorem exists_cons (h : IsRoot root) : ∃ t, root = '/' :: t := h.normal.exists_cons

/-- A root has no adjacent slashes. -/
theorem adjacent (h : IsRoot root) : ¬ ['/', '/'] <:+: root := by
  simpa [stripWildcard_of_not h.plain] using h.normal.adjacent

/-- A root that does not end in a slash has a segment. -/
theorem segments_ne_nil (h : IsRoot root) (hlast : ¬ ['/'] <:+ root) : segments root ≠ [] := by
  intro hnil
  have hjoin := joinPath_segments h.exists_cons h.adjacent hlast
  rw [hnil] at hjoin
  exact hlast (hjoin ▸ suffix_refl _)

end IsRoot

namespace Entry.Valid

/-- The core of a valid entry starts with a slash. -/
theorem core_starts (h : entry.Valid) : ∃ t, entryCore entry = '/' :: t := h.path.starts

/-- The core of a valid entry has no adjacent slashes. -/
theorem core_adjacent (h : entry.Valid) : ¬ ['/', '/'] <:+: entryCore entry := h.path.adjacent

end Entry.Valid

/-- Every boundary continues the root by segments that are not empty. -/
theorem extends_of_mem_boundaries (hroot : IsRoot root) (hvalid : ∀ e ∈ entries, e.Valid)
    (hb : b ∈ boundaries root entries) : Extends '/' root b := by
  rcases mem_boundaries.mp hb with rfl | ⟨core, hcore, k, hlow, hhigh, rfl⟩
  · exact .refl
  obtain ⟨entry, hentry, rfl, hcovers⟩ := mem_boundaryCores.mp hcore
  rcases hcovers.exists_append with heq | ⟨rest, hrest⟩
  · rw [heq] at hhigh
    omega
  obtain ⟨hlast, hsegments⟩ := segments_of_below (hvalid entry hentry).core_adjacent hrest
  -- The initial part has the segments of the root and at least one more.
  obtain ⟨j, rfl⟩ : ∃ j, k = (segments root).length + (j + 1) :=
    ⟨k - (segments root).length - 1, by omega⟩
  have hmore : (segments rest).take (j + 1) ≠ [] := by
    rw [hsegments, length_append] at hhigh
    intro hnil
    have hlength := congrArg length hnil
    simp only [length_take, length_nil] at hlength
    omega
  have hjoin : '/' :: ['/'].intercalate (segments root) = root :=
    joinPath_segments hroot.exists_cons hroot.adjacent hlast
  rw [hsegments, take_length_add_append, joinPath, join,
    intercalate_append (hroot.segments_ne_nil hlast) hmore, ← cons_append, hjoin]
  exact .of_intercalate hmore fun segment hsegment => mem_segments (mem_of_mem_take hsegment)

/-- Every boundary lies in the namespace. -/
theorem covers_of_mem_boundaries (hroot : IsRoot root) (hvalid : ∀ e ∈ entries, e.Valid)
    (hb : b ∈ boundaries root entries) : Covers '/' root b :=
  (extends_of_mem_boundaries hroot hvalid hb).covers

/-- A core in the namespace that does not end in a slash is a boundary. -/
theorem core_mem_boundaries (hroot : IsRoot root) (hvalid : entry.Valid) (hentry : entry ∈ entries)
    (hcovers : Covers '/' root (entryCore entry)) (hlast : ¬ ['/'] <:+ entryCore entry) :
    entryCore entry ∈ boundaries root entries := by
  have hjoin := joinPath_segments hvalid.core_starts hvalid.core_adjacent hlast
  rcases hcovers.exists_append with heq | ⟨rest, hrest⟩
  · exact mem_boundaries.mpr (.inl heq)
  · have hcore : entryCore entry ∈ boundaryCores root entries :=
      mem_boundaryCores.mpr ⟨entry, hentry, rfl, hcovers⟩
    obtain ⟨hrootLast, hsegments⟩ := segments_of_below hvalid.core_adjacent hrest
    -- A core with the segments of the root alone would be the root.
    have hne : segments rest ≠ [] := by
      intro hnil
      rw [hsegments, hnil, append_nil,
        joinPath_segments hroot.exists_cons hroot.adjacent hrootLast] at hjoin
      have hlength := congrArg length (hjoin.trans hrest)
      simp at hlength
    refine mem_boundaries.mpr (.inr ⟨_, hcore, (segments (entryCore entry)).length, ?_, le_rfl, ?_⟩)
    · rw [hsegments, length_append]
      have := length_pos_iff.mpr hne
      omega
    · rw [take_length]
      exact hjoin.symm

/-! ## The unused child of a boundary -/

/-- Decimal texts determine their numbers. -/
theorem ofNat_injective : Function.Injective ofNat := by
  intro m n h
  have := congrArg (Nat.ofDigitChars 10 · 0) h
  simpa [ofNat] using this

/-- The first candidate name is shorter than the numbered ones. -/
theorem gapCandidate_zero_ne {n : Nat} (hn : n ≠ 0) : gapCandidate 0 ≠ gapCandidate n := by
  intro h
  rw [gapCandidate, gapCandidate, if_pos rfl, if_neg hn] at h
  have hlength := congrArg length h
  simp only [length_append] at hlength
  have hfirst : (lit "__ploinky_partition_gap__").length = 25 := rfl
  have hnumbered : (lit "__ploinky_partition_gap_").length = 24 := rfl
  have hlast : (lit "__").length = 2 := rfl
  omega

/-- The candidate names are distinct. -/
theorem gapCandidate_injective : Function.Injective gapCandidate := by
  intro m n h
  by_cases hm : m = 0 <;> by_cases hn : n = 0
  · rw [hm, hn]
  · exact absurd (hm ▸ h) (gapCandidate_zero_ne hn)
  · exact absurd (hn ▸ h).symm (gapCandidate_zero_ne hm)
  · rw [gapCandidate, gapCandidate, if_neg hm, if_neg hn] at h
    exact ofNat_injective (append_cancel_left (append_cancel_right h))

/-- A candidate name is one segment. -/
theorem slash_not_mem_gapCandidate (n : Nat) : '/' ∉ gapCandidate n := by
  unfold gapCandidate
  split_ifs
  · decide
  · intro h
    rcases mem_append.mp h with h | h
    · rcases mem_append.mp h with h | h
      · exact absurd h (by decide)
      · exact absurd (Nat.isDigit_of_mem_toDigits (by decide) (by decide) h) (by decide)
    · exact absurd h (by decide)

/-- A candidate name is not empty. -/
theorem gapCandidate_ne_nil (n : Nat) : gapCandidate n ≠ [] := by
  unfold gapCandidate
  split_ifs
  · decide
  · have hlast : lit "__" ≠ [] := by decide
    simp [hlast]

/-- The unused child is one of the candidates. -/
theorem exists_gapChild_eq (base : Str) (cores : List Str) : ∃ n, gapChild base cores = gapCandidate n :=
  Selection.exists_freshFrom_eq _ _

/-- The unused child is one segment. -/
theorem slash_not_mem_gapChild (base : Str) (cores : List Str) : '/' ∉ gapChild base cores := by
  obtain ⟨n, hn⟩ := exists_gapChild_eq base cores
  exact hn ▸ slash_not_mem_gapCandidate n

/-- The unused child is not empty. -/
theorem gapChild_ne_nil (base : Str) (cores : List Str) : gapChild base cores ≠ [] := by
  obtain ⟨n, hn⟩ := exists_gapChild_eq base cores
  exact hn ▸ gapCandidate_ne_nil n

/-- No core is the unused child of a boundary. -/
theorem ne_gapChild {base : Str} {cores : List Str} (hcore : core ∈ cores) :
    core ≠ base ++ '/' :: gapChild base cores := by
  intro heq
  obtain ⟨n, hn⟩ := exists_gapChild_eq base cores
  refine Selection.fresh_not_mem gapCandidate_injective (usedChildren base cores) ?_
  change gapChild base cores ∈ usedChildren base cores
  refine mem_filterMap.mpr ⟨core, mem_filter.mpr ⟨hcore, ?_⟩, ?_⟩
  · exact startsWith_iff.mpr ⟨gapChild base cores, by rw [heq]; simp⟩
  · have hdrop : core.drop (base.length + 1) = gapChild base cores := by
      rw [heq, append_cons]
      exact drop_left' (by simp)
    have hsplit : split (gapChild base cores) '/' = [gapChild base cores] :=
      splitOn_eq_singleton (slash_not_mem_gapChild base cores)
    rw [hdrop, hsplit]
    simp [hn, gapCandidate_ne_nil]

/-- The wildcard entries above a boundary are the entries that govern its unused child. -/
theorem matchesPath_gap (hroot : IsRoot root) (hvalid : ∀ e ∈ entries, e.Valid)
    (hb : b ∈ boundaries root entries) (hentry : entry ∈ entries) :
    matchesPath (b ++ '/' :: gapChild b (boundaryCores root entries)) entry.path = true ↔
      isWildcard entry.path = true ∧ Covers '/' (entryCore entry) b := by
  have hrootb := covers_of_mem_boundaries hroot hvalid hb
  have hne : entryCore entry ≠ b ++ '/' :: gapChild b (boundaryCores root entries) := by
    intro heq
    have hcore : entryCore entry ∈ boundaryCores root entries :=
      mem_boundaryCores.mpr ⟨entry, hentry, rfl, heq ▸ hrootb.trans (covers_append _ _)⟩
    exact ne_gapChild hcore heq
  rw [matchesPath_iff]
  constructor
  · rintro (heq | ⟨hwild, hlead⟩)
    · exact absurd heq.symm hne
    · refine ⟨hwild, ?_⟩
      rcases Covers.of_child (slash_not_mem_gapChild _ _) (.inr hlead) with heq | hcovers
      · exact absurd heq hne
      · exact hcovers
  · rintro ⟨hwild, hcovers⟩
    refine .inr ⟨hwild, ?_⟩
    rcases hcovers.trans (covers_append b _) with heq | hlead
    · exact absurd heq.symm hne
    · exact hlead

/-! ## The deepest boundary above a path -/

/-- A path of the namespace has a deepest boundary properly above it. -/
theorem exists_base (entries : List Entry) (hbelow : root ++ ['/'] <+: q) :
    ∃ b ∈ boundaries root entries, b ++ ['/'] <+: q ∧
      ∀ b' ∈ boundaries root entries, b' ++ ['/'] <+: q → b'.length ≤ b.length := by
  have hne : (boundaries root entries).filter (fun b => startsWith q (b ++ ['/'])) ≠ [] := by
    refine ne_nil_of_mem (mem_filter.mpr ⟨root_mem_boundaries, ?_⟩)
    exact startsWith_iff.mpr hbelow
  obtain ⟨b, hb, htop⟩ := Selection.exists_rank_eq_topRank length hne
  obtain ⟨hmem, hlead⟩ := mem_filter.mp hb
  refine ⟨b, hmem, startsWith_iff.mp hlead, fun b' hmem' hlead' => ?_⟩
  rw [htop]
  exact Selection.rank_le_topRank length
    (mem_filter.mpr ⟨hmem', startsWith_iff.mpr hlead'⟩)

/-- The wildcards above a path of the namespace are those that cover its deepest boundary. -/
theorem wildcard_above_iff (hroot : IsRoot root) (hvalid : ∀ e ∈ entries, e.Valid)
    (hadjacent : ¬ ['/', '/'] <:+: q) (hbelow : root ++ ['/'] <+: q)
    (hb : b ∈ boundaries root entries) (hlead : b ++ ['/'] <+: q)
    (hdeepest : ∀ b' ∈ boundaries root entries, b' ++ ['/'] <+: q → b'.length ≤ b.length)
    (hentry : entry ∈ entries) : entryCore entry ++ ['/'] <+: q ↔ Covers '/' (entryCore entry) b := by
  constructor
  · intro habove
    rcases covers_or_covers habove hbelow with hcore | hcore
    · exact hcore.trans (covers_of_mem_boundaries hroot hvalid hb)
    · -- A core inside the namespace that continues to `q` does not end in a slash.
      have hlast : ¬ ['/'] <:+ entryCore entry := by
        rintro ⟨front, hfront⟩
        obtain ⟨tail, htail⟩ := habove
        refine hadjacent ⟨front, tail, ?_⟩
        rw [← htail, ← hfront]
        simp
      have hmem := core_mem_boundaries hroot (hvalid entry hentry) hentry hcore hlast
      exact covers_of_prefix_append (prefix_of_prefix_length_le habove hlead
        (by simpa using hdeepest _ hmem habove))
  · intro hcovers
    rcases hcovers.exists_append with heq | ⟨rest, hrest⟩
    · exact heq ▸ hlead
    · have hstep : entryCore entry ++ ['/'] <+: b ++ ['/'] := ⟨rest ++ ['/'], by simp [hrest]⟩
      exact hstep.trans hlead

/-- The boundaries and their unused children are the representative paths. -/
theorem mem_representativePaths :
    r ∈ representativePaths localeLe root entries ↔
      r ∈ boundaries root entries ∨ ∃ b ∈ boundaries root entries,
        r = b ++ '/' :: gapChild b (boundaryCores root entries) := by
  unfold representativePaths
  rw [mem_insertionSort, mem_eraseDups, mem_append, mem_map]
  simp only [eq_comm]

/-- Every path below the root has a representative path that exactly the wildcards above the path
govern. -/
theorem exists_representative_above (localeLe : Str → Str → Bool) (hroot : IsRoot root)
    (hvalid : ∀ e ∈ entries, e.Valid) (hadjacent : ¬ ['/', '/'] <:+: q) (hbelow : root ++ ['/'] <+: q) :
    ∃ r ∈ representativePaths localeLe root entries, ∀ entry ∈ entries, matchesPath r entry.path = true ↔
        isWildcard entry.path = true ∧ entryCore entry ++ ['/'] <+: q := by
  obtain ⟨b, hb, hlead, hdeepest⟩ := exists_base entries hbelow
  refine ⟨_, mem_representativePaths.mpr (.inr ⟨b, hb, rfl⟩), fun entry hentry => ?_⟩
  rw [matchesPath_gap hroot hvalid hb hentry,
    wildcard_above_iff hroot hvalid hadjacent hbelow hb hlead hdeepest hentry]

/-- Every representative path continues the root by segments that are not empty. -/
theorem extends_of_mem_representativePaths (hroot : IsRoot root) (hvalid : ∀ e ∈ entries, e.Valid)
    (hr : r ∈ representativePaths localeLe root entries) : Extends '/' root r := by
  rcases mem_representativePaths.mp hr with hb | ⟨b, hb, rfl⟩
  · exact extends_of_mem_boundaries hroot hvalid hb
  · exact .child (extends_of_mem_boundaries hroot hvalid hb) (gapChild_ne_nil _ _)
      (slash_not_mem_gapChild _ _)

/-- Below a root that ends in a slash, the wildcards that cover the root govern every extension. -/
theorem matchesPath_of_slash_root (hvalid : entry.Valid) (hlast : ['/'] <:+ root)
    (hbelow : root ++ ['/'] <+: r) : matchesPath r entry.path = true ↔
      isWildcard entry.path = true ∧ Covers '/' (entryCore entry) root := by
  have hdouble : ['/', '/'] <:+: root ++ ['/'] := by
    obtain ⟨front, hfront⟩ := hlast
    exact ⟨front, [], by rw [← hfront]; simp⟩
  have hshort : ¬ root ++ ['/'] <+: entryCore entry :=
    fun hlead => hvalid.core_adjacent (hdouble.trans hlead.isInfix)
  rw [matchesPath_iff]
  change r = entryCore entry ∨ _ ∧ entryCore entry ++ ['/'] <+: r ↔ _
  have hne : r ≠ entryCore entry := by
    rintro rfl
    exact hshort hbelow
  rw [or_iff_right hne]
  refine and_congr_right fun _ => ⟨fun h => ?_, fun h => ?_⟩
  · rcases covers_or_covers h hbelow with hcovers | hcovers
    · exact hcovers
    · rcases hcovers with heq | hlead
      · exact .inl heq.symm
      · exact absurd hlead hshort
  · rcases h.trans (.inr hbelow : Covers '/' root r) with heq | hlead
    · exact absurd heq hne
    · exact hlead

/-- Every extension of the root has a representative path that the same entries govern. -/
theorem exists_representative_of_extends (localeLe : Str → Str → Bool) (hroot : IsRoot root)
    (hvalid : ∀ e ∈ entries, e.Valid) (hr : Extends '/' root r) :
    ∃ r' ∈ representativePaths localeLe root entries, ∀ entry ∈ entries,
      matchesPath r entry.path = matchesPath r' entry.path := by
  rcases hr.covers with hrefl | hbelow
  · exact ⟨r, mem_representativePaths.mpr (.inl (hrefl ▸ root_mem_boundaries)), fun _ _ => rfl⟩
  by_cases hlast : ['/'] <:+ root
  · refine ⟨_, mem_representativePaths.mpr (.inr ⟨root, root_mem_boundaries, rfl⟩), ?_⟩
    intro entry hentry
    rw [Bool.eq_iff_iff, matchesPath_of_slash_root (hvalid entry hentry) hlast hbelow,
      matchesPath_gap hroot hvalid root_mem_boundaries hentry]
  by_cases hcore : ∃ entry ∈ entries, entryCore entry = r
  · obtain ⟨entry, hentry, rfl⟩ := hcore
    have hmem := core_mem_boundaries hroot (hvalid entry hentry) hentry hr.covers
      (hr.not_suffix hlast)
    exact ⟨_, mem_representativePaths.mpr (.inl hmem), fun _ _ => rfl⟩
  · obtain ⟨r', hr', hgoverns⟩ := exists_representative_above localeLe hroot hvalid
      (hr.not_adjacent hlast hroot.adjacent) hbelow
    refine ⟨r', hr', fun entry hentry => ?_⟩
    have hne : r ≠ entryCore entry := fun h => hcore ⟨entry, hentry, h.symm⟩
    rw [Bool.eq_iff_iff, hgoverns entry hentry, matchesPath_iff]
    exact or_iff_right hne

end Ploinky.Policy
