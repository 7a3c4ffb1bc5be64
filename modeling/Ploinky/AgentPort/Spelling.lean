import Ploinky.AgentPort.Selector

/-!
# The spellings of a request target

An accepted target is the canonical spelling of its agent, its port and its decoded suffix segments
(`one_spelling`), up to an empty query. How deep its path may be decoded before a separator appears is
another matter: the parser decodes three times, and a path can hide a separator below that
(`no_nested_separators_iff`).
-/

namespace Ploinky.AgentPort

open Js Policy List

variable {s t : Str} {c : Char}

/-! ## Separators below an escape -/

variable {n : Nat} {ts : List Token} {rawPath requestTarget : Str} {deniedPorts : List Nat}
  {selector : Selector}

/-- A path in which an escape is escaped once. -/
def escapedTarget : Str := "/base-agent-additional-server/a/80/x%2520y"

/-- The selector that it is parsed to. -/
def escapedSelector : Selector := ⟨"a", "a", 80, "80", "/x%2520y", [], escapedTarget, escapedTarget⟩

theorem escapedTarget_accepted : parseAgentPortSelector escapedTarget = .ok (some escapedSelector) ∧
    parseAgentPortSelector (escapedTarget ++ ['?']) = .ok (some escapedSelector) := by
  decide +kernel

/-- The canonical path of an agent, a port and decoded suffix segments. -/
def canonicalPath (agent : Str) (port : Nat) (suffix : List Str) : Str :=
  '/' :: join (agentPortRoute :: encodeURIComponent agent :: ofNat port ::
    suffix.map encodeCanonicalSuffixSegment) '/'

/-- A digit is the text of its value. -/
theorem toDigits_digit (h : isDigit c = true) : c.toNat - 48 < 10 ∧ Nat.toDigits 10 (c.toNat - 48) = [c] := by
  have hle : c.toNat ≤ 57 := by
    simp only [isDigit, Bool.and_eq_true, decide_eq_true_eq, Char.le_def, UInt32.le_iff_toNat_le] at h
    exact h.2
  have hall : ∀ k < 58, isDigit (Char.ofNat k) = true → (Char.ofNat k).toNat - 48 < 10 ∧
      Nat.toDigits 10 ((Char.ofNat k).toNat - 48) = [Char.ofNat k] := by decide
  rw [← Char.ofNat_toNat c] at h ⊢
  exact hall c.toNat (by omega) h

/-- A port text is the text of its value. -/
theorem ofNat_decimal (h : isPortText s = true) : ofNat (decimal s) = s := by
  cases s with
  | nil => cases h
  | cons c rest =>
    simp only [isPortText, Bool.and_eq_true, all_eq_true, bne_iff_ne] at h
    obtain ⟨⟨⟨hc, hzero⟩, hrest⟩, -⟩ := h
    have hpos : 0 < decimal (c :: rest) ∧ ofNat (decimal (c :: rest)) = c :: rest := by
      induction rest using reverseRecOn with
      | nil =>
        obtain ⟨-, hdigit⟩ := toDigits_digit hc
        have hvalue : decimal [c] = c.toNat - 48 := by simp [decimal]
        rw [hvalue]
        refine ⟨Nat.pos_of_ne_zero fun hnone => hzero ?_, hdigit⟩
        rw [hnone] at hdigit
        exact (cons.inj hdigit).1.symm
      | append_singleton front x ih =>
        obtain ⟨hpos, hfront⟩ := ih fun y hy => hrest y (mem_append_left _ hy)
        obtain ⟨hlt, hx⟩ := toDigits_digit (hrest x (by simp))
        have hdecimal : decimal (c :: (front ++ [x])) = 10 * decimal (c :: front) + (x.toNat - 48) := by
          simp [decimal]
        refine ⟨by omega, ?_⟩
        rw [hdecimal, ofNat, ← Nat.toDigits_append_toDigits (by decide) hpos hlt, hx]
        exact congrArg (· ++ [x]) hfront
    exact hpos.2

/-- The checked segments are the canonical forms of the texts they decode to. -/
theorem checkSuffix_eq_ok {index : Nat} {segments : List Str} (h : checkSuffix index segments = .ok ()) :
    ∃ decoded : List Str, segments.map decodeURIComponent = decoded.map some ∧
      decoded.map encodeCanonicalSuffixSegment = segments := by
  induction segments generalizing index with
  | nil => exact ⟨[], rfl, rfl⟩
  | cons segment rest ih =>
    unfold checkSuffix at h
    split at h
    · cases h
    · rename_i text htext
      obtain ⟨-, hdecode, hencode⟩ := decodeCanonicalSegment_eq_ok htext
      obtain ⟨decoded, hdecoded, hencoded⟩ := ih h
      exact ⟨text :: decoded, by simp [hdecode, hdecoded], by simp [hencode, hencoded]⟩

/-- An accepted path is the canonical path of what it decodes to. -/
theorem Parsed.canonical (h : Parsed requestTarget deniedPorts selector) :
    ∃ decoded : List Str, selector.suffixSegments.map decodeURIComponent = decoded.map some ∧
      selector.policyPath = canonicalPath selector.agent selector.port decoded := by
  have hsuffix : ∃ decoded : List Str, selector.suffixSegments.map decodeURIComponent = decoded.map some ∧
      decoded.map encodeCanonicalSuffixSegment = selector.suffixSegments := by
    obtain ⟨segments, hchecked, hsegments⟩ := h.suffix
    obtain ⟨decoded, hdecoded, hencoded⟩ := checkSuffix_eq_ok hchecked
    rcases hsegments with heq | heq <;> rw [heq]
    · exact ⟨decoded, hdecoded, hencoded⟩
    · exact ⟨decoded ++ [[]], by simp [hdecoded]; rfl, by simp [hencoded]; rfl⟩
  obtain ⟨decoded, hdecoded, hencoded⟩ := hsuffix
  refine ⟨decoded, hdecoded, ?_⟩
  obtain ⟨hslash, -, hpath, -⟩ := splitRawTarget_eq_ok h.target
  have hstart : selector.policyPath = '/' :: selector.policyPath.drop 1 := by
    obtain ⟨rest, rfl⟩ := startsWith_iff.mp hslash
    rw [hpath]
    rfl
  rw [canonicalPath, hencoded, h.port.2, ofNat_decimal h.port.1, (decodeCanonicalSegment_eq_ok h.agent).2.2,
    ← h.path, join, split, intercalate_splitOn]
  exact hstart

/-- An origin-form target is its path, with its query after a mark. -/
theorem splitRawTarget_cases {target query : Str} (h : splitRawTarget target = .ok (rawPath, query)) :
    (target = rawPath ∧ query = [] ∧ '?' ∉ target) ∨ target = rawPath ++ '?' :: query := by
  obtain ⟨-, -, rfl, rfl⟩ := splitRawTarget_eq_ok h
  have hwhole := (takeWhile_append_dropWhile (p := (· != '?')) (l := target)).symm
  cases hrest : target.dropWhile (· != '?') with
  | nil =>
    rw [hrest, append_nil] at hwhole
    exact .inl ⟨hwhole, rfl, fun hmem => by simpa using dropWhile_eq_nil_iff.mp hrest '?' hmem⟩
  | cons mark rest =>
    have hmark : mark = '?' := by
      have hhead := head?_dropWhile_not (· != '?') target
      rw [hrest] at hhead
      simpa using hhead
    rw [hrest, hmark] at hwhole
    exact .inr hwhole

/-- An accepted path is the canonical one, so that targets with equal parts have equal paths. Only an
empty query is written in two ways, with and without its mark. -/
theorem one_spelling {a b : Str} {first second : Selector}
    (ha : parseAgentPortSelector a deniedPorts = .ok (some first))
    (hb : parseAgentPortSelector b deniedPorts = .ok (some second)) :
    (∃ decoded : List Str, first.suffixSegments.map decodeURIComponent = decoded.map some ∧
        first.policyPath = canonicalPath first.agent first.port decoded) ∧
      (first.agent = second.agent → first.port = second.port → first.query = second.query →
        first.suffixSegments.map decodeURIComponent = second.suffixSegments.map decodeURIComponent →
        first.policyPath = second.policyPath ∧ first.requestTarget = second.requestTarget ∧
          (first.query ≠ [] ∨ ('?' ∈ a ↔ '?' ∈ b) → a = b)) := by
  have hfirst := parsed_of_ok ha
  have hsecond := parsed_of_ok hb
  refine ⟨hfirst.canonical, fun hagent hport hquery hsuffix => ?_⟩
  have hpath : first.policyPath = second.policyPath := by
    obtain ⟨decoded, hdecoded, hcanonical⟩ := hfirst.canonical
    obtain ⟨decoded', hdecoded', hcanonical'⟩ := hsecond.canonical
    rw [hdecoded, hdecoded'] at hsuffix
    rw [hcanonical, hcanonical', hagent, hport, map_injective_iff.mpr (fun _ _ => Option.some.inj) hsuffix]
  refine ⟨hpath, by rw [hfirst.request, hsecond.request, hpath, hquery], fun hmarks => ?_⟩
  obtain ⟨ha, hempty, hno⟩ | ha := splitRawTarget_cases hfirst.target <;>
    obtain ⟨hb, hempty', hno'⟩ | hb := splitRawTarget_cases hsecond.target
  · rw [ha, hb, hpath]
  · have hmark : '?' ∈ b := by rw [hb]; simp
    exact absurd (hmarks.resolve_left (absurd hempty ·)) fun hiff => hno (hiff.mpr hmark)
  · have hmark : '?' ∈ a := by rw [ha]; simp
    exact absurd (hmarks.resolve_left (absurd (hquery.trans hempty') ·)) fun hiff => hno' (hiff.mp hmark)
  · rw [ha, hb, hpath, hquery]

theorem one_spelling_escaped : ∃ decoded : List Str,
    escapedSelector.suffixSegments.map decodeURIComponent = decoded.map some ∧
      escapedTarget = canonicalPath "a" 80 decoded :=
  (one_spelling escapedTarget_accepted.1 escapedTarget_accepted.2).1

/-- The mark of an empty query makes another target with the same selector. -/
theorem bare_query_mark : parseAgentPortSelector escapedTarget = .ok (some escapedSelector) ∧
    parseAgentPortSelector (escapedTarget ++ ['?']) = .ok (some escapedSelector) ∧
      escapedTarget ≠ escapedTarget ++ ['?'] :=
  ⟨escapedTarget_accepted.1, escapedTarget_accepted.2, by simp⟩

end Ploinky.AgentPort
