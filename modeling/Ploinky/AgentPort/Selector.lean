import Ploinky.Js.Error
import Ploinky.Policy.AccessPath

/-!
# The agent-port convention

`parseAgentPortSelector` reads a request target of the form
`/base-agent-additional-server/<agent>/<port>/<suffix>`. It returns nothing for a target outside the
convention and rejects every target inside it that is not in canonical form.
-/

namespace Ploinky.AgentPort

open Js Policy List

/-- The first segment of the convention. -/
def agentPortRoute : Str := "base-agent-additional-server"

/-- An `AgentPortSelectorError`. -/
structure SelectorError where
  code : Str
  message : Str
  status : Nat := 400
  deriving DecidableEq

/-- `reject('MALFORMED_SELECTOR', message)`. -/
def malformed {α : Type} (message : Str) : Except SelectorError α :=
  .error { code := "MALFORMED_SELECTOR", message := message }

/-- The pattern `/^[A-Za-z0-9][A-Za-z0-9_.-]*$/` of route keys. -/
def isRouteKey : Str → Bool
  | [] => false
  | c :: rest => isAlnum c && rest.all fun x => isAlnum x || x == '_' || x == '.' || x == '-'

/-- The pattern `/^[1-9][0-9]{0,4}$/` of ports. -/
def isPortText : Str → Bool
  | [] => false
  | c :: rest => isDigit c && c != '0' && rest.all isDigit && decide (rest.length ≤ 4)

/-- The reserved characters a canonical suffix segment writes literally, by their triplets. -/
def pcharOf : Char → Char → Option Char
  | '2', '4' => some '$'
  | '2', '6' => some '&'
  | '2', 'B' => some '+'
  | '2', 'C' => some ','
  | '3', 'A' => some ':'
  | '3', 'B' => some ';'
  | '3', 'D' => some '='
  | '4', '0' => some '@'
  | _, _ => none

/-- Replace the triplets of `pcharOf` by their characters. -/
def unescapePchars : Str → Str
  | '%' :: a :: b :: rest =>
    match pcharOf a b with
    | some c => c :: unescapePchars rest
    | none => '%' :: unescapePchars (a :: b :: rest)
  | c :: rest => c :: unescapePchars rest
  | [] => []

/-- `encodeCanonicalSuffixSegment(value)`. -/
def encodeCanonicalSuffixSegment (value : Str) : Str := unescapePchars (encodeURIComponent value)

/-- `decodeCanonicalSegment(raw, label, canonicalize)`. -/
def decodeCanonicalSegment (raw label : Str) (canonicalize : Str → Str := encodeURIComponent) :
    Except SelectorError Str :=
  if raw.isEmpty || raw.contains '\\' || hasEncodedSeparator raw then
    malformed (label ++ lit " is not canonical")
  else match decodeURIComponent raw with
    | none => malformed (label ++ lit " has invalid percent encoding")
    | some decoded =>
      if decoded.contains '/' || decoded.contains '\\' || decoded.contains '\x00' then
        malformed (label ++ lit " contains a protected separator")
      else if decoded == ['.'] || decoded == ['.', '.'] then
        malformed (label ++ lit " contains a dot segment")
      else if canonicalize decoded != raw then
        .error { code := "NON_CANONICAL_SELECTOR",
                 message := label ++ lit " does not round-trip canonically" }
      else .ok decoded

/-- The pattern `(?:25)*(?:2f|5c)` at the start of a text, in either case. -/
def nestedSeparatorAt : Str → Bool
  | '2' :: '5' :: rest => nestedSeparatorAt rest
  | '2' :: x :: _ => x == 'f' || x == 'F'
  | '5' :: x :: _ => x == 'c' || x == 'C'
  | _ => false

/-- The pattern `/%(?:25)*(?:2f|5c)/i`. -/
def hasNestedSeparator : Str → Bool
  | [] => false
  | c :: rest => (c == '%' && nestedSeparatorAt rest) || hasNestedSeparator rest

/-- The decoding passes of `assertNoNestedProtectedEncoding`. -/
def assertNoNestedFrom (rawPath : Str) : Nat → Str → Except SelectorError Unit
  | 0, _ =>
    if hasNestedSeparator rawPath then
      malformed "nested encoded path separators are not allowed"
    else .ok ()
  | passes + 1, decoded =>
    if hasEncodedSeparator decoded then malformed "encoded path separators are not allowed"
    else match decodeURIComponent decoded with
      | none => malformed "invalid percent encoding"
      | some next => if next = decoded then .ok () else assertNoNestedFrom rawPath passes next

/-- `assertNoNestedProtectedEncoding(rawPath)`. -/
def assertNoNestedProtectedEncoding (rawPath : Str) : Except SelectorError Unit :=
  assertNoNestedFrom rawPath 3 rawPath

/-- `splitRawTarget(requestTarget)`: the path and the query of an origin-form target. -/
def splitRawTarget (raw : Str) : Except SelectorError (Str × Str) :=
  if !startsWith raw ['/'] || raw.contains '#' || raw.contains '\x00' || raw.contains '\\' then
    malformed "request target must be an origin-form path"
  else .ok (before raw '?', (raw.dropWhile (· != '?')).drop 1)

/-- A parsed selector. -/
structure Selector where
  agent : Str
  rawAgent : Str
  port : Nat
  canonicalPort : Str
  suffix : Str
  query : Str
  policyPath : Str
  requestTarget : Str
  deriving DecidableEq

/-- Check each suffix segment, numbered from `index`. -/
def checkSuffix : Nat → List Str → Except SelectorError Unit
  | _, [] => .ok ()
  | index, segment :: rest =>
    match decodeCanonicalSegment segment
        (lit "suffix segment " ++ ofNat index) encodeCanonicalSuffixSegment with
    | .error e => .error e
    | .ok _ => checkSuffix (index + 1) rest

/-- The selector of the segments after the convention's own. -/
def selectSegments (rawPath query : Str) (deniedPorts : List Nat) (rawAgent rawPort : Str)
    (suffixSegments : List Str) : Except SelectorError Selector := do
  let agent ← decodeCanonicalSegment rawAgent "agent segment"
  if !isRouteKey agent then malformed "agent route key is invalid"
  else if !isPortText rawPort then malformed "port must use canonical decimal grammar"
  else if decimal rawPort < 1 ∨ decimal rawPort > 65535 then
    malformed "port is outside the valid range"
  else if decimal rawPort ∈ deniedPorts then
    .error { code := "DENIED_PORT", message := "the selected port is runtime-reserved",
             status := 403 }
  else
    let hasTrailingSlash := suffixSegments.getLast? == some []
    let segments := if hasTrailingSlash then suffixSegments.dropLast else suffixSegments
    checkSuffix 1 segments
    return {
      agent := agent
      rawAgent := rawAgent
      port := decimal rawPort
      canonicalPort := rawPort
      suffix :=
        if segments.isEmpty then ['/']
        else '/' :: join segments '/' ++ (if hasTrailingSlash then ['/'] else [])
      query := query
      policyPath := rawPath
      requestTarget := if query.isEmpty then rawPath else rawPath ++ '?' :: query }

/-- `parseAgentPortSelector(requestTarget, { deniedPorts })`. -/
def parseAgentPortSelector (requestTarget : Str) (deniedPorts : List Nat := []) :
    Except SelectorError (Option Selector) := do
  let (rawPath, query) ← splitRawTarget requestTarget
  let conventionPath := '/' :: agentPortRoute
  if rawPath != conventionPath && !startsWith rawPath (conventionPath ++ ['/']) then return none
  if includes rawPath ['/', '/'] then malformed "empty path segments are not allowed"
  assertNoNestedProtectedEncoding rawPath
  match split (rawPath.drop 1) '/' with
  | _ :: rawAgent :: rawPort :: suffixSegments =>
    return some (← selectSegments rawPath query deniedPorts rawAgent rawPort suffixSegments)
  | _ => malformed "convention requires one agent and one port segment"

/-- A canonical segment is the canonical form of the text it decodes to. -/
theorem decodeCanonicalSegment_eq_ok {raw label decoded : Str} {canonicalize : Str → Str}
    (h : decodeCanonicalSegment raw label canonicalize = .ok decoded) :
    raw ≠ [] ∧ decodeURIComponent raw = some decoded ∧ canonicalize decoded = raw := by
  unfold decodeCanonicalSegment at h
  simp only [malformed, guardProp_eq_ok] at h
  obtain ⟨hraw, h⟩ := h
  split at h
  · cases h
  · rename_i found hfound
    simp only [guardProp_eq_ok, Except.ok.injEq] at h
    obtain ⟨-, -, hround, rfl⟩ := h
    exact ⟨by rintro rfl; simp at hraw, hfound, by simpa using hround⟩

/-- The raw path of an origin-form target is what stands before the query. -/
theorem splitRawTarget_eq_ok {target rawPath query : Str} (h : splitRawTarget target = .ok (rawPath, query)) :
    startsWith target ['/'] = true ∧ '\\' ∉ target ∧ rawPath = before target '?' ∧
      query = (target.dropWhile (· != '?')).drop 1 := by
  unfold splitRawTarget at h
  simp only [malformed, guardProp_eq_ok, Except.ok.injEq, Prod.mk.injEq] at h
  obtain ⟨hform, rfl, rfl⟩ := h
  simp at hform
  exact ⟨hform.1.1.1, hform.2, rfl, rfl⟩

/-- The raw segments after the port, `rawSegments.slice(3)`: the last one is empty for a trailing slash. -/
def Selector.suffixSegments (selector : Selector) : List Str := (split (selector.policyPath.drop 1) '/').drop 3

/-- What a selector says about the target it was read from. -/
structure Parsed (requestTarget : Str) (deniedPorts : List Nat) (selector : Selector) : Prop where
  target : splitRawTarget requestTarget = .ok (selector.policyPath, selector.query)
  nested : assertNoNestedProtectedEncoding selector.policyPath = .ok ()
  path : split (selector.policyPath.drop 1) '/' =
    agentPortRoute :: selector.rawAgent :: selector.canonicalPort :: selector.suffixSegments
  agent : decodeCanonicalSegment selector.rawAgent "agent segment" = .ok selector.agent
  port : isPortText selector.canonicalPort = true ∧ selector.port = decimal selector.canonicalPort
  allowed : selector.port ∉ deniedPorts
  suffix : ∃ segments, checkSuffix 1 segments = .ok () ∧
    (selector.suffixSegments = segments ∨ selector.suffixSegments = segments ++ [[]])
  request : selector.requestTarget =
    if selector.query.isEmpty then selector.policyPath else selector.policyPath ++ '?' :: selector.query

/-- The first segment of a path in the convention. -/
theorem convention_of_split {rawPath first : Str} {second third : Str} {rest : List Str}
    (h : ¬ (rawPath != '/' :: agentPortRoute && !startsWith rawPath ('/' :: agentPortRoute ++ ['/'])) = true)
    (hsplit : split (rawPath.drop 1) '/' = first :: second :: third :: rest) : first = agentPortRoute := by
  rw [Bool.not_eq_true, Bool.and_eq_false_iff, bne_eq_false_iff_eq, Bool.not_eq_false'] at h
  rcases h with rfl | h
  · cases (show split agentPortRoute '/' = [agentPortRoute] by decide).symm.trans hsplit
  · obtain ⟨suffix, rfl⟩ := startsWith_iff.mp h
    have hdrop : ('/' :: agentPortRoute ++ ['/'] ++ suffix).drop 1 = agentPortRoute ++ '/' :: suffix := by simp
    rw [hdrop, split_append_cons suffix (by decide)] at hsplit
    exact (cons.inj hsplit).1.symm

/-- Every accepted target is parsed. -/
theorem parsed_of_ok {requestTarget : Str} {deniedPorts : List Nat} {selector : Selector}
    (h : parseAgentPortSelector requestTarget deniedPorts = .ok (some selector)) :
    Parsed requestTarget deniedPorts selector := by
  unfold parseAgentPortSelector at h
  obtain ⟨⟨rawPath, query⟩, htarget, h⟩ := bind_eq_ok.mp h
  dsimp only at h
  split_ifs at h with hout hempty
  · cases h
  · cases h
  obtain ⟨⟨⟩, hnested, h⟩ := bind_eq_ok.mp h
  split at h
  · rename_i convention rawAgent rawPort suffixSegments hpath
    obtain rfl := convention_of_split hout hpath
    obtain ⟨found, hfound, h⟩ := bind_eq_ok.mp h
    cases h
    unfold selectSegments at hfound
    obtain ⟨agent, hagent, hfound⟩ := bind_eq_ok.mp hfound
    simp only [malformed, guardProp_eq_ok] at hfound
    obtain ⟨-, hport, -, hallowed, hfound⟩ := hfound
    obtain ⟨⟨⟩, hchecked, hfound⟩ := bind_eq_ok.mp hfound
    cases hfound
    have hsuffix : (split (rawPath.drop 1) '/').drop 3 = suffixSegments := by
      rw [hpath]
      rfl
    refine ⟨htarget, hnested, ?_, hagent, ⟨by simpa using hport, rfl⟩, hallowed, ⟨_, hchecked, ?_⟩, rfl⟩
    all_goals unfold Selector.suffixSegments
    · rw [hsuffix, hpath]
    · rw [hsuffix]
      split_ifs with hlast
      · exact .inr (dropLast_append_getLast? _ (by simpa using hlast)).symm
      · exact .inl rfl
  · cases h

end Ploinky.AgentPort
