import Ploinky.Policy.Evaluate
import Ploinky.Policy.NormalPath

/-!
# Reading stored entries again

The run-time evaluator normalizes the entries of the compiled policy a second time. `Entry.Valid`
collects what the first normalization guarantees, and `reload_spec` says what the second one does to
a valid entry: it keeps the grant and trims the end of the path, which moves or drops an entry whose
stored path ends in white space.
-/

namespace Ploinky.Policy

open Js PathOrder List Option

/-! ## Text -/

/-- Trimming twice is trimming once. -/
theorem trim_trim (s : Str) : trim (trim s) = trim s := by
  have hidem : trimEnd (trimEnd (trimStart s)) = trimEnd (trimStart s) :=
    rdropWhile_idempotent _ _
  cases hu : trimStart s with
  | nil =>
    have hnil : trim s = [] := by
      rw [trim, hu]
      rfl
    rw [hnil]
    rfl
  | cons c t =>
    have hc : isSpace c = false := by
      have hhead := head?_dropWhile_not isSpace s
      rw [trimStart] at hu
      simpa [hu] using hhead
    have hend : trimEnd (c :: t) = c :: trimEnd t := trimEnd_append_cons [] t hc
    rw [trim, trim, hu, hend, trimStart_cons hc, ← hend, ← hu, hidem]

/-! ## Valid entries -/

/-- A protocol that `normalizePublicProtocol` returns. -/
structure PublicProtocol.Valid (protocol : PublicProtocol) : Prop where
  nonempty : protocol.methods ≠ []
  admitted : ∀ method ∈ protocol.methods, protocolMethods.contains method = true
  nodup : protocol.methods.Nodup
  sorted : protocol.methods.Pairwise fun a b => le a b = true

/-- An entry as `normalizeHttpRoutePolicyEntry` returns it. -/
structure Entry.Valid (entry : Entry) : Prop where
  access : entry.access = .public ∨ entry.access = .guest ∨ entry.access = .authenticated
  path : NormalPath entry.path
  routeKey : entry.routeKey ≠ [] ∧ trim entry.routeKey = entry.routeKey
  guestScope : trim entry.guestScope = entry.guestScope
  guestScopeParam : trim entry.guestScopeParam = entry.guestScopeParam ∧
    (entry.guestScopeParam ≠ [] → isParamName entry.guestScopeParam = true ∧
      entry.access = .guest ∧ entry.guestScope ≠ [])
  publicProtocol : ∀ protocol, entry.publicProtocol = some protocol → protocol.Valid ∧
    entry.source = lit "manifest" ∧ entry.access = .public ∧
    ownsServicePath entry.path entry.routeKey = true

variable {value : Option Json} {path : Str} {protocol : PublicProtocol}

/-- The methods of a checked list are admitted and listed once. -/
theorem protocolMethodList_spec {methods : List Str} (h : protocolMethodList value = some methods) :
    methods ≠ [] ∧ (∀ m ∈ methods, protocolMethods.contains m = true) ∧ methods.Nodup := by
  unfold protocolMethodList at h
  split at h
  · simp only [bind_eq_bind, bind_eq_some_iff] at h
    obtain ⟨texts, -, htexts⟩ := h
    split_ifs at htexts with hbad
    cases htexts
    simp only [not_or, Decidable.not_not, List.isEmpty_iff, List.all_eq_true] at hbad
    exact hbad
  · cases h

variable {source : Str} {entry : Entry}

/-- What `normalizePublicProtocol` guarantees. -/
theorem normalizePublicProtocol_spec {access : Access} {routeKey : Str}
    (h : normalizePublicProtocol value access source path routeKey = .ok (some protocol)) :
    protocol.Valid ∧ source = lit "manifest" ∧ access = .public ∧ ownsServicePath path routeKey = true := by
  unfold normalizePublicProtocol protocolError at h
  split at h
  · cases h
  · rename_i json
    rw [guardProp_eq_ok, guard_eq_ok, guard_eq_ok] at h
    obtain ⟨h1, -, -, h⟩ := h
    split at h
    · cases h
    · rename_i methods hmethods
      rw [guard_eq_ok, guard_eq_ok, guard_eq_ok] at h
      obtain ⟨-, -, h6, h⟩ := h
      obtain ⟨hne, hadmitted, hnodup⟩ := protocolMethodList_spec hmethods
      simp only [Except.ok.injEq, some.injEq] at h
      subst h
      have hperm := perm_insertionSort (fun a b => le a b = true) methods
      simp only [not_or, Decidable.not_not] at h1
      refine ⟨⟨?_, ?_, ?_, ?_⟩, h1.1, h1.2, by simpa using h6⟩
      · intro hnil
        exact hne (List.Perm.eq_nil (hnil ▸ hperm.symm))
      · intro m hm
        exact hadmitted m (hperm.mem_iff.mp hm)
      · exact hperm.nodup_iff.mpr hnodup
      · exact pairwise_insertionSort _ _

/-- An optional text that passes its check is absent or trimmed to a text that is not blank. -/
theorem trimmed_param (h : isOptionalParam value = true) (hne : trimmed value ≠ []) :
    isParamName (trimmed value) = true := by
  unfold isOptionalParam at h
  split at h
  · simp [trimmed, strOr, trim, trimStart, trimEnd] at hne
  · rename_i text
    have hvalue : trimmed (some (.str text)) = trim text := by
      cases text <;> rfl
    exact hvalue ▸ h
  · cases h

/-- `checkEntry` returns valid entries, when it is given the source the entry will carry. -/
theorem checkEntry_valid {json : Json} (hsource : strOr (json.prop "source") source = source)
    (h : checkEntry json source = .ok (some entry)) : entry.Valid ∧ entry.source = source := by
  unfold checkEntry at h
  rw [guard_eq_ok, guard_eq_ok] at h
  obtain ⟨-, -, h⟩ := h
  split at h
  · cases h
  rename_i access haccess
  split at h
  · cases h
  rename_i path hpath
  simp only [guard_eq_ok] at h
  obtain ⟨hkeyText, hkey, hscopeText, hparamText, hparamScope, h⟩ := h
  split at h
  · cases h
  rename_i protocol hprotocol
  split_ifs at h
  · cases h
  simp only [Except.ok.injEq, some.injEq] at h
  subst h
  have haccess : access = .public ∨ access = .guest ∨ access = .authenticated := by
    unfold Access.ofText at haccess
    split_ifs at haccess <;> simp_all
  refine ⟨⟨haccess, (normalize_spec hpath).1, ⟨by simpa using hkey, trim_trim _⟩,
    trim_trim _, ⟨trim_trim _, ?_⟩, ?_⟩, hsource⟩
  · intro hne
    have hparam : isOptionalParam (json.prop "guestScopeParam") = true := by simpa using hparamText
    have hboth : trimmed (json.prop "guestScopeParam") ≠ [] →
        access = .guest ∧ trimmed (json.prop "guestScope") ≠ [] := by
      simpa using hparamScope
    exact ⟨trimmed_param hparam hne, hboth hne⟩
  · rintro protocol rfl
    have hspec := normalizePublicProtocol_spec hprotocol
    exact ⟨hspec.1, hsource.trans hspec.2.1, hspec.2.2⟩

/-! ## The second normalization -/

/-- The properties of a stored entry: the texts are there, and the optional ones when they say something. -/
theorem prop_toJson (entry : Entry) :
    (entry.toJson.prop "path" = some (.str entry.path) ∧ entry.toJson.prop "access" = some (.str entry.access.text) ∧
      entry.toJson.prop "routeKey" = some (.str entry.routeKey) ∧ entry.toJson.prop "source" = some (.str entry.source)) ∧
    entry.toJson.prop "enabled" = none ∧
    entry.toJson.prop "publicProtocol" = entry.publicProtocol.map PublicProtocol.toJson ∧
    entry.toJson.prop "guestScope" = (if entry.guestScope = [] then none else some (.str entry.guestScope)) ∧
    entry.toJson.prop "guestScopeParam" =
      if entry.guestScopeParam = [] then none else some (.str entry.guestScopeParam) := by
  refine ⟨⟨rfl, rfl, rfl, rfl⟩, ?_⟩
  obtain ⟨⟨access, routeKey, protocol, scope, param⟩, path, source⟩ := entry
  cases protocol <;> cases scope <;> cases param <;> exact ⟨rfl, rfl, rfl, rfl⟩

/-- Reading a text that is already trimmed. -/
theorem trimmed_str (text : Str) : trimmed (some (.str text)) = trim text := by
  cases text <;> rfl

/-- Reading an optional text that is already trimmed. -/
theorem trimmed_optional {text : Str} (h : trim text = text) :
    trimmed (if text = [] then none else some (.str text)) = text := by
  split_ifs with hnil
  · rw [hnil]
    rfl
  · rw [trimmed_str, h]

/-- Texts stored as JSON strings are read back. -/
theorem mapM_str? (texts : List Str) : (texts.map Json.str).mapM Json.str? = some texts := by
  induction texts with
  | nil => rfl
  | cons text texts ih => simp [Json.str?, ih]

/-- The methods of a valid protocol are read again as they are stored. -/
theorem protocolMethodList_toJson (h : protocol.Valid) :
    protocolMethodList (protocol.toJson.prop "methods") = some protocol.methods := by
  have hgood : ¬ (protocol.methods.isEmpty = true ∨
      ¬ protocol.methods.all protocolMethods.contains = true ∨ ¬ protocol.methods.Nodup) := by
    have hall : protocol.methods.all protocolMethods.contains = true :=
      all_eq_true.mpr h.admitted
    simp [h.nonempty, hall, h.nodup]
  show protocolMethodList (some (.arr (protocol.methods.map Json.str))) = _
  rw [protocolMethodList, mapM_str?]
  exact if_neg hgood

/-- A valid protocol is read again as it is stored, as long as its path is still owned. -/
theorem normalizePublicProtocol_toJson (h : protocol.Valid) (path routeKey : Str) :
    normalizePublicProtocol (some protocol.toJson) .public "manifest" path routeKey =
      if ownsServicePath path routeKey then .ok (some protocol)
      else protocolError "requires an owned agent-port path below the service root" := by
  have hredirects : protocol.toJson.prop "allowLoopbackRedirects" =
      some (.bool protocol.allowLoopbackRedirects) := rfl
  have hcors : protocol.toJson.prop "allowCors" = some (.bool protocol.allowCors) := rfl
  have hsort : protocol.methods.insertionSort (fun a b => le a b = true) = protocol.methods :=
    h.sorted.insertionSort_eq
  have hkeys : protocol.toJson.keys.all protocolFields.contains = true := rfl
  have hobject : protocol.toJson.isObject = true := rfl
  have hbool : ∀ b : Bool, (some (Json.bool b) == some (.bool true)) = b := by decide
  rw [normalizePublicProtocol, if_neg (by simp), hobject, hkeys, protocolMethodList_toJson h,
    hredirects, hcors]
  simp only [isOptionalBool, hsort, hbool]
  cases ownsServicePath path routeKey <;> simp

/-- The entry as the run-time evaluator reads it: an entry of the manifest comes through the
manifest provider, any other through the repository. -/
def reload (entry : Entry) : Option Entry :=
  normalizeHttpRoutePolicyEntry entry.toJson
    (if entry.source = lit "manifest" then lit "manifest" else lit "policy")

/-- The source of an entry after it has been read again. -/
def reloadedSource (entry : Entry) : Str :=
  if entry.source.isEmpty then lit "policy" else entry.source

/-- A stored path is checked again without its trailing white space. -/
theorem NormalPath.normalize_trim (h : NormalPath path) :
    normalize (trim path) = checkPath (trimEnd path) true := by
  obtain ⟨t, ht⟩ := h.exists_cons
  have hcons : trimEnd path = '/' :: trimEnd t := by
    rw [ht]
    exact trimEnd_append_cons [] t (by decide)
  have hquery : '?' ∉ trimEnd path := fun hmem =>
    h.query (( rdropWhile_prefix isSpace path).sublist.subset hmem)
  rw [normalize, trim_trim, h.trim_eq, before_eq_self hquery, if_neg (by simp [hcons])]

/-- The optional texts of a valid entry pass their checks again. -/
theorem Entry.Valid.optionalTexts (h : entry.Valid) :
    isOptionalText (if entry.guestScope = [] then none else some (.str entry.guestScope)) = true ∧
      isOptionalParam
        (if entry.guestScopeParam = [] then none else some (.str entry.guestScopeParam)) = true := by
  constructor
  · split_ifs with hnil
    · rfl
    · simp [isOptionalText, h.guestScope, hnil]
  · split_ifs with hnil
    · rfl
    · simpa [isOptionalParam, h.guestScopeParam.1] using (h.guestScopeParam.2 hnil).1

/-- The protocol of a valid entry is read again, as long as the path is still owned. -/
theorem Entry.Valid.reload_protocol (h : entry.Valid) (path : Str) :
    normalizePublicProtocol (entry.publicProtocol.map PublicProtocol.toJson) entry.access
        (if entry.source = lit "manifest" then lit "manifest" else lit "policy") path entry.routeKey =
      if entry.publicProtocol.isSome ∧ ownsServicePath path entry.routeKey = false then
        protocolError "requires an owned agent-port path below the service root"
      else .ok entry.publicProtocol := by
  cases hprotocol : entry.publicProtocol with
  | none => simp [normalizePublicProtocol]
  | some protocol =>
    obtain ⟨hvalid, hsource, haccess, -⟩ := h.publicProtocol protocol hprotocol
    rw [if_pos hsource, haccess, map_some, normalizePublicProtocol_toJson hvalid]
    cases ownsServicePath path entry.routeKey <;> simp

/-- Reading a valid entry again keeps its grant, trims the end of its path and checks the trimmed
path once more. -/
theorem reload_eq (h : entry.Valid) : reload entry =
      match checkPath (trimEnd entry.path) true with
      | .error _ => none
      | .ok path =>
        if entry.publicProtocol.isSome ∧ ownsServicePath path entry.routeKey = false then none
        else some { entry with path := path, source := reloadedSource entry } := by
  have hobject : entry.toJson.isObject = true := rfl
  have hkey : ∀ fallback, trim (strOr (some (.str entry.routeKey)) fallback) = entry.routeKey := by
    intro fallback
    rw [strOr, Json.truthy, if_pos (by simp [h.routeKey.1])]
    exact h.routeKey.2
  have hkeyText : isOptionalText (some (.str entry.routeKey)) = true := by
    simp [isOptionalText, h.routeKey.2, h.routeKey.1]
  have hparamScope : (!entry.guestScopeParam.isEmpty &&
      (entry.access != .guest || entry.guestScope.isEmpty)) = false := by
    by_cases hnil : entry.guestScopeParam = []
    · simp [hnil]
    · obtain ⟨-, hguest, hscope⟩ := h.guestScopeParam.2 hnil
      simp [hguest, hscope]
  obtain ⟨⟨hpath, haccessText, hrouteKey, hsourceText⟩, henabled, hprotocol, hscope, hparam⟩ := prop_toJson entry
  unfold reload normalizeHttpRoutePolicyEntry checkEntry
  have haccess : Access.ofText (toLowerCase (trimmed (some (.str entry.access.text)))) = some entry.access := by
    rcases h.access with ha | ha | ha <;> rw [ha] <;> decide
  rw [hobject, henabled, haccessText, haccess, hpath, trimmed_str, h.path.normalize_trim]
  cases checkPath (trimEnd entry.path) true with
  | error e => rfl
  | ok path =>
    simp only [hrouteKey, hkey, hkeyText, hscope, hparam,
      trimmed_optional h.guestScope, trimmed_optional h.guestScopeParam.1, h.optionalTexts.1,
      h.optionalTexts.2, hparamScope, hprotocol, h.reload_protocol path]
    have hne : entry.routeKey.isEmpty = false := by simp [h.routeKey.1]
    have hsource : strOr (entry.toJson.prop "source")
        (if entry.source = lit "manifest" then lit "manifest" else lit "policy") =
        reloadedSource entry := by
      rw [hsourceText, strOr, reloadedSource]
      cases entry.source <;> rfl
    simp only [hne, hsource]
    by_cases hlost : entry.publicProtocol.isSome = true ∧
        ownsServicePath path entry.routeKey = false
    · rw [if_pos hlost, if_pos hlost]
      rfl
    · rw [if_neg hlost, if_neg hlost]
      rfl

/-- An entry that is read again keeps its grant; its path loses its trailing white space. -/
theorem reload_spec {reloaded : Entry} (h : entry.Valid) (hreload : reload entry = some reloaded) :
    reloaded.toGrant = entry.toGrant ∧ reloaded.path = trimEnd entry.path := by
  rw [reload_eq h] at hreload
  split at hreload
  · simp at hreload
  · rename_i path hpath
    split_ifs at hreload
    simp only [some.injEq] at hreload
    subst hreload
    exact ⟨rfl, (checkPath_spec hpath).1⟩

/-- An entry whose path ends in no white space is read again with the same grant and path. -/
theorem reload_of_trimEnd_eq (h : entry.Valid) (hend : trimEnd entry.path = entry.path) :
    ∃ reloaded, reload entry = some reloaded ∧ reloaded.toGrant = entry.toGrant ∧
      reloaded.path = entry.path := by
  have hkeep : ¬ (entry.publicProtocol.isSome = true ∧
      ownsServicePath entry.path entry.routeKey = false) := by
    rintro ⟨hsome, howns⟩
    obtain ⟨protocol, hprotocol⟩ := isSome_iff_exists.mp hsome
    simp [(h.publicProtocol protocol hprotocol).2.2.2] at howns
  refine ⟨{ entry with source := reloadedSource entry }, ?_, rfl, rfl⟩
  rw [reload_eq h, hend, h.path.checked]
  exact if_neg hkeep

/-- A wildcard path ends in no white space. -/
theorem trimEnd_eq_of_isWildcard (h : isWildcard path = true) : trimEnd path = path := by
  have hend : trimEnd ((stripWildcard path ++ ['/']) ++ ['*']) =
      (stripWildcard path ++ ['/']) ++ ['*'] :=
    trimEnd_append_cons (c := '*') (stripWildcard path ++ ['/']) [] (by decide)
  rw [isWildcard_iff.mp h]
  simpa using hend

end Ploinky.Policy
