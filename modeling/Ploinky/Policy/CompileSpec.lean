import Ploinky.Policy.Coverage

/-!
# What an accepted policy looks like

One specification for each stage of `compileHttpRoutePolicy`: the stored entries are the valid ones
of the input, every representative path of a namespace has its partition, and the entries that
govern it agree.
-/

namespace Ploinky.Policy

open Js PathOrder List

/-- The entries of the input that are switched on, as the compiler normalizes them. -/
def storedEntries (raw : List Json) : List Entry :=
  raw.filterMap fun entry =>
    normalizeHttpRoutePolicyEntry entry (strOr (entry.prop "source") "policy")

/-- Reading the source of an entry again gives the same source. -/
theorem strOr_strOr (value : Option Json) (fallback : Str) :
    strOr value (strOr value fallback) = strOr value fallback := by
  cases value with
  | none => rfl
  | some json => cases h : json.truthy <;> simp [strOr, h]

variable {raw : List Json} {representative : Str} {defaults : List (Str × Decision)} {seen : List Str}
  {compiled : Namespace}

/-- Stored entries are valid and carry the source of their input. -/
theorem storedEntries_spec {entry : Entry} (h : entry ∈ storedEntries raw) :
    entry.Valid ∧ ∃ json ∈ raw, entry.source = strOr (json.prop "source") "policy" := by
  obtain ⟨json, hjson, hentry⟩ := mem_filterMap.mp h
  unfold normalizeHttpRoutePolicyEntry at hentry
  split at hentry
  · rename_i result hcheck
    subst hentry
    obtain ⟨hvalid, hsource⟩ := checkEntry_valid (strOr_strOr _ _) hcheck
    exact ⟨hvalid, json, hjson, hsource⟩
  · cases hentry

variable {entries : List Entry} {index : Nat} {localeLe : Str → Str → Bool}

/-- The compiler keeps the stored entries of an accepted input. -/
theorem compileEntries_eq (h : compileEntries index raw = .ok entries) :
    entries = storedEntries raw := by
  induction raw generalizing index entries with
  | nil =>
    simp only [compileEntries, Except.ok.injEq] at h
    simp [← h, storedEntries]
  | cons json raw ih =>
    rw [compileEntries, bind_eq_ok] at h
    obtain ⟨head, hhead, h⟩ := h
    rw [bind_eq_ok] at h
    obtain ⟨tail, htail, h⟩ := h
    simp only [pure, Except.pure, Except.ok.injEq] at h
    have hnormal : normalizeHttpRoutePolicyEntry json (strOr (json.prop "source") "policy") =
        head := by
      unfold compileEntry at hhead
      unfold normalizeHttpRoutePolicyEntry
      cases hcheck : checkEntry json (strOr (json.prop "source") "policy") with
      | ok result => simpa [hcheck] using hhead
      | error e => simp [hcheck] at hhead
    rw [← h, ih htail]
    simp only [storedEntries, filterMap_cons, hnormal]
    cases head <;> rfl

/-- The partition of an accepted representative records the choice among the governing entries,
which agree. -/
theorem evaluateRepresentative_spec {routeDefault : Decision} {partition : Partition}
    (h : evaluateRepresentative representative entries routeDefault = .ok partition) :
    partition = partitionOf representative (matching entries representative)
        (chosen (matching entries representative) routeDefault) ∧
      Agree (matching entries representative) := by
  unfold evaluateRepresentative at h
  dsimp only at h
  split at h
  · rename_i hnil
    simp only [Except.ok.injEq] at h
    refine ⟨?_, ?_⟩
    · rw [← h]
      simp [chosen, hnil]
    · simp [Agree, hnil]
  · rename_i winner rest htied
    split at h
    · cases h
    · rename_i hfind
      simp only [Except.ok.injEq] at h
      have hwinner : ∀ entry ∈ tied (matching entries representative),
          executionMetadata entry.toGrant = executionMetadata winner.toGrant := by
        intro entry hentry
        rw [htied] at hentry
        rcases mem_cons.mp hentry with rfl | hentry
        · rfl
        · simpa using find?_eq_none.mp hfind entry hentry
      refine ⟨?_, fun a ha b hb => (hwinner a ha).trans (hwinner b hb).symm⟩
      rw [← h]
      simp [chosen, htied]

/-- A partition decides every method. -/
theorem mem_partitionOf_methods {method : Str} {governing : List Entry} {winner decision : Decision} :
    (method, decision) ∈ (partitionOf representative governing winner).methods ↔
      method ∈ compiledMethods ∧ decision = methodDecision winner method := by
  simp only [partitionOf, mem_map, Prod.mk.injEq]
  constructor
  · rintro ⟨m, hm, rfl, rfl⟩
    exact ⟨hm, rfl⟩
  · rintro ⟨hm, rfl⟩
    exact ⟨method, hm, rfl, rfl⟩

/-- What an accepted namespace satisfies. -/
structure CompiledNamespace (localeLe : Str → Str → Bool) (entries : List Entry)
    (routeDefault : Decision) (compiled : Namespace) : Prop where
  routeKey : compiled.routeKey ≠ []
  root : IsRoot compiled.root
  partition : ∀ r ∈ representativePaths localeLe compiled.root entries,
    partitionOf r (matching entries r) (chosen (matching entries r) routeDefault) ∈
        compiled.partitions ∧ Agree (matching entries r)
  representative : ∀ partition ∈ compiled.partitions,
    ∃ r ∈ representativePaths localeLe compiled.root entries,
      partition = partitionOf r (matching entries r) (chosen (matching entries r) routeDefault)
  authenticated : compiled.requireAuthenticated = true →
    ∀ partition ∈ compiled.partitions, partition.allAuthenticated = true

/-- The body of the namespace loop returns such a namespace. -/
theorem compileNamespace_spec {json : Json}
    (h : compileNamespace localeLe entries defaults seen index json = .ok compiled) :
    ∃ routeDefault, routeDefaultOf defaults compiled.routeKey = some routeDefault ∧
      CompiledNamespace localeLe entries routeDefault compiled := by
  unfold compileNamespace at h
  split at h
  · cases h
  rename_i root hroot
  rw [guardProp_eq_ok] at h
  obtain ⟨hfields, h⟩ := h
  split at h
  · cases h
  rename_i routeDefault hdefault
  rw [bind_eq_ok] at h
  obtain ⟨partitions, hpartitions, h⟩ := h
  rw [guard_eq_ok] at h
  obtain ⟨hauthenticated, h⟩ := h
  simp only [Except.ok.injEq] at h
  subst h
  obtain ⟨hforward, hback⟩ := mapM_eq_ok hpartitions
  obtain ⟨hnormal, -, hplain⟩ := normalize_spec hroot
  refine ⟨routeDefault, hdefault, ?_, ⟨hnormal, hplain rfl⟩, ?_, ?_, ?_⟩
  · simp only [not_or] at hfields
    simpa using hfields.2.2
  · intro r hr
    obtain ⟨partition, hmem, hevaluate⟩ := hforward r hr
    obtain ⟨heq, hagree⟩ := evaluateRepresentative_spec hevaluate
    exact ⟨heq ▸ hmem, hagree⟩
  · intro partition hmem
    obtain ⟨r, hr, hevaluate⟩ := hback partition hmem
    exact ⟨r, hr, (evaluateRepresentative_spec hevaluate).1⟩
  · intro hrequired partition hmem
    dsimp only at hrequired
    rw [hrequired, Bool.true_and, Bool.not_eq_false'] at hauthenticated
    exact all_eq_true.mp hauthenticated partition hmem

/-- Every namespace of an accepted policy. -/
theorem compileNamespaces_spec {json : List Json} {namespaces : List Namespace}
    (h : compileNamespaces localeLe entries defaults seen index json = .ok namespaces)
    (hmem : compiled ∈ namespaces) :
    ∃ routeDefault, routeDefaultOf defaults compiled.routeKey = some routeDefault ∧
      CompiledNamespace localeLe entries routeDefault compiled := by
  induction json generalizing seen index namespaces with
  | nil =>
    simp only [compileNamespaces, Except.ok.injEq] at h
    simp [← h] at hmem
  | cons first rest ih =>
    rw [compileNamespaces, bind_eq_ok] at h
    obtain ⟨head, hhead, h⟩ := h
    rw [bind_eq_ok] at h
    obtain ⟨tail, htail, h⟩ := h
    simp only [pure, Except.pure, Except.ok.injEq] at h
    subst h
    rcases mem_cons.mp hmem with rfl | hmem
    · exact compileNamespace_spec hhead
    · exact ih htail hmem

/-- The default of a route in the input. -/
def defaultFor (routeDefaults : List (Str × Json)) (routeKey : Str) : Option Decision :=
  match compileDefaults routeDefaults with
  | .ok defaults => routeDefaultOf defaults routeKey
  | .error _ => none

/-- An accepted policy stores the entries of its input and compiles each namespace. -/
theorem compileHttpRoutePolicy_spec {entries namespaces : List Json} {routeDefaults : List (Str × Json)}
    {policy : CompiledPolicy}
    (h : compileHttpRoutePolicy localeLe entries namespaces routeDefaults = .ok policy) :
    policy.entries = storedEntries entries ∧ ∀ compiled ∈ policy.namespaces,
      routeDefaultOf policy.routeDefaults compiled.routeKey = defaultFor routeDefaults compiled.routeKey ∧
        ∃ routeDefault, defaultFor routeDefaults compiled.routeKey = some routeDefault ∧
          CompiledNamespace localeLe policy.entries routeDefault compiled := by
  rw [compileHttpRoutePolicy, bind_eq_ok] at h
  obtain ⟨stored, hstored, h⟩ := h
  rw [bind_eq_ok] at h
  obtain ⟨defaults, hdefaults, h⟩ := h
  rw [bind_eq_ok] at h
  obtain ⟨compiled, hcompiled, h⟩ := h
  simp only [pure, Except.pure, Except.ok.injEq] at h
  subst h
  refine ⟨compileEntries_eq hstored, fun space hmem => ?_⟩
  have hsame : defaultFor routeDefaults space.routeKey = routeDefaultOf defaults space.routeKey := by
    rw [defaultFor, hdefaults]
  obtain ⟨routeDefault, hdefault, hspace⟩ := compileNamespaces_spec hcompiled hmem
  exact ⟨hsame.symm, routeDefault, hsame.trans hdefault, hspace⟩

end Ploinky.Policy
