import Ploinky.Policy.CompileSpec

/-!
# When the compiled policy describes the run-time policy

`Faithful` states the promise of the compiler for one namespace: every request of the namespace is
decided like one of its partitions, an authenticated namespace decides every request as
authenticated, and no tie of conflicting entries decides a request. `faithful_iff` reduces it to
finitely many critical paths. An entry whose path ends in a slash is critical: the compiler has no
representative for it.
-/

namespace Ploinky.Policy

open Js PathOrder List

/-! ## The entries the evaluator uses -/

/-- The entries the run-time evaluator matches requests against. -/
def runtimeEntries (compiled : CompiledPolicy) : List Entry :=
  (snapshotPolicy compiled).iterPolicyEntries
    ((snapshotPolicy compiled).manifestRouteProvider.getD [])

/-- The stored entries in the order in which the evaluator reads them: those of the policy first,
then those of the manifests. -/
def evaluationOrder (stored : List Entry) : List Entry :=
  stored.filter (fun entry => entry.source != lit "manifest") ++
    stored.filter (fun entry => entry.source == lit "manifest")

/-- The stored entries as the evaluator reads them. -/
def reloaded (stored : List Entry) : List Entry := (evaluationOrder stored).filterMap reload

/-- The evaluator uses the stored entries, read again. -/
theorem runtimeEntries_eq (compiled : CompiledPolicy) :
    runtimeEntries compiled = reloaded compiled.entries := by
  have hread : ∀ (l : List Entry) (source : Str),
      (∀ entry ∈ l, (if entry.source = lit "manifest" then lit "manifest" else lit "policy") = source) →
      (l.map Entry.toJson).filterMap (normalizeHttpRoutePolicyEntry · source) = l.filterMap reload := by
    intro l source hl
    rw [filterMap_map]
    exact filterMap_congr fun entry hentry => by simp [reload, hl entry hentry]
  unfold runtimeEntries AccessPolicy.iterPolicyEntries snapshotPolicy
  simp only [Option.getD_some, Bool.false_eq_true, if_false]
  rw [hread _ "policy" (by simp +contextual), hread _ "manifest" (by simp +contextual), ← filterMap_append]
  rfl

/-- Reading the entries again loses and adds none. -/
theorem mem_reloaded {stored : List Entry} {entry : Entry} :
    entry ∈ reloaded stored ↔ ∃ e ∈ stored, reload e = some entry := by
  have hmem : ∀ e, e ∈ evaluationOrder stored ↔ e ∈ stored := by
    intro e
    unfold evaluationOrder
    by_cases hsource : e.source = lit "manifest" <;> simp [hsource]
  simp [reloaded, hmem]

section Reloaded

variable {stored : List Entry} {q : Str}

/-- Reloaded entries grant what a stored entry grants. -/
theorem access_rank_pos_of_mem_reload (hvalid : ∀ e ∈ stored, e.Valid) {entry : Entry}
    (h : entry ∈ reloaded stored) : 0 < entry.access.rank := by
  obtain ⟨e, he, hreload⟩ := mem_reloaded.mp h
  have hgrant := (reload_spec (hvalid e he) hreload).1
  have haccess : entry.access = e.access := congrArg Grant.access hgrant
  rcases (hvalid e he).access with ha | ha | ha <;> simp [haccess, ha, Access.rank]

/-- The grants of the reloaded entries that govern a path are the grants of stored entries, listed
in the same order. -/
theorem map_matching_reload (hvalid : ∀ e ∈ stored, e.Valid) :
    (matching (stored.filterMap reload) q).map Entry.toGrant =
      (stored.filter fun e => (reload e).any fun r => matchesPath q r.path).map Entry.toGrant := by
  induction stored with
  | nil => rfl
  | cons e stored ih =>
    have hrest := ih fun x hx => hvalid x (.tail _ hx)
    unfold matching at hrest ⊢
    rw [filterMap_cons, filter_cons]
    cases hreload : reload e with
    | none => simpa using hrest
    | some r =>
      have hgrant := (reload_spec (hvalid e (.head _)) hreload).1
      simp only [filter_cons, Option.any_some]
      split_ifs <;> simp [hrest, hgrant]

end Reloaded

/-- The run-time decision at a request path. -/
theorem evaluate_eq {compiled : CompiledPolicy} {routeDefault : Decision}
    {routeKey p q : Str} (method : Str) (hvalid : ∀ e ∈ compiled.entries, e.Valid)
    (hdefault : routeDefaultOf compiled.routeDefaults routeKey = some routeDefault)
    (hkey : routeKey ≠ []) (hp : normalize p false = .ok q) :
    (snapshotPolicy compiled).evaluate p method routeKey =
      methodDecision (chosen (matching (reloaded compiled.entries) q) routeDefault) method := by
  have hrank : ∀ e ∈ reloaded compiled.entries, 0 < e.access.rank :=
    fun e he => access_rank_pos_of_mem_reload hvalid he
  have hunfold : (snapshotPolicy compiled).evaluate p method routeKey =
      methodDecision
        (if (decideEntries (runtimeEntries compiled) q).access = .none then
          (routeDefaultOf compiled.routeDefaults routeKey).getD noHttpRouteAccess
        else decideEntries (runtimeEntries compiled) q) method := by
    have hkeyEmpty : routeKey.isEmpty = false := by simpa using hkey
    unfold AccessPolicy.evaluate
    simp only [hp, hkeyEmpty]
    rfl
  rw [hunfold, runtimeEntries_eq, decideEntries_eq q hrank, hdefault]
  exact congrArg (methodDecision · method)
    (ite_chosen (fun e he => hrank e (mem_of_mem_filter he)) routeDefault)

/-! ## Which reloaded entries govern a path -/

/-- A stored path that is no wildcard has no star. -/
theorem NormalPath.star_not_mem {path : Str} (h : NormalPath path)
    (hwild : isWildcard path = false) : '*' ∉ path := by
  obtain ⟨-, -, -, -, -, -, -, hstar, -⟩ := checkPath_eq_ok_iff.mp h.checked
  simpa [coreOf, hwild] using hstar

/-- Trimming does not turn a stored path into a wildcard. -/
theorem NormalPath.isWildcard_trimEnd {path : Str} (h : NormalPath path)
    (hwild : isWildcard path = false) : isWildcard (trimEnd path) = false := by
  by_contra htrue
  have hpath : trimEnd path = stripWildcard (trimEnd path) ++ ['/', '*'] :=
    isWildcard_iff.mp (by simpa using htrue)
  have hstar : '*' ∈ trimEnd path := by
    rw [hpath]
    simp
  exact h.star_not_mem hwild (( rdropWhile_prefix isSpace path).sublist.subset hstar)

section Governs

variable {entry : Entry} {q : Str}

/-- A wildcard governs the same paths when it is read again. -/
theorem any_reload_of_isWildcard (h : entry.Valid) (hwild : isWildcard entry.path = true) :
    ((reload entry).any fun x => matchesPath q x.path) = matchesPath q entry.path := by
  obtain ⟨x, hx, -, hpath⟩ := reload_of_trimEnd_eq h (trimEnd_eq_of_isWildcard hwild)
  rw [hx, Option.any_some, hpath]

/-- An exact entry governs its trimmed path when it is read again. -/
theorem any_reload_of_not_isWildcard (h : entry.Valid) (hwild : isWildcard entry.path = false) :
    ((reload entry).any fun x => matchesPath q x.path) = true ↔
      (reload entry).isSome = true ∧ trimEnd entry.path = q := by
  cases hreload : reload entry with
  | none => simp
  | some x =>
    have hpath := (reload_spec h hreload).2
    have hexact := h.path.isWildcard_trimEnd hwild
    simp only [Option.any_some, Option.isSome_some, true_and, matchesPath, hpath, hexact,
      Bool.false_eq_true, if_false, beq_iff_eq]
    exact eq_comm

/-- The core of an entry that is read again. -/
theorem entryCore_of_reload {x : Entry} (h : entry.Valid) (hreload : reload entry = some x) :
    entryCore x = if isWildcard entry.path then entryCore entry else trimEnd entry.path := by
  have hpath := (reload_spec h hreload).2
  unfold entryCore
  cases hwild : isWildcard entry.path with
  | true => rw [hpath, trimEnd_eq_of_isWildcard hwild, if_pos rfl]
  | false =>
    rw [hpath, stripWildcard_of_not (h.path.isWildcard_trimEnd hwild), if_neg (by simp)]

end Governs

/-- The paths at which reading the entries again can matter: those that end in a slash, and those
from or to which an entry is moved. -/
def Irregular (stored : List Entry) (q : Str) : Prop :=
  ['/'] <:+ q ∨ ∃ e ∈ stored, trimEnd e.path ≠ e.path ∧ (e.path = q ∨ trimEnd e.path = q)

section Represented

variable {stored : List Entry} {root q : Str}

/-- At a regular path, reading the entries again does not change which of them govern it. -/
theorem any_reload_eq_of_regular (hvalid : ∀ e ∈ stored, e.Valid) (hregular : ¬ Irregular stored q)
    {e : Entry} (he : e ∈ stored) :
    ((reload e).any fun x => matchesPath q x.path) = matchesPath q e.path := by
  cases hwild : isWildcard e.path with
  | true => exact any_reload_of_isWildcard (hvalid e he) hwild
  | false =>
    have hstay : e.path = q ∨ trimEnd e.path = q → trimEnd e.path = e.path := by
      intro hq
      by_contra hmoved
      exact hregular (.inr ⟨e, he, hmoved, hq⟩)
    rw [Bool.eq_iff_iff, any_reload_of_not_isWildcard (hvalid e he) hwild]
    simp only [matchesPath, hwild, Bool.false_eq_true, if_false, beq_iff_eq]
    constructor
    · rintro ⟨-, hq⟩
      rw [← hstay (.inr hq), hq]
    · intro hq
      have hend := hstay (.inl hq.symm)
      obtain ⟨x, hx, -⟩ := reload_of_trimEnd_eq (hvalid e he) hend
      exact ⟨by simp [hx], by rw [hend, hq]⟩

/-- Away from the cores, only the wildcards above a path govern it. -/
theorem any_reload_of_not_core (hvalid : ∀ e ∈ stored, e.Valid)
    (hcore : ∀ x ∈ reloaded stored, entryCore x ≠ q) {e : Entry} (he : e ∈ stored) :
    ((reload e).any fun x => matchesPath q x.path) = true ↔
      isWildcard e.path = true ∧ entryCore e ++ ['/'] <+: q := by
  have hne : ∀ x, reload e = some x → entryCore x ≠ q :=
    fun x hx => hcore x (mem_reloaded.mpr ⟨e, he, hx⟩)
  cases hwild : isWildcard e.path with
  | true =>
    obtain ⟨x, hx, -⟩ := reload_of_trimEnd_eq (hvalid e he) (trimEnd_eq_of_isWildcard hwild)
    have hcoreq : entryCore e ≠ q := by
      have := hne x hx
      rwa [entryCore_of_reload (hvalid e he) hx, if_pos hwild] at this
    rw [any_reload_of_isWildcard (hvalid e he) hwild, matchesPath_iff]
    simp only [hwild]
    exact or_iff_right fun h => hcoreq h.symm
  | false =>
    simp only [Bool.false_eq_true, false_and, iff_false]
    rw [any_reload_of_not_isWildcard (hvalid e he) hwild]
    rintro ⟨hsome, hq⟩
    obtain ⟨x, hx⟩ := Option.isSome_iff_exists.mp hsome
    exact hne x hx (by rw [entryCore_of_reload (hvalid e he) hx, hwild]; exact hq)

/-- A regular core of a reloaded entry is the core of a stored one. -/
theorem exists_core_eq_of_regular (hvalid : ∀ e ∈ stored, e.Valid) (hregular : ¬ Irregular stored q)
    (hcore : ∃ x ∈ reloaded stored, entryCore x = q) : ∃ e ∈ stored, entryCore e = q := by
  obtain ⟨x, hx, hq⟩ := hcore
  obtain ⟨e, he, hreload⟩ := mem_reloaded.mp hx
  refine ⟨e, he, ?_⟩
  rw [entryCore_of_reload (hvalid e he) hreload] at hq
  cases hwild : isWildcard e.path with
  | true => rwa [if_pos hwild] at hq
  | false =>
    rw [if_neg (by simp [hwild])] at hq
    have hstay : trimEnd e.path = e.path := by
      by_contra hmoved
      exact hregular (.inr ⟨e, he, hmoved, .inr hq⟩)
    rw [entryCore, stripWildcard_of_not hwild, ← hstay, hq]

/-- Every path of the namespace has a representative that the same entries govern, unless the path
is an irregular core or the root moves. -/
theorem exists_representative (localeLe : Str → Str → Bool) (hroot : IsRoot root)
    (hvalid : ∀ e ∈ stored, e.Valid) (hadjacent : ¬ ['/', '/'] <:+: q) (hcovers : Covers '/' root q)
    (hmoved : q = root → trimEnd root = root)
    (hregular : (∃ x ∈ reloaded stored, entryCore x = q) → ¬ Irregular stored q) :
    ∃ r ∈ representativePaths localeLe root stored, ∀ e ∈ stored,
      ((reload e).any fun x => matchesPath q x.path) = matchesPath r e.path := by
  by_cases hcore : ∃ x ∈ reloaded stored, entryCore x = q
  · -- A regular core is a boundary and represents itself.
    obtain ⟨e, he, rfl⟩ := exists_core_eq_of_regular hvalid (hregular hcore) hcore
    have hlast : ¬ ['/'] <:+ entryCore e := fun h => hregular hcore (.inl h)
    refine ⟨entryCore e, mem_representativePaths.mpr (.inl ?_), ?_⟩
    · exact core_mem_boundaries hroot (hvalid e he) he hcovers hlast
    · exact fun e' he' => any_reload_eq_of_regular hvalid (hregular hcore) he'
  · have hnot : ∀ x ∈ reloaded stored, entryCore x ≠ q := by simpa using hcore
    rcases hcovers with hq | hbelow
    · -- No entry has the root as its core, so no stored path is the root either.
      refine ⟨root, mem_representativePaths.mpr (.inl root_mem_boundaries), fun e he => ?_⟩
      have hend := hmoved hq
      subst hq
      cases hwild : isWildcard e.path with
      | true => exact any_reload_of_isWildcard (hvalid e he) hwild
      | false =>
        have hne : e.path ≠ q := by
          intro heq
          obtain ⟨x, hx, -, hpath⟩ := reload_of_trimEnd_eq (hvalid e he) (heq ▸ hend)
          refine hnot x (mem_reloaded.mpr ⟨e, he, hx⟩) ?_
          rw [entryCore_of_reload (hvalid e he) hx, hwild, heq]
          exact hend
        have hfalse : matchesPath q e.path = false := by
          simpa [matchesPath, hwild] using fun h => hne h.symm
        rw [hfalse, Bool.eq_false_iff, ne_eq, any_reload_of_not_core hvalid hnot he, hwild]
        simp
    · obtain ⟨r, hr, hgoverns⟩ :=
        exists_representative_above localeLe hroot hvalid hadjacent hbelow
      refine ⟨r, hr, fun e he => ?_⟩
      rw [Bool.eq_iff_iff, any_reload_of_not_core hvalid hnot he, hgoverns e he]

end Represented

/-! ## The promise of the compiler -/

/-- The compiled namespace describes the run-time decisions on the requests in it. -/
structure Faithful (compiled : CompiledPolicy) (space : Namespace) : Prop where
  /-- Some partition makes the grant of the run-time decision. -/
  covered : ∀ p q, isWithin space.root p = true → normalize p false = .ok q →
    ∀ method ∈ compiledMethods, ∃ partition ∈ space.partitions, ∃ decision,
      (method, decision) ∈ partition.methods ∧ decision.toGrant =
        ((snapshotPolicy compiled).evaluate p method space.routeKey).toGrant
  /-- An authenticated namespace decides every request as authenticated. -/
  authenticated : space.requireAuthenticated = true → ∀ p q, isWithin space.root p = true →
    normalize p false = .ok q → ∀ method ∈ compiledMethods,
      ((snapshotPolicy compiled).evaluate p method space.routeKey).access = .authenticated
  /-- No conflicting tie decides a request. -/
  untied : ∀ p q, isWithin space.root p = true → normalize p false = .ok q →
    Agree (matching (runtimeEntries compiled) q)

/-- A request of the namespace is normalized to the path. -/
def Reaches (root q : Str) : Prop :=
  ∃ p, isWithin root p = true ∧ normalize p false = .ok q

/-- The run-time entries that govern the path do not conflict, and decide every method as the stored
entries decide it at some path of the namespace without empty segments. -/
structure SettledAt (stored : List Entry) (routeDefault : Decision) (root q : Str) : Prop where
  agree : Agree (matching (reloaded stored) q)
  decided : ∀ method ∈ compiledMethods, ∃ r, Extends '/' root r ∧
    (methodDecision (chosen (matching stored r) routeDefault) method).toGrant =
      (methodDecision (chosen (matching (reloaded stored) q) routeDefault) method).toGrant

/-- The request paths that no representative stands for: irregular cores, the trimmed root of a
namespace whose root ends in white space, and paths at which the evaluator meets the governing
entries in another order than the compiler. -/
def Critical (stored : List Entry) (root q : Str) : Prop :=
  Reaches root q ∧
    ((∃ x ∈ reloaded stored, entryCore x = q) ∧ Irregular stored q ∨
      trimEnd root ≠ root ∧ q = trimEnd root ∨
      matching (reloaded stored) q ≠ matching (stored.filterMap reload) q)

section Promise

variable {localeLe : Str → Str → Bool} {stored : List Entry} {routeDefault : Decision}
  {root q : Str} {compiled : CompiledPolicy} {space : Namespace}

/-- A reached path lies below the root or is the trimmed root. -/
theorem Reaches.spec (hroot : IsRoot root) (h : Reaches root q) :
    NormalPath q ∧ isWildcard q = false ∧ (root ++ ['/'] <+: q ∨ q = trimEnd root) := by
  obtain ⟨p, hwithin, hnormalize⟩ := h
  obtain ⟨hnormal, hq, hplain⟩ := normalize_spec hnormalize
  refine ⟨hnormal, hplain rfl, ?_⟩
  rcases (covers_iff.mp hwithin).exists_append with rfl | ⟨rest, rfl⟩
  · right
    have hquery : '?' ∉ trimEnd p := fun hmem =>
      hroot.normal.query (( rdropWhile_prefix isSpace p).sublist.subset hmem)
    rw [hq, hroot.normal.trim_eq, before_eq_self hquery]
  · left
    rw [hq, hroot.normal.before_trim_below]
    exact ⟨before (trimEnd rest) '?', by simp⟩

/-- A path that is not critical is settled, by its representative. -/
theorem settledAt_of_not_critical (hspace : CompiledNamespace localeLe stored routeDefault space)
    (hvalid : ∀ e ∈ stored, e.Valid) (hreaches : Reaches space.root q)
    (hcritical : ¬ Critical stored space.root q) : SettledAt stored routeDefault space.root q := by
  obtain ⟨hnormal, hplain, hplace⟩ := hreaches.spec hspace.root
  simp only [Critical, not_and, not_or, Decidable.not_not] at hcritical
  obtain ⟨hregular, hstays, horder⟩ := hcritical hreaches
  have hadjacent : ¬ ['/', '/'] <:+: q := by
    simpa [stripWildcard_of_not hplain] using hnormal.adjacent
  have hroot : q = trimEnd space.root → trimEnd space.root = space.root := by
    intro hq
    by_contra hmoved
    exact hstays hmoved hq
  have hcovers : Covers '/' space.root q := by
    rcases hplace with hbelow | hq
    · exact .inr hbelow
    · exact .inl (hq.trans (hroot hq))
  have hself : q = space.root → trimEnd space.root = space.root := by
    intro hq
    rcases hplace with hbelow | hq'
    · have hlength := hbelow.length_le
      rw [hq, length_append, length_singleton] at hlength
      omega
    · exact hroot hq'
  obtain ⟨r, hr, hgoverns⟩ :=
    exists_representative localeLe hspace.root hvalid hadjacent hcovers hself hregular
  have hsame : (matching (stored.filterMap reload) q).map Entry.toGrant =
      (matching stored r).map Entry.toGrant := by
    rw [map_matching_reload hvalid, matching, filter_congr hgoverns]
  rw [← horder] at hsame
  refine ⟨agree_congr hsame.symm (hspace.partition r hr).2, fun method _ => ?_⟩
  exact ⟨r, extends_of_mem_representativePaths hspace.root hvalid hr,
    methodDecision_toGrant_congr method (chosen_toGrant_congr routeDefault hsame.symm)⟩

/-- A compiled namespace is faithful when every reached path is settled, and only then. -/
theorem faithful_iff_settledAt (hspace : CompiledNamespace localeLe compiled.entries routeDefault space)
    (hvalid : ∀ e ∈ compiled.entries, e.Valid)
    (hdefault : routeDefaultOf compiled.routeDefaults space.routeKey = some routeDefault) :
    Faithful compiled space ↔
      ∀ q, Reaches space.root q → SettledAt compiled.entries routeDefault space.root q := by
  have hevaluate : ∀ {p q} method, normalize p false = .ok q →
      (snapshotPolicy compiled).evaluate p method space.routeKey =
        methodDecision (chosen (matching (reloaded compiled.entries) q) routeDefault) method :=
    fun method hp => evaluate_eq method hvalid hdefault hspace.routeKey hp
  constructor
  · rintro hfaithful q ⟨p, hwithin, hp⟩
    refine ⟨runtimeEntries_eq compiled ▸ hfaithful.untied p q hwithin hp, fun method hmethod => ?_⟩
    obtain ⟨partition, hpartition, decision, hdecision, hgrant⟩ :=
      hfaithful.covered p q hwithin hp method hmethod
    obtain ⟨r, hr, rfl⟩ := hspace.representative partition hpartition
    obtain ⟨-, rfl⟩ := mem_partitionOf_methods.mp hdecision
    exact ⟨r, extends_of_mem_representativePaths hspace.root hvalid hr, hevaluate method hp ▸ hgrant⟩
  · intro hsettled
    have hcovered : ∀ p q, isWithin space.root p = true → normalize p false = .ok q →
        ∀ method ∈ compiledMethods, ∃ partition ∈ space.partitions, ∃ decision,
          (method, decision) ∈ partition.methods ∧ decision.toGrant =
            ((snapshotPolicy compiled).evaluate p method space.routeKey).toGrant := by
      intro p q hwithin hp method hmethod
      obtain ⟨r, hr, hgrant⟩ := (hsettled q ⟨p, hwithin, hp⟩).decided method hmethod
      obtain ⟨r', hr', hgoverns⟩ :=
        exists_representative_of_extends localeLe hspace.root hvalid hr
      have hmatching : matching compiled.entries r = matching compiled.entries r' :=
        filter_congr hgoverns
      refine ⟨_, (hspace.partition r' hr').1, _,
        mem_partitionOf_methods.mpr ⟨hmethod, rfl⟩, ?_⟩
      rw [hevaluate method hp, ← hmatching]
      exact hgrant
    refine ⟨hcovered, fun hrequired p q hwithin hp method hmethod => ?_, fun p q hwithin hp => ?_⟩
    · obtain ⟨partition, hpartition, decision, hdecision, hgrant⟩ :=
        hcovered p q hwithin hp method hmethod
      have hall := hspace.authenticated hrequired partition hpartition
      have haccess : decision.access = .authenticated := by
        simpa using all_eq_true.mp hall _ hdecision
      exact (congrArg Grant.access hgrant).symm.trans haccess
    · rw [runtimeEntries_eq]
      exact (hsettled q ⟨p, hwithin, hp⟩).agree

end Promise

section Accepted

variable {localeLe : Str → Str → Bool} {entries namespaces : List Json}
  {routeDefaults : List (Str × Json)} {compiled : CompiledPolicy} {space : Namespace}

/-- For an accepted policy, a namespace is faithful exactly when its critical paths are settled. -/
theorem faithful_iff
    (hcompile : compileHttpRoutePolicy localeLe entries namespaces routeDefaults = .ok compiled)
    (hspace : space ∈ compiled.namespaces) : Faithful compiled space ↔
      ∀ routeDefault, defaultFor routeDefaults space.routeKey = some routeDefault →
        ∀ q, Critical (storedEntries entries) space.root q →
          SettledAt (storedEntries entries) routeDefault space.root q := by
  obtain ⟨hstored, hspaces⟩ := compileHttpRoutePolicy_spec hcompile
  obtain ⟨hsame, routeDefault, hdefault, hcompiled⟩ := hspaces space hspace
  have hvalid : ∀ e ∈ compiled.entries, e.Valid :=
    fun e he => (storedEntries_spec (hstored ▸ he)).1
  rw [← hstored, faithful_iff_settledAt hcompiled hvalid (hsame.trans hdefault)]
  constructor
  · intro hsettled other hother q hcritical
    obtain rfl : routeDefault = other := Option.some.inj (hdefault.symm.trans hother)
    exact hsettled q hcritical.1
  · intro hsettled q hreaches
    by_cases hcritical : Critical compiled.entries space.root q
    · exact hsettled routeDefault hdefault q hcritical
    · exact settledAt_of_not_critical hcompiled hvalid hreaches hcritical

/-- An entry for a path of the agent `foo`. -/
def fooEntry (path access : String) : Json :=
  .obj [("path", .str path), ("access", .str access)]

/-- The agent root of `foo`, compiled with one entry; its requests must be authenticated. -/
def fooPolicy (entry : Json) : Except CodedError CompiledPolicy :=
  compileHttpRoutePolicy le [entry]
    [.obj [("id", .str "agent-root:foo"), ("routeKey", .str "foo"), ("prefix", .str "/foo"),
      ("requireAuthenticated", .bool true)]]
    [("foo", .obj [("access", .str "authenticated")])]

theorem faithful_iff_foo :
    ∃ compiled space, fooPolicy (fooEntry "/foo/bar/*" "authenticated") = .ok compiled ∧
      space ∈ compiled.namespaces ∧ (Faithful compiled space ↔ ∀ routeDefault,
          defaultFor [("foo", .obj [("access", .str "authenticated")])] space.routeKey = some routeDefault →
            ∀ q, Critical (storedEntries [fooEntry "/foo/bar/*" "authenticated"]) space.root q →
              SettledAt (storedEntries [fooEntry "/foo/bar/*" "authenticated"]) routeDefault
                space.root q) := by
  have hcheck : (match fooPolicy (fooEntry "/foo/bar/*" "authenticated") with
      | .ok compiled => !compiled.namespaces.isEmpty
      | .error _ => false) = true := by decide +kernel
  cases hcompile : fooPolicy (fooEntry "/foo/bar/*" "authenticated") with
  | error e => simp [hcompile] at hcheck
  | ok compiled =>
    simp only [hcompile, Bool.not_eq_true', isEmpty_eq_false_iff] at hcheck
    obtain ⟨space, hspace⟩ := exists_mem_of_ne_nil _ hcheck
    exact ⟨compiled, space, rfl, hspace, faithful_iff hcompile hspace⟩

/-- An entry whose path ends in a slash opens a path of an authenticated namespace: the compiler
accepts it, because the path has no representative. -/
theorem slash_entry_opens_authenticated_root :
    ∃ compiled space, fooPolicy (fooEntry "/foo/bar/" "public") = .ok compiled ∧
      space ∈ compiled.namespaces ∧ space.requireAuthenticated = true ∧
      ((snapshotPolicy compiled).evaluate "/foo/bar/" "GET" space.routeKey).access = .public ∧
      ¬ Faithful compiled space := by
  have hcheck : (match fooPolicy (fooEntry "/foo/bar/" "public") with
      | .ok compiled => compiled.namespaces.any fun space =>
        space.requireAuthenticated && isWithin space.root "/foo/bar/" &&
          ((snapshotPolicy compiled).evaluate "/foo/bar/" "GET" space.routeKey).access == .public
      | .error _ => false) = true := by decide +kernel
  have hnormalize : normalize "/foo/bar/" false = .ok (lit "/foo/bar/") := by decide +kernel
  cases hcompile : fooPolicy (fooEntry "/foo/bar/" "public") with
  | error e => simp [hcompile] at hcheck
  | ok compiled =>
    simp only [hcompile, any_eq_true, Bool.and_eq_true, beq_iff_eq] at hcheck
    obtain ⟨space, hspace, ⟨hrequired, hwithin⟩, haccess⟩ := hcheck
    refine ⟨compiled, space, rfl, hspace, hrequired, haccess, fun hfaithful => ?_⟩
    have hauthenticated := hfaithful.authenticated hrequired _ _ hwithin hnormalize "GET"
      (by decide)
    rw [haccess] at hauthenticated
    cases hauthenticated

end Accepted

end Ploinky.Policy
