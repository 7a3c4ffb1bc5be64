import Ploinky.Hardware.Availability

/-!
# Denials of caller identities

`identityHardwareUnavailable` denies a caller (private relay, agent to agent) whose route key is a compiled
key, or whose exact instance or generation a compiled entry names. The loop over the entries leaves at the
first malformed one with the answer for the key `'\u0000invalid'`, which is a denial only for a map that has
this key. So an identity is denied as long as no malformed entry is enumerated before the one that names it
(`identity_denied`), and a malformed entry in front of it opens the door (`malformed_entry_allows`).
-/

namespace Ploinky.Hardware

open Js Edge List

/-- The two tests of the loop: the entry has the exact instance or generation of the identity. -/
def namesIdentity (identity entry : Json) : Bool :=
  let same (field : Str) : Bool :=
    truthy (identity.prop field) && strictEq (entry.prop field) (identity.prop field)
  same "instanceId" || same "enableGeneration"

/-- The key `'\u0000invalid'`. -/
def invalidKey : Str := Char.ofNat 0 :: lit "invalid"

/-- The loop of `identityHardwareUnavailable` over the compiled entries. -/
def scanEntries (compiled : Table Json) (identity : Json) : List Json → Option Json
  | [] => none
  | entry :: rest =>
    if !validCompiledEntry entry then routeHardwareAvailability (some compiled) invalidKey
    else if namesIdentity identity entry then some entry
    else scanEntries compiled identity rest

/-- Whether the map has the route key of the identity. -/
def hasRouteKey (compiled : Table Json) (identity : Json) : Bool :=
  truthy (identity.prop "routeKey") &&
    (compiled.lookup (strOr (identity.prop "routeKey") [])).isSome

/-- `identityHardwareUnavailable(snapshot, identity)` for the compiled entries of the snapshot. -/
def identityHardwareUnavailable (compiled : Option (Table Json)) (identity : Option Json) :
    Option Json :=
  match compiled, identity.filter Json.truthy with
  | some compiled, some identity =>
    if hasRouteKey compiled identity then
      routeHardwareAvailability (some compiled) (strOr (identity.prop "routeKey") [])
    else scanEntries compiled identity (compiled.map Prod.snd)
  | _, _ => none

/-- A valid entry that names the identity. -/
def deniesIdentity (identity entry : Json) : Bool :=
  validCompiledEntry entry && namesIdentity identity entry

variable {compiled larger : Table Json} {identity : Json}

theorem isSome_routeHardwareAvailability {routeKey : Str} :
    (routeHardwareAvailability (some compiled) routeKey).isSome = (compiled.lookup routeKey).isSome := by
  simp [routeHardwareAvailability]

/-- An identity is denied by its route key, or by the loop. -/
theorem isSome_identityHardwareUnavailable (htruthy : identity.truthy) :
    (identityHardwareUnavailable (some compiled) (some identity)).isSome ↔ hasRouteKey compiled identity ∨
        (scanEntries compiled identity (compiled.map Prod.snd)).isSome := by
  simp only [identityHardwareUnavailable, Option.filter, htruthy]
  by_cases hkey : hasRouteKey compiled identity
  · have hfound := (Bool.and_eq_true_iff.mp hkey).2
    simp [hkey, isSome_routeHardwareAvailability, hfound]
  · simp [hkey]

/-- The loop ends at an entry that is malformed or names the identity. -/
def endsLoop (identity entry : Json) : Bool :=
  !validCompiledEntry entry || namesIdentity identity entry

/-- The loop denies when the entry it ends at is valid, or the map has the key that is looked up for a
malformed one. -/
theorem isSome_scanEntries {entries : List Json} :
    (scanEntries compiled identity entries).isSome ↔ ∃ entry,
      entries.find? (endsLoop identity) = some entry ∧
        (validCompiledEntry entry ∨ (compiled.lookup invalidKey).isSome) := by
  induction entries with
  | nil => simp [scanEntries]
  | cons entry rest ih =>
    rw [scanEntries]
    split_ifs with hmalformed hnames
    · have hends : endsLoop identity entry = true := by simp [endsLoop, hmalformed]
      simp [find?_cons_of_pos hends, isSome_routeHardwareAvailability, Bool.not_eq_true' .. ▸ hmalformed]
    · have hends : endsLoop identity entry = true := by simp [endsLoop, hnames]
      simp [find?_cons_of_pos hends, by simpa using hmalformed]
    · have hends : ¬ endsLoop identity entry = true := by simpa [endsLoop, hnames] using hmalformed
      rw [ih, find?_cons_of_neg hends]

/-- The identity is denied. -/
def Denied (compiled : Table Json) (identity : Json) : Prop :=
  (identityHardwareUnavailable (some compiled) (some identity)).isSome

/-- Some entry of the map names the identity. -/
def Named (compiled : Table Json) (identity : Json) : Prop :=
  ∃ entry ∈ compiled.map Prod.snd, deniesIdentity identity entry

theorem denied_iff (htruthy : identity.truthy) : Denied compiled identity ↔
    hasRouteKey compiled identity ∨ ∃ entry,
      (compiled.map Prod.snd).find? (endsLoop identity) = some entry ∧
        (validCompiledEntry entry ∨ (compiled.lookup invalidKey).isSome) := by
  rw [Denied, isSome_identityHardwareUnavailable htruthy, isSome_scanEntries]

/-- A key of the map is a key of every map with more entries. -/
theorem isSome_lookup_of_subset {key : Str} (hsub : compiled ⊆ larger)
    (h : (compiled.lookup key).isSome) : (larger.lookup key).isSome := by
  rw [lookup_isSome_iff] at h ⊢
  obtain ⟨entry, hmem, hkey⟩ := h
  exact ⟨entry, hsub hmem, hkey⟩

variable {before after : Table Json} {added : Str × Json}

/-- Every entry is one of the map with an entry added. -/
theorem subset_insert (added : Str × Json) : before ++ after ⊆ before ++ added :: after := by
  intro entry hmem
  simp only [mem_append, mem_cons] at hmem ⊢
  tauto

/-- A route key of the map is one of every map with more entries. -/
theorem hasRouteKey_of_subset (hsub : compiled ⊆ larger) (h : hasRouteKey compiled identity) :
    hasRouteKey larger identity := by
  obtain ⟨htruthy, hfound⟩ := Bool.and_eq_true_iff.mp h
  exact Bool.and_eq_true_iff.mpr ⟨htruthy, isSome_lookup_of_subset hsub hfound⟩

/-- A denied identity stays denied when the added entry is valid, or the loop ends before it. -/
theorem Denied.insert (htruthy : identity.truthy) (h : Denied (before ++ after) identity)
    (hadded : validCompiledEntry added.2 ∨ ∃ entry ∈ before.map Prod.snd, endsLoop identity entry) :
    Denied (before ++ added :: after) identity := by
  have hsub : before ++ after ⊆ before ++ added :: after := subset_insert added
  rw [denied_iff htruthy] at h ⊢
  obtain hkey | ⟨entry, hfound, hdenies⟩ := h
  · exact .inl (hasRouteKey_of_subset hsub hkey)
  refine .inr ?_
  have hdenies := hdenies.imp_right (isSome_lookup_of_subset hsub)
  rw [map_append, find?_append] at hfound ⊢
  cases hbefore : (before.map Prod.snd).find? (endsLoop identity) with
  | some first =>
    rw [hbefore] at hfound
    exact ⟨entry, hfound, hdenies⟩
  | none =>
    rw [hbefore, Option.none_or] at hfound
    rw [Option.none_or, map_cons]
    have hvalid := hadded.resolve_right fun ⟨other, hmem, hends⟩ =>
      find?_eq_none.mp hbefore other hmem hends
    by_cases hends : endsLoop identity added.2 = true
    · exact ⟨added.2, find?_cons_of_pos hends, .inl hvalid⟩
    · exact ⟨entry, (find?_cons_of_neg hends).trans hfound, hdenies⟩

/-- An identity that has its route key in the map or is named by a valid entry is denied exactly when, if
it is named, its route key is in the map, the loop ends at a valid entry, or the key that is looked up
for a malformed entry is in the map. A denied identity stays denied when an entry is added at any place
exactly when the added entry is valid, or the loop ends before it, or the larger map has one of the two
keys. -/
theorem identity_denied_iff (compiled : Table Json) (identity : Json) (htruthy : identity.truthy) :
    ((hasRouteKey compiled identity ∨ Named compiled identity → Denied compiled identity) ↔
      (Named compiled identity → hasRouteKey compiled identity ∨
        (compiled.lookup invalidKey).isSome ∨
        ∀ entry, (compiled.map Prod.snd).find? (endsLoop identity) = some entry →
          validCompiledEntry entry)) ∧
    ∀ before after (added : Str × Json), compiled = before ++ after →
      let larger := before ++ added :: after
      (Denied compiled identity → Denied larger identity) ↔ (Denied compiled identity →
        validCompiledEntry added.2 ∨ (∃ entry ∈ before.map Prod.snd, endsLoop identity entry) ∨
          hasRouteKey larger identity ∨ (larger.lookup invalidKey).isSome) := by
  constructor
  · rw [denied_iff htruthy]
    constructor
    · intro h hnamed
      obtain hkey | ⟨first, hfirst, hvalid | hinvalid⟩ := h (.inr hnamed)
      · exact .inl hkey
      · refine .inr (.inr fun entry hentry => ?_)
        rw [hfirst] at hentry
        exact Option.some.inj hentry ▸ hvalid
      · exact .inr (.inl hinvalid)
    · rintro h (hkey | hnamed)
      · exact .inl hkey
      · obtain ⟨entry, hmem, hdenies⟩ := hnamed
        have hends : endsLoop identity entry = true := by
          simp [endsLoop, (Bool.and_eq_true_iff.mp hdenies).2]
        obtain ⟨first, hfirst⟩ := Option.isSome_iff_exists.mp
          (find?_isSome.mpr ⟨entry, hmem, hends⟩)
        refine (h ⟨entry, hmem, hdenies⟩).imp_right fun h => ⟨first, hfirst, ?_⟩
        exact h.symm.imp_left fun h => h first hfirst
  · rintro before after added rfl larger
    constructor
    · intro h hdenied
      by_cases hstays : validCompiledEntry added.2 ∨
          ∃ entry ∈ before.map Prod.snd, endsLoop identity entry
      · exact hstays.imp_right .inl
      · -- the loop ends at the added entry, which is malformed
        obtain ⟨hmalformed, hbefore⟩ := not_or.mp hstays
        obtain hkey | ⟨entry, hfound, hdenies⟩ := (denied_iff htruthy).mp (h hdenied)
        · exact .inr (.inr (.inl hkey))
        · have hnone : (before.map Prod.snd).find? (endsLoop identity) = none :=
            find?_eq_none.mpr fun entry hmem hends => hbefore ⟨entry, hmem, hends⟩
          have hends : endsLoop identity added.2 = true := by simp [endsLoop, hmalformed]
          rw [map_append, find?_append, hnone, Option.none_or, map_cons,
            find?_cons_of_pos hends, Option.some.injEq] at hfound
          exact .inr (.inr (.inr (hdenies.resolve_left (hfound ▸ hmalformed))))
    · intro h hdenied
      obtain hvalid | hends | hkey | hinvalid := h hdenied
      · exact hdenied.insert htruthy (.inl hvalid)
      · exact hdenied.insert htruthy (.inr hends)
      · exact (denied_iff htruthy).mpr (.inl hkey)
      · refine (denied_iff htruthy).mpr (((denied_iff htruthy).mp hdenied).imp ?_ ?_)
        · exact hasRouteKey_of_subset (subset_insert _)
        · rintro ⟨entry, hfound, -⟩
          have hmem := map_subset _ (subset_insert added) (mem_of_find?_eq_some hfound)
          obtain ⟨first, hfirst⟩ := Option.isSome_iff_exists.mp
            (find?_isSome.mpr ⟨entry, hmem, find?_some hfound⟩)
          exact ⟨first, hfirst, .inr hinvalid⟩

/-- The compiled entry of a refused instance. -/
def refusedInstance (instanceId : Str) : Json :=
  .obj (compiledKeys.map fun key =>
    (key, .str (if key = "state" then "refused" else if key = "instanceId" then instanceId else "x")))

/-- The conditions hold for an entry that names the identity, with a valid entry added before it. -/
theorem identity_denied_iff_first :
    Denied [(lit "b", refusedInstance "two"), (lit "a", refusedInstance "one")]
      (.obj [("instanceId", .str "one")]) := by
  have hall := identity_denied_iff [(lit "a", refusedInstance "one")]
    (.obj [("instanceId", .str "one")]) rfl
  have hnamed : Named [(lit "a", refusedInstance "one")] (.obj [("instanceId", .str "one")]) :=
    ⟨refusedInstance "one", by simp, by decide⟩
  have hdenied := hall.1.mpr (fun _ => .inr (.inr (by decide))) (.inr hnamed)
  exact (hall.2 [] _ (lit "b", refusedInstance "two") rfl).mpr (fun _ => .inl (by decide)) hdenied

/-- A malformed entry in front of the entry that names the identity allows the identity, which was denied
before that entry was added. -/
theorem malformed_entry_allows : (identityHardwareUnavailable (some [(lit "a", refusedInstance "one")])
      (some (.obj [("instanceId", .str "one")]))).isSome ∧
    deniesIdentity (.obj [("instanceId", .str "one")]) (refusedInstance "one") ∧
    identityHardwareUnavailable (some [(lit "0", .null), (lit "a", refusedInstance "one")])
      (some (.obj [("instanceId", .str "one")])) = none := by
  decide

end Ploinky.Hardware
