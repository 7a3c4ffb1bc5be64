import Ploinky.Hardware.Evidence

/-!
# Effective hardware availability

The embedding of `evaluateHardwareAvailabilityOfStore`: which routes of a captured generation the
committed entries and the staged slots of the store deny. A slot of the generation's own tuple decides
before an entry of that tuple; only active evidence and applicable entries deny. `evaluate_spec` says what
an evaluation finds for each route, whatever its cache held, as long as the cache is fresh.
-/

namespace Ploinky.Hardware

open Js Edge AssocList Option
open AssocList (keys)

/-- The parts of a captured generation that are consulted: the own properties of `generation.agents` and
of `generation.routing.routes`. -/
structure Captured where
  agents : Table Json
  routes : Table Json

/-- The identity of an instance: its container, its instance and its generation. -/
structure Tuple where
  key : Option Json
  instanceId : Option Json
  enableGeneration : Option Json
  deriving DecidableEq

/-- The tuple of a slot or of a projection. -/
def tupleOf (value : Json) : Tuple :=
  ⟨value.prop "key", value.prop "instanceId", value.prop "enableGeneration"⟩

/-- `sameTuple(left, right)` for two tuples that are there. -/
def sameTuple (left right : Tuple) : Bool :=
  strictEq left.key right.key && strictEq left.instanceId right.instanceId &&
    strictEq left.enableGeneration right.enableGeneration

/-- `object[key]` for a key that may be any value. An inherited property has none of the fields that are
read from it. -/
def readAt (table : Table Json) (key : Option Json) : Option Json :=
  read table (.obj []) ((key.map Json.toStr).getD "undefined")

variable (platform : Platform)

/-- The route names a port of the host. -/
def namesHostPort (route : Json) : Bool :=
  ((route.prop "hostPort").bind (numberOf platform)).any fun port => 1 ≤ port && port ≤ 65535

/-- The route names a service target. -/
def namesServiceTarget (route : Json) : Bool :=
  match route.prop "serviceTargets" with
  | some (.obj fields) => !fields.isEmpty
  | some (.arr items) => !items.isEmpty
  | _ => false

/-- `routeIsTargetLess(route)`. -/
def routeIsTargetLess : Json → Bool
  | .obj fields => !namesHostPort platform (.obj fields) && !namesServiceTarget (.obj fields)
  | .arr _ => true
  | _ => false

/-- The generation's registry carries exactly the tuple, the comparison in `identityApplies` and in
`tupleIsCurrent`. -/
def tupleIsCurrent (tuple : Tuple) (generation : Captured) : Bool :=
  match readAt generation.agents tuple.key with
  | none => false
  | some agent =>
    agent.truthy && strictEq (agent.prop "instanceId") tuple.instanceId &&
      strictEq (agent.prop "enableGeneration") tuple.enableGeneration

/-- `identityApplies({ key, instanceId, enableGeneration }, routeKey, generation)`. -/
def identityApplies (tuple : Tuple) (routeKey : Str) (generation : Captured) :
    Bool :=
  match read generation.routes (.obj []) routeKey with
  | none => false
  | some route =>
    route.truthy && tupleIsCurrent tuple generation && strictEq (route.prop "container") tuple.key &&
      routeIsTargetLess platform route

/-- What an evaluation is made against. -/
structure Scene where
  generation : Captured
  files : Str → StatusFile
  nowMs : Int

/-- The entry of `slots` for an applicable slot. -/
structure SlotEvidence where
  runId : Option Json
  evidenceClass : EvidenceClass
  deriving DecidableEq

/-- An entry of `diagnostics`. -/
structure Diagnostic where
  routeKey : Str
  evidenceClass : EvidenceClass
  missingPastGrace : Bool
  deriving DecidableEq

/-- What the loops of an evaluation have gathered. -/
structure Gathered where
  denials : Table Json
  projections : Table Json
  slots : Table SlotEvidence
  diagnostics : List Diagnostic
  named : List Str
  cache : EvidenceCache

/-- Active evidence must not be of the future. -/
def judged (nowMs : Int) : Evidence → Evidence
  | .active projection compiled timestamps =>
    match validateNoWaitTerminalTimestamps platform timestamps nowMs with
    | .ok _ => .active projection compiled timestamps
    | .error _ => .invalid
  | evidence => evidence

/-- The run of the slot is missing beyond its grace. -/
def missingPastGrace (nowMs : Int) (slot : Json) (evidence : EvidenceClass) : Bool :=
  evidence == .missing &&
    match (slot.prop "runStartedAtMs").bind Json.natural, (slot.prop "startupGraceMs").bind Json.natural with
    | some started, some grace => decide (((started + grace : Nat) : Int) < nowMs)
    | _, _ => false

/-- The projection of active evidence, and its compiled form. -/
def Evidence.verdict : Evidence → Option (Json × Json)
  | .active projection compiled _ => some (projection, compiled)
  | _ => none

/-- A slot and its evidence are noted. -/
def noteSlot (nowMs : Int) (state : Gathered) (routeKey : Str) (slot : Json) (evidence : EvidenceClass)
    (cache : EvidenceCache) : Gathered := { state with
  slots := set state.slots (routeKey, ⟨slot.prop "runId", evidence⟩),
  diagnostics := state.diagnostics ++ [⟨routeKey, evidence, missingPastGrace nowMs slot evidence⟩],
  named := state.named ++ [slotFile slot],
  cache := cache }

/-- A denial and its projection are noted. -/
def noteVerdict (state : Gathered) (routeKey : Str) : Option (Json × Json) → Gathered
  | none => state
  | some (projection, compiled) => { state with
      denials := set state.denials (routeKey, compiled),
      projections := set state.projections (routeKey, projection) }

/-- One turn of the loop over the slots. -/
def gatherSlot (scene : Scene) (state : Gathered) (slotted : Str × Json) : Gathered :=
  if !identityApplies platform (tupleOf slotted.2) slotted.1 scene.generation then state
  else
    let found := evidenceFor platform scene.files slotted.1 slotted.2 state.cache
    let evidence := judged platform scene.nowMs found.1
    noteVerdict (noteSlot scene.nowMs state slotted.1 slotted.2 evidence.evidenceClass found.2) slotted.1
      evidence.verdict

/-- The `TypeError` for a property of nothing. -/
def typeError (value field : Str) : Str :=
  lit "Cannot read properties of " ++ value ++ lit " (reading '" ++ field ++ lit "')"

/-- `entry.projection`, of which a field is read next. -/
def entryProjection (entry : Json) : Except Str Json :=
  match entry.prop "projection" with
  | none => .error (typeError "undefined" "key")
  | some .null => .error (typeError "null" "key")
  | some projection => .ok projection

/-- An applicable slot of the same tuple decides. -/
def suppressed (slots : Table Json) (judgedSlots : Table SlotEvidence) (routeKey : Str) (tuple : Tuple) :
    Bool :=
  (judgedSlots.lookup routeKey).isSome &&
    (slots.lookup routeKey).any fun slot => sameTuple (tupleOf slot) tuple

/-- One turn of the loop over the entries. -/
def gatherEntry (scene : Scene) (slots : Table Json) (state : Gathered)
    (entered : Str × Json) : Except Str Gathered := do
  let projection ← entryProjection entered.2
  if !identityApplies platform (tupleOf projection) entered.1 scene.generation ||
      suppressed slots state.slots entered.1 (tupleOf projection) then return state
  else do
    let compiled ← compileAvailabilityProjection platform projection
    return noteVerdict state entered.1 (some (projection, compiled))

/-- `computeEffectiveRevision(denials)`. -/
def computeEffectiveRevision (denials : Table Json) : Str :=
  let rows := (denials.insertionSort fun a b => le a.1 b.1).map fun denial => Json.arr
    [.str denial.1, .str (platform.sha256 (utf8Bytes (platform.stringifyJson denial.2.stable)))]
  lit "sha256:" ++ platform.sha256 (utf8Bytes (platform.stringifyJson (.arr rows)))

/-- The cache keeps the files that were named, and of them the last ones. -/
def trimCache (cache : EvidenceCache) (named : List Str) : EvidenceCache :=
  let kept := cache.filter fun cached => named.contains cached.1
  kept.drop (kept.length - 256)

theorem trimCache_sublist (cache : EvidenceCache) (named : List Str) :
    (trimCache cache named).Sublist cache :=
  (List.drop_sublist _ _).trans List.filter_sublist

/-- The result of an evaluation. -/
structure Evaluation where
  revision : Str
  denials : Table Json
  projections : Table Json
  slots : Table SlotEvidence
  diagnostics : List Diagnostic

/-- `evaluateHardwareAvailabilityOfStore({ store, generation, … })`: the result, and the cache that is
left. -/
def evaluateHardwareAvailabilityOfStore (scene : Scene) (entries slots : Table Json)
    (cache : EvidenceCache) : Except Str (Evaluation × EvidenceCache) := do
  let fromSlots := slots.foldl (gatherSlot platform scene) ⟨[], [], [], [], [], cache⟩
  let gathered ← entries.foldlM (gatherEntry platform scene slots) fromSlots
  return (⟨computeEffectiveRevision platform gathered.denials, gathered.denials, gathered.projections,
    gathered.slots, gathered.diagnostics⟩, trimCache gathered.cache gathered.named)

/-! ## Freshness of the cache -/

/-- The identity of a file that is there. -/
def StatusFile.identity : StatusFile → Option Nat
  | .absent | .failed => none
  | .irregular identity | .unreadable identity | .regular identity _ => some identity

/-- A cached result under the identity of a slot's file and the signature of the slot is what reading the
file gives. -/
def Fresh (files : Str → StatusFile) (slots : Table Json) (cache : EvidenceCache) :
    Prop :=
  ∀ cached ∈ cache, ∀ slotted ∈ slots, slotFile slotted.2 = cached.1 →
    (files cached.1).identity = cached.2.identity →
    cached.2.signature = slotSignature slotted.1 slotted.2 →
    cached.2.identity.isSome → cached.2.result = readEvidence platform (files cached.1) slotted.1 slotted.2

/-- No two slots have one status file. -/
def FilesDistinct (slots : Table Json) : Prop :=
  ∀ slotted ∈ slots, ∀ other ∈ slots, slotFile slotted.2 = slotFile other.2 → slotted = other

section Evaluation

variable {platform : Platform} {scene : Scene} {slots : Table Json} {files : Str → StatusFile}
  {cache : EvidenceCache} {routeKey : Str} {slot : Json} {state : Gathered}

theorem Fresh.sublist {rest : EvidenceCache} (h : Fresh platform files slots cache)
    (hrest : rest.Sublist cache) : Fresh platform files slots rest :=
  fun cached hcached => h cached (hrest.subset hcached)

theorem Fresh.subset {fewer : Table Json} (h : Fresh platform files slots cache) (hfewer : fewer ⊆ slots) :
    Fresh platform files fewer cache :=
  fun cached hcached slotted hslotted => h cached hcached slotted (hfewer hslotted)

/-- Caching what was read keeps the cache fresh. -/
theorem Fresh.remember (h : Fresh platform files slots cache) (hdistinct : FilesDistinct slots)
    (hslot : (routeKey, slot) ∈ slots) (identity : Option Nat) (signature : Str) :
    Fresh platform files slots (set cache (slotFile slot,
      ⟨identity, signature, readEvidence platform (files (slotFile slot)) routeKey slot⟩)) := by
  intro cached hcached slotted hslotted hfile
  rcases mem_set hcached with rfl | hold
  · intro _ _ _
    cases hdistinct _ hslotted _ hslot hfile
    rfl
  · exact h cached hold slotted hslotted hfile

/-- What is recalled is what reading the file gives. -/
theorem Fresh.remembered (h : Fresh platform files slots cache) (hslot : (routeKey, slot) ∈ slots)
    {identity : Nat} {result : Evidence} (hidentity : (files (slotFile slot)).identity = some identity)
    (hrecall : remembered cache (slotFile slot) identity (slotSignature routeKey slot) = some result) :
    result = readEvidence platform (files (slotFile slot)) routeKey slot := by
  unfold Hardware.remembered at hrecall
  split at hrecall
  · cases hrecall
  · rename_i cached hcached
    split_ifs at hrecall with hmatch
    cases hrecall
    refine h (slotFile slot, cached) (mem_of_lookup hcached) (routeKey, slot) hslot rfl ?_
      hmatch.2 ?_
    · rw [hidentity, hmatch.1]
    · rw [hmatch.1]
      rfl

/-- If what the cache recalls of the slot's file is what reading the file gives, then so is the evidence of
the slot; the cache loses entries or gains that reading. -/
theorem evidenceFor_cases (hrecall : ∀ identity result, (files (slotFile slot)).identity = some identity →
      remembered cache (slotFile slot) identity (slotSignature routeKey slot) = some result →
      result = readEvidence platform (files (slotFile slot)) routeKey slot) :
    (evidenceFor platform files routeKey slot cache).1 =
        readEvidence platform (files (slotFile slot)) routeKey slot ∧
      ((evidenceFor platform files routeKey slot cache).2.Sublist cache ∨
        (evidenceFor platform files routeKey slot cache).2 = set cache (slotFile slot,
          ⟨(files (slotFile slot)).identity, slotSignature routeKey slot,
            readEvidence platform (files (slotFile slot)) routeKey slot⟩)) := by
  unfold evidenceFor
  dsimp only
  cases hfile : files (slotFile slot) with
  | absent | irregular => exact ⟨rfl, .inr rfl⟩
  | failed => exact ⟨rfl, .inl (.refl _)⟩
  | unreadable identity =>
    rw [hfile] at hrecall
    dsimp only
    cases hfound : remembered cache (slotFile slot) identity (slotSignature routeKey slot) with
    | some result => exact ⟨hrecall identity result rfl hfound, .inl (.refl _)⟩
    | none => exact ⟨rfl, .inl List.filter_sublist⟩
  | regular identity bytes =>
    rw [hfile] at hrecall
    dsimp only
    by_cases hlarge : hardwareEvidenceByteLimit < bytes.length
    · have hread : readEvidence platform (.regular identity bytes) routeKey slot = .invalid :=
        if_pos hlarge
      rw [if_pos hlarge, hread]
      exact ⟨rfl, .inr rfl⟩
    · have hread : readEvidence platform (.regular identity bytes) routeKey slot =
          evidenceIn platform bytes routeKey slot := if_neg hlarge
      rw [if_neg hlarge]
      cases hfound : remembered cache (slotFile slot) identity (slotSignature routeKey slot) with
      | some result => exact ⟨hrecall identity result rfl hfound, .inl (.refl _)⟩
      | none =>
        rw [hread]
        exact ⟨rfl, .inr rfl⟩

/-! ## What an evaluation finds -/

/-- The evidence of a slot at the time of the evaluation. -/
def slotEvidence (platform : Platform) (scene : Scene) (routeKey : Str) (slot : Json) : Evidence :=
  judged platform scene.nowMs (readEvidence platform (scene.files (slotFile slot)) routeKey slot)

/-- The slot applies to its route. -/
def slotApplies (platform : Platform) (scene : Scene) (routeKey : Str) (slot : Json) : Bool :=
  identityApplies platform (tupleOf slot) routeKey scene.generation

/-- What is noted of a slot. -/
def slotNote (platform : Platform) (scene : Scene) (routeKey : Str) (slot : Json) : Option SlotEvidence :=
  if slotApplies platform scene routeKey slot then
    some ⟨slot.prop "runId", (slotEvidence platform scene routeKey slot).evidenceClass⟩
  else none

/-- The projection by which a slot denies its route, and its compiled form. -/
def slotVerdict (platform : Platform) (scene : Scene) (routeKey : Str) (slot : Json) :
    Option (Json × Json) :=
  if slotApplies platform scene routeKey slot then (slotEvidence platform scene routeKey slot).verdict
  else none

/-- An applicable slot of the tuple decides about the route. -/
def slotDecides (platform : Platform) (scene : Scene) (slots : Table Json) (routeKey : Str)
    (tuple : Tuple) : Bool :=
  (slots.lookup routeKey).any fun slot =>
    slotApplies platform scene routeKey slot && sameTuple (tupleOf slot) tuple

/-- The projection by which an entry denies its route, and its compiled form. -/
def entryVerdict (platform : Platform) (scene : Scene) (slots : Table Json) (routeKey : Str)
    (entry : Json) : Option (Json × Json) :=
  match entryProjection entry with
  | .error _ => none
  | .ok projection =>
    if identityApplies platform (tupleOf projection) routeKey scene.generation &&
        !slotDecides platform scene slots routeKey (tupleOf projection) then
      (compileAvailabilityProjection platform projection).toOption.map fun compiled =>
        (projection, compiled)
    else none

/-- The projection by which a route is denied, and its compiled form. -/
def verdict (platform : Platform) (scene : Scene) (entries slots : Table Json) (routeKey : Str) :
    Option (Json × Json) :=
  ((entries.lookup routeKey).bind (entryVerdict platform scene slots routeKey)).or
    ((slots.lookup routeKey).bind (slotVerdict platform scene routeKey))

/-- An entry whose projection can be compiled. -/
def EntryReads (platform : Platform) (entry : Json) : Prop :=
  ∃ projection compiled, entryProjection entry = .ok projection ∧
    compileAvailabilityProjection platform projection = .ok compiled

/-- What a part of an evaluation adds to what was gathered before. -/
structure Adds (before after : Gathered) (notes : Str → Option SlotEvidence)
    (verdicts : Str → Option (Json × Json)) : Prop where
  slots : ∀ routeKey, after.slots.lookup routeKey = (notes routeKey).or (before.slots.lookup routeKey)
  denials : ∀ routeKey, after.denials.lookup routeKey =
    ((verdicts routeKey).map Prod.snd).or (before.denials.lookup routeKey)
  projections : ∀ routeKey, after.projections.lookup routeKey =
    ((verdicts routeKey).map Prod.fst).or (before.projections.lookup routeKey)
  nodup : (keys before.denials).Nodup → (keys after.denials).Nodup

theorem Adds.refl (state : Gathered) : Adds state state (fun _ => none) fun _ => none :=
  ⟨fun _ => rfl, fun _ => rfl, fun _ => rfl, id⟩

theorem Adds.trans {first second third : Gathered} {notes notes' : Str → Option SlotEvidence}
    {verdicts verdicts' : Str → Option (Json × Json)} (h : Adds first second notes verdicts)
    (h' : Adds second third notes' verdicts') :
    Adds first third (fun routeKey => (notes' routeKey).or (notes routeKey))
      fun routeKey => (verdicts' routeKey).or (verdicts routeKey) where
  slots := fun routeKey => by rw [h'.slots, h.slots, Option.or_assoc]
  denials := fun routeKey => by rw [h'.denials, h.denials, Option.map_or, Option.or_assoc]
  projections := fun routeKey => by rw [h'.projections, h.projections, Option.map_or, Option.or_assoc]
  nodup := fun hnodup => h'.nodup (h.nodup hnodup)

theorem adds_noteSlot (nowMs : Int) (state : Gathered) (routeKey : Str) (slot : Json)
    (evidence : EvidenceClass) (cache : EvidenceCache) :
    Adds state (noteSlot nowMs state routeKey slot evidence cache)
      (fun key => if key = routeKey then some ⟨slot.prop "runId", evidence⟩ else none) fun _ => none where
  slots := fun key => by
    show (set state.slots _).lookup key = _
    rw [lookup_set]
    by_cases hkey : key = routeKey <;> simp [hkey]
  denials := fun _ => rfl
  projections := fun _ => rfl
  nodup := id

theorem adds_noteVerdict (state : Gathered) (routeKey : Str) (found : Option (Json × Json)) :
    Adds state (noteVerdict state routeKey found) (fun _ => none)
      fun key => if key = routeKey then found else none := by
  cases found with
  | none => simpa [noteVerdict] using Adds.refl state
  | some pair =>
    refine ⟨fun _ => rfl, fun key => ?_, fun key => ?_, fun h => nodup_keys_set h _⟩
    · show (set state.denials (routeKey, pair.2)).lookup key = _
      rw [lookup_set]
      by_cases hkey : key = routeKey <;> simp [hkey]
    · show (set state.projections (routeKey, pair.1)).lookup key = _
      rw [lookup_set]
      by_cases hkey : key = routeKey <;> simp [hkey]

/-- One turn of the loop over the slots. -/
theorem adds_gatherSlot (hfresh : Fresh platform scene.files slots state.cache)
    (hdistinct : FilesDistinct slots) (hslot : (routeKey, slot) ∈ slots) :
    Adds state (gatherSlot platform scene state (routeKey, slot))
        (fun key => if key = routeKey then slotNote platform scene routeKey slot else none)
        (fun key => if key = routeKey then slotVerdict platform scene routeKey slot else none) ∧
      Fresh platform scene.files slots (gatherSlot platform scene state (routeKey, slot)).cache := by
  obtain ⟨hread, hcache⟩ := evidenceFor_cases fun _ _ => hfresh.remembered hslot
  replace hcache : Fresh platform scene.files slots (evidenceFor platform scene.files routeKey slot state.cache).2 := by
    rcases hcache with hsub | hset
    · exact hfresh.sublist hsub
    · rw [hset]
      exact hfresh.remember hdistinct hslot _ _
  unfold gatherSlot slotNote slotVerdict slotApplies
  dsimp only
  by_cases happlies : identityApplies platform (tupleOf slot) routeKey scene.generation = true
  · rw [if_neg (by simp [happlies]), if_pos happlies, if_pos happlies, hread]
    constructor
    · have hadds := (adds_noteSlot scene.nowMs state routeKey slot
        (slotEvidence platform scene routeKey slot).evidenceClass
        (evidenceFor platform scene.files routeKey slot state.cache).2).trans
        (adds_noteVerdict _ routeKey (slotEvidence platform scene routeKey slot).verdict)
      simp only [or_none] at hadds
      exact hadds
    · have hsame : ∀ (state : Gathered) found, (noteVerdict state routeKey found).cache = state.cache := by
        intro state found
        cases found <;> rfl
      rw [hsame]
      exact hcache
  · rw [if_pos (by simp [happlies]), if_neg happlies, if_neg happlies]
    refine ⟨?_, hfresh⟩
    simpa using Adds.refl state

/-- The part of a table that a key selects, for the head and for the rest. -/
theorem bind_lookup_cons {α : Type} {f : Str → Json → Option α} {pair : Str × Json} {rest : Table Json}
    (hnodup : (keys (pair :: rest)).Nodup) (key : Str) : ((pair :: rest).lookup key).bind (f key) =
      ((rest.lookup key).bind (f key)).or (if key = pair.1 then f pair.1 pair.2 else none) := by
  rw [lookup_cons]
  by_cases hkey : key = pair.1
  · have hnone : rest.lookup key = none :=
      lookup_eq_none_iff.mpr (hkey ▸ (List.nodup_cons.mp hnodup).1)
    rw [if_pos hkey, if_pos hkey, hnone, hkey]
    rfl
  · rw [if_neg hkey, if_neg hkey, or_none]

/-- The loop over the slots. -/
theorem adds_gatherSlots {todo : Table Json} (hfresh : Fresh platform scene.files slots state.cache)
    (hdistinct : FilesDistinct slots) (htodo : todo ⊆ slots) (hnodup : (keys todo).Nodup) :
    Adds state (todo.foldl (gatherSlot platform scene) state)
        (fun key => (todo.lookup key).bind (slotNote platform scene key))
        (fun key => (todo.lookup key).bind (slotVerdict platform scene key)) ∧
      Fresh platform scene.files slots (todo.foldl (gatherSlot platform scene) state).cache := by
  induction todo generalizing state with
  | nil => exact ⟨Adds.refl state, hfresh⟩
  | cons slotted rest ih =>
    obtain ⟨hstep, hcache⟩ := adds_gatherSlot hfresh hdistinct (htodo (.head _))
    obtain ⟨hrest, hcaches⟩ := ih hcache (fun _ h => htodo (.tail _ h))
      (List.nodup_cons.mp hnodup).2
    refine ⟨?_, hcaches⟩
    have hadds := hstep.trans hrest
    simp only [← bind_lookup_cons hnodup] at hadds
    exact hadds

/-- One turn of the loop over the entries. -/
theorem adds_gatherEntry (routeKey : Str) {entry : Json} (hreads : EntryReads platform entry)
    (hnotes : ∀ key, state.slots.lookup key = (slots.lookup key).bind (slotNote platform scene key)) :
    ∃ after, gatherEntry platform scene slots state (routeKey, entry) = .ok after ∧
      Adds state after (fun _ => none)
        (fun key => if key = routeKey then entryVerdict platform scene slots routeKey entry else none) ∧
      after.cache = state.cache ∧ after.slots = state.slots := by
  obtain ⟨projection, compiled, hprojection, hcompiled⟩ := hreads
  have hsuppressed : suppressed slots state.slots routeKey (tupleOf projection) =
      slotDecides platform scene slots routeKey (tupleOf projection) := by
    unfold suppressed slotDecides
    rw [hnotes]
    cases slots.lookup routeKey with
    | none => rfl
    | some slot =>
      show ((slotNote platform scene routeKey slot).isSome && _) = _
      unfold slotNote
      cases happlies : slotApplies platform scene routeKey slot <;> simp [happlies]
  have hentry : entryVerdict platform scene slots routeKey entry =
      if identityApplies platform (tupleOf projection) routeKey scene.generation &&
          !slotDecides platform scene slots routeKey (tupleOf projection) then
        some (projection, compiled) else none := by
    unfold entryVerdict
    rw [hprojection]
    dsimp only
    rw [hcompiled]
    rfl
  unfold gatherEntry
  simp only [hprojection, hentry]
  by_cases hdenies : (identityApplies platform (tupleOf projection) routeKey scene.generation &&
      !slotDecides platform scene slots routeKey (tupleOf projection)) = true
  · refine ⟨noteVerdict state routeKey (some (projection, compiled)), ?_, ?_, rfl, rfl⟩
    · show (if _ then _ else _) = _
      rw [hsuppressed, if_neg (by simpa using hdenies), hcompiled]
      rfl
    · rw [if_pos hdenies]
      exact adds_noteVerdict state routeKey _
  · refine ⟨state, ?_, ?_, rfl, rfl⟩
    · show (if _ then _ else _) = _
      rw [hsuppressed, if_pos (by simpa [imp_iff_not_or] using hdenies)]
      rfl
    · rw [if_neg hdenies]
      simpa using Adds.refl state

/-- The loop over the entries. -/
theorem adds_gatherEntries {todo : Table Json} (hreads : ∀ entered ∈ todo, EntryReads platform entered.2)
    (hnotes : ∀ key, state.slots.lookup key = (slots.lookup key).bind (slotNote platform scene key))
    (hnodup : (keys todo).Nodup) : ∃ after, todo.foldlM (gatherEntry platform scene slots) state = .ok after ∧
      Adds state after (fun _ => none)
        (fun key => (todo.lookup key).bind (entryVerdict platform scene slots key)) ∧
      after.cache = state.cache ∧ after.slots = state.slots := by
  induction todo generalizing state with
  | nil => exact ⟨state, rfl, Adds.refl state, rfl, rfl⟩
  | cons entered rest ih =>
    obtain ⟨next, hnext, hstep, hcache, hslots⟩ :=
      adds_gatherEntry entered.1 (hreads entered (.head _)) hnotes
    obtain ⟨after, hafter, hrest, hcaches, hslots'⟩ := ih
      (fun other h => hreads other (.tail _ h)) (hslots ▸ hnotes)
      (List.nodup_cons.mp hnodup).2
    refine ⟨after, ?_, ?_, hcaches.trans hcache, hslots'.trans hslots⟩
    · rw [List.foldlM_cons, hnext]
      exact hafter
    · have hadds := hstep.trans hrest
      simp only [← bind_lookup_cons hnodup] at hadds
      exact hadds

/-- What an evaluation finds for each route. -/
structure Evaluates (platform : Platform) (scene : Scene) (entries slots : Table Json)
    (evaluation : Evaluation) : Prop where
  revision : evaluation.revision = computeEffectiveRevision platform evaluation.denials
  nodup : (keys evaluation.denials).Nodup
  denials : ∀ routeKey, evaluation.denials.lookup routeKey =
    (verdict platform scene entries slots routeKey).map Prod.snd
  projections : ∀ routeKey, evaluation.projections.lookup routeKey =
    (verdict platform scene entries slots routeKey).map Prod.fst
  slots : ∀ routeKey, evaluation.slots.lookup routeKey =
    (slots.lookup routeKey).bind (slotNote platform scene routeKey)

/-- An evaluation with a fresh cache finds what the store, the generation, the files and the time
determine, and leaves a fresh cache. -/
theorem evaluate_spec {entries : Table Json} (hfresh : Fresh platform scene.files slots cache)
    (hdistinct : FilesDistinct slots) (hreads : ∀ entered ∈ entries, EntryReads platform entered.2)
    (hentries : (keys entries).Nodup) (hslots : (keys slots).Nodup) :
    ∃ evaluation rest, evaluateHardwareAvailabilityOfStore platform scene entries slots cache =
        .ok (evaluation, rest) ∧
      Evaluates platform scene entries slots evaluation ∧ Fresh platform scene.files slots rest := by
  have hstart : Fresh platform scene.files slots (Gathered.mk [] [] [] [] [] cache).cache := hfresh
  obtain ⟨hfromSlots, hcache⟩ := adds_gatherSlots hstart hdistinct (List.Subset.refl slots) hslots
  have hnotes : ∀ key, (slots.foldl (gatherSlot platform scene) ⟨[], [], [], [], [], cache⟩).slots.lookup
      key = (slots.lookup key).bind (slotNote platform scene key) := by
    intro key
    rw [hfromSlots.slots]
    exact or_none
  obtain ⟨gathered, hgathered, hfromEntries, hcaches, hkept⟩ :=
    adds_gatherEntries hreads hnotes hentries
  have hadds := hfromSlots.trans hfromEntries
  refine ⟨_, _, by unfold evaluateHardwareAvailabilityOfStore; dsimp only; rw [hgathered]; rfl, ?_, ?_⟩
  · refine ⟨rfl, hadds.nodup List.nodup_nil, fun routeKey => ?_, fun routeKey => ?_, fun routeKey => ?_⟩
    · rw [hadds.denials]
      exact or_none
    · rw [hadds.projections]
      exact or_none
    · show gathered.slots.lookup routeKey = _
      rw [hkept, hnotes]
  · have hlast : Fresh platform scene.files slots gathered.cache := hcaches ▸ hcache
    exact hlast.sublist (trimCache_sublist _ _)

/-- The revision depends on the denial of each route only. -/
theorem computeEffectiveRevision_congr {denials others : Table Json}
    (hdenials : (keys denials).Nodup) (hothers : (keys others).Nodup)
    (h : ∀ routeKey, denials.lookup routeKey = others.lookup routeKey) :
    computeEffectiveRevision platform denials = computeEffectiveRevision platform others := by
  have hsorted : denials.insertionSort (fun a b => le a.1 b.1 = true) =
      others.insertionSort fun a b => le a.1 b.1 = true :=
    insertionSort_eq_of_perm (r := fun a b => le a b = true) hdenials (perm_of_lookup_eq hdenials hothers h)
  unfold computeEffectiveRevision
  rw [hsorted]

end Evaluation

end Ploinky.Hardware
