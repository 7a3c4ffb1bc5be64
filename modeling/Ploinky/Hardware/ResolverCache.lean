import Ploinky.Hardware.SlotStaging
import Ploinky.Hardware.StoreRepair

/-!
# The cache of the resolver

`resolveEffectiveHardwareAvailability` caches the snapshot of the store under the identities of the witness, of
the store directory and of the policy, and the evidence of a status file under the identity of the file and the
signature of the slot. `cache_transparent`: after every history of calls and changes of the files, a call with
the cache that has built up gives what it gives with an empty cache. Every cached result stays `Honest`: it is
what reading the files gave at some moment of the history.
-/

namespace Ploinky.Hardware

open Js Edge Durable List

variable {platform : Platform}

/-! ## The resolver -/

/-- The files at one moment, each with the identity of its stat. -/
structure World where
  witness : Option (Nat × Bytes)
  /-- The store directory, with its policy. -/
  directory : Option (Nat × Option (Nat × Bytes))
  status : Str → StatusFile

/-- What the reader of the store sees. It never looks at temporaries. -/
def World.files (w : World) : StoreFiles where
  witness := w.witness.map Prod.snd
  directory := w.directory.map fun found => ⟨found.2.map Prod.snd, ∅⟩
  stagings := ∅
  witnessTemps := ∅
  committed := none

/-- The key of `storeSnapshot`: the three identities, `none` being `absent`. -/
def World.storeKey (w : World) : Option Nat × Option Nat × Option Nat :=
  (w.witness.map Prod.fst, w.directory.map Prod.fst, (w.directory.bind Prod.snd).map Prod.fst)

/-- The cache of one workspace and its running directory. -/
structure ResolverCache where
  store : Option ((Option Nat × Option Nat × Option Nat) × Outcome Failure Snapshot)
  evidence : EvidenceCache

/-- `createHardwareAvailabilityResolverCache()`. -/
def createHardwareAvailabilityResolverCache : ResolverCache := ⟨none, []⟩

variable (process : Process platform)

/-- The store as it is read, without a failing call. -/
def readStore (w : World) : Outcome Failure Snapshot :=
  (readHardwareAvailabilityPolicy process w.files []).outcome

/-- `storeSnapshot(paths, fsApi, cache)`. An error is cached with its message and its code. -/
def storeSnapshot (w : World) (cache : ResolverCache) :
    Outcome Failure Snapshot × ResolverCache :=
  match cache.store.filter (·.1 = w.storeKey) with
  | some cached => (cached.2, cache)
  | none => (readStore process w, { cache with store := some (w.storeKey, readStore process w) })

/-- `store.entries`. -/
def Snapshot.entries : Snapshot → Table Json
  | .absent => []
  | .valid _ _ entries _ _ => entries.entries

/-- `store.slots`. -/
def Snapshot.slots : Snapshot → Table Json
  | .absent => []
  | .valid _ _ _ slots _ => slots.entries

/-- `{ state, revision }` of the store. -/
def Snapshot.head : Snapshot → Str × Json
  | .absent => ("absent", .str "absent")
  | .valid _ revision _ _ _ => ("valid", revision)

/-- What a call throws: the error of the store, or the `TypeError` of an evaluation. -/
inductive ResolverError where
  | store (failure : Failure)
  | evaluation (message : Str)

/-- `resolveEffectiveHardwareAvailability({ generation, nowMs, cache })`: the evaluation with the state and the
revision of the store, and the cache that is left. -/
def resolveEffectiveHardwareAvailability (w : World) (generation : Captured)
    (nowMs : Int) (cache : ResolverCache) :
    Outcome ResolverError ((Str × Json) × Evaluation) × ResolverCache :=
  match storeSnapshot process w cache with
  | (.threw failure, cache) => (.threw (.store failure), cache)
  | (.died, cache) => (.died, cache)
  | (.returned store, cache) =>
    match evaluateHardwareAvailabilityOfStore platform ⟨generation, w.status, nowMs⟩ store.entries store.slots
        cache.evidence with
    -- a validated entry can be read, so that no evaluation of a snapshot ends here
    | .error message => (.threw (.evaluation message), cache)
    | .ok (evaluation, evidence) => (.returned (store.head, evaluation), { cache with evidence })

/-- An event of a history: the files are replaced, or the resolver is called. -/
inductive CacheEvent where
  | change (w : World)
  | resolve (generation : Captured) (nowMs : Int)

/-- One event. -/
def cacheStep (now : World × ResolverCache) : CacheEvent → World × ResolverCache
  | .change w => (w, now.2)
  | .resolve generation nowMs =>
    (now.1, (resolveEffectiveHardwareAvailability process now.1 generation nowMs now.2).2)

/-- The files and the cache after a history. -/
def cacheAfter (first : World) (history : List CacheEvent) :
    World × ResolverCache :=
  history.foldl (cacheStep process) (first, createHardwareAvailabilityResolverCache)

/-- The files at the moments of a history. -/
def worldsOf (first : World) (history : List CacheEvent) : List World :=
  first :: history.filterMap fun
    | .change w => some w
    | .resolve .. => none

/-- A file with the same identity has the same content. -/
structure Coherent (w w' : World) : Prop where
  witness : w.witness.map Prod.fst = w'.witness.map Prod.fst → w.witness = w'.witness
  policy : (w.directory.bind Prod.snd).map Prod.fst = (w'.directory.bind Prod.snd).map Prod.fst →
    w.directory.bind Prod.snd = w'.directory.bind Prod.snd
  status : ∀ name, (w.status name).identity.isSome → (w.status name).identity = (w'.status name).identity →
    w.status name = w'.status name

/-- Files with the same key are read alike. -/
theorem Coherent.files_eq {w w' : World} (h : Coherent w w') (hkey : w.storeKey = w'.storeKey) :
    w.files = w'.files := by
  simp only [World.storeKey, Prod.mk.injEq] at hkey
  obtain ⟨hwitness, hdirectory, hpolicy⟩ := hkey
  have hcontent := h.policy hpolicy
  have hsame : (w.directory.map fun found => (⟨found.2.map Prod.snd, ∅⟩ : StoreDirectory)) =
      w'.directory.map fun found => ⟨found.2.map Prod.snd, ∅⟩ := by
    cases hd : w.directory <;> cases hd' : w'.directory <;> simp_all
  simp only [World.files, h.witness hwitness, hsame]

/-! ## The signature of a slot -/

variable {sep : Char} {xs : List Str} {slot : Json} {field text routeKey : Str} {extra : List Char}
  {evidence : EvidenceCache}

/-- Splitting joined texts, of which only the first may have separators. -/
theorem split_join_cons (x : Str) (hfree : ∀ text ∈ xs, sep ∉ text) :
    split (join (x :: xs) sep) sep = split x sep ++ xs := by
  induction xs generalizing x with
  | nil => simp [join]
  | cons y ys ih =>
    have hrest := ih y fun text htext => hfree text (.tail _ htext)
    have hy : split y sep = [y] := splitOn_eq_singleton (hfree y (.head _))
    rw [hy] at hrest
    have hjoin : join (x :: y :: ys) sep = x ++ sep :: join (y :: ys) sep := by
      simp [join]
    rw [hjoin, split, splitOn_append_cons_self]
    exact congrArg _ hrest

theorem join_cons_inj {x y : Str} {ys : List Str} (hxs : ∀ text ∈ xs, sep ∉ text)
    (hys : ∀ text ∈ ys, sep ∉ text) (hlength : xs.length = ys.length)
    (h : join (x :: xs) sep = join (y :: ys) sep) : x = y ∧ xs = ys := by
  have hsplit := congrArg (split · sep) h
  simp only [split_join_cons x hxs, split_join_cons y hys] at hsplit
  obtain ⟨hfirst, hrest⟩ := append_inj' hsplit hlength
  refine ⟨?_, hrest⟩
  have hjoined := congrArg [sep].intercalate hfirst
  simpa only [split, intercalate_splitOn] using hjoined

/-- A field that is the given kind of value, with a text without the separator of signatures. -/
def Plain (kind : Str → Json) (slot : Json) (field : Str) : Prop :=
  ∃ text, slot.prop field = some (kind text) ∧ (kind text).toStr = text ∧ '|' ∉ text

/-- The text of a field in a signature. -/
def fieldText (slot : Json) (field : Str) : Str := ((slot.prop field).map Json.toStr).getD []

theorem Plain.fieldText {kind : Str → Json} (h : Plain kind slot field) :
    slot.prop field = some (kind (fieldText slot field)) ∧ '|' ∉ Hardware.fieldText slot field := by
  obtain ⟨text, hprop, hstr, hbar⟩ := h
  have htext : Hardware.fieldText slot field = text := by
    rw [Hardware.fieldText, hprop, Option.map_some, Option.getD_some, hstr]
  exact ⟨htext ▸ hprop, htext ▸ hbar⟩

theorem bar_not_mem_of_isSafeName (hextra : '|' ∉ extra) (h : isSafeName extra text = true) : '|' ∉ text := by
  cases text with
  | nil => simp
  | cons c rest =>
    simp only [isSafeName, Bool.and_eq_true, all_eq_true, Bool.or_eq_true] at h
    intro hmem
    rcases mem_cons.mp hmem with rfl | hmem
    · exact absurd h.1 (by decide)
    · rcases h.2 _ hmem with hbar | hbar
      · exact absurd hbar (by decide)
      · exact hextra (by simpa using hbar)

theorem plain_of_isIdentity (hextra : '|' ∉ extra)
    (h : isIdentity (isSafeName extra) (slot.prop field) = true) : Plain .str slot field := by
  obtain ⟨text, htext, -⟩ := isIdentity_eq_true h
  rw [htext] at h
  simp only [isIdentity, Bool.and_eq_true] at h
  exact ⟨text, htext, rfl, bar_not_mem_of_isSafeName hextra h.2⟩

theorem plain_of_natural {test : Nat → Bool} (h : ((slot.prop field).bind Json.natural).any test = true) :
    Plain .num slot field := by
  obtain ⟨n, hn, -⟩ := (Option.any_eq_true _ _).mp h
  obtain ⟨value, hvalue, hnatural⟩ := Option.bind_eq_some_iff.mp hn
  cases value with
  | num text =>
    refine ⟨text, hvalue, rfl, fun hmem => ?_⟩
    simp only [Json.natural, Option.ite_none_right_eq_some, Bool.and_eq_true, all_eq_true] at hnatural
    exact absurd (hnatural.1.2 _ hmem) (by decide)
  | null | bool | str | arr | obj => cases hnatural

theorem bar_not_mem_of_isRunId (h : isRunId text = true) : '|' ∉ text := by
  have hjoin : intercalate ['-'] (split text '-') = text := intercalate_splitOn _
  unfold isRunId at h
  split at h
  · rename_i a b c d e hparts
    rw [hparts] at hjoin
    simp only [isHex, Bool.and_eq_true, all_eq_true] at h
    have hhex : ∀ {part : Str}, (∀ x ∈ part, isLowerHex x = true) → '|' ∉ part :=
      fun hpart hmem => absurd (hpart _ hmem) (by decide)
    rw [← hjoin]
    simp [intercalate, hhex h.1.1.1.1.1.1.2, hhex h.1.1.1.1.1.2.2, hhex h.1.1.1.1.2.2,
      hhex h.1.1.2.2, hhex h.2.2]
  · cases h

/-- The fields in a signature, and the kind of value each of them has. -/
def signatureFields : List (Str × (Str → Json)) :=
  [("key", .str), ("instanceId", .str), ("enableGeneration", .str), ("runId", .str),
    ("runStartedAtMs", .num), ("waveIndex", .num)]

theorem plain_of_validateSlot (h : validateSlot routeKey slot = .ok ()) :
    ∀ field ∈ signatureFields, Plain field.2 slot field.1 := by
  obtain ⟨key, instanceId, enableGeneration, runId, hvalid⟩ := validateSlot_eq_ok h
  simp only [validateSlot, identityText, bind_eq_ok, shape_eq_ok, exists_const] at h
  obtain ⟨_, _, hkey, hinstance, hgeneration, _⟩ := h
  simp only [signatureFields, forall_mem_cons, not_mem_nil, false_implies, implies_true, and_true]
  exact ⟨plain_of_isIdentity (by decide) hkey, plain_of_isIdentity (by decide) hinstance,
    plain_of_isIdentity (by decide) hgeneration,
    ⟨runId, hvalid.runId, rfl, bar_not_mem_of_isRunId hvalid.runIdForm⟩,
    plain_of_natural hvalid.runStarted, plain_of_natural hvalid.waveIndex⟩

/-- Valid slots with one signature and one status file are read alike. -/
theorem readEvidence_of_signature {routeKey' : Str} {slot' : Json} (h : validateSlot routeKey slot = .ok ())
    (h' : validateSlot routeKey' slot' = .ok ()) (hfile : slotFile slot = slotFile slot')
    (hsignature : slotSignature routeKey slot = slotSignature routeKey' slot') (file : StatusFile) :
    readEvidence platform file routeKey slot = readEvidence platform file routeKey' slot' := by
  have hstatus : slot.prop "statusFile" = slot'.prop "statusFile" := by
    obtain ⟨_, _, _, _, hvalid⟩ := validateSlot_eq_ok h
    obtain ⟨_, _, _, _, hvalid'⟩ := validateSlot_eq_ok h'
    rw [slotFile_of_valid hvalid, slotFile_of_valid hvalid'] at hfile
    rw [hvalid.statusFile, hvalid'.statusFile, hfile]
  have hfree : ∀ {routeKey slot}, validateSlot routeKey slot = .ok () →
      ∀ text ∈ signatureFields.map (fieldText slot ·.1), '|' ∉ text := by
    intro routeKey slot hvalid text htext
    obtain ⟨field, hfield, rfl⟩ := mem_map.mp htext
    exact (plain_of_validateSlot hvalid field hfield).fieldText.2
  obtain ⟨rfl, htexts⟩ := join_cons_inj (hfree h) (hfree h') (by simp) hsignature
  have hprops : ∀ field ∈ signatureFields, slot.prop field.1 = slot'.prop field.1 := by
    intro field hfield
    rw [(plain_of_validateSlot h field hfield).fieldText.1, (plain_of_validateSlot h' field hfield).fieldText.1,
      map_inj_left.mp htexts field hfield]
  simp only [signatureFields, forall_mem_cons, not_mem_nil, false_implies, implies_true,
    and_true] at hprops
  obtain ⟨hkey, hinstance, hgeneration, hrun, hstarted, hwave⟩ := hprops
  have hclassify : ∀ status, classifyDocument platform status routeKey slot =
      classifyDocument platform status routeKey slot' := by
    intro status
    unfold classifyDocument sameIdentity classifyFailure
    rw [hkey, hinstance, hgeneration, hrun, hstarted, hwave, hstatus]
  simp only [readEvidence, evidenceIn, hclassify]

/-! ## Honest caches -/

/-- A cached result that was read from a file of one of the worlds, for a valid slot. -/
def HonestEntry (platform : Platform) (worlds : List World) (cached : Str × CachedEvidence) : Prop :=
  ∃ w ∈ worlds, ∃ routeKey slot, validateSlot routeKey slot = .ok () ∧
    cached = (slotFile slot, ⟨(w.status (slotFile slot)).identity, slotSignature routeKey slot,
      readEvidence platform (w.status (slotFile slot)) routeKey slot⟩)

/-- Every cached result was read in one of the worlds. -/
structure Honest (process : Process platform) (worlds : List World) (cache : ResolverCache) : Prop where
  store : ∀ cached ∈ cache.store, ∃ w ∈ worlds, cached = (w.storeKey, readStore process w)
  evidence : ∀ cached ∈ cache.evidence, HonestEntry platform worlds cached

/-- A turn of the loop over the slots that reads the file of the slot. -/
def readSlot (platform : Platform) (scene : Scene) (state : Gathered) (slotted : Str × Json) : Gathered :=
  if !identityApplies platform (tupleOf slotted.2) slotted.1 scene.generation then state
  else
    let evidence := slotEvidence platform scene slotted.1 slotted.2
    noteVerdict (noteSlot scene.nowMs state slotted.1 slotted.2 evidence.evidenceClass []) slotted.1
      evidence.verdict

section Runs

variable {process : Process platform} {worlds : List World} {w : World} {cache : ResolverCache}
  {scene : Scene} {state : Gathered}

theorem honest_empty : Honest process worlds createHardwareAvailabilityResolverCache := ⟨nofun, nofun⟩

variable (hcoherent : ∀ w ∈ worlds, ∀ w' ∈ worlds, Coherent w w') (hw : w ∈ worlds)

include hcoherent hw

/-- The snapshot of the store is the one that is read now. -/
theorem storeSnapshot_honest (h : Honest process worlds cache) :
    (storeSnapshot process w cache).1 = readStore process w ∧
      Honest process worlds (storeSnapshot process w cache).2 := by
  unfold storeSnapshot
  cases hfound : cache.store.filter (·.1 = w.storeKey) with
  | none =>
    refine ⟨rfl, ?_, h.evidence⟩
    rintro cached hcached
    cases hcached
    exact ⟨w, hw, rfl⟩
  | some cached =>
    obtain ⟨hcached, hkey⟩ := Option.filter_eq_some_iff.mp hfound
    obtain ⟨w', hw', rfl⟩ := h.store cached hcached
    have hfiles := (hcoherent w' hw' w hw).files_eq (by simpa using hkey)
    refine ⟨?_, h⟩
    show (readHardwareAvailabilityPolicy process w'.files []).outcome = _
    rw [hfiles]
    rfl

/-- The evidence of a valid slot is what its file gives now, and only that is cached. -/
theorem evidenceFor_honest (h : ∀ cached ∈ evidence, HonestEntry platform worlds cached)
    (hslot : validateSlot routeKey slot = .ok ()) : (evidenceFor platform w.status routeKey slot evidence).1 =
        readEvidence platform (w.status (slotFile slot)) routeKey slot ∧
      ∀ cached ∈ (evidenceFor platform w.status routeKey slot evidence).2,
        HonestEntry platform worlds cached := by
  have hrecall : ∀ identity result, (w.status (slotFile slot)).identity = some identity →
      remembered evidence (slotFile slot) identity (slotSignature routeKey slot) = some result →
      result = readEvidence platform (w.status (slotFile slot)) routeKey slot := by
    intro identity result hidentity hrecall
    unfold remembered at hrecall
    split at hrecall
    · cases hrecall
    · rename_i cached hcached
      split_ifs at hrecall with hmatch
      cases hrecall
      obtain ⟨w', hw', routeKey', slot', hslot', heq⟩ := h _ (AssocList.mem_of_lookup hcached)
      simp only [Prod.mk.injEq] at heq
      obtain ⟨hfile, rfl⟩ := heq
      have hsame : w.status (slotFile slot) = w'.status (slotFile slot) := by
        refine (hcoherent w hw w' hw').status _ (by simp [hidentity]) ?_
        rw [hidentity, ← hmatch.1, hfile]
      rw [hsame, hfile]
      exact readEvidence_of_signature hslot' hslot hfile.symm hmatch.2 _
  obtain ⟨hread, hcache⟩ := evidenceFor_cases hrecall
  refine ⟨hread, fun cached hcached => ?_⟩
  rcases hcache with hsub | hset
  · exact h cached (hsub.subset hcached)
  · rw [hset] at hcached
    rcases AssocList.mem_set hcached with rfl | hold
    · exact ⟨w, hw, routeKey, slot, hslot, rfl⟩
    · exact h cached hold

/-- With an honest cache the loop over the slots gathers what reading the files gives. -/
theorem gatherSlots_honest (hscene : scene.files = w.status) {todo : Table Json}
    (htodo : ∀ slotted ∈ todo, validateSlot slotted.1 slotted.2 = .ok ())
    (hstate : ∀ cached ∈ state.cache, HonestEntry platform worlds cached) :
    { todo.foldl (gatherSlot platform scene) state with cache := [] } =
        todo.foldl (readSlot platform scene) { state with cache := [] } ∧
      ∀ cached ∈ (todo.foldl (gatherSlot platform scene) state).cache,
        HonestEntry platform worlds cached := by
  induction todo generalizing state with
  | nil => exact ⟨rfl, hstate⟩
  | cons slotted rest ih =>
    obtain ⟨hread, hcache⟩ := evidenceFor_honest hcoherent hw hstate (htodo slotted (.head _))
    rw [← hscene] at hread hcache
    have hstep : { gatherSlot platform scene state slotted with cache := [] } =
          readSlot platform scene { state with cache := [] } slotted ∧
        ∀ cached ∈ (gatherSlot platform scene state slotted).cache, HonestEntry platform worlds cached := by
      unfold gatherSlot readSlot slotEvidence
      dsimp only
      rw [hread]
      split_ifs with happlies
      · exact ⟨rfl, hstate⟩
      · cases (judged platform scene.nowMs _).verdict <;> exact ⟨rfl, hcache⟩
    have hrest := ih (fun slotted h => htodo slotted (.tail _ h)) hstep.2
    rw [hstep.1] at hrest
    exact hrest

omit hcoherent hw in
/-- The loop over the entries does not look at the cache. -/
theorem gatherEntries_cache (state : Gathered) {slots todo : Table Json} (evidence : EvidenceCache) :
    todo.foldlM (gatherEntry platform scene slots) { state with cache := evidence } =
      (todo.foldlM (gatherEntry platform scene slots) state).map ({ · with cache := evidence }) := by
  induction todo generalizing state with
  | nil => rfl
  | cons entered rest ih =>
    have hstep : gatherEntry platform scene slots { state with cache := evidence } entered =
        (gatherEntry platform scene slots state entered).map ({ · with cache := evidence }) := by
      unfold gatherEntry
      cases entryProjection entered.2 with
      | error message => rfl
      | ok projection =>
        show (if _ then _ else _) = Except.map _ (if _ then _ else _)
        split_ifs
        · rfl
        · cases compileAvailabilityProjection platform projection <;> rfl
    rw [foldlM_cons, foldlM_cons, hstep]
    cases gatherEntry platform scene slots state entered with
    | error message => rfl
    | ok next => exact ih next

/-- With an honest cache an evaluation finds what reading the files gives, and keeps an honest cache. -/
theorem evaluate_honest (hscene : scene.files = w.status) (entries : Table Json) {slots : Table Json}
    (hslots : ∀ slotted ∈ slots, validateSlot slotted.1 slotted.2 = .ok ())
    (h : ∀ cached ∈ evidence, HonestEntry platform worlds cached) :
    ∃ kept : EvidenceCache, (∀ cached ∈ kept, HonestEntry platform worlds cached) ∧
      evaluateHardwareAvailabilityOfStore platform scene entries slots evidence =
        (entries.foldlM (gatherEntry platform scene slots)
          (slots.foldl (readSlot platform scene) ⟨[], [], [], [], [], []⟩)).map fun gathered =>
            (⟨computeEffectiveRevision platform gathered.denials, gathered.denials, gathered.projections,
              gathered.slots, gathered.diagnostics⟩, trimCache kept gathered.named) := by
  have hstart : ∀ cached ∈ (Gathered.mk [] [] [] [] [] evidence).cache, HonestEntry platform worlds cached := h
  obtain ⟨hread, hcache⟩ := gatherSlots_honest hcoherent hw hscene hslots hstart
  refine ⟨_, hcache, ?_⟩
  rw [← hread]
  unfold evaluateHardwareAvailabilityOfStore
  generalize slots.foldl (gatherSlot platform scene) ⟨[], [], [], [], [], evidence⟩ = gathered
  have hentries : entries.foldlM (gatherEntry platform scene slots) gathered =
      (entries.foldlM (gatherEntry platform scene slots) { gathered with cache := [] }).map
        ({ · with cache := gathered.cache }) := gatherEntries_cache { gathered with cache := [] } _
  dsimp only
  rw [hentries]
  cases entries.foldlM (gatherEntry platform scene slots) { gathered with cache := [] } <;> rfl

omit hcoherent hw in
/-- The slots of a snapshot that was read are valid. -/
theorem validateSlot_of_readStore {store : Snapshot} (h : readStore process w = .returned store) :
    ∀ slotted ∈ store.slots, validateSlot slotted.1 slotted.2 = .ok () := by
  obtain ⟨-, hof⟩ := (wp_calm (wp_readHardwareAvailabilityPolicy process)).returned h
  cases store with
  | absent => exact nofun
  | valid storeId revision entries slots missing =>
    obtain ⟨document, hclassified, -, -, -, rfl⟩ := hof
    have hvalid := hclassified.validated
    simp only [validatePolicyDocument, bind_eq_ok, shape_eq_ok, exists_const] at hvalid
    obtain ⟨_, _, _, _, _, _, _, _, _, _, _, _, hslots, _⟩ := hvalid
    exact fun slotted hslotted => ((validateSlots_eq_ok.mp hslots).1 slotted hslotted).2.1

/-- A call with an honest cache gives what it gives with an empty one, and leaves an honest cache. -/
theorem resolve_honest (generation : Captured) (nowMs : Int) (h : Honest process worlds cache) :
    (resolveEffectiveHardwareAvailability process w generation nowMs cache).1 =
        (resolveEffectiveHardwareAvailability process w generation nowMs
          createHardwareAvailabilityResolverCache).1 ∧
      Honest process worlds (resolveEffectiveHardwareAvailability process w generation nowMs cache).2 := by
  obtain ⟨hstore, hkept⟩ := storeSnapshot_honest hcoherent hw h
  have hempty : storeSnapshot process w createHardwareAvailabilityResolverCache =
      (readStore process w, ⟨some (w.storeKey, readStore process w), []⟩) := rfl
  unfold resolveEffectiveHardwareAvailability
  rw [hempty]
  generalize storeSnapshot process w cache = found at *
  obtain ⟨outcome, kept⟩ := found
  obtain rfl : outcome = _ := hstore
  cases hread : readStore process w with
  | threw failure => exact ⟨rfl, hkept⟩
  | died => exact ⟨rfl, hkept⟩
  | returned store =>
    have hslots := validateSlot_of_readStore hread
    have hscene : (Scene.mk generation w.status nowMs).files = w.status := rfl
    have hnil : ∀ cached ∈ ([] : EvidenceCache), HonestEntry platform worlds cached := nofun
    obtain ⟨rest, hrest, hcached⟩ :=
      evaluate_honest hcoherent hw hscene store.entries hslots hkept.evidence
    obtain ⟨none, -, hfresh⟩ := evaluate_honest hcoherent hw hscene store.entries hslots hnil
    dsimp only
    rw [hcached, hfresh]
    generalize store.entries.foldlM (gatherEntry platform ⟨generation, w.status, nowMs⟩ store.slots) _ = result
    cases result with
    | error message => exact ⟨rfl, hkept⟩
    | ok gathered =>
      dsimp only [Except.map]
      refine ⟨rfl, hkept.store, fun entry hentry => hrest entry ?_⟩
      dsimp only at hentry
      exact (trimCache_sublist _ _).subset hentry

end Runs

/-- After every history of calls and changes of the files, in which a file with the same identity has the same
content, a call with the accumulated cache gives what it gives with an empty cache. -/
theorem cache_transparent (process : Process platform) (first : World) (history : List CacheEvent)
    (hcoherent : ∀ w ∈ worldsOf first history, ∀ w' ∈ worldsOf first history, Coherent w w')
    (generation : Captured) (nowMs : Int) :
    (resolveEffectiveHardwareAvailability process (cacheAfter process first history).1 generation nowMs
        (cacheAfter process first history).2).1 =
      (resolveEffectiveHardwareAvailability process (cacheAfter process first history).1 generation nowMs
        createHardwareAvailabilityResolverCache).1 := by
  -- the cache stays honest along the events, whose worlds are all worlds of the history
  have hrun : ∀ (events : List CacheEvent) (now : World × ResolverCache),
      worldsOf now.1 events ⊆ worldsOf first history → Honest process (worldsOf first history) now.2 →
      (events.foldl (cacheStep process) now).1 ∈ worldsOf first history ∧
        Honest process (worldsOf first history) (events.foldl (cacheStep process) now).2 := by
    intro events
    induction events with
    | nil => exact fun now hworlds h => ⟨hworlds (.head _), h⟩
    | cons event events ih =>
      intro now hworlds h
      cases event with
      | change w => exact ih (w, now.2) (subset_of_cons_subset hworlds) h
      | resolve generation nowMs =>
        exact ih _ hworlds (resolve_honest hcoherent (hworlds (.head _)) generation nowMs h).2
  obtain ⟨hnow, hhonest⟩ := hrun history (first, _) (List.Subset.refl _) honest_empty
  exact (resolve_honest hcoherent hnow generation nowMs hhonest).1

/-! ## A launch that is looked at twice -/

/-- The store of `demoStore` with its witness, and the status file of the launch. -/
def launchWorld : World where
  witness := some (1, witnessBytes launchPlatform (.str (replicate 32 'a')) "fresh" (Plain.isoText 1))
  directory := some (2, some (3, serializeHardwareAvailabilityPolicy launchPlatform demoStore.document))
  status := (launchScene "demo").files

theorem launchPid_safe : 1 ≤ 1 ∧ 1 < 2 ^ 53 := by decide

theorem launchStoreId_hex : isStoreId (replicate 32 'a') = true := by decide

/-- A process that reads the files. -/
def launchProcess : Process launchPlatform where
  paths := ⟨"witness.json", "store", "store/policy.json"⟩
  pid := 1
  pid_safe := launchPid_safe
  dead := fun _ => false
  storeId := replicate 32 'a'
  storeId_hex := launchStoreId_hex
  now := Plain.isoText 1
  now_iso := ⟨1, rfl⟩

/-- The files appear, and are looked at once. -/
def launchHistory : List CacheEvent :=
  [.change launchWorld, .resolve (launchScene "demo").generation 5]

/-- The second call finds the store and the status of the launch in the cache, and returns what it returns
with an empty cache. -/
theorem cache_transparent_launch :
    let after := cacheAfter launchProcess ⟨none, none, fun _ => .absent⟩ launchHistory
    let field := fieldOf demoStore.document
    after.2.store = some (launchWorld.storeKey, .returned (.valid (field "storeId") (field "revision")
        (field "entries") (field "slots").stable false)) ∧
      (after.2.evidence.lookup (slotFile launchSlot)).map (·.result.evidenceClass) = some .succeeded ∧
      ∀ generation nowMs,
        (resolveEffectiveHardwareAvailability launchProcess launchWorld generation nowMs after.2).1 =
          (resolveEffectiveHardwareAvailability launchProcess launchWorld generation nowMs
            createHardwareAvailabilityResolverCache).1 := by
  refine ⟨by decide +kernel, by decide +kernel, fun generation nowMs => ?_⟩
  refine cache_transparent launchProcess ⟨none, none, fun _ => .absent⟩ launchHistory ?_ generation nowMs
  intro w hw w' hw'
  simp only [worldsOf, launchHistory, filterMap_cons, filterMap_nil, mem_cons, not_mem_nil,
    or_false] at hw hw'
  rcases hw with rfl | rfl <;> rcases hw' with rfl | rfl <;>
    exact ⟨by simp [launchWorld], by simp [launchWorld],
      by simp [launchWorld, launchScene, StatusFile.identity]⟩

end Ploinky.Hardware
