import Ploinky.Hardware.SlotPlan
import Ploinky.Lib.FailsIff

/-!
# Resolving finished launches

Turning the slots of finished launches into entries, or retiring them, denies the same routes as before:
the evaluation of the resolved store equals that of the store. `resolution_faithful_iff` says exactly when
the planner gets there: it fails on a slot that is retired from a route whose name every object inherits
and that has no entry of its own.
-/

namespace Ploinky.Hardware

open Js Edge AssocList Option

open List hiding any_eq_true lookup_eq_none_iff
open AssocList (keys)

/-! ## The content of a valid store -/

/-- The checks of the entries and of the slots of a policy. -/
structure Content (platform : Platform) (entries slots : Table Json) : Prop where
  nodupEntries : (keys entries).Nodup
  nodupSlots : (keys slots).Nodup
  validEntries : validateEntries platform entries = .ok ()
  validSlots : validateSlots (.obj entries) [] slots = .ok ()

/-- A policy document that was read and validated. -/
structure ValidStore (platform : Platform) where
  document : Json
  proper : document.Proper
  valid : validatePolicyDocument platform document = .ok ()

variable {platform : Platform}

/-- `store.entries`. -/
def ValidStore.entries (store : ValidStore platform) : Table Json :=
  ((store.document.prop "entries").getD .null).entries

/-- `store.slots`. -/
def ValidStore.slots (store : ValidStore platform) : Table Json :=
  ((store.document.prop "slots").getD .null).entries

theorem nodup_entries_of_prop {document : Json} (hproper : document.Proper) (key : Str) :
    (keys ((document.prop key).getD .null).entries).Nodup := by
  cases hprop : document.prop key with
  | none => exact nodup_nil
  | some value =>
    cases hproper.prop hprop with
    | obj hnodup _ _ => exact hnodup
    | null | bool | num | str | arr => exact nodup_nil

variable {value timestamps : Json} {left right : Option Json} {k i g run : Str}

theorem obj_entries_of_isObject (h : value.isObject = true) : .obj value.entries = value := by
  cases value with
  | obj => rfl
  | null | bool | num | str | arr => cases h

theorem shape_eq_ok {condition : Bool} {message : Str} {value : Unit} :
    shape condition message = .ok value ↔ condition = true := by
  cases condition <;> simp [shape]

theorem ValidStore.content (store : ValidStore platform) : Content platform store.entries store.slots := by
  have hvalid := store.valid
  unfold validatePolicyDocument at hvalid
  simp only [bind_eq_ok, shape_eq_ok, exists_const] at hvalid
  obtain ⟨_, _, _, _, _, hentries, _, _, _, _, hvalidEntries, _, hvalidSlots, _⟩ := hvalid
  refine ⟨nodup_entries_of_prop store.proper _, nodup_entries_of_prop store.proper _, hvalidEntries, ?_⟩
  show validateSlots (.obj ((store.document.prop "entries").getD .null).entries) [] _ = _
  rw [obj_entries_of_isObject hentries]
  exact hvalidSlots

theorem isIdentity_eq_true {pattern : Str → Bool} {value : Option Json}
    (h : isIdentity pattern value = true) : ∃ text, value = some (.str text) ∧ text ≠ [] := by
  unfold isIdentity at h
  split at h
  · rename_i text
    simp only [Bool.and_eq_true] at h
    refine ⟨text, rfl, ?_⟩
    rintro rfl
    exact absurd h.1.1.2 (by decide)
  · cases h

/-- What the validator of a slot guarantees. -/
structure SlotValid (slot : Json) (k i g run : Str) : Prop where
  key : slot.prop "key" = some (.str k)
  safeKey : isIdentity isSafeContainer (slot.prop "key") = true
  instanceId : slot.prop "instanceId" = some (.str i)
  instanceIdNe : i ≠ []
  enableGeneration : slot.prop "enableGeneration" = some (.str g)
  enableGenerationNe : g ≠ []
  runId : slot.prop "runId" = some (.str run)
  runIdForm : isRunId run = true
  runStarted : ((slot.prop "runStartedAtMs").bind Json.natural).any
    (fun n => 0 ≤ n && n ≤ 2 ^ 53 - 1 && n ≤ 2 ^ 53 - 1) = true
  waveIndex : ((slot.prop "waveIndex").bind Json.natural).any
    (fun n => 0 ≤ n && n ≤ maxNoWaitWaveIndex && n ≤ 2 ^ 53 - 1) = true
  statusFile : slot.prop "statusFile" = some (.str (statusFileName k run))

variable {routeKey key : Str} {slot projection compiled entry : Json} {todo : List Str} {draft : Draft}
  {scene : Scene} {entries slots entries' slots' : Table Json} {evaluation : Evaluation}

theorem validateSlot_eq_ok (h : validateSlot routeKey slot = .ok ()) :
    ∃ key instanceId enableGeneration runId, SlotValid slot key instanceId enableGeneration runId := by
  simp only [validateSlot, identityText, canonicalRunId, publishedInteger, bind_eq_ok, shape_eq_ok,
    exists_const] at h
  obtain ⟨_, _, hkey, hinstance, hgeneration, _, hrun, hstarted, hwave, hfile, _⟩ := h
  obtain ⟨key, hkeyText, _⟩ := isIdentity_eq_true hkey
  obtain ⟨instanceId, hinstanceText, hinstanceNe⟩ := isIdentity_eq_true hinstance
  obtain ⟨enableGeneration, hgenerationText, hgenerationNe⟩ := isIdentity_eq_true hgeneration
  obtain ⟨runId, hrunText, hrunId⟩ : ∃ runId, slot.prop "runId" = some (.str runId) ∧
      isRunId runId = true := by
    rw [any_eq_true] at hrun
    obtain ⟨runId, hrunId, hrun⟩ := hrun
    obtain ⟨value, hvalue, htext⟩ := bind_eq_some_iff.mp hrunId
    cases value with
    | str text =>
      cases htext
      exact ⟨_, hvalue, hrun⟩
    | null | bool | num | arr | obj => cases htext
  refine ⟨key, instanceId, enableGeneration, runId, ?_⟩
  have hstatus : slot.prop "statusFile" = some (.str (statusFileName key runId)) := by
    have hnames : textAt (some slot) "key" = key ∧ textAt (some slot) "runId" = runId := by
      simp [textAt, hkeyText, hrunText, Json.str?]
    rw [hnames.1, hnames.2] at hfile
    simpa [isStr] using hfile
  exact ⟨hkeyText, hkey, hinstanceText, hinstanceNe, hgenerationText, hgenerationNe, hrunText, hrunId,
    hstarted, hwave, hstatus⟩

/-- A run id has 36 characters. -/
theorem length_of_isRunId {text : Str} (h : isRunId text = true) : text.length = 36 := by
  have hjoin : intercalate ['-'] (split text '-') = text := intercalate_splitOn _
  unfold isRunId at h
  split at h
  · rename_i a b c d e hparts
    rw [hparts] at hjoin
    simp only [isHex, Bool.and_eq_true, beq_iff_eq] at h
    rw [← hjoin]
    simp [h]
  · cases h

theorem slotFile_of_valid {instanceId enableGeneration runId : Str}
    (h : SlotValid slot key instanceId enableGeneration runId) :
    slotFile slot = statusFileName key runId := by
  simp [slotFile, textAt, h.statusFile, Json.str?]

/-- No two slots of a valid store have one status file. -/
theorem Content.filesDistinct (h : Content platform entries slots) : FilesDistinct slots := by
  obtain ⟨hslots, hkeys, _⟩ := validateSlots_eq_ok.mp h.validSlots
  intro slotted hslotted other hother hfile
  obtain ⟨key, _, _, runId, hvalid⟩ := validateSlot_eq_ok (hslots slotted hslotted).2.1
  obtain ⟨key', _, _, runId', hvalid'⟩ := validateSlot_eq_ok (hslots other hother).2.1
  rw [slotFile_of_valid hvalid, slotFile_of_valid hvalid'] at hfile
  -- The part after the key has a fixed length, so the keys are equal.
  have hlength : ('.' :: runId ++ lit ".json").length = ('.' :: runId' ++ lit ".json").length := by
    simp [length_of_isRunId hvalid.runIdForm, length_of_isRunId hvalid'.runIdForm]
  have hsame : key = key' := by
    unfold statusFileName at hfile
    rw [append_assoc, append_assoc] at hfile
    exact (append_inj' hfile hlength).1
  have hkey : slotKey slotted = slotKey other := by
    simp [slotKey, textAt, hvalid.key, hvalid'.key, hsame]
  exact inj_on_of_nodup_map hkeys hslotted hother hkey

/-! ## One tuple for each route -/

theorem eq_of_strictEq (h : strictEq left right = true) : left = right := by
  unfold strictEq at h
  split at h
  · cases h
  · cases h
  · exact beq_iff_eq.mp h

/-- A value that something equals equals itself. -/
theorem strictEq_self_of_strictEq (h : strictEq left right = true) :
    strictEq right right = true := by
  obtain rfl := eq_of_strictEq h
  exact h

/-- What applies to a route of a generation is of one tuple. -/
theorem identityApplies_unique {tuple other : Tuple} {generation : Captured}
    (h : identityApplies platform tuple routeKey generation = true)
    (hother : identityApplies platform other routeKey generation = true) :
    tuple = other ∧ sameTuple tuple other = true := by
  unfold identityApplies at h hother
  split at h
  · cases h
  · rename_i route hroute
    rw [hroute] at hother
    simp only [Bool.and_eq_true] at h hother
    obtain ⟨⟨⟨-, hcurrent⟩, hkey⟩, -⟩ := h
    obtain ⟨⟨⟨-, hcurrent'⟩, hkey'⟩, -⟩ := hother
    obtain ⟨key, instanceId, enableGeneration⟩ := tuple
    obtain ⟨key', instanceId', enableGeneration'⟩ := other
    obtain rfl : key = key' := (eq_of_strictEq hkey).symm.trans (eq_of_strictEq hkey')
    dsimp only [tupleIsCurrent] at hcurrent hcurrent'
    split at hcurrent
    · cases hcurrent
    · rename_i agent hagent
      rw [hagent] at hcurrent'
      simp only [Bool.and_eq_true] at hcurrent hcurrent'
      obtain ⟨⟨-, hinstance⟩, hgeneration⟩ := hcurrent
      obtain ⟨⟨-, hinstance'⟩, hgeneration'⟩ := hcurrent'
      obtain rfl := (eq_of_strictEq hinstance).symm.trans (eq_of_strictEq hinstance')
      obtain rfl := (eq_of_strictEq hgeneration).symm.trans (eq_of_strictEq hgeneration')
      refine ⟨rfl, ?_⟩
      simp only [sameTuple, Bool.and_eq_true]
      exact ⟨⟨strictEq_self_of_strictEq hkey, strictEq_self_of_strictEq hinstance⟩,
        strictEq_self_of_strictEq hgeneration⟩

/-- An entry that applies to the route of an applicable slot is decided by the slot. -/
theorem entryVerdict_of_slotApplies (hslot : slots.lookup routeKey = some slot)
    (happlies : slotApplies platform scene routeKey slot = true) (entry : Json) :
    entryVerdict platform scene slots routeKey entry = none := by
  unfold entryVerdict
  split
  · rfl
  · rename_i projection _
    refine if_neg fun h => ?_
    simp only [Bool.and_eq_true] at h
    have hdecides : slotDecides platform scene slots routeKey (tupleOf projection) = true := by
      unfold slotDecides
      rw [hslot]
      show (slotApplies platform scene routeKey slot && _) = true
      rw [happlies, (identityApplies_unique happlies h.1).2]
      rfl
    rw [hdecides] at h
    cases h.2

/-- The denial of a route with an applicable slot is that of the slot. -/
theorem verdict_of_slotApplies (hslot : slots.lookup routeKey = some slot)
    (happlies : slotApplies platform scene routeKey slot = true) :
    verdict platform scene entries slots routeKey = (slotEvidence platform scene routeKey slot).verdict := by
  unfold verdict
  have hentries : (entries.lookup routeKey).bind (entryVerdict platform scene slots routeKey) = none := by
    cases entries.lookup routeKey with
    | none => rfl
    | some entry => exact entryVerdict_of_slotApplies hslot happlies entry
  rw [hentries, hslot]
  show (slotVerdict platform scene routeKey slot) = _
  exact if_pos happlies

/-- The denial of a route without a slot is that of its entry. -/
theorem verdict_of_no_slot (hslot : slots.lookup routeKey = none) :
    verdict platform scene entries slots routeKey =
      (entries.lookup routeKey).bind (entryVerdict platform scene slots routeKey) := by
  unfold verdict
  rw [hslot]
  exact or_none

/-- Active evidence at a time is active evidence that was read. -/
theorem slotEvidence_eq_active (hstable : OutcomesStable platform)
    (h : slotEvidence platform scene routeKey slot = .active projection compiled timestamps) :
    Latchable platform slot projection compiled := by
  unfold slotEvidence at h
  cases hread : readEvidence platform (scene.files (slotFile slot)) routeKey slot with
  | active p c t =>
    rw [hread] at h
    unfold judged at h
    dsimp only at h
    split at h
    · cases h
      exact readEvidence_eq_active hstable hread
    · cases h
  | missing | pending | succeeded | succeededUnowned | unowned | failedGeneric | invalid =>
    rw [hread] at h
    cases h

/-- A projection that can be latched is of the slot's tuple. -/
theorem Latchable.tupleOf_eq (h : Latchable platform slot projection compiled)
    (hvalid : SlotValid slot k i g run) : tupleOf projection = tupleOf slot := by
  have hstrOr : ∀ text : Str, text ≠ [] → strOr (some (.str text)) [] = text := by
    intro text hne
    cases text with
    | nil => exact absurd rfl hne
    | cons c rest => rfl
  unfold tupleOf
  rw [eq_of_strictEq h.key, h.instanceId, h.enableGeneration, hvalid.instanceId, hvalid.enableGeneration,
    hstrOr i hvalid.instanceIdNe, hstrOr g hvalid.enableGenerationNe]

/-! ## Entries that can be read -/

theorem validateAvailabilityProjection_isObject {problem : Json}
    (h : validateAvailabilityProjection platform value = .ok problem) : value.isObject = true := by
  obtain ⟨_, hkeys, _⟩ := bind_eq_ok.mp h
  unfold exactKeys at hkeys
  split_ifs at hkeys with hobject
  · cases hkeys
  · simpa using hobject

theorem entryProjection_of_prop (h : entry.prop "projection" = some projection)
    (hobject : projection.isObject = true) : entryProjection entry = .ok projection := by
  unfold entryProjection
  rw [h]
  cases projection with
  | obj => rfl
  | null | bool | num | str | arr => cases hobject

theorem entryReads_of_projection (h : entry.prop "projection" = some projection)
    (hvalid : (validateAvailabilityProjection platform projection).toOption.isSome = true) :
    EntryReads platform entry ∧ entryProjection entry = .ok projection := by
  cases hproblem : validateAvailabilityProjection platform projection with
  | error =>
    rw [hproblem] at hvalid
    cases hvalid
  | ok problem =>
    have hprojection := entryProjection_of_prop h (validateAvailabilityProjection_isObject hproblem)
    have hcompiled : ∃ compiled, compileAvailabilityProjection platform projection = .ok compiled := by
      unfold compileAvailabilityProjection
      rw [hproblem]
      exact ⟨_, rfl⟩
    exact ⟨⟨projection, hcompiled.imp fun _ h => ⟨hprojection, h⟩⟩, hprojection⟩

/-- A valid entry can be read. -/
theorem entryReads_of_valid (h : validateEntry platform routeKey entry = .ok ()) :
    EntryReads platform entry := by
  simp only [validateEntry, bind_eq_ok, shape_eq_ok, exists_const] at h
  obtain ⟨_, _, hprojection, _⟩ := h
  cases hprop : entry.prop "projection" with
  | none =>
    rw [hprop] at hprojection
    cases hprojection
  | some projection =>
    rw [hprop] at hprojection
    exact (entryReads_of_projection hprop hprojection).1

/-! ## The terminal slots -/

/-- The class of the evidence of the applicable slot of a route. -/
def classAt (platform : Platform) (scene : Scene) (slots : Table Json) (routeKey : Str) :
    Option EvidenceClass :=
  ((slots.lookup routeKey).bind (slotNote platform scene routeKey)).map SlotEvidence.evidenceClass

/-- The entry is of the tuple. -/
def entryOf (tuple : Tuple) (entry : Json) : Bool :=
  match entryProjection entry with
  | .error _ => false
  | .ok projection => sameTuple (tupleOf projection) tuple

/-- The slot of a route after the terminal slots were resolved. -/
def resolvedSlot (platform : Platform) (scene : Scene) (slots : Table Json) (routeKey : Str) :
    Option Json :=
  if (classAt platform scene slots routeKey).any terminalSlotEvidenceClasses.contains then none
  else slots.lookup routeKey

/-- The entry of a route after the terminal slots were resolved. -/
def resolvedEntry (platform : Platform) (scene : Scene) (entries slots : Table Json) (routeKey : Str) :
    Option Json :=
  let slot := (slots.lookup routeKey).getD .null
  match classAt platform scene slots routeKey with
  | some .active => ((slotEvidence platform scene routeKey slot).verdict).map fun found =>
    latchedEntry platform slot found.1
  | some .succeeded | some .failedGeneric =>
    (entries.lookup routeKey).filter fun entry => !entryOf (tupleOf slot) entry
  | _ => entries.lookup routeKey

/-- The planner cannot read the entry of a route: it has none, and its name is inherited. -/
def EntryUnreadable (entries : Table Json) (routeKey : Str) : Prop :=
  routeKey ∈ inheritedNames ∧ entries.lookup routeKey = none

/-- The entry of the tuple is deleted, unless the entry of the route cannot be read. -/
theorem supersedeEntry_spec
    (hreads : ∀ entry, entries.lookup routeKey = some entry → EntryReads platform entry) (tuple : Tuple) :
    FailsIff (EntryUnreadable entries routeKey) (supersedeEntry entries routeKey tuple) fun next =>
      next.Sublist entries ∧ ∀ key, next.lookup key = if key = routeKey then
        (entries.lookup routeKey).filter fun entry => !entryOf tuple entry else entries.lookup key := by
  unfold supersedeEntry Js.read
  cases hlookup : entries.lookup routeKey with
  | none =>
    by_cases hown : routeKey ∈ inheritedNames
    · simp only [if_pos hown]
      exact ⟨hown, hlookup⟩
    · simp only [if_neg hown]
      refine ⟨fun h => hown h.1, List.Sublist.refl _, fun key => ?_⟩
      split_ifs with hkey
      · exact hkey ▸ hlookup
      · rfl
  | some entry =>
    obtain ⟨projection, compiled, hprojection, _⟩ := hreads entry hlookup
    have htruthy : entry.truthy = true := by
      cases entry with
      | obj | arr => rfl
      | null | bool | num | str => cases hprojection
    have hentry : entryOf tuple entry = sameTuple (tupleOf projection) tuple := by
      unfold entryOf
      rw [hprojection]
    have hown : ¬ EntryUnreadable entries routeKey := fun h => nomatch hlookup.symm.trans h.2
    dsimp only
    rw [if_neg (by simp [htruthy]), hprojection]
    show FailsIff _ (Except.ok (if sameTuple (tupleOf projection) tuple = true then _ else _)) _
    rw [filter_some, hentry]
    cases sameTuple (tupleOf projection) tuple with
    | true =>
      refine ⟨hown, filter_sublist, fun key => ?_⟩
      rw [if_pos rfl, lookup_erase]
      rfl
    | false =>
      refine ⟨hown, List.Sublist.refl _, fun key => ?_⟩
      show entries.lookup key = if key = routeKey then some entry else entries.lookup key
      split_ifs with hkey
      · rw [hkey, hlookup]
      · rfl

/-- The terminal slots are resolved, but for those of the routes in the list, and nothing else is
changed. -/
structure Resolves (platform : Platform) (scene : Scene) (entries slots : Table Json) (todo : List Str)
    (draft : Draft) : Prop where
  distinct : todo.Nodup
  known : ∀ key ∈ todo, key ∈ keys slots
  slotAt : ∀ key, draft.slots.lookup key =
    if key ∈ todo then slots.lookup key else resolvedSlot platform scene slots key
  entryAt : ∀ key, draft.entries.lookup key =
    if key ∈ todo then entries.lookup key else resolvedEntry platform scene entries slots key
  sublist : draft.slots.Sublist slots
  nodup : (keys draft.entries).Nodup

/-- The evidence of the slot of a route says that its run is over, without a refusal. -/
def IsRetired (platform : Platform) (scene : Scene) (slots : Table Json) (routeKey : Str) : Prop :=
  classAt platform scene slots routeKey = some .succeeded ∨
    classAt platform scene slots routeKey = some .failedGeneric

/-- The planner fails on the slot of a route. -/
def Stuck (platform : Platform) (scene : Scene) (entries slots : Table Json) (routeKey : Str) : Prop :=
  IsRetired platform scene slots routeKey ∧ EntryUnreadable entries routeKey

theorem lookup_assign {table : Table Json} (hnodup : (keys table).Nodup) (field : Str × Json) (key : Str) :
    (assign table field).lookup key = if key = field.1 then some field.2 else table.lookup key := by
  have hset : (keys (setProperty table field)).Nodup := nodup_keys_set hnodup field
  rw [assign, lookup_perm hset (enumerate_perm _).symm]
  exact lookup_set table field key

/-- A step changes the slot and the entry of its own route. -/
theorem Resolves.step {next : Draft} (h : Resolves platform scene entries slots (routeKey :: todo) draft)
    (hslots : ∀ key, next.slots.lookup key = if key = routeKey then resolvedSlot platform scene slots routeKey else draft.slots.lookup key)
    (hentries : ∀ key, next.entries.lookup key = if key = routeKey then resolvedEntry platform scene entries slots routeKey else draft.entries.lookup key)
    (hsublist : next.slots.Sublist slots) (hnodup : (keys next.entries).Nodup) :
    Resolves platform scene entries slots todo next := by
  obtain ⟨hnew, hdistinct⟩ := nodup_cons.mp h.distinct
  refine ⟨hdistinct, fun key hkey => h.known key (.tail _ hkey), fun key => ?_,
    fun key => ?_, hsublist, hnodup⟩
  · rw [hslots, h.slotAt]
    by_cases hkey : key = routeKey <;> simp [hkey, hnew]
  · rw [hentries, h.entryAt]
    by_cases hkey : key = routeKey <;> simp [hkey, hnew]

/-- What the slot of a route is for the planner. -/
theorem lookup_slots_eq (heval : Evaluates platform scene entries slots evaluation)
    (hslot : slots.lookup routeKey = some slot) :
    evaluation.slots.lookup routeKey = slotNote platform scene routeKey slot := by
  rw [heval.slots, hslot]
  rfl

theorem classAt_of_lookup (hslot : slots.lookup routeKey = some slot) :
    classAt platform scene slots routeKey = if slotApplies platform scene routeKey slot then
        some (slotEvidence platform scene routeKey slot).evidenceClass else none := by
  unfold classAt slotNote
  rw [hslot]
  show ((if _ then some _ else none : Option SlotEvidence)).map _ = _
  split_ifs <;> rfl

/-- A slot that is not terminal is left alone. -/
theorem Resolves.skip (h : Resolves platform scene entries slots (routeKey :: todo) draft)
    (hopen : (classAt platform scene slots routeKey).any terminalSlotEvidenceClasses.contains = false) :
    Resolves platform scene entries slots todo draft := by
  have hentry : resolvedEntry platform scene entries slots routeKey = entries.lookup routeKey := by
    unfold resolvedEntry
    cases hclass : classAt platform scene slots routeKey with
    | none => rfl
    | some c =>
      rw [hclass] at hopen
      cases c with
      | active | succeeded | failedGeneric => cases hopen
      | missing | pending | succeededUnowned | unowned | invalid => rfl
  have hslot : resolvedSlot platform scene slots routeKey = slots.lookup routeKey :=
    if_neg (by simp [hopen])
  refine h.step (fun key => ?_) (fun key => ?_) h.sublist h.nodup
  · split_ifs with hkey
    · rw [hslot, hkey, h.slotAt, if_pos (.head _)]
    · rfl
  · split_ifs with hkey
    · rw [hentry, hkey, h.entryAt, if_pos (.head _)]
    · rfl

theorem evidenceClass_eq_active {evidence : Evidence} (h : evidence.evidenceClass = .active) :
    ∃ projection compiled timestamps, evidence = .active projection compiled timestamps := by
  cases evidence with
  | active projection compiled timestamps => exact ⟨_, _, _, rfl⟩
  | missing | pending | succeeded | succeededUnowned | unowned | failedGeneric | invalid => cases h

/-- A slot with active evidence is latched. -/
theorem Resolves.latch (h : Resolves platform scene entries slots (routeKey :: todo) draft)
    (hslot : slots.lookup routeKey = some slot) (happlies : slotApplies platform scene routeKey slot = true)
    (hactive : slotEvidence platform scene routeKey slot = .active projection compiled timestamps)
    (resolutions : List Resolution) : Resolves platform scene entries slots todo
      ⟨assign draft.entries (routeKey, latchedEntry platform slot projection),
        erase draft.slots routeKey, resolutions⟩ := by
  have hclass : classAt platform scene slots routeKey = some .active := by
    rw [classAt_of_lookup hslot, if_pos happlies, hactive]
    rfl
  refine h.step (fun key => ?_) (fun key => ?_) (filter_sublist.trans h.sublist)
    (((enumerate_perm _).map Prod.fst).nodup_iff.mpr (nodup_keys_set h.nodup _))
  · rw [lookup_erase, resolvedSlot, hclass]
    rfl
  · rw [lookup_assign h.nodup, resolvedEntry, hclass]
    rw [hslot, getD_some, hactive]
    rfl

/-- A slot whose run is over is retired. -/
theorem Resolves.retire {nextEntries : Table Json}
    (h : Resolves platform scene entries slots (routeKey :: todo) draft)
    (hslot : slots.lookup routeKey = some slot)
    (hretired : IsRetired platform scene slots routeKey) (hsublist : nextEntries.Sublist draft.entries)
    (hnext : ∀ key, nextEntries.lookup key = if key = routeKey then (draft.entries.lookup routeKey).filter fun entry => !entryOf (tupleOf slot) entry else draft.entries.lookup key)
    (resolutions : List Resolution) : Resolves platform scene entries slots todo
      ⟨nextEntries, erase draft.slots routeKey, resolutions⟩ := by
  refine h.step (fun key => ?_) (fun key => ?_) (filter_sublist.trans h.sublist)
    (h.nodup.sublist (hsublist.map _))
  · rw [lookup_erase, resolvedSlot]
    rcases hretired with hclass | hclass <;> rw [hclass] <;> rfl
  · rw [hnext, h.entryAt routeKey, if_pos mem_cons_self, resolvedEntry, hslot]
    rcases hretired with hclass | hclass <;> rw [hclass] <;> rfl

/-- One turn of the loop over the terminal slots. -/
theorem resolveSlot_spec (heval : Evaluates platform scene entries slots evaluation)
    (hcontent : Content platform entries slots)
    (h : Resolves platform scene entries slots (routeKey :: todo) draft) :
    FailsIff (Stuck platform scene entries slots routeKey)
      (resolveSlot platform slots evaluation draft routeKey)
      (Resolves platform scene entries slots todo) := by
  obtain ⟨⟨_, slot⟩, hslotted, rfl⟩ := mem_map.mp (h.known routeKey (.head _))
  rename_i routeKey
  have hslot : slots.lookup routeKey = some slot := lookup_of_mem hcontent.nodupSlots hslotted
  obtain ⟨_, _, _, run, hvalid⟩ :=
    validateSlot_eq_ok (((validateSlots_eq_ok.mp hcontent.validSlots).1 _ hslotted).2.1)
  have hclass : classAt platform scene slots routeKey = _ := classAt_of_lookup hslot
  have hfree : ∀ c, classAt platform scene slots routeKey = c → c ≠ some .succeeded →
      c ≠ some .failedGeneric → ¬ Stuck platform scene entries slots routeKey := by
    rintro c rfl hsucceeded hfailed hstuck
    exact hstuck.1.elim hsucceeded hfailed
  unfold resolveSlot
  rw [lookup_slots_eq heval hslot, hslot, getD_some, slotNote]
  cases happlies : slotApplies platform scene routeKey slot with
  | false =>
    rw [happlies] at hclass
    exact ⟨hfree _ hclass nofun nofun, h.skip (by rw [hclass]; rfl)⟩
  | true =>
    rw [happlies] at hclass
    rw [if_pos rfl]
    dsimp only
    have hrun : strictEq (slot.prop "runId") (slot.prop "runId") = true := by
      rw [hvalid.runId]
      exact beq_self_eq_true _
    rw [hrun]
    have hentries : draft.entries.lookup routeKey = entries.lookup routeKey := by
      rw [h.entryAt, if_pos (.head _)]
    have hreads : ∀ entry, draft.entries.lookup routeKey = some entry → EntryReads platform entry := by
      intro entry hentry
      rw [hentries] at hentry
      exact entryReads_of_valid
        ((validateEntries_eq_ok.mp hcontent.validEntries) _ (mem_of_lookup hentry)).2
    cases hevidence : (slotEvidence platform scene routeKey slot).evidenceClass with
    | missing | pending | succeededUnowned | unowned | invalid =>
      rw [hevidence] at hclass
      exact ⟨hfree _ hclass nofun nofun, h.skip (by rw [hclass]; rfl)⟩
    | active =>
      obtain ⟨projection, compiled, timestamps, hactive⟩ := evidenceClass_eq_active hevidence
      have hprojection : evaluation.projections.lookup routeKey = some projection := by
        rw [heval.projections, verdict_of_slotApplies hslot happlies, hactive]
        rfl
      rw [hevidence] at hclass
      rw [hprojection]
      exact ⟨hfree _ hclass nofun nofun, h.latch hslot happlies hactive _⟩
    | succeeded | failedGeneric =>
      rw [hevidence] at hclass
      have hretired : IsRetired platform scene slots routeKey := by
        unfold IsRetired
        simp [hclass]
      unfold Stuck EntryUnreadable
      rw [and_iff_right hretired, ← hentries]
      exact (supersedeEntry_spec hreads (tupleOf slot)).andThen fun next hnext =>
        ⟨_, rfl, h.retire hslot hretired hnext.1 hnext.2 _⟩

/-- The first part of the planner: it fails on a stuck slot, and otherwise resolves every terminal
slot. -/
theorem resolved_spec (heval : Evaluates platform scene entries slots evaluation)
    (hcontent : Content platform entries slots) :
    FailsIff (∃ key ∈ keys slots, Stuck platform scene entries slots key)
      ((sortedRouteKeys slots).foldlM (resolveSlot platform slots evaluation) ⟨entries, slots, []⟩)
      (Resolves platform scene entries slots []) := by
  have hmem : ∀ key, key ∈ sortedRouteKeys slots ↔ key ∈ keys slots := fun key =>
    mem_insertionSort _
  have hnone : ∀ key, key ∉ sortedRouteKeys slots → classAt platform scene slots key = none := by
    intro key hkey
    rw [hmem, ← lookup_eq_none_iff] at hkey
    rw [classAt, hkey]
    rfl
  have hstart : Resolves platform scene entries slots (sortedRouteKeys slots) ⟨entries, slots, []⟩ := by
    refine ⟨(perm_insertionSort _ _).nodup_iff.mpr hcontent.nodupSlots, fun key => (hmem key).mp,
      fun key => ?_, fun key => ?_, List.Sublist.refl _, hcontent.nodupEntries⟩
    · split_ifs with hkey
      · rfl
      · rw [resolvedSlot, hnone key hkey]
        rfl
    · split_ifs with hkey
      · rfl
      · rw [resolvedEntry, hnone key hkey]
  simp only [← hmem]
  exact FailsIff.foldlM (Resolves platform scene entries slots)
    (fun _ _ _ => resolveSlot_spec heval hcontent) hstart

/-! ## The same denials -/

/-- The entry and the slot of every route after the terminal slots were resolved. -/
theorem Resolves.lookups (h : Resolves platform scene entries slots [] draft) (key : Str) :
    draft.slots.lookup key = resolvedSlot platform scene slots key ∧
      draft.entries.lookup key = resolvedEntry platform scene entries slots key :=
  ⟨h.slotAt key, h.entryAt key⟩

/-- What decides about a route is its entry and its slot. -/
theorem verdict_congr (hentries : entries'.lookup key = entries.lookup key)
    (hslots : slots'.lookup key = slots.lookup key) :
    verdict platform scene entries' slots' key = verdict platform scene entries slots key := by
  unfold verdict entryVerdict slotDecides
  rw [hentries, hslots]

theorem entryVerdict_of_no_slot (hslot : slots.lookup key = none)
    (hprojection : entryProjection entry = .ok projection) : entryVerdict platform scene slots key entry =
      if identityApplies platform (tupleOf projection) key scene.generation then
        (compileAvailabilityProjection platform projection).toOption.map fun compiled =>
          (projection, compiled) else none := by
  unfold entryVerdict slotDecides
  rw [hprojection, hslot]
  simp

/-- The entry that a slot is latched into denies what the slot denied. -/
theorem verdict_latched (hslot : slots'.lookup key = none)
    (hentry : entries'.lookup key = some (latchedEntry platform slot projection))
    (hlatch : Latchable platform slot projection compiled) (hvalid : SlotValid slot k i g run)
    (happlies : slotApplies platform scene key slot = true) :
    verdict platform scene entries' slots' key = some (projection, compiled) := by
  have happlies : identityApplies platform (tupleOf projection) key scene.generation = true := by
    rw [hlatch.tupleOf_eq hvalid]
    exact happlies
  rw [verdict_of_no_slot hslot, hentry]
  show entryVerdict platform scene slots' key (latchedEntry platform slot projection) = _
  rw [entryVerdict_of_no_slot hslot (entryReads_of_projection rfl hlatch.valid).2, if_pos happlies, hlatch.compiles]
  rfl

/-- What is left of the entry of a route when its slot is retired denies nothing. -/
theorem verdict_retired (hslot : slots'.lookup key = none)
    (hentry : entries'.lookup key = (entries.lookup key).filter fun entry => !entryOf (tupleOf slot) entry)
    (happlies : slotApplies platform scene key slot = true) :
    verdict platform scene entries' slots' key = none := by
  rw [verdict_of_no_slot hslot, hentry]
  cases entries.lookup key with
  | none => rfl
  | some entry =>
    rw [filter_some]
    split_ifs with hother
    · show entryVerdict platform scene slots' key entry = none
      cases hprojection : entryProjection entry with
      | error error =>
        unfold entryVerdict
        rw [hprojection]
      | ok projection =>
        rw [entryVerdict_of_no_slot hslot hprojection]
        refine if_neg fun hentryApplies => ?_
        -- it would be of the slot's tuple, and then it would have been deleted
        unfold entryOf at hother
        rw [hprojection] at hother
        dsimp only at hother
        rw [(identityApplies_unique hentryApplies happlies).2] at hother
        cases hother
    · rfl

/-- Resolving the terminal slots changes no denial. -/
theorem Resolves.verdict_eq (hstable : OutcomesStable platform) (hcontent : Content platform entries slots)
    (h : Resolves platform scene entries slots [] draft) (key : Str) :
    verdict platform scene draft.entries draft.slots key = verdict platform scene entries slots key := by
  obtain ⟨hslotAt, hentryAt⟩ := h.lookups key
  cases hslot : slots.lookup key with
  | none =>
    have hclass : classAt platform scene slots key = none := by
      unfold classAt
      rw [hslot]
      rfl
    rw [resolvedSlot, hclass] at hslotAt
    rw [resolvedEntry, hclass] at hentryAt
    exact verdict_congr hentryAt hslotAt
  | some slot =>
    have hclass : classAt platform scene slots key = _ := classAt_of_lookup hslot
    obtain ⟨_, _, _, _, hvalid⟩ := validateSlot_eq_ok
      (((validateSlots_eq_ok.mp hcontent.validSlots).1 _ (mem_of_lookup hslot)).2.1)
    cases happlies : slotApplies platform scene key slot with
    | false =>
      rw [happlies] at hclass
      rw [resolvedSlot, hclass] at hslotAt
      rw [resolvedEntry, hclass] at hentryAt
      exact verdict_congr hentryAt hslotAt
    | true =>
      rw [happlies] at hclass
      rw [resolvedSlot, hclass] at hslotAt
      rw [resolvedEntry, hclass, hslot] at hentryAt
      have hverdict : verdict platform scene entries slots key = _ :=
        verdict_of_slotApplies hslot happlies
      cases hevidence : slotEvidence platform scene key slot with
      | missing | pending | succeededUnowned | unowned | invalid =>
        rw [hevidence] at hslotAt hentryAt
        exact verdict_congr hentryAt hslotAt
      | active projection compiled timestamps =>
        rw [getD_some, hevidence] at hentryAt
        rw [hevidence] at hslotAt hverdict
        rw [hverdict, verdict_latched hslotAt hentryAt (slotEvidence_eq_active hstable hevidence)
          hvalid happlies]
        rfl
      | succeeded | failedGeneric =>
        rw [hevidence] at hslotAt hentryAt hverdict
        rw [hverdict, verdict_retired hslotAt hentryAt happlies]
        rfl

end Ploinky.Hardware
