import Ploinky.Hardware.Outcome
import Ploinky.Lib.AssocList

/-!
# Evidence of background launches

A slot of the hardware-availability store names the status file of one background launch. The file is
read, and its document is classified: only a validated terminal refusal of exactly that launch is
`active` evidence. Results are cached under the identity of the file that was read.
-/

namespace Ploinky.Hardware

open Js Edge List

/-- `EVIDENCE_CLASSES`. -/
inductive EvidenceClass where
  | missing | pending | succeeded | succeededUnowned | unowned | failedGeneric | invalid | active
  deriving DecidableEq

/-- Evidence of a launch, with what is known of a refusal. -/
inductive Evidence where
  | missing | pending | succeeded | succeededUnowned | unowned | failedGeneric | invalid
  | active (projection compiled timestamps : Json)

/-- The class of evidence. -/
def Evidence.evidenceClass : Evidence → EvidenceClass
  | .missing => .missing
  | .pending => .pending
  | .succeeded => .succeeded
  | .succeededUnowned => .succeededUnowned
  | .unowned => .unowned
  | .failedGeneric => .failedGeneric
  | .invalid => .invalid
  | .active .. => .active

/-- `TERMINAL_SLOT_EVIDENCE_CLASSES`. -/
def terminalSlotEvidenceClasses : List EvidenceClass := [.active, .succeeded, .failedGeneric]

/-! ## The identity of a launch -/

/-- The immutable identity of a launch. -/
structure NoWaitIdentity where
  containerName : Str
  instanceId : Str
  enableGeneration : Str
  repoName : Str
  shortAgent : Str
  aliasName : Str
  routeKey : Str
  runId : Str
  runStartedAtMs : Nat
  waveIndex : Nat
  statusFile : Str

/-- `exactIdentityString(value, label, { allowEmpty, pattern })`. -/
def exactIdentityString (value : Option Json) (label : Str) (pattern : Str → Bool := isSafeContainer)
    (allowEmpty : Bool := false) : Except Str Str :=
  match value with
  | some (.str text) =>
    if text == trim text && decide (utf16Length text ≤ 1024) && (allowEmpty || !text.isEmpty) &&
      (text.isEmpty || pattern text) then .ok text
    else .error (label ++ lit " is not one exact canonical identity value")
  | _ => .error (label ++ lit " is not one exact canonical identity value")

/-- `exactCanonicalRunId(value)`. -/
def exactCanonicalRunId (value : Option Json) : Except Str Str :=
  match value with
  | some (.str text) =>
    if isRunId text then .ok text else .error "no-wait run id must be one exact canonical UUID"
  | _ => .error "no-wait run id must be one exact canonical UUID"

/-- `exactPublishedInteger(value, label, maximum)`. -/
def exactPublishedInteger (value : Option Json) (label : Str) (maximum : Nat := 2 ^ 53 - 1) :
    Except Str Nat :=
  match value.bind Json.natural with
  | some n =>
    if n ≤ 2 ^ 53 - 1 ∧ n ≤ maximum then .ok n
    else .error (label ++ lit " must be one exact published integer")
  | none => .error (label ++ lit " must be one exact published integer")

/-- A check with its message. -/
def expect (condition : Bool) (message : Str) : Except Str Unit :=
  if condition then .ok () else .error message

/-- `exactNoWaitImmutableIdentity(identity)`. A status filename that passes its pattern has no directory
part. -/
def exactNoWaitImmutableIdentity (identity : Json) : Except Str NoWaitIdentity := do
  expect identity.isObject "no-wait immutable identity must be one object"
  let containerName ← exactIdentityString (identity.prop "containerName") "no-wait container name"
  let instanceId ← exactIdentityString (identity.prop "instanceId") "no-wait instance id"
    isSafeOpaqueIdentity
  let enableGeneration ← exactIdentityString (identity.prop "enableGeneration")
    "no-wait enable generation" isSafeOpaqueIdentity
  expect (instanceId != enableGeneration)
    "no-wait instance id and enable generation must be distinct"
  let repoName ← exactIdentityString (identity.prop "repoName") "no-wait repository name"
  let shortAgent ← exactIdentityString (identity.prop "shortAgent") "no-wait short agent name"
    isSafeAgentIdentity
  let aliasName ← exactIdentityString (identity.prop "alias") "no-wait normalized alias"
    isSafeContainer true
  let routeKey ← exactIdentityString (identity.prop "routeKey") "no-wait route key"
    (if aliasName.isEmpty then isSafeAgentIdentity else isSafeContainer)
  expect (routeKey == if aliasName.isEmpty then shortAgent else aliasName)
    "no-wait route key must equal the normalized alias or short agent name"
  let runId ← exactCanonicalRunId (identity.prop "runId")
  let runStartedAtMs ← exactPublishedInteger (identity.prop "runStartedAtMs") "no-wait run start"
  let waveIndex ← exactPublishedInteger (identity.prop "waveIndex") "no-wait wave index"
    maxNoWaitWaveIndex
  let statusFile ← exactIdentityString (identity.prop "statusFile") "no-wait status filename"
  expect (statusFile == statusFileName containerName runId)
    (lit "no-wait status filename must be exactly '" ++ statusFileName containerName runId ++ lit "'")
  return ⟨containerName, instanceId, enableGeneration, repoName, shortAgent, aliasName, routeKey, runId,
    runStartedAtMs, waveIndex, statusFile⟩

/-- `sameIdentity(status, routeKey, slot)`. -/
def sameIdentity (status : Json) (routeKey : Str) (slot : Json) : Bool :=
  match exactNoWaitImmutableIdentity status with
  | .error _ => false
  | .ok identity =>
    isStr (slot.prop "key") identity.containerName &&
    isStr (slot.prop "instanceId") identity.instanceId &&
    isStr (slot.prop "enableGeneration") identity.enableGeneration &&
    identity.routeKey == routeKey &&
    isStr (slot.prop "runId") identity.runId &&
    (slot.prop "runStartedAtMs").bind Json.natural == some identity.runStartedAtMs &&
    (slot.prop "waveIndex").bind Json.natural == some identity.waveIndex &&
    isStr (slot.prop "statusFile") identity.statusFile

/-! ## The times of a terminal status -/

/-- `invalid(detail)`. -/
def timestampsInvalid {α : Type} (detail : Str) : Except Str α :=
  .error (lit "no-wait terminal status timestamps are invalid: " ++ detail)

/-- A time of a terminal status. -/
def terminalTime (status : Json) (field : Str) : Except Str Nat :=
  match (status.prop field).bind Json.natural with
  | some ms =>
    if 0 < ms ∧ ms ≤ 2 ^ 53 - 1 then .ok ms
    else timestampsInvalid (field ++ lit " must be a safe integer greater than zero")
  | none => timestampsInvalid (field ++ lit " must be a safe integer greater than zero")

variable (platform : Platform)

/-- The text of a time must be that of its milliseconds. -/
def terminalText (status : Json) (isoField msField : Str) (ms : Nat) :
    Except Str Unit :=
  match platform.toISOString ms with
  | some expected =>
    if isStr (status.prop isoField) expected then .ok ()
    else timestampsInvalid (isoField ++ lit " does not equal its " ++ msField)
  | none => timestampsInvalid (isoField ++ lit " does not equal its " ++ msField)

/-- The order of the times of a launch, the last of them not in the future. -/
def terminalOrder (runStarted started sequenceStarted finished : Nat) (nowMs : Int) : Except Str Unit :=
  if ¬ (runStarted ≤ started ∧ started ≤ sequenceStarted ∧ sequenceStarted ≤ finished) then
    timestampsInvalid (lit "timestamps are not ordered runStartedAtMs <= startedAtMs <= " ++
      lit "sequencePhaseStartedAtMs <= finishedAtMs")
  else if nowMs + 1000 < finished then timestampsInvalid "finishedAtMs is in the future"
  else .ok ()

/-- `validateNoWaitTerminalTimestamps(status, { nowMs })`: the finish time. -/
def validateNoWaitTerminalTimestamps (status : Json) (nowMs : Int) :
    Except Str Nat := do
  if !status.isObject then timestampsInvalid "status is not an object"
  else do
    let runStarted ← terminalTime status "runStartedAtMs"
    let started ← terminalTime status "startedAtMs"
    let sequenceStarted ← terminalTime status "sequencePhaseStartedAtMs"
    let finished ← terminalTime status "finishedAtMs"
    terminalText platform status "finishedAt" "finishedAtMs" finished
    terminalText platform status "startedAt" "startedAtMs" started
    terminalText platform status "sequencePhaseStartedAt" "sequencePhaseStartedAtMs" sequenceStarted
    terminalOrder runStarted started sequenceStarted finished nowMs
    return finished

/-- `TIMESTAMP_FIELDS`. -/
def timestampFields : List Str :=
  ["runStartedAtMs", "startedAtMs", "sequencePhaseStartedAtMs", "finishedAtMs", "startedAt",
    "sequencePhaseStartedAt", "finishedAt"]

/-! ## Classification -/

/-- `noWaitTerminalHardwareOutcome(status, validateHardwareOutcome)`. -/
def noWaitTerminalHardwareOutcome (status : Json) : Except Str (Option Json) :=
  match status.prop "error" with
  | some (.obj error) =>
    match (Json.obj error).prop "hardwareOutcome" with
    | none => .ok none
    | some raw => do
        let outcome ← platform.validateHardwareOutcome (some raw)
        let code := (Json.obj error).prop "code"
        expect (code.isNone || strictEq code (outcome.prop "code"))
          "no-wait terminal status code does not match its hardware outcome"
        return some outcome
  | _ => .ok none

/-- The fields of the projection of an outcome. -/
def projectionFields (problem : Json) (instanceId enableGeneration observedAt : Str) :
    List (Str × Option Json) :=
  [("schema", some (.num "1")), ("inputFingerprint", problem.prop "inputFingerprint"),
    ("key", problem.prop "key"), ("instanceId", some (.str instanceId)),
    ("enableGeneration", some (.str enableGeneration)), ("state", problem.prop "state"),
    ("problem", some problem), ("observedAt", some (.str observedAt))]

/-- The projection of an outcome, before it is validated. -/
def projectionValue (problem : Json) (instanceId enableGeneration observedAt : Str) : Json :=
  presentFields (projectionFields problem instanceId enableGeneration observedAt)

/-- `buildAvailabilityProjection({ outcome, instanceId, enableGeneration, observedAt })`. -/
def buildAvailabilityProjection (outcome : Json)
    (instanceId enableGeneration : Option Json) (observedAt : Str) : Except Str Json := do
  let problem ← platform.validateHardwareOutcome (some outcome)
  let value := projectionValue problem (strOr instanceId []) (strOr enableGeneration []) observedAt
  let validated ← validateAvailabilityProjection platform value
  return .obj (setProperty value.entries ("problem", validated))

/-- The evidence of a failed launch. -/
def classifyFailure (status slot : Json) : Evidence :=
  match noWaitTerminalHardwareOutcome platform status with
  | .error _ => .invalid
  | .ok none => .failedGeneric
  | .ok (some outcome) =>
    if !strictEq (outcome.prop "key") (slot.prop "key") then .invalid
    else match validateNoWaitTerminalTimestamps platform status (2 ^ 53 - 1) with
      | .error _ => .invalid
      | .ok finishedAtMs =>
        match platform.toISOString finishedAtMs with
        | none => .invalid
        | some observedAt =>
          match buildAvailabilityProjection platform outcome (slot.prop "instanceId")
              (slot.prop "enableGeneration") observedAt with
          | .error _ => .invalid
          | .ok projection =>
            -- a projection that was built compiles
            match compileAvailabilityProjection platform projection with
            | .error _ => .invalid
            | .ok compiled =>
              .active projection compiled (presentFields (timestampFields.map fun field =>
                (field, status.prop field)))

/-- `classifyDocument(status, routeKey, slot)`. -/
def classifyDocument (status : Json) (routeKey : Str) (slot : Json) : Evidence :=
  let pid := status.prop "pid"
  if !status.isObject || !sameIdentity status routeKey slot then .invalid
  else if pid.isSome && !(pid.bind Json.natural).any (fun n => 0 < n && n ≤ 2 ^ 53 - 1) then .invalid
  else if isStr (status.prop "state") "running" then
    if pid.isSome then .succeeded else .succeededUnowned
  else if isStr (status.prop "state") "starting" then if pid.isSome then .pending else .unowned
  else if isStr (status.prop "state") "failed" then
    if pid.isSome then classifyFailure platform status slot else .unowned
  else .invalid

/-! ## Reading -/

/-- What is found at the path of a status file. The identity of a file stands for the fields of its stat
that the cache compares. -/
inductive StatusFile where
  | absent
  | failed
  | irregular (identity : Nat)
  | unreadable (identity : Nat)
  | regular (identity : Nat) (bytes : Bytes)

/-- A cached result, under the identity of the file, which is none for an absent one. -/
structure CachedEvidence where
  identity : Option Nat
  signature : Str
  result : Evidence

/-- The cache of one directory, by the names of the files. -/
abbrev EvidenceCache := Table CachedEvidence

/-- `HARDWARE_EVIDENCE_BYTE_LIMIT`. -/
def hardwareEvidenceByteLimit : Nat := 256 * 1024

/-- `slotSignature(routeKey, slot)`. -/
def slotSignature (routeKey : Str) (slot : Json) : Str :=
  join (routeKey :: ([lit "key", "instanceId", "enableGeneration", "runId", "runStartedAtMs",
    "waveIndex"].map fun field => ((slot.prop field).map Json.toStr).getD [])) '|'

/-- The name of the status file of a slot. -/
def slotFile (slot : Json) : Str := textAt (some slot) "statusFile"

/-- The evidence in the content of a status file. -/
def evidenceIn (bytes : Bytes) (routeKey : Str) (slot : Json) : Evidence :=
  match platform.parseJson (textOf platform bytes) with
  | none => .invalid
  | some status => classifyDocument platform status routeKey slot

/-- The evidence that reading the status file gives. -/
def readEvidence (file : StatusFile) (routeKey : Str) (slot : Json) : Evidence :=
  match file with
  | .absent => .missing
  | .failed | .irregular _ | .unreadable _ => .invalid
  | .regular _ bytes =>
    if hardwareEvidenceByteLimit < bytes.length then .invalid
    else evidenceIn platform bytes routeKey slot

/-- The cached result of the file with the identity, for the signature. -/
def remembered (cache : EvidenceCache) (name : Str) (identity : Nat) (signature : Str) : Option Evidence :=
  match cache.lookup name with
  | none => none
  | some cached =>
    if cached.identity = some identity ∧ cached.signature = signature then some cached.result else none

/-- A result is cached. -/
def remember (cache : EvidenceCache) (name : Str) (identity : Option Nat) (signature : Str)
    (result : Evidence) : Evidence × EvidenceCache :=
  (result, AssocList.set cache (name, ⟨identity, signature, result⟩))

/-- `evidenceFor({ fsApi, file, routeKey, slot, evidenceCache })`. -/
def evidenceFor (files : Str → StatusFile) (routeKey : Str) (slot : Json)
    (cache : EvidenceCache) : Evidence × EvidenceCache :=
  let name := slotFile slot
  let signature := slotSignature routeKey slot
  match files name with
  | .absent => remember cache name none signature .missing
  | .failed => (.invalid, cache)
  | .irregular identity => remember cache name (some identity) signature .invalid
  | .unreadable identity =>
    match remembered cache name identity signature with
    | some result => (result, cache)
    | none => (.invalid, AssocList.erase cache name)
  | .regular identity bytes =>
    if hardwareEvidenceByteLimit < bytes.length then
      remember cache name (some identity) signature .invalid
    else match remembered cache name identity signature with
      | some result => (result, cache)
      | none => remember cache name (some identity) signature (evidenceIn platform bytes routeKey slot)

/-! ## What active evidence gives -/

/-- A validated outcome passes the validator unchanged. -/
def OutcomesStable : Prop :=
  ∀ value outcome, platform.validateHardwareOutcome value = .ok outcome →
    platform.validateHardwareOutcome (some outcome) = .ok outcome

variable {fields : List (Str × Option Json)} {platform : Platform}
  {outcome projection status slot compiled timestamps : Json}

/-- The properties that `presentFields` gives an object. -/
theorem prop_presentFields (hnodup : (fields.map Prod.fst).Nodup) (key : Str) :
    (presentFields fields).prop key = (fields.lookup key).join := by
  show (fields.filterMap fun field => field.2.map fun value => (field.1, value)).lookup key = _
  induction fields with
  | nil => rfl
  | cons field fields ih =>
    obtain ⟨name, value⟩ := field
    rw [map_cons, nodup_cons] at hnodup
    rw [AssocList.lookup_cons]
    cases value with
    | some value =>
      rw [filterMap_cons_some (by rfl), AssocList.lookup_cons, ih hnodup.2]
      by_cases hkey : key = name <;> simp [hkey]
    | none =>
      rw [filterMap_cons_none (by rfl), ih hnodup.2]
      by_cases hkey : key = name
      · have hnone : fields.lookup key = none :=
          AssocList.lookup_eq_none_iff.mpr (hkey ▸ hnodup.1)
        rw [if_pos hkey, hnone]
        rfl
      · rw [if_neg hkey]

/-- Setting a property to the value it has changes nothing. -/
theorem setProperty_self {fields : List (Str × Json)} (hnodup : (fields.map Prod.fst).Nodup)
    {key : Str} {value : Json} (h : fields.lookup key = some value) :
    setProperty fields (key, value) = fields := by
  have hmem := AssocList.mem_of_lookup h
  unfold setProperty
  rw [if_pos (mem_map_of_mem hmem)]
  conv_rhs => rw [← map_id fields]
  refine map_congr_left fun field hfield => ?_
  by_cases hkey : field.1 = key
  · have hvalue := AssocList.lookup_of_mem hnodup hfield
    rw [hkey, h] at hvalue
    rw [if_pos hkey]
    exact Prod.ext hkey.symm (Option.some.inj hvalue)
  · exact if_neg hkey

theorem nodup_presentFields (hnodup : (fields.map Prod.fst).Nodup) :
    ((presentFields fields).entries.map Prod.fst).Nodup := by
  refine hnodup.sublist ?_
  show List.Sublist ((fields.filterMap fun field =>
    field.2.map fun value => (field.1, value)).map Prod.fst) (fields.map Prod.fst)
  induction fields with
  | nil => exact List.Sublist.refl _
  | cons field fields ih =>
    obtain ⟨name, value⟩ := field
    have hrest := ih (nodup_cons.mp hnodup).2
    cases value with
    | some value => exact hrest.cons_cons name
    | none => exact hrest.cons name

/-- The names of the fields of a projection are distinct. -/
theorem nodup_projectionFields (problem : Json) (instanceId enableGeneration observedAt : Str) :
    ((projectionFields problem instanceId enableGeneration observedAt).map Prod.fst).Nodup := by
  show [lit "schema", lit "inputFingerprint", lit "key", lit "instanceId", lit "enableGeneration",
    lit "state", lit "problem", lit "observedAt"].Nodup
  decide

theorem prop_projectionValue (problem : Json) (instanceId enableGeneration observedAt : Str) (key : Str) :
    (projectionValue problem instanceId enableGeneration observedAt).prop key =
      ((projectionFields problem instanceId enableGeneration observedAt).lookup key).join :=
  prop_presentFields (nodup_projectionFields ..) key

/-- What is known of a projection that was built: it is its own validated form. -/
theorem buildAvailabilityProjection_eq_ok (hstable : OutcomesStable platform)
    {instanceId enableGeneration : Option Json} {observedAt : Str}
    (h : buildAvailabilityProjection platform outcome instanceId enableGeneration observedAt = .ok projection) :
    ∃ problem, platform.validateHardwareOutcome (some outcome) = .ok problem ∧
      projection = projectionValue problem (strOr instanceId []) (strOr enableGeneration []) observedAt ∧
      validateAvailabilityProjection platform projection = .ok problem := by
  simp only [buildAvailabilityProjection, bind_eq_ok] at h
  obtain ⟨problem, hproblem, validated, hvalidated, h⟩ := h
  have hprop : (projectionValue problem (strOr instanceId []) (strOr enableGeneration [])
      observedAt).prop "problem" = some problem := prop_projectionValue _ _ _ _ _
  have hagain := validateAvailabilityProjection_eq_ok hvalidated
  rw [hprop, hstable _ _ hproblem] at hagain
  cases hagain
  have hself : Json.obj (setProperty (projectionValue problem (strOr instanceId [])
      (strOr enableGeneration []) observedAt).entries ("problem", problem)) =
      projectionValue problem (strOr instanceId []) (strOr enableGeneration []) observedAt :=
    congrArg Json.obj (setProperty_self (nodup_presentFields (nodup_projectionFields ..)) hprop)
  rw [hself] at h
  cases h
  exact ⟨problem, hproblem, rfl, hvalidated⟩

/-- What active evidence of a slot says: a projection of exactly the slot's tuple, observed at a finish
time, with its compiled form. -/
structure Latchable (platform : Platform) (slot projection compiled : Json) : Prop where
  key : strictEq (projection.prop "key") (slot.prop "key") = true
  instanceId : projection.prop "instanceId" = some (.str (strOr (slot.prop "instanceId") []))
  enableGeneration :
    projection.prop "enableGeneration" = some (.str (strOr (slot.prop "enableGeneration") []))
  valid : (validateAvailabilityProjection platform projection).toOption.isSome
  compiles : compileAvailabilityProjection platform projection = .ok compiled
  observed : ∃ finishedAtMs observedAt, 0 < finishedAtMs ∧ finishedAtMs ≤ 2 ^ 53 - 1 ∧
    platform.toISOString (finishedAtMs : Nat) = some observedAt ∧
    projection.prop "observedAt" = some (.str observedAt)

/-- A finish time is a positive safe integer. -/
theorem validateNoWaitTerminalTimestamps_eq_ok {nowMs : Int} {finished : Nat}
    (h : validateNoWaitTerminalTimestamps platform status nowMs = .ok finished) :
    0 < finished ∧ finished ≤ 2 ^ 53 - 1 := by
  obtain ⟨_, h⟩ := guard_eq_ok.mp h
  simp only [bind_eq_ok] at h
  obtain ⟨_, _, _, _, _, _, time, htime, _, _, _, _, _, _, _, _, h⟩ := h
  cases h
  unfold terminalTime at htime
  split at htime
  · split_ifs at htime with hrange
    · cases htime
      exact hrange
    · cases htime
  · cases htime

theorem noWaitTerminalHardwareOutcome_eq_ok
    (h : noWaitTerminalHardwareOutcome platform status = .ok (some outcome)) :
    ∃ raw, platform.validateHardwareOutcome raw = .ok outcome := by
  unfold noWaitTerminalHardwareOutcome at h
  split at h
  · split at h
    · cases h
    · simp only [bind_eq_ok] at h
      obtain ⟨other, hother, _, _, h⟩ := h
      cases h
      exact ⟨_, hother⟩
  · cases h

theorem classifyFailure_eq_active (hstable : OutcomesStable platform)
    (h : classifyFailure platform status slot = .active projection compiled timestamps) :
    Latchable platform slot projection compiled := by
  unfold classifyFailure at h
  split at h
  · cases h
  · cases h
  · rename_i outcome houtcome
    obtain ⟨raw, hraw⟩ := noWaitTerminalHardwareOutcome_eq_ok houtcome
    split_ifs at h with hkey
    split at h
    · cases h
    · rename_i finishedAtMs hfinished
      split at h
      · cases h
      · rename_i observedAt hobserved
        split at h
        · cases h
        · rename_i built hbuilt
          split at h
          · cases h
          · rename_i form hform
            cases h
            obtain ⟨problem, hproblem, hvalue, hvalid⟩ :=
              buildAvailabilityProjection_eq_ok hstable hbuilt
            -- the outcome of the status was validated already
            rw [hstable _ _ hraw] at hproblem
            cases hproblem
            have hrange := validateNoWaitTerminalTimestamps_eq_ok hfinished
            refine ⟨?_, ?_, ?_, ?_, hform, finishedAtMs, observedAt, hrange.1, hrange.2, hobserved, ?_⟩
            · rw [hvalue, prop_projectionValue]
              show strictEq (outcome.prop "key") (slot.prop "key") = true
              simpa using hkey
            · rw [hvalue, prop_projectionValue]
              rfl
            · rw [hvalue, prop_projectionValue]
              rfl
            · rw [hvalid]
              rfl
            · rw [hvalue, prop_projectionValue]
              rfl

/-- Active evidence of a slot, however it was read, can be latched. -/
theorem readEvidence_eq_active (hstable : OutcomesStable platform) {file : StatusFile} {routeKey : Str}
    (h : readEvidence platform file routeKey slot = .active projection compiled timestamps) :
    Latchable platform slot projection compiled := by
  cases file with
  | absent | failed | irregular | unreadable => cases h
  | regular identity bytes =>
    simp only [readEvidence] at h
    split_ifs at h with hlarge
    unfold evidenceIn at h
    split at h
    · cases h
    · rename_i status hstatus
      unfold classifyDocument at h
      dsimp only at h
      split_ifs at h
      exact classifyFailure_eq_active hstable h

end Ploinky.Hardware
