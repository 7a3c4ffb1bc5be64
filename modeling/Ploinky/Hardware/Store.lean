import Ploinky.Hardware.PolicyDocument
import Ploinky.Lib.Durable

/-!
# The hardware-availability store

The embedding of the file operations of `hardwareAvailabilityStore`: reading and classifying the
witness and the store directory, installing an empty store, restoring a lost witness, committing a
policy and sweeping the temporaries of dead processes. Every file-system call is one call of the
program, at which the process can die; consecutive calls that only read are one call. The operations
run under the apply lock, so no other process changes the files meanwhile.
-/

namespace Ploinky.Hardware

open Js Durable Durable.Prog

/-! ## Files and failures -/

/-- The codes of file-system errors that the sources tell apart. -/
inductive FsCode where
  | ENOENT
  | EEXIST
  | other
  deriving DecidableEq

/-- What the operations throw: the error of a file-system call, one of their own errors, or the
`RangeError` of a validator. -/
inductive Failure where
  | system (code : FsCode)
  | coded (error : CodedError)
  | range
  deriving DecidableEq

/-- What can happen at a file-system call: the process dies, or the call fails with an error that is
none of those the sources expect. -/
def FileFault : Fault Failure → Prop
  | .throwBefore error | .throwAfter error => error = .system .other
  | .pass | .dieBefore | .dieAfter => True

/-- The name of a temporary: the process that made it and a random part. -/
structure TempName where
  pid : Nat
  uuid : Nat
  deriving DecidableEq

/-- The temporaries of one kind in a directory, with their contents. -/
abbrev Temps (α : Type) := AList fun _ : TempName => α

/-- The store directory. -/
structure StoreDirectory where
  policy : Option Bytes
  temps : Temps Bytes

/-- The files of the store: the witness, the store directory, the staging directories of installs with
the policy file in each, and the temporaries of witnesses. -/
structure StoreFiles where
  witness : Option Bytes
  directory : Option StoreDirectory
  stagings : Temps (Option Bytes)
  witnessTemps : Temps Bytes
  /-- History: the entries and slots that the last rename put in place. -/
  committed : Option (Json × Json)

/-- A program on the files of the store. -/
abbrev StoreProg (α : Type) := Prog StoreFiles Failure α

/-- The names that the messages cite. -/
structure StorePaths where
  availabilityWitnessFile : Str
  availabilityStoreDir : Str
  availabilityPolicyFile : Str
  deriving DecidableEq

/-- A process: its id, which processes are dead, and what it takes from clock and random source. -/
structure Process (platform : Platform) where
  paths : StorePaths
  pid : Nat
  pid_safe : 1 ≤ pid ∧ pid < 2 ^ 53
  /-- `process.kill(pid, 0)` fails with `ESRCH`. -/
  dead : Nat → Bool
  /-- `crypto.randomBytes(16).toString('hex')`. -/
  storeId : Str
  storeId_hex : isStoreId storeId = true
  /-- `now().toISOString()`. -/
  now : Str
  now_iso : ∃ ms, platform.toISOString ms = some now

variable {platform : Platform} (process : Process platform) (name : TempName)

/-- `ownerDead(pid, killImpl)`. -/
def Process.ownerDead : Bool :=
  1 ≤ name.pid && name.pid < 2 ^ 53 && process.dead name.pid

/-- `availabilityError(message, code)`. -/
def availabilityError (message code : Str) : Failure := .coded ⟨message, code⟩

/-- `unreadable(target, detail)`. -/
def unreadable (target detail : Str) : Failure :=
  availabilityError (lit "hardware availability store '" ++ target ++ lit "' is unreadable: " ++ detail)
    "HARDWARE_AVAILABILITY_POLICY_UNREADABLE"

/-- A call whose effect no later call observes: an `fsync`, a `close`, the creation of a directory that
exists. -/
def unobserved {σ : Type} : Prog σ Failure Unit := effect id

/-- A computation that cannot be interrupted. -/
def ofExcept {σ α : Type} : Except Failure α → Prog σ Failure α
  | .ok value => ret value
  | .error error => raise error

/-- The names of all temporaries. -/
def StoreFiles.tempNames (s : StoreFiles) : List TempName :=
  s.stagings.keys ++ s.witnessTemps.keys ++ (s.directory.map (·.temps.keys)).getD []

/-- `crypto.randomUUID()`: a random part that no temporary has. -/
def StoreFiles.freshUuid (s : StoreFiles) : Nat := (s.tempNames.map (·.uuid)).foldr max 0 + 1

/-- The name of a new temporary. -/
def issueName : StoreProg TempName :=
  look fun s => ⟨process.pid, s.freshUuid⟩

/-! ## Reading -/

/-- The result of `readBoundedFile`. -/
inductive Reading where
  | missing
  | problem (text : Str)
  | bytes (content : Bytes)
  deriving DecidableEq

/-- What `readBoundedFile` makes of a file. -/
def boundedReading (file : Option Bytes) (maxBytes : Nat) : Reading :=
  match file with
  | none => .missing
  | some content =>
    if maxBytes < content.length then .problem (lit "exceeds " ++ ofNat maxBytes ++ lit " bytes")
    else .bytes content

/-- `readBoundedFile(fsApi, file, maxBytes)`. A failing call becomes a problem of the file. -/
def readBoundedFile (file : StoreFiles → Option Bytes) (maxBytes : Nat) : StoreProg Reading :=
  attempt (ask fun s => .ok (boundedReading (file s) maxBytes)) fun _ =>
    ret (.problem "cannot be read (error)")

/-- The state of the witness or of the store directory. -/
inductive Presence where
  | absent
  | invalid (problem : Str)
  | valid (document : Json)
  deriving DecidableEq

/-- A file that was read, parsed and validated. The marked problems are those of `policy.json`. -/
def classify (platform : Platform) (validate : Json → Except Violation Unit) (mark : Str) :
    Bytes → Except Failure Presence := fun content =>
  match platform.parseJson (textOf platform content) with
  | none => .ok (.invalid (mark ++ lit "is not valid JSON"))
  | some document =>
    match validate document with
    | .ok () => .ok (.valid document)
    | .error (.shape message) => .ok (.invalid message)
    | .error .range => .error .range

/-- `MAX_HARDWARE_AVAILABILITY_WITNESS_BYTES`. -/
def maxWitnessBytes : Nat := 4096

/-- The witness, from what was read. -/
def witnessPresence (platform : Platform) : Reading → Except Failure Presence
  | .missing => .ok .absent
  | .problem text => .ok (.invalid text)
  | .bytes content => classify platform (validateWitnessDocument platform) [] content

/-- The store directory, from what was read of its policy. -/
def policyPresence (platform : Platform) : Reading → Except Failure Presence
  | .missing => .ok (.invalid "policy.json is missing from an existing store directory")
  | .problem text => .ok (.invalid (lit "policy.json " ++ text))
  | .bytes content => classify platform (validatePolicyDocument platform) "policy.json " content

/-- `policy.json` of the store directory. -/
def policyFile (s : StoreFiles) : Option Bytes := s.directory.bind (·.policy)

/-- `inspectDirectoryKind(fsApi, directory)` for the store directory. -/
def inspectDirectoryKind : StoreProg (Except Str Bool) :=
  attempt (ask fun s => .ok (.ok s.directory.isSome)) fun _ =>
    ret (.error "cannot be inspected (error)")

/-- `inspectHardwareAvailabilityStore({ paths })`: the witness and the store directory. -/
def inspectHardwareAvailabilityStore (platform : Platform) : StoreProg (Presence × Presence) := do
  let witnessRead ← readBoundedFile (·.witness) maxWitnessBytes
  let witness ← ofExcept (witnessPresence platform witnessRead)
  match ← inspectDirectoryKind with
  | .error problem => return (witness, .invalid problem)
  | .ok false => return (witness, .absent)
  | .ok true =>
    let policyRead ← readBoundedFile policyFile maxPolicyBytes
    let directory ← ofExcept (policyPresence platform policyRead)
    return (witness, directory)

/-- What the reader returns. -/
inductive Snapshot where
  | absent
  | valid (storeId revision entries slots : Json) (witnessMissing : Bool)
  deriving DecidableEq

/-- The document of a valid state. -/
def Presence.document : Presence → Option Json
  | .valid document => some document
  | _ => none

/-- A field of a validated document. -/
def fieldOf (document : Json) (name : Str) : Json := (document.prop name).getD .null

/-- What the reader makes of the two states. -/
def snapshotOf (paths : StorePaths) : Presence → Presence → Except Failure Snapshot
  | .invalid problem, _ =>
    .error (unreadable paths.availabilityWitnessFile (lit "witness " ++ problem))
  | _, .invalid problem => .error (unreadable paths.availabilityStoreDir problem)
  | .absent, .absent => .ok .absent
  | .valid _, .absent =>
    .error (unreadable paths.availabilityStoreDir
      (lit "the store directory is missing after initialization (witness " ++
        paths.availabilityWitnessFile ++ lit ")"))
  | witness, .valid document =>
    if witness.document.any fun w => !strictEq (w.prop "storeId") (document.prop "storeId") then
      .error (unreadable paths.availabilityStoreDir "the policy storeId does not match the witness")
    else
      .ok (.valid (fieldOf document "storeId") (fieldOf document "revision")
        (fieldOf document "entries") (fieldOf document "slots") (witness == .absent))

/-- `readHardwareAvailabilityPolicy({ paths })`. -/
def readHardwareAvailabilityPolicy : StoreProg Snapshot := do
  let (witness, directory) ← inspectHardwareAvailabilityStore platform
  ofExcept (snapshotOf process.paths witness directory)

/-! ## Temporaries -/

/-- Open a temporary of the edge directory for a witness, exclusively. -/
def openWitnessTemp : StoreProg Unit := call fun s =>
  match s.witnessTemps.lookup name with
  | some _ => .error (.system .EEXIST)
  | none => .ok ((), { s with witnessTemps := s.witnessTemps.insert name [] })

/-- Write a temporary of the edge directory. -/
def writeWitnessTemp (content : Bytes) : StoreProg Unit := effect fun s =>
  { s with witnessTemps := s.witnessTemps.insert name content }

/-- Remove a temporary of the edge directory, if it is present. -/
def removeWitnessTemp : StoreProg Unit := effect fun s =>
  { s with witnessTemps := s.witnessTemps.erase name }

/-- A change of the store directory. -/
def StoreFiles.mapDirectory (f : StoreDirectory → StoreDirectory) (s : StoreFiles) : StoreFiles :=
  { s with directory := s.directory.map f }

/-- Open a temporary of the store directory for a policy, exclusively. -/
def openPolicyTemp : StoreProg Unit := call fun s =>
  match s.directory with
  | none => .error (.system .ENOENT)
  | some directory =>
    match directory.temps.lookup name with
    | some _ => .error (.system .EEXIST)
    | none =>
      .ok ((), s.mapDirectory fun d => { d with temps := d.temps.insert name [] })

/-- Write a temporary of the store directory. -/
def writePolicyTemp (content : Bytes) : StoreProg Unit := effect fun s =>
  s.mapDirectory fun d => { d with temps := d.temps.insert name content }

/-- Remove a temporary of the store directory, if it is present. -/
def removePolicyTemp : StoreProg Unit := effect fun s =>
  s.mapDirectory fun d => { d with temps := d.temps.erase name }

/-- Create a staging directory. -/
def makeStaging : StoreProg Unit := call fun s =>
  match s.stagings.lookup name with
  | some _ => .error (.system .EEXIST)
  | none => .ok ((), { s with stagings := s.stagings.insert name none })

/-- Open the policy of a staging directory, exclusively. -/
def openStagedPolicy : StoreProg Unit := call fun s =>
  match s.stagings.lookup name with
  | none => .error (.system .ENOENT)
  | some (some _) => .error (.system .EEXIST)
  | some none => .ok ((), { s with stagings := s.stagings.insert name (some []) })

/-- Write the policy of a staging directory. -/
def writeStagedPolicy (content : Bytes) : StoreProg Unit := effect fun s =>
  { s with stagings := s.stagings.insert name (some content) }

/-- `createPrivateFile(fsApi, file, bytes)` for calls that open and write the file. -/
def createPrivateFile (openFile writeFile : StoreProg Unit) : StoreProg Unit := do
  openFile
  finallyDo (do writeFile; unobserved) unobserved

/-- `removeStagingDirectory(fsApi, directory)`. -/
def removeStagingDirectory : StoreProg Unit := do
  match ← ask fun s => .ok (s.stagings.lookup name) with
  | none => return ()
  | some policy =>
    if policy.isSome then
      effect fun s => { s with stagings := s.stagings.insert name none }
    effect fun s => { s with stagings := s.stagings.erase name }

/-- `sweepHardwareAvailabilityTemps({ paths })`. The names of the edge directory are taken by kind. -/
def sweepHardwareAvailabilityTemps : StoreProg Unit := do
  let (stagings, witnessTemps) ← ask fun s => .ok (s.stagings.keys, s.witnessTemps.keys)
  forEach (stagings.filter process.ownerDead) removeStagingDirectory
  forEach (witnessTemps.filter process.ownerDead) removeWitnessTemp
  unobserved
  match ← inspectDirectoryKind with
  | .ok true =>
    let temps ← ask fun s => .ok ((s.directory.map (·.temps.keys)).getD [])
    forEach (temps.filter process.ownerDead) removePolicyTemp
    unobserved
  | .ok false | .error _ => return ()

/-! ## Witness -/

/-- The document of `witnessBytes`. -/
def witnessDocument (storeId : Json) (initializedBy now : Str) : Json :=
  .obj [("schema", .num "1"), ("storeId", storeId), ("initializedAt", .str now),
    ("initializedBy", .str initializedBy)]

/-- `witnessBytes({ storeId, initializedBy, now })`. -/
def witnessBytes (platform : Platform) (storeId : Json) (initializedBy now : Str) : Bytes :=
  utf8Bytes (platform.prettyJson (witnessDocument storeId initializedBy now) ++ ['\n'])

/-- `fs.linkSync(temporary, paths.availabilityWitnessFile)`. -/
def linkWitness : StoreProg Unit := call fun s =>
  match s.witnessTemps.lookup name with
  | none => .error (.system .ENOENT)
  | some content =>
    if s.witness.isSome then .error (.system .EEXIST)
    else .ok ((), { s with witness := some content })

/-- Whether an existing witness is one of the same store. -/
def sameStore (platform : Platform) (storeId : Json) : Reading → Bool
  | .bytes content =>
    match platform.parseJson (textOf platform content) with
    | some document =>
      strictEq (document.prop "storeId") (some storeId) &&
        document.keys.length == witnessKeys.length
    | none => false
  | .missing | .problem _ => false

/-- `writeWitness({ paths, storeId, initializedBy, now })`. -/
def writeWitness (storeId : Json) (initializedBy : Str) : StoreProg Unit := do
  let content := witnessBytes platform storeId initializedBy process.now
  let name ← issueName process
  finallyDo (do
      createPrivateFile (openWitnessTemp name) (writeWitnessTemp name content)
      attempt (linkWitness name) fun error =>
        if error = .system .EEXIST then do
          let existing ← readBoundedFile (·.witness) maxWitnessBytes
          if !sameStore platform storeId existing then
            raise (availabilityError (lit "hardware availability witness '" ++
              process.paths.availabilityWitnessFile ++ lit "' already exists for a different store")
              "HARDWARE_AVAILABILITY_INSTALL_CONFLICT")
        else raise error
      unobserved)
    (removeWitnessTemp name)

/-! ## Install, restore and commit -/

/-- `assertStoreAbsent(fsApi, paths)`. -/
def assertStoreAbsent : StoreProg Unit := do
  let refuse := fun target : Str => availabilityError
    (lit "hardware availability store install refused: '" ++ target ++ lit "' already exists")
    "HARDWARE_AVAILABILITY_INSTALL_CONFLICT"
  if ← ask fun s => .ok s.witness.isSome then
    raise (refuse process.paths.availabilityWitnessFile)
  if ← ask fun s => .ok s.directory.isSome then
    raise (refuse process.paths.availabilityStoreDir)

/-- The policy document of some entries and slots. -/
def policyDocument (platform : Platform) (storeId entries slots : Json) : Json :=
  .obj [("schema", .str policySchema), ("storeId", storeId), ("entries", entries), ("slots", slots),
    ("revision", .str (computeHardwareAvailabilityRevision platform (.str policySchema) storeId entries
      slots))]

/-- The properties of a policy are written in their order. -/
theorem written_policy (isNumber : Str → Bool) (storeId entries slots : Json) (revision : Str) :
    Json.written isNumber (.obj [("schema", .str policySchema), ("storeId", storeId), ("entries", entries),
      ("slots", slots), ("revision", .str revision)]) =
      .obj [("schema", .str policySchema), ("storeId", storeId.written isNumber),
        ("entries", entries.written isNumber), ("slots", slots.written isNumber), ("revision", .str revision)] := by
  have hnames : isLiteral [lit "schema", lit "storeId", lit "entries", lit "slots", lit "revision"] = true := by
    decide
  rw [Json.written_literal _ (by exact hnames)]
  simp [mapValues]

/-- The text of a policy reads back as its entries and slots in stable form. -/
theorem parse_serialize_policyDocument (htext : platform.JsonText) (storeId entries slots : Json) :
    platform.parseJson (textOf platform (serializeHardwareAvailabilityPolicy platform
      (policyDocument platform storeId entries slots))) =
      some (.obj [("schema", .str policySchema), ("storeId", storeId.written platform.isNumber),
        ("entries", entries.stable.written platform.isNumber),
        ("slots", slots.stable.written platform.isNumber),
        ("revision", .str (computeHardwareAvailabilityRevision platform (.str policySchema) storeId
          entries slots))]) :=
  (htext.file _).trans (congrArg some (written_policy _ storeId entries.stable slots.stable _))

/-- `fs.renameSync(staging, paths.availabilityStoreDir)`. -/
def renameStaging : StoreProg Unit := call fun s =>
  match s.stagings.lookup name with
  | none => .error (.system .ENOENT)
  | some policy =>
    if s.directory.any fun d => d.policy.isSome || !d.temps.keys.isEmpty then
      .error (.system .EEXIST)
    else .ok ((), { s with
      directory := some ⟨policy, ∅⟩
      stagings := s.stagings.erase name
      committed := some (.obj [], .obj []) })

/-- The part of an install up to the rename of its staging directory. -/
def stageStore (content : Bytes) : StoreProg Unit := do
  unobserved
  makeStaging name
  createPrivateFile (openStagedPolicy name) (writeStagedPolicy name content)
  unobserved
  assertStoreAbsent process
  attempt (renameStaging name) fun error =>
    if error = .system .EEXIST then
      raise (availabilityError (lit "hardware availability store install refused: '" ++
        process.paths.availabilityStoreDir ++ lit "' appeared during install")
        "HARDWARE_AVAILABILITY_INSTALL_CONFLICT")
    else raise error

/-- The empty policy of a new store. -/
def emptyPolicy (platform : Platform) (storeId : Str) : Bytes :=
  serializeHardwareAvailabilityPolicy platform
    (policyDocument platform (.str storeId) (.obj []) (.obj []))

/-- The writes of an install. A failure before the rename removes the staging directory; the witness
follows the rename. -/
def placeStore (initializedBy : Str) : StoreProg Unit := do
  let name ← issueName process
  attempt (stageStore process name (emptyPolicy platform process.storeId)) fun error => do
    attempt (removeStagingDirectory name) fun _ => return ()
    raise error
  unobserved
  writeWitness process (.str process.storeId) initializedBy

/-- `installHardwareAvailabilityStore({ paths, initializedBy })`. -/
def installHardwareAvailabilityStore (initializedBy : Str) : StoreProg Unit := do
  if initializedBy ≠ lit "fresh" ∧ initializedBy ≠ lit "upgrade" then
    raise (availabilityError "hardware availability install requires a fresh or upgrade origin"
      "HARDWARE_AVAILABILITY_POLICY_INVALID")
  sweepHardwareAvailabilityTemps process
  assertStoreAbsent process
  placeStore process initializedBy

/-- `restoreHardwareAvailabilityWitness({ paths })`. -/
def restoreHardwareAvailabilityWitness : StoreProg Unit := do
  match ← inspectHardwareAvailabilityStore platform with
  | (.absent, .valid document) => writeWitness process (fieldOf document "storeId") "restored"
  | _ =>
    raise (availabilityError
      "hardware availability witness restore requires a valid store with no witness"
      "HARDWARE_AVAILABILITY_INSTALL_CONFLICT")

/-- `fs.renameSync(temporary, paths.availabilityPolicyFile)`, the commit. -/
def renamePolicy (entries slots : Json) : StoreProg Unit := call fun s =>
  match s.directory.bind (·.temps.lookup name) with
  | none => .error (.system .ENOENT)
  | some content => .ok ((), { s.mapDirectory fun d => ⟨some content, d.temps.erase name⟩ with
      committed := some (entries, slots) })

/-- An object has more properties than the bound. -/
def exceeds (value : Json) (bound : Nat) : Bool := value.isObject && bound < value.keys.length

/-- The checks of a commit: the document to write, from the snapshot and the arguments. -/
def nextDocument (platform : Platform) (storeId entries slots : Json) : Except Failure Json := do
  let full := fun what : Str => availabilityError
    (lit "hardware availability policy is full: more than " ++ what) "HARDWARE_AVAILABILITY_POLICY_FULL"
  if exceeds entries 256 then throw (full "256 entries")
  if exceeds slots 256 then throw (full "256 slots")
  let document := policyDocument platform storeId entries slots
  match validatePolicyDocument platform document with
  | .ok () => return document
  | .error .range => throw .range
  | .error (.shape message) =>
    if message = lit "policy exceeds its byte bound" then throw (full "1048576 bytes")
    else throw (availabilityError (lit "hardware availability policy is invalid: " ++ message)
      "HARDWARE_AVAILABILITY_POLICY_INVALID")

/-- The writes of a commit. -/
def renameIntoPlace (entries slots : Json) (content : Bytes) :
    StoreProg Unit := do
  sweepHardwareAvailabilityTemps process
  unobserved -- `beforeTemp`
  let name ← issueName process
  attempt (do
      createPrivateFile (openPolicyTemp name) (writePolicyTemp name content)
      unobserved -- `beforeRename`
      renamePolicy name entries slots) fun error => do
    attempt (removePolicyTemp name) fun _ => return ()
    raise error
  attempt unobserved fun _ =>
    raise (availabilityError (lit "hardware availability policy '" ++
      process.paths.availabilityPolicyFile ++
      lit "' was committed but its directory fsync failed (error)")
      "HARDWARE_AVAILABILITY_DURABILITY_UNCONFIRMED")

/-- `commitHardwareAvailabilityPolicy({ paths, expectedRevision, entries, slots })`: whether a policy
was committed. -/
def commitHardwareAvailabilityPolicy (expectedRevision : Json)
    (entries slots : Option Json) : StoreProg Bool := do
  match ← readHardwareAvailabilityPolicy process with
  | .absent =>
    raise (unreadable process.paths.availabilityStoreDir
      "the store is not initialized; commits require a valid store")
  | .valid storeId revision snapshotEntries snapshotSlots _ =>
    if !strictEq (some expectedRevision) (some revision) then
      raise (availabilityError (lit "hardware availability policy revision changed (expected " ++
        expectedRevision.toStr ++ lit ", found " ++ revision.toStr ++ lit ")")
        "HARDWARE_AVAILABILITY_REVISION_CONFLICT")
    let nextEntries := entries.getD snapshotEntries
    let nextSlots := slots.getD snapshotSlots
    let document ← ofExcept (nextDocument platform storeId nextEntries nextSlots)
    if strictEq (document.prop "revision") (some revision) then return false
    renameIntoPlace process nextEntries nextSlots
      (serializeHardwareAvailabilityPolicy platform document)
    return true

end Ploinky.Hardware
