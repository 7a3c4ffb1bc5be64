import Ploinky.Hardware.PolicyDocument
import Ploinky.Js.JsonText
import Ploinky.Lib.Durable

/-!
# The journal of a downgrade

A downgrade replaces a gate-on Box by a gate-off Box. It writes its intentions into a journal before
it acts, and a later process recovers from the journal alone. This module has the journal and its
validation, the state of the host that the downgrade acts on, and the calls that act on it.

The journal of the operation exists twice: as the file, and as the object of the running process,
which is changed before it is written.
-/

namespace Ploinky.Downgrade

open Ploinky Js Durable Durable.Prog
open Ploinky.Hardware (isHex)

/-- IDs that the engine and `randomHex` issue: never twice the same, and always of the shape that the
sources test for. -/
abbrev Id := Nat

/-- An error with its code. -/
structure Failure where
  code : Str
  message : Str
  deriving DecidableEq

/-- `PLOINKY_BOX_HARDWARE_RECOVERY_BLOCKED`. -/
def recoveryBlockedCode : Str := "PLOINKY_BOX_HARDWARE_RECOVERY_BLOCKED"

/-- `transitionError(message)`. -/
def transitionError (message : Str) : Failure := ⟨"PLOINKY_BOX_HARDWARE_TRANSITION_FAILED", message⟩

/-- `transitionError(message, 'PLOINKY_BOX_HARDWARE_RECOVERY_BLOCKED')`. -/
def blockedError (message : Str) : Failure := ⟨recoveryBlockedCode, message⟩

/-- `PHASES`. -/
inductive Phase where
  | prepared | barrierInstalled | oldStopped | oldAbsent | candidateCreated | candidateStarted
  | candidateVerified | commitDecided | hostStateCommitted | committed | rollbackStarted
  | rollbackVerified | rolledBack | recoveryBlocked | abortedByDestroy
  deriving DecidableEq

/-- `TERMINAL_PHASES.includes(phase)`. -/
def Phase.isTerminal : Phase → Bool
  | .committed | .rolledBack | .abortedByDestroy => true
  | _ => false

/-- `OPERATIONS`. -/
inductive Operation where
  | start | restart | update | bind | gpuGrant | gpuRevoke
  deriving DecidableEq

/-- The action that the journal announces. -/
inductive Action where
  | installBarrier
  | stopGraph (container : Id)
  | stopBox (container : Id)
  | removeOld (container : Id)
  | reapplyStop (container : Id)
  | reapplyRemove (container : Id)
  | removeCandidate (container : Id)
  | create (attempt : Id) (configurationRef : Str)
  | start (attempt : Option Id) (container : Id)
  | prepare (container : Id)
  | graph (attempt : Option Id) (container : Id)
  | writeRecord (name : Str)
  | removeBarrier
  deriving DecidableEq

/-- The `kind` of an action. -/
def Action.kind : Action → Str
  | .installBarrier => "install-barrier"
  | .stopGraph _ => "stop-graph"
  | .stopBox _ => "stop-box"
  | .removeOld _ => "remove-old"
  | .reapplyStop _ => "reapply-stop"
  | .reapplyRemove _ => "reapply-remove"
  | .removeCandidate _ => "remove-candidate"
  | .create _ _ => "create"
  | .start _ _ => "start"
  | .prepare _ => "prepare"
  | .graph _ _ => "graph"
  | .writeRecord _ => "write-record"
  | .removeBarrier => "remove-barrier"

/-- What a Box is created for. -/
inductive Stage where
  | candidate | reapply | rollback
  deriving DecidableEq

/-- An attempt to create a Box. -/
structure Attempt where
  attemptId : Id
  stage : Stage
  configurationRef : Str
  contractHash : Str
  observedId : Option Id
  graphResultRef : Option Str
  deriving DecidableEq

/-- A host record with its value before and after the downgrade. -/
structure HostRecord where
  name : Str
  old : Json
  next : Json
  written : Bool
  deriving DecidableEq

/-- The two results of a downgrade. -/
inductive Decision where
  | desiredOff | restoredOld
  deriving DecidableEq

/-- The durable decision. -/
structure CommitIntent where
  result : Decision
  finalAttemptId : Option Id
  finalContainerId : Id
  configurationRef : Str
  graphResultRef : Option Str
  hostRecordsHash : Str
  deriving DecidableEq

/-- The last problem. -/
structure Problem where
  code : Str
  message : Str
  action : Option Str
  deriving DecidableEq

/-- The workspace that a journal belongs to. -/
structure Identity where
  boxInstance : Str
  pathHash : Str
  workspaceRoot : Str
  deriving DecidableEq

/-- The Box that the downgrade replaces. -/
structure OldBox where
  configurationRef : Str
  graphRef : Str
  wasRunning : Bool
  graphWasRunning : Bool
  containerId : Id
  deriving DecidableEq

/-- The Box that replaces it. -/
structure DesiredBox where
  configurationRef : Str
  graphRef : Str
  reapplyConfigurationRef : Option Str
  deriving DecidableEq

/-- The journal. -/
structure Journal where
  operationId : Id
  operation : Operation
  identity : Identity
  engineIdentity : Str
  hostKind : Str
  phase : Phase
  nextAction : Option Action
  policyToken : Option Json
  old : OldBox
  desired : DesiredBox
  attempts : List Attempt
  hostRecords : List HostRecord
  commitIntent : Option CommitIntent
  lastProblem : Option Problem
  deriving DecidableEq

/-- `journal.commitIntent?.result`. -/
def Journal.result (journal : Journal) : Option Decision := journal.commitIntent.map (·.result)

/-- `MAX_ATTEMPTS`. -/
def maxAttempts : Nat := 8

/-- `REF`. -/
def isRef (text : Str) : Bool :=
  text.take 7 == lit "sha256-" && isHex 64 (text.drop 7)

/-- `digestOf(value)`. -/
def digestOf (platform : Platform) (value : Json) : Str :=
  lit "sha256-" ++ platform.sha256 (utf8Bytes (platform.stringifyJson value.stable))

/-- `validateJournal(value, identity)`, of a value that has the fields of a journal. -/
def validateJournal (identity : Identity) (journal : Journal) : Except Failure Unit :=
  if journal.identity ≠ identity then
    .error (blockedError "transition journal belongs to another workspace identity")
  else if maxAttempts < journal.attempts.length then
    .error (transitionError "transition journal attempts are invalid")
  else if 128 < journal.hostRecords.length then
    .error (transitionError "transition journal host records are invalid")
  else if [journal.old.configurationRef, journal.old.graphRef, journal.desired.configurationRef].all
      isRef = false then
    .error (transitionError "transition journal snapshot reference is invalid")
  else .ok ()

/-! ## The host -/

/-- A Box, with the configuration it was created from. -/
structure Box where
  id : Id
  running : Bool
  graph : Bool
  configuration : Json
  deriving DecidableEq

/-- `transition.json`: the barrier of an operation, or a file that is none. -/
inductive Barrier where
  | malformed
  | owned (operationId : Id)
  deriving DecidableEq

/-- `readStoreSnapshot` of the policy store: its number of agents with stored limits and its token. -/
inductive PolicyStore where
  | unreadable (diagnostic : Str)
  | absent
  | valid (agents : Nat) (token : Json)
  deriving DecidableEq

/-- What the downgrade acts on. `created` and `removed` record the IDs of the Boxes that it created
and that it applied `removeBox` to. -/
structure Site where
  snapshots : List (Str × Json)
  receipts : List (Id × Id)
  barrier : Option Barrier
  policy : PolicyStore
  records : Str → Json
  box : Option Box
  issued : Nat
  created : List Id
  removed : List Id

/-- The host between two processes. `journals` records every journal that was durable. -/
structure World where
  site : Site
  journal : Option Journal
  journals : List Journal

/-- The host and the journal object of the running process. -/
structure Running where
  world : World
  journal : Journal

/-- The programs of a running process. -/
abbrev Step := Prog Running Failure

/-- What `startGraph` reports. -/
structure GraphOutcome where
  state : Str
  optionalPendingKeys : List Str
  refusedCount : Nat
  blockedCount : Nat
  deriving DecidableEq

/-- What a process finds: its engine, what verifying a Box of a configuration against a configuration
answers, what starting a graph reports, and its clock. -/
structure Effects where
  engineIdentity : Str
  hostKind : Str
  verifies : Json → Json → Bool → Bool
  graphOutcome : Json → GraphOutcome
  now : Str

/-! ## The calls -/

section Calls

variable (platform : Platform) (identity : Identity)

/-- A call that acts on the site. -/
def onSite {α : Type} (f : Site → Except Failure (α × Site)) : Step α := call fun s =>
  (f s.world.site).map fun result => (result.1, { s with world.site := result.2 })

/-- A query of the site. -/
def askSite {α : Type} (f : Site → Except Failure α) : Step α := ask fun s => f s.world.site

/-- `store.writeJournal(journal)`. -/
def writeJournal : Step Unit := call fun s =>
  (validateJournal identity s.journal).map fun _ => ((), { s with
    world.journal := some s.journal
    world.journals := s.world.journals ++ [s.journal] })

/-- Change the journal object. -/
def amend (changes : Journal → Journal) : Step Unit :=
  alter fun s => { s with journal := changes s.journal }

/-- `persist(ctx, journal, changes)`. -/
def persist (changes : Journal → Journal) : Step Unit := do
  amend changes
  writeJournal identity

/-- `intent(ctx, journal, nextAction, effect, fn)`. -/
def intent {α : Type} (action : Action) (act : Step α) : Step α := do
  persist identity fun journal => { journal with nextAction := some action }
  act

/-- `store.writeSnapshot(value)`. -/
def writeSnapshot (value : Json) : Step Str :=
  onSite fun site => .ok (digestOf platform value,
    { site with snapshots := (digestOf platform value, value) :: site.snapshots })

/-- The snapshot of a reference. -/
def snapshotAt (ref : Str) (site : Site) : Except Failure Json :=
  if isRef ref = false then .error (blockedError "snapshot reference is invalid")
  else match site.snapshots.lookup ref with
    | none => .error (blockedError (lit "snapshot " ++ ref ++ lit " is missing"))
    | some value =>
      if digestOf platform value = ref then .ok value
      else .error (blockedError (lit "snapshot " ++ ref ++ lit " does not match its digest"))

/-- `store.readSnapshot(ref)`. -/
def readSnapshot (ref : Str) : Step Json := askSite (snapshotAt platform ref)

/-- `store.readReceipt(attemptId)`. -/
def readReceipt (attemptId : Id) : Step (Option Id) :=
  askSite fun site => .ok (site.receipts.lookup attemptId)

/-- `readBarrier({ paths })`. -/
def readBarrier : Step (Option Barrier) := askSite fun site => .ok site.barrier

/-- `requireValid(readStoreSnapshot(...))` and the test that no limits are stored: the token. -/
def emptyPolicyToken : PolicyStore → Except Failure Json
  | .unreadable diagnostic => .error ⟨"store_unreadable",
      lit "The hardware policy store cannot be read safely: " ++ diagnostic ++ lit "."⟩
  | .absent => .error ⟨"store_unreadable", "The hardware policy store has not been initialized."⟩
  | .valid 0 token => .ok token
  | .valid agents _ => .error ⟨"stored_limits_present", ofNat agents ++
      lit (" agents have stored hardware limits. Turn the gate on with " ++
        "PLOINKY_BOX_HARDWARE_LIMITS=on ploinky restart, or run ploinky limits clear --agent REPO/AGENT or " ++
        "ploinky limits clear --all on the host. No Box mutation was performed.")⟩

/-- The host with the barrier of the operation, and the token of the policy. -/
def installed (operationId : Id) (site : Site) : Except Failure (Json × Site) :=
  match emptyPolicyToken site.policy with
  | .error error => .error error
  | .ok token =>
    if site.barrier ≠ none ∧ site.barrier ≠ some (.owned operationId) then
      .error ⟨"hardware_limits_transition", "Another hardware transition barrier is pending."⟩
    else .ok (token, { site with barrier := some (.owned operationId) })

/-- `beginDowngradeBarrier({ paths, identity, operationId })`. -/
def beginDowngradeBarrier (operationId : Id) : Step Json := onSite (installed operationId)

/-- The test of `requireEmpty`. -/
def requiredPolicy (requireEmpty : Bool) (policy : PolicyStore) : Except Failure Unit :=
  if requireEmpty then (emptyPolicyToken policy).map fun _ => () else .ok ()

/-- The host without the barrier of the operation. -/
def lifted (operationId : Id) (requireEmpty : Bool) (site : Site) : Except Failure (Unit × Site) :=
  match site.barrier with
  | none => .ok ((), site)
  | some barrier =>
    if barrier ≠ .owned operationId then .error ⟨"hardware_limits_transition",
      "The pending transition barrier belongs to another operation."⟩
    else (requiredPolicy requireEmpty site.policy).map fun _ => ((), { site with barrier := none })

/-- `removeDowngradeBarrier({ paths, identity, operationId, requireEmpty })`. -/
def removeDowngradeBarrier (operationId : Id) (requireEmpty : Bool) : Step Unit :=
  onSite (lifted operationId requireEmpty)

/-- `randomHex()`. -/
def randomHex : Step Id := do
  let id ← look (·.world.site.issued)
  alter fun s => { s with world.site.issued := s.world.site.issued + 1 }
  return id

/-- `effects.inspectBox()`. -/
def inspectBox : Step (Option Box) := askSite fun site => .ok site.box

/-- The error of the engine for a container that is not there. -/
def noSuchContainer : Failure := ⟨"", "no such container"⟩

/-- An action of the engine on the container with the ID. -/
def onBox {α : Type} (id : Id) (f : Box → α × Option Box) : Step α := onSite fun site =>
  match site.box with
  | none => .error noSuchContainer
  | some box =>
    if box.id = id then .ok ((f box).1, { site with box := (f box).2 }) else .error noSuchContainer

/-- `effects.stopGraph(id)`. -/
def stopGraph (id : Id) : Step Unit := onBox id fun box => ((), some { box with graph := false })

/-- `effects.stopBox(id)`. -/
def stopBox (id : Id) : Step Unit :=
  onBox id fun box => ((), some { box with running := false, graph := false })

/-- `effects.removeBox(id)`. -/
def removeBox (id : Id) : Step Unit := do
  alter fun s => { s with world.site.removed := s.world.site.removed ++ [id] }
  onBox id fun _ => ((), none)

/-- `effects.startBox(id)`. -/
def startBox (id : Id) : Step Unit := onBox id fun box => ((), some { box with running := true })

/-- `effects.prepareBox(id, configuration)`. -/
def prepareBox (id : Id) : Step Unit := onBox id fun box => ((), some box)

/-- `effects.startGraph(id, graph)`. -/
def startGraph (effects : Effects) (id : Id) (graph : Json) : Step GraphOutcome :=
  onBox id fun box => (effects.graphOutcome graph, some { box with graph := true })

/-- `effects.graphRunning(id)`. -/
def graphRunning (id : Id) : Step Bool :=
  askSite fun site => .ok (site.box.any fun box => box.id == id && box.running && box.graph)

/-- `effects.verifyBox(id, configuration, { retainedOriginal })`. -/
def verifyBox (effects : Effects) (id : Id) (configuration : Json) (retainedOriginal : Bool) : Step Bool :=
  askSite fun site => .ok (site.box.any fun box =>
    box.id == id && effects.verifies box.configuration configuration retainedOriginal)

/-- The engine creates a container under the name of the Box, with a new ID. -/
def createContainer (configuration : Json) : Step Id := onSite fun site =>
  match site.box with
  | some _ => .error ⟨"", "the container name is already in use"⟩
  | none => .ok (site.issued, { site with
      box := some ⟨site.issued, false, false, configuration⟩
      issued := site.issued + 1
      created := site.created ++ [site.issued] })

/-- The engine writes the ID of the container into the receipt. -/
def writeReceipt (attemptId id : Id) : Step Unit := onSite fun site =>
  .ok ((), { site with receipts := (attemptId, id) :: site.receipts })

/-- `effects.createBox(configuration, { receiptPath, attemptId })`. -/
def createBox (configuration : Json) (attemptId : Id) : Step Unit := do
  let id ← createContainer configuration
  writeReceipt attemptId id

/-- `effects.writeHostRecord(name, value)`. -/
def writeHostRecord (name : Str) (value : Json) : Step Unit := onSite fun site =>
  .ok ((), { site with records := Function.update site.records name value })

end Calls

end Ploinky.Downgrade
