import Ploinky.Js.Text
import Ploinky.Js.Json
import Ploinky.Lib.Durable

/-!
# The replacement of a Box

`replaceBoxContainer` is the part of `reconcileBoxContainer` from the point at which a Box is to be
created or replaced: the old Box is stopped and removed, a candidate is created, and a failure removes
the candidate and restores the old Box. The calls that can fail are named by their place in the source,
and a script says of each of them whether it goes through, throws, or has its effect and throws.

The variables of the function live in the state, since the handler reads what the failed part has set.
-/

namespace Ploinky.Box

open Ploinky Js Durable Durable.Prog

/-- The immutable IDs of containers. -/
abbrev Id := Nat

/-- `achillesAgentLib` of a Box: the package of its image, or a source directory. -/
inductive AgentLib where
  | image
  | source (sourceDir : Str)
  deriving DecidableEq

/-- What a Box is created from. `settings` are the ports, the binding, the GPU wiring, the repository
source and the network mode. -/
structure Contract where
  imageId : Str
  imageRef : Str
  agentLib : AgentLib
  hardware : Option Json
  settings : Json
  deriving DecidableEq

/-- A container under the name of the Box. -/
structure Container where
  id : Id
  imageId : Str
  running : Bool
  deriving DecidableEq

/-- `observed.state`, with the container of an owned Box. -/
inductive Presence where
  | absent
  | owned (container : Container)
  | other
  deriving DecidableEq

/-- The old Box. -/
structure OldBox where
  containerId : Id
  running : Bool
  contract : Contract
  deriving DecidableEq

/-- What is to be done: the old Box, when there is one, and the contract of the new one. -/
structure Plan where
  old : Option OldBox
  desired : Contract

/-- `failure.boxRollback`. -/
structure BoxRollback where
  action : Str
  containerId : Option Id
  oldStopAttempted : Bool
  old : Option OldBox
  deriving DecidableEq

/-- An error of the transaction. -/
structure Failure where
  message : Str
  rollbackFailed : Bool
  boxRollback : Option BoxRollback
  deriving DecidableEq

/-- The calls of `createAndStart`, in their order. -/
inductive CreateCall where
  | assertHeld | revalidateDataPaths | resolveDataSources | discover | retireStartLock
  | retireEdgePreparation | cleanCidfile | localCandidate | confine | create | readCidfile
  | recoverCidfile | removeCidfile | startAndWaitReady | discoverFinal | validateFinal
  deriving DecidableEq

/-- The calls of the replacement, of its handler and of `rollback`. -/
inductive Site where
  | localCandidate | quiescentRunning | stopPloinkyLocal | stopContainer | quiescent | removeOld
  | recheckReleased | resolveDataSources | ensureDataPaths | candidate (call : CreateCall)
  | observeCandidate | recoverCandidate | removeCandidate | probeAgentLib | gateOffRestore
  | restore (call : CreateCall) | rollbackLock | rollbackDiscover
  deriving DecidableEq

/-- The state of a transaction: the script, the engine and the workspace, and the variables of
`reconcileBoxContainer`. `oldGone` and `restoreAttempted` record that the old container was removed and
that `restoreOldContainer` was called. -/
structure Txn where
  script : Site → Reply Failure
  presence : Presence
  sameEngine : Bool
  suppliedIntact : Bool
  localCandidate : Bool
  issued : Nat
  candidateId : Option Id
  candidateAttempted : Bool
  oldStopAttempted : Bool
  oldRemoved : Bool
  settled : Bool
  oldGone : Bool
  restoreAttempted : Bool

/-- The programs of a transaction. -/
abbrev Step := Prog Txn Failure

/-- `transactionError(message)`. -/
def transactionError (message : Str) : Failure := ⟨message, false, none⟩

/-- `failures.join('; ')`. -/
def joined : List Str → Str
  | [] => []
  | [failure] => failure
  | failure :: rest => failure ++ lit "; " ++ joined rest

/-- `transactionError(message, cause, rollbackFailures)`. -/
def rollbackError (message : Str) (cause : Option Failure) (rollbackFailures : List Str) : Failure :=
  let suffix := match cause with
    | none => []
    | some cause => if cause.message = [] then [] else lit ": " ++ cause.message
  let failures := if rollbackFailures = [] then []
    else lit "; rollback failures: " ++ joined rollbackFailures
  ⟨message ++ suffix ++ failures, !rollbackFailures.isEmpty, none⟩

/-! ## The calls -/

/-- A call with an effect. -/
def callAt {α : Type} (site : Site) (f : Txn → Except Failure (α × Txn)) : Step α :=
  scripted (·.script site) f

/-- A call that only checks. -/
def check (site : Site) : Step Unit := callAt site fun s => .ok ((), s)

/-- `dependencies.discover(identity, { runner })`. -/
def discover (site : Site) : Step Presence := callAt site fun s => .ok (s.presence, s)

/-- `localCandidateExists(...)`, and the error when there is one. -/
def refuseLocalCandidate (site : Site) : Step Unit := do
  let found ← callAt site fun s => .ok (s.localCandidate, s)
  whenDo (found = true) (raise (transactionError
    "A local AchillesAgentLib source appeared after image selection; run the command again"))

/-- The error of the engine for a container that is not there. -/
def noSuchContainer : Failure := transactionError "no such container"

/-- An action on the container with the ID. -/
def actOn (id : Id) (f : Container → Txn → Txn) (s : Txn) : Except Failure (Unit × Txn) :=
  match s.presence with
  | .owned container => if container.id = id then .ok ((), f container s) else .error noSuchContainer
  | _ => .error noSuchContainer

/-- A call to the engine for an action on the container with the ID. -/
def onContainer (site : Site) (id : Id) (f : Container → Txn → Txn) : Step Unit :=
  callAt site (actOn id f)

/-- `container create`. -/
def createContainer (site : Site) (contract : Contract) : Step Id := callAt site fun s =>
  match s.presence with
  | .absent => .ok (s.issued,
      { s with presence := .owned ⟨s.issued, contract.imageId, false⟩, issued := s.issued + 1 })
  | _ => .error (transactionError "the container name is already in use")

/-! ## Creating a Box -/

variable (part : CreateCall → Site)

/-- The ID in the file of the engine, or, when it cannot be read, the ID of the Box of the image. -/
def createdId (contract : Contract) (created : Id) : Step Id :=
  attempt (callAt (part .readCidfile) fun s => .ok (created, s)) fun cidfileError => do
    let recovered ← discover (part .recoverCidfile)
    match recovered with
    | .owned container =>
      if container.imageId = contract.imageId then return container.id else raise cidfileError
    | _ => raise cidfileError

/-- The container of the final discovery. -/
def validateFinal (presence : Presence) : Step Container :=
  callAt (part .validateFinal) fun s =>
    match presence with
    | .owned container => .ok (container, s)
    | _ => .error (transactionError "Box is not owned after creation")

/-- The part of `createAndStart` before a container is attempted. -/
def openCreation (contract : Contract) (restoring : Bool) : Step Unit := do
  check (part .assertHeld)
  check (part .revalidateDataPaths)
  check (part .resolveDataSources)
  let observed ← discover (part .discover)
  let sameEngine ← look (·.sameEngine)
  whenDo (observed ≠ .absent ∨ sameEngine = false) (raise
    (transactionError "Box must be absent before workspace lifecycle cleanup and creation"))
  check (part .retireStartLock)
  check (part .retireEdgePreparation)
  check (part .cleanCidfile)
  whenDo (restoring = false ∧ contract.agentLib = .image) (refuseLocalCandidate (part .localCandidate))

/-- The part of `createAndStart` that creates the container, starts it and validates it. -/
def finishCreation (contract : Contract) : Step (Id × Container) := do
  check (part .confine)
  let created ← createContainer (part .create) contract
  let containerId ← finallyDo (createdId part contract created) (check (part .removeCidfile))
  onContainer (part .startAndWaitReady) containerId fun container s =>
    { s with presence := .owned { container with running := true } }
  let finalOwnership ← discover (part .discoverFinal)
  let handle ← validateFinal part finalOwnership
  if handle.id ≠ containerId then
    raise (transactionError "Created Box immutable ID changed during final validation")
  else return (containerId, handle)

/-- `createAndStart({ ... })`. -/
def createAndStart (contract : Contract) (restoring : Bool)
    (beforeCreate : Step Unit) : Step (Id × Container) := do
  openCreation part contract restoring
  beforeCreate
  finishCreation part contract

/-- The package of the old Box must still be the one it was admitted with. -/
def verifySupplied (agentLib : AgentLib) : Step Unit := do
  let intact ← callAt .probeAgentLib fun s => .ok (s.suppliedIntact, s)
  whenDo (intact = false) (raise (transactionError (match agentLib with
    | .image => "Refusing to restore the old Box because its AchillesAgentLib image changed"
    | .source sourceDir => lit "Refusing to restore the old Box because its achillesAgentLib source at " ++
        sourceDir ++ lit " changed")))

/-- `restoreOldContainer({ ... })`. -/
def restoreOldContainer (old : OldBox) : Step (Id × Container) := do
  alter fun s => { s with restoreAttempted := true }
  verifySupplied old.contract.agentLib
  whenDo (old.contract.hardware = none) (check .gateOffRestore)
  createAndStart .restore old.contract true (ret ())

/-! ## The replacement -/

/-- The running old Box is stopped. -/
def stopOld (old : OldBox) : Step Unit := do
  check .quiescentRunning
  alter fun s => { s with oldStopAttempted := true }
  check .stopPloinkyLocal
  onContainer .stopContainer old.containerId fun container s =>
    { s with presence := .owned { container with running := false } }

/-- The old Box is removed. -/
def removeOld (old : OldBox) : Step Unit := do
  onContainer .removeOld old.containerId fun _ s => { s with presence := .absent, oldGone := true }
  alter fun s => { s with oldRemoved := true }
  check .recheckReleased

variable (plan : Plan)

/-- A program for the old Box, when there is one. -/
def forOld (p : OldBox → Step Unit) : Step Unit :=
  match plan.old with
  | none => ret ()
  | some old => p old

/-- `dependencies.ensureDataPaths(...)`, with its error named. -/
def ensureDataPaths : Step Unit :=
  attempt (check .ensureDataPaths) fun error =>
    raise (rollbackError "Workspace Box data preparation failed" (some error) [])

/-- The old Box is stopped and removed. -/
def retireOld : Step Unit := do
  whenDo (plan.desired.agentLib = .image) (refuseLocalCandidate .localCandidate)
  forOld plan fun old => whenDo (old.running = true) (stopOld old)
  check .quiescent
  forOld plan removeOld

/-- The candidate is created, and its ID is noted. -/
def createCandidate : Step Container := do
  check .resolveDataSources
  ensureDataPaths
  let created ← createAndStart .candidate plan.desired false
    (alter fun s => { s with candidateAttempted := true })
  alter fun s => { s with candidateId := some created.1 }
  check .observeCandidate
  return created.2

/-- The part of the transaction that may fail. -/
def replacement : Step Container := do
  retireOld plan
  createCandidate plan

/-- A candidate that was created without its ID being known. -/
def recoverCandidate : Step Unit := do
  let s ← look id
  whenDo (s.candidateId = none ∧ s.candidateAttempted = true ∧ (plan.old = none ∨ s.oldRemoved = true)) do
    let recovered ← discover .recoverCandidate
    match recovered with
    | .owned container =>
      whenDo (container.imageId = plan.desired.imageId)
        (alter fun s => { s with candidateId := some container.id })
    | _ => ret ()

/-- Removing a candidate: the failure, when it fails. -/
def removeCandidate (id : Id) : Step (List Str) :=
  attempt
    (do
      onContainer .removeCandidate id fun _ s => { s with presence := .absent }
      return [])
    fun error => ret [lit "candidate removal: " ++ error.message]

/-- Restoring the old Box: its outcome, and the failure, when it fails. -/
def attemptRestore (old : OldBox) : Step (Option (Id × Container) × List Str) :=
  attempt
    (do
      let restored ← restoreOldContainer old
      return (some restored, []))
    fun error => ret (none, [lit "old Box restoration: " ++ error.message])

/-- The candidate is removed when its ID is known. -/
def removeKnownCandidate : Step (List Str) := do
  let candidateId ← look (·.candidateId)
  match candidateId with
  | none => return []
  | some id => removeCandidate id

/-- What became of the old Box: the action, its container, and the failures. -/
def recovery (failures : List Str) : Step (Option (Str × Option Id) × List Str) := do
  let s ← look id
  match plan.old with
  | none =>
    if failures = [] then
      return (some (if s.candidateId = none then "untouched" else "candidate-removed", none), failures)
    else return (none, failures)
  | some old =>
    if s.oldRemoved then do
      let restored ← attemptRestore old
      return (restored.1.map fun restored => ("restored", some restored.1), failures ++ restored.2)
    else return (some ("preserved", some old.containerId), failures)

/-- The handler of the transaction. -/
def rejected {α : Type} (error : Failure) : Step α := do
  recoverCandidate plan
  let failures ← removeKnownCandidate
  let outcome ← recovery plan failures
  let oldStopAttempted ← look (·.oldStopAttempted)
  let action := (outcome.1.map Prod.fst).getD "failed"
  let containerId := outcome.1.bind Prod.snd
  raise { rollbackError "Box container transaction failed" (some error) outcome.2 with
    boxRollback := some ⟨action, containerId, oldStopAttempted, plan.old⟩ }

/-- The result of a transaction. -/
structure Reconciled where
  action : Str
  container : Container
  deriving DecidableEq

/-- `reconcileBoxContainer({ ... })`, for a Box that is to be created or replaced. -/
def replaceBoxContainer : Step Reconciled :=
  attempt
    (do
      let container ← replacement plan
      return ⟨if plan.old.isSome then "replaced" else "created", container⟩)
    (rejected plan)

/-! ## The rollback of a successful transaction -/

/-- The result of `rollback()`. -/
inductive RolledBack where
  | alreadySettled
  | restored (containerId : Id) (container : Container)
  | candidateRemoved
  deriving DecidableEq

/-- The candidate that is there is removed. -/
def rollbackCandidate (candidateId : Id) (observed : Presence) : Step (List Str) :=
  match observed with
  | .owned container =>
    if container.id ≠ candidateId then
      raise (transactionError (lit "Box changed before candidate rollback (" ++ ofNat container.id ++
        lit " != " ++ ofNat candidateId ++ lit ")"))
    else removeCandidate candidateId
  | _ => ret []

/-- The old Box is restored when the transaction had removed it. -/
def rollbackOld : Step (Option (Id × Container) × List Str) := do
  let oldRemoved ← look (·.oldRemoved)
  match plan.old with
  | none => return (none, [])
  | some old => if oldRemoved then attemptRestore old else return (none, [])

/-- The part of `rollback` after it has marked the transaction as settled. -/
def rollbackSettled (candidateId : Id) : Step RolledBack := do
  let observed ← discover .rollbackDiscover
  let failures ← rollbackCandidate candidateId observed
  let restored ← rollbackOld plan
  if failures ++ restored.2 ≠ [] then
    raise (rollbackError "Box post-reconcile rollback failed" none (failures ++ restored.2))
  else match restored.1 with
    | some restored => return .restored restored.1 restored.2
    | none => return .candidateRemoved

/-- `rollback()` of the result of a transaction. -/
def rollback (candidateId : Id) : Step RolledBack := do
  check .rollbackLock
  let settled ← look (·.settled)
  if settled then return .alreadySettled
  else do
    alter fun s => { s with settled := true }
    rollbackSettled plan candidateId

end Ploinky.Box
