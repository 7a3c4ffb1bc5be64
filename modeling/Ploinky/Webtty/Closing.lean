import Ploinky.Js.Json
import Ploinky.Lib.AssocList

/-!
# Closing a terminal session

The embedding of `finishCloseSession` of the WebTTY session manager, from the moment it takes the session
out of the table to its `finally`, with the switches that a clean-up failure turns off. Between two of its
awaits the close runs without interruption, so that a stage stands for the await it is at, with the
variables that are read later, and an outcome for what the awaited call gave. The reports of the worker
come at any time before the worker client has seen the exit of its process.
-/

namespace Ploinky.Webtty

open Js

inductive TargetKind where
  | box
  | agent
  deriving DecidableEq

/-- The identity of the container of an agent terminal. -/
structure TargetIdentity where
  runtime : Str
  containerId : Str
  containerName : Str
  instanceId : Str
  enableGeneration : Str
  deriving DecidableEq

structure Target where
  kind : TargetKind
  identity : TargetIdentity
  deriving DecidableEq

/-- `text || other`. -/
def orText (text : Str) (other : String) : Str := if text.isEmpty then lit other else text

def agentStartKey (target : TargetIdentity) : Str :=
  if target.runtime.isEmpty || target.containerId.isEmpty then []
  else target.runtime ++ lit ":" ++ target.containerId

def agentTargetKey (target : TargetIdentity) : Str :=
  if (agentStartKey target).isEmpty || target.enableGeneration.isEmpty then []
  else agentStartKey target ++ lit ":" ++ target.enableGeneration

/-- The switches of the manager that are turned off when a clean-up is not proven. -/
structure Safety where
  ready : Bool
  disabledCategory : Str
  agentProviderReady : Bool
  agentProviderDisabledCategory : Str
  quarantinedAgentTargets : List (Str × Str)
  quarantinedAgentContainers : List Str
  deriving DecidableEq

namespace Safety

def isAgentTargetQuarantined (safety : Safety) (target : TargetIdentity) : Bool :=
  !(agentTargetKey target).isEmpty && !(agentStartKey target).isEmpty &&
    ((safety.quarantinedAgentTargets.lookup (agentTargetKey target)).isSome ||
      safety.quarantinedAgentContainers.contains (agentStartKey target))

def disableForUnprovenCleanup (safety : Safety) (category : Str) : Safety :=
  { safety with ready := false, disabledCategory := orText category "cleanup_unproven" }

def disableAgentProvider (safety : Safety) (category : Str) : Safety :=
  { safety with
    agentProviderReady := false
    agentProviderDisabledCategory := orText category "provider_unavailable" }

def quarantineAgentTarget (safety : Safety) (target : TargetIdentity) (category : Str) : Safety :=
  if (agentTargetKey target).isEmpty then safety.disableAgentProvider "target_identity_unclassifiable"
  else
    { safety with
      quarantinedAgentTargets := AssocList.set safety.quarantinedAgentTargets
        (agentTargetKey target, orText category "cleanup_unproven")
      quarantinedAgentContainers := safety.quarantinedAgentContainers ++ [agentStartKey target] }

end Safety

/-- How far a clean-up failure reaches. -/
inductive Scope where
  | target
  | provider
  | global
  deriving DecidableEq

/-- `CLEANUP_FAILURE_SCOPE_RANK`, with no scope at 0. -/
def scopeRank : Option Scope → Nat
  | none => 0
  | some .target => 1
  | some .provider => 2
  | some .global => 3

inductive PtyState where
  | workerOnly
  | ptyStarting
  | ptyReady
  deriving DecidableEq

/-- The recovery record of a session, as far as the manager reads it. -/
structure Record where
  targetKind : TargetKind
  target : Option TargetIdentity
  ptyState : PtyState
  deriving DecidableEq

inductive Closure where
  | pending
  | proven
  | unconfirmed
  deriving DecidableEq

structure Tombstone where
  closure : Closure
  closureScope : Option Scope
  recordCleanupFailed : Bool
  deriving DecidableEq

structure CloseOptions where
  workerExited : Bool
  preserveRecord : Bool
  deriving DecidableEq

/-- The await that `finishCloseSession` is at. -/
inductive CloseStage where
  /-- Not called: there is no `closePromise`. -/
  | idle
  /-- At `worker.close()`, called because the session was starting. -/
  | cancelling (options : CloseOptions)
  /-- At `startupFinished`. -/
  | awaitingStartup (options : CloseOptions)
  /-- At `worker.close()`, with the session out of the table. -/
  | closingWorker (options : CloseOptions)
  /-- At `worker.waitForExit()`. -/
  | waitingExit (options : CloseOptions)
  /-- At the record write with this number. -/
  | flushing (options : CloseOptions) (exited : Bool) (awaited : Nat)
  /-- At `recordStore.recoverHandle(…)`. -/
  | recovering (options : CloseOptions)
  /-- At `recordStore.confirmReclaimed(…)`. -/
  | reclaiming (options : CloseOptions)
  /-- At `recordStore.remove(…)`. -/
  | removing
  | finished
  deriving DecidableEq

structure Session where
  target : Target
  /-- `recordHandle.record`. -/
  record : Option Record
  initRequested : Bool
  preserveRecord : Bool
  terminalCleanupProven : Bool
  cleanupFailureScope : Option Scope
  startupInProgress : Bool
  startupCancellation : Str
  closing : Bool
  closed : Bool
  released : Bool
  /-- How often the reservation of the quota was given back. -/
  givenBack : Nat
  tombstone : Option Tombstone
  /-- The number of the last write of clean-up evidence that was queued. -/
  recordWrites : Nat
  /-- `exited` of the worker client. -/
  workerExited : Bool
  stage : CloseStage
  /-- Not a field of the source: the worker has reported that the terminal may not be reclaimed. -/
  reported : Bool
  /-- Not a field of the source: the record store has proven that the terminal is reclaimed. -/
  reclaimed : Bool
  deriving DecidableEq

/-- What `recordStore.recoverHandle` gives: a result, or an error by its scope. -/
inductive Recovery where
  | returned (recovered : Bool) (category : Str) (scope : Option Scope)
  | threw (provider : Bool)
  deriving DecidableEq

/-- What `recordStore.confirmReclaimed` gives. -/
inductive Reclamation where
  | returned (proven : Bool)
  | threw (provider : Bool)
  deriving DecidableEq

/-- What the awaited call of a close gives. -/
inductive CloseOutcome where
  /-- `worker.close()` or `startupFinished` is over. -/
  | settled
  /-- `waitForExit()` returned this; an error counts as `false`. -/
  | exited (confirmed : Bool)
  | written (rejected : Bool)
  | recovered (result : Recovery)
  | reclaimed (result : Reclamation)
  /-- `remove(…)` returned this, or threw. -/
  | removed (result : Option Bool)
  deriving DecidableEq

/-- The outcome proves that the terminal is reclaimed. -/
def CloseOutcome.proves : CloseOutcome → Bool
  | .recovered (.returned true _ _) => true
  | .reclaimed (.returned true) => true
  | _ => false

namespace Session

def isAgent (s : Session) : Bool := s.target.kind = .agent

def hasScopedAgentRecoveryRecord (s : Session) : Bool :=
  match s.record with
  | some { targetKind := .agent, target := some recorded, ptyState := _ } =>
    s.isAgent && !(agentTargetKey recorded).isEmpty && !recorded.containerName.isEmpty &&
      !recorded.instanceId.isEmpty && recorded = s.target.identity
  | _ => false

def noteCleanupFailure (s : Session) (scope : Scope) : Session :=
  if scopeRank s.cleanupFailureScope < scopeRank (some scope) then { s with cleanupFailureScope := some scope }
  else s

def settleClosure (s : Session) (closure : Closure) (recordCleanupFailed : Bool) : Session :=
  match s.tombstone with
  | some tombstone =>
    if tombstone.closure = .pending then
      { s with
        tombstone := some {
          closure
          closureScope := if closure = .unconfirmed then s.cleanupFailureScope else tombstone.closureScope
          recordCleanupFailed := recordCleanupFailed || tombstone.recordCleanupFailed } }
    else s
  | none => s

/-- The `finally` of `finishCloseSession`. -/
def finish (s : Session) : Session :=
  let s := s.settleClosure .unconfirmed false
  { s with
    closed := true
    closing := false
    released := true
    givenBack := if s.released then s.givenBack else s.givenBack + 1
    stage := .finished }

/-- The part of the close that takes the session out of service, up to the first await. -/
def retire (s : Session) (options : CloseOptions) : Session :=
  { s with
    closing := true
    tombstone := some ⟨.pending, none, false⟩
    stage := if options.workerExited then .flushing options true s.recordWrites else .closingWorker options }

/-- The end of a close whose session is clean, or whose failure was noted before. -/
def finishClean (s : Session) (recordCleanupFailed : Bool) : Session :=
  (s.settleClosure (if s.cleanupFailureScope.isNone then .proven else .unconfirmed) recordCleanupFailed).finish

def finishUnconfirmed (s : Session) (scope : Scope) : Session :=
  let s := { s with preserveRecord := true }.noteCleanupFailure scope
  (s.settleClosure .unconfirmed false).finish

variable (safety : Safety)

/-- What a close does once it has its evidence. -/
def conclude (s : Session) (options : CloseOptions) (exited cleanupProven : Bool)
    (cleanupFailureCategory : Str) (cleanupFailureScope : Option Scope) (recordAlreadyRemoved : Bool) :
    Safety × Session :=
  let mustPreserve := options.preserveRecord || s.preserveRecord || !cleanupProven
  if !exited then
    if s.isAgent then (safety.disableAgentProvider "worker_exit_unconfirmed", s.finishUnconfirmed .provider)
    else (safety.disableForUnprovenCleanup "worker_exit_unconfirmed", s.finishUnconfirmed .global)
  else if (s.record.isSome || s.initRequested) && mustPreserve then
    let category := if !cleanupFailureCategory.isEmpty then cleanupFailureCategory
      else if s.preserveRecord then orText safety.disabledCategory "terminal_cleanup_unproven"
      else lit "terminal_cleanup_unproven"
    if !s.isAgent || cleanupFailureScope = some .global then
      (safety.disableForUnprovenCleanup category, s.finishUnconfirmed .global)
    else if cleanupFailureScope = some .provider then
      (safety.disableAgentProvider category, s.finishUnconfirmed .provider)
    else (safety.quarantineAgentTarget s.target.identity category, s.finishUnconfirmed .target)
  else if s.record.isSome && !recordAlreadyRemoved then (safety, { s with stage := .removing })
  else (safety, s.finishClean false)

/-- What a close does when no record write is pending. -/
def gatherEvidence (s : Session) (options : CloseOptions) (exited : Bool) :
    Safety × Session :=
  let ptyState := s.record.map Record.ptyState
  if exited && s.isAgent && !options.preserveRecord && !s.preserveRecord &&
      (ptyState = some .ptyStarting || ptyState = some .ptyReady) then
    (safety, { s with stage := .recovering options })
  else if exited && s.record.isSome && ptyState ≠ some .ptyStarting then
    (safety, { s with stage := .reclaiming options })
  else conclude safety s options exited s.terminalCleanupProven [] none false

/-- The handling of a record write: a rejected one fails the clean-up, and a later one is awaited. -/
def afterWrite (s : Session) (options : CloseOptions) (exited : Bool) (awaited : Nat)
    (rejected : Bool) : Safety × Session :=
  let safety := if rejected then safety.disableForUnprovenCleanup "recovery_record_write_failed" else safety
  let s := if rejected then { s with preserveRecord := true }.noteCleanupFailure .global else s
  if awaited = s.recordWrites then gatherEvidence safety s options exited
  else (safety, { s with stage := .flushing options exited s.recordWrites })

def afterRecovery (s : Session) (options : CloseOptions) :
    Recovery → Safety × Session
  | .returned true _ _ => conclude safety s options true true [] none true
  | .returned false category scope =>
    let category := orText category "agent_crash_recovery_unproven"
    let scope := scope.getD .target
    let unscoped := !s.hasScopedAgentRecoveryRecord
    let category := if unscoped && category = lit "agent_record_remove_unconfirmed" then
      lit "recovery_record_remove_unconfirmed" else category
    let scope := if unscoped then .global else scope
    let safety := if scope = .provider then safety.disableAgentProvider category else safety
    conclude safety s options true false category (some scope) false
  | .threw provider =>
    let category := lit "agent_crash_recovery_failed"
    let scope := if !s.hasScopedAgentRecoveryRecord then .global
      else if provider then .provider else .target
    let safety := if scope = .provider then safety.disableAgentProvider category else safety
    conclude safety s options true false category (some scope) false

def afterReclamation (s : Session) (options : CloseOptions) :
    Reclamation → Safety × Session
  | .returned proven => conclude safety s options true proven [] none false
  | .threw provider =>
    let category := lit "terminal_reclamation_check_failed"
    let scope := if s.isAgent then some (if provider then .provider else .target) else none
    let safety := if scope = some .provider then safety.disableAgentProvider category else safety
    conclude safety s options true false category scope false

def afterRemoval (s : Session) : Option Bool → Safety × Session
  | some true => (safety, s.finishClean false)
  | failed =>
    -- `disableForRecordRemovalFailure`
    let kept := { s with preserveRecord := true }
    let suffix := if failed.isSome then lit "record_remove_unconfirmed" else lit "record_remove_failed"
    if kept.hasScopedAgentRecoveryRecord then
      (safety.disableAgentProvider (lit "agent_" ++ suffix), kept.finishClean true)
    else (safety.disableForUnprovenCleanup (lit "recovery_" ++ suffix), kept.finishClean true)

/-- The close of a session that is out of the table goes on with the outcome of the call it awaits. -/
def continueClose (s : Session) (outcome : CloseOutcome) : Option (Safety × Session) :=
  match s.stage, outcome with
  | .closingWorker options, .settled => some (safety, { s with stage := .waitingExit options })
  | .waitingExit options, .exited confirmed =>
    -- the client says so only when it has seen the exit
    if confirmed && !s.workerExited then none
    else some (safety, { s with stage := .flushing options confirmed s.recordWrites })
  | .flushing options exited awaited, .written rejected =>
    some (afterWrite safety s options exited awaited rejected)
  | .recovering options, .recovered result => some (afterRecovery safety s options result)
  | .reclaiming options, .reclaimed result => some (afterReclamation safety s options result)
  | .removing, .removed result => some (afterRemoval safety s result)
  | _, _ => none

/-- The same, with a proof of the outcome noted. -/
def resumeClose (s : Session) (outcome : CloseOutcome) : Option (Safety × Session) :=
  { s with reclaimed := s.reclaimed || outcome.proves }.continueClose safety outcome

end Session

/-- The categories of a `terminal-error` of the worker that the manager tells apart. -/
inductive ErrorCategory where
  | cleanupUnproven
  | cleanupProviderUnproven
  | providerEvidence
  | targetEvidence
  | other (category : Str)
  deriving DecidableEq

namespace ErrorCategory

def text : ErrorCategory → Str
  | cleanupUnproven => lit "cleanup-unproven"
  | cleanupProviderUnproven => lit "cleanup-provider-unproven"
  | providerEvidence => lit "provider-evidence"
  | targetEvidence => lit "target-evidence"
  | other category => orText category "error"

/-- The worker reports that the terminal may not be reclaimed. -/
def unproven (category : ErrorCategory) : Bool :=
  category = cleanupUnproven || category = cleanupProviderUnproven

end ErrorCategory

/-- What the handler of `terminal-error` does before it closes the session. -/
def Session.onTerminalError (safety : Safety) (s : Session) (category : ErrorCategory) : Safety × Session :=
  let provider := category = .cleanupProviderUnproven
  if category.unproven then
    let scope := if !s.isAgent then .global else if provider then .provider else .target
    let noted := { s with preserveRecord := true, reported := true }.noteCleanupFailure scope
    let safety := if !s.isAgent then safety.disableForUnprovenCleanup category.text
      else if provider then safety.disableAgentProvider category.text
      else safety.quarantineAgentTarget s.target.identity category.text
    (safety, { noted with recordWrites := noted.recordWrites + 1 })
  else if s.isAgent && category = .providerEvidence then (safety.disableAgentProvider category.text, s)
  else if s.isAgent && category = .targetEvidence then
    (safety.quarantineAgentTarget s.target.identity category.text, s)
  else (safety, s)

end Ploinky.Webtty
