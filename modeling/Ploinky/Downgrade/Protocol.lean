import Ploinky.Downgrade.Journal

/-!
# The downgrade and its recovery

`runHardwareDowngrade` goes forward to the decision for the gate-off Box and completes it; a failure
before the decision rolls back to the gate-on Box. `recoverHardwareDowngrades` is the fresh process that
takes up every journal that is still pending: it rolls a decided downgrade forward, and rolls an
undecided one back.
-/

namespace Ploinky.Downgrade

open Ploinky Js Durable Durable.Prog

variable (platform : Platform) (identity : Identity) (effects : Effects)

/-- The journal is blocked, with a problem when there is one to record. -/
def block {α : Type} (problem : Option Problem) (message : Str) : Step α := do
  persist identity fun journal =>
    { journal with phase := .recoveryBlocked, lastProblem := problem.or journal.lastProblem }
  raise (blockedError message)

/-- The journal is blocked by a foreign Box. -/
def blockForeign {α : Type} (id : Id) (action : Str) : Step α :=
  let message := lit "Box " ++ ofNat id ++ lit " is not owned by this transition"
  block identity (some ⟨"FOREIGN_BOX", message, some action⟩) (lit "Recovery is blocked: " ++ message)

/-- Change the last attempt. -/
def Journal.amendLast (journal : Journal) (change : Attempt → Attempt) : Journal :=
  { journal with attempts := journal.attempts.modifyLast change }

/-- `journal.attempts[journal.attempts.length - 1]`. -/
def Journal.lastAttempt (journal : Journal) : Option Attempt := journal.attempts.getLast?

/-- The result of a graph, as it is recorded. -/
def graphResult (id : Id) (outcome : GraphOutcome) : Json :=
  .obj [("schema", .num "1"), ("finalBoxId", .str (ofNat id)), ("state", .str outcome.state),
    ("requiredReady", .bool true),
    ("optionalPendingKeys", .arr ((outcome.optionalPendingKeys.take 32).map .str)),
    ("optionalPendingCount", .num (ofNat outcome.optionalPendingKeys.length)),
    ("refusedCount", .num (ofNat outcome.refusedCount)),
    ("blockedCount", .num (ofNat outcome.blockedCount)), ("observedAt", .str effects.now)]

/-- The graph of a candidate, when the old graph was running. -/
def startCandidateGraph (attemptId id : Id) : Step Unit := do
  let journal ← look (·.journal)
  let graph ← readSnapshot platform journal.desired.graphRef
  let outcome ← intent identity (.graph (some attemptId) id) (startGraph effects id graph)
  if outcome.state ∉ [lit "ready", lit "starting", lit "degraded"] then
    raise (transitionError "the gate-off graph did not reach a settled state")
  else do
    let ref ← writeSnapshot platform (graphResult effects id outcome)
    amend (·.amendLast fun attempt => { attempt with graphResultRef := some ref })

/-- The ID in the receipt of a candidate. -/
def receiptOf (attemptId : Id) : Step Id := do
  let observed ← readReceipt attemptId
  match observed with
  | none => raise (transitionError "the create receipt has no immutable container ID")
  | some id => return id

/-- A new attempt, recorded in the journal object. -/
def pushAttempt (stage : Stage) (configurationRef : Str) (configuration : Json) : Step Id := do
  let attemptId ← randomHex
  amend fun journal => { journal with attempts := journal.attempts ++
    [⟨attemptId, stage, configurationRef, digestOf platform configuration, none, none⟩] }
  return attemptId

/-- `createVerifiedCandidate(ctx, journal, configurationRef, stage)`. -/
def createVerifiedCandidate (configurationRef : Str) (stage : Stage) : Step Id := do
  let journal ← look (·.journal)
  if maxAttempts ≤ journal.attempts.length then
    block identity none "the downgrade exceeded its bounded create attempts"
  else do
    let configuration ← readSnapshot platform configurationRef
    let attemptId ← pushAttempt platform stage configurationRef configuration
    intent identity (.create attemptId configurationRef) (createBox configuration attemptId)
    let id ← receiptOf attemptId
    amend (·.amendLast fun attempt => { attempt with observedId := some id })
    persist identity fun journal => { journal with phase := .candidateCreated, nextAction := none }
    intent identity (.start (some attemptId) id) (startBox id)
    persist identity fun journal => { journal with phase := .candidateStarted, nextAction := none }
    whenDo journal.old.graphWasRunning (startCandidateGraph platform identity effects attemptId id)
    persist identity fun journal => { journal with phase := .candidateVerified, nextAction := none }
    return id

/-- The old graph and the old Box are stopped when they were running. -/
def stopOld : Step Unit := do
  let journal ← look (·.journal)
  let old := journal.old.containerId
  whenDo journal.old.wasRunning do
    whenDo journal.old.graphWasRunning (intent identity (.stopGraph old) (stopGraph old))
    intent identity (.stopBox old) (stopBox old)

/-- The internal reapply: the first candidate is replaced by one of the newly resolved target. -/
def reapply (candidateId : Id) : Step Id := do
  let journal ← look (·.journal)
  match journal.desired.reapplyConfigurationRef with
  | none => return candidateId
  | some configurationRef => do
      intent identity (.reapplyStop candidateId) (stopBox candidateId)
      intent identity (.reapplyRemove candidateId) (removeBox candidateId)
      createVerifiedCandidate platform identity effects configurationRef .reapply

/-- The decision for a result. -/
def Journal.decide (platform : Platform) (journal : Journal) (result : Decision) (finalContainerId : Id)
    (configurationRef : Str) (graphResultRef : Option Str) (value : HostRecord → Json) : Journal :=
  let decided : CommitIntent :=
    { result, finalAttemptId := journal.lastAttempt.map (·.attemptId), finalContainerId,
      configurationRef, graphResultRef,
      hostRecordsHash := digestOf platform (.arr (journal.hostRecords.map fun record =>
        .arr [.str record.name, value record])) }
  { journal with commitIntent := some decided }

/-- The checks before the decision, and the decision. -/
def decideDesired (candidateId : Id) : Step Unit := do
  let journal ← look (·.journal)
  let configurationRef := journal.desired.reapplyConfigurationRef.getD journal.desired.configurationRef
  let configuration ← readSnapshot platform configurationRef
  let verified ← verifyBox effects candidateId configuration false
  if verified = false then raise (transitionError "the gate-off candidate failed final verification")
  else do
    let barrier ← readBarrier
    if barrier ≠ some (.owned journal.operationId) then
      raise (transitionError "the downgrade barrier is no longer owned by this operation")
    else persist identity fun journal =>
      { Journal.decide platform journal .desiredOff candidateId configurationRef
          (journal.lastAttempt.bind (·.graphResultRef)) (·.next) with
        phase := .commitDecided, nextAction := none }

/-- `forwardToDecision(ctx, journal)`. -/
def forwardToDecision : Step Unit := do
  let journal ← look (·.journal)
  let old := journal.old.containerId
  let token ← intent identity .installBarrier (beginDowngradeBarrier journal.operationId)
  persist identity fun journal =>
    { journal with policyToken := some token, phase := .barrierInstalled, nextAction := none }
  stopOld identity
  persist identity fun journal => { journal with phase := .oldStopped, nextAction := none }
  intent identity (.removeOld old) (removeBox old)
  let observed ← inspectBox
  if observed.map (·.id) = some old then raise (transitionError "the old Box was not removed")
  else do
    persist identity fun journal => { journal with phase := .oldAbsent, nextAction := none }
    let candidateId ← createVerifiedCandidate platform identity effects journal.desired.configurationRef
      .candidate
    let finalId ← reapply platform identity effects candidateId
    decideDesired platform identity effects finalId

/-- A host record of the decision that was not written yet. -/
def commitRecord (index : Nat) : Step Unit := do
  let record ← look (·.journal.hostRecords[index]?)
  match record with
  | none => ret ()
  | some record =>
    if record.written then ret () else do
      intent identity (.writeRecord record.name) (writeHostRecord record.name record.next)
      amend fun journal =>
        { journal with hostRecords := journal.hostRecords.modify index ({ · with written := true }) }
      persist identity id

/-- `completeDecision(ctx, journal)`. -/
def completeDecision : Step Unit := do
  let journal ← look (·.journal)
  forEach (List.range journal.hostRecords.length) (commitRecord identity)
  persist identity fun journal => { journal with phase := .hostStateCommitted, nextAction := none }
  intent identity .removeBarrier (removeDowngradeBarrier journal.operationId true)
  persist identity fun journal => { journal with phase := .committed, nextAction := none }

/-- The attempts with the IDs of their Boxes, as far as they are known. -/
def ownedAttempts (attempts : List Attempt) (site : Site) : List (Id × Attempt) :=
  attempts.filterMap fun attempt =>
    (attempt.observedId.orElse fun _ => site.receipts.lookup attempt.attemptId).map (·, attempt)

/-- `new Map(pairs).get(id)`: the last pair counts. -/
def attemptOf (id : Id) (pairs : List (Id × Attempt)) : Option Attempt := pairs.reverse.lookup id

/-- The Box that a rollback finds: the old one, one that an earlier rollback created, or a candidate,
which is removed. The Box that is left, and the ID of the restored Box. -/
def settleObserved : Step (Option Box × Id) := do
  let journal ← look (·.journal)
  let pairs ← askSite fun site => .ok (ownedAttempts journal.attempts site)
  let observed ← inspectBox
  match observed with
  | none => return (none, journal.old.containerId)
  | some box =>
    if box.id = journal.old.containerId then return (some box, journal.old.containerId)
    else match attemptOf box.id pairs with
      | none => blockForeign identity box.id "rollback"
      | some attempt =>
        if attempt.stage = .rollback then do
          amend fun journal => { journal with attempts := journal.attempts.map fun other =>
            if other.attemptId = attempt.attemptId then { other with observedId := some box.id }
            else other }
          persist identity id
          return (some box, box.id)
        else do
          intent identity (.removeCandidate box.id) (removeBox box.id)
          let left ← inspectBox
          return (left, journal.old.containerId)

/-- The Box is created again from the old configuration: its ID. -/
def recreateOld (oldConfiguration : Json) : Step Id := do
  let journal ← look (·.journal)
  let attemptId ← pushAttempt platform .rollback journal.old.configurationRef oldConfiguration
  intent identity (.create attemptId journal.old.configurationRef) (createBox oldConfiguration attemptId)
  let receipt ← readReceipt attemptId
  match receipt with
  | none => block identity none "Recovery is blocked: the restored Box create has no receipt"
  | some restoredId => do
      amend (·.amendLast fun attempt => { attempt with observedId := some restoredId })
      persist identity id
      return restoredId

/-- A restored Box that is not the old one has lost its graph, unless the graph is observed. -/
def lostGraph (restoredId : Id) : Step Bool := do
  let journal ← look (·.journal)
  if restoredId ≠ journal.old.containerId ∧ journal.old.wasRunning = true then do
    let running ← graphRunning restoredId
    return !running
  else return false

/-- The restored Box is started when it is not running: whether it was. -/
def ensureStarted (restoredId : Id) : Step Bool := do
  let observed ← inspectBox
  if observed.any (·.running) then return false
  else do
    intent identity (.start none restoredId) (startBox restoredId)
    return true

/-- The graph of a Box is started. -/
def startGraphOf (id : Id) (graph : Json) : Step Unit := do
  let _ ← intent identity (.graph none id) (startGraph effects id graph)
  ret ()

/-- The graph of the restored Box is started when the Box was, or when it is not observed. -/
def ensureGraph (restoredId : Id) (graph : Json) (restarted : Bool) : Step Unit :=
  if restarted then startGraphOf identity effects restoredId graph
  else do
    let running ← graphRunning restoredId
    whenDo (running = false) (startGraphOf identity effects restoredId graph)

/-- The prior state of the restored Box. -/
def restoreRunning (restoredId : Id) (graph : Json) : Step Unit := do
  let journal ← look (·.journal)
  let lost ← lostGraph restoredId
  whenDo journal.old.wasRunning do
    let started ← ensureStarted identity restoredId
    intent identity (.prepare restoredId) (prepareBox restoredId)
    whenDo journal.old.graphWasRunning (ensureGraph identity effects restoredId graph (lost || started))

/-- The ID of the restored Box, which is created when there is none. -/
def restoredBox (oldConfiguration : Json) : Step Id := do
  let settled ← settleObserved identity
  match settled.1 with
  | none => recreateOld platform identity oldConfiguration
  | some _ => return settled.2

/-- The part of `rollback` before its decision. -/
def restoreOld : Step Unit := do
  persist identity fun journal => { journal with phase := .rollbackStarted, nextAction := none }
  let journal ← look (·.journal)
  let oldConfiguration ← readSnapshot platform journal.old.configurationRef
  let graph ← readSnapshot platform journal.old.graphRef
  let restoredId ← restoredBox platform identity oldConfiguration
  restoreRunning identity effects restoredId graph
  let verified ← verifyBox effects restoredId oldConfiguration (restoredId == journal.old.containerId)
  if verified = false then
    block identity none "Recovery is blocked: the restored Box does not match its recorded configuration"
  else do
    persist identity fun journal => { journal with phase := .rollbackVerified, nextAction := none }
    persist identity fun current =>
      Journal.decide platform current .restoredOld restoredId journal.old.configurationRef none (·.old)

/-- Nothing has happened yet: the journal is prepared and there is no barrier. -/
def untouched : Step Bool := do
  let journal ← look (·.journal)
  if journal.phase = .prepared then do
    let barrier ← readBarrier
    return barrier.isNone
  else return false

/-- The part of `rollback` after its decision. -/
def completeRollback : Step Unit := do
  let journal ← look (·.journal)
  forEach journal.hostRecords fun record =>
    intent identity (.writeRecord record.name) (writeHostRecord record.name record.old)
  intent identity .removeBarrier (removeDowngradeBarrier journal.operationId false)
  persist identity fun journal => { journal with phase := .rolledBack, nextAction := none }

/-- `rollback(ctx, journal)`. -/
def rollback : Step Unit := do
  let journal ← look (·.journal)
  if journal.result = some .desiredOff then
    raise (blockedError "a durable desired-off decision is never rolled back")
  else do
    let clean ← untouched
    if clean then
      persist identity fun journal => { journal with phase := .rolledBack, nextAction := none }
    else do
      whenDo (journal.result ≠ some .restoredOld) (restoreOld platform identity effects)
      completeRollback identity

/-! ## The two entry points -/

/-- A host record that the downgrade changes. -/
structure RecordChange where
  name : Str
  old : Json
  next : Json
  deriving DecidableEq

/-- The arguments of `runHardwareDowngrade`, and the ID that it draws for the operation. -/
structure Request where
  operationId : Id
  operation : Operation
  oldContainerId : Id
  oldConfiguration : Json
  desiredConfiguration : Json
  graphSnapshot : Json
  reapplyConfiguration : Option Json
  oldWasRunning : Bool
  oldGraphRunning : Bool
  hostRecords : List RecordChange

/-- The journal that a downgrade starts with. -/
def preparedJournal (request : Request) : Journal where
  operationId := request.operationId
  operation := request.operation
  identity := identity
  engineIdentity := effects.engineIdentity
  hostKind := effects.hostKind
  phase := .prepared
  nextAction := none
  policyToken := none
  old := ⟨digestOf platform request.oldConfiguration, digestOf platform request.graphSnapshot,
    request.oldWasRunning, request.oldGraphRunning, request.oldContainerId⟩
  desired := ⟨digestOf platform request.desiredConfiguration, digestOf platform request.graphSnapshot,
    request.reapplyConfiguration.map (digestOf platform)⟩
  attempts := []
  hostRecords := request.hostRecords.map fun change => ⟨change.name, change.old, change.next, false⟩
  commitIntent := none
  lastProblem := none

/-- A process with its journal object. -/
def withJournal {α : Type} (journal : Journal) (p : Step α) : Prog World Failure α :=
  zoom (fun world => ⟨world, journal⟩) (fun running _ => running.world) p

/-- The snapshot of the reapplied configuration, when there is one. -/
def writeReapply : Option Json → Step Unit
  | none => ret ()
  | some configuration => do
      let _ ← writeSnapshot platform configuration
      ret ()

/-- The snapshots are written before the journal. -/
def prepare (request : Request) : Step Unit := do
  let _ ← writeSnapshot platform request.oldConfiguration
  let _ ← writeSnapshot platform request.graphSnapshot
  let _ ← writeSnapshot platform request.desiredConfiguration
  let _ ← writeSnapshot platform request.graphSnapshot
  writeReapply platform request.reapplyConfiguration
  writeJournal identity

/-- Before a durable decision every failure rolls back. -/
def rollbackAfter (error : Failure) : Step Unit := do
  persist identity fun journal =>
    let code := if error.code = [] then lit "ERROR" else error.code
    { journal with
      lastProblem := some ⟨code, error.message.take 512, journal.nextAction.map (·.kind)⟩ }
  rollback platform identity effects
  raise ⟨"PLOINKY_BOX_HARDWARE_TRANSITION_ROLLED_BACK",
    lit "The gate-off transition failed and the gate-on Box was restored: " ++ error.message⟩

/-- The result of a downgrade. -/
structure DowngradeResult where
  operationId : Id
  phase : Phase
  containerId : Option Id
  deriving DecidableEq

/-- `runHardwareDowngrade(request)`. -/
def runHardwareDowngrade (request : Request) : Prog World Failure DowngradeResult :=
  withJournal (preparedJournal platform identity effects request) do
    prepare platform identity request
    attempt (forwardToDecision platform identity effects) (rollbackAfter platform identity effects)
    completeDecision identity
    look fun s => ⟨request.operationId, s.journal.phase, s.journal.commitIntent.map (·.finalContainerId)⟩

/-- `rollForward(ctx, journal)`. -/
def rollForward (decided : CommitIntent) : Step Unit := do
  let journal ← look (·.journal)
  let configuration ← readSnapshot platform decided.configurationRef
  let observed ← inspectBox
  match observed.filter (·.id = decided.finalContainerId) with
  | none =>
    block identity
      (some ⟨"TARGET_MISSING", "the decided gate-off Box is not present", some "roll-forward"⟩)
      "Recovery is blocked: the decided gate-off Box is not present"
  | some box => do
      whenDo (box.running = false ∧ journal.old.wasRunning = true)
        (intent identity (.start none box.id) (startBox box.id))
      whenDo journal.old.graphWasRunning (restoreDecidedGraph journal box.id)
      let verified ← verifyBox effects box.id configuration false
      if verified = false then
        block identity none "Recovery is blocked: the decided gate-off Box does not match its configuration"
      else completeDecision identity
where
  /-- The graph that was running before is started when it is not observed. -/
  restoreDecidedGraph (journal : Journal) (id : Id) : Step Unit := do
    let running ← graphRunning id
    whenDo (running = false) do
      let graph ← readSnapshot platform journal.desired.graphRef
      startGraphOf identity effects id graph

/-- Nothing has happened yet, and nothing was announced. -/
def unannounced : Step Bool := do
  let journal ← look (·.journal)
  if journal.nextAction = none then untouched else return false

/-- `recoverWithoutDecision(ctx, journal)`. -/
def recoverWithoutDecision : Step Unit := do
  let journal ← look (·.journal)
  let _ ← readSnapshot platform journal.old.configurationRef
  let _ ← readSnapshot platform journal.old.graphRef
  let _ ← readSnapshot platform journal.desired.configurationRef
  let clean ← unannounced
  if clean then persist identity fun journal => { journal with phase := .rolledBack }
  else do
    let observed ← inspectBox
    let pairs ← askSite fun site => .ok (ownedAttempts journal.attempts site)
    match observed with
    | none => rollback platform identity effects
    | some box =>
      if box.id = journal.old.containerId ∨ box.id ∈ pairs.map Prod.fst then
        rollback platform identity effects
      else blockForeign identity box.id "recover"

/-- The recovery of one journal. -/
def recoverJournal (journal : Journal) : Step Unit :=
  if effects.engineIdentity = [] ∨ journal.engineIdentity ≠ effects.engineIdentity ∨
      effects.hostKind = [] ∨ journal.hostKind ≠ effects.hostKind then
    block identity
      (some ⟨"ENGINE_IDENTITY_CHANGED",
        "the current engine identity or host kind differs from the recorded transition", some "recover"⟩)
      "Recovery is blocked: the current engine identity or host kind differs from the recorded transition"
  else match journal.commitIntent.filter (·.result = .desiredOff) with
    | some decided => rollForward platform identity effects decided
    | none => recoverWithoutDecision platform identity effects

/-- The report on one journal. -/
structure RecoveryResult where
  operationId : Id
  phase : Phase
  error : Option Str
  deriving DecidableEq

/-- One turn of the loop of `recoverHardwareDowngrades`. -/
def recoverOne (journal : Journal) : Prog World Failure RecoveryResult :=
  if journal.phase = .recoveryBlocked then ret ⟨journal.operationId, journal.phase, none⟩
  else withJournal journal (attempt
    (do
      recoverJournal platform identity effects journal
      look fun s => ⟨s.journal.operationId, s.journal.phase, none⟩)
    fun error =>
      if error.code = recoveryBlockedCode then
        ret ⟨journal.operationId, .recoveryBlocked, some error.message⟩
      else raise error)

/-- `store.listPending()`. -/
def listPending : Prog World Failure (List Journal) := ask fun world =>
  (world.journal.toList.mapM fun journal => (validateJournal identity journal).map fun _ => journal).map
    (·.filter fun journal => !journal.phase.isTerminal)

/-- The loop of `recoverHardwareDowngrades`. -/
def recoverAll : List Journal → Prog World Failure (List RecoveryResult)
  | [] => ret []
  | journal :: rest => do
      let result ← recoverOne platform identity effects journal
      let results ← recoverAll rest
      return result :: results

/-- `recoverHardwareDowngrades(...)`. -/
def recoverHardwareDowngrades : Prog World Failure (List RecoveryResult) := do
  let pending ← listPending identity
  recoverAll platform identity effects pending

end Ploinky.Downgrade
