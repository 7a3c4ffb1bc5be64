import Ploinky.Edge.Selector
import Ploinky.Hardware.StoreInvariant

/-!
# Fresh initialisation of the edge routing sources

The embedding of `initializeFreshEdgeRoutingSources`: under the apply lock, a workspace with none of the
four routing sources gets empty ones, after its hardware-availability store was installed, kept or
repaired. The routine accepts all of the sources or none of them. Every file-system call is a call at
which the process can die; consecutive reads are one call, and the temporaries of the sources and of the
lock are never read.
-/

namespace Ploinky.Edge

open Js Hardware Durable Durable.Prog

/-- The four routing sources, in the order in which they are installed. -/
inductive EdgeSource where
  | routing
  | agents
  | policy
  | desired
  deriving DecidableEq

/-- The sources in order. -/
def edgeSources : List EdgeSource := [.routing, .agents, .policy, .desired]

theorem mem_edgeSources (source : EdgeSource) : source ∈ edgeSources := by
  cases source <;> decide

/-- The name of a source in messages. -/
def EdgeSource.label : EdgeSource → Str
  | .routing => "routing.json"
  | .agents => "agents.json"
  | .policy => "policy-state.json"
  | .desired => "edge desired state"

/-- The empty sources. -/
def EdgeSource.emptyBytes (platform : Platform) : EdgeSource → Bytes
  | .routing => utf8Bytes (platform.stringifyJson (.obj [("routes", .obj [])]))
  | .agents => utf8Bytes "\x7b\x7d"
  | .policy => utf8Bytes (platform.stringifyJson (.obj
      [("schema", .str "router-policy"), ("httpRoutes", .arr []), ("mcpTools", .arr [])]))
  | .desired => utf8Bytes (platform.stringifyJson (.obj [("hosts", .obj [])]))

/-- The owner that the apply lock records. -/
inductive LockRecord where
  | owner (pid lockId : Nat)
  | unreadable
  deriving DecidableEq

/-- The files that the initialisation reads and writes. -/
structure Workspace where
  applyLock : Option LockRecord
  /-- The lock ids issued so far. -/
  lockIds : Nat
  sources : EdgeSource → Option Bytes
  selector : Option Bytes
  topologyCurrent : Bool
  /-- The names in the directory of generations, if it exists. -/
  generations : Option (List Str)
  topologyGenerations : Option (List Str)
  store : StoreFiles

/-- A program on a workspace. -/
abbrev WorkspaceProg (α : Type) := Prog Workspace Failure α

variable {platform : Platform}

/-- An error of the edge sources. -/
def edgeFailure (message code : Str) : Failure := .coded (edgeError message code)

/-! ## The apply lock -/

/-- `writeDurableTemp(file, bytes, mode)`. No other call reads the temporary. -/
def writeDurableTemp : WorkspaceProg Unit := do
  unobserved
  attempt (do unobserved; unobserved; unobserved; unobserved; unobserved) fun error => do
    attempt unobserved fun _ => return ()
    raise error

/-- `removeDurableTemp(tmp)`. -/
def removeDurableTemp : WorkspaceProg Unit := do
  unobserved
  unobserved

variable (process : Process platform)

/-- `fs.linkSync(tmp, paths.applyLockFile)`. -/
def linkApplyLock (lockId : Nat) : WorkspaceProg Unit := call fun s =>
  if s.applyLock.isSome then .error (.system .EEXIST)
  else .ok ((), { s with applyLock := some (.owner process.pid lockId) })

/-- The lock records an owner that is dead. -/
def LockRecord.stale : LockRecord → Bool
  | .owner pid _ => 1 ≤ pid && pid < 2 ^ 53 && process.dead pid
  | .unreadable => false

/-- Whether the existing lock can be proven stale. A failing call proves nothing. -/
def probeApplyLock : WorkspaceProg Bool :=
  attempt (ask fun s => .ok (s.applyLock.any (·.stale process))) fun _ => ret false

/-- `fs.unlinkSync(paths.applyLockFile)`. -/
def unlinkApplyLock : WorkspaceProg Unit := effect fun s => { s with applyLock := none }

/-- The error of a lock that is held. -/
def busy : Failure := edgeFailure "edge generation apply is already in progress" "EDGE_GENERATION_BUSY"

/-- An existing lock is removed in the first turn when it is provably stale. -/
def reclaimApplyLock (first : Bool) : WorkspaceProg (Option Nat) := do
  let stale ← probeApplyLock process
  if stale && first then
    attempt (do unlinkApplyLock; unobserved; return none) fun _ => raise busy
  else raise busy

/-- The link of the lock: its id, or nothing when a stale lock was removed. -/
def linkOrReclaim (first : Bool) (lockId : Nat) :
    WorkspaceProg (Option Nat) :=
  attempt (do linkApplyLock process lockId; unobserved; return some lockId) fun error =>
    if error = .system .EEXIST then reclaimApplyLock process first else raise error

/-- One turn of the loop of `acquireApplyLock`. -/
def acquireTurn (first : Bool) : WorkspaceProg (Option Nat) := do
  let lockId ← look (·.lockIds)
  alter fun s => { s with lockIds := s.lockIds + 1 }
  writeDurableTemp
  let acquired ← attempt (linkOrReclaim process first lockId) fun error => do
    removeDurableTemp
    raise error
  attempt removeDurableTemp fun error => if acquired.isSome then return () else raise error
  return acquired

/-- `acquireApplyLock(paths)`: the id of the lock. -/
def acquireApplyLock : WorkspaceProg Nat := do
  unobserved
  match ← acquireTurn process true with
  | some lockId => return lockId
  | none =>
    match ← acquireTurn process false with
    | some lockId => return lockId
    | none => raise busy

/-- The release function of the lock. Its failures are ignored. -/
def releaseApplyLock (lockId : Nat) : WorkspaceProg Unit :=
  attempt (do
    match ← ask fun s => .ok s.applyLock with
    | some (.owner _ current) =>
      if current = lockId then
        unlinkApplyLock
        unobserved
    | some .unreadable | none => return ()) fun _ => return ()

/-! ## Evidence of generations -/

/-- `fs.existsSync(file)`. A failing call counts as absence. -/
def existsSync (file : Workspace → Bool) : WorkspaceProg Bool :=
  attempt (ask fun s => .ok (file s)) fun _ => ret false

variable (directory : Workspace → Option (List Str))

/-- The names in a directory, none when it does not exist. -/
def listing : WorkspaceProg (List Str) :=
  ask fun s => .ok ((directory s).getD [])

/-- The listing of a directory of generations, where a failure is an error of its own. The text of the
system is left out. -/
def evidenceListing : WorkspaceProg (List Str) :=
  attempt (listing directory) fun _ =>
    raise (edgeFailure "edge initialization evidence is unavailable" "EDGE_GENERATION_INVALID")

/-- `hasPersistedGenerationEvidence(paths)`. -/
def hasPersistedGenerationEvidence : WorkspaceProg Bool := do
  if ← existsSync (·.selector.isSome) then return true
  if ← existsSync (·.topologyCurrent) then return true
  if !(← evidenceListing (·.generations)).isEmpty then return true
  return !(← evidenceListing (·.topologyGenerations)).isEmpty

/-- A selector that records the destruction of an empty workspace. -/
def isDestroyTombstone (selector : Json) : Bool :=
  isStr (selector.prop "state") "inactive" && isStr (selector.prop "reason") "cli-workspace-destroy" &&
    !truthy (selector.prop "generation") && !truthy (selector.prop "previousGeneration")

/-- A directory of generations has no entries. A failing call counts as an entry. -/
def isEmptyDirectory : WorkspaceProg Bool :=
  attempt (do return (← listing directory).isEmpty) fun _ => ret false

/-- `discardEmptyDestroyTombstone(paths, present)`. -/
def discardEmptyDestroyTombstone (platform : Platform) (present : List Bool) : WorkspaceProg Bool := do
  if present.any id then return false
  let selector ← attempt (ask fun s => .ok (readSelector platform s.selector)) fun _ => ret none
  if !selector.any isDestroyTombstone then return false
  if ← existsSync (·.topologyCurrent) then return false
  if !(← isEmptyDirectory (·.generations)) then return false
  if !(← isEmptyDirectory (·.topologyGenerations)) then return false
  effect fun s => { s with selector := none }
  unobserved
  return true

/-! ## The availability store -/

/-- What became of the availability store. -/
inductive StoreOutcome where
  | installedUpgrade
  | installedFresh
  | kept
  | witnessRestored
  deriving DecidableEq

/-- The advice at the end of every refusal. -/
def availabilityOperatorReset : Str :=
  lit "Operator reset: run `ploinky stop`, remove both " ++
    lit ".ploinky/data/edge-routing/hardware-availability.witness.json and " ++
    lit ".ploinky/data/edge-routing/hardware-availability/, then run `ploinky start` " ++
    lit "(all committed hardware denials are discarded); or restore both from a backup with a matching storeId."

/-- The refusal of a store that cannot be used. -/
def refuseStore (detail : Str) : Failure :=
  edgeFailure (lit "hardware availability store is unavailable: " ++ detail ++ lit "; " ++
    availabilityOperatorReset) "EDGE_GENERATION_SOURCE_UNAVAILABLE"

/-- `reconcileHardwareAvailabilityStore(paths, { complete })`. -/
def reconcileHardwareAvailabilityStore (complete : Bool) :
    StoreProg StoreOutcome := do
  sweepHardwareAvailabilityTemps process
  let store := lit "store '" ++ process.paths.availabilityStoreDir ++ lit "'"
  let witness := lit "witness '" ++ process.paths.availabilityWitnessFile ++ lit "'"
  match ← inspectHardwareAvailabilityStore platform with
  | (.invalid problem, _) => raise (refuseStore (witness ++ lit " " ++ problem))
  | (_, .invalid problem) => raise (refuseStore (store ++ lit " " ++ problem))
  | (.valid _, .absent) =>
    raise (refuseStore (store ++ lit " is missing although " ++ witness ++
      lit " records its initialization"))
  | (.absent, .absent) =>
    installHardwareAvailabilityStore process (if complete then "upgrade" else "fresh")
    return if complete then .installedUpgrade else .installedFresh
  | (.valid found, .valid document) =>
    if !strictEq (found.prop "storeId") (document.prop "storeId") then
      raise (refuseStore (store ++ lit " does not match " ++ witness))
    return .kept
  | (.absent, .valid _) =>
    restoreHardwareAvailabilityWitness process
    return .witnessRestored

/-! ## The sources -/

/-- `fs.linkSync(tmp, file)` for a source. -/
def linkSource (platform : Platform) (source : EdgeSource) : WorkspaceProg Unit := call fun s =>
  if (s.sources source).isSome then .error (.system .EEXIST)
  else .ok ((), { s with sources := Function.update s.sources source (some (source.emptyBytes platform)) })

/-- `installImmutableDurable(file, bytes, mode)` for an empty source. -/
def installSource (platform : Platform) (source : EdgeSource) : WorkspaceProg Unit := do
  writeDurableTemp
  finallyDo
    (attempt (do linkSource platform source; unobserved) fun error =>
      if error = .system .EEXIST then do
        let existing ← ask fun s => .ok (s.sources source)
        if existing ≠ some (source.emptyBytes platform) then
          raise (edgeFailure (source.label ++ lit " appeared during fresh edge initialization")
            "EDGE_GENERATION_SOURCE_UNAVAILABLE")
      else raise error)
    removeDurableTemp

/-- Which sources exist, in order. -/
def presentSources : List EdgeSource → WorkspaceProg (List Bool)
  | [] => return []
  | source :: rest => do
      let present ← existsSync fun s => (s.sources source).isSome
      return present :: (← presentSources rest)

/-- The result of the initialisation. -/
structure Initialized where
  initialized : Bool
  hardwareAvailability : StoreOutcome
  deriving DecidableEq

/-- The labels of the sources that are missing. -/
def missingLabels (present : List Bool) : List Str :=
  (edgeSources.zip present).filterMap fun entry => if entry.2 then none else some entry.1.label

/-- The refusal of a partial set of sources. -/
def incompleteSources (present : List Bool) : Failure :=
  edgeFailure (lit "edge routing sources are incomplete; missing " ++
    (List.intercalate ", " (missingLabels present)) ++
    lit "; restore exact validated sources before coordinated apply")
    "EDGE_GENERATION_SOURCE_UNAVAILABLE"

/-- The availability store of a workspace. -/
def onStore {α : Type} (p : StoreProg α) : WorkspaceProg α :=
  zoom (·.store) (fun store s => { s with store }) p

/-- The sources are some but not all, or none although there is evidence of a generation. -/
def isPartial (present : List Bool) : WorkspaceProg Bool :=
  if present.all id then pure false
  else if present.any id then pure true
  else hasPersistedGenerationEvidence

/-- The sources that exist once a tombstone was discarded. -/
def presentAgain (discarded : Bool) (present : List Bool) : WorkspaceProg (List Bool) :=
  if discarded then presentSources edgeSources else pure present

/-- The initialisation once the sources were looked at. -/
def initializeSources (present : List Bool) :
    WorkspaceProg Initialized := do
  let complete := present.all id
  if ← isPartial present then raise (incompleteSources present)
  let hardwareAvailability ← onStore (reconcileHardwareAvailabilityStore process complete)
  if complete then return ⟨false, hardwareAvailability⟩
  forEach edgeSources (installSource platform)
  return ⟨true, hardwareAvailability⟩

/-- `initializeFreshEdgeRoutingSources()`. -/
def initializeFreshEdgeRoutingSources : WorkspaceProg Initialized := do
  let lockId ← acquireApplyLock process
  finallyDo (do
      let present ← presentSources edgeSources
      let discarded ← discardEmptyDestroyTombstone platform present
      let present ← presentAgain discarded present
      initializeSources process present)
    (releaseApplyLock lockId)

end Ploinky.Edge
