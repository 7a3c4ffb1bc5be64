import Ploinky.Webtty.Closing
import Ploinky.Lib.Transition

/-!
# The WebTTY session manager

The embedding of `create`, `createAttempt`, `closeSession`, `authorize`, `closePrincipal` and
`observeAuthenticatedRequest`. An event is a call from outside, a message of a worker, or the continuation
of a call after one of its awaits, with what the awaited call gave. Every interleaving is a list of events.

An id is random, so that a creation begins with one that no creation had. The text that is hashed stands
for the digest of a principal.
-/

namespace Ploinky.Webtty

open Js Transition

/-- What `createAttempt` awaits once the session is in the table. -/
inductive StartupStep where
  | spawn
  | createRecord
  | enterLock
  | lease
  | target
  | prepare
  | markStarting
  | start
  | markReady
  | leaveLock
  deriving DecidableEq

def startupSteps : TargetKind → List StartupStep
  | .box => [.spawn, .createRecord, .markStarting, .start, .markReady, .lease, .target]
  | .agent => [.spawn, .createRecord, .enterLock, .lease, .target, .prepare, .markStarting, .start,
      .markReady, .lease, .target, .leaveLock]

/-- `assertStartupActive` is called after the step: not between the checks of the lease and the target,
and not after the start lock. -/
def StartupStep.isChecked (step : StartupStep) : Bool := step ≠ .lease && step ≠ .leaveLock

/-- The await that `create` is at. -/
inductive Progress where
  | checkingLease
  | consumingLaunch
  | recheckingLease
  | starting (rest : List StartupStep)
  /-- The startup failed, and its close is awaited. -/
  | failing
  | fulfilled
  | rejected
  deriving DecidableEq

/-- A creation attempt, with its session once there is one. They share the owner. -/
structure Creation where
  owner : Str
  adminAdmittedAt : Nat
  cancellation : Str
  progress : Progress
  session : Option Session
  deriving DecidableEq

inductive Need where
  | watch
  | attach
  | input
  | resize
  | control
  | stop
  deriving DecidableEq

/-- A call of `authorize`, with what the lease of its request says. -/
structure Request where
  sessionId : Str
  principal : Str
  createdAt : Nat
  need : Need
  deriving DecidableEq

/-- Only the owner may write, resize or control. -/
def Request.permitted (r : Request) (owner : Str) : Bool :=
  !([Need.input, .resize, .control].contains r.need && r.principal ≠ owner)

structure Manager where
  safety : Safety
  closed : Bool
  /-- Every creation attempt ever begun. -/
  creations : List (Str × Creation)
  pendingCreations : List Str
  sessions : List Str
  ownerIndex : List (Str × List Str)
  /-- The calls of `authorize` that await the validation of their lease. -/
  requests : List Request

/-- The manager after `initialize`. -/
def Manager.initial (safety : Safety) : Manager := ⟨safety, false, [], [], [], [], []⟩

def browserPrincipal (mode userId : Str) : Str := mode ++ ['\x00'] ++ userId

structure Decision where
  authMode : Str
  userId : Str
  roles : List Str
  decidedAt : Nat

def isAdminUser (roles : List Str) : Bool :=
  let roles := roles.map fun role => toLowerCase (trim role)
  roles.contains (lit "admin") && !roles.contains (lit "guest")

/-- The decision passes the checks of `observeAuthenticatedRequest`. -/
def Decision.revokes (decision : Decision) : Bool :=
  [lit "local", lit "sso"].contains decision.authMode && !decision.userId.isEmpty &&
    !(decision.roles.any fun role => toLowerCase (trim role) = lit "guest") &&
    !isAdminUser decision.roles && 0 < decision.decidedAt && decision.decidedAt ≤ 9007199254740991

def Decision.principal (decision : Decision) : Str := browserPrincipal decision.authMode decision.userId

/-- What an awaited call of a creation gives. -/
inductive CreateOutcome where
  /-- An error; a record write may have replaced the record before. -/
  | threw (replaced workerUnproven : Bool)
  | ok
  /-- The lease is valid, the quota is reserved, and there is a worker. -/
  | admitted (target : Target)
  | recorded (record : Record)

/-- What the awaited call of a step may give: a record comes from its creation only, and a record that is
not there cannot be marked. -/
def StartupStep.gives (record : Option Record) : StartupStep → CreateOutcome → Bool
  | _, .threw _ _ => true
  | .createRecord, .recorded _ => true
  | .createRecord, _ => false
  | .markStarting, .ok => record.isSome
  | _, .ok => true
  | _, _ => false

inductive Event where
  | create (id principal : Str) (createdAt : Nat)
  /-- A creation goes on; its route generation is still the current one, or not. -/
  | resumeCreate (id : Str) (outcome : CreateOutcome) (current : Bool)
  /-- Any caller of `closeSession`, apart from the handlers below. -/
  | close (id reason : Str) (preserveRecord : Bool)
  | terminalExit (id category : Str) (cleanupProven : Bool)
  | processExit (id category : Str)
  | terminalError (id : Str) (category : ErrorCategory)
  | errorCategory (id category : Str)
  | resumeClose (id : Str) (outcome : CloseOutcome)
  | closePrincipal (principal : Str)
  | observe (decision : Decision)
  | closeAll (reason : Str)
  | authorize (request : Request)
  | resumeAuthorize (index : Nat) (valid : Bool)

def addOwned (index : List (Str × List Str)) (principal id : Str) : List (Str × List Str) :=
  AssocList.set index (principal, (index.lookup principal).getD [] ++ [id])

/-- Deletes the id, and the principal when nothing is left. -/
def dropOwned (index : List (Str × List Str)) (principal id : Str) : List (Str × List Str) :=
  let rest := ((index.lookup principal).getD []).filter (· ≠ id)
  if rest.isEmpty then AssocList.erase index principal else AssocList.set index (principal, rest)

namespace Manager

variable (m : Manager)

def put (id : Str) (c : Creation) : Manager :=
  { m with creations := AssocList.set m.creations (id, c) }

/-- The creation with this id, with its session. -/
def find (id : Str) : Option (Creation × Session) := do
  let c ← m.creations.lookup id
  let s ← c.session
  pure (c, s)

/-- The part of `finishCloseSession` that takes the session out of the table. -/
def retire (id : Str) (c : Creation) (s : Session) (options : CloseOptions) : Manager :=
  { m.put id { c with session := some (s.retire options) } with
    sessions := m.sessions.filter (· ≠ id)
    ownerIndex := dropOwned m.ownerIndex c.owner id }

def closeSession (id reason : Str) (options : CloseOptions) : Manager :=
  match m.find id with
  | none => m
  | some (c, s) =>
    if s.stage ≠ .idle || s.closed then m
    else if s.startupInProgress then
      m.put id { c with session := some { s with
        startupCancellation := orText reason "requested", stage := .cancelling options } }
    else m.retire id c s options

/-- `pending.cancellation ||= reason`. -/
def cancelPending (reason id : Str) : Manager :=
  match m.creations.lookup id with
  | some c =>
    if m.pendingCreations.contains id && c.cancellation.isEmpty then m.put id { c with cancellation := reason }
    else m
  | none => m

def closeOwnerEntry (reason id : Str) : Manager :=
  let m := m.cancelPending reason id
  if m.sessions.contains id then m.closeSession id reason ⟨false, false⟩ else m

/-- Closes the chosen entries one after the other. -/
def closeEntries (reason : Str) (chosen : Manager → Str → Bool) (ids : List Str) : Manager :=
  ids.foldl (fun m id => if chosen m id then m.closeOwnerEntry reason id else m) m

def owned (principal : Str) : List Str := (m.ownerIndex.lookup principal).getD []

/-- The entry was admitted as an administrator before the time. -/
def admittedBefore (time : Nat) (id : Str) : Bool :=
  match m.creations.lookup id with
  | some c => (m.sessions.contains id || m.pendingCreations.contains id) && c.adminAdmittedAt < time
  | none => false

/-- The `finally` of `create`. -/
def endCreate (id owner : Str) : Manager :=
  { m with
    pendingCreations := m.pendingCreations.filter (· ≠ id)
    ownerIndex := if m.sessions.contains id then m.ownerIndex else dropOwned m.ownerIndex owner id }

def reject (id : Str) (c : Creation) : Manager :=
  (m.put id { c with progress := .rejected }).endCreate id c.owner

/-- The session of an attempt that passed every check enters the table. -/
def enroll (id : Str) (c : Creation) (target : Target) : Manager :=
  let session : Session :=
    { target, record := none, initRequested := false, preserveRecord := false,
      terminalCleanupProven := false, cleanupFailureScope := none, startupInProgress := true,
      startupCancellation := [], closing := false, closed := false, released := false,
      givenBack := 0, tombstone := none, recordWrites := 0, workerExited := false, stage := .idle,
      reported := false, reclaimed := false }
  { m.put id { c with progress := .starting (startupSteps target.kind), session := some session } with
    sessions := m.sessions ++ [id]
    pendingCreations := m.pendingCreations.filter (· ≠ id) }

/-- The error handling of the startup. -/
def failStartup (id : Str) (c : Creation) (s : Session) (workerUnproven : Bool) : Manager :=
  let safety := if s.isAgent && workerUnproven then m.safety.disableAgentProvider "worker_identity_unproven"
    else m.safety
  let failed := { c with progress := .failing, session := some { s with startupInProgress := false } }
  ({ m with safety }.put id failed).closeSession id "create_failed" ⟨false, false⟩

end Manager

/-- The effect of a startup step on the session. -/
def Session.afterStartup (s : Session) (step : StartupStep) (outcome : CreateOutcome) : Session :=
  let ptyState (state : PtyState) : Session :=
    { s with record := s.record.map fun record => { record with ptyState := state } }
  match step, outcome with
  | .createRecord, .recorded record => { s with record := some record }
  | .markStarting, .ok => { ptyState .ptyStarting with initRequested := true }
  | .markStarting, .threw true _ => ptyState .ptyStarting
  | .markReady, .ok => ptyState .ptyReady
  | .markReady, .threw true _ => ptyState .ptyReady
  | _, _ => s

namespace Manager

/-- The creation goes on with the startup. -/
def resumeStartup (m : Manager) (id : Str) (c : Creation) (s : Session) (step : StartupStep)
    (rest : List StartupStep) (outcome : CreateOutcome) (current : Bool) : Manager :=
  let s := s.afterStartup step outcome
  match outcome with
  | .threw _ workerUnproven => m.failStartup id c s workerUnproven
  | _ =>
    if step.isChecked && (!s.startupCancellation.isEmpty || s.closed || m.closed || !current) then
      m.failStartup id c s false
    else if rest.isEmpty then
      (m.put id { c with progress := .fulfilled, session := some { s with startupInProgress := false } }).endCreate
        id c.owner
    else m.put id { c with progress := .starting rest, session := some s }

def resumeCreate (m : Manager) (id : Str) (c : Creation) (outcome : CreateOutcome) (current : Bool) :
    Option Manager :=
  -- `assertCreationActive`
  let active := c.cancellation.isEmpty && !m.closed
  match c.progress, c.session, outcome with
  | .checkingLease, none, .ok =>
    some (if active then m.put id { c with progress := .consumingLaunch } else m.reject id c)
  | .consumingLaunch, none, .ok =>
    some (if active then m.put id { c with progress := .recheckingLease } else m.reject id c)
  | .recheckingLease, none, .admitted target => some (if active then m.enroll id c target else m.reject id c)
  | .checkingLease, none, .threw _ _ => some (m.reject id c)
  | .consumingLaunch, none, .threw _ _ => some (m.reject id c)
  | .recheckingLease, none, .threw _ _ => some (m.reject id c)
  | .starting (step :: rest), some s, outcome =>
    if step.gives s.record outcome then some (m.resumeStartup id c s step rest outcome current) else none
  | .failing, some s, .ok => if s.closed then some (m.reject id c) else none
  | _, _, _ => none

/-- The close of a session goes on. -/
def resumeClose (m : Manager) (id : Str) (c : Creation) (s : Session) (outcome : CloseOutcome) :
    Option Manager :=
  match s.stage, outcome with
  | .cancelling options, .settled =>
    some (m.put id { c with session := some { s with stage := .awaitingStartup options } })
  | .awaitingStartup options, .settled =>
    if s.startupInProgress then none else some (m.retire id c s options)
  | _, _ => do
    let (safety, s) ← s.resumeClose m.safety outcome
    pure ({ m with safety }.put id { c with session := some s })

/-- A message that the worker client passes on only before it has seen the exit. -/
def onWorker (m : Manager) (id : Str) (handle : Creation → Session → Manager) : Option Manager := do
  let (c, s) ← m.find id
  if s.workerExited then none else some (handle c s)

/-- The first check of `authorize`. -/
def mayAuthorize (m : Manager) (id : Str) : Bool :=
  match m.find id with
  | some (_, s) => m.sessions.contains id && !s.closed && !s.closing && !s.startupInProgress
  | none => false

/-- The session that `authorize` returns for a request whose lease is valid. -/
def authorizes (m : Manager) (r : Request) : Bool :=
  match m.find r.sessionId with
  | some (c, s) => !s.closed && !s.closing && m.sessions.contains r.sessionId && r.permitted c.owner
  | none => false

/-- The owner is admitted again by its own input and attachments. -/
def admitAgain (m : Manager) (r : Request) : Manager :=
  match m.creations.lookup r.sessionId with
  | some c =>
    if r.principal = c.owner && [Need.input, .attach].contains r.need then
      m.put r.sessionId { c with adminAdmittedAt := max c.adminAdmittedAt r.createdAt }
    else m
  | none => m

def step (m : Manager) : Event → Option Manager
  | .create id principal createdAt =>
    let attempt : Creation := ⟨principal, createdAt, [], .checkingLease, none⟩
    -- an attempt after `closeAll` is refused when it goes on
    if (m.creations.lookup id).isSome then none
    else some { m.put id attempt with
      pendingCreations := m.pendingCreations ++ [id]
      ownerIndex := addOwned m.ownerIndex principal id }
  | .resumeCreate id outcome current => do
    let c ← m.creations.lookup id
    m.resumeCreate id c outcome current
  | .close id reason preserveRecord => some (m.closeSession id reason ⟨false, preserveRecord⟩)
  | .terminalExit id category cleanupProven => m.onWorker id fun c s =>
    -- the exit message of a Box worker has no field for a proof
    (m.put id { c with session := some { s with
      terminalCleanupProven := s.terminalCleanupProven || s.isAgent && cleanupProven } }).closeSession id
        (lit "terminal_" ++ category) ⟨false, false⟩
  | .processExit id category => m.onWorker id fun c s =>
    (m.put id { c with session := some { s with workerExited := true } }).closeSession id
      (lit "worker_" ++ category) ⟨true, false⟩
  | .terminalError id category => m.onWorker id fun c s =>
    let (safety, s) := s.onTerminalError m.safety category
    let noted := { m with safety }.put id { c with session := some s }
    -- an unproven clean-up closes the session when its evidence is written
    if category.unproven then noted
    else noted.closeSession id (lit "worker_" ++ category.text) ⟨false, false⟩
  | .errorCategory id category => do
    let (_, s) ← m.find id
    let disables := s.isAgent && [lit "protocol_error", lit "worker_cleanup_unproven",
      lit "worker_identity_unproven"].contains category
    let safety := if disables then m.safety.disableAgentProvider category else m.safety
    some ({ m with safety }.closeSession id (lit "worker_" ++ category) ⟨false, false⟩)
  | .resumeClose id outcome => do
    let (c, s) ← m.find id
    m.resumeClose id c s outcome
  | .closePrincipal principal => some (m.closeEntries "owner_admin_revoked" (fun _ _ => true) (m.owned principal))
  | .observe decision =>
    some (if decision.revokes then m.closeEntries "owner_admin_revoked"
      (fun m => m.admittedBefore decision.decidedAt) (m.owned decision.principal) else m)
  | .closeAll reason =>
    let safety := { m.safety with ready := false, disabledCategory := lit "shutting_down" }
    some (if m.closed then m.closeEntries reason (fun _ _ => true) m.sessions
      else { m with closed := true, safety }.closeEntries reason (fun _ _ => true)
        (m.pendingCreations ++ m.sessions))
  | .authorize r => some (if m.mayAuthorize r.sessionId then { m with requests := m.requests ++ [r] } else m)
  | .resumeAuthorize index valid => do
    let r ← m.requests[index]?
    let served := { m with requests := m.requests.eraseIdx index }
    some (if valid && m.authorizes r then served.admitAgain r else served)

end Manager

/-- The session manager. -/
def machine : Machine Manager Event := ⟨Manager.step⟩

end Ploinky.Webtty
