import Ploinky.Js.Text
import Ploinky.Lib.Transition

/-!
# The workspace mutation lease and the maintenance locks

The workspace mutation lease and the maintenance lock of a container are one lock file each, created
with the exclusive flag. Every reader of the file may find its owner dead and remove it:
`removeSnapshot` reads the file again, compares the fingerprint with the one inspected, and unlinks
the file by name. Renewal of the lease truncates the file and writes it again in place.

Any number of callers run, several of which may belong to one process. Every file-system call is one
atomic step, and a process may die between any two calls. Files have a serial number, the identity of
the file a descriptor stays bound to; device and inode numbers may be used again.
-/

namespace Ploinky.Workspace.MaintenanceLock

open Transition Js

/-- A process id. -/
abbrev Pid := Nat

/-- One invocation site of the lock functions. -/
abbrev Caller := Nat

/-- The lock file of the workspace mutation lease, or that of a container's maintenance lock. -/
inductive Kind where
  | lease
  | maintenance
  deriving DecidableEq

/-! ## Lock documents -/

/-- `readWorkspaceOwnerIdentity(pid)`. -/
structure OwnerIdentity where
  scope : Str
  startIdentity : Str
  deriving DecidableEq

/-- A lock document as its readers see it. `ownerPid` is absent when it is no integer,
`ownerIdentity` when it is no object with two texts. -/
structure LockDocument where
  operation : Str
  ownerPid : Option Int
  ownerIdentity : Option OwnerIdentity
  token : Option Str
  requireQuiescenceOnOwnerDeath : Bool
  recoveryRequired : Bool
  startedAt : Str
  expiresAt : Str
  deriving DecidableEq

/-- What a caller finds out about the process of a lock document: its identity as read now, and
whether `process.kill(pid, 0)` reaches it. -/
structure Probe where
  current : OwnerIdentity
  running : Bool
  deriving DecidableEq

/-- `isProcessAlive(pid)`. -/
def isProcessAlive (pid : Option Int) (probe : Probe) : Bool :=
  match pid with
  | some pid => decide (0 < pid) && probe.running
  | none => false

/-- `workspaceLeaseOwnerIsMalformed(lock)`. -/
def workspaceLeaseOwnerIsMalformed (lock : LockDocument) : Bool :=
  !(lock.ownerPid.any fun pid => decide (0 < pid ∧ pid < 2 ^ 53)) || lock.ownerIdentity.isNone

/-- `workspaceOwnerIsActive(lock)`. -/
def workspaceOwnerIsActive (lock : LockDocument) (probe : Probe) : Bool :=
  match lock.ownerIdentity with
  | none => true
  | some expected =>
    if workspaceLeaseOwnerIsMalformed lock then true
    else if expected.scope.isEmpty || probe.current.scope.isEmpty ||
        expected.scope != probe.current.scope then true
    else if !isProcessAlive lock.ownerPid probe then false
    else if expected.startIdentity.isEmpty || probe.current.startIdentity.isEmpty then true
    else expected.startIdentity == probe.current.startIdentity

/-- What an inspection finds. -/
inductive Verdict where
  | active
  | recoveryRequired
  | stale
  deriving DecidableEq

/-- `LOCK_STALE_GRACE_MS`. -/
def lockStaleGraceMs : Int := 5000

/-- The verdict of `inspectWorkspaceStartLock` on a snapshot of the given age. -/
def judgeWorkspaceStartLock (lock : Option LockDocument) (age : Int) (probe : Probe) : Verdict :=
  match lock with
  | none => if age < lockStaleGraceMs then .active else .recoveryRequired
  | some lock =>
    if workspaceLeaseOwnerIsMalformed lock then .recoveryRequired
    else if lock.recoveryRequired ||
        (lock.requireQuiescenceOnOwnerDeath && !workspaceOwnerIsActive lock probe) then
      .recoveryRequired
    else if workspaceOwnerIsActive lock probe then .active
    else .stale

/-- The verdict of `inspectMaintenanceLock` on a snapshot of the given age. -/
def judgeMaintenanceLock (lock : Option LockDocument) (age : Int) (probe : Probe) : Verdict :=
  match lock with
  | none => if age < lockStaleGraceMs then .active else .stale
  | some lock => if isProcessAlive lock.ownerPid probe then .active else .stale

/-- The verdict of the inspection of a lock file. -/
def Kind.judge : Kind → Option LockDocument → Int → Probe → Verdict
  | .lease => judgeWorkspaceStartLock
  | .maintenance => judgeMaintenanceLock

/-- The lease may not be released: it is kept for recovery, or not the caller's to remove. -/
def releaseRefused (lock : LockDocument) (probe : Probe) : Bool :=
  lock.recoveryRequired || workspaceLeaseOwnerIsMalformed lock ||
    (lock.requireQuiescenceOnOwnerDeath && !workspaceOwnerIsActive lock probe)

/-- What a new lock document takes from its caller and its process. -/
structure Details where
  operation : Str
  requireQuiescenceOnOwnerDeath : Bool
  ownerIdentity : OwnerIdentity
  token : Str
  startedAt : Str
  expiresAt : Str
  deriving DecidableEq

/-- The document a process writes: `createWorkspaceMutationLease` records the identity of the
process, `createMaintenanceLock` only its id. -/
def Kind.newDocument (kind : Kind) (pid : Pid) (details : Details) : LockDocument where
  operation := details.operation
  ownerPid := some pid
  ownerIdentity := if kind = .lease then some details.ownerIdentity else none
  token := some details.token
  requireQuiescenceOnOwnerDeath := decide (kind = .lease) && details.requireQuiescenceOnOwnerDeath
  recoveryRequired := false
  startedAt := details.startedAt
  expiresAt := details.expiresAt

/-! ## The lock file and its callers -/

/-- What `lstat` reports of a file. -/
structure Stat where
  dev : Nat
  ino : Nat
  mode : Nat
  size : Nat
  mtimeMs : Int
  deriving DecidableEq

/-- The file under the lock name. -/
structure LockFile (Content : Type) where
  serial : Nat
  stat : Stat
  content : Content
  deriving DecidableEq

/-- `lockSnapshot(filePath)`. Two snapshots have the same fingerprint when they are equal. -/
structure Snapshot (Content : Type) where
  stat : Stat
  raw : Content
  deriving DecidableEq

/-- A lock its creator holds: the file it was written to and the document. -/
structure Held where
  serial : Nat
  document : LockDocument
  deriving DecidableEq

/-- Who called `lockSnapshot`. -/
inductive Goal (Content : Type) where
  | inspect (creating : Bool) (attempt : Nat)
  | recheck (creating : Bool) (attempt : Nat) (snapshot : Snapshot Content)
  | release (held : Held)
  | releaseRecheck (held : Held) (snapshot : Snapshot Content)
  | renew (held : Held)
  | renewed (held : Held)
  deriving DecidableEq

/-- The pending call of one caller, with the local variables still in use. -/
inductive Control (Content : Type) where
  | outside
  | lstat (goal : Goal Content)
  | read (goal : Goal Content) (stat : Stat)
  | judge (creating : Bool) (attempt : Nat) (snapshot : Snapshot Content)
  | unlinkStale (creating : Bool) (attempt : Nat) (snapshot : Snapshot Content)
  | openNew
  | writeNew (serial : Nat) (document : LockDocument)
  | holding (held : Held)
  | judgeRelease (held : Held) (snapshot : Snapshot Content)
  | unlinkOwn (held : Held)
  | openRenew (held : Held) (snapshot : Snapshot Content) (document : LockDocument)
  | truncate (held : Held) (document : LockDocument) (descriptor : Nat)
  | rewrite (held : Held) (document : LockDocument) (descriptor : Nat)
  deriving DecidableEq

/-- How the pending call of a caller ends. -/
inductive Act where
  | create
  | inspect
  | proceed
  | judged (now : Int) (probe : Probe)
  | opened (stat : Stat) (details : Details)
  | wrote (size : Nat) (mtimeMs : Int)
  | release
  | renew
  | renewing (expiresAt : Str)
  deriving DecidableEq

/-- One atomic event: a caller's pending call ends, or a process dies. -/
inductive Event where
  | at (caller : Caller) (act : Act)
  | die (pid : Pid)
  deriving DecidableEq

/-- What the callers cannot change: the kind of the lock, the process of each caller, and how
documents are written and parsed. -/
structure Env (Content : Type) where
  kind : Kind
  pidOf : Caller → Pid
  pid_pos : ∀ c, 0 < pidOf c
  /-- The content of a file after it was created or truncated. -/
  empty : Content
  render : LockDocument → Content
  parse : Content → Option LockDocument
  parse_render : ∀ document, parse (render document) = some document
  parse_empty : parse empty = none

/-- The lock file, the number of files created so far, the processes and the callers. -/
structure State (Content : Type) where
  file : Option (LockFile Content)
  made : Nat
  alive : Pid → Bool
  control : Caller → Control Content

section Step

variable {Content : Type}

/-- Set the control of one caller. -/
def State.goto (s : State Content) (c : Caller) (control : Control Content) : State Content :=
  { s with control := fun d => if d = c then control else s.control d }

/-- Replace the content of the file a descriptor is bound to. A file that has lost its name is out
of everyone's sight. -/
def State.write (s : State Content) (descriptor : Nat) (content : Content) (size : Nat)
    (mtimeMs : Int) : State Content :=
  { s with file := s.file.map fun file =>
      if file.serial = descriptor then
        { file with stat := { file.stat with size := size, mtimeMs := mtimeMs }, content := content }
      else file }

/-- The process of a lock document, when its id is positive. -/
def ownerPid (lock : Option LockDocument) : Option Pid :=
  (lock.bind LockDocument.ownerPid).bind fun pid => if 0 < pid then some pid.toNat else none

/-- Inspect again after `removeSnapshot` failed, at most twice. -/
def retry (creating : Bool) (attempt : Nat) : Control Content :=
  if 2 ≤ attempt then .outside else .lstat (.inspect creating (attempt + 1))

/-- An inspection found no lock: the lock can be created. -/
def afterInspection (creating : Bool) : Control Content := if creating then .openNew else .outside

variable [DecidableEq Content]

/-- What the caller of `lockSnapshot` does with its result. -/
def Goal.conclude (env : Env Content) (c : Caller) (snapshot : Option (Snapshot Content)) :
    Goal Content → Control Content
  | .inspect creating attempt =>
    match snapshot with
    | none => afterInspection creating
    | some snapshot => .judge creating attempt snapshot
  | .recheck creating attempt inspected =>
    if snapshot = some inspected then .unlinkStale creating attempt inspected
    else retry creating attempt
  | .release held =>
    match snapshot, env.kind with
    | none, _ => .holding held
    | some snapshot, .lease => .judgeRelease held snapshot
    | some snapshot, .maintenance => .lstat (.releaseRecheck held snapshot)
  | .releaseRecheck held inspected =>
    if snapshot = some inspected ∧
        (env.parse inspected.raw).bind LockDocument.token = held.document.token then .unlinkOwn held
    else .holding held
  | .renew held =>
    match snapshot with
    | none => .holding held
    | some snapshot =>
      match env.parse snapshot.raw with
      | none => .holding held
      | some document =>
        if document.token = held.document.token ∧ document.ownerPid = some (env.pidOf c : Int) then
          .openRenew held snapshot document
        else .holding held
  | .renewed held => .holding held

/-- The end of an inspection. A stale verdict on a lock that names a process is given only when that
process is dead. -/
def inspected (env : Env Content) (s : State Content) (c : Caller) (creating : Bool)
    (attempt : Nat) (snapshot : Snapshot Content) : Verdict → Option (State Content)
  | .stale =>
    if (ownerPid (env.parse snapshot.raw)).any s.alive then none
    else some (s.goto c (.lstat (.recheck creating attempt snapshot)))
  | _ => some (s.goto c .outside)

/-- The end of one pending call of a live caller. `none` marks an answer the call cannot give. -/
def advance (env : Env Content) (s : State Content) (c : Caller) :
    Control Content → Act → Option (State Content)
  | .outside, .create => some (s.goto c (.lstat (.inspect true 0)))
  | .outside, .inspect => some (s.goto c (.lstat (.inspect false 0)))
  | .lstat goal, .proceed =>
    match s.file with
    | none => some (s.goto c (goal.conclude env c none))
    | some file => some (s.goto c (.read goal file.stat))
  | .read goal stat, .proceed =>
    match s.file with
    | none => some (s.goto c (goal.conclude env c none))
    | some file => some (s.goto c (goal.conclude env c (some ⟨stat, file.content⟩)))
  | .judge creating attempt snapshot, .judged now probe =>
    inspected env s c creating attempt snapshot
      (env.kind.judge (env.parse snapshot.raw) (now - snapshot.stat.mtimeMs) probe)
  -- The unlink goes by name: it removes whatever file has the lock name by now.
  | .unlinkStale creating attempt _, .proceed =>
    match s.file with
    | none => some (s.goto c (retry creating attempt))
    | some _ => some { s.goto c (afterInspection creating) with file := none }
  | .openNew, .opened stat details =>
    match s.file with
    | none =>
      some { s.goto c (.writeNew s.made (env.kind.newDocument (env.pidOf c) details)) with
        file := some ⟨s.made, stat, env.empty⟩, made := s.made + 1 }
    | some _ =>
      match env.kind with
      | .lease => some (s.goto c (.lstat (.inspect false 0)))
      | .maintenance => some (s.goto c .outside)
  | .writeNew serial document, .wrote size mtimeMs =>
    some ((s.goto c (.holding ⟨serial, document⟩)).write serial (env.render document) size mtimeMs)
  | .holding held, .release => some (s.goto c (.lstat (.release held)))
  | .holding held, .renew =>
    match env.kind with
    | .lease => some (s.goto c (.lstat (.renew held)))
    | .maintenance => none
  | .judgeRelease held snapshot, .judged _ probe =>
    if (env.parse snapshot.raw).any fun lock => releaseRefused lock probe then
      some (s.goto c (.holding held))
    else some (s.goto c (.lstat (.releaseRecheck held snapshot)))
  | .unlinkOwn held, .proceed =>
    match s.file with
    | none => some (s.goto c (.holding held))
    | some _ => some { s.goto c .outside with file := none }
  | .openRenew held snapshot document, .renewing expiresAt =>
    match s.file with
    | none => some (s.goto c (.holding held))
    | some file =>
      if file.stat.dev = snapshot.stat.dev ∧ file.stat.ino = snapshot.stat.ino then
        some (s.goto c (.truncate held { document with expiresAt := expiresAt } file.serial))
      else some (s.goto c (.holding held))
  | .truncate held document descriptor, .wrote size mtimeMs =>
    some ((s.goto c (.rewrite held document descriptor)).write descriptor env.empty size mtimeMs)
  | .rewrite held document descriptor, .wrote size mtimeMs =>
    some ((s.goto c (.lstat (.renewed ⟨held.serial, document⟩))).write descriptor
      (env.render document) size mtimeMs)
  | _, _ => none

/-- One event of the whole system. Only live processes take steps, and a dead process stays
dead. -/
def step (env : Env Content) (s : State Content) : Event → Option (State Content)
  | .at c act => if s.alive (env.pidOf c) then advance env s c (s.control c) act else none
  | .die pid => some { s with alive := fun p => if p = pid then false else s.alive p }

/-- The callers of the lock as a transition machine. -/
def machine (env : Env Content) : Machine (State Content) Event := ⟨step env⟩

end Step

/-! ## What a caller relies on -/

section Control

variable {Content : Type}

/-- The lock of a caller that has returned from the creation and has not yet reached the end of the
unlink of its release. -/
def Control.held : Control Content → Option Held
  | .holding held | .judgeRelease held _ | .unlinkOwn held | .openRenew held _ _
  | .truncate held _ _ | .rewrite held _ _ => some held
  | .lstat (.release held) | .lstat (.releaseRecheck held _) | .lstat (.renew held)
  | .lstat (.renewed held) => some held
  | .read (.release held) _ | .read (.releaseRecheck held _) _ | .read (.renew held) _
  | .read (.renewed held) _ => some held
  | _ => none

/-- The file the caller has created and relies on. -/
def Control.owned : Control Content → Option Nat
  | .writeNew serial _ => some serial
  | control => control.held.map Held.serial

/-- The file the caller has emptied and not yet written. -/
def Control.writing : Control Content → Option Nat
  | .writeNew serial _ => some serial
  | .rewrite _ _ descriptor => some descriptor
  | _ => none

/-- The file the caller has a descriptor of. -/
def Control.descriptor : Control Content → Option Nat
  | .truncate _ _ descriptor | .rewrite _ _ descriptor => some descriptor
  | _ => none

/-- The document the caller is about to write. -/
def Control.document : Control Content → Option LockDocument
  | .writeNew _ document | .openRenew _ _ document | .truncate _ document _
  | .rewrite _ document _ => some document
  | _ => none

/-- The snapshot the caller has found stale. -/
def Control.condemned : Control Content → Option (Snapshot Content)
  | .lstat (.recheck _ _ snapshot) | .read (.recheck _ _ snapshot) _
  | .unlinkStale _ _ snapshot => some snapshot
  | _ => none

/-- A live caller that holds the lock. -/
def State.Holds (env : Env Content) (s : State Content) (c : Caller) : Prop :=
  s.alive (env.pidOf c) = true ∧ (s.control c).held.isSome = true

/-- No caller has started. The lock file, if there is one, is left over. -/
structure Initial (s : State Content) : Prop where
  outside : ∀ c, s.control c = .outside
  made : ∀ file, s.file = some file → file.serial < s.made

/-- A stale file that is unlinked is the file that was inspected, and when it has no document no
live caller is about to write one. Every other event is unrestricted. -/
def UnlinksInspected (env : Env Content) (s : State Content) : Event → Prop
  | .at c _ =>
    match s.control c with
    | .unlinkStale _ _ snapshot => ∀ file, s.file = some file →
        file.stat = snapshot.stat ∧ file.content = snapshot.raw ∧
          (env.parse file.content = none → ∀ d, s.alive (env.pidOf d) = true →
            (s.control d).writing ≠ some file.serial)
    | _ => True
  | _ => True

end Control

end Ploinky.Workspace.MaintenanceLock
