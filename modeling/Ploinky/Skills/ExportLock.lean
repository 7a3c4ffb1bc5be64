import Ploinky.Js.JsonText
import Ploinky.Js.Error
import Ploinky.Lib.Transition

/-!
# The skill export lock

`acquireLockDirectory` takes a lock by creating a directory and recording its owner inside it.
A lock whose owner is found dead is reclaimed: `reclaimDeadLock` creates a marker in the directory,
reads the owner record again, and only then removes record, marker and directory, one call each.
`SkillExportLock.release` removes the record and the directory of its own lock.

Any number of callers run, several of which may belong to one process. Every file-system call is one
atomic step that fails exactly when the state of the lock path makes it fail, and a process may die
between any two calls. The contents of an owner record are a type of their own: all the code does
with them is to compare them and to parse them.
-/

namespace Ploinky.Skills.ExportLock

open Transition Js

/-! ## The owner of a lock -/

/-- `EXPORT_PROTOCOL`. -/
def exportProtocol : Str := "ploinky-skill-exports"

/-- `EXPORT_PROTOCOL_VERSION`. -/
def exportProtocolVersion : Json := .num "1"

/-- The scope `liveness.current()` reports for the running process. -/
structure Identity where
  boot : Str
  pidNamespace : Str
  deriving DecidableEq

/-- What a caller can find out about other processes: `livenessOf(options)` and, when the options
hold run evidence, its `ended` with an exception read as `false`. -/
structure Liveness where
  current : Identity
  alive : Nat → Bool
  start : Nat → Str
  ended : Option (Json → Bool)

/-- What a lock is found to be. `reclaimPending` is the answer of `reclaimDeadLock` that another
reclaim is under way; the others are the answers of `classifyLockOwner`. -/
inductive Standing where
  | live
  | dead
  | unknown
  | ownerless
  | foreign
  | reclaimPending
  deriving DecidableEq

/-- The process id of a record, when it is a positive safe integer. -/
def ownerPid (owner : Json) : Option Nat :=
  ((owner.prop "pid").bind Json.natural).filter fun pid => decide (0 < pid ∧ pid < 2 ^ 53)

/-- A field of a record that is a text other than the empty one. -/
def nonEmptyText (field : Option Json) : Bool :=
  match field with
  | some (.str text) => !text.isEmpty
  | _ => false

/-- The boot and the process namespace of a record could be read. -/
def readScope (owner : Json) : Bool :=
  nonEmptyText (owner.prop "boot") && nonEmptyText (owner.prop "namespace")

/-- The run of the box that the record names has ended. -/
def ownerRunEnded (owner : Json) (liveness : Liveness) : Bool :=
  match liveness.ended, owner.prop "box" with
  | some ended, some (.obj box) =>
    !liveness.current.boot.isEmpty && !liveness.current.pidNamespace.isEmpty &&
      readScope owner && (ownerPid owner).isSome && ended (.obj box)
  | _, _ => false

/-- The record was written by this version of the protocol. -/
def ownRecord (owner : Json) : Bool :=
  isStr (owner.prop "protocol") exportProtocol &&
    owner.prop "version" == some exportProtocolVersion &&
    ((owner.prop "token").bind Json.str?).isSome

/-- The record was written in the scope the caller runs in. -/
def sameScope (owner : Json) (current : Identity) : Bool :=
  !current.boot.isEmpty && !current.pidNamespace.isEmpty &&
    isStr (owner.prop "boot") current.boot && isStr (owner.prop "namespace") current.pidNamespace

/-- `classifyLockOwner(owner, options)`. -/
def classifyLockOwner (owner : Option Json) (liveness : Liveness) : Standing :=
  match owner with
  | none => .ownerless
  | some owner =>
    if !ownRecord owner then .foreign
    else if !sameScope owner liveness.current then
      if ownerRunEnded owner liveness then .dead else .unknown
    else
      match ownerPid owner with
      | none => .foreign
      | some pid =>
        if !liveness.alive pid then .dead
        -- The process id is in use again, by a process that started at another time.
        else if truthy (owner.prop "start") && !(liveness.start pid).isEmpty &&
            !isStr (owner.prop "start") (liveness.start pid) then .dead
        else .live

/-- The fields of an owner record besides the protocol and the token. -/
structure OwnerDetails where
  folder : Str
  folderId : Str
  executor : Json
  authority : Json
  hostname : Str
  container : Bool
  boot : Str
  pidNamespace : Str
  pid : Nat
  start : Str
  box : Json
  acquiredAt : Str

/-- The record `acquireLockDirectory` writes. -/
def ownerRecord (details : OwnerDetails) (token : Str) : Json :=
  .obj [("protocol", .str exportProtocol), ("version", exportProtocolVersion),
    ("token", .str token), ("folder", .str details.folder), ("folderId", .str details.folderId),
    ("executor", details.executor), ("authority", details.authority),
    ("hostname", .str details.hostname), ("container", .bool details.container),
    ("boot", .str details.boot), ("namespace", .str details.pidNamespace),
    ("pid", .num (ofNat details.pid)), ("start", .str details.start), ("box", details.box),
    ("acquiredAt", .str details.acquiredAt)]

/-! ## Failures -/

/-- A failure of `skillExportError`, or of a file-system call when it has no outcome. -/
structure ExportError where
  code : Str
  message : Str
  outcome : Str
  deriving DecidableEq

/-- The error of a file-system call. -/
def systemError (code : String) : ExportError := ⟨code, [], []⟩

/-- The holder named in a message. -/
def holder (owner : Option Json) : Str :=
  let pid := owner.bind fun record => record.prop "pid"
  let hostname := owner.bind fun record => record.prop "hostname"
  if truthy pid then
    lit " held by pid " ++ strOr pid [] ++
      (if truthy hostname then lit " on " ++ strOr hostname [] else [])
  else []

/-- `blockedError(state, lockPath, owner)`. -/
def blockedError (state : Standing) (lockPath : Str) (owner : Option Json) : ExportError :=
  match state with
  | .ownerless =>
    ⟨"SKILL_EXPORT_LOCK_OWNERLESS",
      lit "Skill export lock has no owner record (an exporter is starting or stopped before " ++
        lit "recording itself); it is preserved and never reclaimed by age. Stop every exporter " ++
        lit "for this folder, verify none is running, then remove the lock directory: " ++ lockPath,
      "blocked-ownerless-lock"⟩
  | .unknown =>
    ⟨"SKILL_EXPORT_LOCK_UNKNOWN_OWNER",
      lit "Skill export lock" ++ holder owner ++
        lit " belongs to another boot, host or PID namespace; its liveness cannot be proven " ++
        lit "here. Recovery requires the owning runtime to finish or be proven terminated: " ++
        lockPath,
      "blocked-unknown-owner"⟩
  | .foreign =>
    ⟨"SKILL_EXPORT_LOCK_FOREIGN",
      lit "Skill export lock has an unsupported owner record; it is preserved: " ++ lockPath,
      "blocked-foreign-lock"⟩
  | .reclaimPending =>
    ⟨"SKILL_EXPORT_LOCK_RECOVERY_REQUIRED",
      lit "Skill export lock" ++ holder owner ++
        lit " belongs to a terminated owner but another reclaim is pending; inspect " ++
        lockPath ++ lit "/.reclaim: " ++ lockPath,
      "recovery-required"⟩
  | _ =>
    ⟨"SKILL_EXPORT_LOCK_BUSY",
      lit "Skill export already active" ++ holder owner ++ lit "; retry after it finishes: " ++
        lockPath,
      "blocked-busy"⟩

/-- The directory of a reclaimed lock was not empty. -/
def recoveryRequired (lockPath : Str) : ExportError :=
  ⟨"SKILL_EXPORT_LOCK_RECOVERY_REQUIRED",
    lit "Terminated skill export lock contains unexpected entries and is preserved: " ++ lockPath,
    "recovery-required"⟩

/-- `assertHeld` found another lock, or none. -/
def lockLost (lockPath : Str) : ExportError :=
  ⟨"SKILL_EXPORT_LOCK_LOST",
    lit "Skill export lock is no longer held by this transaction: " ++ lockPath, "lock-lost"⟩

/-! ## The lock path -/

/-- One invocation site of `acquireLockDirectory`. -/
abbrev Caller := Nat

/-- A process. -/
abbrev Process := Nat

/-- The device and inode number that `fileId` compares. -/
structure FileId where
  dev : Nat
  ino : Nat
  deriving DecidableEq

/-- A regular file under the name `owner.json`. -/
structure Record (Content : Type) where
  id : FileId
  content : Content
  deriving DecidableEq

/-- The entry named `owner.json`. -/
inductive OwnerEntry (Content : Type) where
  | file (record : Record Content)
  | other
  deriving DecidableEq

/-- The lock directory: its owner record, the reclaim marker, and the temporary files of records
that are being written. -/
structure LockDir (Content : Type) where
  id : FileId
  owner : Option (OwnerEntry Content)
  marker : Bool
  temps : List Str
  deriving DecidableEq

/-- What stands at the lock path. -/
inductive LockNode (Content : Type) where
  | directory (dir : LockDir Content)
  | other (id : FileId)
  deriving DecidableEq

section LockDir

variable {Content : Type}

/-- The directory can be removed. -/
def LockDir.isEmpty (dir : LockDir Content) : Bool :=
  dir.owner.isNone && !dir.marker && dir.temps.isEmpty

/-- The owner record of the directory. -/
def LockDir.record (dir : LockDir Content) : Option (Record Content) :=
  match dir.owner with
  | some (.file record) => some record
  | _ => none

end LockDir

/-! ## The callers -/

/-- An owner record as `reclaimDeadLock` is given it. -/
structure Observation (Content : Type) where
  directory : FileId
  record : Record Content
  deriving DecidableEq

/-- The fields of a `SkillExportLock` that its methods read. -/
structure Lock where
  lockId : FileId
  token : Str
  deriving DecidableEq

/-- Who called `readLockState`. -/
inductive Purpose (Content : Type) where
  | inspect
  | verify (observed : Observation Content)
  | assertHeld (lock : Lock) (releasing : Bool)
  deriving DecidableEq

/-- The result of `readLockState`. -/
inductive LockState (Content : Type) where
  | missing
  | invalid
  | directory (id : FileId) (record : Option (Record Content))
  deriving DecidableEq

/-- The pending call of one caller, with the local variables still in use. -/
inductive Control (Content : Type) where
  | outside (failure : Option ExportError)
  | mkdirLock
  | lstatLock (purpose : Purpose Content)
  | lstatOwner (purpose : Purpose Content) (directory : FileId)
  | readOwner (purpose : Purpose Content) (directory stat : FileId)
  | classify (observed : Observation Content)
  | wait (state : Standing) (owner : Option Json)
  | mkdirMarker (observed : Observation Content)
  | unlinkOwner (observed : Observation Content)
  | rmdirMarker
  | dropMarker (failure : Option ExportError)
  | rmdirReclaimed
  | openTemp
  | renameTemp (name : Str) (record : Record Content) (token : Str)
  | removeLock (failure : ExportError)
  | lstatAcquired (token : Str)
  | holding (lock : Lock)
  | releaseUnlink (lock : Lock)
  | releaseRmdir (attempt : Nat)

/-- How the pending call of a caller ends. -/
inductive Act where
  | call
  | makes (id : FileId)
  | proceed
  | classified (liveness : Liveness)
  | waited
  | expired
  | opened (details : OwnerDetails) (token name : Str) (id : FileId)
  | asserts
  | release

/-- One atomic event: a caller's pending call ends, or a process dies. -/
inductive Event where
  | at (caller : Caller) (act : Act)
  | die (process : Process)

/-- What the callers cannot change: the process of each caller, the lock path, and how records are
written and parsed. A record that was written parses to one with its token. -/
structure Env (Content : Type) where
  processOf : Caller → Process
  lockPath : Str
  render : Json → Content
  ownerOf : Content → Option Json
  token_render : ∀ details token, ∃ owner, ownerOf (render (ownerRecord details token)) = some owner ∧
    owner.prop "token" = some (.str token)

/-- The lock path, the owner tokens drawn so far with the process that drew each, the processes and
the callers. -/
structure State (Content : Type) where
  lock : Option (LockNode Content)
  issued : List (Str × Process)
  alive : Process → Bool
  control : Caller → Control Content

section Step

variable {Content : Type} [DecidableEq Content]

/-- Set the control of one caller. -/
def State.goto (s : State Content) (c : Caller) (control : Control Content) : State Content :=
  { s with control := fun d => if d = c then control else s.control d }

/-- Set what stands at the lock path. -/
def State.put (s : State Content) (lock : Option (LockNode Content)) : State Content :=
  { s with lock := lock }

/-- The directory at the lock path. -/
def State.dir (s : State Content) : Option (LockDir Content) :=
  match s.lock with
  | some (.directory dir) => some dir
  | _ => none

variable (env : Env Content)

/-- The token of a record. -/
def Env.tokenOf (content : Content) : Option Str :=
  (env.ownerOf content).bind fun owner => (owner.prop "token").bind Json.str?

/-- The process that drew the token of a record is dead. -/
def State.ownerDead (s : State Content) (content : Content) : Bool :=
  s.issued.any fun draw => env.tokenOf content == some draw.1 && !s.alive draw.2

/-- The condition of `assertHeld` on what `readLockState` returned. -/
def LockState.holds (lock : Lock) : LockState Content → Bool
  | .directory id (some record) => id == lock.lockId && env.tokenOf record.content == some lock.token
  | _ => false

/-- The lock state is the one that was observed. -/
def LockState.matches (observed : Observation Content) : LockState Content → Bool
  | .directory id (some record) => id == observed.directory && record == observed.record
  | _ => false

/-- What the caller of `readLockState` does with its result. -/
def Purpose.conclude (state : LockState Content) : Purpose Content → Control Content
  | .inspect =>
    match state with
    | .missing => .mkdirLock
    | .invalid => .wait .foreign none
    | .directory _ none => .wait .ownerless none
    | .directory id (some record) => .classify ⟨id, record⟩
  | .verify observed => if state.matches observed then .unlinkOwner observed else .dropMarker none
  | .assertHeld lock releasing =>
    if state.holds env lock then
      if releasing then .releaseUnlink lock else .holding lock
    else .outside (some (lockLost env.lockPath))

/-- The control after the `finally` block of `reclaimDeadLock`: the failure is thrown on, or the
result is `changed` and the acquisition is tried again. -/
def afterReclaim : Option ExportError → Control Content
  | none => .mkdirLock
  | some failure => .outside (some failure)

/-- A dead owner's lock is reclaimed, any other lock is waited for. -/
def classifiedAs (s : State Content) (c : Caller)
    (observed : Observation Content) : Standing → Option (State Content)
  | .dead =>
    if s.ownerDead env observed.record.content then some (s.goto c (.mkdirMarker observed))
    else none
  | state => some (s.goto c (.wait state (env.ownerOf observed.record.content)))

/-- The end of one pending call of a live caller. `none` marks an answer the call cannot give: in
particular a token or a temporary name is never drawn twice, and an owner is classified as dead only
when the process that drew its token is dead. -/
def advance (s : State Content) (c : Caller) :
    Control Content → Act → Option (State Content)
  | .outside _, .call => some (s.goto c .mkdirLock)
  | .mkdirLock, .makes id =>
    match s.lock with
    | none => some ((s.goto c .openTemp).put (some (.directory ⟨id, none, false, []⟩)))
    | some _ => some (s.goto c (.lstatLock .inspect))
  | .lstatLock purpose, .proceed =>
    match s.lock with
    | none => some (s.goto c (purpose.conclude env .missing))
    | some (.other _) => some (s.goto c (purpose.conclude env .invalid))
    | some (.directory dir) => some (s.goto c (.lstatOwner purpose dir.id))
  | .lstatOwner purpose directory, .proceed =>
    match s.dir.bind LockDir.record with
    | some record => some (s.goto c (.readOwner purpose directory record.id))
    | none => some (s.goto c (purpose.conclude env (.directory directory none)))
  | .readOwner purpose directory stat, .proceed =>
    match s.dir.bind LockDir.record with
    | some record =>
      some (s.goto c (purpose.conclude env (.directory directory (some ⟨stat, record.content⟩))))
    | none => some (s.goto c (purpose.conclude env (.directory directory none)))
  | .classify observed, .classified liveness =>
    classifiedAs env s c observed
      (classifyLockOwner (env.ownerOf observed.record.content) liveness)
  | .wait _ _, .waited => some (s.goto c .mkdirLock)
  | .wait state owner, .expired =>
    some (s.goto c (.outside (some (blockedError state env.lockPath owner))))
  | .mkdirMarker observed, .proceed =>
    match s.lock with
    | none => some (s.goto c .mkdirLock)
    | some (.other _) => some (s.goto c (.outside (some (systemError "ENOTDIR"))))
    | some (.directory dir) =>
      if dir.marker then
        some (s.goto c (.wait .reclaimPending (env.ownerOf observed.record.content)))
      else some ((s.goto c (.lstatLock (.verify observed))).put
        (some (.directory { dir with marker := true })))
  | .unlinkOwner _, .proceed =>
    match s.dir with
    | some dir =>
      match dir.record with
      | some _ => some ((s.goto c .rmdirMarker).put (some (.directory { dir with owner := none })))
      | none => some (s.goto c (.dropMarker (some (systemError "ENOENT"))))
    | none => some (s.goto c (.dropMarker (some (systemError "ENOENT"))))
  | .rmdirMarker, .proceed =>
    match s.dir with
    | some dir =>
      if dir.marker then
        some ((s.goto c .rmdirReclaimed).put (some (.directory { dir with marker := false })))
      else some (s.goto c (.dropMarker (some (systemError "ENOENT"))))
    | none => some (s.goto c (.dropMarker (some (systemError "ENOENT"))))
  -- The `finally` block ignores the failure of this call.
  | .dropMarker failure, .proceed =>
    match s.dir with
    | some dir =>
      some ((s.goto c (afterReclaim failure)).put (some (.directory { dir with marker := false })))
    | none => some (s.goto c (afterReclaim failure))
  | .rmdirReclaimed, .proceed =>
    match s.lock with
    | none => some (s.goto c .mkdirLock)
    | some (.other _) => some (s.goto c (.outside (some (recoveryRequired env.lockPath))))
    | some (.directory dir) =>
      if dir.isEmpty then some ((s.goto c .mkdirLock).put none)
      else some (s.goto c (.outside (some (recoveryRequired env.lockPath))))
  | .openTemp, .opened details token name id =>
    if token ∈ s.issued.map Prod.fst then none
    else
      match s.dir with
      | none => some (s.goto c (.removeLock (systemError "ENOENT")))
      | some dir =>
        if name ∈ dir.temps then none
        else some { (s.goto c (.renameTemp name ⟨id, env.render (ownerRecord details token)⟩ token)).put
            (some (.directory { dir with temps := name :: dir.temps })) with
          issued := (token, env.processOf c) :: s.issued }
  | .renameTemp name record token, .proceed =>
    match s.dir with
    | none => some (s.goto c (.removeLock (systemError "ENOENT")))
    | some dir =>
      if name ∈ dir.temps ∧ dir.owner ≠ some .other then
        some ((s.goto c (.lstatAcquired token)).put (some (.directory
          { dir with owner := some (.file record), temps := dir.temps.erase name })))
      else some (s.goto c (.removeLock (systemError "ENOENT")))
  -- `rmSync` removes whatever has the lock path by now, with all it contains.
  | .removeLock failure, .proceed => some ((s.goto c (.outside (some failure))).put none)
  | .lstatAcquired token, .proceed =>
    match s.lock with
    | none => some (s.goto c (.outside (some (systemError "ENOENT"))))
    | some (.other id) => some (s.goto c (.holding ⟨id, token⟩))
    | some (.directory dir) => some (s.goto c (.holding ⟨dir.id, token⟩))
  | .holding lock, .asserts => some (s.goto c (.lstatLock (.assertHeld lock false)))
  | .holding lock, .release => some (s.goto c (.lstatLock (.assertHeld lock true)))
  | .releaseUnlink _, .proceed =>
    match s.dir with
    | some dir =>
      match dir.record with
      | some _ => some ((s.goto c (.releaseRmdir 0)).put (some (.directory { dir with owner := none })))
      | none => some (s.goto c (.outside (some (systemError "ENOENT"))))
    | none => some (s.goto c (.outside (some (systemError "ENOENT"))))
  | .releaseRmdir attempt, .proceed =>
    match s.lock with
    | none => some (s.goto c (.outside (some (systemError "ENOENT"))))
    | some (.other _) => some (s.goto c (.outside (some (systemError "ENOTDIR"))))
    | some (.directory dir) =>
      if dir.isEmpty then some ((s.goto c (.outside none)).put none)
      else if 40 ≤ attempt then some (s.goto c (.outside (some (systemError "ENOTEMPTY"))))
      else some (s.goto c (.releaseRmdir (attempt + 1)))
  | _, _ => none

/-- One event of the whole system. Only live processes take steps, and a dead process stays
dead. -/
def step (s : State Content) : Event → Option (State Content)
  | .at c act => if s.alive (env.processOf c) then advance env s c (s.control c) act else none
  | .die process => some { s with alive := fun p => if p = process then false else s.alive p }

/-- The callers of the skill export lock as a transition machine. -/
def machine : Machine (State Content) Event := ⟨step env⟩

end Step

end Ploinky.Skills.ExportLock
