import Ploinky.Js.Json
import Ploinky.Lib.Transition

/-!
# The task queue of an agent

The embedding of `TaskQueue`: tasks are enqueued, started while fewer than `maxConcurrent` are running,
cancelled, and settled when their executor completes or rejects. A call of the queue runs to its end; the
executor, its callbacks, the drain of a cancelled process group and the handler at the end of an
execution come later, as events of their own in any order. Ids come from a random generator, so that an
enqueue event carries an id that is not empty and that no task had.

The queue also keeps what its methods do not: the ids it has ever known, those restored from disk, and
the executions that were started.
-/

namespace Ploinky.Tasks

open Js Transition

/-- The status of a task. A restored task may have any value for a status. -/
inductive Status where
  | pending
  | running
  | cancelling
  | completed
  | failed
  | cancelled
  | other (value : Json)
  deriving DecidableEq

/-- `TERMINAL_STATUSES.has(status)`. -/
def Status.isTerminal : Status → Bool
  | completed => true
  | failed => true
  | cancelled => true
  | _ => false

/-- What an executor resolves to, as far as the queue reads it. -/
structure ExecutorResult where
  /-- The timer of the task fired before. -/
  timedOut : Bool
  /-- `result.code === 0`. -/
  succeeded : Bool
  /-- The output says that the work was stopped. -/
  reportsCancelled : Bool
  /-- `describeShellFailure(result)`. -/
  failure : Str
  deriving DecidableEq

/-- What an executor or a drain rejects with. -/
structure Rejection where
  message : Str
  /-- The code is one of `PLOINKY_TASK_PROCESS_GROUP_DRAIN_…`. -/
  isDrain : Bool
  deriving DecidableEq

/-- Where `executeTask` of a task is. -/
inductive Phase where
  /-- Not called, or its promise has been handled. -/
  | idle
  /-- At `await this.executor(…)`. -/
  | executing
  /-- At `await cleanup`, with the result of the executor. -/
  | draining (result : ExecutorResult)
  /-- Over, before the handler of its promise runs. -/
  | settling
  deriving DecidableEq

structure Task where
  status : Status
  error : Json
  cancelRequested : Bool
  /-- `task.commandSpec.command` is there. -/
  hasCommand : Bool
  /-- The text of `task.timeoutMs`. -/
  timeoutMs : Str
  phase : Phase
  deriving DecidableEq

/-- The variables of the queue. -/
structure Queue where
  tasks : Str → Option Task
  pending : List Str
  running : List Str
  /-- The children, with whether they have a process group of their own. -/
  activeChildren : List (Str × Bool)
  cancelCleanups : List Str
  cancelTimers : List Str
  cancellationFailures : List (Str × Str)
  initialized : Bool
  shuttingDown : Bool
  issued : List Str
  restored : List Str
  started : List Str

/-- The queue when it is constructed. -/
def Queue.initial : Queue where
  tasks _ := none
  pending := []
  running := []
  activeChildren := []
  cancelCleanups := []
  cancelTimers := []
  cancellationFailures := []
  initialized := false
  shuttingDown := false
  issued := []
  restored := []
  started := []

variable (q : Queue) (id : Str) (task : Task)

/-- Change the task of an id. -/
def Queue.setTask : Queue :=
  { q with tasks := Function.update q.tasks id (some task) }

/-! ## Execution -/

/-- The task is asked to stop. -/
def Task.stopping : Bool := task.cancelRequested || task.status = .cancelling

/-- The end of the `try` of `executeTask`. -/
def Task.complete (result : ExecutorResult) : Task :=
  if task.stopping then { task with status := .cancelled, error := .null, phase := .settling }
  else if !result.timedOut && result.succeeded then
    { task with
      status := if result.reportsCancelled then .cancelled else .completed,
      error := .null, phase := .settling }
  else
    { task with
      status := .failed,
      error := .str (if result.timedOut then
        lit "Task timed out after " ++ task.timeoutMs ++ lit "ms" else result.failure),
      phase := .settling }

/-- The `catch` of `executeTask`. -/
def Task.reject (rejection : Rejection) : Task :=
  if task.stopping && rejection.isDrain then
    { task with status := .failed, error := .str rejection.message, phase := .settling }
  else if task.stopping then { task with status := .cancelled, error := .null, phase := .settling }
  else
    { task with
      status := .failed,
      error := .str (if rejection.message.isEmpty then lit "Task execution failed" else rejection.message),
      phase := .settling }

/-- The `finally` of `executeTask`. -/
def Queue.release : Queue :=
  { q with
    activeChildren := q.activeChildren.filter fun child => child.1 ≠ id,
    cancelCleanups := q.cancelCleanups.filter fun other => other ≠ id,
    cancelTimers := q.cancelTimers.filter fun other => other ≠ id }

/-- The execution of a task ends with a result. -/
def Queue.complete (result : ExecutorResult) : Queue :=
  (q.setTask id (task.complete result)).release id

/-- The execution of a task ends with an error. -/
def Queue.reject (rejection : Rejection) : Queue :=
  let ended := (q.setTask id (task.reject rejection)).release id
  if task.stopping && rejection.isDrain then
    { ended with cancellationFailures := ended.cancellationFailures ++ [(id, rejection.message)] }
  else ended

/-- `set.add(id)`. -/
def addTo (ids : List Str) (id : Str) : List Str := if id ∈ ids then ids else ids ++ [id]

/-- The task while it executes. -/
def Task.begun : Task := { task with status := .running, phase := .executing }

/-- `startTask(task)`, with `executeTask` up to its first `await`. -/
def Queue.startTask : Queue :=
  let q := { q.setTask id task.begun with running := addTo q.running id }
  if task.hasCommand then { q with started := q.started ++ [id] }
  else q.reject id task.begun ⟨"Missing command specification for task", false⟩

/-- One turn of the loop of `processQueue`, for the first pending id. -/
def Queue.takeNext (rest : List Str) : Queue :=
  let q := { q with pending := rest }
  if id.isEmpty then q
  else match q.tasks id with
    | none => q
    | some task => if task.status = .pending then q.startTask id task else q

/-- The loop of `processQueue`, for at most the given number of turns. -/
def Queue.pump (maxConcurrent : Nat) : Nat → Queue → Queue
  | 0, q => q
  | turns + 1, q =>
    match q.pending with
    | [] => q
    | id :: rest =>
      if q.running.length < maxConcurrent then pump maxConcurrent turns (q.takeNext id rest) else q

/-- `processQueue()`. Every turn removes an id from `pending`. -/
def Queue.processQueue (maxConcurrent : Nat) : Queue :=
  if q.shuttingDown then q else q.pump maxConcurrent q.pending.length

/-! ## Restoration -/

/-- The status of an entry of the file. -/
def statusOf (value : Option Json) : Status :=
  match value with
  | some value =>
    if !value.truthy then .pending
    else if value = .str "pending" then .pending
    else if value = .str "running" then .running
    else if value = .str "cancelling" then .cancelling
    else if value = .str "completed" then .completed
    else if value = .str "failed" then .failed
    else if value = .str "cancelled" then .cancelled
    else .other value
  | none => .pending

/-- A task as it is restored, with the changes that `initialize` makes to it. -/
def restoredTask (entry : Json) : Task :=
  let task : Task :=
    ⟨statusOf (entry.prop "status"), (entry.prop "error").getD .null, false, false, [], .idle⟩
  match task.status with
  | .cancelling => { task with status := .cancelled, error := .null }
  | .pending | .running =>
    { task with
      status := .failed, error := .str "Task interrupted before completion (agent restart)" }
  | _ => task

/-- One turn of the loop of `restoreFromDisk`. -/
def Queue.restoreEntry (entry : Json) : Queue :=
  match entry.prop "id" with
  | some (.str id) =>
    { q.setTask id (restoredTask entry) with
      issued := id :: q.issued, restored := id :: q.restored }
  | _ => q

/-- `restoreFromDisk()`, with what the file parses to. -/
def Queue.restoreFromDisk (disk : Option Json) : Queue :=
  match disk with
  | some (.arr entries) => entries.foldl Queue.restoreEntry q
  | _ => q

/-- `initialize()`. -/
def Queue.initializeQueue (maxConcurrent : Nat) (disk : Option Json) : Queue :=
  if q.initialized then q
  else ({ q with initialized := true }.restoreFromDisk disk).processQueue maxConcurrent

/-! ## The methods -/

/-- A new task. -/
def newTask (hasCommand : Bool) (timeoutMs : Str) : Task :=
  ⟨.pending, .null, false, hasCommand, timeoutMs, .idle⟩

/-- `enqueueTask({ … })` after `initialize`, for a queue that is not shutting down. -/
def Queue.enqueue (maxConcurrent : Nat) (id : Str) (task : Task) : Queue :=
  { q.setTask id task with pending := q.pending ++ [id], issued := id :: q.issued }.processQueue
    maxConcurrent

/-- `requestRunningTaskCancellation(task, child)`, the signals left out. -/
def Queue.requestCancellation (hasGroup : Bool) : Queue :=
  if id ∈ q.cancelCleanups ∨ id ∈ q.cancelTimers then q
  else if hasGroup then { q with cancelCleanups := q.cancelCleanups ++ [id] }
  else { q with cancelTimers := q.cancelTimers ++ [id] }

/-- `cancelTask(taskId)` after `initialize`. -/
def Queue.cancelTask (maxConcurrent : Nat) (id : Str) : Queue :=
  match q.tasks id with
  | none => q
  | some task =>
    if task.status.isTerminal then q
    else if task.status = .pending then
      { q.setTask id { task with status := .cancelled, cancelRequested := true, error := .null } with
        pending := q.pending.filter fun candidate => candidate ≠ id }.processQueue maxConcurrent
    else
      let q := q.setTask id { task with status := .cancelling, cancelRequested := true, error := .null }
      match q.activeChildren.lookup id with
      | some hasGroup => q.requestCancellation id hasGroup
      | none => q

/-- `shutdown()` after `initialize`. A second call returns the promise of the first. -/
def Queue.shutdown (maxConcurrent : Nat) : Queue :=
  if q.shuttingDown then q
  else (q.pending ++ q.running).foldl (fun q id => q.cancelTask maxConcurrent id)
    { q with shuttingDown := true }

/-- The callback `onSpawn(child)`. -/
def Queue.onSpawn (hasGroup : Bool) : Queue :=
  let q := { q with
    activeChildren := (id, hasGroup) :: q.activeChildren.filter fun child => child.1 ≠ id }
  if task.cancelRequested then q.requestCancellation id hasGroup else q

/-- The handler of the promise of `executeTask`. -/
def Queue.onSettled (maxConcurrent : Nat) (id : Str) (task : Task) : Queue :=
  let q := { q.setTask id { task with phase := .idle } with running := q.running.filter fun other => other ≠ id }
  let q := if task.status = .pending ∧ id ∉ q.pending then { q with pending := q.pending ++ [id] } else q
  q.processQueue maxConcurrent

/-- The snapshot that is written drops terminal tasks; which of them depends on their times. -/
def Queue.prune (chosen : List Str) : Queue :=
  { q with
    tasks := fun id =>
      match q.tasks id with
      | some task =>
        if id ∈ chosen ∧ task.status.isTerminal ∧ id ∉ q.running ∧ q.activeChildren.lookup id = none
        then none else some task
      | none => none }

/-! ## The events -/

inductive Event where
  | initializeQueue
  | enqueue (id : Str) (hasCommand : Bool) (timeoutMs : Str)
  | cancel (id : Str)
  | shutdown
  | spawned (id : Str) (hasGroup : Bool)
  | resolved (id : Str) (result : ExecutorResult)
  | rejected (id : Str) (rejection : Rejection)
  | drained (id : Str)
  | drainFailed (id : Str) (rejection : Rejection)
  | settled (id : Str)
  | prune (chosen : List Str)

/-- The executor of a task resolves. A task that is asked to stop waits for its process group. -/
def Queue.onResolved (result : ExecutorResult) : Queue :=
  if task.stopping ∧ id ∈ q.cancelCleanups then q.setTask id { task with phase := .draining result }
  else q.complete id task result

/-- One event, where it can happen. -/
def step (maxConcurrent : Nat) (disk : Option Json) (q : Queue) (event : Event) : Option Queue :=
  match event with
  | .initializeQueue => some (q.initializeQueue maxConcurrent disk)
  | .enqueue id hasCommand timeoutMs =>
    let q := q.initializeQueue maxConcurrent disk
    if q.shuttingDown then some q
    else if id.isEmpty ∨ id ∈ q.issued then none
    else some (q.enqueue maxConcurrent id (newTask hasCommand timeoutMs))
  | .cancel id => some ((q.initializeQueue maxConcurrent disk).cancelTask maxConcurrent id)
  | .shutdown => some ((q.initializeQueue maxConcurrent disk).shutdown maxConcurrent)
  | .spawned id hasGroup =>
    match q.tasks id with
    | some task => if id ∈ q.started then some (q.onSpawn id task hasGroup) else none
    | none => none
  | .resolved id result =>
    match q.tasks id with
    | some task => if task.phase = .executing then some (q.onResolved id task result) else none
    | none => none
  | .rejected id rejection =>
    match q.tasks id with
    | some task => if task.phase = .executing then some (q.reject id task rejection) else none
    | none => none
  | .drained id =>
    match q.tasks id with
    | some task =>
      match task.phase with
      | .draining result => some (q.complete id task result)
      | _ => none
    | none => none
  | .drainFailed id rejection =>
    match q.tasks id with
    | some task =>
      match task.phase with
      | .draining _ => some (q.reject id task rejection)
      | _ => none
    | none => none
  | .settled id =>
    match q.tasks id with
    | some task => if task.phase = .settling then some (q.onSettled maxConcurrent id task) else none
    | none => none
  | .prune chosen => some (q.prune chosen)

/-- The queue of an agent, for the file it finds. -/
def machine (maxConcurrent : Nat) (disk : Option Json) : Machine Queue Event :=
  ⟨step maxConcurrent disk⟩

end Ploinky.Tasks
