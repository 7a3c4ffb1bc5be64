import Ploinky.Tasks.Queue

/-!
# The file of the task queue

The embedding of `persistTasks`, `armPersistTimer`, `startPersistWrite`, `flushPersist` and `writeSnapshot`.
A change of the tasks makes the file stale and arms a timer; the timer, or a flush, starts a write of a
snapshot. The calls of a write on the file system and the reactions of its promise are events of their own.
The reactions run in the order of their registration, so that `persistWrite` is reset before whoever awaits
the write goes on. A write that is started before `persistWrite` was reset would make the earlier one an
orphan.

Read `persistence_not_lost` first.
-/

namespace Ploinky.Tasks.Persistence

open Js Transition Function List Option

/-- What `persistableTask` keeps of a task. -/
structure Persisted where
  id : Str
  status : Status
  createdAt : Json
  updatedAt : Json
  toolName : Json
  timeoutMs : Json
  error : Json
  logRetention : Json
  continuationTool : Json
  taskMessageTool : Json
  liveContinuation : Json
  details : Json
  deriving DecidableEq

structure Task where
  persisted : Persisted
  /-- The other fields: the command, the payload, the result and the log. -/
  unsaved : Json
  deriving DecidableEq

def persistableTask (task : Task) : Persisted := task.persisted

/-- The settings of the queue, with the functions of the platform that it calls. -/
structure Config where
  maxTerminalTasks : Nat
  terminalRetentionMs : Int
  /-- `JSON.stringify`. -/
  stringify : List Persisted → Str
  /-- `Date.parse(value || '')`, where it is finite. -/
  parseDate : Json → Option Int

/-- Who goes on when a write is over, after `persistWrite` was reset. -/
inductive Reaction where
  /-- The callback of the timer: `if (!error) this.armPersistTimer()`. -/
  | rearm
  /-- A flush that awaits the write, with whether it has started it. -/
  | resume (flush : Nat) (own : Bool)
  deriving DecidableEq

inductive Progress where
  | writing
  | renamed
  | failed
  /-- The promise of `startPersistWrite` has resolved, to an error or to `null`. -/
  | settled (error : Bool)
  deriving DecidableEq

structure Write where
  /-- The text that was taken from the tasks. -/
  json : Str
  progress : Progress
  reactions : List Reaction

inductive Outcome where
  | pending
  | resolved
  | rejected
  deriving DecidableEq

structure Flush where
  required : Bool
  outcome : Outcome

/-- The variables of the queue that its persistence reads, with its file. -/
structure Store where
  tasks : List Task
  running : List Str
  activeChildren : List Str
  initialized : Bool
  file : Option Str
  persistDirty : Bool
  persistTimer : Bool
  persistWrite : Option Write
  orphans : List Write
  /-- The reactions that are due, each with whether its write failed. -/
  due : List (Bool × Reaction)
  flushes : Nat → Option Flush
  /-- Not variables of the source: whether `persistTasks` was called, how many writes were started, and
  whether one has failed. -/
  changed : Bool
  started : Nat
  failed : Bool

/-- The queue when it is constructed. -/
def Store.initial (file : Option Str) : Store :=
  ⟨[], [], [], false, file, false, false, none, [], [], fun _ => none, false, 0, false⟩

inductive Event where
  /-- `initialize()`: the tasks that were restored, and whether it has called `persistTasks`. -/
  | restore (tasks : List Task) (persists : Bool)
  /-- A method changes the tasks and calls `persistTasks`. -/
  | change (tasks : List Task) (running activeChildren : List Str)
  /-- A method changes what is not persisted. -/
  | touch (tasks : List Task) (running activeChildren : List Str)
  | timer (now : Int)
  | flush (id : Nat) (required : Bool) (now : Int)
  /-- The temporary file of the write was written and renamed. -/
  | renamed
  /-- A call of `writeSnapshot` has failed. -/
  | failed
  /-- The promise of `writeSnapshot` is handled. -/
  | settle
  /-- `if (this.persistWrite === write) this.persistWrite = null`. -/
  | clear
  | react (now : Int)

/-- The event calls `persistTasks`. -/
def Event.changes : Event → Bool
  | restore _ persists => persists
  | change _ _ _ => true
  | _ => false

namespace Store

/-- The text of the current tasks. -/
def snapshot (config : Config) (s : Store) : Str := config.stringify (s.tasks.map persistableTask)

def armPersistTimer (s : Store) : Store :=
  if s.persistTimer || s.persistWrite.isSome || !s.persistDirty then s else { s with persistTimer := true }

def persistTasks (s : Store) : Store :=
  { s with persistDirty := true, changed := true }.armPersistTimer

end Store

def taskTimestamp (config : Config) (task : Task) : Int :=
  match config.parseDate task.persisted.updatedAt, config.parseDate task.persisted.createdAt with
  | some updated, _ => updated
  | none, some created => created
  | none, none => 0

def pruneTerminalTasks (config : Config) (now : Int) (s : Store) : List Task :=
  let terminal := s.tasks.filter fun task => task.persisted.status.isTerminal &&
    !s.running.contains task.persisted.id && !s.activeChildren.contains task.persisted.id
  let sorted := terminal.insertionSort fun a b => taskTimestamp config b ≤ taskTimestamp config a
  let dropped := sorted.zipIdx.filter fun task => !(task.2 < config.maxTerminalTasks &&
    now - taskTimestamp config task.1 ≤ config.terminalRetentionMs)
  s.tasks.filter fun task => !dropped.any fun other => other.1.persisted.id == task.persisted.id

namespace Store

/-- `startPersistWrite()`, with the reaction that its caller registers. -/
def startPersistWrite (config : Config) (now : Int) (reaction : Reaction) (s : Store) : Store :=
  let s := { s with tasks := pruneTerminalTasks config now s }
  { s with
    persistTimer := false
    persistDirty := false
    persistWrite := some ⟨s.snapshot config, .writing, [reaction]⟩
    orphans := s.persistWrite.toList ++ s.orphans
    started := s.started + 1 }

def endFlush (s : Store) (id : Nat) (outcome : Outcome) : Store :=
  { s with flushes := update s.flushes id ((s.flushes id).map fun flush => { flush with outcome }) }

/-- The loop of `flushPersist`, up to its next `await` or its end. -/
def flushLoop (config : Config) (now : Int) (id : Nat) (s : Store) : Store :=
  match s.persistWrite with
  | some w => { s with persistWrite := some { w with reactions := w.reactions ++ [.resume id false] } }
  | none => if s.persistDirty then s.startPersistWrite config now (.resume id true) else s.endFlush id .resolved

/-- A reaction of a write that is over. -/
def react (config : Config) (now : Int) (error : Bool) (s : Store) : Reaction → Store
  | .rearm => if error then s else s.armPersistTimer
  | .resume id own =>
    if own && error then
      s.endFlush id (if (s.flushes id).any Flush.required then .rejected else .resolved)
    else s.flushLoop config now id

/-- One event, where it can happen. -/
def step (config : Config) (s : Store) : Event → Option Store
  | .restore tasks persists =>
    if s.initialized then none
    else
      let s := { s with tasks, initialized := true }
      some (if persists then s.persistTasks else s)
  | .change tasks running activeChildren =>
    if s.initialized then some { s with tasks, running, activeChildren }.persistTasks else none
  | .touch tasks running activeChildren =>
    if tasks.map persistableTask = s.tasks.map persistableTask then
      some { s with tasks, running, activeChildren }
    else none
  | .timer now =>
    if s.persistTimer then
      let s := { s with persistTimer := false }
      some (if s.persistWrite.isSome || !s.persistDirty then s else s.startPersistWrite config now .rearm)
    else none
  | .flush id required now =>
    if (s.flushes id).isSome then none
    else
      some ({ s with
        persistTimer := false
        flushes := update s.flushes id (some ⟨required, .pending⟩) }.flushLoop config now id)
  | .renamed =>
    match s.persistWrite with
    | some ⟨json, .writing, reactions⟩ =>
      some { s with persistWrite := some ⟨json, .renamed, reactions⟩, file := some json }
    | _ => none
  | .failed =>
    match s.persistWrite with
    | some ⟨json, .writing, reactions⟩ =>
      some { s with persistWrite := some ⟨json, .failed, reactions⟩, failed := true }
    | _ => none
  | .settle =>
    match s.persistWrite with
    | some ⟨json, .renamed, reactions⟩ => some { s with persistWrite := some ⟨json, .settled false, reactions⟩ }
    | some ⟨json, .failed, reactions⟩ =>
      some { s with persistWrite := some ⟨json, .settled true, reactions⟩, persistDirty := true }
    | _ => none
  | .clear =>
    match s.persistWrite with
    | some ⟨_, .settled error, reactions⟩ =>
      some { s with persistWrite := none, due := s.due ++ reactions.map fun reaction => (error, reaction) }
    | _ => none
  | .react now =>
    match s.due with
    | (error, reaction) :: due => some ({ s with due }.react config now error reaction)
    | [] => none

end Store

def machine (config : Config) : Machine Store Event := ⟨Store.step config⟩

/-! ## What every state keeps -/

/-- What the current write has seen: it takes the current tasks to the file, unless they have changed, and
it makes the file stale when it fails. -/
structure Write.Sound (config : Config) (s : Store) (w : Write) : Prop where
  json : s.changed = true → s.persistDirty = false → w.json = s.snapshot config
  stored : w.progress = .renamed ∨ w.progress = .settled false → s.file = some w.json
  failed : w.progress = .failed ∨ w.progress = .settled true → s.failed = true
  stale : w.progress = .settled true → s.persistDirty = true

structure Inv (config : Config) (s : Store) : Prop where
  alone : s.orphans = []
  timer : s.persistTimer = true → s.persistDirty = true
  early : s.changed = true → s.initialized = true
  due : ∀ r ∈ s.due, r.1 = true → s.failed = true
  write : ∀ w, s.persistWrite = some w → w.Sound config s
  saved : s.persistWrite = none → s.changed = true → s.persistDirty = false → s.file = some (s.snapshot config)

section Steps

variable {config : Config} {s s' : Store} {w : Write} {e : Event}

theorem inv_initial (config : Config) (file : Option Str) : Inv config (.initial file) where
  alone := rfl
  timer h := by cases h
  early h := by cases h
  due _ h := by cases h
  write _ h := by cases h
  saved _ h := by cases h

theorem inv_armPersistTimer (h : Inv config s) : Inv config s.armPersistTimer := by
  unfold Store.armPersistTimer
  split
  · exact h
  · rename_i harm
    simp only [Bool.or_eq_true, not_or] at harm
    exact { h with timer := fun _ => by simpa using harm.2, write := fun w hw => { h.write w hw with } }

/-- A change makes the file stale. -/
theorem inv_persistTasks (h : Inv config s) (tasks : List Task) (running activeChildren : List Str)
    {initialized : Bool} (hinit : initialized = true) :
    Inv config { s with tasks, running, activeChildren, initialized }.persistTasks := by
  refine inv_armPersistTimer ⟨h.alone, fun _ => rfl, fun _ => hinit, h.due, fun w hw => ?_,
    nofun⟩
  exact { h.write w hw with json := nofun, stale := fun _ => rfl }

theorem inv_startPersistWrite (h : Inv config s) (hnone : s.persistWrite = none) (now : Int)
    (reaction : Reaction) : Inv config (s.startPersistWrite config now reaction) := by
  refine ⟨?_, nofun, h.early, h.due, fun w hw => ?_, nofun⟩
  · simp [Store.startPersistWrite, hnone, h.alone]
  · obtain rfl := some.inj hw
    exact ⟨fun _ _ => rfl, by simp, by simp, by simp⟩

theorem inv_endFlush (h : Inv config s) (id : Nat) (outcome : Outcome) : Inv config (s.endFlush id outcome) :=
  { h with write := fun w hw => { h.write w hw with } }

theorem inv_flushLoop (h : Inv config s) (now : Int) (flush : Nat) :
    Inv config (s.flushLoop config now flush) := by
  unfold Store.flushLoop
  split
  · rename_i w hw
    refine { h with write := fun v hv => ?_, saved := nofun }
    exact some.inj hv ▸ { h.write w hw with }
  · rename_i hnone
    split
    · exact inv_startPersistWrite h hnone now _
    · exact inv_endFlush h flush _

theorem inv_step (h : Inv config s) (hstep : s.step config e = some s') : Inv config s' := by
  cases e <;> simp only [Store.step] at hstep
  case restore tasks persists =>
    split at hstep
    · cases hstep
    · rename_i hinit
      obtain rfl := some.inj hstep
      have hnew : s.changed ≠ true := fun hchanged => hinit (h.early hchanged)
      split
      · exact inv_persistTasks h tasks s.running s.activeChildren rfl
      · exact { h with
          early := fun _ => rfl
          write := fun w hw => { h.write w hw with json := fun hchanged => absurd hchanged hnew }
          saved := fun _ hchanged => absurd hchanged hnew }
  case change tasks running activeChildren =>
    split at hstep
    · rename_i hinit
      exact some.inj hstep ▸ inv_persistTasks h tasks running activeChildren hinit
    · cases hstep
  case touch tasks running activeChildren =>
    split at hstep
    · rename_i hsame
      obtain rfl := some.inj hstep
      have hsnapshot : { s with tasks, running, activeChildren }.snapshot config = s.snapshot config :=
        congrArg config.stringify hsame
      exact { h with
        write := fun w hw => { h.write w hw with json := hsnapshot ▸ (h.write w hw).json }
        saved := hsnapshot ▸ h.saved }
    · cases hstep
  case timer now =>
    split at hstep
    · obtain rfl := some.inj hstep
      have hoff : Inv config { s with persistTimer := false } :=
        { h with timer := nofun, write := fun w hw => { h.write w hw with } }
      split
      · exact hoff
      · rename_i hidle
        simp only [Bool.or_eq_true, not_or, not_isSome_iff_eq_none] at hidle
        exact inv_startPersistWrite hoff hidle.1 now _
    · cases hstep
  case flush id required now =>
    split at hstep
    · cases hstep
    · refine some.inj hstep ▸ inv_flushLoop ?_ now id
      exact { h with timer := nofun, write := fun w hw => { h.write w hw with } }
  case renamed =>
    split at hstep
    · rename_i json reactions hw
      have hsound := h.write _ hw
      refine some.inj hstep ▸ { h with write := fun v hv => ?_, saved := nofun }
      exact some.inj hv ▸ ⟨hsound.json, fun _ => rfl, by simp, by simp⟩
    · cases hstep
  case failed =>
    split at hstep
    · rename_i json reactions hw
      refine some.inj hstep ▸
        ⟨h.alone, h.timer, h.early, fun _ _ _ => rfl, fun v hv => ?_, nofun⟩
      exact some.inj hv ▸ ⟨(h.write _ hw).json, by simp, fun _ => rfl, by simp⟩
    · cases hstep
  case settle =>
    split at hstep
    · rename_i json reactions hw
      refine some.inj hstep ▸ { h with write := fun v hv => ?_, saved := nofun }
      exact some.inj hv ▸
        ⟨(h.write _ hw).json, fun _ => (h.write _ hw).stored (.inl rfl), by simp, by simp⟩
    · rename_i json reactions hw
      refine some.inj hstep ▸
        ⟨h.alone, fun _ => rfl, h.early, h.due, fun v hv => ?_, nofun⟩
      exact some.inj hv ▸ ⟨nofun, by simp,
        fun _ => (h.write _ hw).failed (.inl rfl), fun _ => rfl⟩
    · cases hstep
  case clear =>
    split at hstep
    · rename_i json error reactions hw
      have hsound := h.write _ hw
      refine some.inj hstep ▸ ⟨h.alone, h.timer, h.early, fun r hr herror => ?_,
        nofun, fun _ hchanged hclean => ?_⟩
      · obtain hr | hr := mem_append.mp hr
        · exact h.due r hr herror
        · obtain ⟨reaction, -, rfl⟩ := mem_map.mp hr
          exact hsound.failed (.inr (congrArg _ herror))
      · cases error with
        | true => exact absurd (hclean.symm.trans (hsound.stale rfl)) (by decide)
        | false => exact (hsound.stored (.inr rfl)).trans (congrArg _ (hsound.json hchanged hclean))
    · cases hstep
  case react now =>
    split at hstep
    · rename_i error reaction due hdue
      obtain rfl := some.inj hstep
      have htaken : Inv config { s with due } :=
        { h with
          due := fun r hr => h.due r (hdue ▸ .tail _ hr)
          write := fun w hw => { h.write w hw with } }
      cases reaction <;> simp only [Store.react] <;> split
      · exact htaken
      · exact inv_armPersistTimer htaken
      · exact inv_endFlush htaken _ _
      · exact inv_flushLoop htaken now _
    · cases hstep

variable {events : List Event} {id k : Nat} {flush : Flush}

theorem inv_run (h : Inv config s) (hrun : (machine config).run s events = some s') :
    Inv config s' :=
  Machine.invariant_of_follows (fun _ _ _ hs _ hstep => inv_step hs hstep) (Machine.follows_of_run_eq hrun) h

/-! ## Flushes -/

/-- Nothing is left to be written. -/
def Store.Quiet (s : Store) : Prop := s.persistWrite = none ∧ s.persistDirty = false

/-- A flush that goes on ends when nothing is left to be written, or awaits a write. -/
theorem flushLoop_cases (config : Config) (s : Store) (now : Int) (id : Nat) :
    s.Quiet ∧ s.flushLoop config now id = s.endFlush id .resolved ∨
      ¬s.Quiet ∧ (s.flushLoop config now id).flushes = s.flushes := by
  unfold Store.flushLoop Store.Quiet
  split
  · rename_i w hw
    exact .inr ⟨by simp [hw], rfl⟩
  · rename_i hnone
    split
    · rename_i hdirty
      exact .inr ⟨by simp [hdirty], rfl⟩
    · rename_i hclean
      exact .inl ⟨⟨hnone, Bool.eq_false_of_not_eq_true hclean⟩, rfl⟩

/-- The outcome of a flush changes only when it ends. -/
theorem flushes_endFlush {outcome : Outcome} (hk : (s.endFlush id outcome).flushes k = some flush)
    (hnew : s.flushes k ≠ some flush) :
    k = id ∧ ∃ old, s.flushes id = some old ∧ flush = { old with outcome } := by
  by_cases hsame : k = id
  · subst hsame
    obtain ⟨old, hold, rfl⟩ := map_eq_some_iff.mp ((update_self k _ s.flushes).symm.trans hk)
    exact ⟨rfl, old, hold, rfl⟩
  · exact absurd ((update_of_ne hsame _ s.flushes).symm.trans hk) hnew

theorem flushes_flushLoop {now : Int} (hk : (s.flushLoop config now id).flushes k = some flush)
    (hnew : s.flushes k ≠ some flush) :
    flush.outcome = .resolved ∧ (s.flushLoop config now id).Quiet := by
  obtain ⟨hquiet, hends⟩ | ⟨-, hsame⟩ := flushLoop_cases config s now id
  · rw [hends] at hk ⊢
    obtain ⟨-, old, -, rfl⟩ := flushes_endFlush hk hnew
    exact ⟨rfl, hquiet⟩
  · exact absurd (hsame ▸ hk) hnew

/-- How a flush ends: when nothing is left to be written, or after a write of its own that failed. -/
theorem flushes_step (h : Inv config s) (hstep : s.step config e = some s') (hk : s'.flushes k = some flush)
    (hnew : s.flushes k ≠ some flush) :
    flush.outcome = .pending ∨ flush.outcome = .resolved ∧ s'.Quiet ∨
      (s.failed = true ∧ s.due.head? = some (true, .resume k true)) ∧
        (flush.required = true → flush.outcome = .rejected) := by
  cases e with
  | flush id required now =>
    simp only [Store.step] at hstep
    split at hstep
    · cases hstep
    · obtain rfl := some.inj hstep
      by_cases hpending : update s.flushes id (some ⟨required, .pending⟩) k = some flush
      · rw [update_apply] at hpending
        split at hpending
        · exact .inl (some.inj hpending ▸ rfl)
        · exact absurd hpending hnew
      · exact .inr (.inl (flushes_flushLoop hk hpending))
  | react now =>
    simp only [Store.step] at hstep
    split at hstep
    · rename_i error reaction due hdue
      obtain rfl := some.inj hstep
      cases reaction with
      | rearm =>
        refine absurd (Eq.trans ?_ hk) hnew
        simp only [Store.react, Store.armPersistTimer]
        split
        · rfl
        · split <;> rfl
      | resume id own =>
        simp only [Store.react] at hk ⊢
        split at hk
        · rename_i herror
          obtain ⟨rfl, rfl⟩ := (Bool.and_eq_true _ _).mp herror
          obtain ⟨rfl, old, hold, rfl⟩ := flushes_endFlush hk hnew
          have hold : s.flushes k = some old := hold
          refine .inr (.inr ⟨⟨h.due _ (hdue ▸ mem_cons_self) rfl, by rw [hdue]; rfl⟩, fun hrequired => ?_⟩)
          simpa [hold] using hrequired
        · rename_i hgoes
          rw [if_neg hgoes]
          exact .inr (.inl (flushes_flushLoop hk hnew))
    · cases hstep
  | _ =>
    refine absurd (Eq.trans ?_ hk) hnew
    simp only [Store.step, Store.persistTasks, Store.armPersistTimer] at hstep
    repeat' split at hstep
    all_goals first | exact some.inj hstep ▸ rfl | cases hstep

/-- Without a change, nothing more is written. -/
theorem quiet_step (h : Inv config s) (hquiet : s.Quiet) (hstep : s.step config e = some s')
    (he : e.changes = false) : s'.Quiet ∧ s'.started = s.started := by
  obtain ⟨hnone, hclean⟩ := hquiet
  have hloop (t : Store) (ht : t.Quiet) (now : Int) (id : Nat) :
      (t.flushLoop config now id).Quiet ∧ (t.flushLoop config now id).started = t.started := by
    obtain ⟨-, hends⟩ | ⟨hnot, -⟩ := flushLoop_cases config t now id
    · exact hends ▸ ⟨ht, rfl⟩
    · exact absurd ht hnot
  cases e <;> simp only [Store.step, hnone, reduceCtorEq] at hstep
  case restore tasks persists =>
    obtain rfl : persists = false := he
    split at hstep
    · cases hstep
    · exact some.inj hstep ▸ ⟨⟨rfl, hclean⟩, rfl⟩
  case change tasks running activeChildren => cases he
  case touch tasks running activeChildren =>
    split at hstep
    · exact some.inj hstep ▸ ⟨⟨rfl, hclean⟩, rfl⟩
    · cases hstep
  case timer now =>
    split at hstep
    · rename_i htimer
      exact absurd (hclean.symm.trans (h.timer htimer)) (by decide)
    · cases hstep
  case flush id required now =>
    split at hstep
    · cases hstep
    · obtain rfl := some.inj hstep
      refine hloop _ ?_ now id
      exact ⟨rfl, hclean⟩
  case react now =>
    split at hstep
    · rename_i error reaction due hdue
      obtain rfl := some.inj hstep
      cases reaction with
      | rearm => simp [Store.react, Store.armPersistTimer, Store.Quiet, hclean]
      | resume id own =>
        simp only [Store.react]
        split
        · exact ⟨⟨rfl, hclean⟩, rfl⟩
        · refine hloop _ ?_ now id
          exact ⟨rfl, hclean⟩
    · cases hstep

theorem quiet_run (h : Inv config s) (hquiet : s.Quiet) (hrun : (machine config).run s events = some s')
    (hevents : ∀ e ∈ events, e.changes = false) :
    s'.started = s.started := by
  induction events generalizing s with
  | nil => exact (congrArg Store.started (some.inj hrun)).symm
  | cons e rest ih =>
    obtain ⟨next, hstep, hrest⟩ := bind_eq_some_iff.mp hrun
    obtain ⟨hnext, hstarted⟩ := quiet_step h hquiet hstep (hevents e (.head _))
    exact (ih (inv_step h hstep) hnext hrest fun e he => hevents e (.tail _ he)).trans hstarted

end Steps

/-- The writes whose calls are not over. -/
def Store.inFlight (s : Store) : List Write :=
  (s.persistWrite.toList ++ s.orphans).filter fun w =>
    w.progress ≠ .settled true ∧ w.progress ≠ .settled false

/-- In every run, at most one write is in flight. Once `persistTasks` was called, the file has the current
tasks whenever no write is in flight and the file is not stale; so it has them when a required flush
resolves, and nothing is written after that without a further change. A required flush rejects only when
the write that it has started has failed. -/
theorem persistence_not_lost (config : Config) (file : Option Str) {events : List Event} {s : Store}
    (h : (machine config).run (.initial file) events = some s) : s.inFlight.length ≤ 1 ∧
    (s.changed = true → s.inFlight = [] → s.persistDirty = false → s.file = some (s.snapshot config)) ∧
    ∀ e s' id, s.step config e = some s' →
      (s.flushes id ≠ some ⟨true, .resolved⟩ → s'.flushes id = some ⟨true, .resolved⟩ →
        (s'.changed = true → s'.file = some (s'.snapshot config)) ∧
        ∀ more s'', (machine config).run s' more = some s'' → (∀ e ∈ more, e.changes = false) →
          s''.started = s'.started) ∧
      (s.flushes id ≠ some ⟨true, .rejected⟩ → s'.flushes id = some ⟨true, .rejected⟩ →
        s.failed = true ∧ s.due.head? = some (true, .resume id true)) := by
  have hinv := inv_run (inv_initial config file) h
  refine ⟨?_, fun hchanged hidle hclean => ?_, fun e s' id hstep => ⟨fun hnew hk => ?_, fun hnew hk => ?_⟩⟩
  · refine (length_filter_le _ _).trans ?_
    cases hw : s.persistWrite <;> simp [hinv.alone]
  · cases hw : s.persistWrite with
    | none => exact hinv.saved hw hchanged hclean
    | some w =>
      have hsound := hinv.write w hw
      have hover : w.progress ≠ .settled true → w.progress = .settled false := by
        simpa [Store.inFlight, hw, hinv.alone] using hidle
      have hok := hover fun hsettled => absurd (hclean.symm.trans (hsound.stale hsettled)) (by decide)
      exact (hsound.stored (.inr hok)).trans (congrArg _ (hsound.json hchanged hclean))
  · obtain hpending | ⟨-, hquiet⟩ | ⟨-, hrejected⟩ := flushes_step hinv hstep hk hnew
    · cases hpending
    · have hinv' := inv_step hinv hstep
      exact ⟨fun hchanged => hinv'.saved hquiet.1 hchanged hquiet.2,
        fun more s'' hrun hmore => quiet_run hinv' hquiet hrun hmore⟩
    · cases hrejected rfl
  · obtain hpending | ⟨hresolved, -⟩ | ⟨hfailed, -⟩ := flushes_step hinv hstep hk hnew
    · cases hpending
    · cases hresolved
    · exact hfailed

/-- A queue that keeps nothing for long, with the ids of its tasks as its file. -/
def plainConfig : Config := ⟨0, 0, fun tasks => tasks.flatMap Persisted.id, fun _ => none⟩

/-- The file could not be restored, and a required flush resolves without having written it. -/
theorem unread_file_stays : ∃ s s', (machine plainConfig).run (.initial (some "?")) [.restore [] false] = some s ∧
    s.step plainConfig (.flush 0 true 0) = some s' ∧ s'.inFlight = [] ∧ s'.persistDirty = false ∧
    s'.flushes 0 = some ⟨true, .resolved⟩ ∧ s'.file ≠ some (s'.snapshot plainConfig) :=
  ⟨_, _, rfl, rfl, rfl, rfl, rfl, by decide⟩

def runningTask : Task :=
  ⟨⟨"t", .running, .null, .null, .null, .null, .null, .null, .null, .null, .null, .null⟩, .null⟩

/-- The write that the timer starts fails, the first required flush makes it again and fails as well, and
the write of the second one goes through. -/
def retriedRun : List Event :=
  [.restore [] false, .change [runningTask] ["t"] [], .timer 0, .failed, .settle, .clear, .react 0,
    .flush 0 true 0, .failed, .settle, .clear, .react 0, .flush 1 true 0, .renamed, .settle, .clear]

theorem persistence_not_lost_retried : ∃ s s', (machine plainConfig).run (.initial none) retriedRun = some s ∧
    s.step plainConfig (.react 0) = some s' ∧ s'.flushes 0 = some ⟨true, .rejected⟩ ∧
    s'.flushes 1 = some ⟨true, .resolved⟩ ∧ s'.tasks = [runningTask] ∧ s'.started = 3 ∧
    s'.file = some (s'.snapshot plainConfig) := by
  refine ⟨_, _, rfl, rfl, rfl, rfl, rfl, rfl, ?_⟩
  have h := persistence_not_lost plainConfig none
    (show (machine plainConfig).run (.initial none) retriedRun = _ from rfl)
  exact ((h.2.2 (.react 0) _ 1 rfl).1 nofun rfl).1 rfl

end Ploinky.Tasks.Persistence
