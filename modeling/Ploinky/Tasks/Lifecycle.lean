import Ploinky.Tasks.Queue

/-!
# The life of a task

Above the queue stands a small machine for one task: it waits, executes, settles and is finished, or it
was restored and stays as it is. Every event of the queue moves every task along this machine, which
gives the scheduling invariant at once. Read `task_queue_schedules` first.
-/

namespace Ploinky.Tasks

open Js Transition Relation Queue List Option

/-! ## The abstract machine -/

/-- A terminal status. -/
inductive Final where
  | completed
  | failed
  | cancelled
  deriving DecidableEq

def Final.status : Final → Status
  | completed => .completed
  | failed => .failed
  | cancelled => .cancelled

/-- The stations of a task. -/
inductive Life where
  | unissued
  | waiting
  | executing (cancelling : Bool)
  | settling (final : Final)
  | finished (final : Final)
  | restored (status : Status)
  | pruned

/-- One move of a task. A cancelled task does not complete. -/
inductive Life.Next : Life → Life → Prop where
  | enqueue : Next .unissued .waiting
  | restore (status : Status) : Next .unissued (.restored status)
  | cancelRestored (status : Status) : status.isTerminal = false →
      Next (.restored status) (.restored .cancelling)
  | start : Next .waiting (.executing false)
  | refuse (final : Final) : final ≠ .completed → Next .waiting (.settling final)
  | withdraw : Next .waiting (.finished .cancelled)
  | cancel : Next (.executing false) (.executing true)
  | settle (cancelling : Bool) (final : Final) : (cancelling = true → final ≠ .completed) →
      Next (.executing cancelling) (.settling final)
  | finish (final : Final) : Next (.settling final) (.finished final)
  | prune (final : Final) : Next (.finished final) .pruned
  | pruneRestored (status : Status) : status.isTerminal = true → Next (.restored status) .pruned

/-- The status of a task at a station. -/
def Life.status : Life → Option Status
  | unissued => none
  | waiting => some .pending
  | executing cancelling => some (if cancelling then .cancelling else .running)
  | settling final => some final.status
  | finished final => some final.status
  | restored status => some status
  | pruned => none

variable {life : Life} {status : Status}

/-- A terminal status is for ever, until the task is pruned. -/
theorem Life.Next.keeps_terminal {next : Life} (h : Next life next) (hstatus : life.status = some status)
    (hterminal : status.isTerminal = true) : next.status = some status ∨ next = .pruned := by
  cases h with
  | enqueue | restore => cases hstatus
  | start | refuse | withdraw | cancel =>
    cases hstatus
    cases hterminal
  | settle cancelling =>
    cases hstatus
    cases cancelling <;> cases hterminal
  | cancelRestored other hother =>
    cases hstatus
    rw [hother] at hterminal
    cases hterminal
  | finish final => exact .inl hstatus
  | prune | pruneRestored => exact .inr rfl

theorem Life.keeps_terminal {last : Life} (h : ReflTransGen Next life last)
    (hstatus : life.status = some status) (hterminal : status.isTerminal = true) :
    last.status = some status ∨ last = .pruned := by
  induction h with
  | refl => exact .inl hstatus
  | tail _ hnext ih =>
    rcases ih with ih | rfl
    · exact hnext.keeps_terminal ih hterminal
    · cases hnext

/-! ## What the queue shows of a task -/

/-- Where an id occurs in the queue. -/
structure Sight where
  task : Option (Status × Phase)
  queued : Nat
  running : Nat
  started : Nat
  restored : Bool
  issued : Bool

/-- The occurrences of an id. -/
def Queue.sight (q : Queue) (id : Str) : Sight where
  task := (q.tasks id).map fun task => (task.status, task.phase)
  queued := q.pending.count id
  running := q.running.count id
  started := q.started.count id
  restored := q.restored.contains id
  issued := q.issued.contains id

/-- `executeTask` waits for the executor or for a drain. -/
def Phase.isActive : Phase → Bool
  | executing => true
  | draining _ => true
  | _ => false

/-- A task at a station is seen like this. -/
inductive Life.Shows : Life → Sight → Prop where
  | unissued : Shows .unissued ⟨none, 0, 0, 0, false, false⟩
  | waiting : Shows .waiting ⟨some (.pending, .idle), 1, 0, 0, false, true⟩
  | executing (cancelling : Bool) (phase : Phase) : phase.isActive = true →
      Shows (.executing cancelling)
        ⟨some (if cancelling then .cancelling else .running, phase), 0, 1, 1, false, true⟩
  | settling (final : Final) (started : Nat) : started ≤ 1 →
      Shows (.settling final) ⟨some (final.status, .settling), 0, 1, started, false, true⟩
  | finished (final : Final) (started : Nat) : started ≤ 1 →
      Shows (.finished final) ⟨some (final.status, .idle), 0, 0, started, false, true⟩
  | restored (status : Status) : status ≠ .pending →
      Shows (.restored status) ⟨some (status, .idle), 0, 0, 0, true, true⟩
  | pruned (started : Nat) (restored : Bool) : started ≤ 1 → (restored = true → started = 0) →
      Shows .pruned ⟨none, 0, 0, started, restored, true⟩

variable {next last q : Queue} {other : Str} {sight : Sight} {phase : Phase}

/-- A task is at a station, and gets from there to the one that a later queue shows. -/
def Evolves (q next : Queue) : Prop :=
  ∀ id life, life.Shows (q.sight id) → ∃ life', ReflTransGen Life.Next life life' ∧
    life'.Shows (next.sight id)

theorem Evolves.trans (h : Evolves q next) (h' : Evolves next last) : Evolves q last := by
  intro id life hlife
  obtain ⟨middle, hmoves, hmiddle⟩ := h id life hlife
  obtain ⟨life', hmoves', hlast⟩ := h' id middle hmiddle
  exact ⟨life', hmoves.trans hmoves', hlast⟩

/-- A change that no id sees. -/
theorem evolves_of_sight (h : ∀ id, next.sight id = q.sight id) : Evolves q next := by
  intro id life hlife
  rw [← h id] at hlife
  exact ⟨life, .refl, hlife⟩

/-- A change that one id sees. -/
theorem evolves_at (id : Str) (hother : ∀ other, other ≠ id → next.sight other = q.sight other)
    (hself : ∀ life, life.Shows (q.sight id) → ∃ life', ReflTransGen Life.Next life life' ∧ life'.Shows (next.sight id)) :
    Evolves q next := by
  intro other life hlife
  by_cases heq : other = id
  · subst heq
    exact hself life hlife
  · rw [← hother other heq] at hlife
    exact ⟨life, .refl, hlife⟩

/-- What the queue keeps: every id is at a station, the running tasks are not too many, pending ids have
a name, and nothing is known before the file is read. -/
structure Inv (maxConcurrent : Nat) (q : Queue) : Prop where
  lives : ∀ id, ∃ life : Life, life.Shows (q.sight id)
  bound : q.running.length ≤ maxConcurrent
  named : ∀ id ∈ q.pending, id ≠ []
  fresh : q.initialized = false → q.issued = []

theorem inv_initial (maxConcurrent : Nat) : Inv maxConcurrent .initial where
  lives _ := ⟨.unissued, .unissued⟩
  bound := Nat.zero_le _
  named _ h := by cases h
  fresh _ := rfl

variable {maxConcurrent : Nat} {q : Queue} {id : Str} {task : Task} {disk : Option Json}
  {events : List Event} {ids : List Str}

/-- The invariant after a change, from the change of each task. -/
theorem Inv.evolved (h : Inv maxConcurrent q) (hevolves : Evolves q next)
    (hbound : next.running.length ≤ maxConcurrent) (hnamed : ∀ id ∈ next.pending, id ≠ [])
    (hfresh : next.initialized = false → next.issued = []) : Inv maxConcurrent next where
  lives id := by
    obtain ⟨life, hlife⟩ := h.lives id
    obtain ⟨life', -, hlife'⟩ := hevolves id life hlife
    exact ⟨life', hlife'⟩
  bound := hbound
  named := hnamed
  fresh := hfresh

/-- What the invariant says of a queue apart from its tasks. -/
def Queue.outline (q : Queue) : List Str × List Str × Bool × List Str :=
  (q.running, q.pending, q.initialized, q.issued)

/-- A step of the queue: every task moves on, and the invariant is kept. -/
structure Advances (maxConcurrent : Nat) (q next : Queue) : Prop where
  evolves : Evolves q next
  inv : Inv maxConcurrent next

theorem Advances.trans (h : Advances maxConcurrent q next) (h' : Advances maxConcurrent next last) :
    Advances maxConcurrent q last :=
  ⟨h.evolves.trans h'.evolves, h'.inv⟩

theorem advances_refl (h : Inv maxConcurrent q) : Advances maxConcurrent q q :=
  ⟨evolves_of_sight fun _ => rfl, h⟩

/-- A step in which only tasks change. -/
theorem Inv.ended (h : Inv maxConcurrent q) (hevolves : Evolves q next)
    (houtline : next.outline = q.outline) : Advances maxConcurrent q next := by
  simp only [outline, Prod.mk.injEq] at houtline
  obtain ⟨hrunning, hpending, hinitialized, hissued⟩ := houtline
  refine ⟨hevolves, h.evolved hevolves ?_ ?_ ?_⟩
  · rw [hrunning]
    exact h.bound
  · rw [hpending]
    exact h.named
  · rw [hinitialized, hissued]
    exact h.fresh

/-! ## Sights after the operations -/

theorem sight_setTask_other (h : other ≠ id) : (q.setTask id task).sight other = q.sight other := by
  simp [sight, setTask, Function.update_of_ne h]

theorem sight_setTask_self :
    (q.setTask id task).sight id = { q.sight id with task := some (task.status, task.phase) } := by
  simp [sight, setTask]

theorem sight_reject (q : Queue) (id : Str) (task : Task) (rejection : Rejection) (other : Str) :
    (q.reject id task rejection).sight other = (q.setTask id (task.reject rejection)).sight other := by
  unfold reject
  split_ifs <;> rfl

/-- A completed execution has a terminal status; one that was asked to stop does not complete. -/
theorem complete_spec (task : Task) (result : ExecutorResult) :
    (task.complete result).phase = .settling ∧ ∃ final : Final,
      (task.complete result).status = final.status ∧ (task.stopping = true → final ≠ .completed) := by
  unfold Task.complete
  split_ifs with hstop hsuccess hreports
  · exact ⟨rfl, .cancelled, rfl, nofun⟩
  · exact ⟨rfl, .cancelled, rfl, nofun⟩
  · exact ⟨rfl, .completed, rfl, fun h => absurd h hstop⟩
  · exact ⟨rfl, .failed, rfl, nofun⟩
  · exact ⟨rfl, .failed, rfl, nofun⟩

/-- A rejected execution has a terminal status and did not complete. -/
theorem reject_spec (task : Task) (rejection : Rejection) :
    (task.reject rejection).phase = .settling ∧ ∃ final : Final,
      (task.reject rejection).status = final.status ∧ final ≠ .completed := by
  unfold Task.reject
  split_ifs
  · exact ⟨rfl, .failed, rfl, nofun⟩
  · exact ⟨rfl, .cancelled, rfl, nofun⟩
  · exact ⟨rfl, .failed, rfl, nofun⟩
  · exact ⟨rfl, .failed, rfl, nofun⟩

/-! ## Where a task is -/

theorem Life.Shows.queued_eq (h : life.Shows sight) (hqueued : sight.queued ≠ 0) :
    life = .waiting ∧ sight = ⟨some (.pending, .idle), 1, 0, 0, false, true⟩ := by
  cases h with
  | waiting => exact ⟨rfl, rfl⟩
  | unissued | executing | settling | finished | restored | pruned => exact absurd rfl hqueued

theorem Life.Shows.active (h : life.Shows sight) (htask : sight.task = some (status, phase))
    (hphase : phase.isActive = true) : ∃ cancelling, life = .executing cancelling ∧
      status = (if cancelling then .cancelling else .running) ∧
      sight = ⟨some (status, phase), 0, 1, 1, false, true⟩ := by
  cases h with
  | executing cancelling other hother =>
    cases htask
    exact ⟨cancelling, rfl, rfl, rfl⟩
  | unissued | pruned => cases htask
  | waiting | settling | finished | restored =>
    cases htask
    cases hphase

theorem Life.Shows.settled (h : life.Shows sight) (htask : sight.task = some (status, .settling)) :
    ∃ final started, life = .settling final ∧ status = final.status ∧ started ≤ 1 ∧
      sight = ⟨some (status, .settling), 0, 1, started, false, true⟩ := by
  cases h with
  | settling final started hle =>
    cases htask
    exact ⟨final, started, rfl, rfl, hle, rfl⟩
  | unissued | pruned | waiting | finished | restored => cases htask
  | executing cancelling phase hphase =>
    cases htask
    cases hphase

/-! ## Executions -/

section Active

variable (htask : q.tasks id = some task) (hphase : task.phase.isActive = true)

include htask hphase

/-- An execution that ends moves its task on. -/
theorem evolves_ended {ended : Task} {final : Final} (hsight : ∀ other, next.sight other = (q.setTask id ended).sight other)
    (hended : ended.phase = .settling) (hfinal : ended.status = final.status)
    (hstop : task.stopping = true → final ≠ .completed) : Evolves q next := by
  refine evolves_at id (fun other hother => ?_) fun life hlife => ?_
  · rw [hsight, sight_setTask_other hother]
  · have hseen : (q.sight id).task = some (task.status, task.phase) := by
      simp [sight, htask]
    obtain ⟨cancelling, rfl, hstatus, hshape⟩ := hlife.active hseen hphase
    refine ⟨.settling final, .single (.settle cancelling final fun hcancel => hstop ?_), ?_⟩
    · rw [hcancel, if_pos rfl] at hstatus
      simp [Task.stopping, hstatus]
    · rw [hsight, sight_setTask_self, hshape, hended, hfinal]
      exact .settling final 1 (Nat.le_refl 1)

theorem evolves_complete (result : ExecutorResult) : Evolves q (q.complete id task result) := by
  obtain ⟨hended, final, hfinal, hstop⟩ := complete_spec task result
  exact evolves_ended htask hphase (fun _ => rfl) hended hfinal hstop

theorem evolves_reject (rejection : Rejection) : Evolves q (q.reject id task rejection) := by
  obtain ⟨hended, final, hfinal, hne⟩ := reject_spec task rejection
  exact evolves_ended htask hphase (sight_reject q id task rejection) hended hfinal fun _ => hne

/-- A task whose execution changes its phase only. -/
theorem evolves_draining (result : ExecutorResult) :
    Evolves q (q.setTask id { task with phase := .draining result }) := by
  refine evolves_at id (fun other hother => sight_setTask_other hother) fun life hlife => ?_
  have hseen : (q.sight id).task = some (task.status, task.phase) := by simp [sight, htask]
  obtain ⟨cancelling, rfl, hstatus, hshape⟩ := hlife.active hseen hphase
  refine ⟨_, .refl, ?_⟩
  rw [sight_setTask_self, hshape, hstatus]
  exact .executing cancelling _ rfl

end Active

/-! ## The loop of the queue -/

theorem count_addTo_other (h : other ≠ id) :
    (addTo ids id).count other = ids.count other := by
  unfold addTo
  split_ifs
  · rfl
  · simp [count_append, Ne.symm h]

theorem sight_startTask_other (h : other ≠ id) : (q.startTask id task).sight other = q.sight other := by
  unfold startTask
  split
  · simp [sight, setTask, Function.update_of_ne h, count_addTo_other h, count_append,
      Ne.symm h]
  · rw [sight_reject, sight_setTask_other h]
    simp [sight, setTask, Function.update_of_ne h, count_addTo_other h]

/-- A task that starts executes, or is refused for its missing command. -/
theorem sight_startTask_self (task : Task) {seen : Option (Status × Phase)}
    (hsight : q.sight id = ⟨seen, 0, 0, 0, false, true⟩) :
    ∃ life : Life, Life.Next .waiting life ∧ life.Shows ((q.startTask id task).sight id) := by
  simp only [sight, Sight.mk.injEq] at hsight
  obtain ⟨-, hqueued, hrunning, hstarted, hrestored, hissued⟩ := hsight
  have hone : (addTo q.running id).count id = 1 := by
    rw [addTo, if_neg (count_eq_zero.mp hrunning), count_append, hrunning]
    simp
  unfold startTask
  have hself : sight { q.setTask id task.begun with running := addTo q.running id } id =
      ⟨some (.running, .executing), 0, 1, 0, false, true⟩ := by
    simp only [sight, setTask, Function.update_self, map_some, Task.begun, hqueued,
      hone, hrestored, hissued, hstarted]
  split
  · refine ⟨.executing false, .start, ?_⟩
    show (Life.executing false).Shows { sight { q.setTask id task.begun with
      running := addTo q.running id } id with started := (q.started ++ [id]).count id }
    rw [hself, count_append, hstarted, count_singleton_self]
    exact .executing false .executing rfl
  · obtain ⟨hphase, final, hfinal, hne⟩ :=
      reject_spec task.begun ⟨"Missing command specification for task", false⟩
    refine ⟨.settling final, .refuse final hne, ?_⟩
    rw [sight_reject, sight_setTask_self, hphase, hfinal, hself]
    exact .settling final 0 (Nat.zero_le 1)

theorem outline_reject (q : Queue) (id : Str) (task : Task) (rejection : Rejection) :
    (q.reject id task rejection).outline = q.outline := by
  unfold reject
  split_ifs <;> rfl

/-- What the start of a task leaves of the rest. -/
theorem outline_startTask (q : Queue) (id : Str) (task : Task) :
    (q.startTask id task).outline = { q with running := addTo q.running id }.outline := by
  unfold startTask
  split
  · rfl
  · exact outline_reject _ _ _ _

theorem length_addTo_le (ids : List Str) (id : Str) : (addTo ids id).length ≤ ids.length + 1 := by
  unfold addTo
  split_ifs
  · omega
  · simp

/-- One turn of the loop, when there is room. -/
theorem Inv.takeNext (h : Inv maxConcurrent q) {rest : List Str} (hpending : q.pending = id :: rest)
    (hroom : q.running.length < maxConcurrent) : Advances maxConcurrent q (q.takeNext id rest) := by
  have hname : id ≠ [] := h.named id (hpending ▸ (.head _))
  obtain ⟨life, hlife⟩ := h.lives id
  have hqueued : (q.sight id).queued ≠ 0 := by
    simp [sight, hpending]
  obtain ⟨-, hshape⟩ := hlife.queued_eq hqueued
  have htask : ∃ task, q.tasks id = some task ∧ task.status = .pending := by
    have hseen := congrArg Sight.task hshape
    simp only [sight, map_eq_some_iff] at hseen
    obtain ⟨task, htask, hstatus⟩ := hseen
    exact ⟨task, htask, congrArg Prod.fst hstatus⟩
  obtain ⟨task, htask, hstatus⟩ := htask
  have htaken : ({ q with pending := rest } : Queue).sight id =
      ⟨some (.pending, .idle), 0, 0, 0, false, true⟩ := by
    simp only [sight, Sight.mk.injEq, hpending, count_cons_self] at hshape ⊢
    exact ⟨hshape.1, by omega, hshape.2.2⟩
  have hnext : q.takeNext id rest = ({ q with pending := rest } : Queue).startTask id task := by
    unfold Queue.takeNext
    dsimp only
    rw [if_neg (by simpa using hname), htask]
    exact if_pos hstatus
  rw [hnext]
  have houtline := outline_startTask { q with pending := rest } id task
  simp only [outline, Prod.mk.injEq] at houtline
  obtain ⟨hrunning, hrest, hinitialized, hissued⟩ := houtline
  have hevolves : Evolves q (({ q with pending := rest } : Queue).startTask id task) := by
    refine evolves_at id (fun other hother => ?_) fun other hother => ?_
    · rw [sight_startTask_other hother]
      simp [sight, hpending, Ne.symm hother]
    · obtain ⟨rfl, -⟩ := hother.queued_eq hqueued
      obtain ⟨next, hmove, hshows⟩ := sight_startTask_self task htaken
      exact ⟨next, .single hmove, hshows⟩
  refine ⟨hevolves, h.evolved hevolves ?_ (fun other hother => ?_) fun hno => ?_⟩
  · rw [hrunning]
    exact (length_addTo_le _ _).trans hroom
  · rw [hrest] at hother
    exact h.named other (hpending ▸ .tail _ hother)
  · rw [hissued]
    exact h.fresh (hinitialized ▸ hno)

theorem Inv.pump (h : Inv maxConcurrent q) (turns : Nat) :
    Advances maxConcurrent q (q.pump maxConcurrent turns) := by
  induction turns generalizing q with
  | zero => exact advances_refl h
  | succ turns ih =>
    unfold pump
    cases hpending : q.pending with
    | nil => exact advances_refl h
    | cons id rest =>
      dsimp only
      split_ifs with hroom
      · have hstep := h.takeNext hpending hroom
        exact hstep.trans (ih hstep.inv)
      · exact advances_refl h

theorem Inv.processQueue (h : Inv maxConcurrent q) :
    Advances maxConcurrent q (q.processQueue maxConcurrent) := by
  unfold Queue.processQueue
  split_ifs
  · exact advances_refl h
  · exact h.pump _

/-! ## The methods -/

theorem count_filter_ne (ids : List Str) (id : Str) : (ids.filter fun other => other ≠ id).count id = 0 := by
  rw [count_eq_zero]
  simp

theorem count_filter_ne_other (h : other ≠ id) :
    (ids.filter fun candidate => candidate ≠ id).count other = ids.count other :=
  count_filter (by simpa using h)

theorem Life.Shows.pending (h : life.Shows sight) (htask : sight.task = some (.pending, phase)) :
    life = .waiting ∧ sight = ⟨some (.pending, .idle), 1, 0, 0, false, true⟩ := by
  cases h with
  | waiting => exact ⟨rfl, rfl⟩
  | unissued | pruned => cases htask
  | executing cancelling =>
    cases cancelling <;> cases htask
  | settling final =>
    cases final <;> cases htask
  | finished final =>
    cases final <;> cases htask
  | restored status hstatus =>
    cases htask
    exact absurd rfl hstatus

/-- A task that is not terminal and not pending executes, or was restored. -/
theorem Life.Shows.cancellable (h : life.Shows sight) (htask : sight.task = some (status, phase))
    (hterminal : status.isTerminal = false) (hpending : status ≠ .pending) :
    ∃ life', ReflTransGen Life.Next life life' ∧
      life'.Shows { sight with task := some (.cancelling, phase) } := by
  cases h with
  | executing cancelling other hother =>
    cases htask
    refine ⟨.executing true, ?_, .executing true phase hother⟩
    cases cancelling with
    | false => exact .single .cancel
    | true => exact .refl
  | restored other hother =>
    cases htask
    exact ⟨.restored .cancelling, .single (.cancelRestored status hterminal), .restored _ nofun⟩
  | unissued | pruned => cases htask
  | waiting =>
    cases htask
    exact absurd rfl hpending
  | settling final =>
    cases htask
    cases final <;> cases hterminal
  | finished final =>
    cases htask
    cases final <;> cases hterminal

/-- A pending task is withdrawn. -/
theorem Inv.withdraw (h : Inv maxConcurrent q) (htask : q.tasks id = some task)
    (hstatus : task.status = .pending) (ended : Task) (hended : ended.status = .cancelled)
    (hphase : ended.phase = task.phase) : Advances maxConcurrent q { q.setTask id ended with
      pending := q.pending.filter fun candidate => candidate ≠ id } := by
  have hevolves : Evolves q { q.setTask id ended with
      pending := q.pending.filter fun candidate => candidate ≠ id } := by
    refine evolves_at id (fun other hother => ?_) fun life hlife => ?_
    · simp only [sight, setTask, Function.update_of_ne hother, count_filter_ne_other hother]
    · have hseen : (q.sight id).task = some (.pending, task.phase) := by
        simp [sight, htask, hstatus]
      obtain ⟨rfl, hshape⟩ := hlife.pending hseen
      rw [hshape, some.injEq, Prod.mk.injEq] at hseen
      simp only [sight, Sight.mk.injEq] at hshape
      refine ⟨.finished .cancelled, .single .withdraw, ?_⟩
      simp only [sight, setTask, Function.update_self, map_some, count_filter_ne,
        hshape.2.2, hended, hphase, ← hseen.2]
      exact .finished .cancelled 0 (Nat.zero_le 1)
  refine ⟨hevolves, h.evolved hevolves h.bound (fun other hother => ?_) h.fresh⟩
  exact h.named other (mem_filter.mp hother).1

theorem Inv.cancelTask (h : Inv maxConcurrent q) (id : Str) :
    Advances maxConcurrent q (q.cancelTask maxConcurrent id) := by
  unfold Queue.cancelTask
  cases htask : q.tasks id with
  | none => exact advances_refl h
  | some task =>
    dsimp only
    by_cases hterminal : task.status.isTerminal = true
    · rw [if_pos hterminal]
      exact advances_refl h
    rw [if_neg hterminal]
    by_cases hpending : task.status = .pending
    · rw [if_pos hpending]
      have hwithdrawn := h.withdraw htask hpending
        { task with status := .cancelled, cancelRequested := true, error := .null } rfl rfl
      exact hwithdrawn.trans hwithdrawn.inv.processQueue
    · rw [if_neg hpending]
      -- The request to the child changes nothing that a task is seen by.
      have hevolves : Evolves q (q.setTask id
          { task with status := .cancelling, cancelRequested := true, error := .null }) := by
        refine evolves_at id (fun other hother => sight_setTask_other hother) fun life hlife => ?_
        rw [sight_setTask_self]
        refine hlife.cancellable ?_ (by simpa using hterminal) hpending
        simp [sight, htask]
      have hset : Advances maxConcurrent q (q.setTask id
          { task with status := .cancelling, cancelRequested := true, error := .null }) :=
        h.ended hevolves rfl
      split
      · refine hset.trans ?_
        unfold requestCancellation
        split_ifs <;> exact hset.inv.ended (evolves_of_sight fun _ => rfl) rfl
      · exact hset

theorem Inv.shutdown (h : Inv maxConcurrent q) : Advances maxConcurrent q (q.shutdown maxConcurrent) := by
  unfold Queue.shutdown
  split_ifs
  · exact advances_refl h
  have hclosed : Advances maxConcurrent q { q with shuttingDown := true } :=
    h.ended (evolves_of_sight fun _ => rfl) rfl
  refine hclosed.trans ?_
  have hfold : ∀ (ids : List Str) (q : Queue), Inv maxConcurrent q →
      Advances maxConcurrent q (ids.foldl (fun q id => q.cancelTask maxConcurrent id) q) := by
    intro ids
    induction ids with
    | nil => exact fun q hq => advances_refl hq
    | cons id rest ih =>
      intro q hq
      have hstep := hq.cancelTask id
      exact hstep.trans (ih _ hstep.inv)
  exact hfold _ _ hclosed.inv

theorem Life.Shows.unissued_of (h : life.Shows sight) (hissued : sight.issued = false) :
    life = .unissued ∧ sight = ⟨none, 0, 0, 0, false, false⟩ := by
  cases h with
  | unissued => exact ⟨rfl, rfl⟩
  | waiting | executing | settling | finished | restored | pruned => cases hissued

theorem Inv.enqueue (h : Inv maxConcurrent q) (hinitialized : q.initialized = true) (hname : id ≠ [])
    (hnew : id ∉ q.issued) (hasCommand : Bool) (timeoutMs : Str) :
    Advances maxConcurrent q (q.enqueue maxConcurrent id (newTask hasCommand timeoutMs)) := by
  have hunissued : (q.sight id).issued = false := by simpa [sight] using hnew
  have hevolves : Evolves q { q.setTask id (newTask hasCommand timeoutMs) with
      pending := q.pending ++ [id], issued := id :: q.issued } := by
    refine evolves_at id (fun other hother => ?_) fun life hlife => ?_
    · simp [sight, setTask, Ne.symm hother, hother]
    · obtain ⟨rfl, hshape⟩ := hlife.unissued_of hunissued
      simp only [sight, Sight.mk.injEq] at hshape
      refine ⟨.waiting, .single .enqueue, ?_⟩
      have hself : sight { q.setTask id (newTask hasCommand timeoutMs) with
          pending := q.pending ++ [id], issued := id :: q.issued } id =
          ⟨some (.pending, .idle), 1, 0, 0, false, true⟩ := by
        simp only [sight, setTask, Function.update_self, map_some, newTask,
          count_append, hshape.2.1, hshape.2.2, count_singleton_self, contains_cons,
          beq_self_eq_true, Bool.true_or]
      rw [hself]
      exact .waiting
  have hadded : Advances maxConcurrent q { q.setTask id (newTask hasCommand timeoutMs) with
      pending := q.pending ++ [id], issued := id :: q.issued } := by
    refine ⟨hevolves, h.evolved hevolves h.bound (fun other hother => ?_) fun hno => ?_⟩
    · rcases mem_append.mp hother with hother | hother
      · exact h.named other hother
      · exact mem_singleton.mp hother ▸ hname
    · have hno : q.initialized = false := hno
      rw [hinitialized] at hno
      cases hno
  exact hadded.trans hadded.inv.processQueue

/-! ## Restoration -/

theorem restoredTask_spec (entry : Json) :
    (restoredTask entry).phase = .idle ∧ (restoredTask entry).status ≠ .pending := by
  unfold restoredTask
  dsimp only
  split
  · exact ⟨rfl, nofun⟩
  · exact ⟨rfl, nofun⟩
  · exact ⟨rfl, nofun⟩
  · rename_i hpending _
    exact ⟨rfl, hpending⟩

/-- The queue while the file is read: an id is unknown, or restored. -/
structure Restoring (q : Queue) : Prop where
  tasks : ∀ id, q.sight id = ⟨none, 0, 0, 0, false, false⟩ ∨ ∃ status, status ≠ .pending ∧
    q.sight id = ⟨some (status, .idle), 0, 0, 0, true, true⟩
  pending : q.pending = []
  running : q.running = []
  initialized : q.initialized = true

theorem Restoring.restoreEntry (h : Restoring q) (entry : Json) : Restoring (q.restoreEntry entry) := by
  unfold Queue.restoreEntry
  split
  · rename_i id _
    refine { h with tasks := fun other => ?_ }
    by_cases hother : other = id
    · subst hother
      obtain ⟨hphase, hstatus⟩ := restoredTask_spec entry
      refine .inr ⟨(restoredTask entry).status, hstatus, ?_⟩
      have hcounts : (q.sight other).queued = 0 ∧ (q.sight other).running = 0 ∧
          (q.sight other).started = 0 := by
        rcases h.tasks other with hshape | ⟨_, _, hshape⟩ <;> rw [hshape] <;> exact ⟨rfl, rfl, rfl⟩
      simp only [sight] at hcounts
      simp only [sight, setTask, Function.update_self, map_some, hcounts, hphase,
        contains_cons, beq_self_eq_true, Bool.true_or]
    · have hsame : sight { q.setTask id (restoredTask entry) with
          issued := id :: q.issued, restored := id :: q.restored } other = q.sight other := by
        simp [sight, setTask, hother]
      rw [hsame]
      exact h.tasks other
  · exact h

theorem Restoring.restoreFromDisk (h : Restoring q) (disk : Option Json) :
    Restoring (q.restoreFromDisk disk) := by
  unfold Queue.restoreFromDisk
  split
  · rename_i entries
    induction entries generalizing q with
    | nil => exact h
    | cons entry rest ih => exact ih (h.restoreEntry entry)
  · exact h

/-- Before the file is read, no id is known. -/
theorem Inv.unissued (h : Inv maxConcurrent q) (hno : q.initialized = false) (id : Str) :
    q.sight id = ⟨none, 0, 0, 0, false, false⟩ := by
  obtain ⟨life, hlife⟩ := h.lives id
  exact (hlife.unissued_of (by simp [sight, h.fresh hno])).2

theorem Inv.restoring (h : Inv maxConcurrent q) (hno : q.initialized = false) :
    Restoring { q with initialized := true } where
  tasks id := .inl (h.unissued hno id)
  pending := eq_nil_iff_forall_not_mem.mpr fun id =>
    count_eq_zero.mp (congrArg Sight.queued (h.unissued hno id))
  running := eq_nil_iff_forall_not_mem.mpr fun id =>
    count_eq_zero.mp (congrArg Sight.running (h.unissued hno id))
  initialized := rfl

theorem processQueue_of_pending (hpending : q.pending = []) : q.processQueue maxConcurrent = q := by
  unfold processQueue
  rw [hpending]
  split_ifs <;> rfl

/-- Every task of the file is restored; nothing is pending, so that none is started. -/
theorem Inv.initializeQueue (h : Inv maxConcurrent q) (disk : Option Json) :
    Advances maxConcurrent q (q.initializeQueue maxConcurrent disk) ∧
      (q.initializeQueue maxConcurrent disk).initialized = true := by
  unfold Queue.initializeQueue
  split_ifs with hinitialized
  · exact ⟨advances_refl h, hinitialized⟩
  have hno : q.initialized = false := by simpa using hinitialized
  have hread := (h.restoring hno).restoreFromDisk disk
  rw [processQueue_of_pending hread.pending]
  refine ⟨?_, hread.initialized⟩
  have hevolves : Evolves q (restoreFromDisk { q with initialized := true } disk) := by
    intro id life hlife
    rw [h.unissued hno id] at hlife
    obtain ⟨rfl, -⟩ := hlife.unissued_of rfl
    rcases hread.tasks id with hshape | ⟨status, hstatus, hshape⟩
    · rw [hshape]
      exact ⟨.unissued, .refl, .unissued⟩
    · rw [hshape]
      exact ⟨.restored status, .single (.restore status), .restored status hstatus⟩
  refine ⟨hevolves, h.evolved hevolves ?_ (fun id hid => ?_) fun hno => ?_⟩
  · rw [hread.running]
    exact Nat.zero_le _
  · rw [hread.pending] at hid
    cases hid
  · rw [hread.initialized] at hno
    cases hno

/-! ## Settlement and pruning -/

theorem Inv.onSettled (h : Inv maxConcurrent q) (htask : q.tasks id = some task)
    (hphase : task.phase = .settling) : Advances maxConcurrent q (q.onSettled maxConcurrent id task) := by
  have hseen : (q.sight id).task = some (task.status, .settling) := by
    simp [sight, htask, hphase]
  have hterminal : task.status ≠ .pending := by
    obtain ⟨life, hlife⟩ := h.lives id
    obtain ⟨final, _, _, hstatus, _⟩ := hlife.settled hseen
    rw [hstatus]
    cases final <;> exact nofun
  have hevolves : Evolves q { q.setTask id { task with phase := .idle } with
      running := q.running.filter fun other => other ≠ id } := by
    refine evolves_at id (fun other hother => ?_) fun life hlife => ?_
    · simp only [sight, setTask, Function.update_of_ne hother, count_filter_ne_other hother]
    · obtain ⟨final, started, rfl, hstatus, hle, hshape⟩ := hlife.settled hseen
      simp only [sight, Sight.mk.injEq] at hshape
      refine ⟨.finished final, .single (.finish final), ?_⟩
      simp only [sight, setTask, Function.update_self, map_some, count_filter_ne,
        hshape.2.1, hshape.2.2.2, hstatus]
      exact .finished final started hle
  have hsettled : Advances maxConcurrent q { q.setTask id { task with phase := .idle } with
      running := q.running.filter fun other => other ≠ id } :=
    ⟨hevolves, h.evolved hevolves ((length_filter_le _ _).trans h.bound) h.named h.fresh⟩
  unfold Queue.onSettled
  dsimp only
  rw [if_neg fun hno => hterminal hno.1]
  exact hsettled.trans hsettled.inv.processQueue

/-- A task that is pruned was finished, or restored with a terminal status. -/
theorem Life.Shows.prunable (h : life.Shows sight) (htask : sight.task = some (status, phase))
    (hterminal : status.isTerminal = true) (hrunning : sight.running = 0) :
    Life.Next life .pruned ∧ Life.pruned.Shows { sight with task := none } := by
  cases h with
  | finished final started hle => exact ⟨.prune final, .pruned started false hle nofun⟩
  | restored other hother =>
    cases htask
    exact ⟨.pruneRestored status hterminal, .pruned 0 true (Nat.zero_le 1) fun _ => rfl⟩
  | unissued | pruned => cases htask
  | waiting =>
    cases htask
    cases hterminal
  | executing | settling => cases hrunning

theorem Inv.prune (h : Inv maxConcurrent q) (chosen : List Str) :
    Advances maxConcurrent q (q.prune chosen) := by
  have hevolves : Evolves q (q.prune chosen) := by
    intro id life hlife
    cases htask : q.tasks id with
    | none =>
      have hsame : (q.prune chosen).sight id = q.sight id := by
        simp [Queue.sight, Queue.prune, htask]
      rw [hsame]
      exact ⟨life, .refl, hlife⟩
    | some task =>
      by_cases hpruned : id ∈ chosen ∧ task.status.isTerminal ∧ id ∉ q.running ∧
          q.activeChildren.lookup id = none
      · have hnone : (q.prune chosen).sight id = { q.sight id with task := none } := by
          simp [Queue.sight, Queue.prune, htask, hpruned]
        rw [hnone]
        have hseen : (q.sight id).task = some (task.status, task.phase) := by
          simp [sight, htask]
        obtain ⟨hmove, hshows⟩ :=
          hlife.prunable hseen hpruned.2.1 (count_eq_zero.mpr hpruned.2.2.1)
        exact ⟨.pruned, .single hmove, hshows⟩
      · have hsame : (q.prune chosen).sight id = q.sight id := by
          simp only [Queue.sight, Queue.prune, htask, if_neg hpruned]
        rw [hsame]
        exact ⟨life, .refl, hlife⟩
  exact h.ended hevolves rfl

/-! ## Every event -/

theorem Inv.onSpawn (h : Inv maxConcurrent q) (hasGroup : Bool) :
    Advances maxConcurrent q (q.onSpawn id task hasGroup) := by
  unfold Queue.onSpawn Queue.requestCancellation
  dsimp only
  split_ifs <;> exact h.ended (evolves_of_sight fun _ => rfl) rfl

theorem Inv.onResolved (h : Inv maxConcurrent q) (htask : q.tasks id = some task)
    (hphase : task.phase = .executing) (result : ExecutorResult) :
    Advances maxConcurrent q (q.onResolved id task result) := by
  have hactive : task.phase.isActive = true := by rw [hphase]; rfl
  unfold Queue.onResolved
  split_ifs
  · exact h.ended (evolves_draining htask hactive result) rfl
  · exact h.ended (evolves_complete htask hactive result) rfl

theorem advances_step {event : Event} (h : Inv maxConcurrent q)
    (hstep : step maxConcurrent disk q event = some next) : Advances maxConcurrent q next := by
  obtain ⟨hread, hinitialized⟩ := h.initializeQueue disk
  cases event with
  | initializeQueue =>
    cases hstep
    exact hread
  | enqueue id hasCommand timeoutMs =>
    simp only [step] at hstep
    split_ifs at hstep with hshut hused
    · cases hstep
      exact hread
    · cases hstep
      rw [not_or] at hused
      exact hread.trans (hread.inv.enqueue hinitialized (by simpa using hused.1) hused.2 _ _)
  | cancel id =>
    cases hstep
    exact hread.trans (hread.inv.cancelTask id)
  | shutdown =>
    cases hstep
    exact hread.trans hread.inv.shutdown
  | spawned id hasGroup =>
    simp only [step] at hstep
    split at hstep
    · split_ifs at hstep
      cases hstep
      exact h.onSpawn hasGroup
    · cases hstep
  | resolved id result =>
    simp only [step] at hstep
    split at hstep
    · rename_i task htask
      split_ifs at hstep with hphase
      cases hstep
      exact h.onResolved htask hphase result
    · cases hstep
  | rejected id rejection =>
    simp only [step] at hstep
    split at hstep
    · rename_i task htask
      split_ifs at hstep with hphase
      cases hstep
      exact h.ended (evolves_reject htask (by rw [hphase]; rfl) rejection) (outline_reject _ _ _ _)
    · cases hstep
  | drained id =>
    simp only [step] at hstep
    split at hstep
    · rename_i task htask
      split at hstep
      · rename_i result hphase
        cases hstep
        exact h.ended (evolves_complete htask (by rw [hphase]; rfl) result) rfl
      · cases hstep
    · cases hstep
  | drainFailed id rejection =>
    simp only [step] at hstep
    split at hstep
    · rename_i task htask
      split at hstep
      · rename_i result hphase
        cases hstep
        exact h.ended (evolves_reject htask (by rw [hphase]; rfl) rejection) (outline_reject _ _ _ _)
      · cases hstep
    · cases hstep
  | settled id =>
    simp only [step] at hstep
    split at hstep
    · rename_i task htask
      split_ifs at hstep with hphase
      cases hstep
      exact h.onSettled htask hphase
    · cases hstep
  | prune chosen =>
    cases hstep
    exact h.prune chosen

theorem advances_run (h : Inv maxConcurrent q)
    (hrun : (machine maxConcurrent disk).run q events = some last) : Advances maxConcurrent q last := by
  induction events generalizing q with
  | nil =>
    cases hrun
    exact advances_refl h
  | cons event rest ih =>
    simp only [Machine.run, bind_eq_some_iff] at hrun
    obtain ⟨next, hstep, hrest⟩ := hrun
    have hnext := advances_step h hstep
    exact hnext.trans (ih hnext.inv hrest)

/-! ## The scheduling invariant -/

/-- The status of a task. -/
def Queue.statusAt (q : Queue) (id : Str) : Option Status := (q.tasks id).map Task.status

theorem Life.Shows.statusAt (h : life.Shows (q.sight id)) : q.statusAt id = life.status := by
  have hseen : q.statusAt id = (q.sight id).task.map Prod.fst := by
    simp [Queue.statusAt, Queue.sight, Option.map_map, Function.comp_def]
  rw [hseen]
  generalize q.sight id = sight at h
  cases h <;> rfl

/-- What the lists of the queue say of a task at a station. -/
theorem Life.Shows.counts (h : life.Shows sight) :
    sight.queued ≤ 1 ∧ sight.started ≤ 1 ∧ (sight.restored = true → sight.started = 0) ∧
      (sight.queued ≠ 0 → life.status = some .pending ∧ sight.running = 0) ∧
      (sight.running ≠ 0 → life.status = some .running ∨ life.status = some .cancelling ∨
        ∃ status, life.status = some status ∧ status.isTerminal = true) := by
  cases h with
  | unissued | restored => simp
  | waiting => simp [Life.status]
  | executing cancelling => cases cancelling <;> simp [Life.status]
  | settling final started hle => cases final <;> simp [Life.status, Final.status, Status.isTerminal, hle]
  | finished final started hle => simp [hle]
  | pruned started restored hle hnone => exact ⟨Nat.zero_le 1, hle, hnone, absurd rfl, absurd rfl⟩

/-- In every reachable state the running tasks are at most `maxConcurrent`; a pending id occurs once, has
the status pending and is not running; a running id runs, is cancelled or is over; no execution starts
twice, and none of a restored task; and a terminal status stays until the task is pruned. -/
theorem task_queue_schedules {maxConcurrent : Nat}
    (hrun : (machine maxConcurrent disk).run .initial events = some q) : q.running.length ≤ maxConcurrent ∧
      q.pending.Nodup ∧ (∀ id ∈ q.pending, q.statusAt id = some .pending ∧ id ∉ q.running) ∧
      (∀ id ∈ q.running, q.statusAt id = some .running ∨ q.statusAt id = some .cancelling ∨
        ∃ status, q.statusAt id = some status ∧ status.isTerminal = true) ∧ q.started.Nodup ∧
      (∀ id ∈ q.restored, id ∉ q.started) ∧
      ∀ more last id status, (machine maxConcurrent disk).run q more = some last →
        q.statusAt id = some status → status.isTerminal = true →
        last.statusAt id = some status ∨ last.statusAt id = none := by
  have hinv : Inv maxConcurrent q := (advances_run (inv_initial maxConcurrent) hrun).inv
  have hcounts : ∀ id, ∃ life : Life, q.statusAt id = life.status ∧ life.Shows (q.sight id) := by
    intro id
    obtain ⟨life, hlife⟩ := hinv.lives id
    exact ⟨life, hlife.statusAt, hlife⟩
  refine ⟨hinv.bound, nodup_iff_count_le_one.mpr fun id => ?_, fun id hid => ?_, fun id hid => ?_,
    nodup_iff_count_le_one.mpr fun id => ?_, fun id hid => ?_, ?_⟩
  · obtain ⟨life, -, hlife⟩ := hcounts id
    exact hlife.counts.1
  · obtain ⟨life, hstatus, hlife⟩ := hcounts id
    obtain ⟨hpending, hrunning⟩ := hlife.counts.2.2.2.1 (count_pos_iff.mpr hid).ne'
    exact ⟨hstatus.trans hpending, count_eq_zero.mp hrunning⟩
  · obtain ⟨life, hstatus, hlife⟩ := hcounts id
    rw [hstatus]
    exact hlife.counts.2.2.2.2 (count_pos_iff.mpr hid).ne'
  · obtain ⟨life, -, hlife⟩ := hcounts id
    exact hlife.counts.2.1
  · obtain ⟨life, -, hlife⟩ := hcounts id
    exact count_eq_zero.mp (hlife.counts.2.2.1 (by simpa [sight] using hid))
  · intro more last id status hmore hstatus hterminal
    obtain ⟨life, hlife⟩ := hinv.lives id
    obtain ⟨life', hmoves, hlast⟩ := (advances_run hinv hmore).evolves id life hlife
    rw [hlife.statusAt] at hstatus
    rw [hlast.statusAt]
    rcases Life.keeps_terminal hmoves hstatus hterminal with hkept | rfl
    · exact .inl hkept
    · exact .inr rfl

/-- Two tasks for one place: the second waits, and starts when the first has settled. -/
def twoTasks : List Event :=
  [.enqueue "a" true [], .enqueue "b" true [], .cancel "a",
    .resolved "a" ⟨false, true, false, []⟩, .settled "a"]

theorem task_queue_schedules_twoTasks :
    ∃ q : Queue, (machine 1 none).run .initial twoTasks = some q ∧ q.running = [lit "b"] ∧
      q.statusAt "a" = some .cancelled ∧ q.started.Nodup := by
  obtain ⟨q, hrun⟩ : ∃ q, (machine 1 none).run .initial twoTasks = some q :=
    isSome_iff_exists.mp (by decide +kernel)
  have hend : ((machine 1 none).run .initial twoTasks).map
      (fun q => (q.running, q.statusAt "a")) = some ([lit "b"], some .cancelled) := by decide +kernel
  rw [hrun, map_some, some.injEq, Prod.mk.injEq] at hend
  exact ⟨q, hrun, hend.1, hend.2, (task_queue_schedules hrun).2.2.2.2.1⟩

end Ploinky.Tasks
