import Ploinky.Edge.Error
import Ploinky.Lib.Transition

/-!
# The apply lock

`acquireApplyLock` publishes a lock file by hard-linking a freshly written temporary file, and
reclaims the lock of a dead process by inspecting the file and then unlinking it by name. The model
runs any number of callers, several of which may belong to one process, and makes every file-system
call one atomic step. A pending call returns (`proceed`), throws (`throws`), or, for
`process.kill(pid, 0)`, reports what the kernel knows (`probed`); a process may die between any two
calls.

The unlink of a stale lock is the only step that can take a live owner's lock away:
`at_most_one_holder` shows mutual exclusion for every run in which that unlink removes the file its
caller inspected, and `two_reclaimers_both_hold` is a run of two callers that violates it.
-/

namespace Ploinky.Edge.ApplyLock

open Transition Option

/-- A process id. -/
abbrev Pid := Nat

/-- One invocation site of `acquireApplyLock`. -/
abbrev Caller := Nat

/-- The device and inode number `lstat` reports. -/
structure Stat where
  dev : Nat
  ino : Nat
  deriving DecidableEq

/-- A parsed lock document as its readers see it. `pid` is absent when `Number(document?.pid || 0)`
is no integer. -/
structure LockDocument where
  pid : Option Int
  lockId : Str
  createdAt : Str
  deriving DecidableEq

/-- The file under the lock name. `document` is absent when its bytes are not JSON. -/
structure LockFile where
  stat : Stat
  document : Option LockDocument
  deriving DecidableEq

/-- What the callers cannot change: which process each caller runs in, and whether `Date.parse`
reads a text as a finite time. -/
structure Env where
  pidOf : Caller → Pid
  finiteDate : Str → Bool

/-- A hexadecimal digit of either case. -/
def isHexDigit (c : Char) : Bool :=
  ('0' ≤ c && c ≤ '9') || ('a' ≤ c && c ≤ 'f') || ('A' ≤ c && c ≤ 'F')

/-- The version-4 UUID pattern a lock id must match. -/
def isLockId (s : Str) : Bool :=
  match Js.split s '-' with
  | [a, b, c, d, e] =>
    a.length == 8 && b.length == 4 && c.length == 4 && d.length == 4 && e.length == 12 &&
      (a ++ b ++ c ++ d ++ e).all isHexDigit && c.head? == some '4' &&
      d.head?.any fun x => (Js.lit "89abAB").contains x
  | _ => false

/-- `Number.MAX_SAFE_INTEGER`. -/
def maxSafeInteger : Int := 2 ^ 53 - 1

/-- The owner checks an existing lock document must pass before its process is probed. -/
def validOwner (env : Env) (document : LockDocument) : Bool :=
  match document.pid with
  | none => false
  | some pid =>
    decide (1 ≤ pid) && decide (pid ≤ maxSafeInteger) && isLockId document.lockId &&
      !document.createdAt.isEmpty && env.finiteDate document.createdAt

/-- The process id a valid document names. -/
def ownerPid (document : LockDocument) : Pid := (document.pid.getD 0).toNat

/-- The temporary file of one attempt, before it is linked under the lock name. -/
structure Temp where
  stat : Stat
  lockId : Str
  createdAt : Str
  deriving DecidableEq

/-- The lock file that linking the temporary file of a process creates. -/
def Temp.asLock (tmp : Temp) (pid : Pid) : LockFile :=
  ⟨tmp.stat, some ⟨some (pid : Int), tmp.lockId, tmp.createdAt⟩⟩

/-- The failure of an acquisition that found a lock it may not reclaim. -/
def busy : CodedError :=
  edgeError "edge generation apply is already in progress" "EDGE_GENERATION_BUSY"

/-- How an attempt leaves its `try` block. -/
inductive Outcome where
  | acquired
  | retry
  | threw (error : CodedError)
  deriving DecidableEq

/-- The pending call of one caller, with the local variables still in use. -/
inductive Control where
  | outside (last : Option CodedError)
  | writeTemp (attempt : Nat)
  | link (attempt : Nat) (tmp : Temp)
  | syncLinked (tmp : Temp)
  | lstatBefore (attempt : Nat) (tmp : Temp)
  | readOwner (attempt : Nat) (tmp : Temp) (before : Stat)
  | probe (attempt : Nat) (tmp : Temp) (before : Stat) (document : LockDocument)
  | lstatAfter (attempt : Nat) (tmp : Temp) (before : Stat) (document : LockDocument)
  | reclaim (tmp : Temp) (before : Stat) (document : LockDocument)
  | syncReclaimed (tmp : Temp)
  | cleanup (tmp : Temp) (outcome : Outcome)
  | holding (lockId : Str)
  | releaseLstat (lockId : Str)
  | releaseRead (lockId : Str) (before : Stat)
  | releaseLstatAfter (lockId : Str) (before : Stat) (current : Str)
  | releaseUnlink (lockId : Str)
  | releaseSync
  deriving DecidableEq

/-- The answer of `process.kill(pid, 0)`. -/
inductive Reply where
  | running
  | noSuchProcess
  | refused
  deriving DecidableEq

/-- How the pending call of a caller ends. -/
inductive Act where
  | call
  | tempWritten (stat : Stat) (lockId createdAt : Str)
  | proceed
  | throws (error : CodedError)
  | probed (reply : Reply)
  | release
  deriving DecidableEq

/-- One atomic event: a caller's pending call ends, or a process dies. -/
inductive Event where
  | at (caller : Caller) (act : Act)
  | die (pid : Pid)
  deriving DecidableEq

/-- The shared file system, the processes and the callers. `temps` are the temporary files that
exist, `issued` the lock ids drawn so far. -/
structure State where
  lock : Option LockFile
  temps : List Stat
  issued : List Str
  alive : Pid → Bool
  control : Caller → Control

/-- Set the control of one caller. -/
def State.goto (s : State) (c : Caller) (control : Control) : State :=
  { s with control := fun d => if d = c then control else s.control d }

/-- The control after the `finally` block of an attempt that removed its temporary file. -/
def Outcome.resume (tmp : Temp) : Outcome → Control
  | .acquired => .holding tmp.lockId
  | .retry => .writeTemp 1
  | .threw error => .outside (some error)

/-- The end of one pending call of a live caller. `none` marks an answer the call cannot give: in
particular a new temporary file has an unused inode, a lock id is never drawn twice, and a process
is reported missing only when it is dead. -/
def advance (env : Env) (s : State) (c : Caller) : Control → Act → Option State
  | .outside _, .call => some (s.goto c (.writeTemp 0))
  | .writeTemp attempt, .tempWritten stat lockId createdAt =>
    if stat ∈ s.temps ∨ s.lock.map LockFile.stat = some stat ∨ lockId ∈ s.issued then none
    else some { s.goto c (.link attempt ⟨stat, lockId, createdAt⟩) with
      temps := stat :: s.temps, issued := lockId :: s.issued }
  | .writeTemp _, .throws error => some (s.goto c (.outside (some error)))
  | .link attempt tmp, .proceed =>
    match s.lock with
    | none => some { s.goto c (.syncLinked tmp) with lock := some (tmp.asLock (env.pidOf c)) }
    | some _ => some (s.goto c (.lstatBefore attempt tmp))
  | .link _ tmp, .throws error => some (s.goto c (.cleanup tmp (.threw error)))
  | .syncLinked tmp, .proceed => some (s.goto c (.cleanup tmp .acquired))
  | .syncLinked tmp, .throws error => some (s.goto c (.cleanup tmp (.threw error)))
  | .lstatBefore attempt tmp, .proceed =>
    match s.lock with
    | some file => some (s.goto c (.readOwner attempt tmp file.stat))
    | none => some (s.goto c (.cleanup tmp (.threw busy)))
  | .lstatBefore _ tmp, .throws _ => some (s.goto c (.cleanup tmp (.threw busy)))
  | .readOwner attempt tmp before, .proceed =>
    match s.lock.bind LockFile.document with
    | some document =>
      if validOwner env document then some (s.goto c (.probe attempt tmp before document))
      else some (s.goto c (.cleanup tmp (.threw busy)))
    | none => some (s.goto c (.cleanup tmp (.threw busy)))
  | .readOwner _ tmp _, .throws _ => some (s.goto c (.cleanup tmp (.threw busy)))
  | .probe attempt tmp before document, .probed .noSuchProcess =>
    if s.alive (ownerPid document) then none
    else some (s.goto c (.lstatAfter attempt tmp before document))
  | .probe _ tmp _ _, .probed _ => some (s.goto c (.cleanup tmp (.threw busy)))
  | .lstatAfter attempt tmp before document, .proceed =>
    if s.lock.map LockFile.stat = some before ∧ attempt = 0 then
      some (s.goto c (.reclaim tmp before document))
    else some (s.goto c (.cleanup tmp (.threw busy)))
  | .lstatAfter _ tmp _ _, .throws _ => some (s.goto c (.cleanup tmp (.threw busy)))
  -- The reclaiming unlink goes by name: it removes whatever file has the lock name by now.
  | .reclaim tmp _ _, .proceed =>
    match s.lock with
    | some _ => some { s.goto c (.syncReclaimed tmp) with lock := none }
    | none => some (s.goto c (.cleanup tmp (.threw busy)))
  | .reclaim tmp _ _, .throws _ => some (s.goto c (.cleanup tmp (.threw busy)))
  | .syncReclaimed tmp, .proceed => some (s.goto c (.cleanup tmp .retry))
  | .syncReclaimed tmp, .throws _ => some (s.goto c (.cleanup tmp (.threw busy)))
  | .cleanup tmp outcome, .proceed =>
    some { s.goto c (outcome.resume tmp) with temps := s.temps.erase tmp.stat }
  | .cleanup tmp .acquired, .throws _ => some (s.goto c (.holding tmp.lockId))
  | .cleanup _ _, .throws error => some (s.goto c (.outside (some error)))
  | .holding lockId, .release => some (s.goto c (.releaseLstat lockId))
  | .releaseLstat lockId, .proceed =>
    match s.lock with
    | some file => some (s.goto c (.releaseRead lockId file.stat))
    | none => some (s.goto c (.outside none))
  | .releaseRead lockId before, .proceed =>
    match s.lock.bind LockFile.document with
    | some document => some (s.goto c (.releaseLstatAfter lockId before document.lockId))
    | none => some (s.goto c (.outside none))
  | .releaseLstatAfter lockId before current, .proceed =>
    if current = lockId ∧ s.lock.map LockFile.stat = some before then
      some (s.goto c (.releaseUnlink lockId))
    else some (s.goto c (.outside none))
  | .releaseUnlink _, .proceed =>
    match s.lock with
    | some _ => some { s.goto c .releaseSync with lock := none }
    | none => some (s.goto c (.outside none))
  | .releaseSync, .proceed => some (s.goto c (.outside none))
  | .releaseLstat _, .throws _ | .releaseRead _ _, .throws _ | .releaseLstatAfter _ _ _, .throws _
  | .releaseUnlink _, .throws _ | .releaseSync, .throws _ => some (s.goto c (.outside none))
  | _, _ => none

/-- One event of the whole system. Only live processes take steps, and a dead process stays
dead. -/
def step (env : Env) (s : State) : Event → Option State
  | .at c act => if s.alive (env.pidOf c) then advance env s c (s.control c) act else none
  | .die pid => some { s with alive := fun p => if p = pid then false else s.alive p }

/-- The callers of the apply lock as a transition machine. -/
def machine (env : Env) : Machine State Event := ⟨step env⟩

/-- The caller has returned from `acquireApplyLock` and its release function has not yet reached
the end of its unlink. -/
def Control.held : Control → Option Str
  | .holding lockId | .releaseLstat lockId | .releaseRead lockId _
  | .releaseLstatAfter lockId _ _ | .releaseUnlink lockId => some lockId
  | _ => none

/-- A live caller that holds the lock. -/
def State.Holds (env : Env) (s : State) (c : Caller) : Prop :=
  s.alive (env.pidOf c) = true ∧ (s.control c).held.isSome = true

instance (env : Env) (s : State) (c : Caller) : Decidable (s.Holds env c) :=
  inferInstanceAs (Decidable (_ ∧ _))

/-- No caller has started. The lock file, if there is one, is left over. -/
def Initial (s : State) : Prop := ∀ c, s.control c = .outside none

/-- A reclaiming unlink removes the file that its caller inspected: no other caller has replaced
the lock file between the second `lstat` and the unlink. Every other event is unrestricted. -/
def UnlinksInspected (s : State) : Event → Prop
  | .at c .proceed =>
    match s.control c with
    | .reclaim _ before document => ∀ file ∈ s.lock, file = ⟨before, some document⟩
    | _ => True
  | _ => True

/-! ## What one step can do -/

/-- The lock id whose file the control relies on: it has been linked and not yet unlinked. -/
def Control.owned : Control → Option Str
  | .syncLinked tmp | .cleanup tmp .acquired => some tmp.lockId
  | control => control.held

/-- The lock id the caller has drawn for its current attempt. -/
def Control.drawn : Control → Option Str
  | .link _ tmp | .syncLinked tmp | .lstatBefore _ tmp | .readOwner _ tmp _ | .probe _ tmp _ _
  | .lstatAfter _ tmp _ _ | .reclaim tmp _ _ | .syncReclaimed tmp | .cleanup tmp _ =>
    some tmp.lockId
  | control => control.held

/-- The document whose process the caller has found dead. -/
def Control.condemned : Control → Option LockDocument
  | .lstatAfter _ _ _ document | .reclaim _ _ document => some document
  | _ => none

/-- An owned lock id is the one drawn. -/
theorem Control.drawn_of_owned {control : Control} {id : Str} (h : control.owned = some id) :
    control.drawn = some id := by
  cases control with
  | cleanup tmp outcome => cases outcome <;> simp_all [owned, drawn, held]
  | _ => simp_all [owned, drawn, held]

/-- The effects of a completed call on the shared state. `quiet` steps change only the caller's
control and its temporary file; the others draw a lock id or change the lock file. -/
inductive Effect (env : Env) (s : State) (c : Caller) (act : Act) : State → Prop where
  | quiet (control : Control) (temps : List Stat)
      (howned : ∀ id, control.owned = some id → (s.control c).owned = some id)
      (hdrawn : ∀ id, control.drawn = some id → (s.control c).drawn = some id)
      (hcondemned : ∀ document, control.condemned = some document →
        (s.control c).condemned = some document ∨ s.alive (ownerPid document) = false) :
      Effect env s c act { s.goto c control with temps := temps }
  | draw (attempt : Nat) (tmp : Temp) (temps : List Stat) (hfresh : tmp.lockId ∉ s.issued) :
      Effect env s c act { s.goto c (.link attempt tmp) with
        temps := temps, issued := tmp.lockId :: s.issued }
  | linked (attempt : Nat) (tmp : Temp) (hat : s.control c = .link attempt tmp)
      (hfree : s.lock = none) :
      Effect env s c act { s.goto c (.syncLinked tmp) with
        lock := some (tmp.asLock (env.pidOf c)) }
  | reclaimed (tmp : Temp) (before : Stat) (document : LockDocument) (file : LockFile)
      (hat : s.control c = .reclaim tmp before document) (hact : act = .proceed)
      (hfile : s.lock = some file) :
      Effect env s c act { s.goto c (.syncReclaimed tmp) with lock := none }
  | released (lockId : Str) (hat : s.control c = .releaseUnlink lockId) :
      Effect env s c act { s.goto c .releaseSync with lock := none }

variable {env : Env} {s next : State} {c d : Caller} {act : Act}

/-- Removing the temporary file of an attempt keeps what the attempt owns. -/
theorem Effect.resumed {tmp : Temp} {outcome : Outcome} {temps : List Stat}
    (hat : s.control c = .cleanup tmp outcome) :
    Effect env s c act { s.goto c (outcome.resume tmp) with temps := temps } := by
  cases outcome with
  | _ =>
    exact .quiet _ _ (by simp [hat, Outcome.resume, Control.owned, Control.held])
      (by simp [hat, Outcome.resume, Control.drawn, Control.held])
      (by simp [Outcome.resume, Control.condemned])

/-- Every completed call has one of the listed effects. -/
theorem effect_of_advance (h : advance env s c (s.control c) act = some next) : Effect env s c act next := by
  generalize hcontrol : s.control c = control at h
  unfold advance at h
  split at h
  all_goals try split at h
  all_goals try split at h
  all_goals cases h
  all_goals first
    | exact .linked _ _ hcontrol ‹_›
    | exact .reclaimed _ _ _ _ hcontrol rfl ‹_›
    | exact .released _ hcontrol
    | exact .resumed hcontrol
    | exact .draw _ ⟨_, _, _⟩ _ (by simp_all)
    | exact .quiet _ s.temps (by simp [hcontrol, Control.owned, Control.held])
        (by simp [hcontrol, Control.drawn, Control.held])
        (by simp_all [Control.condemned])

/-! ## Mutual exclusion -/

/-- What holds of each caller: the lock file of a live owner is its own, and a condemned document names a
dead process. -/
structure Sound (env : Env) (lock : Option LockFile) (issued : List Str) (alive : Pid → Bool) (c : Caller)
    (control : Control) : Prop where
  owner_file : alive (env.pidOf c) = true → ∀ id, control.owned = some id →
    ∃ tmp : Temp, tmp.lockId = id ∧ lock = some (tmp.asLock (env.pidOf c))
  drawn_issued : ∀ id, control.drawn = some id → id ∈ issued
  condemned_dead : ∀ document, control.condemned = some document → alive (ownerPid document) = false

/-- What holds in every state of an admitted run. Lock ids are drawn once. -/
structure Inv (env : Env) (s : State) : Prop where
  callers : ∀ c, Sound env s.lock s.issued s.alive c (s.control c)
  drawn_once : ∀ c d id, (s.control c).drawn = some id → (s.control d).drawn = some id → c = d

@[simp] theorem State.goto_control_self (control : Control) : (s.goto c control).control c = control := by
  simp [State.goto]

theorem State.goto_control_other (control : Control) (hne : d ≠ c) :
    (s.goto c control).control d = s.control d := by
  simp [State.goto, hne]

/-- Nothing is owned, drawn or condemned before the first call. -/
theorem inv_initial (h : Initial s) : Inv env s where
  callers c := by
    rw [h c]
    constructor <;> nofun
  drawn_once c d id hdrawn := by simp [h c, Control.drawn, Control.held] at hdrawn

/-- Two live owners are one caller. -/
theorem Inv.owner_unique (hinv : Inv env s) {idc idd : Str}
    (hc : s.alive (env.pidOf c) = true) (hd : s.alive (env.pidOf d) = true)
    (hownc : (s.control c).owned = some idc) (hownd : (s.control d).owned = some idd) : c = d := by
  obtain ⟨tmpc, hidc, hlockc⟩ := (hinv.callers c).owner_file hc idc hownc
  obtain ⟨tmpd, hidd, hlockd⟩ := (hinv.callers d).owner_file hd idd hownd
  have hsame : tmpc.lockId = tmpd.lockId := by
    rw [hlockc] at hlockd
    simp only [Temp.asLock, some.injEq, LockFile.mk.injEq, LockDocument.mk.injEq] at hlockd
    exact hlockd.2.2.1
  refine hinv.drawn_once c d idc (Control.drawn_of_owned hownc) ?_
  rw [← hidc, hsame, hidd]
  exact Control.drawn_of_owned hownd

/-- The invariant survives a move of one caller that draws no used id. -/
theorem Inv.of_move (hinv : Inv env s) {control : Control} (hcontrol : next.control = (s.goto c control).control)
    (hsound : Sound env next.lock next.issued next.alive c control)
    (hothers : ∀ d, d ≠ c → Sound env next.lock next.issued next.alive d (s.control d))
    (hdrawn : ∀ id, control.drawn = some id → (s.control c).drawn = some id ∨ id ∉ s.issued) : Inv env next := by
  have hself : next.control c = control := by simp [hcontrol]
  have hother : ∀ d, d ≠ c → next.control d = s.control d := by
    intro d hne
    rw [hcontrol, State.goto_control_other control hne]
  refine ⟨forall_of_move hother (hself ▸ hsound) hothers,
    fun d e id => once_of_move (·.drawn = some id) hother (fun h => ?_) (fun d e => hinv.drawn_once d e id) d e⟩
  rw [hself] at h
  exact (hdrawn id h).imp_right fun hfresh d hd => hfresh ((hinv.callers d).drawn_issued id hd)

/-- A live caller's call keeps the invariant, provided a reclaiming unlink removes the file that was
inspected. -/
theorem Inv.effect (hinv : Inv env s) (hlive : s.alive (env.pidOf c) = true)
    (heffect : Effect env s c act next) (hgood : UnlinksInspected s (.at c act)) : Inv env next := by
  cases heffect with
  | quiet control temps howned hdrawn hcondemned =>
    have hsound := hinv.callers c
    exact hinv.of_move rfl ⟨fun hlive id h => hsound.owner_file hlive id (howned id h),
      fun id h => hsound.drawn_issued id (hdrawn id h),
      fun document h => (hcondemned document h).elim (hsound.condemned_dead document) id⟩
      (fun d _ => hinv.callers d) fun id h => .inl (hdrawn id h)
  | draw attempt tmp temps hfresh =>
    refine hinv.of_move rfl ⟨nofun, fun id h => ?_, nofun⟩ (fun d _ => { hinv.callers d with
      drawn_issued := fun id h => .tail _ ((hinv.callers d).drawn_issued id h) }) fun id h => ?_
    all_goals cases h
    · exact .head _
    · exact .inr hfresh
  | linked attempt tmp hat hfree =>
    have hdrawn : (s.control c).drawn = some tmp.lockId := by simp [hat, Control.drawn]
    refine hinv.of_move rfl ⟨fun _ id h => ⟨tmp, some.inj h, rfl⟩,
      fun id h => (hinv.callers c).drawn_issued id (hdrawn.trans h), nofun⟩
      (fun d _ => { hinv.callers d with owner_file := fun hd id hid => ?_ }) fun id h => .inl (hdrawn.trans h)
    -- No other live caller owns the lock: the name was free.
    obtain ⟨_, _, hlock⟩ := (hinv.callers d).owner_file hd id hid
    simp [hfree] at hlock
  | reclaimed tmp before document file hat hact hfile =>
    have hdrawn : (s.control c).drawn = some tmp.lockId := by simp [hat, Control.drawn]
    refine hinv.of_move rfl ⟨nofun, fun id h => (hinv.callers c).drawn_issued id (hdrawn.trans h), nofun⟩
      (fun d _ => { hinv.callers d with owner_file := fun hd id hid => ?_ }) fun id h => .inl (hdrawn.trans h)
    -- The inspected file names a dead process, so no live caller owns it.
    obtain ⟨owner, _, hlock⟩ := (hinv.callers d).owner_file hd id hid
    have hdead := (hinv.callers c).condemned_dead document (by simp [hat, Control.condemned])
    have hsame : file = ⟨before, some document⟩ := by
      simp only [UnlinksInspected, hact, hat] at hgood
      exact hgood file hfile
    rw [hfile, hsame] at hlock
    simp only [Temp.asLock, some.injEq, LockFile.mk.injEq] at hlock
    simp only [hlock.2] at hdead
    cases hdead.symm.trans hd
  | released lockId hat =>
    refine hinv.of_move rfl ⟨nofun, nofun, nofun⟩ (fun d hne => { hinv.callers d with owner_file := fun hd id hid => ?_ }) nofun
    -- The releasing caller is the only live owner.
    exact absurd (hinv.owner_unique hd hlive hid
      (show (s.control c).owned = some lockId by simp [hat, Control.owned, Control.held])) hne

/-- The death of a process keeps the invariant: it concerns live callers only. -/
theorem Inv.die (hinv : Inv env s) (pid : Pid) :
    Inv env { s with alive := fun p => if p = pid then false else s.alive p } where
  callers c := { hinv.callers c with
    owner_file := fun hlive => (hinv.callers c).owner_file (by by_contra hdead; simp_all)
    condemned_dead := fun document h => by simp [(hinv.callers c).condemned_dead document h] }
  drawn_once := hinv.drawn_once

/-- One admitted event keeps the invariant. -/
theorem inv_step {e : Event} (hinv : Inv env s) (hgood : UnlinksInspected s e)
    (hstep : step env s e = some next) : Inv env next := by
  cases e with
  | die pid =>
    simp only [step, some.injEq] at hstep
    exact hstep ▸ hinv.die pid
  | «at» c act =>
    simp only [step, ite_none_right_eq_some] at hstep
    obtain ⟨hlive, hadvance⟩ := hstep
    exact hinv.effect hlive (effect_of_advance hadvance) hgood

/-- Holding the lock means owning a lock file. -/
theorem Control.owned_of_held {control : Control} {id : Str} (h : control.held = some id) :
    control.owned = some id := by
  cases control <;> simp_all [held, owned]

/-- Mutual exclusion of the apply lock: along every run in which each reclaiming unlink removes the
file its caller inspected, two live holders are the same caller, so at most one live process holds
the lock. -/
theorem at_most_one_holder {s₀ : State} {events : List Event} (hinit : Initial s₀)
    (hrun : (machine env).Follows UnlinksInspected s₀ events s)
    (hc : s.Holds env c) (hd : s.Holds env d) : c = d := by
  have hinv : Inv env s :=
    Machine.invariant_of_follows (fun _ _ _ hs hgood hstep => inv_step hs hgood hstep) hrun
      (inv_initial hinit)
  obtain ⟨idc, hidc⟩ := isSome_iff_exists.mp hc.2
  obtain ⟨idd, hidd⟩ := isSome_iff_exists.mp hd.2
  exact hinv.owner_unique hc.1 hd.1 (Control.owned_of_held hidc) (Control.owned_of_held hidd)

/-! ## Two callers and one stale lock -/

/-- Callers 1 and 2 run in processes 11 and 12. -/
def twoProcesses : Env := ⟨fun c => c + 10, fun _ => true⟩

/-- Process 10 died holding the lock. -/
def leftover : State where
  lock := some ⟨⟨1, 100⟩, some ⟨some 10, "00000000-0000-4000-8000-000000000000",
    "2026-01-01T00:00:00.000Z"⟩⟩
  temps := []
  issued := ["00000000-0000-4000-8000-000000000000"]
  alive := fun pid => pid != 10
  control := fun _ => .outside none

/-- The calls of one caller from its start to the point where it may unlink the stale lock. -/
def inspectStale (c : Caller) (stat : Stat) (lockId : Str) : List Event :=
  [.at c .call, .at c (.tempWritten stat lockId "2026-01-02T00:00:00.000Z"), .at c .proceed,
    .at c .proceed, .at c .proceed, .at c (.probed .noSuchProcess), .at c .proceed]

/-- The calls from the reclaiming unlink to the return of `acquireApplyLock`. -/
def reclaimAndAcquire (c : Caller) (stat : Stat) (lockId : Str) : List Event :=
  [.at c .proceed, .at c .proceed, .at c .proceed,
    .at c (.tempWritten stat lockId "2026-01-02T00:00:01.000Z"), .at c .proceed, .at c .proceed,
    .at c .proceed]

/-- A single caller reclaims the stale lock under the condition of `at_most_one_holder`, and is then
the only holder. -/
theorem stale_lock_reclaimed_by_one_caller : ∃ s, (machine twoProcesses).Follows UnlinksInspected leftover
        (inspectStale 1 ⟨1, 101⟩ "00000000-0000-4000-8000-000000000001" ++
          reclaimAndAcquire 1 ⟨1, 103⟩ "00000000-0000-4000-8000-000000000003") s ∧
      s.Holds twoProcesses 1 ∧ ∀ d, s.Holds twoProcesses d → 1 = d := by
  refine ⟨?last, ?run, ?holds, fun d hd => at_most_one_holder (fun _ => rfl) ?run ?holds hd⟩
  case run =>
    iterate 7 refine .step rfl trivial ?_
    refine .step rfl (fun file h => (some.inj h).symm) ?_
    iterate 6 refine .step rfl trivial ?_
    exact .refl _
  case holds => decide

/-- Both callers inspect the stale lock before either unlinks it. Caller 1 unlinks it and acquires;
caller 2 then unlinks the lock of caller 1 by name and acquires too. Both processes are alive and
hold the lock. -/
theorem two_reclaimers_both_hold : ∃ s, (machine twoProcesses).run leftover
        (inspectStale 1 ⟨1, 101⟩ "00000000-0000-4000-8000-000000000001" ++
          inspectStale 2 ⟨1, 102⟩ "00000000-0000-4000-8000-000000000002" ++
          reclaimAndAcquire 1 ⟨1, 103⟩ "00000000-0000-4000-8000-000000000003" ++
          reclaimAndAcquire 2 ⟨1, 104⟩ "00000000-0000-4000-8000-000000000004") = some s ∧
      s.Holds twoProcesses 1 ∧ s.Holds twoProcesses 2 ∧ twoProcesses.pidOf 1 ≠ twoProcesses.pidOf 2 := by
  refine ⟨_, rfl, ?_, ?_, ?_⟩ <;> decide

end Ploinky.Edge.ApplyLock
