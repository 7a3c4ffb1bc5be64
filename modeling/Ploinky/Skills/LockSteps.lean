import Ploinky.Skills.ExportLock

/-!
# The steps of the skill export lock

Two facts about the directory carry every argument about this lock. A directory with a marker cannot
be removed, and a marker is removed only by the caller that created it, so the directory a reclaimer
verified stays in place until its unlink. And a directory without an owner record is left alone by
everyone but the one caller that is about to write a record into it or to remove it.

`Relies` says for each pending call what its caller relies on about the directory, `Inv` that every
caller may rely on it, and `effect_of_advance` lists once what a completed call can do.
-/

namespace Ploinky.Skills.ExportLock

open Transition Control Option

variable {Content : Type}

/-! ## What a caller relies on -/

/-- The lock of an acquisition that has returned and whose record has not been removed. -/
def Control.lock : Control Content → Option Lock
  | .holding lock | .releaseUnlink lock | .lstatLock (.assertHeld lock _)
  | .lstatOwner (.assertHeld lock _) _ | .readOwner (.assertHeld lock _) _ _ => some lock
  | _ => none

/-- The token of the record the caller has written and not yet removed. -/
def Control.owned : Control Content → Option Str
  | .lstatAcquired token => some token
  | control => control.lock.map Lock.token

/-- The token the caller has drawn for its current acquisition. -/
def Control.drawn : Control Content → Option Str
  | .renameTemp _ _ token => some token
  | control => control.owned

/-- The directory has no record, and the caller is about to write one or to remove the directory. -/
def Control.settling : Control Content → Bool
  | .openTemp | .renameTemp _ _ _ | .rmdirMarker | .rmdirReclaimed | .releaseRmdir _ => true
  | _ => false

/-- The caller has created the marker and not yet removed it. -/
def Control.marking : Control Content → Bool
  | .lstatLock (.verify _) | .lstatOwner (.verify _) _ | .readOwner (.verify _) _ _
  | .unlinkOwner _ | .rmdirMarker | .dropMarker _ => true
  | _ => false

/-- The content whose owner the caller has found dead. -/
def Control.condemned : Control Content → Option Content
  | .mkdirMarker observed | .lstatLock (.verify observed) | .lstatOwner (.verify observed) _
  | .readOwner (.verify observed) _ _ | .unlinkOwner observed => some observed.record.content
  | _ => none

/-- The caller is removing the lock path after its record could not be written. -/
def Control.removing : Control Content → Bool
  | .removeLock _ => true
  | _ => false

/-- The control relies on the directory. What the owner of a record relies on is lost with its
death, what the others rely on is not. -/
def Control.engaged (alive : Bool) (control : Control Content) : Bool :=
  control.settling || control.marking || control.removing || (alive && control.owned.isSome)

/-- The directory has the record with the token. -/
def LockDir.HasToken (env : Env Content) (dir : LockDir Content) (token : Str) : Prop :=
  ∃ record, dir.owner = some (.file record) ∧ env.tokenOf record.content = some token

/-- The directory has the observed record. -/
def LockDir.Observed (dir : LockDir Content) (observed : Observation Content) : Prop :=
  dir.id = observed.directory ∧
    ∃ record, dir.owner = some (.file record) ∧ record.content = observed.record.content

/-- What the caller with this pending call relies on about the directory. -/
def Control.Relies (env : Env Content) (dir : LockDir Content) : Control Content → Prop
  | .lstatLock (.verify _) | .dropMarker _ => dir.marker = true
  | .lstatOwner (.verify _) directory | .readOwner (.verify _) directory _ =>
    dir.marker = true ∧ dir.id = directory
  | .unlinkOwner observed => dir.marker = true ∧ dir.Observed observed
  | .rmdirMarker => dir.marker = true ∧ dir.owner = none
  | .rmdirReclaimed | .openTemp | .releaseRmdir _ => dir.owner = none
  | .renameTemp name _ _ => dir.owner = none ∧ name ∈ dir.temps
  | .removeLock _ => False
  | .lstatAcquired token => dir.HasToken env token
  | .holding lock | .releaseUnlink lock | .lstatLock (.assertHeld lock _) =>
    dir.HasToken env lock.token ∧ dir.id = lock.lockId
  | .lstatOwner (.assertHeld lock _) directory | .readOwner (.assertHeld lock _) directory _ =>
    dir.HasToken env lock.token ∧ dir.id = lock.lockId ∧ directory = lock.lockId
  | _ => True

section Relies

variable {env : Env Content} {dir : LockDir Content} {control : Control Content}

/-- A new marker disturbs no caller. -/
theorem Control.Relies.mark (h : control.Relies env dir) :
    control.Relies env { dir with marker := true } := by
  unfold Relies LockDir.Observed LockDir.HasToken at *
  split <;> simp_all

/-- Removing the marker disturbs only the caller that created it. -/
theorem Control.Relies.unmark (h : control.Relies env dir) (hmarking : control.marking = false) :
    control.Relies env { dir with marker := false } := by
  unfold Relies LockDir.HasToken at *
  unfold marking at hmarking
  split <;> simp_all

/-- A new temporary file disturbs no caller. -/
theorem Control.Relies.openTemp (h : control.Relies env dir) (name : Str) :
    control.Relies env { dir with temps := name :: dir.temps } := by
  unfold Relies LockDir.Observed LockDir.HasToken at *
  split <;> simp_all

/-- Writing the record disturbs only a caller that relies on its absence. -/
theorem Control.Relies.write (h : control.Relies env dir) (hsettling : control.settling = false)
    (hnone : dir.owner = none) (record : Record Content) (temps : List Str) :
    control.Relies env { dir with owner := some (.file record), temps := temps } := by
  unfold Relies LockDir.Observed LockDir.HasToken at *
  unfold settling at hsettling
  split <;> simp_all

/-- Removing the record disturbs only its owner and a caller that is about to remove it. -/
theorem Control.Relies.unlink (h : control.Relies env dir) (howned : control.owned = none)
    (hverified : ∀ observed, control ≠ .unlinkOwner observed) :
    control.Relies env { dir with owner := none } := by
  unfold Relies at *
  split <;> simp_all [owned, lock]

end Relies

/-! ## The invariant -/

/-- What holds of each caller: it may rely on what it relies on, a record it has condemned names a dead
process, and the record it writes has its token. -/
structure Sound (env : Env Content) (dir : Option (LockDir Content)) (issued : List (Str × Process))
    (alive : Process → Bool) (c : Caller) (control : Control Content) : Prop where
  relies : control.engaged (alive (env.processOf c)) = true → ∃ own, dir = some own ∧ control.Relies env own
  drawn_issued : ∀ token, control.drawn = some token → (token, env.processOf c) ∈ issued
  condemned_dead : ∀ content, control.condemned = some content →
    ∃ token p, (token, p) ∈ issued ∧ env.tokenOf content = some token ∧ alive p = false
  written : ∀ name record token, control = .renameTemp name record token →
    env.tokenOf record.content = some token

/-- What holds in every state of a run. At most one caller settles the directory and at most one has a
marker in it, and tokens are drawn once. -/
structure Inv (env : Env Content) (s : State Content) : Prop where
  callers : ∀ c, Sound env s.dir s.issued s.alive c (s.control c)
  settling_once : ∀ c d, (s.control c).settling = true → (s.control d).settling = true → c = d
  marking_once : ∀ c d, (s.control c).marking = true → (s.control d).marking = true → c = d
  drawn_once : ∀ c d token, (s.control c).drawn = some token → (s.control d).drawn = some token →
    c = d
  issued_once : ∀ token p q, (token, p) ∈ s.issued → (token, q) ∈ s.issued → p = q

/-- No caller has started. What stands at the lock path is left over, and every token was drawn by
one process. -/
structure Initial (s : State Content) : Prop where
  outside : ∀ c, s.control c = .outside none
  issued_once : ∀ token p q, (token, p) ∈ s.issued → (token, q) ∈ s.issued → p = q

variable {env : Env Content} {s next : State Content} {c d : Caller} {act : Act} {content : Content}

/-- Nobody relies on anything before the first call. -/
theorem inv_initial (h : Initial s) : Inv env s where
  callers c := by
    rw [h.outside c]
    refine ⟨fun hc => ?_, nofun, nofun, nofun⟩
    simp [engaged, settling, marking, removing, owned, lock] at hc
  settling_once c d hc := by simp [h.outside c, settling] at hc
  marking_once c d hc := by simp [h.outside c, marking] at hc
  drawn_once c d token hc := by
    simp [h.outside c, drawn, owned, lock] at hc
  issued_once := h.issued_once

/-- A dead owner was recorded with its token. -/
theorem ownerDead_iff : s.ownerDead env content = true ↔
    ∃ token p, (token, p) ∈ s.issued ∧ env.tokenOf content = some token ∧ s.alive p = false := by
  simp only [State.ownerDead, List.any_eq_true, Bool.and_eq_true, beq_iff_eq,
    Bool.not_eq_eq_eq_not, Bool.not_true, Prod.exists]

variable {token : Str} {record : Record Content} {observed : Observation Content}
  {state : LockState Content} {control : Control Content} {dir : LockDir Content}
  {failure : Option ExportError}

/-- A record with the token of a live caller is not that of a dead owner. -/
theorem Inv.not_ownerDead (hinv : Inv env s) (hdrawn : (s.control c).drawn = some token)
    (hlive : s.alive (env.processOf c) = true) (htoken : env.tokenOf content = some token) :
    s.ownerDead env content = false := by
  rw [Bool.eq_false_iff]
  intro hdead
  obtain ⟨other, p, hmem, hother, hp⟩ := ownerDead_iff.mp hdead
  obtain rfl : token = other := some.inj (htoken.symm.trans hother)
  have hsame : p = env.processOf c := hinv.issued_once _ _ _ hmem ((hinv.callers c).drawn_issued _ hdrawn)
  rw [hsame, hlive] at hp
  cases hp

/-- An owned token is the one drawn. -/
theorem Control.drawn_of_owned (h : control.owned = some token) :
    control.drawn = some token := by
  cases control with
  | renameTemp name record other => simp [owned, lock] at h
  | _ => exact h

/-- The directory of an owner has its record. -/
theorem Control.Relies.hasToken
    (h : control.Relies env dir) (howned : control.owned = some token) : dir.HasToken env token := by
  unfold owned lock at howned
  unfold Relies at h
  split at howned
  · cases howned
    exact h
  · split at howned <;> simp_all

/-- The directory of a settling caller has no record. -/
theorem Control.Relies.owner_none
    (h : control.Relies env dir) (hsettling : control.settling = true) : dir.owner = none := by
  unfold settling at hsettling
  split at hsettling <;> simp_all [Relies]

/-- The directory of a marking caller has the marker. -/
theorem Control.Relies.marker
    (h : control.Relies env dir) (hmarking : control.marking = true) : dir.marker = true := by
  unfold marking at hmarking
  split at hmarking <;> simp_all [Relies]

/-! ## What one step can do -/

/-- The effects of a completed call. `quiet` steps change only the control of a caller that
does not settle the directory; `stuck` steps end the settling without removing the directory; the
others change the lock path or cannot occur. -/
inductive Effect (env : Env Content) (s : State Content) (c : Caller) : State Content → Prop where
  | quiet (control : Control Content)
      (hsettling : control.settling = false ∧ (s.control c).settling = false)
      (hmarking : control.marking = true → (s.control c).marking = true)
      (hengaged : control.engaged true = true → (s.control c).engaged true = true)
      (hdrawn : ∀ token, control.drawn = some token → (s.control c).drawn = some token)
      (hcondemned : ∀ content, control.condemned = some content →
        (s.control c).condemned = some content ∨ s.ownerDead env content = true)
      (hrelies : ∀ dir, s.dir = some dir → (s.control c).Relies env dir → control.Relies env dir) :
      Effect env s c (s.goto c control)
  | retried (attempt : Nat) (hat : s.control c = .releaseRmdir attempt) :
      Effect env s c (s.goto c (.releaseRmdir (attempt + 1)))
  | stuck (control : Control Content)
      (hat : s.control c = .rmdirReclaimed ∨ ∃ attempt, s.control c = .releaseRmdir attempt ∧
        40 ≤ attempt)
      (hfull : ∀ dir, s.dir = some dir → dir.isEmpty = false)
      (hcontrol : ∃ failure, control = .outside failure) : Effect env s c (s.goto c control)
  | vanished (control : Control Content) (hsettling : (s.control c).settling = true)
      (hgone : ∀ dir, s.dir = some dir → ¬ (s.control c).Relies env dir) :
      Effect env s c (s.goto c control)
  | discarded (failure : ExportError) (hat : s.control c = .removeLock failure) :
      Effect env s c ((s.goto c (.outside (some failure))).put none)
  | made (id : FileId) (hat : s.control c = .mkdirLock) (hfree : s.lock = none) :
      Effect env s c ((s.goto c .openTemp).put (some (.directory ⟨id, none, false, []⟩)))
  | opened (details : OwnerDetails) (token name : Str) (id : FileId) (dir : LockDir Content)
      (hat : s.control c = .openTemp) (hdir : s.dir = some dir)
      (hfresh : token ∉ s.issued.map Prod.fst) :
      Effect env s c
        { (s.goto c (.renameTemp name ⟨id, env.render (ownerRecord details token)⟩ token)).put
            (some (.directory { dir with temps := name :: dir.temps })) with
          issued := (token, env.processOf c) :: s.issued }
  | wrote (name : Str) (record : Record Content) (token : Str) (dir : LockDir Content)
      (hat : s.control c = .renameTemp name record token) (hdir : s.dir = some dir) :
      Effect env s c ((s.goto c (.lstatAcquired token)).put (some (.directory
        { dir with owner := some (.file record), temps := dir.temps.erase name })))
  | marked (observed : Observation Content) (dir : LockDir Content)
      (hat : s.control c = .mkdirMarker observed) (hdir : s.dir = some dir)
      (hfree : dir.marker = false) :
      Effect env s c ((s.goto c (.lstatLock (.verify observed))).put
        (some (.directory { dir with marker := true })))
  | unmarked (control : Control Content) (dir : LockDir Content)
      (hat : s.control c = .rmdirMarker ∧ control = .rmdirReclaimed ∨
        ∃ failure, s.control c = .dropMarker failure ∧ control = afterReclaim failure)
      (hdir : s.dir = some dir) :
      Effect env s c ((s.goto c control).put (some (.directory { dir with marker := false })))
  | unlinked (control : Control Content) (dir : LockDir Content) (record : Record Content)
      (hat : (∃ observed, s.control c = .unlinkOwner observed) ∧ control = .rmdirMarker ∨
        (∃ lock, s.control c = .releaseUnlink lock) ∧ control = .releaseRmdir 0)
      (hdir : s.dir = some dir) (hrecord : dir.owner = some (.file record)) :
      Effect env s c ((s.goto c control).put (some (.directory { dir with owner := none })))
  | removed (control : Control Content) (dir : LockDir Content)
      (hat : s.control c = .rmdirReclaimed ∧ control = .mkdirLock ∨
        (∃ attempt, s.control c = .releaseRmdir attempt) ∧ control = .outside none)
      (hdir : s.dir = some dir) (hempty : dir.isEmpty = true) :
      Effect env s c ((s.goto c control).put none)

/-- A step to a control that relies on nothing. -/
theorem Effect.idle (hsettling : (s.control c).settling = false)
    (hengaged : control.engaged true = false) (hdrawn : control.drawn = none)
    (hcondemned : control.condemned = none) (hrelies : ∀ dir, control.Relies env dir) :
    Effect env s c (s.goto c control) := by
  have hnew : control.settling = false := by simp_all [engaged]
  refine .quiet control ⟨hnew, hsettling⟩ ?_ ?_ ?_ ?_ fun dir _ _ => hrelies dir
  · simp_all [engaged]
  · simp [hengaged]
  · simp [hdrawn]
  · simp [hcondemned]

/-- The directory of a state whose lock path has no directory. -/
theorem State.dir_eq_some : s.dir = some dir ↔ s.lock = some (.directory dir) := by
  unfold State.dir
  split <;> simp_all

/-- The record of a directory is its owner entry. -/
theorem LockDir.record_eq_some :
    dir.record = some record ↔ dir.owner = some (.file record) := by
  unfold LockDir.record
  split <;> simp_all

/-- The effect of a classification. -/
theorem effect_of_classifiedAs {state : Standing} (hat : s.control c = .classify observed)
    (h : classifiedAs env s c observed state = some next) : Effect env s c next := by
  have hsettling : (s.control c).settling = false := by rw [hat]; rfl
  cases state with
  | dead =>
    simp only [classifiedAs, ite_none_right_eq_some, some.injEq] at h
    obtain ⟨hdead, rfl⟩ := h
    refine .quiet _ ⟨rfl, hsettling⟩ (by simp [marking]) (by simp [engaged,
      settling, marking, removing, owned, lock])
      (by simp [drawn, owned, lock]) ?_ fun _ _ _ => trivial
    intro content hcontent
    cases hcontent
    exact .inr hdead
  | _ =>
    cases h
    exact .idle hsettling rfl rfl rfl fun _ => trivial

/-- A step that keeps the caller's record and its lock. -/
theorem Effect.keeps (howned : (s.control c).owned = some token)
    (hsettling : (s.control c).settling = false) (hnew : control.owned = some token)
    (hplain : control.settling = false ∧ control.marking = false ∧ control.condemned = none)
    (hrelies : ∀ dir, s.dir = some dir → (s.control c).Relies env dir → control.Relies env dir) :
    Effect env s c (s.goto c control) := by
  refine .quiet control ⟨hplain.1, hsettling⟩ (by simp [hplain.2.1]) ?_ ?_
    (by simp [hplain.2.2]) hrelies
  · simp [engaged, howned]
  · intro other hother
    rw [drawn_of_owned hnew] at hother
    rw [drawn_of_owned howned, hother]

/-- A step from one call of `readLockState` to its next one. -/
theorem Effect.reads {purpose : Purpose Content} {directory : FileId}
    (hat : (s.control c = .lstatLock purpose ∧ control = .lstatOwner purpose directory ∧
        ∀ dir, s.dir = some dir → dir.id = directory) ∨
      ∃ stat, s.control c = .lstatOwner purpose directory ∧ control = .readOwner purpose directory stat) :
    Effect env s c (s.goto c control) := by
  have hrelies : ∀ dir, s.dir = some dir → (s.control c).Relies env dir → control.Relies env dir := by
    intro dir hdir hrelies
    rcases hat with ⟨hat, rfl, hid⟩ | ⟨stat, hat, rfl⟩ <;> rw [hat] at hrelies
    · have hid := hid dir hdir
      cases purpose with
      | inspect => trivial
      | verify observed => exact ⟨hrelies, hid⟩
      | assertHeld lock releasing => exact ⟨hrelies.1, hrelies.2, hid ▸ hrelies.2⟩
    · cases purpose <;> exact hrelies
  rcases hat with ⟨hat, rfl, -⟩ | ⟨stat, hat, rfl⟩ <;> cases purpose with
  | inspect => exact .idle (by rw [hat]; rfl) rfl rfl rfl fun _ => trivial
  | verify observed =>
    exact .quiet _ ⟨rfl, by rw [hat]; rfl⟩ (fun _ => by rw [hat]; rfl) (fun _ => by rw [hat]; rfl) nofun
      (fun content h => .inl (by rw [hat]; exact h)) hrelies
  | assertHeld lock releasing =>
    exact .keeps (by rw [hat]; rfl) (by rw [hat]; rfl) rfl ⟨rfl, rfl, rfl⟩ hrelies

/-- A failed removal ends in the `finally` block of `reclaimDeadLock`. -/
theorem Effect.dropped (hat : s.control c = .unlinkOwner observed) :
    Effect env s c (s.goto c (.dropMarker failure)) := by
  refine .quiet _ ⟨rfl, by rw [hat]; rfl⟩ (fun _ => by rw [hat]; rfl) (fun _ => by rw [hat]; rfl)
    nofun nofun ?_
  intro dir _ hrelies
  rw [hat] at hrelies
  exact hrelies.1

/-- The `finally` block of `reclaimDeadLock` leaves the caller without any reliance. -/
theorem Effect.resumed {old : Control Content}
    (hat : s.control c = old) (hsettling : old.settling = false) :
    Effect env s c (s.goto c (afterReclaim failure)) := by
  cases failure <;> exact .idle (by rwa [hat]) rfl rfl rfl fun _ => trivial

/-- The temporary file of a record could not be renamed. -/
theorem Effect.unwritten {name : Str}
    (hat : s.control c = .renameTemp name record token) (hdir : s.dir = some dir)
    (hfails : ¬ (name ∈ dir.temps ∧ dir.owner ≠ some .other)) : Effect env s c (s.goto c control) := by
  refine .vanished control (by rw [hat]; rfl) ?_
  intro same hsame hrelies
  obtain rfl : dir = same := some.inj (hdir.symm.trans hsame)
  rw [hat] at hrelies
  exact hfails ⟨hrelies.2, by simp [hrelies.1]⟩

/-- A record that was read belongs to the directory. -/
theorem State.record_eq_some (h : s.dir.bind LockDir.record = some record) :
    ∃ dir, s.dir = some dir ∧ dir.owner = some (.file record) := by
  obtain ⟨dir, hdir, hrecord⟩ := bind_eq_some_iff.mp h
  exact ⟨dir, hdir, LockDir.record_eq_some.mp hrecord⟩

/-- What a call of `readLockState` is for. -/
def Control.purpose : Control Content → Option (Purpose Content)
  | .lstatLock purpose | .lstatOwner purpose _ | .readOwner purpose _ _ => some purpose
  | _ => none

/-- The standing of a caller in `readLockState`. -/
theorem Control.of_purpose {purpose : Purpose Content}
    (h : control.purpose = some purpose) : control.settling = false ∧
      match purpose with
      | .inspect => control.engaged true = false
      | .verify observed => control.marking = true ∧ control.condemned = some observed.record.content
      | .assertHeld lock _ => control.lock = some lock := by
  unfold Control.purpose at h
  split at h <;> cases h <;> cases purpose <;> simp [settling, engaged, marking, removing, owned, lock, condemned]

section Advance

variable [DecidableEq Content] {purpose : Purpose Content}

/-- The end of `readLockState` when the lock path was inspected. -/
theorem Effect.inspected (state : LockState Content) (hat : (s.control c).engaged true = false) :
    Effect env s c (s.goto c (Purpose.conclude env state .inspect)) := by
  have hsettling : (s.control c).settling = false := by simp_all [engaged]
  simp only [Purpose.conclude]
  split
  all_goals exact .idle hsettling rfl rfl rfl fun _ => trivial

/-- The end of `readLockState` when a reclaimer read the record again: a record that matches is
there and has the content that was observed. -/
theorem Effect.verified (hmarking : (s.control c).marking = true) (hsettling : (s.control c).settling = false)
    (hcondemned : (s.control c).condemned = some observed.record.content)
    (hmatches : ∀ dir, s.dir = some dir → (s.control c).Relies env dir → state.matches observed = true →
      dir.Observed observed) :
    Effect env s c (s.goto c (Purpose.conclude env state (.verify observed))) := by
  have hengaged : (s.control c).engaged true = true := by simp [engaged, hmarking]
  simp only [Purpose.conclude]
  split
  · next hstate =>
      refine .quiet _ ⟨rfl, hsettling⟩ (fun _ => hmarking) (fun _ => hengaged)
        (by simp [drawn, owned, lock]) ?_ ?_
      · intro content hcontent
        exact .inl (hcondemned.trans hcontent)
      · intro dir hdir hrelies
        exact ⟨hrelies.marker hmarking, hmatches dir hdir hrelies hstate⟩
  · refine .quiet _ ⟨rfl, hsettling⟩ (fun _ => hmarking) (fun _ => hengaged)
      (by simp [drawn, owned, lock]) (by simp [condemned]) ?_
    intro dir _ hrelies
    exact hrelies.marker hmarking

/-- The end of `readLockState` in `assertHeld`. -/
theorem Effect.asserted {lock : Lock} {releasing : Bool} (hlock : (s.control c).lock = some lock)
    (hsettling : (s.control c).settling = false) :
    Effect env s c (s.goto c (Purpose.conclude env state (.assertHeld lock releasing))) := by
  have howned : (s.control c).owned = some lock.token := by
    generalize s.control c = control at hlock
    cases control <;> simp_all [Control.lock, Control.owned]
  have hengaged : (s.control c).engaged true = true := by simp [engaged, howned]
  have hdrawn : (s.control c).drawn = some lock.token := drawn_of_owned howned
  have hrelies : ∀ dir, (s.control c).Relies env dir →
      dir.HasToken env lock.token ∧ dir.id = lock.lockId := by
    intro dir h
    unfold Control.lock at hlock
    split at hlock <;> simp_all [Control.Relies]
  simp only [Purpose.conclude]
  split
  · split
    all_goals
      exact .quiet _ ⟨rfl, hsettling⟩ (by simp [marking]) (fun _ => hengaged)
        (fun token h => hdrawn.trans h) (by simp [condemned]) fun dir _ h => hrelies dir h
  · exact .idle hsettling rfl rfl rfl fun _ => trivial

/-- A finished call of `readLockState` has one of the listed effects. -/
theorem Effect.concluded (hpurpose : (s.control c).purpose = some purpose)
    (hmatches : ∀ observed dir, s.dir = some dir → (s.control c).Relies env dir →
      purpose = .verify observed → state.matches observed = true → dir.Observed observed) :
    Effect env s c (s.goto c (purpose.conclude env state)) := by
  obtain ⟨hsettling, hstanding⟩ := of_purpose hpurpose
  cases purpose with
  | inspect => exact .inspected state hstanding
  | verify observed =>
    exact .verified hstanding.1 hsettling hstanding.2 fun dir hdir hrelies =>
      hmatches observed dir hdir hrelies rfl
  | assertHeld lock releasing => exact .asserted hstanding hsettling

/-- The last read of a reclaimer sees the record that is there now. -/
theorem Effect.compared {directory stat : FileId}
    (hat : s.control c = .readOwner purpose directory stat) (hread : s.dir.bind LockDir.record = some record) :
    Effect env s c (s.goto c (purpose.conclude env (.directory directory (some ⟨stat, record.content⟩)))) := by
  refine .concluded (by rw [hat]; rfl) ?_
  rintro observed dir hdir hrelies rfl hmatches
  obtain ⟨same, hsame, hrecord⟩ := State.record_eq_some hread
  obtain rfl : dir = same := some.inj (hdir.symm.trans hsame)
  simp only [LockState.matches, Bool.and_eq_true, beq_iff_eq] at hmatches
  rw [hat] at hrelies
  refine ⟨hrelies.2.trans hmatches.1, record, hrecord, ?_⟩
  rw [← hmatches.2]

/-- Every completed call has one of the listed effects. -/
theorem effect_of_advance (h : advance env s c (s.control c) act = some next) :
    Effect env s c next := by
  generalize hcontrol : s.control c = control at h
  have hidle {after : Control Content} (hat : control.settling = false)
      (hafter : after.engaged true = false ∧ after.drawn = none ∧ after.condemned = none)
      (hrelies : ∀ dir, after.Relies env dir) : Effect env s c (s.goto c after) :=
    .idle (hcontrol ▸ hat) hafter.1 hafter.2.1 hafter.2.2 hrelies
  -- the ends of calls that the control point does not wait for are no steps
  cases control <;> cases act <;> try cases h
  all_goals try simp only [advance] at h
  case outside.call | wait.waited | wait.expired =>
    exact hidle rfl ⟨rfl, rfl, rfl⟩ fun _ => trivial
  case mkdirLock.makes =>
    split at h <;> cases h
    · exact .made _ hcontrol ‹_›
    · exact hidle rfl ⟨rfl, rfl, rfl⟩ fun _ => trivial
  case lstatLock.proceed =>
    split at h <;> cases h
    · exact .concluded (by rw [hcontrol]; rfl) (by simp [State.dir, *])
    · exact .concluded (by rw [hcontrol]; rfl) (by simp [State.dir, *])
    · exact .reads (.inl ⟨hcontrol, rfl, by simp [State.dir, *]⟩)
  case lstatOwner.proceed =>
    split at h <;> cases h
    · exact .reads (.inr ⟨_, hcontrol, rfl⟩)
    · exact .concluded (by rw [hcontrol]; rfl) fun _ _ _ _ _ h => absurd h Bool.false_ne_true
  case readOwner.proceed =>
    split at h <;> cases h
    · exact .compared hcontrol ‹_›
    · exact .concluded (by rw [hcontrol]; rfl) fun _ _ _ _ _ h => absurd h Bool.false_ne_true
  case classify.classified => exact effect_of_classifiedAs hcontrol h
  case mkdirMarker.proceed =>
    split at h
    · cases h
      exact hidle rfl ⟨rfl, rfl, rfl⟩ fun _ => trivial
    · cases h
      exact hidle rfl ⟨rfl, rfl, rfl⟩ fun _ => trivial
    · split at h <;> cases h
      · exact hidle rfl ⟨rfl, rfl, rfl⟩ fun _ => trivial
      · exact .marked _ _ hcontrol (State.dir_eq_some.mpr ‹_›) (Bool.eq_false_iff.mpr ‹_›)
  case unlinkOwner.proceed =>
    split at h
    · split at h <;> cases h
      · exact .unlinked _ _ _ (.inl ⟨⟨_, hcontrol⟩, rfl⟩) ‹_› (LockDir.record_eq_some.mp ‹_›)
      · exact .dropped hcontrol
    · cases h
      exact .dropped hcontrol
  case rmdirMarker.proceed =>
    split at h
    · split at h <;> cases h
      · exact .unmarked _ _ (.inl ⟨hcontrol, rfl⟩) ‹_›
      · exact .vanished _ (by rw [hcontrol]; rfl) (by simp_all [Control.Relies])
    · cases h
      exact .vanished _ (by rw [hcontrol]; rfl) (by simp_all)
  case dropMarker.proceed =>
    split at h <;> cases h
    · exact .unmarked _ _ (.inr ⟨_, hcontrol, rfl⟩) ‹_›
    · exact .resumed hcontrol rfl
  case rmdirReclaimed.proceed =>
    split at h
    · cases h
      exact .vanished _ (by rw [hcontrol]; rfl) (by simp_all [State.dir])
    · cases h
      exact .stuck _ (.inl hcontrol) (by simp_all [State.dir]) ⟨_, rfl⟩
    · split at h <;> cases h
      · exact .removed _ _ (.inl ⟨hcontrol, rfl⟩) (State.dir_eq_some.mpr ‹_›) ‹_›
      · exact .stuck _ (.inl hcontrol) (by simp_all [State.dir]) ⟨_, rfl⟩
  case openTemp.opened =>
    split at h
    · cases h
    split at h
    · cases h
      exact .vanished _ (by rw [hcontrol]; rfl) (by simp_all)
    · split at h <;> cases h
      exact .opened _ _ _ _ _ hcontrol ‹_› ‹_›
  case renameTemp.proceed =>
    split at h
    · cases h
      exact .vanished _ (by rw [hcontrol]; rfl) (by simp_all)
    · split at h <;> cases h
      · exact .wrote _ _ _ _ hcontrol ‹_›
      · exact .unwritten hcontrol ‹_› ‹_›
  case removeLock.proceed => exact .discarded _ hcontrol
  case lstatAcquired.proceed =>
    split at h <;> cases h
    · exact hidle rfl ⟨rfl, rfl, rfl⟩ fun _ => trivial
    · exact .keeps (by rw [hcontrol]; rfl) (by rw [hcontrol]; rfl) rfl ⟨rfl, rfl, rfl⟩
        (by simp_all [State.dir, Control.Relies])
    · exact .keeps (by rw [hcontrol]; rfl) (by rw [hcontrol]; rfl) rfl ⟨rfl, rfl, rfl⟩
        (by simp_all [State.dir, Control.Relies])
  case holding.asserts | holding.release =>
    exact .keeps (by rw [hcontrol]; rfl) (by rw [hcontrol]; rfl) rfl ⟨rfl, rfl, rfl⟩
      (by simp_all [Control.Relies])
  case releaseUnlink.proceed =>
    split at h
    · split at h <;> cases h
      · exact .unlinked _ _ _ (.inr ⟨⟨_, hcontrol⟩, rfl⟩) ‹_› (LockDir.record_eq_some.mp ‹_›)
      · exact hidle rfl ⟨rfl, rfl, rfl⟩ fun _ => trivial
    · cases h
      exact hidle rfl ⟨rfl, rfl, rfl⟩ fun _ => trivial
  case releaseRmdir.proceed =>
    split at h
    · cases h
      exact .vanished _ (by rw [hcontrol]; rfl) (by simp_all [State.dir])
    · cases h
      exact .vanished _ (by rw [hcontrol]; rfl) (by simp_all [State.dir])
    split at h
    · cases h
      exact .removed _ _ (.inr ⟨⟨_, hcontrol⟩, rfl⟩) (State.dir_eq_some.mpr ‹_›) ‹_›
    split at h <;> cases h
    · exact .stuck _ (.inr ⟨_, hcontrol, ‹_›⟩) (by simp_all [State.dir]) ⟨_, rfl⟩
    · exact .retried _ hcontrol

end Advance

end Ploinky.Skills.ExportLock
