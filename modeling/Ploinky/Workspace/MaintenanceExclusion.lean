import Ploinky.Workspace.MaintenanceLock

/-!
# Mutual exclusion of the workspace mutation lease and the maintenance locks

The unlink of a stale file is the only step that can take a live owner's lock away.
`at_most_one_lock_holder` shows mutual exclusion for every run in which that unlink removes the file
its caller inspected, and no file that a live creator is about to write; `lock_held_twice` has a run
for each of the two ways to violate it.
-/

namespace Ploinky.Workspace.MaintenanceLock

open Transition Control Option

/-! ## What one step can do -/

section Effect

variable {Content : Type} {env : Env Content} {s next : State Content} {c d : Caller} {act : Act}
  {control : Control Content} {held : Held} {snapshot : Snapshot Content} {creating : Bool}

/-- The document a control carries names the caller's process. -/
def Control.Named (env : Env Content) (c : Caller) (control : Control Content) : Prop :=
  ∀ document, control.document = some document → document.ownerPid = some (env.pidOf c : Int)

/-- The snapshot does not name a live process. -/
def State.Condemns (env : Env Content) (s : State Content) (snapshot : Snapshot Content) : Prop :=
  (ownerPid (env.parse snapshot.raw)).any s.alive = false

/-- The effects of a completed call. `quiet` steps change only the control of a caller that is not
writing; the others change the lock file. -/
inductive Effect (env : Env Content) (s : State Content) (c : Caller) : State Content → Prop where
  | quiet (control : Control Content)
      (hwriting : control.writing = none ∧ (s.control c).writing = none)
      (howned : ∀ serial, control.owned = some serial → (s.control c).owned = some serial)
      (hdescriptor : ∀ serial, control.descriptor = some serial →
        (∃ held, control.held = some held) ∧ ∃ file, s.file = some file ∧ file.serial = serial)
      (hnamed : (s.control c).Named env c → control.Named env c)
      (hcondemned : ∀ snapshot, control.condemned = some snapshot →
        (s.control c).condemned = some snapshot ∨ s.Condemns env snapshot) :
      Effect env s c (s.goto c control)
  | made (stat : Stat) (details : Details) (hfree : s.file = none) :
      Effect env s c
        { s.goto c (.writeNew s.made (env.kind.newDocument (env.pidOf c) details)) with
          file := some ⟨s.made, stat, env.empty⟩, made := s.made + 1 }
  | emptied (held : Held) (document : LockDocument) (descriptor size : Nat) (mtimeMs : Int)
      (hat : s.control c = .truncate held document descriptor) :
      Effect env s c
        ((s.goto c (.rewrite held document descriptor)).write descriptor env.empty size mtimeMs)
  | wrote (control : Control Content) (document : LockDocument) (descriptor size : Nat)
      (mtimeMs : Int) (hdocument : (s.control c).document = some document)
      (hwriting : (s.control c).writing = some descriptor)
      (hnew : control.writing = none ∧ control.descriptor = none ∧ control.document = none ∧
        control.condemned = none)
      (howned : control.owned = (s.control c).owned) :
      Effect env s c
        ((s.goto c control).write descriptor (env.render document) size mtimeMs)
  | staleRemoved (creating : Bool) (attempt : Nat) (snapshot : Snapshot Content)
      (file : LockFile Content) (hat : s.control c = .unlinkStale creating attempt snapshot)
      (hfile : s.file = some file) :
      Effect env s c { s.goto c (afterInspection creating) with file := none }
  | released (held : Held) (hat : s.control c = .unlinkOwn held) :
      Effect env s c { s.goto c .outside with file := none }

/-- Holding the lock means owning a lock file. -/
theorem Control.owned_of_held (h : control.held = some held) : control.owned = some held.serial := by
  cases control with
  | writeNew serial document => cases h
  | _ => exact congrArg (Option.map Held.serial) h

/-- A step to a control that relies on nothing and condemns nothing. -/
theorem Effect.idle (hold : (s.control c).writing = none) (howned : control.owned = none)
    (hnew : control.writing = none ∧ control.descriptor = none ∧ control.document = none ∧ control.condemned = none) :
    Effect env s c (s.goto c control) :=
  .quiet control ⟨hnew.1, hold⟩ (by simp [howned]) (by simp [hnew.2.1])
    (fun _ => by simp [Control.Named, hnew.2.2.1]) (by simp [hnew.2.2.2])

/-- A step of a caller that keeps its lock. -/
theorem Effect.keeps (hold : (s.control c).writing = none ∧ (s.control c).held = some held)
    (hheld : control.held = some held)
    (hnew : control.writing = none ∧ control.descriptor = none ∧ control.document = none ∧ control.condemned = none) :
    Effect env s c (s.goto c control) := by
  refine .quiet control ⟨hnew.1, hold.1⟩ ?_ (by simp [hnew.2.1])
    (fun _ => by simp [Control.Named, hnew.2.2.1]) (by simp [hnew.2.2.2])
  intro serial h
  rw [owned_of_held hheld] at h
  rw [owned_of_held hold.2, h]

/-- A step of a caller that goes on with the snapshot it has found stale. -/
theorem Effect.condemns (hold : (s.control c).writing = none)
    (hnew : control.owned = none ∧ control.writing = none ∧ control.descriptor = none ∧ control.document = none ∧ control.condemned = some snapshot)
    (hcondemned : (s.control c).condemned = some snapshot ∨ s.Condemns env snapshot) :
    Effect env s c (s.goto c control) := by
  refine .quiet control ⟨hnew.2.1, hold⟩ (by simp [hnew.1]) (by simp [hnew.2.2.1])
    (fun _ => by simp [Control.Named, hnew.2.2.2.1]) ?_
  intro other h
  rw [hnew.2.2.2.2] at h
  cases h
  exact hcondemned

/-- The next inspection, or its end. -/
theorem Effect.retried {attempt : Nat} (hold : (s.control c).writing = none) :
    Effect env s c (s.goto c (retry creating attempt)) := by
  unfold retry
  split
  · exact .idle hold rfl ⟨rfl, rfl, rfl, rfl⟩
  · exact .idle hold rfl ⟨rfl, rfl, rfl, rfl⟩

/-- The first call of `lockSnapshot` is followed by its second. -/
theorem Effect.reads {goal : Goal Content} {stat : Stat} (hat : s.control c = .lstat goal) :
    Effect env s c (s.goto c (.read goal stat)) := by
  have hold : (s.control c).writing = none := by rw [hat]; rfl
  cases goal with
  | inspect creating attempt => exact .idle hold rfl ⟨rfl, rfl, rfl, rfl⟩
  | recheck creating attempt snapshot =>
    exact .condemns hold ⟨rfl, rfl, rfl, rfl, rfl⟩ (.inl (by rw [hat]; rfl))
  | _ => exact .keeps ⟨hold, by rw [hat]; rfl⟩ rfl ⟨rfl, rfl, rfl, rfl⟩

/-- The end of an inspection. -/
theorem effect_of_inspected {attempt : Nat} {verdict : Verdict}
    (hat : s.control c = .judge creating attempt snapshot)
    (h : inspected env s c creating attempt snapshot verdict = some next) : Effect env s c next := by
  have hold : (s.control c).writing = none := by rw [hat]; rfl
  cases verdict with
  | stale =>
    simp only [inspected, ite_none_left_eq_some, some.injEq] at h
    obtain ⟨hdead, rfl⟩ := h
    exact .condemns hold ⟨rfl, rfl, rfl, rfl, rfl⟩ (.inr (Bool.eq_false_iff.mpr hdead))
  | _ =>
    cases h
    exact .idle hold rfl ⟨rfl, rfl, rfl, rfl⟩

/-- The lease file is opened for its renewal. -/
theorem Effect.opensRenewal {document : LockDocument} {expiresAt : Str} {file : LockFile Content}
    (hat : s.control c = .openRenew held snapshot document) (hfile : s.file = some file) : Effect env s c
      (s.goto c (.truncate held { document with expiresAt := expiresAt } file.serial)) := by
  refine .quiet _ ⟨rfl, by rw [hat]; rfl⟩ ?_ ?_ ?_ nofun
  · rw [hat]
    exact fun serial h => h
  · intro serial h
    cases h
    exact ⟨⟨held, rfl⟩, file, hfile, rfl⟩
  · intro hnamed other h
    cases h
    exact hnamed document (by rw [hat]; rfl)

variable [DecidableEq Content]

/-- The end of a call of `lockSnapshot`. -/
theorem Effect.concluded {goal : Goal Content} {snapshot : Option (Snapshot Content)}
    (hat : s.control c = .lstat goal ∨ ∃ stat, s.control c = .read goal stat) :
    Effect env s c (s.goto c (goal.conclude env c snapshot)) := by
  have hold : (s.control c).writing = none := by
    rcases hat with hat | ⟨stat, hat⟩ <;> rw [hat] <;> rfl
  -- both calls are seen alike
  have hseen : (s.control c).held = (lstat goal).held ∧
      (s.control c).owned = (lstat goal).owned ∧
      (s.control c).condemned = (lstat goal).condemned := by
    rcases hat with hat | ⟨stat, hat⟩ <;> rw [hat] <;> cases goal <;> exact ⟨rfl, rfl, rfl⟩
  cases goal with
  | inspect creating attempt =>
    cases snapshot with
    | none => cases creating <;> exact .idle hold rfl ⟨rfl, rfl, rfl, rfl⟩
    | some snapshot => exact .idle hold rfl ⟨rfl, rfl, rfl, rfl⟩
  | recheck creating attempt inspected =>
    simp only [Goal.conclude]
    split
    · exact .condemns hold ⟨rfl, rfl, rfl, rfl, rfl⟩ (.inl hseen.2.2)
    · exact .retried hold
  | release held =>
    simp only [Goal.conclude]
    split <;> exact .keeps ⟨hold, hseen.1⟩ rfl ⟨rfl, rfl, rfl, rfl⟩
  | releaseRecheck held inspected =>
    simp only [Goal.conclude]
    split <;> exact .keeps ⟨hold, hseen.1⟩ rfl ⟨rfl, rfl, rfl, rfl⟩
  | renew held =>
    simp only [Goal.conclude]
    split
    · exact .keeps ⟨hold, hseen.1⟩ rfl ⟨rfl, rfl, rfl, rfl⟩
    · split
      · exact .keeps ⟨hold, hseen.1⟩ rfl ⟨rfl, rfl, rfl, rfl⟩
      · split
        · next document _ hsame =>
            refine .quiet _ ⟨rfl, hold⟩ (fun serial h => hseen.2.1.trans h) nofun (fun _ => ?_)
              nofun
            intro other h
            cases h
            exact hsame.2
        · exact .keeps ⟨hold, hseen.1⟩ rfl ⟨rfl, rfl, rfl, rfl⟩
  | renewed held => exact .keeps ⟨hold, hseen.1⟩ rfl ⟨rfl, rfl, rfl, rfl⟩

/-- Every completed call has one of the listed effects. -/
theorem effect_of_advance (h : advance env s c (s.control c) act = some next) : Effect env s c next := by
  generalize hcontrol : s.control c = control at h
  unfold advance at h
  split at h
  all_goals try split at h
  all_goals try split at h
  all_goals try cases h
  all_goals first
    | exact .concluded (.inl hcontrol)
    | exact .concluded (.inr ⟨_, hcontrol⟩)
    | exact .reads hcontrol
    | exact effect_of_inspected hcontrol h
    | exact .retried (by rw [hcontrol]; rfl)
    | exact .staleRemoved _ _ _ _ hcontrol ‹_›
    | exact .made _ _ ‹_›
    | exact .emptied _ _ _ _ _ hcontrol
    | exact .wrote _ _ _ _ _ (by rw [hcontrol]; rfl) (by rw [hcontrol]; rfl)
        ⟨rfl, rfl, rfl, rfl⟩ (by rw [hcontrol]; rfl)
    | exact .released _ hcontrol
    | exact .opensRenewal hcontrol ‹_›
    | exact .idle (by rw [hcontrol]; rfl) rfl ⟨rfl, rfl, rfl, rfl⟩
    | exact .keeps ⟨by rw [hcontrol]; rfl, by rw [hcontrol]; rfl⟩ rfl ⟨rfl, rfl, rfl, rfl⟩

end Effect

/-! ## Mutual exclusion -/

section Exclusion

variable {Content : Type} {env : Env Content} {s next : State Content} {c d : Caller}
  {control : Control Content} {held : Held} {snapshot : Snapshot Content} {creating : Bool}

/-- The file of an owner: it is empty while the owner is writing it, and names the owner's process
otherwise. -/
def LockFile.Belongs (env : Env Content) (c : Caller) (file : LockFile Content)
    (control : Control Content) : Prop :=
  control.writing = some file.serial ∧ file.content = env.empty ∨
    ∃ document, env.parse file.content = some document ∧
      document.ownerPid = some (env.pidOf c : Int)

/-- What holds of each caller: when it is alive, its file has the lock name and its descriptor is that
of its file; its document is its own, and a snapshot it has condemned does not name a live process. -/
structure Sound (env : Env Content) (file : Option (LockFile Content)) (made : Nat) (alive : Pid → Bool)
    (c : Caller) (control : Control Content) : Prop where
  owner_file : alive (env.pidOf c) = true → ∀ serial, control.owned = some serial →
    ∃ own, file = some own ∧ own.serial = serial ∧ own.Belongs env c control
  owned_made : ∀ serial, control.owned = some serial → serial < made
  descriptor_owned : alive (env.pidOf c) = true → ∀ serial, control.descriptor = some serial →
    control.owned = some serial
  named : control.Named env c
  condemned : ∀ snapshot, control.condemned = some snapshot →
    (ownerPid (env.parse snapshot.raw)).any alive = false

/-- What holds in every state of an admitted run. Every file was created by one caller. -/
structure Inv (env : Env Content) (s : State Content) : Prop where
  callers : ∀ c, Sound env s.file s.made s.alive c (s.control c)
  owned_once : ∀ c d serial, (s.control c).owned = some serial → (s.control d).owned = some serial →
    c = d
  file_made : ∀ file, s.file = some file → file.serial < s.made

/-- Nothing is owned or condemned before the first call. -/
theorem inv_initial (h : Initial s) : Inv env s where
  callers c := by
    rw [h.outside c]
    constructor <;> nofun
  owned_once c d serial howned := by simp [h.outside c, owned, held] at howned
  file_made := h.made

@[simp] theorem State.goto_control_self (control : Control Content) :
    (s.goto c control).control c = control := by
  simp [State.goto]

theorem State.goto_control_other (control : Control Content) (hne : d ≠ c) :
    (s.goto c control).control d = s.control d := by
  simp [State.goto, hne]

variable (hinv : Inv env s)

include hinv

/-- Two live owners are one caller. -/
theorem Inv.owner_unique {m n : Nat} (hc : s.alive (env.pidOf c) = true)
    (hd : s.alive (env.pidOf d) = true) (hownc : (s.control c).owned = some m)
    (hownd : (s.control d).owned = some n) : c = d := by
  obtain ⟨file, hfile, hm, _⟩ := (hinv.callers c).owner_file hc m hownc
  obtain ⟨same, hsame, hn, _⟩ := (hinv.callers d).owner_file hd n hownd
  rw [hfile] at hsame
  cases hsame
  exact hinv.owned_once c d m hownc (by rw [hownd, ← hn, hm])

/-- A file in use is written with the descriptor its owner has. -/
theorem Inv.writing_owned (hlive : s.alive (env.pidOf c) = true) {serial : Nat}
    (h : (s.control c).writing = some serial) : (s.control c).owned = some serial := by
  have hdescriptor := (hinv.callers c).descriptor_owned hlive serial
  generalize s.control c = control at h hdescriptor
  cases control with
  | writeNew own document => exact h
  | rewrite held document descriptor => exact hdescriptor h
  | _ => cases h

/-- The invariant survives a move of one caller, provided it takes over only a file that is its own or
new. -/
theorem Inv.of_move (hcontrol : next.control = (s.goto c control).control)
    (hsound : Sound env next.file next.made next.alive c control)
    (hothers : ∀ d, d ≠ c → Sound env next.file next.made next.alive d (s.control d))
    (howned : ∀ serial, control.owned = some serial → (s.control c).owned = some serial ∨ s.made ≤ serial)
    (hserial : ∀ file, next.file = some file → file.serial < next.made) : Inv env next := by
  have hself : next.control c = control := by simp [hcontrol]
  have hother : ∀ d, d ≠ c → next.control d = s.control d := by
    intro d hne
    rw [hcontrol, State.goto_control_other control hne]
  refine ⟨forall_of_move hother (hself ▸ hsound) hothers, fun d e serial => once_of_move (·.owned = some serial) hother
    (fun h => ?_) (fun d e => hinv.owned_once d e serial) d e, hserial⟩
  rw [hself] at h
  -- A file of another caller was created before, so it is not the new one.
  exact (howned serial h).imp_right fun hnew d hd => absurd ((hinv.callers d).owned_made serial hd) (not_lt.mpr hnew)

/-- Writing the owner's file keeps the invariant: no other live caller owns a file. -/
theorem Inv.write (hlive : s.alive (env.pidOf c) = true) {serial size : Nat}
    {mtimeMs : Int} {content : Content} (howner : (s.control c).owned = some serial)
    (howned : control.owned = some serial)
    (hbelongs : control.writing = some serial ∧ content = env.empty ∨ ∃ document, env.parse content = some document ∧ document.ownerPid = some (env.pidOf c : Int))
    (hdescriptor : ∀ other, control.descriptor = some other → other = serial) (hnamed : control.Named env c)
    (hcondemned : control.condemned = none) :
    Inv env ((s.goto c control).write serial content size mtimeMs) := by
  obtain ⟨file, hfile, hserial, _⟩ := (hinv.callers c).owner_file hlive serial howner
  have hnext : ((s.goto c control).write serial content size mtimeMs).file =
      some { file with
        stat := { file.stat with size := size, mtimeMs := mtimeMs }, content := content } := by
    simp [State.write, State.goto, hfile, hserial]
  refine hinv.of_move rfl ⟨fun _ other hown => ?_, fun other h => ?_, fun _ other h => ?_, hnamed,
    by simp [hcondemned]⟩ (fun d hdc => { hinv.callers d with owner_file := fun hd other hown => ?_ })
    (fun other h => .inl (howner.trans (howned.symm.trans h))) fun same h => ?_
  · cases howned.symm.trans hown
    refine ⟨_, hnext, hserial, hbelongs.imp_left fun h => ⟨?_, h.2⟩⟩
    rw [hserial]
    exact h.1
  · exact (hinv.callers c).owned_made other (howner.trans (howned.symm.trans h))
  · rw [howned, hdescriptor other h]
  · exact absurd (hinv.owner_unique hd hlive hown howner) hdc
  · rw [hnext] at h
    cases h
    exact hinv.file_made file hfile

/-- The removal of the lock file keeps the invariant when no live caller owns it afterwards. -/
theorem Inv.removed (hnew : control.owned = none ∧ control.descriptor = none ∧ control.document = none ∧ control.condemned = none)
    (hothers : ∀ d serial, d ≠ c → s.alive (env.pidOf d) = true → (s.control d).owned ≠ some serial) :
    Inv env { s.goto c control with file := none } := by
  exact hinv.of_move rfl ⟨by simp [hnew.1], by simp [hnew.1], by simp [hnew.2.1], by simp [Control.Named, hnew.2.2.1],
    by simp [hnew.2.2.2]⟩ (fun d hdc => { hinv.callers d with
      owner_file := fun hd serial hown => absurd hown (hothers d serial hdc hd) })
    (by simp [hnew.1]) nofun

/-- A file with the content of a condemned snapshot belongs to no live caller, unless it has no
document and the caller is writing it. -/
theorem Inv.condemned_unowned {file : LockFile Content}
    (hcondemned : (s.control c).condemned = some snapshot) (hcontent : file.content = snapshot.raw)
    (hd : s.alive (env.pidOf d) = true) (hbelongs : file.Belongs env d (s.control d)) :
    env.parse file.content = none ∧ (s.control d).writing = some file.serial := by
  rcases hbelongs with ⟨hwriting, hempty⟩ | ⟨document, hparse, howner⟩
  · exact ⟨by rw [hempty, env.parse_empty], hwriting⟩
  · have hdead := (hinv.callers c).condemned snapshot hcondemned
    rw [hcontent] at hparse
    simp [ownerPid, hparse, howner, env.pid_pos d, hd] at hdead

/-- A live caller's call keeps the invariant, provided a stale file that is unlinked is the one that
was inspected. -/
theorem Inv.effect {act : Act} (hlive : s.alive (env.pidOf c) = true)
    (heffect : Effect env s c next) (hgood : UnlinksInspected env s (.at c act)) : Inv env next := by
  cases heffect with
  | quiet control hwriting howned hdescriptor hnamed hcondemned =>
    have hsound := hinv.callers c
    refine hinv.of_move rfl ⟨fun hlive serial hd => ?_, fun serial h => hsound.owned_made serial (howned serial h),
      fun hlive serial h => ?_, hnamed hsound.named, fun snapshot h =>
      (hcondemned snapshot h).elim (hsound.condemned snapshot) id⟩ (fun d _ => hinv.callers d)
      (fun serial h => .inl (howned serial h)) hinv.file_made
    · obtain ⟨file, hfile, hserial, hbelongs⟩ := hsound.owner_file hlive serial (howned serial hd)
      refine ⟨file, hfile, hserial, hbelongs.elim (fun h => ?_) .inr⟩
      rw [hwriting.2] at h
      cases h.1
    · -- the descriptor was opened by name, and the name is that of the caller's own file
      obtain ⟨⟨held, hheld⟩, file, hfile, hserial⟩ := hdescriptor serial h
      have hown := owned_of_held hheld
      obtain ⟨same, hsame, hsserial, _⟩ := hsound.owner_file hlive held.serial (howned _ hown)
      rw [hfile] at hsame
      cases hsame
      rw [hown, ← hsserial, hserial]
  | made stat details hfree =>
    refine hinv.of_move rfl ⟨fun _ serial h => ?_, fun serial h => ?_, nofun, fun document h => ?_,
      nofun⟩ (fun d _ => { hinv.callers d with owner_file := ?_, owned_made := ?_ }) (fun serial h => ?_)
      fun file h => ?_
    · cases h
      exact ⟨_, rfl, rfl, .inl ⟨rfl, rfl⟩⟩
    · cases h
      exact Nat.lt_succ_self _
    · cases h
      rfl
    · -- nobody owned another file
      intro hlive serial hd
      obtain ⟨file, hfile, _⟩ := (hinv.callers d).owner_file hlive serial hd
      rw [hfree] at hfile
      cases hfile
    · exact fun serial hd => Nat.lt_succ_of_lt ((hinv.callers d).owned_made serial hd)
    · cases h
      exact .inr (Nat.le_refl _)
    · cases h
      exact Nat.lt_succ_self _
  | emptied held document descriptor size mtimeMs hat =>
    have howner : (s.control c).owned = some descriptor :=
      (hinv.callers c).descriptor_owned hlive descriptor (by rw [hat]; rfl)
    have hserial : held.serial = descriptor := by
      rw [hat] at howner
      exact some.inj howner
    refine hinv.write hlive howner (congrArg some hserial) (.inl ⟨rfl, rfl⟩) ?_ ?_ rfl
    · intro other h
      exact (some.inj h).symm
    · have hnamed := (hinv.callers c).named
      rw [hat] at hnamed
      exact hnamed
  | wrote control document descriptor size mtimeMs hdocument hwriting hnew howned =>
    have howner := hinv.writing_owned hlive hwriting
    refine hinv.write hlive howner (howned.trans howner) (.inr ⟨document, ?_, ?_⟩) ?_ ?_
      hnew.2.2.2
    · exact env.parse_render document
    · exact (hinv.callers c).named document hdocument
    · simp [hnew.2.1]
    · simp [Control.Named, hnew.2.2.1]
  | staleRemoved creating attempt snapshot file hat hfile =>
    refine hinv.removed (by cases creating <;> exact ⟨rfl, rfl, rfl, rfl⟩) ?_
    intro d serial _ hd hown
    simp only [UnlinksInspected, hat] at hgood
    obtain ⟨_, hcontent, hwriters⟩ := hgood file hfile
    obtain ⟨same, hsame, _, hbelongs⟩ := (hinv.callers d).owner_file hd serial hown
    rw [hfile] at hsame
    cases hsame
    obtain ⟨hnone, hwriting⟩ :=
      hinv.condemned_unowned (c := c) (by rw [hat]; rfl) hcontent hd hbelongs
    exact hwriters hnone d hd hwriting
  | released held hat =>
    refine hinv.removed ⟨rfl, rfl, rfl, rfl⟩ ?_
    intro d serial hne hd hown
    have howner : (s.control c).owned = some held.serial := by rw [hat]; rfl
    exact hne (hinv.owner_unique hd hlive hown howner)

/-- The death of a process keeps the invariant: it concerns live callers only. -/
theorem Inv.die (pid : Pid) :
    Inv env { s with alive := fun p => if p = pid then false else s.alive p } := by
  refine ⟨fun c => ?_, hinv.owned_once, hinv.file_made⟩
  have halive : ∀ p, (if p = pid then false else s.alive p) = true → s.alive p = true := by simp
  have hsound := hinv.callers c
  refine { hsound with
    owner_file := fun hlive => hsound.owner_file (halive _ hlive)
    descriptor_owned := fun hlive => hsound.descriptor_owned (halive _ hlive)
    condemned := fun snapshot h => ?_ }
  have hdead := hsound.condemned snapshot h
  cases howner : ownerPid (env.parse snapshot.raw) with
  | none => rfl
  | some owner => simp_all

/-- One admitted event keeps the invariant. -/
theorem inv_step [DecidableEq Content] {e : Event} (hgood : UnlinksInspected env s e) (hstep : step env s e = some next) : Inv env next := by
  cases e with
  | die pid =>
    simp only [step, some.injEq] at hstep
    exact hstep ▸ hinv.die pid
  | «at» c act =>
    simp only [step, ite_none_right_eq_some] at hstep
    obtain ⟨hlive, hadvance⟩ := hstep
    exact hinv.effect hlive (effect_of_advance hadvance) hgood

omit hinv in
/-- Mutual exclusion of the workspace mutation lease and of the maintenance lock of a container:
along every run in which each stale file that is unlinked is the file that was inspected, and is not
being written by a live creator, two live holders are the same caller. -/
theorem at_most_one_lock_holder [DecidableEq Content] {s₀ : State Content} {events : List Event}
    (hinit : Initial s₀) (hrun : (machine env).Follows (UnlinksInspected env) s₀ events s)
    (hc : s.Holds env c) (hd : s.Holds env d) : c = d := by
  have hinv : Inv env s :=
    Machine.invariant_of_follows (fun _ _ _ hs hgood hstep => inv_step hs hgood hstep) hrun
      (inv_initial hinit)
  obtain ⟨heldc, hheldc⟩ := isSome_iff_exists.mp hc.2
  obtain ⟨heldd, hheldd⟩ := isSome_iff_exists.mp hd.2
  exact hinv.owner_unique hc.1 hd.1 (owned_of_held hheldc) (owned_of_held hheldd)

end Exclusion

/-! ## Two callers -/

/-- Documents that are kept as they are. Caller `c` runs in process `c + 10`. -/
def documentEnv (kind : Kind) : Env (Option LockDocument) where
  kind := kind
  pidOf c := c + 10
  pid_pos _ := Nat.succ_pos _
  empty := none
  render := some
  parse := id
  parse_render _ := rfl
  parse_empty := rfl

/-- What the process of a caller puts into its lock document. -/
def detailsOf (token : Str) : Details where
  operation := "workspace-mutation"
  requireQuiescenceOnOwnerDeath := false
  ownerIdentity := ⟨"boot", "linux-proc:7"⟩
  token := token
  startedAt := "2026-01-01T00:00:00.000Z"
  expiresAt := "2026-01-02T00:00:00.000Z"

/-- The lock file was written by process 10, which is dead. -/
def leftover (kind : Kind) : State (Option LockDocument) where
  file := some ⟨0, ⟨1, 100, 384, 300, 0⟩, some (kind.newDocument 10 (detailsOf "token-10"))⟩
  made := 1
  alive pid := pid != 10
  control _ := .outside

/-- The calls of one caller from its start to the point where it may unlink the stale file. -/
def inspectStale (c : Caller) : List Event :=
  [.at c .create, .at c .proceed, .at c .proceed,
    .at c (.judged 6000 ⟨⟨"boot", []⟩, false⟩), .at c .proceed, .at c .proceed]

/-- The calls from the unlink of the stale file to the return of the creation. -/
def unlinkAndCreate (c : Caller) (ino : Nat) (token : Str) : List Event :=
  [.at c .proceed, .at c (.opened ⟨1, ino, 384, 0, 6000⟩ (detailsOf token)),
    .at c (.wrote 300 6000)]

/-- A single caller takes the lease of dead process 10 over under the condition of
`at_most_one_lock_holder`, and is then the only holder. -/
theorem stale_lease_taken_over_by_one :
    ∃ s, (machine (documentEnv .lease)).Follows (UnlinksInspected (documentEnv .lease))
        (leftover .lease) (inspectStale 1 ++ unlinkAndCreate 1 101 "token-11") s ∧
      s.Holds (documentEnv .lease) 1 ∧ ∀ d, s.Holds (documentEnv .lease) d → 1 = d := by
  have hinit : Initial (leftover .lease) := by
    refine ⟨fun _ => rfl, ?_⟩
    intro file h
    cases h
    exact Nat.zero_lt_one
  refine ⟨?last, ?run, ?holds, fun d hd => at_most_one_lock_holder hinit ?run ?holds hd⟩
  case run =>
    iterate 6 refine .step rfl trivial ?_
    refine .step rfl ?_ ?_
    · intro file h
      cases h
      exact ⟨rfl, rfl, nofun⟩
    iterate 2 refine .step rfl trivial ?_
    exact .refl _
  case holds => exact ⟨rfl, rfl⟩

/-- Two ways to two holders. Callers 1 and 2 both inspect the stale lease before either unlinks it:
caller 1 unlinks it and creates its own, caller 2 then unlinks that one by name and creates another.
And a caller that stops for five seconds between the creation and the writing of its maintenance lock
loses the empty file to an inspection: it writes into a file without a name, and both hold. -/
theorem lock_held_twice : (∃ s, (machine (documentEnv .lease)).run (leftover .lease)
        (inspectStale 1 ++ inspectStale 2 ++ unlinkAndCreate 1 101 "token-11" ++
          unlinkAndCreate 2 102 "token-12") = some s ∧
      s.Holds (documentEnv .lease) 1 ∧ s.Holds (documentEnv .lease) 2) ∧
    (∃ s, (machine (documentEnv .maintenance)).run { leftover .maintenance with file := none }
        ([.at 1 .create, .at 1 .proceed, .at 1 (.opened ⟨1, 101, 384, 0, 0⟩ (detailsOf "token-11"))] ++
          inspectStale 2 ++ unlinkAndCreate 2 102 "token-12" ++ [.at 1 (.wrote 300 6000)]) = some s ∧
      s.Holds (documentEnv .maintenance) 1 ∧ s.Holds (documentEnv .maintenance) 2) ∧
    (documentEnv .lease).pidOf 1 ≠ (documentEnv .lease).pidOf 2 :=
  ⟨⟨_, rfl, ⟨rfl, rfl⟩, rfl, rfl⟩, ⟨_, rfl, ⟨rfl, rfl⟩, rfl, rfl⟩, by decide⟩

end Ploinky.Workspace.MaintenanceLock
