import Ploinky.Skills.LockExclusion

/-!
# What concurrent reclaims leave behind

A lock directory without an owner record blocks every later export: it is never reclaimed. The
directory stays behind exactly when a caller that has removed the record finds the marker of another
reclaimer in the directory it is about to remove: at once for a reclaimer, in its last attempt for a
release. `no_orphan_lock_iff` says so for every run in which all callers finish, and
`late_marker_orphans_lock` is such a run of two reclaimers.
-/

namespace Ploinky.Skills.ExportLock

open Transition List Option

variable {Content : Type} {env : Env Content} {s next : State Content} {c d : Caller} {act : Act}

/-- Nobody has started, and the directory at the lock path has the record of a dead owner. -/
structure Stale (env : Env Content) (s : State Content) : Prop extends Initial s where
  recorded : ∃ dir record, s.dir = some dir ∧ dir.owner = some (.file record) ∧ dir.temps = [] ∧
    s.ownerDead env record.content = true

/-- No directory without a record stands at the lock path. -/
def State.NoOrphan (s : State Content) : Prop := ∀ dir, s.dir = some dir → dir.owner ≠ none

/-- Every caller has released its lock or given up. -/
def State.Finished (s : State Content) : Prop := ∀ c, ∃ failure, s.control c = .outside failure

/-- The directory has no marker. -/
def State.Unmarked (s : State Content) : Prop := ∀ dir, s.dir = some dir → dir.marker = false

/-- When a reclaimer removes the directory, and when a release makes its last attempt to, no
reclaimer has its marker there. Every other event is unrestricted. -/
def Unhindered (s : State Content) : Event → Prop
  | .at c _ =>
    match s.control c with
    | .rmdirReclaimed => s.Unmarked
    | .releaseRmdir attempt => 40 ≤ attempt → s.Unmarked
    | _ => True
  | _ => True

/-! ## Unhindered runs -/

/-- A directory without a record is being settled, and its only temporary file is that of the record
being written. -/
structure Tidy (s : State Content) : Prop where
  settled : ∀ dir, s.dir = some dir → dir.owner = none → ∃ c, (s.control c).settling = true
  temps : ∀ dir, s.dir = some dir → dir.temps = [] ∨
    ∃ c name record token, s.control c = .renameTemp name record token ∧ dir.temps = [name]

/-- A stale lock is tidy. -/
theorem tidy_stale (h : Stale env s) : Tidy s := by
  obtain ⟨dir, record, hdir, hrecord, htemps, _⟩ := h.recorded
  constructor
  · intro same hsame hnone
    rw [hdir] at hsame
    cases hsame
    rw [hrecord] at hnone
    cases hnone
  · intro same hsame
    rw [hdir] at hsame
    cases hsame
    exact .inl htemps

/-- A free lock path is tidy. -/
theorem tidy_free (h : s.dir = none) : Tidy s := by
  constructor
  · intro dir hdir
    rw [h] at hdir
    cases hdir
  · intro dir hdir
    rw [h] at hdir
    cases hdir

variable {dir : LockDir Content} {control : Control Content} {e : Event}

/-- The directory a caller settles has no temporary file, unless the caller is writing the record. -/
theorem Tidy.temps_nil (htidy : Tidy s) (hinv : Inv env s) (hdir : s.dir = some dir)
    (hsettling : (s.control c).settling = true)
    (hat : ∀ name record token, s.control c ≠ .renameTemp name record token) : dir.temps = [] := by
  rcases htidy.temps dir hdir with htemps | ⟨d, name, record, token, hd, _⟩
  · exact htemps
  · obtain rfl : c = d := hinv.settling_once c d hsettling (by rw [hd]; rfl)
    exact absurd hd (hat name record token)

/-- The caller that leaves the directory behind is hindered. -/
theorem Tidy.not_stuck (htidy : Tidy s) (hinv : Inv env s) (hsettling : (s.control c).settling = true)
    (hat : ∀ name record token, s.control c ≠ .renameTemp name record token)
    (hunmarked : s.Unmarked) : ∃ dir, s.dir = some dir ∧ dir.isEmpty = true := by
  obtain ⟨dir, hdir, hrelies⟩ := (hinv.callers c).relies (Inv.engaged_of_settling hsettling)
  refine ⟨dir, hdir, ?_⟩
  simp [LockDir.isEmpty, hrelies.owner_none hsettling, hunmarked dir hdir,
    htidy.temps_nil hinv hdir hsettling hat]

/-- Settling goes on in a step of a caller that settles before and after it, or not at all. -/
theorem settling_goto (hsame : control.settling = (s.control c).settling)
    (h : ∃ d, (s.control d).settling = true) : ∃ d, ((s.goto c control).control d).settling = true := by
  obtain ⟨d, hd⟩ := h
  refine ⟨d, ?_⟩
  by_cases hne : d = c
  · rw [hne, State.goto_control_self, hsame, ← hne]
    exact hd
  · rwa [State.goto_control_other control hne]

/-- The record being written is still being written after a step of a caller that does not write
one. -/
theorem Tidy.temps_goto (htidy : Tidy s) (hdir : s.dir = some dir)
    (hat : ∀ name record token, s.control c ≠ .renameTemp name record token) :
    dir.temps = [] ∨ ∃ d name record token,
      (s.goto c control).control d = .renameTemp name record token ∧ dir.temps = [name] := by
  rcases htidy.temps dir hdir with htemps | ⟨d, name, record, token, hd, htemps⟩
  · exact .inl htemps
  · have hne : d ≠ c := by
      rintro rfl
      exact hat name record token hd
    exact .inr ⟨d, name, record, token, by rwa [State.goto_control_other control hne], htemps⟩

/-- A step that keeps the record and the temporary files of the directory keeps it tidy. -/
theorem Tidy.of_same (htidy : Tidy s) (hcontrol : next.control = (s.goto c control).control)
    (hdir : ∀ dir, next.dir = some dir → ∃ before, s.dir = some before ∧ before.owner = dir.owner ∧ before.temps = dir.temps)
    (hsettling : control.settling = (s.control c).settling)
    (hat : ∀ name record token, s.control c ≠ .renameTemp name record token) : Tidy next := by
  constructor
  · intro dir hnext hnone
    obtain ⟨before, hbefore, howner, _⟩ := hdir dir hnext
    rw [hcontrol]
    exact settling_goto hsettling (htidy.settled before hbefore (howner.trans hnone))
  · intro dir hnext
    obtain ⟨before, hbefore, _, htemps⟩ := hdir dir hnext
    rw [hcontrol, ← htemps]
    exact htidy.temps_goto hbefore hat

/-- An unhindered call keeps the directory tidy. -/
theorem Tidy.effect (htidy : Tidy s) (hinv : Inv env s) (hgood : Unhindered s (.at c act))
    (heffect : Effect env s c next) : Tidy next := by
  cases heffect with
  | quiet control hsettling hmarking hengaged hdrawn hcondemned hrelies =>
    refine htidy.of_same rfl (fun dir h => ⟨dir, h, rfl, rfl⟩)
      (hsettling.1.trans hsettling.2.symm) ?_
    intro name record token hat
    rw [hat] at hsettling
    cases hsettling.2
  | retried attempt hat =>
    exact htidy.of_same rfl (fun dir h => ⟨dir, h, rfl, rfl⟩) (by rw [hat]; rfl) (by simp [hat])
  | stuck control hat hfull hcontrol =>
    have hsettling : (s.control c).settling = true := by
      rcases hat with hat | ⟨attempt, hat, _⟩ <;> rw [hat] <;> rfl
    have hunmarked : s.Unmarked := by
      rcases hat with hat | ⟨attempt, hat, hlast⟩
      · simpa [Unhindered, hat] using hgood
      · simp only [Unhindered, hat] at hgood
        exact hgood hlast
    have hother : ∀ name record token, s.control c ≠ .renameTemp name record token := by
      rcases hat with hat | ⟨attempt, hat, _⟩ <;> simp [hat]
    obtain ⟨dir, hdir, hempty⟩ := htidy.not_stuck hinv hsettling hother hunmarked
    rw [hfull dir hdir] at hempty
    cases hempty
  | vanished control hsettling hgone =>
    obtain ⟨dir, hdir, hrelies⟩ := (hinv.callers c).relies (Inv.engaged_of_settling hsettling)
    exact absurd hrelies (hgone dir hdir)
  | discarded | removed =>
    exact tidy_free rfl
  | made id hat hfree =>
    constructor
    · exact fun dir _ _ => ⟨c, by simp [State.put, Control.settling]⟩
    · intro dir h
      cases h
      exact .inl rfl
  | opened details token name id dir hat hdir hfresh =>
    have hnil : dir.temps = [] :=
      htidy.temps_nil (c := c) hinv hdir (by rw [hat]; rfl) (by simp [hat])
    constructor
    · exact fun _ _ _ => ⟨c, by simp [State.put, Control.settling]⟩
    · intro same h
      cases h
      exact .inr ⟨c, name, _, token, State.goto_control_self _, by simp [hnil]⟩
  | wrote name record token dir hat hdir =>
    constructor
    · intro same h hnone
      cases h
      cases hnone
    · intro same h
      cases h
      rcases htidy.temps dir hdir with htemps | ⟨d, other, record', token', hd, htemps⟩
      · simp [htemps]
      · obtain rfl : c = d := hinv.settling_once c d (by rw [hat]; rfl) (by rw [hd]; rfl)
        rw [hat] at hd
        cases hd
        simp [htemps]
  | marked observed dir hat hdir hfree =>
    refine htidy.of_same rfl ?_ (by rw [hat]; rfl) (by simp [hat])
    intro same h
    cases h
    exact ⟨dir, hdir, rfl, rfl⟩
  | unmarked control dir hat hdir =>
    refine htidy.of_same rfl ?_ ?_ ?_
    · intro same h
      cases h
      exact ⟨dir, hdir, rfl, rfl⟩
    · rcases hat with ⟨hat, rfl⟩ | ⟨failure, hat, rfl⟩
      · rw [hat]; rfl
      · cases failure <;> rw [hat] <;> rfl
    · rcases hat with ⟨hat, _⟩ | ⟨failure, hat, _⟩ <;> simp [hat]
  | unlinked control dir record hat hdir hrecord =>
    have hnew : control.settling = true := by
      rcases hat with ⟨_, rfl⟩ | ⟨_, rfl⟩ <;> rfl
    constructor
    · exact fun _ _ _ => ⟨c, by simpa [State.put] using hnew⟩
    · intro same h
      cases h
      have hother : ∀ name record token, s.control c ≠ .renameTemp name record token := by
        rcases hat with ⟨⟨observed, hat⟩, _⟩ | ⟨⟨lock, hat⟩, _⟩ <;> simp [hat]
      exact (htidy.temps_goto hdir hother :)

/-! ## Orphaned directories -/

/-- The directory has no record and nobody is settling it. -/
structure Orphaned (s : State Content) : Prop where
  unrecorded : ∃ dir, s.dir = some dir ∧ dir.owner = none
  unsettled : ∀ c, (s.control c).settling = false

/-- An orphaned directory stays as it is under a step of a caller that does not start to settle
it. -/
theorem Orphaned.of_same (h : Orphaned s) (hcontrol : next.control = (s.goto c control).control)
    (hdir : ∃ dir, next.dir = some dir ∧ dir.owner = none) (hnew : control.settling = false) :
    Orphaned next := by
  refine ⟨hdir, ?_⟩
  intro d
  rw [hcontrol]
  by_cases hd : d = c
  · rw [hd, State.goto_control_self]
    exact hnew
  · rw [State.goto_control_other control hd]
    exact h.unsettled d

/-- Nobody removes an orphaned directory or writes a record into it. -/
theorem Orphaned.effect (h : Orphaned s) (hinv : Inv env s) (heffect : Effect env s c next) :
    Orphaned next := by
  have hc := h.unsettled c
  obtain ⟨dir, hdir, hnone⟩ := h.unrecorded
  cases heffect with
  | quiet control hsettling => exact h.of_same rfl ⟨dir, hdir, hnone⟩ hsettling.1
  | retried attempt hat =>
    rw [hat] at hc
    cases hc
  | stuck control hat =>
    rcases hat with hat | ⟨attempt, hat, _⟩ <;> rw [hat] at hc <;> cases hc
  | vanished control hsettling =>
    rw [hsettling] at hc
    cases hc
  | discarded failure hat =>
    obtain ⟨_, _, hrelies⟩ := (hinv.callers c).relies (by rw [hat]; rfl)
    rw [hat] at hrelies
    exact hrelies.elim
  | made id hat hfree =>
    simp [State.dir, hfree] at hdir
  | opened details token name id dir hat =>
    rw [hat] at hc
    cases hc
  | wrote name record token dir hat =>
    rw [hat] at hc
    cases hc
  | marked observed same hat hsame =>
    rw [hdir] at hsame
    cases hsame
    exact h.of_same rfl ⟨_, rfl, hnone⟩ rfl
  | unmarked control same hat hsame =>
    rw [hdir] at hsame
    cases hsame
    rcases hat with ⟨hat, _⟩ | ⟨failure, hat, rfl⟩
    · rw [hat] at hc
      cases hc
    · exact h.of_same rfl ⟨_, rfl, hnone⟩ (by cases failure <;> rfl)
  | unlinked control same record hat hsame hrecord =>
    rw [hdir] at hsame
    cases hsame
    rw [hnone] at hrecord
    cases hrecord
  | removed control same hat =>
    rcases hat with ⟨hat, _⟩ | ⟨⟨attempt, hat⟩, _⟩ <;> rw [hat] at hc <;> cases hc

/-- A caller that gives up the directory it settles leaves it orphaned. -/
theorem orphaned_of_stuck (hinv : Inv env s) {failure : Option ExportError}
    (hsettling : (s.control c).settling = true) : Orphaned (s.goto c (.outside failure)) := by
  obtain ⟨dir, hdir, hrelies⟩ := (hinv.callers c).relies (Inv.engaged_of_settling hsettling)
  refine ⟨⟨dir, hdir, hrelies.owner_none hsettling⟩, ?_⟩
  intro d
  by_cases hd : d = c
  · rw [hd, State.goto_control_self]
    rfl
  · rw [State.goto_control_other _ hd, Bool.eq_false_iff]
    exact fun h => hd (hinv.settling_once d c h hsettling)

section Runs

variable [DecidableEq Content]

/-- An unhindered event keeps the invariant and the directory tidy. -/
theorem tidy_step (hinv : Inv env s) (htidy : Tidy s) (hgood : Unhindered s e)
    (hstep : step env s e = some next) : Tidy next := by
  cases e with
  | die process =>
    simp only [step, some.injEq] at hstep
    subst hstep
    exact ⟨htidy.settled, htidy.temps⟩
  | «at» c act =>
    simp only [step, ite_none_right_eq_some] at hstep
    exact htidy.effect hinv hgood (effect_of_advance hstep.2)

/-- No event repairs an orphaned directory. -/
theorem orphaned_step (hinv : Inv env s) (h : Orphaned s) (hstep : step env s e = some next) :
    Orphaned next := by
  cases e with
  | die process =>
    simp only [step, some.injEq] at hstep
    subst hstep
    exact ⟨h.unrecorded, h.unsettled⟩
  | «at» c act =>
    simp only [step, ite_none_right_eq_some] at hstep
    exact h.effect hinv (effect_of_advance hstep.2)

/-- A hindered event orphans the directory. -/
theorem orphaned_of_hindered (hinv : Inv env s) (hbad : ¬ Unhindered s e) (hstep : step env s e = some next) :
    Orphaned next := by
  cases e with
  | die process => exact absurd trivial hbad
  | «at» c act =>
    simp only [step, ite_none_right_eq_some] at hstep
    obtain ⟨_, hadvance⟩ := hstep
    have hmarked : ¬ s.Unmarked → ∃ dir, s.lock = some (.directory dir) ∧ dir.isEmpty = false := by
      intro h
      simp only [State.Unmarked, not_forall] at h
      obtain ⟨dir, hdir, hmarker⟩ := h
      exact ⟨dir, State.dir_eq_some.mp hdir, by simp_all [LockDir.isEmpty]⟩
    generalize hat : s.control c = control at hadvance
    -- Only the two removals of the directory can be hindered.
    cases control with
    | rmdirReclaimed =>
      simp only [Unhindered, hat] at hbad
      obtain ⟨dir, hlock, hfull⟩ := hmarked hbad
      cases act <;> simp only [advance, hlock, hfull, reduceCtorEq] at hadvance
      cases hadvance
      exact orphaned_of_stuck hinv (by rw [hat]; rfl)
    | releaseRmdir attempt =>
      simp only [Unhindered, hat, Classical.not_imp] at hbad
      obtain ⟨hlast, hbad⟩ := hbad
      obtain ⟨dir, hlock, hfull⟩ := hmarked hbad
      cases act <;> simp only [advance, hlock, hfull, reduceCtorEq] at hadvance
      rw [if_pos hlast] at hadvance
      cases hadvance
      exact orphaned_of_stuck hinv (by rw [hat]; rfl)
    | _ => simp [Unhindered, hat] at hbad

/-- Concurrent reclaims of a stale lock, in every run after which every caller has released its lock
or given up: a directory without an owner record stays behind exactly when some caller found the
marker of another reclaimer in the directory it had to remove. -/
theorem no_orphan_lock_iff {s₀ : State Content} {events : List Event} (hstale : Stale env s₀)
    (hrun : (machine env).run s₀ events = some s) (hdone : s.Finished) :
    s.NoOrphan ↔ (machine env).Follows Unhindered s₀ events s := by
  have hinv₀ : Inv env s₀ := inv_initial hstale.toInitial
  constructor
  · intro hnone
    rcases Machine.follows_or_violates hrun with h | ⟨before, e, after, mid, next, hrest⟩
    · exact h
    · obtain ⟨hbefore, hstep, hbad, hafter⟩ := hrest
      have hmid : Inv env mid :=
        Machine.invariant_of_follows (fun _ _ _ hs _ hstep => inv_step hs hstep) hbefore hinv₀
      have hkeep : ∀ s e next, Inv env s ∧ Orphaned s → True → step env s e = some next →
          Inv env next ∧ Orphaned next :=
        fun _ _ _ hs _ hstep => ⟨inv_step hs.1 hstep, orphaned_step hs.1 hs.2 hstep⟩
      have horphan : Inv env s ∧ Orphaned s :=
        @Machine.invariant_of_follows _ _ _ _ _ _ _ (fun s => Inv env s ∧ Orphaned s) hkeep
          (Machine.follows_of_run_eq hafter)
          ⟨inv_step hmid hstep, orphaned_of_hindered hmid hbad hstep⟩
      obtain ⟨dir, hdir, howner⟩ := horphan.2.unrecorded
      exact absurd howner (hnone dir hdir)
  · intro hfollows dir hdir hnone
    have hkeep : ∀ s e next, Inv env s ∧ Tidy s → Unhindered s e → step env s e = some next →
        Inv env next ∧ Tidy next :=
      fun _ _ _ hs hgood hstep => ⟨inv_step hs.1 hstep, tidy_step hs.1 hs.2 hgood hstep⟩
    have htidy : Inv env s ∧ Tidy s :=
      @Machine.invariant_of_follows _ _ _ _ _ _ _ (fun s => Inv env s ∧ Tidy s) hkeep hfollows
        ⟨hinv₀, tidy_stale hstale⟩
    obtain ⟨c, hc⟩ := htidy.2.settled dir hdir hnone
    obtain ⟨failure, hat⟩ := hdone c
    rw [hat] at hc
    cases hc

end Runs

/-! ## Two reclaimers of one stale lock -/

/-- The stale lock of process 10 is one. -/
theorem stale_staleLock : Stale valueEnv staleLock where
  toInitial := initial_staleLock
  recorded := ⟨_, _, rfl, rfl, rfl, by decide +kernel⟩

/-- A caller that takes no step stays where it is. -/
theorem control_of_run [DecidableEq Content] {events : List Event}
    (hrun : (machine env).run s events = some next)
    (hc : ∀ d act, .at d act ∈ events → d ≠ c) : next.control c = s.control c := by
  induction events generalizing s with
  | nil =>
    cases hrun
    rfl
  | cons e rest ih =>
    simp only [Machine.run, bind_eq_some_iff] at hrun
    obtain ⟨mid, hstep, hrest⟩ := hrun
    rw [ih hrest fun d act h => hc d act (mem_cons_of_mem _ h)]
    cases e with
    | die process =>
      simp only [machine, step, some.injEq] at hstep
      rw [← hstep]
    | «at» d act =>
      simp only [machine, step, ite_none_right_eq_some] at hstep
      have hne : c ≠ d := (hc d act mem_cons_self).symm
      cases effect_of_advance hstep.2 <;> exact State.goto_control_other _ hne

/-- The calls of a release, from `assertHeld` to the removal of the directory. -/
def releaseLock (c : Caller) : List Event :=
  [.at c .release, .at c .proceed, .at c .proceed, .at c .proceed, .at c .proceed, .at c .proceed]

/-- Caller 1 reclaims the stale lock, acquires it and releases it: nothing stays behind. -/
theorem single_reclaimer_leaves_nothing :
    ∃ s, (machine valueEnv).Follows Unhindered staleLock (inspectStale 1 ++ reclaimRecord 1 ++
        [.at 1 .proceed] ++ acquireFree 1 "token-11" ++ releaseLock 1) s ∧
      s.Finished ∧ s.lock = none ∧ s.NoOrphan := by
  have hreleased : ∃ s, (machine valueEnv).run staleLock (inspectStale 1 ++ reclaimRecord 1 ++
        [.at 1 .proceed] ++ acquireFree 1 "token-11" ++ releaseLock 1) = some s ∧
      s.control 1 = .outside none ∧ s.lock = none := ⟨_, rfl, rfl, rfl⟩
  obtain ⟨s, hrun, hone, hfree⟩ := hreleased
  have hdone : s.Finished := by
    intro c
    by_cases hc : c = 1
    · exact ⟨none, hc ▸ hone⟩
    · refine ⟨none, control_of_run hrun ?_⟩
      intro d act hmem
      simp [inspectStale, reclaimRecord, acquireFree, releaseLock] at hmem
      grind
  have hnone : s.NoOrphan := by
    intro dir hdir
    simp [State.dir, hfree] at hdir
  exact ⟨s, (no_orphan_lock_iff stale_staleLock hrun hdone).mp hnone, hdone, hfree, hnone⟩

/-- Callers 1 and 2 both observed the record of dead process 10. Caller 1 removes the record and its
marker; caller 2 then creates its marker, so that caller 1 cannot remove the directory and fails;
caller 2 finds no record, removes its marker, and gives up on the directory without an owner. Both
are alive and done, and the directory stays. -/
theorem late_marker_orphans_lock :
    ∃ s, (machine valueEnv).run staleLock (inspectStale 1 ++ inspectStale 2 ++ reclaimRecord 1 ++
        [.at 2 .proceed, .at 1 .proceed, .at 2 .proceed, .at 2 .proceed, .at 2 .proceed,
          .at 2 (.makes ⟨1, 0⟩), .at 2 .proceed, .at 2 .proceed, .at 2 .expired]) = some s ∧
      s.alive (valueEnv.processOf 1) = true ∧ s.alive (valueEnv.processOf 2) = true ∧
      s.control 1 = .outside (some (recoveryRequired valueEnv.lockPath)) ∧
      s.control 2 = .outside (some (blockedError .ownerless valueEnv.lockPath none)) ∧
      (∀ c, c ≠ 1 → c ≠ 2 → s.control c = .outside none) ∧
      s.lock = some (.directory ⟨⟨1, 100⟩, none, false, []⟩) := by
  refine ⟨?last, ?run, ?_, ?_, ?_, ?_, fun c hc1 hc2 => control_of_run ?run ?others, ?_⟩
  case run => rfl
  case others =>
    intro d act hmem
    simp [inspectStale, reclaimRecord] at hmem
    grind
  all_goals rfl

end Ploinky.Skills.ExportLock
