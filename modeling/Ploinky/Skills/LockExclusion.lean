import Ploinky.Skills.LockSteps

/-!
# Mutual exclusion of the skill export lock

Every effect of a completed call keeps the invariant: the callers that the change would disturb are
not there. `skill_export_lock_exclusive` is the result for whole runs, with any interleaving and with
deaths at any point.
-/

namespace Ploinky.Skills.ExportLock

open Transition Control List Option

variable {Content : Type} {env : Env Content} {s next : State Content} {c d : Caller} {act : Act}

/-! ## The invariant is kept -/

@[simp] theorem State.goto_control_self (control : Control Content) :
    (s.goto c control).control c = control := by
  simp [State.goto]

theorem State.goto_control_other (control : Control Content) (hne : d ≠ c) :
    (s.goto c control).control d = s.control d := by
  simp [State.goto, hne]

variable {control : Control Content} {dir : LockDir Content} {token : Str} {lock : Lock}

/-- The invariant survives a move of one caller that starts to settle or to mark only when nobody else
does and draws no used token. -/
theorem Inv.of_move (hinv : Inv env s) (hcontrol : next.control = (s.goto c control).control)
    (hsound : Sound env next.dir next.issued next.alive c control)
    (hothers : ∀ d, d ≠ c → Sound env next.dir next.issued next.alive d (s.control d))
    (hsettling : control.settling = true → (s.control c).settling = true ∨ ∀ d, (s.control d).settling = false)
    (hmarking : control.marking = true → (s.control c).marking = true ∨ ∀ d, (s.control d).marking = false)
    (hdrawn : ∀ token, control.drawn = some token → (s.control c).drawn = some token ∨ token ∉ s.issued.map Prod.fst)
    (hissued : ∀ token p q, (token, p) ∈ next.issued → (token, q) ∈ next.issued → p = q) : Inv env next := by
  have hself : next.control c = control := by simp [hcontrol]
  have hother : ∀ d, d ≠ c → next.control d = s.control d := by
    intro d hne
    rw [hcontrol, State.goto_control_other control hne]
  rw [← hself] at hsettling hmarking hdrawn
  refine ⟨forall_of_move hother (hself ▸ hsound) hothers,
    once_of_move (·.settling = true) hother
      (fun h => (hsettling h).imp_right fun hnone d => Bool.eq_false_iff.mp (hnone d)) hinv.settling_once,
    once_of_move (·.marking = true) hother
      (fun h => (hmarking h).imp_right fun hnone d => Bool.eq_false_iff.mp (hnone d)) hinv.marking_once,
    fun d e token => once_of_move (·.drawn = some token) hother (fun h => ?_)
      (fun d e => hinv.drawn_once d e token) d e, hissued⟩
  -- A caller that shows a token had it issued before, so it is not the new one.
  exact (hdrawn token h).imp_right fun hfresh d hd =>
    hfresh (mem_map_of_mem ((hinv.callers d).drawn_issued token hd))

/-- A move without a new token, after which every caller has what it relies on. -/
theorem Inv.moved (hinv : Inv env s) (hlive : s.alive (env.processOf c) = true)
    (hcontrol : next.control = (s.goto c control).control) (halive : next.alive = s.alive)
    (hissued : next.issued = s.issued)
    (hself : control.engaged true = true → ∃ dir, next.dir = some dir ∧ control.Relies env dir)
    (hothers : ∀ d, d ≠ c → (s.control d).engaged (s.alive (env.processOf d)) = true →
      ∃ dir, next.dir = some dir ∧ (s.control d).Relies env dir)
    (hsettling : control.settling = true → (s.control c).settling = true ∨ ∀ d, (s.control d).settling = false)
    (hmarking : control.marking = true → (s.control c).marking = true ∨ ∀ d, (s.control d).marking = false)
    (hdrawn : ∀ token, control.drawn = some token → (s.control c).drawn = some token)
    (hcondemned : ∀ content, control.condemned = some content → (s.control c).condemned = some content ∨
      s.ownerDead env content = true)
    (hwritten : ∀ name record token, control = .renameTemp name record token →
      env.tokenOf record.content = some token) : Inv env next := by
  refine hinv.of_move hcontrol ?_ (fun d hd => ?_) hsettling hmarking (fun token h => .inl (hdrawn token h))
    (hissued ▸ hinv.issued_once)
  all_goals rw [halive, hissued]
  · exact ⟨fun h => hself (hlive ▸ h), fun token h => (hinv.callers c).drawn_issued token (hdrawn token h),
      fun content h => (hcondemned content h).elim ((hinv.callers c).condemned_dead content) ownerDead_iff.mp, hwritten⟩
  · exact { hinv.callers d with relies := hothers d hd }

/-- A move to a control that relies on nothing and shows no token. -/
theorem Inv.rested (hinv : Inv env s) (hlive : s.alive (env.processOf c) = true)
    (hcontrol : next.control = (s.goto c control).control) (halive : next.alive = s.alive)
    (hissued : next.issued = s.issued) (hrests : control = .mkdirLock ∨ ∃ failure, control = .outside failure)
    (hothers : ∀ d, d ≠ c → (s.control d).engaged (s.alive (env.processOf d)) = true →
      ∃ dir, next.dir = some dir ∧ (s.control d).Relies env dir) : Inv env next := by
  obtain rfl | ⟨failure, rfl⟩ := hrests
  all_goals
    refine hinv.moved hlive hcontrol halive hissued ?_ hothers ?_ ?_ ?_ ?_ ?_ <;> intros <;> contradiction

/-- Without a lock directory nobody is engaged. -/
theorem Inv.idle_of_free (hinv : Inv env s) (hfree : s.dir = none) (d : Caller) :
    (s.control d).engaged (s.alive (env.processOf d)) = false := by
  rw [Bool.eq_false_iff]
  intro hengaged
  obtain ⟨dir, hdir, _⟩ := (hinv.callers d).relies hengaged
  rw [hfree] at hdir
  cases hdir

/-- The directory a caller relies on. -/
theorem Inv.relies_on (hinv : Inv env s) (hdir : s.dir = some dir)
    (hengaged : (s.control d).engaged (s.alive (env.processOf d)) = true) : (s.control d).Relies env dir := by
  obtain ⟨same, hsame, hrelies⟩ := (hinv.callers d).relies hengaged
  rw [hdir] at hsame
  cases hsame
  exact hrelies

/-- What the caller of a live process relies on is there. -/
theorem Inv.relies_live (hinv : Inv env s) (hlive : s.alive (env.processOf c) = true)
    (hengaged : (s.control c).engaged true = true) : ∃ dir, s.dir = some dir ∧ (s.control c).Relies env dir :=
  (hinv.callers c).relies (hlive.symm ▸ hengaged)

/-- When the directory has a record, nobody settles it. -/
theorem Inv.not_settling (hinv : Inv env s) (hdir : s.dir = some dir) (hrecord : dir.owner ≠ none)
    (d : Caller) : (s.control d).settling = false := by
  rw [Bool.eq_false_iff]
  intro hsettling
  have hengaged : (s.control d).engaged (s.alive (env.processOf d)) = true := by
    simp [engaged, hsettling]
  exact hrecord ((hinv.relies_on hdir hengaged).owner_none hsettling)

/-- When the directory has no marker, nobody has marked it. -/
theorem Inv.not_marking (hinv : Inv env s) (hdir : s.dir = some dir) (hmarker : dir.marker = false)
    (d : Caller) : (s.control d).marking = false := by
  rw [Bool.eq_false_iff]
  intro hmarking
  have hengaged : (s.control d).engaged (s.alive (env.processOf d)) = true := by
    simp [engaged, hmarking]
  have h := (hinv.relies_on hdir hengaged).marker hmarking
  rw [hmarker] at h
  cases h

/-- An engaged owner is alive. -/
theorem Control.live_of_owned {alive : Bool} (h : control.engaged alive = true)
    (howned : control.owned = some token) : alive = true := by
  have hplain : control.settling = false ∧ control.marking = false ∧ control.removing = false := by
    unfold owned lock at howned
    split at howned
    · exact ⟨rfl, rfl, rfl⟩
    · split at howned <;> simp_all [settling, marking, removing]
  simpa [engaged, hplain, howned] using h

/-- A caller that settles, marks or owns a record is engaged. -/
theorem Inv.engaged_of_settling (hsettling : (s.control d).settling = true) :
    (s.control d).engaged (s.alive (env.processOf d)) = true := by
  simp [engaged, hsettling]

/-- The creation of a temporary file keeps the invariant. -/
theorem Inv.opened (hinv : Inv env s) {details : OwnerDetails}
    {name : Str} {id : FileId} (hat : s.control c = .openTemp) (hdir : s.dir = some dir)
    (hfresh : token ∉ s.issued.map Prod.fst) :
    Inv env { (s.goto c (.renameTemp name ⟨id, env.render (ownerRecord details token)⟩ token)).put
        (some (.directory { dir with temps := name :: dir.temps })) with
      issued := (token, env.processOf c) :: s.issued } := by
  have hrelies := hinv.relies_on (d := c) hdir (by rw [hat]; rfl)
  rw [hat] at hrelies
  refine hinv.of_move rfl ⟨fun _ => ⟨_, rfl, hrelies, mem_cons_self⟩, fun other h => ?_, nofun,
    fun name record other h => ?_⟩ (fun d _ => { hinv.callers d with
      relies := fun h => ⟨_, rfl, (hinv.relies_on hdir h).openTemp name⟩, drawn_issued := fun other h => ?_
      condemned_dead := fun content h => ?_ }) (fun _ => .inl (by rw [hat]; rfl)) nofun (fun other h => ?_)
    fun other p q hp hq => ?_
  · cases h
    exact mem_cons_self
  · cases h
    obtain ⟨owner, howner, htoken⟩ := env.token_render details token
    simp [Env.tokenOf, howner, htoken, Json.str?]
  · exact mem_cons_of_mem _ ((hinv.callers d).drawn_issued other h)
  · obtain ⟨other, p, hmem, hdead⟩ := (hinv.callers d).condemned_dead content h
    exact ⟨other, p, mem_cons_of_mem _ hmem, hdead⟩
  · cases h
    exact .inr hfresh
  · rcases mem_cons.mp hp with hp | hp <;> rcases mem_cons.mp hq with hq | hq
    · rw [(Prod.mk.inj hp).2, (Prod.mk.inj hq).2]
    · exact absurd ((Prod.mk.inj hp).1 ▸ mem_map_of_mem hq) hfresh
    · exact absurd ((Prod.mk.inj hq).1 ▸ mem_map_of_mem hp) hfresh
    · exact hinv.issued_once other p q hp hq

/-- An observed record that is about to be removed belongs to no live caller. -/
theorem Inv.verified_unowned (hinv : Inv env s) {observed : Observation Content}
    (hat : s.control c = .unlinkOwner observed) (hdir : s.dir = some dir)
    (hengaged : (s.control d).engaged (s.alive (env.processOf d)) = true) :
    (s.control d).owned ≠ some token := by
  intro howned
  have hlive : s.alive (env.processOf d) = true := live_of_owned hengaged howned
  obtain ⟨record, hrecord, htoken⟩ := (hinv.relies_on hdir hengaged).hasToken howned
  have hrelies := hinv.relies_on (d := c) hdir (by rw [hat]; rfl)
  rw [hat] at hrelies
  obtain ⟨_, _, same, hsame, hcontent⟩ := hrelies
  have hdead := ownerDead_iff.mpr ((hinv.callers c).condemned_dead observed.record.content (by rw [hat]; rfl))
  rw [hrecord] at hsame
  cases hsame
  rw [← hcontent, hinv.not_ownerDead (drawn_of_owned howned) hlive htoken] at hdead
  cases hdead

/-- Two live owners of the record are one caller. -/
theorem Inv.owner_once (hinv : Inv env s) {tokenc tokend : Str}
    (hengagedc : (s.control c).engaged (s.alive (env.processOf c)) = true)
    (hengagedd : (s.control d).engaged (s.alive (env.processOf d)) = true)
    (hownedc : (s.control c).owned = some tokenc) (hownedd : (s.control d).owned = some tokend) : c = d := by
  obtain ⟨dir, hdir, hrelies⟩ := (hinv.callers c).relies hengagedc
  obtain ⟨recordc, hrecordc, htokenc⟩ := hrelies.hasToken hownedc
  obtain ⟨recordd, hrecordd, htokend⟩ := (hinv.relies_on hdir hengagedd).hasToken hownedd
  have hsame : recordc = recordd := by
    rw [hrecordc] at hrecordd
    cases hrecordd
    rfl
  rw [hsame, htokend] at htokenc
  cases htokenc
  exact hinv.drawn_once c d _ (drawn_of_owned hownedc) (drawn_of_owned hownedd)

section Moves

variable (hinv : Inv env s) (hlive : s.alive (env.processOf c) = true)

include hinv hlive

/-- Writing the owner record keeps the invariant: the writer alone relied on its absence. -/
theorem Inv.wrote {name : Str}
    {record : Record Content} (hat : s.control c = .renameTemp name record token) (hdir : s.dir = some dir) :
    Inv env ((s.goto c (.lstatAcquired token)).put (some (.directory
      { dir with owner := some (.file record), temps := dir.temps.erase name }))) := by
  have hsettling : (s.control c).settling = true := by rw [hat]; rfl
  have hnone : dir.owner = none :=
    (hinv.relies_on hdir (Inv.engaged_of_settling hsettling)).owner_none hsettling
  refine hinv.moved hlive rfl rfl rfl (fun _ => ⟨_, rfl, record, rfl, (hinv.callers c).written name record token hat⟩)
    (fun d hne h => ?_) nofun nofun (fun other h => hat ▸ h) nofun nofun
  have hother : (s.control d).settling = false := by
    rw [Bool.eq_false_iff]
    exact fun hd => hne (hinv.settling_once d c hd hsettling)
  exact ⟨_, rfl, (hinv.relies_on hdir h).write hother hnone record _⟩

/-- The removal of the marker by the caller that created it keeps the invariant. -/
theorem Inv.unmarked (hat : s.control c = .rmdirMarker ∧ control = .rmdirReclaimed ∨ ∃ failure, s.control c = .dropMarker failure ∧ control = afterReclaim failure)
    (hdir : s.dir = some dir) :
    Inv env ((s.goto c control).put (some (.directory { dir with marker := false }))) := by
  have hmarking : (s.control c).marking = true := by
    rcases hat with ⟨h, _⟩ | ⟨_, h, _⟩ <;> rw [h] <;> rfl
  have hothers : ∀ d, d ≠ c → (s.control d).engaged (s.alive (env.processOf d)) = true →
      (s.control d).Relies env { dir with marker := false } := by
    intro d hne h
    have hother : (s.control d).marking = false := by
      rw [Bool.eq_false_iff]
      exact fun hd => hne (hinv.marking_once d c hd hmarking)
    exact (hinv.relies_on hdir h).unmark hother
  rcases hat with ⟨hat, rfl⟩ | ⟨failure, hat, rfl⟩
  · have hsettling : (s.control c).settling = true := by rw [hat]; rfl
    have hnone := (hinv.relies_on hdir (Inv.engaged_of_settling hsettling)).owner_none hsettling
    exact hinv.moved hlive rfl rfl rfl (fun _ => ⟨_, rfl, hnone⟩) (fun d hne h => ⟨_, rfl, hothers d hne h⟩)
      (fun _ => .inl hsettling) nofun nofun nofun nofun
  · cases failure with
    | _ =>
      exact hinv.moved hlive rfl rfl rfl nofun (fun d hne h => ⟨_, rfl, hothers d hne h⟩) nofun nofun nofun nofun nofun

/-- The removal of a record keeps the invariant when no other caller owns it and no other caller is
about to remove it. -/
theorem Inv.unlinked (hdir : s.dir = some dir) (hrecord : dir.owner ≠ none)
    (hnew : control = .rmdirMarker ∧ (s.control c).marking = true ∧ dir.marker = true ∨ control = .releaseRmdir 0)
    (hothers : ∀ d, d ≠ c → (s.control d).engaged (s.alive (env.processOf d)) = true → (s.control d).owned = none ∧ ∀ observed, s.control d ≠ .unlinkOwner observed) :
    Inv env ((s.goto c control).put (some (.directory { dir with owner := none }))) := by
  have hkeep : ∀ d, d ≠ c → (s.control d).engaged (s.alive (env.processOf d)) = true →
      ∃ same, ((s.goto c control).put (some (.directory { dir with owner := none }))).dir =
        some same ∧ (s.control d).Relies env same := by
    intro d hne h
    obtain ⟨howned, hverified⟩ := hothers d hne h
    exact ⟨_, rfl, (hinv.relies_on hdir h).unlink howned hverified⟩
  have hsettling := hinv.not_settling hdir hrecord
  rcases hnew with ⟨rfl, hmarking, hmarker⟩ | rfl
  · exact hinv.moved hlive rfl rfl rfl (fun _ => ⟨_, rfl, hmarker, rfl⟩) hkeep (fun _ => .inr hsettling)
      (fun _ => .inl hmarking) nofun nofun nofun
  · exact hinv.moved hlive rfl rfl rfl (fun _ => ⟨_, rfl, rfl⟩) hkeep (fun _ => .inr hsettling) nofun nofun nofun nofun

/-- The removal of the empty directory keeps the invariant: only its remover relied on it. -/
theorem Inv.removed (hsettling : (s.control c).settling = true) (hnew : control = .mkdirLock ∨ control = .outside none)
    (hdir : s.dir = some dir) (hempty : dir.isEmpty = true) : Inv env ((s.goto c control).put none) := by
  simp only [LockDir.isEmpty, Bool.and_eq_true, isNone_iff_eq_none, Bool.not_eq_eq_eq_not,
    Bool.not_true, List.isEmpty_iff] at hempty
  obtain ⟨⟨hnone, hmarker⟩, _⟩ := hempty
  have hothers : ∀ d, d ≠ c → (s.control d).engaged (s.alive (env.processOf d)) ≠ true := by
    intro d hne h
    have hrelies := hinv.relies_on hdir h
    have hsettle : (s.control d).settling = false := by
      rw [Bool.eq_false_iff]
      exact fun hd => hne (hinv.settling_once d c hd hsettling)
    have hremoving : (s.control d).removing = false := by
      generalize s.control d = control at hrelies
      cases control <;> first | rfl | exact hrelies.elim
    -- What is left is the owner of a record, but there is no record.
    simp only [engaged, hsettle, hinv.not_marking hdir hmarker d, hremoving, Bool.or_self,
      Bool.false_or, Bool.and_eq_true, isSome_iff_exists] at h
    obtain ⟨_, token, howned⟩ := h
    obtain ⟨record, hrecord, _⟩ := hrelies.hasToken howned
    rw [hnone] at hrecord
    cases hrecord
  exact hinv.rested hlive rfl rfl rfl (hnew.imp_right fun h => ⟨none, h⟩) fun d hne h => absurd h (hothers d hne)

/-- A completed call keeps the invariant. -/
theorem Inv.effect (heffect : Effect env s c next) : Inv env next := by
  cases heffect with
  | quiet control hsettling hmarking hengaged hdrawn hcondemned hrelies =>
    refine hinv.moved hlive rfl rfl rfl (fun h => ?_) (fun d _ => (hinv.callers d).relies) (by simp [hsettling.1])
      (fun h => .inl (hmarking h)) hdrawn hcondemned fun name record token h => ?_
    · obtain ⟨dir, hdir, hold⟩ := hinv.relies_live hlive (hengaged h)
      exact ⟨dir, hdir, hrelies dir hdir hold⟩
    · rw [h] at hsettling
      cases hsettling.1
  | retried attempt hat =>
    have hsettling : (s.control c).settling = true := by rw [hat]; rfl
    obtain ⟨dir, hdir, hrelies⟩ := (hinv.callers c).relies (Inv.engaged_of_settling hsettling)
    refine hinv.moved hlive rfl rfl rfl (fun _ => ⟨dir, hdir, hrelies.owner_none hsettling⟩)
      (fun d _ => (hinv.callers d).relies) (fun _ => .inl hsettling) ?_ ?_ ?_ ?_
    all_goals
      intros
      contradiction
  | stuck control hat hfull hcontrol =>
    exact hinv.rested hlive rfl rfl rfl (.inr hcontrol) fun d _ => (hinv.callers d).relies
  | vanished control hsettling hgone =>
    obtain ⟨dir, hdir, hrelies⟩ := (hinv.callers c).relies (Inv.engaged_of_settling hsettling)
    exact absurd hrelies (hgone dir hdir)
  | discarded failure hat =>
    obtain ⟨dir, hdir, hrelies⟩ := (hinv.callers c).relies (by rw [hat]; rfl)
    rw [hat] at hrelies
    exact hrelies.elim
  | made id hat hfree =>
    -- nobody relied on another directory
    have hidle := hinv.idle_of_free (show s.dir = none by simp [State.dir, hfree])
    refine hinv.moved hlive rfl rfl rfl (fun _ => ⟨_, rfl, rfl⟩) (fun d _ h => ?_) (fun _ => .inr fun d => ?_)
      ?_ ?_ ?_ ?_
    · rw [hidle d] at h
      cases h
    · rw [Bool.eq_false_iff]
      intro h
      simpa [engaged, h] using hidle d
    all_goals
      intros
      contradiction
  | opened details token name id dir hat hdir hfresh => exact hinv.opened hat hdir hfresh
  | wrote name record token dir hat hdir => exact hinv.wrote hlive hat hdir
  | marked observed dir hat hdir hfree =>
    refine hinv.moved hlive rfl rfl rfl (fun _ => ⟨_, rfl, rfl⟩)
      (fun d _ h => ⟨_, rfl, (hinv.relies_on hdir h).mark⟩) ?_ (fun _ => .inr (hinv.not_marking hdir hfree))
      ?_ (fun content h => .inl (hat ▸ h)) ?_
    all_goals
      intros
      contradiction
  | unmarked control dir hat hdir => exact hinv.unmarked hlive hat hdir
  | unlinked control dir record hat hdir hrecord =>
    have hsome : dir.owner ≠ none := by simp [hrecord]
    rcases hat with ⟨⟨observed, hat⟩, rfl⟩ | ⟨⟨lock, hat⟩, rfl⟩
    · have hmarking : (s.control c).marking = true := by rw [hat]; rfl
      have hrelies := hinv.relies_on (d := c) hdir (by rw [hat]; rfl)
      refine hinv.unlinked hlive hdir hsome (.inl ⟨rfl, hmarking, hrelies.marker hmarking⟩) ?_
      intro d hne h
      refine ⟨eq_none_iff_forall_ne_some.mpr fun _ =>
        hinv.verified_unowned hat hdir h, ?_⟩
      intro other hd
      exact hne (hinv.marking_once d c (by rw [hd]; rfl) hmarking)
    · have howned : (s.control c).owned = some lock.token := by rw [hat]; rfl
      have hengaged : (s.control c).engaged (s.alive (env.processOf c)) = true := by
        rw [hlive, hat]; rfl
      refine hinv.unlinked hlive hdir hsome (.inr rfl) ?_
      intro d hne h
      refine ⟨eq_none_iff_forall_ne_some.mpr fun token hd =>
        hne (hinv.owner_once h hengaged hd howned), ?_⟩
      exact fun other hd => hinv.verified_unowned hd hdir hengaged howned
  | removed control dir hat hdir hempty =>
    rcases hat with ⟨hat, rfl⟩ | ⟨⟨attempt, hat⟩, rfl⟩
    · exact hinv.removed hlive (by rw [hat]; rfl) (.inl rfl) hdir hempty
    · exact hinv.removed hlive (by rw [hat]; rfl) (.inr rfl) hdir hempty

end Moves

/-- The death of a process keeps the invariant: what its callers owned is no longer relied on. -/
theorem Inv.die (hinv : Inv env s) (process : Process) :
    Inv env { s with alive := fun p => if p = process then false else s.alive p } := by
  refine { hinv with callers := fun c => { hinv.callers c with
    relies := fun h => (hinv.callers c).relies ?_, condemned_dead := fun content h => ?_ } }
  · by_cases hp : env.processOf c = process
    · simp only [hp, if_true, engaged, Bool.false_and, Bool.or_false] at h
      simp [engaged, h]
    · simpa [hp] using h
  · obtain ⟨token, p, hmem, htoken, hp⟩ := (hinv.callers c).condemned_dead content h
    exact ⟨token, p, hmem, htoken, by simp [hp]⟩

/-- One event keeps the invariant. -/
theorem inv_step [DecidableEq Content] {e : Event} (hinv : Inv env s)
    (hstep : step env s e = some next) : Inv env next := by
  cases e with
  | die process =>
    simp only [step, some.injEq] at hstep
    exact hstep ▸ hinv.die process
  | «at» c act =>
    simp only [step, ite_none_right_eq_some] at hstep
    obtain ⟨hlive, hadvance⟩ := hstep
    exact hinv.effect hlive (effect_of_advance hadvance)

/-! ## Mutual exclusion -/

/-- What `readLockState` returns when nothing changes while it runs. -/
def State.lockState (s : State Content) : LockState Content :=
  match s.lock with
  | none => .missing
  | some (.other _) => .invalid
  | some (.directory dir) => .directory dir.id dir.record

/-- A live caller whose acquisition has returned and whose `assertHeld` succeeds. -/
def State.AssertsHeld (env : Env Content) (s : State Content) (c : Caller) : Prop :=
  s.alive (env.processOf c) = true ∧
    ∃ lock, (s.control c).lock = some lock ∧ s.lockState.holds env lock = true

/-- The caller is in one of the calls of `assertHeld`. -/
def Control.asserting : Control Content → Option Lock
  | .lstatLock (.assertHeld lock _) | .lstatOwner (.assertHeld lock _) _
  | .readOwner (.assertHeld lock _) _ _ => some lock
  | _ => none

/-- A caller that has a lock owns its record. -/
theorem Control.owned_of_lock (h : control.lock = some lock) : control.owned = some lock.token := by
  cases control with
  | lstatAcquired token => cases h
  | _ => exact congrArg (Option.map Lock.token) h

/-- The directory of a caller that has a lock is that lock's. -/
theorem Control.Relies.lockId (h : control.Relies env dir) (hlock : control.lock = some lock) :
    dir.id = lock.lockId := by
  unfold Control.lock at hlock
  split at hlock
  all_goals cases hlock
  · exact h.2
  · exact h.2
  · exact h.2
  · exact h.2.1
  · exact h.2.1

/-- The directory of a live caller that has a lock, and the record in it. -/
theorem Inv.lock_dir (hinv : Inv env s) (hlive : s.alive (env.processOf c) = true)
    (hlock : (s.control c).lock = some lock) :
    ∃ dir record, s.dir = some dir ∧ dir.id = lock.lockId ∧ dir.owner = some (.file record) ∧
      env.tokenOf record.content = some lock.token ∧ (s.control c).Relies env dir := by
  have howned := owned_of_lock hlock
  obtain ⟨dir, hdir, hrelies⟩ :=
    hinv.relies_live hlive (by simp [engaged, howned])
  obtain ⟨record, hrecord, htoken⟩ := hrelies.hasToken howned
  exact ⟨dir, record, hdir, hrelies.lockId hlock, hrecord, htoken, hrelies⟩

/-- A live caller keeps the lock it has. -/
theorem Inv.holds (hinv : Inv env s) (hlive : s.alive (env.processOf c) = true)
    (hlock : (s.control c).lock = some lock) : s.lockState.holds env lock = true := by
  obtain ⟨dir, record, hdir, hid, hrecord, htoken, _⟩ := hinv.lock_dir hlive hlock
  simp [State.lockState, State.dir_eq_some.mp hdir, LockDir.record_eq_some.mpr hrecord,
    LockState.holds, hid, htoken]

/-- No call of `assertHeld` by a live caller that has a lock throws. -/
theorem Inv.asserting [DecidableEq Content] (hinv : Inv env s)
    (hasserting : (s.control c).asserting = some lock) (hstep : step env s (.at c act) = some next) :
    (next.control c).lock = some lock := by
  simp only [step, ite_none_right_eq_some] at hstep
  obtain ⟨hlive, hadvance⟩ := hstep
  have hlock : (s.control c).lock = some lock := by
    generalize s.control c = control at hasserting
    unfold Control.asserting at hasserting
    split at hasserting <;> first | exact hasserting | cases hasserting
  obtain ⟨dir, record, hdir, hid, hrecord, htoken, hrelies⟩ := hinv.lock_dir hlive hlock
  have hread : s.dir.bind LockDir.record = some record := by
    rw [hdir]
    exact LockDir.record_eq_some.mpr hrecord
  generalize hcontrol : s.control c = control at hadvance hasserting hrelies
  unfold Control.asserting at hasserting
  split at hasserting
  all_goals cases hasserting
  -- The three reads of `readLockState`: the directory, the entry of the record, its content.
  · cases act <;> simp only [advance, reduceCtorEq] at hadvance
    rw [State.dir_eq_some.mp hdir] at hadvance
    cases hadvance
    simp [Control.lock]
  · cases act <;> simp only [advance, hread, reduceCtorEq] at hadvance
    cases hadvance
    simp [Control.lock]
  · cases act <;> simp only [advance, hread, reduceCtorEq] at hadvance
    cases hadvance
    have hdirectory := hrelies.2.2
    next releasing _ _ =>
      cases releasing <;>
        simp [Purpose.conclude, LockState.holds, hdirectory, htoken, Control.lock]

/-- Mutual exclusion of the skill export lock, along every run of any callers from any leftover
state of the lock path. At most one live caller has a lock whose `assertHeld` succeeds; a live caller
keeps its lock until it removes the record itself, so `assertHeld` never throws for it; and the
record a reclaimer is about to remove is the one it observed, whose owner is dead. -/
theorem skill_export_lock_exclusive [DecidableEq Content] {s₀ : State Content}
    {events : List Event} (hinit : Initial s₀) (hrun : (machine env).run s₀ events = some s) :
    (∀ c d, s.AssertsHeld env c → s.AssertsHeld env d → c = d) ∧
    (∀ c lock, s.alive (env.processOf c) = true → (s.control c).lock = some lock →
      s.lockState.holds env lock = true) ∧ (∀ c lock act next, (s.control c).asserting = some lock →
      step env s (.at c act) = some next → (next.control c).lock = some lock) ∧
    ∀ c observed, s.control c = .unlinkOwner observed → s.ownerDead env observed.record.content = true ∧
        ∃ dir, s.dir = some dir ∧ dir.Observed observed := by
  have hinv : Inv env s :=
    Machine.invariant_of_follows (fun _ _ _ hs _ hstep => inv_step hs hstep)
      (Machine.follows_of_run_eq hrun) (inv_initial hinit)
  refine ⟨?_, fun c lock => hinv.holds, fun c lock act next => hinv.asserting, ?_⟩
  · intro c d hc hd
    obtain ⟨hlivec, lockc, hlockc, _⟩ := hc
    obtain ⟨hlived, lockd, hlockd, _⟩ := hd
    have hownedc := owned_of_lock hlockc
    have hownedd := owned_of_lock hlockd
    exact hinv.owner_once (by simp [engaged, hownedc, hlivec])
      (by simp [engaged, hownedd, hlived]) hownedc hownedd
  · intro c observed hat
    obtain ⟨dir, hdir, hrelies⟩ := (hinv.callers c).relies (by rw [hat]; rfl)
    rw [hat] at hrelies
    exact ⟨ownerDead_iff.mpr ((hinv.callers c).condemned_dead _ (by rw [hat]; rfl)), dir, hdir, hrelies.2⟩

/-! ## One stale lock -/

/-- Records that are kept as the values they denote. Caller `c` runs in process `c + 10`. -/
def valueEnv : Env Json where
  processOf c := c + 10
  lockPath := "/work/.agents/.ploinky-skill-exports.lock"
  render := id
  ownerOf content := if content.isObject then some content else none
  token_render := fun _ _ => ⟨_, rfl, rfl⟩

/-- The details of the record that a process writes. -/
def detailsOf (process : Process) : OwnerDetails where
  folder := "/work"
  folderId := "1:2"
  executor := .null
  authority := .null
  hostname := "host"
  container := false
  boot := "boot"
  pidNamespace := "pid:[1]"
  pid := process
  start := "linux-proc:7"
  box := .null
  acquiredAt := "2026-01-01T00:00:00.000Z"

/-- Process 10 is gone. -/
def tenGone : Liveness where
  current := ⟨"boot", "pid:[1]"⟩
  alive pid := pid != 10
  start _ := "linux-proc:7"
  ended := none

/-- Process 10 died holding the lock. -/
def staleLock : State Json where
  lock := some (.directory ⟨⟨1, 100⟩,
    some (.file ⟨⟨1, 101⟩, ownerRecord (detailsOf 10) "token-10"⟩), false, []⟩)
  issued := [("token-10", 10)]
  alive process := process != 10
  control _ := .outside none

/-- The calls of one caller from its start to the point where it creates the reclaim marker. -/
def inspectStale (c : Caller) : List Event :=
  [.at c .call, .at c (.makes ⟨1, 0⟩), .at c .proceed, .at c .proceed, .at c .proceed,
    .at c (.classified tenGone)]

/-- The calls from the creation of the marker to the removal of the marker. -/
def reclaimRecord (c : Caller) : List Event :=
  [.at c .proceed, .at c .proceed, .at c .proceed, .at c .proceed, .at c .proceed, .at c .proceed]

/-- The calls from the creation of the directory to the return of `acquireLockDirectory`. -/
def acquireFree (c : Caller) (token : Str) : List Event :=
  [.at c (.makes ⟨1, 200⟩), .at c (.opened (detailsOf (c + 10)) token "tmp" ⟨1, 201⟩),
    .at c .proceed, .at c .proceed]

/-- The stale lock is an initial state. -/
theorem initial_staleLock : Initial staleLock where
  outside _ := rfl
  issued_once token p q hp hq := by
    simp only [staleLock, mem_singleton, Prod.mk.injEq] at hp hq
    rw [hp.2, hq.2]

/-- Callers 1 and 2 both observe the stale record. Caller 1 reclaims and acquires the lock; caller 2 marks
the new directory, reads another record in it and drops its marker. Caller 1 is then the only one whose
`assertHeld` succeeds. -/
theorem stale_lock_acquired_by_one :
    ∃ s, (machine valueEnv).run staleLock (inspectStale 1 ++ inspectStale 2 ++ reclaimRecord 1 ++
        [.at 1 .proceed] ++ acquireFree 1 "token-11" ++ replicate 5 (.at 2 .proceed)) = some s ∧
      s.control 2 = .mkdirLock ∧ s.AssertsHeld valueEnv 1 ∧ ∀ d, s.AssertsHeld valueEnv d → 1 = d := by
  refine ⟨?last, ?run, ?control, ?held, fun d hd =>
    (skill_export_lock_exclusive initial_staleLock ?run).1 1 d ?held hd⟩
  case run => rfl
  case control => rfl
  case held => exact ⟨rfl, _, rfl, by decide +kernel⟩

end Ploinky.Skills.ExportLock
