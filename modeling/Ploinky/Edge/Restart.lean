import Ploinky.Edge.StoreHistory
import Ploinky.Hardware.StoreRepair

/-!
# Restarting an interrupted initialisation

A first run of the initialisation dies at some call, and a second process runs it again. The lock of the
dead process is found stale and the availability store is repaired, wherever the first run died. The
sources are not: they are installed one after the other, and a run that finds some of them but not all
refuses. So the restart succeeds exactly when the first run had installed none of them or all of them.
-/

namespace Ploinky.Edge

open Js Hardware Durable Durable.Prog List

variable {platform : Platform} {admits : Fault Failure → Prop} {s t : Workspace}

/-- The workspace apart from the apply lock. -/
def unlocked (s : Workspace) : Workspace := { s with applyLock := none, lockIds := 0 }

/-- There is no selector and no generation. -/
structure NoEvidence (s : Workspace) : Prop where
  selector : s.selector = none
  topologyCurrent : s.topologyCurrent = false
  generations : s.generations.getD [] = []
  topologyGenerations : s.topologyGenerations.getD [] = []

/-- The lock, the sources and the store are no evidence. -/
theorem NoEvidence.frame (hs : NoEvidence s)
    (h : { s with applyLock := t.applyLock, lockIds := t.lockIds, sources := t.sources, store := t.store } = t) :
    NoEvidence t := by
  rw [← h]
  exact { hs with }

/-- The lock has no part in the sources, the store and the evidence. -/
theorem eq_of_unlocked (h : unlocked t = unlocked s) :
    t.sources = s.sources ∧ t.store = s.store ∧ (NoEvidence s → NoEvidence t) := by
  simp only [unlocked, Workspace.mk.injEq, true_and] at h
  obtain ⟨hsources, hselector, hcurrent, hgenerations, htopology, hstore⟩ := h
  refine ⟨hsources, hstore, fun hs => hs.frame ?_⟩
  rw [← hselector, ← hcurrent, ← hgenerations, ← htopology]

variable (process : Process platform)

/-- The apply lock is free for a process, or provably stale. -/
def LockFree (s : Workspace) : Prop :=
  ∀ record, s.applyLock = some record → record.stale process = true

/-- The second process finds the first one dead, and nothing else changed. -/
def Restarts (first second : Process platform) : Prop :=
  ∀ pid, second.dead pid = (pid == first.pid || first.dead pid)

/-- None of the sources is present. -/
def NoSource (s : Workspace) : Prop := ∀ source, s.sources source = none

/-- All of the sources are present. -/
def AllSources (s : Workspace) : Prop := ∀ source, (s.sources source).isSome = true

/-! ## The store -/

section Store

variable (htext : platform.JsonText) (hdates : platform.DateText) (htexts : StoreTexts platform)
  (hadmits : ∀ fault, admits fault → FileFault fault)

include htext hdates htexts hadmits in
/-- The reconciliation of a usable store completes it. -/
theorem clean_reconcileHardwareAvailabilityStore (process : Process platform) (complete : Bool)
    {s : StoreFiles} (hs : Usable platform s) :
    wp admits (reconcileHardwareAvailabilityStore process complete)
      (.clean admits (Usable platform) fun _ => Complete platform) s := by
  refine wp_bind (wp_imp (clean_sweepHardwareAvailabilityTemps process usable_ofVisible hs) ?_)
  intro _ t ht
  refine wp_bind (clean_inspect_usable ht ?_ ?_ ht)
  · intro witness directory hfound
    cases hfound with
    | blank hblank =>
      have hby : (if complete then lit "upgrade" else lit "fresh") = lit "fresh" ∨
          (if complete then lit "upgrade" else lit "fresh") = lit "upgrade" := by
        cases complete <;> simp
      refine wp_bind (wp_imp (clean_installHardwareAvailabilityStore htext hdates htexts hadmits
        process hby hblank) ?_)
      exact fun _ u hu => wp_pure hu
    | unwitnessed hunwitnessed hstore =>
      refine wp_bind (wp_imp (clean_restoreHardwareAvailabilityWitness htext hdates htexts hadmits
        process hunwitnessed) ?_)
      exact fun _ u hu => wp_pure hu
    | complete hcomplete hsame =>
      exact wp_ite (fun hdiffer => by simp [hsame] at hdiffer) fun _ => wp_pure hcomplete
  · intro hfault found kind problem hinvalid
    rcases hinvalid with rfl | rfl
    · exact clean_raise hfault ht
    · cases found <;> exact clean_raise hfault ht

/-- The reconciliation refuses a store that is not usable, and leaves it so. -/
theorem refuses_reconcile_not_usable (process : Process platform) (complete : Bool) :
    Refuses FileFault (fun t => ¬ Usable platform t) (reconcileHardwareAvailabilityStore process complete) := by
  have hkept : ∀ s t, ¬ Usable platform s → visible t = visible s → ¬ Usable platform t :=
    fun s t hs heq ht => hs (usable_ofVisible t s ht heq.symm)
  have hsweep : Keeps FileFault (fun t => ¬ Usable platform t)
      (sweepHardwareAvailabilityTemps process) :=
    keeps_of_shows hkept fun _ => keeps_sweepHardwareAvailabilityTemps process
  refine hsweep.refuses fun _ t ht => ?_
  refine wp_bind (wp_mono wp_inspectHardwareAvailabilityStore ?_ (fun _ _ hu => hu ▸ ht)
    fun _ hu => hu ▸ ht)
  intro found u hfound
  obtain ⟨rfl, hinspected⟩ := hfound
  match found with
  | (.invalid _, _) => exact wp_raise ht
  | (.absent, .invalid _) | (.valid _, .invalid _) => exact wp_raise ht
  | (.valid _, .absent) => exact wp_raise ht
  | (.absent, .absent) =>
    exact absurd (.inl ⟨hinspected.witnessAbsent rfl, hinspected.directoryAbsent rfl⟩) ht
  | (.absent, .valid document) =>
    exact absurd (usable_of_policyIs (hinspected.witnessAbsent rfl) (hinspected.directoryValid document rfl)) ht
  | (.valid found, .valid document) =>
    refine wp_ite (fun _ => wp_bind (wp_raise ht)) fun hsame => ?_
    refine absurd (.inr (.inr ⟨document, found, hinspected.directoryValid document rfl,
      hinspected.witnessValid found rfl, ?_⟩)) ht
    simpa using hsame

end Store

/-! ## The first run -/

/-- A lock that the restarted process can take was one it could take before the first run. -/
theorem framed_lockFree {first second : Process platform} (hrestart : Restarts first second)
    (htext : platform.JsonText) (hdates : platform.DateText) (htexts : StoreTexts platform) :
    Framed first fun s => LockFree second s ∧ NoEvidence s ∧ Usable platform s.store where
  lockIds := fun _ _ hs => ⟨hs.1, hs.2.1.frame rfl, hs.2.2⟩
  link := by
    intro s lockId hs
    refine ⟨?_, hs.2.1.frame rfl, hs.2.2⟩
    intro record hrecord
    cases hrecord
    have hdead : second.dead first.pid = true := by simp [hrestart first.pid]
    have hsafe := first.pid_safe
    simp only [LockRecord.stale, hdead, Bool.and_true, Bool.and_eq_true, decide_eq_true_eq]
    omega
  unlink := fun _ hs => ⟨nofun, hs.2.1.frame rfl, hs.2.2⟩
  source := fun _ _ _ hs => ⟨hs.1, hs.2.1.frame rfl, hs.2.2⟩
  selector := fun _ hs => ⟨hs.1, ⟨rfl, hs.2.1.2, hs.2.1.3, hs.2.1.4⟩, hs.2.2⟩
  store := by
    intro complete s hs
    have hstore := clean_reconcileHardwareAvailabilityStore htext hdates htexts (fun _ h => h) first
      complete hs.2.2
    refine wp_zoom (wp_mono hstore ?_ ?_ ?_)
    · exact fun _ t ht => ⟨hs.1, hs.2.1.frame rfl, .inr (.inr ht)⟩
    · exact fun _ t ht => ⟨hs.1, hs.2.1.frame rfl, ht.2⟩
    · exact fun t ht => ⟨hs.1, hs.2.1.frame rfl, ht.2⟩

/-- A store that is not usable stays so. -/
theorem framed_not_usable :
    Framed process (OfStore fun s => ¬ Usable platform s) :=
  framed_ofStore fun complete => (refuses_reconcile_not_usable process complete).keeps

/-- The lock is held by the given record. -/
abbrev Held (record : LockRecord) (s : Workspace) : Prop := s.applyLock = some record

variable {record : LockRecord} {q : Post Workspace Failure Unit}

/-- A turn that finds a lock that is not stale fails and leaves the lock. -/
theorem refuses_acquireTurn_held (first : Bool)
    (hlive : record.stale process = false) : Refuses FileFault (Held record) (acquireTurn process first) := by
  -- the link fails, and the probe finds the lock live
  have hreclaim : Refuses FileFault (Held record) (reclaimApplyLock process first) := by
    intro t ht
    refine wp_bind (wp_attempt (wp_ask (fun stale hfound => ?_) (fun _ => wp_ret (wp_raise ht)) ht))
    have hstale : t.applyLock.any (·.stale process) = false := by simp [ht, hlive]
    cases hfound
    rw [hstale]
    exact wp_raise ht
  have hattempt (lockId : Nat) : Refuses FileFault (Held record) (linkOrReclaim process first lockId) :=
    fun t ht => wp_attempt (wp_bind (wp_call_error (if_pos (by simp [ht]))
      (fun _ => wp_ite (fun _ => hreclaim t ht) fun _ => wp_raise ht) ht))
  refine keeps_look.refuses fun lockId => Keeps.refuses (keeps_alter fun _ hs => hs) fun _ => ?_
  refine keeps_writeDurableTemp.refuses fun _ => ((hattempt lockId).attempt fun error => ?_).bind
  exact keeps_removeDurableTemp.refuses fun _ => refuses_raise

/-- The lock is not acquired from a live owner. -/
theorem refuses_initialize_held (hlive : record.stale process = false) :
    Refuses FileFault (Held record) (initializeFreshEdgeRoutingSources process) :=
  (keeps_unobserved.refuses fun _ => (refuses_acquireTurn_held process true hlive).bind).bind

/-! ## The second run -/

section Restart

variable {s : Workspace}

theorem faultless_unobserved (h : q.returns () s) : wp Faultless unobserved q s := faultless_effect h

theorem faultless_writeDurableTemp (h : q.returns () s) : wp Faultless writeDurableTemp q s := by
  refine wp_bind (faultless_unobserved (wp_attempt ?_))
  iterate 4 refine wp_bind (faultless_unobserved ?_)
  exact faultless_unobserved h

theorem faultless_removeDurableTemp (h : q.returns () s) :
    wp Faultless removeDurableTemp q s := wp_bind (faultless_unobserved (faultless_unobserved h))

/-- A turn that finds no lock acquires it. -/
theorem faultless_acquireTurn_free (process : Process platform) (first : Bool)
    {q : Post Workspace Failure (Option Nat)} (hs : s.applyLock = none)
    (h : ∀ lockId t, unlocked t = unlocked s → q.returns (some lockId) t) :
    wp Faultless (acquireTurn process first) q s := by
  refine wp_bind (wp_look (wp_bind (wp_alter ?_)))
  refine wp_bind (faultless_writeDurableTemp (wp_bind (wp_attempt (wp_attempt (wp_bind ?_)))))
  refine faultless_call (v := ()) (t := { s with
    applyLock := some (.owner process.pid s.lockIds)
    lockIds := s.lockIds + 1 }) (by simp [hs]) ?_
  refine wp_bind (faultless_unobserved (wp_pure ?_))
  exact wp_bind (wp_attempt (faultless_removeDurableTemp (wp_pure (h _ _ rfl))))

/-- A first turn that finds a stale lock removes it. -/
theorem faultless_acquireTurn_stale (process : Process platform) {q : Post Workspace Failure (Option Nat)}
    (hs : s.applyLock = some record) (hstale : record.stale process = true)
    (h : ∀ t, t.applyLock = none → unlocked t = unlocked s → q.returns none t) :
    wp Faultless (acquireTurn process true) q s := by
  refine wp_bind (wp_look (wp_bind (wp_alter ?_)))
  refine wp_bind (faultless_writeDurableTemp (wp_bind (wp_attempt (wp_attempt (wp_bind ?_)))))
  refine faultless_error (if_pos (by simp [hs])) (wp_ite (fun _ => ?_) fun hother => absurd rfl hother)
  refine wp_bind (wp_attempt (faultless_ask (v := true) (by simp [hs, hstale]) ?_))
  refine wp_attempt (wp_bind (faultless_effect ?_))
  refine wp_bind (faultless_unobserved (wp_pure ?_))
  exact wp_bind (wp_attempt (faultless_removeDurableTemp (wp_pure (h _ rfl rfl))))

/-- The lock is acquired when it is free or stale. -/
theorem faultless_acquireApplyLock (process : Process platform) {q : Post Workspace Failure Nat}
    (hs : LockFree process s) (h : ∀ lockId t, unlocked t = unlocked s → q.returns lockId t) :
    wp Faultless (acquireApplyLock process) q s := by
  refine wp_bind (faultless_unobserved ?_)
  cases hlock : s.applyLock with
  | none =>
    refine wp_bind (faultless_acquireTurn_free process true hlock fun lockId t ht => ?_)
    exact wp_pure (h lockId t ht)
  | some record =>
    refine wp_bind (faultless_acquireTurn_stale process hlock (hs record hlock) fun t hfree ht => ?_)
    refine wp_bind (faultless_acquireTurn_free process false hfree fun lockId u hu => ?_)
    exact wp_pure (h lockId u (hu.trans ht))

/-- A file that is looked for is found as it is. -/
theorem faultless_existsSync {file : Workspace → Bool} {q : Post Workspace Failure Bool}
    (h : q.returns (file s) s) : wp Faultless (existsSync file) q s :=
  wp_attempt (faultless_ask rfl h)

theorem faultless_presentSources (sources : List EdgeSource) {q : Post Workspace Failure (List Bool)}
    (h : q.returns (sources.map fun source => (s.sources source).isSome) s) :
    wp Faultless (presentSources sources) q s := by
  induction sources generalizing q with
  | nil => exact wp_pure h
  | cons source rest ih =>
    exact wp_bind (faultless_existsSync (wp_bind (ih (wp_pure h))))

/-- Without a selector there is no tombstone to discard. -/
theorem faultless_discardEmptyDestroyTombstone {present : List Bool} {q : Post Workspace Failure Bool}
    (hs : s.selector = none) (h : q.returns false s) :
    wp Faultless (discardEmptyDestroyTombstone platform present) q s := by
  refine wp_ite (fun _ => wp_pure h) fun _ => ?_
  refine wp_bind (wp_attempt (faultless_ask (v := none) ?_ (wp_pure h)))
  simp [hs, readSelector]

/-- Without generations there is no evidence of one. -/
theorem faultless_hasPersistedGenerationEvidence {q : Post Workspace Failure Bool} (hs : NoEvidence s)
    (h : q.returns false s) : wp Faultless hasPersistedGenerationEvidence q s := by
  have hlisting : ∀ {directory : Workspace → Option (List Str)} {q : Post Workspace Failure (List Str)},
      (directory s).getD [] = [] → q.returns [] s → wp Faultless (evidenceListing directory) q s :=
    fun hempty hq => wp_attempt (faultless_ask (v := []) (by simp [hempty]) hq)
  refine wp_bind (faultless_existsSync ?_)
  rw [hs.selector]
  refine wp_bind (faultless_existsSync ?_)
  rw [hs.topologyCurrent]
  refine wp_bind (hlisting hs.generations ?_)
  exact wp_bind (hlisting hs.topologyGenerations (wp_pure h))

/-- A source that is absent is installed. -/
theorem faultless_installSource (source : EdgeSource) (hs : s.sources source = none)
    (h : q.returns () { s with sources := Function.update s.sources source (some (source.emptyBytes platform)) }) :
    wp Faultless (installSource platform source) q s := by
  refine wp_bind (faultless_writeDurableTemp (wp_finallyDo (wp_attempt (wp_bind ?_))))
  refine faultless_call (v := ()) (t := { s with
    sources := Function.update s.sources source (some (source.emptyBytes platform)) })
    (by simp [hs]) ?_
  exact faultless_unobserved (faultless_removeDurableTemp h)

/-- When no source is present, all of them are installed. -/
theorem faultless_installSources (hs : NoSource s)
    (h : ∀ t, AllSources t → t.store = s.store → q.returns () t) :
    wp Faultless (forEach edgeSources (installSource platform)) q s := by
  -- the sources before the current one are present, the others are absent
  refine wp_forEach (I := fun rest t => (∀ source ∈ rest, t.sources source = none) ∧ rest.Nodup ∧
    (∀ source ∉ rest, (t.sources source).isSome = true) ∧ t.store = s.store)
    ⟨fun source _ => hs source, by decide, fun source hmem => absurd (mem_edgeSources source) hmem, rfl⟩
    ?_ fun t ht => h t (fun source => ht.2.2.1 source (by simp)) ht.2.2.2
  intro source rest t ht
  obtain ⟨habsent, hnodup, hpresent, hstore⟩ := ht
  obtain ⟨hnot, hrest⟩ := nodup_cons.mp hnodup
  refine faultless_installSource source (habsent source (.head _)) ⟨?_, hrest, ?_, hstore⟩
  · intro other hother
    have hne : other ≠ source := fun heq => hnot (heq ▸ hother)
    simp [Function.update_of_ne hne, habsent other (.tail _ hother)]
  · intro other hother
    by_cases heq : other = source
    · simp [heq]
    · simp [Function.update_of_ne heq, hpresent other (by simp [heq, hother])]

/-- The release of the lock touches nothing else. -/
theorem faultless_releaseApplyLock (lockId : Nat) (h : ∀ t, unlocked t = unlocked s → q.returns () t) :
    wp Faultless (releaseApplyLock lockId) q s := by
  refine wp_attempt (wp_bind (faultless_ask rfl ?_))
  match s.applyLock with
  | some (.owner _ current) =>
    refine wp_ite (fun _ => ?_) fun _ => wp_pure (h s rfl)
    exact wp_bind (faultless_effect (faultless_unobserved (h _ rfl)))
  | some .unreadable | none => exact wp_pure (h s rfl)

end Restart

/-! ## The restart -/

/-- Which sources are present. -/
def presence (s : Workspace) : List Bool := edgeSources.map fun source => (s.sources source).isSome

theorem presence_all : (presence s).all id = true ↔ AllSources s := by
  simp [presence, AllSources, mem_edgeSources]

theorem presence_any : (presence s).any id = false ↔ NoSource s := by
  simp [presence, NoSource, mem_edgeSources]

section Main

variable (htext : platform.JsonText) (hdates : platform.DateText) (htexts : StoreTexts platform)
  {s : Workspace} (process : Process platform)

include htext hdates htexts in
/-- A run from a lock that can be taken, a usable store and all or none of the sources. -/
theorem faultless_completes (hlock : LockFree process s)
    (hevidence : NoEvidence s) (hstore : Usable platform s.store) (hsources : NoSource s ∨ AllSources s) :
    wp Faultless (initializeFreshEdgeRoutingSources process)
      (.clean Faultless (fun _ => True) fun _ t => AllSources t ∧ Complete platform t.store) s := by
  refine wp_bind (faultless_acquireApplyLock process hlock fun lockId t ht => wp_finallyDo ?_)
  obtain ⟨hsources_eq, hstore_eq, hevidence_of⟩ := eq_of_unlocked ht
  have hevidence_t := hevidence_of hevidence
  -- what is established survives the release of the lock
  have hrelease : ∀ u, AllSources u ∧ Complete platform u.store →
      wp Faultless (releaseApplyLock lockId)
        (.clean Faultless (fun _ => True) fun _ v => AllSources v ∧ Complete platform v.store) u := by
    intro u hu
    refine faultless_releaseApplyLock lockId fun v hv => ?_
    obtain ⟨hvs, hvstore, -⟩ := eq_of_unlocked hv
    refine ⟨fun source => ?_, ?_⟩
    · rw [hvs]
      exact hu.1 source
    · rw [hvstore]
      exact hu.2
  have hreconcile : ∀ complete {q : Post Workspace Failure StoreOutcome},
      (∀ outcome store, Complete platform store → q.returns outcome { t with store }) →
      wp Faultless (onStore (reconcileHardwareAvailabilityStore process complete)) q t := by
    intro complete q hq
    have husable : Usable platform t.store := by
      rw [hstore_eq]
      exact hstore
    refine wp_zoom (wp_mono (clean_reconcileHardwareAvailabilityStore htext hdates htexts
      (fun _ h => h.elim) process complete husable) (fun outcome store hu => hq outcome store hu) ?_ ?_)
    · exact fun _ _ hu => hu.1.elim fun _ h => h.elim
    · exact fun _ hu => hu.1.elim fun _ h => h.elim
  refine wp_bind (faultless_presentSources edgeSources ?_)
  refine wp_bind (faultless_discardEmptyDestroyTombstone hevidence_t.selector (wp_bind (wp_pure ?_)))
  show wp Faultless (initializeSources process (presence t)) _ t
  rcases hsources with hnone | hall
  · have hnone_t : NoSource t := fun source => by rw [hsources_eq]; exact hnone source
    have hany := presence_any.mpr hnone_t
    have hincomplete : (presence t).all id = false := by
      rw [Bool.eq_false_iff]
      intro htrue
      have hrouting := presence_all.mp htrue .routing
      rw [hnone_t .routing] at hrouting
      cases hrouting
    refine wp_bind (wp_ite (fun h => by rw [hincomplete] at h; cases h) fun _ => ?_)
    refine wp_ite (fun h => by rw [hany] at h; cases h) fun _ => ?_
    refine faultless_hasPersistedGenerationEvidence hevidence_t ?_
    refine wp_bind (hreconcile _ fun outcome store hcomplete => ?_)
    refine wp_ite (fun h => by rw [hincomplete] at h; cases h) fun _ => ?_
    refine wp_bind (faultless_installSources hnone_t fun u hu hustore => wp_pure (hrelease u ⟨hu, ?_⟩))
    rw [hustore]
    exact hcomplete
  · have hall_t : AllSources t := fun source => by rw [hsources_eq]; exact hall source
    have hcomplete := presence_all.mpr hall_t
    refine wp_bind (wp_ite (fun _ => wp_pure ?_) fun h => absurd hcomplete h)
    refine wp_bind (hreconcile _ fun outcome store hstored => ?_)
    exact wp_ite (fun _ => wp_pure (hrelease _ ⟨hall_t, hstored⟩)) fun h => absurd hcomplete h

/-- A run that finds some of the sources but not all does not return. -/
theorem faultless_refuses_incomplete
    (hselector : NoEvidence s) (hnone : ¬ NoSource s) (hall : ¬ AllSources s) :
    wp Faultless (initializeFreshEdgeRoutingSources process)
      ⟨fun _ _ => False, fun _ _ => True, fun _ => True⟩ s := by
  have hlock : LockFramed process fun t => unlocked t = unlocked s :=
    ⟨fun _ _ ht => ht, fun _ _ ht => ht, fun _ ht => ht⟩
  refine wp_bind (wp_mono (fun faults hnone => hlock.acquireApplyLock s rfl faults fun fault hmem =>
    (hnone fault hmem).elim) ?_ (fun _ _ _ => trivial) fun _ _ => trivial)
  intro lockId t ht
  obtain ⟨hsources, -, hevidence⟩ := eq_of_unlocked ht
  have hany : (presence t).any id = true := by
    rw [← Bool.not_eq_false]
    intro hfalse
    exact hnone fun source => by rw [← hsources]; exact presence_any.mp hfalse source
  have hincomplete : (presence t).all id = false := by
    rw [Bool.eq_false_iff]
    intro htrue
    exact hall fun source => by rw [← hsources]; exact presence_all.mp htrue source
  refine wp_finallyDo (wp_bind (faultless_presentSources edgeSources ?_))
  refine wp_bind (faultless_discardEmptyDestroyTombstone (hevidence hselector).selector
    (wp_bind (wp_pure ?_)))
  show wp Faultless (initializeSources process (presence t)) _ t
  refine wp_bind (wp_ite (fun h => by rw [hincomplete] at h; cases h) fun _ => ?_)
  refine wp_ite (fun _ => wp_pure (wp_bind (wp_raise ?_))) fun h => absurd hany h
  exact faultless_releaseApplyLock lockId fun _ _ => trivial

/-- A run that finds a store it cannot use does not return. -/
theorem refuses_initialize_not_usable :
    Refuses FileFault (OfStore fun t => ¬ Usable platform t) (initializeFreshEdgeRoutingSources process) := by
  have hframed := framed_not_usable process
  -- the store stays as it is until the reconciliation refuses it
  have hsources (present : List Bool) : Refuses FileFault (OfStore fun t => ¬ Usable platform t)
      (initializeSources process present) := by
    have hincomplete : Keeps FileFault (OfStore fun u => ¬ Usable platform u) (isPartial present) :=
      keeps_ite keeps_pure (keeps_ite keeps_pure keeps_hasPersistedGenerationEvidence)
    have hreconcile : Refuses FileFault (OfStore fun u => ¬ Usable platform u)
        (onStore (reconcileHardwareAvailabilityStore process (present.all id))) := fun u hu =>
      wp_zoom (refuses_reconcile_not_usable process (present.all id) u.store hu)
    exact hincomplete.refuses fun _ t ht => wp_ite (fun _ => refuses_raise.bind t ht) fun _ => hreconcile.bind t ht
  refine hframed.acquireApplyLock.refuses fun lockId =>
    Refuses.finallyDo ?_ (hframed.releaseApplyLock lockId)
  refine (keeps_presentSources edgeSources).refuses fun present => ?_
  refine (hframed.discardEmptyDestroyTombstone present).refuses fun discarded => ?_
  exact (keeps_ite (keeps_presentSources _) keeps_pure).refuses fun again => hsources again

/-- A lock that is stale for the first process is stale for the second. -/
theorem stale_of_restarts {first second : Process platform} (hrestart : Restarts first second)
    (h : record.stale first = true) : record.stale second = true := by
  cases record with
  | unreadable => cases h
  | owner pid lockId =>
    simp only [LockRecord.stale, Bool.and_eq_true] at h ⊢
    exact ⟨h.1, by simp [hrestart pid, h.2]⟩

/-- What the second process finds after a first run that may have died anywhere. -/
abbrev left (first : Process platform) (s : Workspace) (faults : List (Fault Failure)) : Workspace :=
  (initializeFreshEdgeRoutingSources first s faults).state

/-- The initialisation returns and leaves all sources and a store that can be read. -/
def Initializes (s : Workspace) : Prop :=
  (∃ result, (initializeFreshEdgeRoutingSources process s []).outcome = .returned result) ∧
    AllSources (left process s []) ∧
      ∃ snapshot, Reads process (left process s []).store snapshot ∧ snapshot.isValid = true

include htext hdates htexts in
/-- The initialisation can be restarted exactly when the first run found a lock that could be taken and
a store that could be read, and had installed all of the sources or none. -/
theorem restart_initializes_iff (first second : Process platform) (hrestart : Restarts first second)
    (s : Workspace) (hevidence : NoEvidence s) (faults : List (Fault Failure))
    (hfaults : ∀ fault ∈ faults, FileFault fault) : Initializes second (left first s faults) ↔
      LockFree second s ∧ (∃ snapshot, Reads first s.store snapshot) ∧
        (NoSource (left first s faults) ∨ AllSources (left first s faults)) := by
  have hframed := framed_lockFree hrestart htext hdates htexts
  constructor
  · rintro ⟨⟨result, hreturned⟩, -, -⟩
    -- a post that excludes a return contradicts the run
    have hno : ∀ {admits : Fault Failure → Prop} {throws : Failure → Workspace → Prop} {dies : Workspace → Prop},
        ¬ wp admits (initializeFreshEdgeRoutingSources second) ⟨fun _ _ => False, throws, dies⟩
          (left first s faults) := fun hwp => (wp_calm hwp).returned hreturned
    have hlock : LockFree second s := by
      intro record hrecord
      by_contra hlive
      rw [Bool.not_eq_true] at hlive
      have hfirst : record.stale first = false := by
        rw [← Bool.not_eq_true]
        intro hstale
        rw [stale_of_restarts hrestart hstale] at hlive
        cases hlive
      have hheld := (refuses_initialize_held first hfirst).keeps.run hrecord hfaults
      exact hno (refuses_initialize_held second hlive _ hheld)
    have husable : Usable platform s.store := by
      by_contra hunusable
      have hkept := (framed_not_usable first).initializeFreshEdgeRoutingSources.run hunusable hfaults
      exact hno (refuses_initialize_not_usable second _ hkept)
    have hleft := hframed.initializeFreshEdgeRoutingSources.run ⟨hlock, hevidence, husable⟩ hfaults
    refine ⟨hlock, reads_of_usable first husable, ?_⟩
    by_contra hincomplete
    rw [not_or] at hincomplete
    exact hno (faultless_refuses_incomplete second hleft.2.1 hincomplete.1 hincomplete.2)
  · rintro ⟨hlock, ⟨snapshot, hreads⟩, hsources⟩
    have hleft := hframed.initializeFreshEdgeRoutingSources.run
      ⟨hlock, hevidence, usable_of_reads hreads⟩ hfaults
    obtain ⟨result, hreturned, hall, hcomplete⟩ := faultless_run
      (faultless_completes htext hdates htexts second hleft.1 hleft.2.1 hleft.2.2 hsources)
    exact ⟨⟨result, hreturned⟩, hall, reads_of_complete second hcomplete⟩

end Main

/-! ## A run that cannot be restarted -/

theorem interrupted_pid_safe : 1 ≤ 1 ∧ 1 < 2 ^ 53 := by decide

theorem restarted_pid_safe : 1 ≤ 2 ∧ 2 < 2 ^ 53 := by decide

/-- The first process. -/
def interrupted : Process Plain.platform := plainProcess 1 interrupted_pid_safe fun _ => false

/-- The process that restarts it. -/
def restarted : Process Plain.platform := plainProcess 2 restarted_pid_safe (· == 1)

theorem restarts_interrupted : Restarts interrupted restarted := fun pid => by
  simp [interrupted, restarted, plainProcess]

/-- The first process dies right after it linked the first source, the 55th call of its run. -/
def afterFirstSource : List (Fault Failure) := replicate 54 .pass ++ [.dieAfter]

theorem restart_refuses_own_state :
    NoSource emptyWorkspace ∧ NoEvidence emptyWorkspace ∧ Restarts interrupted restarted ∧
      (initializeFreshEdgeRoutingSources interrupted emptyWorkspace afterFirstSource).outcome = .died ∧
      (initializeFreshEdgeRoutingSources restarted
        (left interrupted emptyWorkspace afterFirstSource) []).outcome =
        .threw (incompleteSources [true, false, false, false]) := by
  refine ⟨fun _ => rfl, ⟨rfl, rfl, rfl, rfl⟩, restarts_interrupted, ?_, ?_⟩ <;> rfl

/-- The texts of the concrete platform are short. -/
theorem plain_storeTexts : StoreTexts Plain.platform where
  digest := by
    intro bytes
    simpa [isHex, Plain.platform] using Plain.digest_hex bytes
  witness := by
    intro storeId ms now initializedBy hstore hnow hby
    have hid : storeId.length = 32 := by
      simp only [isStoreId, isHex, Bool.and_eq_true, beq_iff_eq] at hstore
      exact hstore.1
    have htime : now.length = 24 := by
      simp only [Plain.platform] at hnow
      split_ifs at hnow with hrange
      cases hnow
      obtain ⟨hlow, hhigh⟩ := hrange
      interval_cases ms <;> rfl
    have hbound : initializedBy.length ≤ 8 := by
      simp only [witnessInitializers, mem_cons, not_mem_nil, or_false] at hby
      rcases hby with rfl | rfl | rfl <;> decide
    refine (Plain.length_prettyJson_le (written_witnessDocument rfl now)).trans ?_
    have hquote := Plain.length_quote_le
    have hkeys := And.intro (And.intro (hquote "schema") (hquote "storeId")) (And.intro (hquote "initializedAt") (hquote "initializedBy"))
    have hvalues := And.intro (hquote storeId) (And.intro (hquote now) (hquote initializedBy))
    simp [witnessDocument, Plain.render, Plain.renderFields, Plain.keyText, Plain.pad, maxWitnessBytes, lit] at hkeys ⊢
    omega
  policy := by
    intro storeId hstore
    have hid : storeId.length = 32 := by
      simp only [isStoreId, isHex, Bool.and_eq_true, beq_iff_eq] at hstore
      exact hstore.1
    have hquote := Plain.length_quote_le
    have hlong : ∀ revision : Str, revision.length = 71 →
        4 * (Plain.render true 0 (.obj [("schema", .str policySchema), ("storeId", .str storeId), ("entries", .obj []),
          ("slots", .obj []), ("revision", .str revision)])).length + 4 ≤ maxPolicyBytes := by
      intro revision hrevision
      have hkeys := And.intro (And.intro (hquote "schema") (hquote "storeId")) (And.intro (hquote "entries") (And.intro (hquote "slots") (hquote "revision")))
      have hvalues := And.intro (hquote storeId) (And.intro (hquote policySchema) (hquote revision))
      simp [Plain.render, Plain.renderFields, Plain.keyText, Plain.pad, maxPolicyBytes, lit, policySchema] at hkeys hvalues ⊢
      omega
    refine (Plain.length_prettyJson_le (written_policy _ (.str storeId) (.obj []) (.obj []) _)).trans (hlong _ ?_)
    simp [(Plain.digest_hex _).1, lit, computeHardwareAvailabilityRevision, Plain.platform]

/-- The first process dies right after it acquired the lock, before it installed any source. -/
def afterLock : List (Fault Failure) := replicate 7 .pass ++ [.dieAfter]

theorem restart_initializes_after_lock : Initializes restarted (left interrupted emptyWorkspace afterLock) :=
  (restart_initializes_iff Plain.jsonText Plain.dateText plain_storeTexts interrupted restarted
    restarts_interrupted emptyWorkspace ⟨rfl, rfl, rfl, rfl⟩ afterLock (by
      simp [afterLock, FileFault])).mpr
    ⟨nofun, reads_of_usable interrupted (.inl ⟨rfl, rfl⟩), .inl fun _ => rfl⟩

end Ploinky.Edge
