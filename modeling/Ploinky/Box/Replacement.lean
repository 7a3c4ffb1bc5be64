import Ploinky.Box.Transaction

/-!
# A failed replacement and a failed rollback

Which scripts let a failed replacement restore the old Box and report it, and which scripts let a
sequence of calls of the rollback recover.
-/

namespace Ploinky.Box

open Ploinky Js Durable Durable.Prog List

/-- The scripted calls go through. -/
def Passes (s : Txn) (sites : List Site) : Prop := ∀ site ∈ sites, s.script site = .pass

instance (s : Txn) (sites : List Site) : Decidable (Passes s sites) :=
  inferInstanceAs (Decidable (∀ site ∈ sites, s.script site = .pass))

variable {s : Txn}

theorem passes_nil : Passes s [] := fun _ h => nomatch h

theorem passes_cons {site : Site} {sites : List Site} :
    Passes s (site :: sites) ↔ s.script site = .pass ∧ Passes s sites := forall_mem_cons

/-- No call of a transaction dies or fails outside its script. -/
abbrev Meets {α : Type} (p : Step α) (R : α → Txn → Prop) (E : Failure → Txn → Prop) (s : Txn) : Prop :=
  wp (fun _ => False) p ⟨R, E, fun _ => False⟩ s

theorem meets_mono {α : Type} {p : Step α} {R R' : α → Txn → Prop} {E E' : Failure → Txn → Prop}
    (h : Meets p R E s) (hreturns : ∀ value t, R value t → R' value t)
    (hthrows : ∀ error t, E error t → E' error t) : Meets p R' E' s :=
  wp_mono h hreturns hthrows fun _ h => h

variable {id : Id} {f : Container → Txn → Txn} {R : Unit → Txn → Prop} {E : Failure → Txn → Prop} {part : CreateCall → Site}
  {contract : Contract} {t : Txn} {old : OldBox} {plan : Plan} {container : Container}

theorem actOn_found (hpresence : s.presence = .owned container)
    (hid : container.id = id) : actOn id f s = .ok ((), f container s) := by
  unfold actOn
  rw [hpresence]
  exact if_pos hid

theorem actOn_missing (hno : ∀ container, s.presence = .owned container → container.id ≠ id) :
    actOn id f s = .error noSuchContainer := by
  unfold actOn
  cases hpresence : s.presence with
  | owned container => exact if_neg (hno container hpresence)
  | absent | other => rfl

section Calls

variable {s : Txn} {site : Site}

/-- A call that reads the state. -/
theorem meets_read {α : Type} {f : Txn → α} {R : α → Txn → Prop} (hpass : s.script site = .pass → R (f s) s)
    (hfail : s.script site ≠ .pass → ∀ error, E error s) :
    Meets (callAt site fun s => .ok (f s, s)) R E s := by
  refine wp_scripted ?_ ?_ ?_ ?_
  · intro h _ _ heq
    cases heq
    exact hpass h
  · intro _ _ heq
    cases heq
  · intro error h
    exact hfail (Reply.ne_pass_of_throwBefore h) error
  · intro error h
    exact hfail (Reply.ne_pass_of_throwAfter h) error

/-- A check goes through, or it was scripted to fail. -/
theorem meets_check (hpass : s.script site = .pass → R () s)
    (hfail : s.script site ≠ .pass → ∀ error, E error s) : Meets (check site) R E s :=
  meets_read (f := fun _ => ()) hpass hfail

/-- An action on a container takes place, takes place and throws, or does nothing. -/
theorem meets_onContainer
    (hpass : s.script site = .pass → ∀ container, s.presence = .owned container → container.id = id → R () (f container s))
    (hnone : ((∃ error, s.script site = .throwBefore error) ∨ ∀ container, s.presence = .owned container → container.id ≠ id) → ∀ error, E error s)
    (hafter : ∀ error, s.script site = .throwAfter error → ∀ container, s.presence = .owned container → container.id = id → E error (f container s)) :
    Meets (onContainer site id f) R E s := by
  by_cases hthere : ∃ container, s.presence = .owned container ∧ container.id = id
  · obtain ⟨container, hpresence, hid⟩ := hthere
    refine wp_scripted ?_ ?_ ?_ ?_
    · intro h _ _ heq
      cases (actOn_found hpresence hid).symm.trans heq
      exact hpass h container hpresence hid
    · intro _ _ heq
      cases (actOn_found hpresence hid).symm.trans heq
    · intro error h
      exact hnone (.inl ⟨error, h⟩) error
    · intro error h
      rw [actOn_found hpresence hid]
      exact hafter error h container hpresence hid
  · have hno : ∀ container, s.presence = .owned container → container.id ≠ id :=
      fun container hpresence hid => hthere ⟨container, hpresence, hid⟩
    refine wp_scripted ?_ ?_ ?_ ?_
    · intro _ _ _ heq
      cases (actOn_missing hno).symm.trans heq
    · intro _ error _
      exact hnone (.inr hno) error
    · intro error _
      exact hnone (.inr hno) error
    · intro error _
      rw [actOn_missing hno]
      exact hnone (.inr hno) error

/-- A local source is refused. -/
theorem meets_refuseLocalCandidate (hpass : s.script site = .pass → s.localCandidate = false → R () s)
    (hfail : ¬ (s.script site = .pass ∧ s.localCandidate = false) → ∀ error, E error s) :
    Meets (refuseLocalCandidate site) R E s := by
  refine wp_bind (meets_read (fun h => ?_) fun h error => hfail (fun hp => h hp.1) error)
  refine wp_whenDo (fun hfound => wp_raise (hfail ?_ _)) fun hnone => hpass h (by simpa using hnone)
  rintro ⟨_, hfalse⟩
  rw [hfound] at hfalse
  cases hfalse

end Calls

/-! ## Creating a Box -/

/-- Nothing but the container and the IDs given out differs. -/
def Frame (s t : Txn) : Prop :=
  ∃ presence issued, t = { s with presence := presence, issued := issued }

/-- The calls before a container is attempted go through. -/
def Opens (part : CreateCall → Site) (contract : Contract) (restoring : Bool) (s : Txn) : Prop :=
  Passes s [part .assertHeld, part .revalidateDataPaths, part .resolveDataSources, part .discover,
    part .retireStartLock, part .retireEdgePreparation, part .cleanCidfile] ∧
  s.sameEngine = true ∧
  (restoring = false ∧ contract.agentLib = .image →
    s.script (part .localCandidate) = .pass ∧ s.localCandidate = false)

/-- The calls from the attempt on go through. -/
def Stands (part : CreateCall → Site) (s : Txn) : Prop :=
  Passes s [part .confine, part .create, part .removeCidfile, part .startAndWaitReady,
    part .discoverFinal, part .validateFinal] ∧
  (s.script (part .readCidfile) = .pass ∨ s.script (part .recoverCidfile) = .pass)

/-- A creation is opened on an absent Box when its calls go through, and changes nothing. -/
theorem meets_openCreation {restoring : Bool} : Meets (openCreation part contract restoring)
      (fun _ t => t = s ∧ s.presence = .absent ∧ Opens part contract restoring s)
        (fun _ t => t = s ∧ ¬ (s.presence = .absent ∧ Opens part contract restoring s)) s := by
  have hno : ∀ site, site ∈ [part .assertHeld, part .revalidateDataPaths, part .resolveDataSources,
      part .discover, part .retireStartLock, part .retireEdgePreparation, part .cleanCidfile] →
      s.script site ≠ .pass → ¬ (s.presence = .absent ∧ Opens part contract restoring s) :=
    fun _ hmem hfail h => hfail (h.2.1 _ hmem)
  refine wp_bind (meets_check (fun h₁ => ?_) fun h _ => ⟨rfl, hno _ (by simp) h⟩)
  refine wp_bind (meets_check (fun h₂ => ?_) fun h _ => ⟨rfl, hno _ (by simp) h⟩)
  refine wp_bind (meets_check (fun h₃ => ?_) fun h _ => ⟨rfl, hno _ (by simp) h⟩)
  refine wp_bind (meets_read (fun h₄ => ?_) fun h _ => ⟨rfl, hno _ (by simp) h⟩)
  refine wp_bind (wp_look (wp_bind (wp_whenDo (fun hbad => wp_raise ⟨rfl, ?_⟩) fun hgood => ?_)))
  · rintro ⟨habsent, _, hengine, _⟩
    rcases hbad with hpresent | hother
    · exact hpresent habsent
    · rw [hengine] at hother
      cases hother
  have habsent : s.presence = .absent := by
    by_contra hpresent
    exact hgood (.inl hpresent)
  have hengine : s.sameEngine = true := by
    cases h : s.sameEngine with
    | true => rfl
    | false => exact absurd (.inr h) hgood
  refine wp_bind (meets_check (fun h₅ => ?_) fun h _ => ⟨rfl, hno _ (by simp) h⟩)
  refine wp_bind (meets_check (fun h₆ => ?_) fun h _ => ⟨rfl, hno _ (by simp) h⟩)
  refine wp_bind (meets_check (fun h₇ => ?_) fun h _ => ⟨rfl, hno _ (by simp) h⟩)
  have hpasses : Passes s [part .assertHeld, part .revalidateDataPaths, part .resolveDataSources,
      part .discover, part .retireStartLock, part .retireEdgePreparation, part .cleanCidfile] := by
    rw [passes_cons, passes_cons, passes_cons, passes_cons, passes_cons, passes_cons, passes_cons]
    exact ⟨h₁, h₂, h₃, h₄, h₅, h₆, h₇, passes_nil⟩
  refine wp_whenDo (fun himage => ?_) fun hother => ⟨rfl, habsent, hpasses, hengine, fun h => absurd h hother⟩
  refine meets_refuseLocalCandidate (fun h₈ hlocal => ?_) fun hlocal _ => ⟨rfl, fun h => ?_⟩
  · exact ⟨rfl, habsent, hpasses, hengine, fun _ => ⟨h₈, hlocal⟩⟩
  · exact hlocal (h.2.2.2 himage)

/-- The state with a new running container. -/
def Txn.created (s : Txn) (contract : Contract) (running : Bool) : Txn :=
  { s with presence := .owned ⟨s.issued, contract.imageId, running⟩, issued := s.issued + 1 }

/-- The ID of a created container is found in one of two ways. -/
theorem meets_createdId : Meets (createdId part contract s.issued)
      (fun id t => t = s.created contract false ∧ id = s.issued ∧
          (s.script (part .readCidfile) = .pass ∨ s.script (part .recoverCidfile) = .pass))
        (fun _ t => t = s.created contract false ∧
          ¬ (s.script (part .readCidfile) = .pass ∨ s.script (part .recoverCidfile) = .pass)) (s.created contract false) := by
  refine wp_attempt (meets_read (f := fun _ => s.issued) (fun h => ⟨rfl, rfl, .inl h⟩) fun hread cidfileError => ?_)
  refine wp_bind (meets_read (f := Txn.presence) (fun h => ?_) fun h _ => ⟨rfl, ?_⟩)
  · show Meets (if contract.imageId = contract.imageId then pure s.issued else raise cidfileError) _ _ _
    rw [if_pos rfl]
    exact wp_pure ⟨rfl, rfl, .inr h⟩
  · rintro (hpass | hpass)
    · exact hread hpass
    · exact h hpass

theorem created_of_absent (contract : Contract) (habsent : s.presence = .absent) : (match s.presence with
      | .absent => .ok (s.issued, s.created contract false)
      | _ => .error (transactionError "the container name is already in use") :
        Except Failure (Id × Txn)) = .ok (s.issued, s.created contract false) := by
  rw [habsent]

/-- A creation on an absent Box ends with a running container when its calls go through. -/
theorem meets_finishCreation (habsent : s.presence = .absent) : Meets (finishCreation part contract)
      (fun created t => t = s.created contract true ∧
          created = (s.issued, ⟨s.issued, contract.imageId, true⟩) ∧ Stands part s)
        (fun _ t => Frame s t ∧ ¬ Stands part s) s := by
  have hno : ∀ site, site ∈ [part .confine, part .create, part .removeCidfile, part .startAndWaitReady,
      part .discoverFinal, part .validateFinal] → s.script site ≠ .pass → ¬ Stands part s :=
    fun _ hmem hfail h => hfail (h.1 _ hmem)
  have hunread : ¬ (s.script (part .readCidfile) = .pass ∨ s.script (part .recoverCidfile) = .pass) →
      ¬ Stands part s := fun hfail h => hfail h.2
  have hself : Frame s s := ⟨s.presence, s.issued, rfl⟩
  have hcreated : Frame s (s.created contract false) := ⟨_, _, rfl⟩
  have hrunning : Frame s (s.created contract true) := ⟨_, _, rfl⟩
  have hcreate := created_of_absent contract habsent
  refine wp_bind (meets_check (fun h₁ => ?_) fun h _ => ⟨hself, hno _ (by simp) h⟩)
  refine wp_bind (wp_scripted (fun h₂ id t ht => ?_) ?_ ?_ ?_)
  rotate_left
  · intro _ error herror
    cases hcreate.symm.trans herror
  · intro error h
    exact ⟨hself, hno _ (by simp) (Reply.ne_pass_of_throwBefore h)⟩
  · intro error h
    refine ⟨?_, hno _ (by simp) (Reply.ne_pass_of_throwAfter h)⟩
    show Frame s (after s _)
    rw [habsent]
    exact hcreated
  cases hcreate.symm.trans ht
  refine wp_bind (wp_finallyDo (meets_mono meets_createdId ?_ ?_))
  rotate_left
  · intro error t ht
    obtain ⟨rfl, hbad⟩ := ht
    exact meets_check (fun _ => ⟨hcreated, hunread hbad⟩) fun _ _ => ⟨hcreated, hunread hbad⟩
  rintro id t ⟨rfl, rfl, hid⟩
  refine meets_check (fun h₃ => ?_) fun h _ => ⟨hcreated, hno _ (by simp) h⟩
  refine wp_bind (meets_onContainer (fun h₄ container hpresence _ => ?_) ?_ ?_)
  rotate_left
  · rintro (⟨_, h⟩ | h) _
    · exact ⟨hcreated, hno _ (by simp) (Reply.ne_pass_of_throwBefore h)⟩
    · exact absurd rfl (h _ rfl)
  · intro error h container hpresence _
    cases hpresence
    exact ⟨hrunning, hno _ (by simp) (Reply.ne_pass_of_throwAfter h)⟩
  cases hpresence
  refine wp_bind (meets_read (f := Txn.presence) (fun h₅ => ?_) fun h _ => ⟨hrunning, hno _ (by simp) h⟩)
  refine wp_bind (meets_read (f := fun _ => _) (fun h₆ => ?_) fun h _ => ⟨hrunning, hno _ (by simp) h⟩)
  show Meets (if s.issued ≠ s.issued then raise _ else pure _) _ _ _
  rw [if_neg (not_not_intro rfl)]
  refine wp_pure ⟨rfl, rfl, ?_, hid⟩
  rw [passes_cons, passes_cons, passes_cons, passes_cons, passes_cons, passes_cons]
  exact ⟨h₁, h₂, h₃, h₄, h₅, h₆, passes_nil⟩

/-! ## Restoring the old Box -/

/-- The calls of `restoreOldContainer` go through. -/
def RestoreGoes (old : OldBox) (s : Txn) : Prop :=
  s.script .probeAgentLib = .pass ∧ s.suppliedIntact = true ∧
  (old.contract.hardware = none → s.script .gateOffRestore = .pass) ∧
  Opens .restore old.contract true s ∧ Stands .restore s

/-- The state after a restoration was tried. -/
def Tried (s t : Txn) : Prop := Frame { s with restoreAttempted := true } t

/-- The old Box is restored under an absent name when the calls go through. -/
theorem meets_restoreOldContainer : Meets (restoreOldContainer old)
      (fun restored t => t = { s.created old.contract true with restoreAttempted := true } ∧
          restored = (s.issued, ⟨s.issued, old.contract.imageId, true⟩) ∧
          s.presence = .absent ∧ RestoreGoes old s)
        (fun _ t => Tried s t ∧ ¬ (s.presence = .absent ∧ RestoreGoes old s)) s := by
  have hself : Tried s { s with restoreAttempted := true } := ⟨s.presence, s.issued, rfl⟩
  refine wp_bind (wp_alter (wp_bind (wp_bind (meets_read (fun h₁ => ?_) fun h _ =>
    ⟨hself, fun hgoes => h hgoes.2.1⟩))))
  refine wp_whenDo (fun hchanged => wp_raise ⟨hself, fun hgoes => ?_⟩) fun hintact => ?_
  · rw [hgoes.2.2.1] at hchanged
    cases hchanged
  have hsupplied : s.suppliedIntact = true := by simpa using hintact
  have hrest : (old.contract.hardware = none → s.script .gateOffRestore = .pass) →
      Meets (createAndStart .restore old.contract true (ret ()))
        (fun restored t => t = { s.created old.contract true with restoreAttempted := true } ∧
            restored = (s.issued, ⟨s.issued, old.contract.imageId, true⟩) ∧
            s.presence = .absent ∧ RestoreGoes old s)
          (fun _ t => Tried s t ∧ ¬ (s.presence = .absent ∧ RestoreGoes old s))
        { s with restoreAttempted := true } := by
    intro hgate
    refine wp_bind (meets_mono meets_openCreation ?_ ?_)
    · intro _ t ht
      obtain ⟨rfl, habsent, hopens⟩ := ht
      refine wp_bind (wp_ret (meets_mono (meets_finishCreation habsent) ?_ ?_))
      · intro restored t ht
        exact ⟨ht.1, ht.2.1, habsent, h₁, hsupplied, hgate, hopens, ht.2.2⟩
      · intro _ t ht
        exact ⟨ht.1, fun h => ht.2 h.2.2.2.2.2⟩
    · intro _ t ht
      exact ⟨ht.1 ▸ hself, fun h => ht.2 ⟨h.1, h.2.2.2.2.1⟩⟩
  refine wp_bind (wp_whenDo (fun hoff => ?_) fun hgated => hrest fun hoff => absurd hoff hgated)
  exact meets_check (fun h₂ => hrest fun _ => h₂) fun h _ => ⟨hself, fun hgoes => h (hgoes.2.2.2.1 hoff)⟩

/-- A restoration never throws: it succeeds, or it says how it failed. -/
theorem meets_attemptRestore : Meets (attemptRestore old) (fun outcome t =>
          (outcome = (some (s.issued, ⟨s.issued, old.contract.imageId, true⟩), []) ∧
            t = { s.created old.contract true with restoreAttempted := true } ∧
            s.presence = .absent ∧ RestoreGoes old s) ∨
          (outcome.1 = none ∧ outcome.2 ≠ [] ∧ Tried s t ∧
            ¬ (s.presence = .absent ∧ RestoreGoes old s)))
        (fun _ _ => False) s := by
  refine wp_attempt (wp_bind (meets_mono meets_restoreOldContainer ?_ ?_))
  · rintro restored t ⟨ht, rfl, hgoes⟩
    exact wp_pure (.inl ⟨rfl, ht, hgoes⟩)
  · intro error t ht
    exact wp_ret (.inr ⟨rfl, cons_ne_nil _ _, ht⟩)

/-! ## The replacement -/

/-- What is around a transaction before it begins. -/
structure Circumstances where
  script : Site → Reply Failure
  sameEngine : Bool
  suppliedIntact : Bool
  localCandidate : Bool
  issued : Nat

/-- The state in which a transaction begins: the old Box is there, or no Box is. -/
def opening (plan : Plan) (around : Circumstances) : Txn where
  script := around.script
  presence := match plan.old with
    | none => .absent
    | some old => .owned ⟨old.containerId, old.contract.imageId, old.running⟩
  sameEngine := around.sameEngine
  suppliedIntact := around.suppliedIntact
  localCandidate := around.localCandidate
  issued := around.issued
  candidateId := none
  candidateAttempted := false
  oldStopAttempted := false
  oldRemoved := false
  settled := false
  oldGone := false
  restoreAttempted := false

/-- The calls that stop the old Box. -/
def stopSites : List Site := [.quiescentRunning, .stopPloinkyLocal, .stopContainer]

/-- The calls before the removal of the old Box go through. -/
def ReachesRemoval (plan : Plan) (old : OldBox) (s : Txn) : Prop :=
  (plan.desired.agentLib = .image → s.script .localCandidate = .pass ∧ s.localCandidate = false) ∧
  (old.running = true → Passes s stopSites) ∧
  s.script .quiescent = .pass

/-- The old Box is removed by a call that then throws. -/
def RemovedUnseen (plan : Plan) (old : OldBox) (s : Txn) : Prop :=
  ReachesRemoval plan old s ∧ ∃ error, s.script .removeOld = .throwAfter error

/-- The old Box is removed, and the candidate fails after it was attempted. -/
def CandidateFails (plan : Plan) (old : OldBox) (s : Txn) : Prop :=
  ReachesRemoval plan old s ∧ s.script .removeOld = .pass ∧
  Passes s [.recheckReleased, .resolveDataSources, .ensureDataPaths] ∧
  Opens .candidate plan.desired false s ∧ ¬ Stands .candidate s

/-- What the variables say when the replacement fails. -/
structure Failed (plan : Plan) (old : OldBox) (s t : Txn) : Prop where
  script : t.script = s.script
  untried : t.restoreAttempted = false
  gone : t.oldRemoved = true → t.oldGone = true
  unseen : t.oldGone = true ∧ t.oldRemoved = false ↔ RemovedUnseen plan old s
  unnamed : t.oldRemoved = true ∧ t.candidateAttempted = true ∧ t.candidateId = none ↔
    CandidateFails plan old s

/-- A failure before the removal of the old Box. -/
theorem Failed.before (hscript : t.script = s.script)
    (hflags : t.restoreAttempted = false ∧ t.oldGone = false ∧ t.oldRemoved = false)
    (hunseen : ¬ RemovedUnseen plan old s) (hcandidate : ¬ CandidateFails plan old s) :
    Failed plan old s t where
  script := hscript
  untried := hflags.1
  gone := fun h => Bool.noConfusion (h.symm.trans hflags.2.2)
  unseen := ⟨fun h => Bool.noConfusion (h.1.symm.trans hflags.2.1), fun h => absurd h hunseen⟩
  unnamed := ⟨fun h => Bool.noConfusion (h.1.symm.trans hflags.2.2), fun h => absurd h hcandidate⟩

/-- A failure after the removal of the old Box. -/
theorem Failed.afterRemoval (hscript : t.script = s.script)
    (hflags : t.restoreAttempted = false ∧ t.oldGone = true ∧ t.oldRemoved = true)
    (hremoved : s.script .removeOld = .pass)
    (hunnamed : t.candidateAttempted = true ∧ t.candidateId = none ↔ CandidateFails plan old s) :
    Failed plan old s t where
  script := hscript
  untried := hflags.1
  gone := fun _ => hflags.2.1
  unseen := by
    refine ⟨fun h => ?_, fun ⟨_, _, h⟩ => ?_⟩
    · rw [hflags.2.2] at h
      cases h.2
    · rw [hremoved] at h
      cases h
  unnamed := ⟨fun h => hunnamed.1 h.2, fun h => ⟨hflags.2.2, hunnamed.2 h⟩⟩

/-- The state in which the old Box is still there. -/
def Kept (old : OldBox) (s t : Txn) : Prop :=
  ∃ stopAttempted kept, t = { s with oldStopAttempted := stopAttempted, presence := .owned kept } ∧
    kept.id = old.containerId

/-- The old Box is stopped when the calls for it go through, and stays there in any case. -/
theorem meets_stopOld
    (hpresence : s.presence = .owned container) (hid : container.id = old.containerId) : Meets (stopOld old)
      (fun _ t => Kept old s t ∧ Passes s stopSites) (fun _ t => Kept old s t ∧ ¬ Passes s stopSites) s := by
  have hno : ∀ site ∈ stopSites, s.script site ≠ .pass → ¬ Passes s stopSites :=
    fun _ hmem hfail h => hfail (h _ hmem)
  have hkept : ∀ attempted, Kept old s { s with oldStopAttempted := attempted } := by
    intro attempted
    refine ⟨attempted, container, ?_, hid⟩
    rw [← hpresence]
  refine wp_bind (meets_check (fun h₁ => ?_) fun h _ => ⟨hkept _, hno _ (by decide) h⟩)
  refine wp_bind (wp_alter (wp_bind (meets_check (fun h₂ => ?_) fun h _ =>
    ⟨hkept true, hno _ (by decide) h⟩)))
  refine meets_onContainer (fun h₃ found hfound _ => ?_) ?_ ?_
  · cases hpresence.symm.trans hfound
    refine ⟨⟨true, _, rfl, hid⟩, ?_⟩
    unfold stopSites
    rw [passes_cons, passes_cons, passes_cons]
    exact ⟨h₁, h₂, h₃, passes_nil⟩
  · rintro (⟨_, h⟩ | h) _
    · exact ⟨hkept true, hno _ (by decide) (Reply.ne_pass_of_throwBefore h)⟩
    · exact absurd hid (h container hpresence)
  · intro _ h found hfound _
    cases hpresence.symm.trans hfound
    exact ⟨⟨true, _, rfl, hid⟩, hno _ (by decide) (Reply.ne_pass_of_throwAfter h)⟩

/-- The state after the old Box was removed. -/
def Txn.removed (s : Txn) (stopAttempted : Bool) : Txn :=
  { s with oldStopAttempted := stopAttempted, presence := .absent, oldGone := true, oldRemoved := true }

section Replacement

variable {plan : Plan} {old : OldBox} {around : Circumstances}

section Steps

variable {s : Txn} (hs : s = opening plan around)

include hs

/-- The old Box is removed and known to be, or the replacement fails. -/
theorem meets_removeOld {u : Txn} (hkept : Kept old s u) (hreaches : ReachesRemoval plan old s) :
    Meets (removeOld old) (fun _ t => (∃ stopAttempted, t = s.removed stopAttempted) ∧
          s.script .removeOld = .pass ∧ s.script .recheckReleased = .pass)
        (fun _ t => Failed plan old s t) u := by
  subst hs
  obtain ⟨stopAttempted, kept, rfl, hid⟩ := hkept
  refine wp_bind (meets_onContainer (fun hremoved _ _ _ => ?_) ?_ ?_)
  · refine wp_bind (wp_alter (meets_check (fun h => ⟨⟨stopAttempted, rfl⟩, hremoved, h⟩) fun h _ => ?_))
    refine .afterRemoval rfl ⟨rfl, rfl, rfl⟩ hremoved ⟨fun h => Bool.noConfusion h.1, fun hfails => ?_⟩
    exact absurd (hfails.2.2.1 .recheckReleased (by decide)) h
  · rintro (⟨error, h⟩ | h) _
    · refine .before rfl ⟨rfl, rfl, rfl⟩ ?_ ?_
      · rintro ⟨_, _, hafter⟩
        cases h.symm.trans hafter
      · exact fun hfails => Reply.ne_pass_of_throwBefore h hfails.2.1
    · exact absurd hid (h kept rfl)
  · intro error h found _ _
    -- The old Box is gone, but the variable does not say so.
    exact {
      script := rfl
      untried := rfl
      gone := fun h => Bool.noConfusion h
      unseen := ⟨fun _ => ⟨hreaches, error, h⟩, fun _ => ⟨rfl, rfl⟩⟩
      unnamed := ⟨fun h => Bool.noConfusion h.1, fun hfails =>
        absurd hfails.2.1 (Reply.ne_pass_of_throwAfter h)⟩ }

/-- The old Box is stopped and removed, or the replacement fails. -/
theorem meets_retireOld (hold : plan.old = some old) : Meets (retireOld plan)
      (fun _ t => (∃ stopAttempted, t = s.removed stopAttempted) ∧ ReachesRemoval plan old s ∧
          s.script .removeOld = .pass ∧ s.script .recheckReleased = .pass)
        (fun _ t => Failed plan old s t) s := by
  have hpresence : s.presence = .owned ⟨old.containerId, old.contract.imageId, old.running⟩ := by
    rw [hs, opening, hold]
  have hself : Kept old s s := by
    refine ⟨false, ⟨old.containerId, old.contract.imageId, old.running⟩, ?_, rfl⟩
    rw [← hpresence, hs]
    rfl
  have hfailed : ∀ {u}, Kept old s u → ¬ ReachesRemoval plan old s → Failed plan old s u := by
    subst hs
    rintro u ⟨_, _, rfl, _⟩ hnot
    exact .before rfl ⟨rfl, rfl, rfl⟩ (fun h => hnot h.1) fun h => hnot h.1
  unfold retireOld forOld
  rw [hold]
  have hlocal : Meets (whenDo (plan.desired.agentLib = .image) (refuseLocalCandidate .localCandidate))
      (fun _ t => t = s ∧ (plan.desired.agentLib = .image →
          s.script .localCandidate = .pass ∧ s.localCandidate = false))
        (fun _ t => Failed plan old s t) s := by
    refine wp_whenDo (fun himage => ?_) fun hother => ⟨rfl, fun himage => absurd himage hother⟩
    refine meets_refuseLocalCandidate (fun h hnone => ⟨rfl, fun _ => ⟨h, hnone⟩⟩) fun h _ => ?_
    exact hfailed hself fun hreaches => h (hreaches.1 himage)
  have hstop : Meets (whenDo (old.running = true) (stopOld old))
      (fun _ t => Kept old s t ∧
          (old.running = true → Passes s stopSites))
        (fun _ t => Failed plan old s t) s := by
    refine wp_whenDo (fun hrunning => ?_) fun hstopped => ⟨hself, fun h => absurd h hstopped⟩
    refine meets_mono (meets_stopOld hpresence rfl) (fun _ _ h => ⟨h.1, fun _ => h.2⟩) ?_
    exact fun _ _ h => hfailed h.1 fun hreaches => h.2 (hreaches.2.1 hrunning)
  refine wp_bind (wp_imp hlocal ?_)
  rintro _ t ⟨ht, hnone⟩
  rw [ht]
  refine wp_bind (wp_imp hstop ?_)
  rintro _ u ⟨hkept, hstopped⟩
  have hscript : u.script = s.script := by
    obtain ⟨_, _, rfl, _⟩ := hkept
    rfl
  refine wp_bind (meets_check (fun h => ?_) fun h _ => hfailed hkept fun hreaches => h ?_)
  · have hreaches : ReachesRemoval plan old s := ⟨hnone, hstopped, hscript ▸ h⟩
    exact wp_imp (meets_removeOld hs hkept hreaches) (fun _ _ h => ⟨h.1, hreaches, h.2⟩)
  · rw [hscript]
    exact hreaches.2.2

/-- The candidate of a removed Box: a failure after the attempt leaves it without a name. -/
theorem meets_createCandidate {stopAttempted : Bool} (hreaches : ReachesRemoval plan old s)
    (hremoved : s.script .removeOld = .pass) (hreleased : s.script .recheckReleased = .pass) :
    Meets (createCandidate plan) (fun _ _ => ¬ CandidateFails plan old s) (fun _ t => Failed plan old s t)
      (s.removed stopAttempted) := by
  have hearly : ¬ CandidateFails plan old s → Failed plan old s (s.removed stopAttempted) := by
    subst hs
    exact fun hnot => .afterRemoval rfl ⟨rfl, rfl, rfl⟩ hremoved
      ⟨fun h => Bool.noConfusion h.1, fun h => absurd h hnot⟩
  refine wp_bind (meets_check (fun h₁ => ?_) fun h _ =>
    hearly fun hfails => h (hfails.2.2.1 .resolveDataSources (by decide)))
  refine wp_bind (wp_attempt (meets_check (fun h₂ => ?_) fun h _ =>
    wp_raise (hearly fun hfails => h (hfails.2.2.1 .ensureDataPaths (by decide)))))
  refine wp_bind (wp_bind (meets_mono meets_openCreation ?_ ?_))
  · rintro _ t ⟨rfl, _, hopens⟩
    refine wp_bind (wp_alter (meets_mono (meets_finishCreation rfl) ?_ ?_))
    · rintro created t ⟨rfl, _, hstands⟩
      have hnot : ¬ CandidateFails plan old s := fun h => h.2.2.2.2 hstands
      subst hs
      refine wp_bind (wp_alter (wp_bind (meets_check (fun _ => wp_pure hnot) fun _ _ => ?_)))
      refine .afterRemoval rfl ⟨rfl, rfl, rfl⟩ hremoved ⟨fun h => ?_, fun h => absurd h hnot⟩
      cases h.2
    · rintro _ t ⟨⟨presence, issued, rfl⟩, hfails⟩
      subst hs
      refine .afterRemoval rfl ⟨rfl, rfl, rfl⟩ hremoved ⟨fun _ => ?_, fun _ => ⟨rfl, rfl⟩⟩
      refine ⟨hreaches, hremoved, ?_, hopens, hfails⟩
      rw [passes_cons, passes_cons, passes_cons]
      exact ⟨hreleased, h₁, h₂, passes_nil⟩
  · rintro _ t ⟨rfl, hclosed⟩
    exact hearly fun hfails => hclosed ⟨rfl, hfails.2.2.2.1⟩

/-- The replacement of a Box: what the variables say when it fails. -/
theorem meets_replacement (hold : plan.old = some old) : Meets (replacement plan)
      (fun _ _ => ¬ RemovedUnseen plan old s ∧ ¬ CandidateFails plan old s)
        (fun _ t => Failed plan old s t) s := by
  subst hs
  refine wp_bind (wp_imp (meets_retireOld rfl hold) ?_)
  rintro _ _ ⟨⟨stopAttempted, rfl⟩, hreaches, hremoved, hreleased⟩
  refine wp_imp (meets_createCandidate rfl hreaches hremoved hreleased) (fun _ _ h => ⟨?_, h⟩)
  rintro ⟨_, _, hafter⟩
  cases hremoved.symm.trans hafter

end Steps

/-! ## The handler -/

/-- A candidate was attempted whose ID is not known, and looking for it fails. -/
def Unlisted (t : Txn) : Prop :=
  t.candidateAttempted = true ∧ t.candidateId = none ∧ t.script .recoverCandidate ≠ .pass

/-- The report of a rejection says what became of the old Box. -/
def Describes (old : OldBox) (failure : Failure) (t : Txn) : Prop :=
  ∃ report, failure.boxRollback = some report ∧ report.old = some old ∧
    report.oldStopAttempted = t.oldStopAttempted ∧
    ((report.action = lit "restored" ∧ ∃ id, report.containerId = some id ∧
        t.presence = .owned ⟨id, old.contract.imageId, true⟩) ∨
      report.action = lit "failed")

theorem meets_noteRecovered (recovered : Presence) (hlisted : t.oldRemoved = true → ¬ Unlisted t) : Meets
      (match recovered with
        | .owned container => whenDo (container.imageId = plan.desired.imageId)
            (alter fun s => { s with candidateId := some container.id })
        | _ => ret ())
      (fun _ u => (∃ candidateId, u = { t with candidateId := candidateId }) ∧
          (t.oldRemoved = true → ¬ Unlisted t))
        (fun _ u => u = t ∧ (plan.old = none ∨ t.oldRemoved = true) ∧ Unlisted t) t := by
  cases recovered with
  | owned container =>
    refine wp_whenDo (fun _ => wp_alter ⟨⟨some container.id, rfl⟩, hlisted⟩) fun _ => ?_
    exact ⟨⟨t.candidateId, rfl⟩, hlisted⟩
  | absent | other => exact wp_ret ⟨⟨t.candidateId, rfl⟩, hlisted⟩

theorem meets_recoverCandidate : Meets (recoverCandidate plan)
      (fun _ u => (∃ candidateId, u = { t with candidateId := candidateId }) ∧
          (t.oldRemoved = true → ¬ Unlisted t))
        (fun _ u => u = t ∧ (plan.old = none ∨ t.oldRemoved = true) ∧ Unlisted t) t := by
  refine wp_bind (wp_look (wp_whenDo (fun hlost => ?_) fun hknown => ?_))
  · refine wp_bind (meets_read (f := Txn.presence) (fun h => ?_) fun h _ =>
      ⟨rfl, hlost.2.2, hlost.2.1, hlost.1, h⟩)
    have hlisted : t.oldRemoved = true → ¬ Unlisted t := fun _ hunlisted => hunlisted.2.2 h
    exact meets_noteRecovered t.presence hlisted
  · refine ⟨⟨t.candidateId, rfl⟩, fun hremoved hunlisted => ?_⟩
    exact hknown ⟨hunlisted.2.1, hunlisted.1, .inr hremoved⟩

/-- Removing a candidate never throws. -/
theorem meets_removeCandidate : Meets (removeCandidate id)
      (fun failures u => ∃ presence, u = { t with presence := presence } ∧
          (failures = [] → t.script .removeCandidate = .pass ∧ presence = .absent) ∧
          (t.script .removeCandidate = .pass →
            (∃ container, t.presence = .owned container ∧ container.id = id) → failures = []))
        (fun _ _ => False) t := by
  refine wp_attempt (wp_bind (meets_onContainer (fun h container hpresence hid => ?_) ?_ ?_))
  · exact wp_pure ⟨.absent, rfl, fun _ => ⟨h, rfl⟩, fun _ _ => rfl⟩
  · intro h error
    refine wp_ret ⟨t.presence, rfl, fun hnil => absurd hnil (cons_ne_nil _ _), ?_⟩
    rintro hpass ⟨container, hpresence, hid⟩
    rcases h with ⟨_, hbefore⟩ | hnone
    · exact absurd hpass (Reply.ne_pass_of_throwBefore hbefore)
    · exact absurd hid (hnone container hpresence)
  · intro error h container hpresence hid
    refine wp_ret ⟨.absent, rfl, fun hnil => absurd hnil (cons_ne_nil _ _), fun hpass => ?_⟩
    exact absurd hpass (Reply.ne_pass_of_throwAfter h)

theorem meets_removeKnown (candidateId : Option Id) : Meets
      (match candidateId with
        | none => pure []
        | some id => removeCandidate id)
      (fun _ u => ∃ presence, u = { t with presence := presence }) (fun _ _ => False) t := by
  cases candidateId with
  | none => exact wp_pure ⟨t.presence, rfl⟩
  | some id => exact wp_imp meets_removeCandidate (fun _ _ ⟨presence, h, _⟩ => ⟨presence, h⟩)

theorem meets_removeKnownCandidate : Meets removeKnownCandidate
      (fun _ u => ∃ presence, u = { t with presence := presence }) (fun _ _ => False) t := by
  exact wp_bind (wp_look (meets_removeKnown t.candidateId))

/-- The handler restores an old Box it knows to be removed, unless it fails to look for the candidate. -/
theorem meets_rejected {α : Type} (hold : plan.old = some old) {error : Failure} :
    Meets (rejected plan error : Step α) (fun _ _ => False) (fun failure u => u.oldGone = t.oldGone ∧
          (t.oldRemoved = true ∧ ¬ Unlisted t → u.restoreAttempted = true ∧ Describes old failure u) ∧
          (¬ (t.oldRemoved = true ∧ ¬ Unlisted t) → u.restoreAttempted = t.restoreAttempted)) t := by
  refine wp_bind (meets_mono meets_recoverCandidate ?_ ?_)
  rotate_left
  · rintro _ _ ⟨rfl, _, hunlisted⟩
    exact ⟨rfl, fun h => absurd hunlisted h.2, fun _ => rfl⟩
  rintro _ _ ⟨⟨candidateId, rfl⟩, hlisted⟩
  refine wp_bind (meets_mono meets_removeKnownCandidate ?_ (fun _ _ h => h.elim))
  rintro failures _ ⟨presence, rfl⟩
  refine wp_bind ?_
  unfold recovery
  rw [hold]
  refine wp_bind (wp_look ?_)
  cases hremoved : t.oldRemoved with
  | false =>
    refine wp_pure (wp_bind (wp_look (wp_raise ⟨rfl, fun h => Bool.noConfusion h.1, fun _ => rfl⟩)))
  | true =>
    have hnot : ¬ Unlisted t := hlisted hremoved
    refine wp_bind (meets_mono meets_attemptRestore ?_ (fun _ _ h => h.elim))
    rintro outcome u (⟨rfl, rfl, _⟩ | ⟨hnone, _, ⟨_, _, rfl⟩, _⟩)
    · refine wp_pure (wp_bind (wp_look (wp_raise ⟨rfl, fun _ => ⟨rfl, ?_⟩, fun h => ?_⟩)))
      · exact ⟨_, rfl, rfl, rfl, .inl ⟨rfl, t.issued, rfl, rfl⟩⟩
      · exact absurd ⟨rfl, hnot⟩ h
    · refine wp_pure (wp_bind (wp_look (wp_raise ⟨rfl, fun _ => ⟨rfl, ?_⟩, fun h => ?_⟩)))
      · refine ⟨_, rfl, rfl, rfl, .inr ?_⟩
        show ((outcome.1.map _).map Prod.fst).getD _ = _
        rw [hnone]
        rfl
      · exact absurd ⟨rfl, hnot⟩ h

/-- A transaction that removed the old Box and rejects has tried to restore it and says what became of
it. -/
def RestoresOld (plan : Plan) (around : Circumstances) : Prop :=
  let result := replaceBoxContainer plan (opening plan around) []
  ∀ old failure, plan.old = some old → result.outcome = .threw failure → result.state.oldGone = true →
    result.state.restoreAttempted = true ∧ Describes old failure result.state

/-- The removal of the old Box does not throw after it took place, and the handler can look for a
candidate that failed. -/
def Restorable (plan : Plan) (around : Circumstances) : Prop :=
  ∀ old, plan.old = some old → ¬ RemovedUnseen plan old (opening plan around) ∧
    (CandidateFails plan old (opening plan around) → around.script .recoverCandidate = .pass)

/-- How the transaction on an old Box ends. -/
theorem meets_replaceBoxContainer (hold : plan.old = some old) : Meets (replaceBoxContainer plan)
      (fun _ _ => ¬ RemovedUnseen plan old (opening plan around) ∧
          ¬ CandidateFails plan old (opening plan around))
        (fun failure u => (u.oldGone = true → u.restoreAttempted = true ∧ Describes old failure u) ↔
          ¬ RemovedUnseen plan old (opening plan around) ∧
          (CandidateFails plan old (opening plan around) → around.script .recoverCandidate = .pass)) (opening plan around) := by
  refine wp_attempt (wp_bind (meets_mono (meets_replacement rfl hold) (fun _ _ h => wp_pure h) ?_))
  intro error t (hfailed : Failed plan old (opening plan around) t)
  refine meets_mono (meets_rejected hold) (fun _ _ h => h.elim) ?_
  rintro failure u ⟨hgone, htried, huntried⟩
  rw [hgone]
  have hunlisted : Unlisted t ∧ t.oldRemoved = true ↔ CandidateFails plan old (opening plan around) ∧
      around.script .recoverCandidate ≠ .pass := by
    rw [← hfailed.unnamed]
    unfold Unlisted
    rw [show t.script .recoverCandidate = around.script .recoverCandidate from congrFun hfailed.script _]
    tauto
  constructor
  · intro hrestores
    refine ⟨fun hunseen => ?_, fun hfails => ?_⟩
    · have h := (hfailed.unseen.2 hunseen)
      have hrestored := (hrestores h.1).1
      rw [huntried (fun hr => Bool.noConfusion (hr.1.symm.trans h.2)), hfailed.untried] at hrestored
      cases hrestored
    · by_contra hlook
      have h := hunlisted.2 ⟨hfails, hlook⟩
      have hrestored := (hrestores (hfailed.gone h.2)).1
      rw [huntried (fun hr => hr.2 h.1), hfailed.untried] at hrestored
      cases hrestored
  · rintro ⟨hseen, hlook⟩ hgone'
    have hremoved : t.oldRemoved = true := by
      cases h : t.oldRemoved with
      | true => rfl
      | false => exact absurd (hfailed.unseen.1 ⟨hgone', h⟩) hseen
    exact htried ⟨hremoved, fun h => (hunlisted.1 ⟨h, hremoved⟩).2 (hlook (hunlisted.1 ⟨h, hremoved⟩).1)⟩

theorem restoresOld_iff : RestoresOld plan around ↔ Restorable plan around := by
  refine forall_congr' fun old => ⟨fun hrestores hold => ?_, fun hrestorable failure hold hrun => ?_⟩
  · obtain ⟨_, -, hend⟩ | ⟨failure, hrun, hend⟩ | hend := (wp_calm (meets_replaceBoxContainer hold)).cases
    · exact ⟨hend.1, fun h => absurd h hend.2⟩
    · exact hend.1 (hrestores failure hold hrun)
    · exact hend.elim
  · exact ((wp_calm (meets_replaceBoxContainer hold)).threw hrun).2 (hrestorable hold)

end Replacement

/-! ## The rollback -/

/-- The candidate is there and can be removed, or it is not there. -/
def CandidateGoes (candidateId : Id) (s : Txn) : Prop :=
  ∀ container, s.presence = .owned container →
    container.id = candidateId ∧ s.script .removeCandidate = .pass

/-- The calls of `rollback` after it has marked the transaction as settled go through. -/
def RollbackGoes (plan : Plan) (candidateId : Id) (s : Txn) : Prop :=
  s.script .rollbackDiscover = .pass ∧ CandidateGoes candidateId s ∧
  ∀ old, plan.old = some old → s.oldRemoved = true → s.presence ≠ .other ∧ RestoreGoes old s

/-- The candidate is gone, and the old Box runs again when the transaction had removed it. -/
def Recovered (plan : Plan) (candidateId : Id) (t : Txn) : Prop :=
  (∀ container, t.presence = .owned container → container.id ≠ candidateId) ∧
  ∀ old, plan.old = some old → t.oldRemoved = true →
    ∃ newId, t.presence = .owned ⟨newId, old.contract.imageId, true⟩

theorem meets_rollbackCandidate : Meets (rollbackCandidate id s.presence)
      (fun failures u => ∃ presence, u = { s with presence := presence } ∧
          (failures = [] ↔ CandidateGoes id s) ∧
          (failures = [] → presence = if s.presence = .other then .other else .absent))
        (fun _ u => u = s ∧ ¬ CandidateGoes id s) s := by
  cases hpresence : s.presence with
  | absent | other =>
    refine wp_ret ⟨s.presence, rfl, ⟨fun _ container h => ?_, fun _ => rfl⟩, fun _ => ?_⟩
    · cases hpresence.symm.trans h
    · rw [hpresence]
      simp
  | owned container =>
    have hgoes : CandidateGoes id s ↔ container.id = id ∧ s.script .removeCandidate = .pass := by
      refine ⟨fun h => h container hpresence, fun h found hfound => ?_⟩
      cases hpresence.symm.trans hfound
      exact h
    refine wp_ite (fun hother => wp_raise ⟨rfl, fun h => hother (hgoes.1 h).1⟩) fun hsame => ?_
    have hid : container.id = id := not_not.1 hsame
    refine meets_mono meets_removeCandidate ?_ (fun _ _ h => h.elim)
    rintro failures u ⟨presence, rfl, hremoved, hpass⟩
    refine ⟨presence, rfl, ⟨fun h => hgoes.2 ⟨hid, (hremoved h).1⟩, fun h => ?_⟩, fun h => ?_⟩
    · exact hpass (hgoes.1 h).2 ⟨container, hpresence, hid⟩
    · exact (hremoved h).2

theorem meets_rollbackOld (id : Id) : Meets (rollbackOld plan)
      (fun restored u => u.settled = s.settled ∧
          (restored.2 = [] ↔ ∀ old, plan.old = some old → s.oldRemoved = true →
            s.presence = .absent ∧ RestoreGoes old s) ∧
          (restored.2 = [] → id < s.issued → (∀ container, s.presence ≠ .owned container) →
            Recovered plan id u))
        (fun _ _ => False) s := by
  refine wp_bind (wp_look ?_)
  cases hold : plan.old with
  | none =>
    refine wp_pure ⟨rfl, ⟨fun _ old hold _ => ?_, fun _ => rfl⟩, fun _ _ hgone => ⟨?_, ?_⟩⟩
    · cases hold
    · exact fun container h => absurd h (hgone container)
    · intro old h
      cases hold.symm.trans h
  | some old =>
    refine wp_ite (fun hremoved => ?_) fun hkept => ?_
    · refine wp_imp meets_attemptRestore ?_
      rintro outcome u (⟨rfl, rfl, hgoes⟩ | ⟨_, hfails, ⟨_, _, rfl⟩, hnot⟩)
      · refine ⟨rfl, ⟨fun _ other hother _ => ?_, fun _ => rfl⟩, fun _ hfresh _ => ⟨?_, ?_⟩⟩
        · cases hother
          exact hgoes
        · intro container h
          cases h
          exact hfresh.ne'
        · intro other hother _
          cases hold.symm.trans hother
          exact ⟨s.issued, rfl⟩
      · exact ⟨rfl, ⟨fun h => absurd h hfails, fun h => absurd (h old rfl hremoved) hnot⟩,
          fun h => absurd h hfails⟩
    · refine wp_pure ⟨rfl, ⟨fun _ _ _ h => absurd h hkept, fun _ => rfl⟩, fun _ _ hgone => ⟨?_, ?_⟩⟩
      · exact fun container h => absurd h (hgone container)
      · exact fun _ _ h => absurd h hkept

/-- Once the transaction is marked as settled, the rollback recovers when its calls go through, and
rejects when one of them fails. -/
theorem meets_rollbackSettled : Meets (rollbackSettled plan id)
      (fun value u => value ≠ .alreadySettled ∧ RollbackGoes plan id s ∧
          (id < s.issued → Recovered plan id u))
        (fun _ u => u.settled = s.settled ∧ ¬ RollbackGoes plan id s) s := by
  refine wp_bind (meets_read (f := Txn.presence) (fun hdiscover => ?_) fun h _ =>
    ⟨rfl, fun hgoes => h hgoes.1⟩)
  refine wp_bind (meets_mono meets_rollbackCandidate ?_ ?_)
  rotate_left
  · rintro _ _ ⟨rfl, hnot⟩
    exact ⟨rfl, fun hgoes => hnot hgoes.2.1⟩
  rintro failures _ ⟨presence, rfl, hcandidate, hpresence⟩
  have habsent (hnil : failures = []) : presence = .absent ↔ s.presence ≠ .other := by
    rw [hpresence hnil]
    split_ifs with hother <;> simp [hother]
  refine wp_bind (meets_mono (meets_rollbackOld id) ?_ (fun _ _ h => h.elim))
  rintro restored u ⟨hsettled, hrestored, hrecovered⟩
  have hgoes : RollbackGoes plan id s ↔ failures ++ restored.2 = [] := by
    rw [append_eq_nil_iff]
    constructor
    · rintro ⟨_, hgoes, hold⟩
      have hnil := hcandidate.2 hgoes
      refine ⟨hnil, hrestored.2 fun old hsome hremoved => ?_⟩
      exact ⟨(habsent hnil).2 (hold old hsome hremoved).1, (hold old hsome hremoved).2⟩
    · rintro ⟨hnil, hnone⟩
      refine ⟨hdiscover, hcandidate.1 hnil, fun old hsome hremoved => ?_⟩
      obtain ⟨hpresence, hrestore⟩ := hrestored.1 hnone old hsome hremoved
      exact ⟨(habsent hnil).1 hpresence, hrestore⟩
  refine wp_ite (fun hfails => wp_raise ⟨hsettled, fun h => hfails (hgoes.1 h)⟩) fun hnil => ?_
  have hends : RollbackGoes plan id s := hgoes.2 (not_not.1 hnil)
  obtain ⟨hnone, hrest⟩ := append_eq_nil_iff.mp (not_not.1 hnil)
  have hgone : id < s.issued → Recovered plan id u := by
    refine fun hfresh => hrecovered hrest hfresh fun container hfound => ?_
    have hfound := (hpresence hnone).symm.trans hfound
    split_ifs at hfound
  cases restored.1 with
  | none | some => exact wp_pure ⟨nofun, hends, hgone⟩

/-- How `rollback` ends. -/
theorem meets_rollback (plan : Plan) (id : Id) (s : Txn) : Meets (rollback plan id)
      (fun value u => s.script .rollbackLock = .pass ∧ (s.settled = true → value = .alreadySettled) ∧
        (s.settled = false → value ≠ .alreadySettled ∧ RollbackGoes plan id s ∧
          (id < s.issued → Recovered plan id u)))
      (fun _ u => (s.script .rollbackLock ≠ .pass ∧ u = s) ∨
        (s.script .rollbackLock = .pass ∧ s.settled = false ∧ u.settled = true ∧
          ¬ RollbackGoes plan id s)) s := by
  refine wp_bind (meets_check (fun hlock => wp_bind (wp_look ?_)) fun h _ => .inl ⟨h, rfl⟩)
  refine wp_ite (fun hsettled => wp_pure ⟨hlock, fun _ => rfl, fun hopen => ?_⟩) fun hopen => ?_
  · rw [hsettled] at hopen
    cases hopen
  · have hopen : s.settled = false := by simpa using hopen
    refine wp_bind (wp_alter (meets_mono meets_rollbackSettled ?_ ?_))
    · refine fun _ _ h => ⟨hlock, fun hsettled => ?_, fun _ => h⟩
      rw [hopen] at hsettled
      cases hsettled
    · exact fun _ _ h => .inr ⟨hlock, hopen, h.1, h.2⟩

/-- `rollback()` is called until it returns, each time with a script of its own: the call that returns
has recovered, and does not say that the transaction was settled before; and a call rejects only when it
loses its lock or one of its calls does not go through. -/
def RecoversBy (plan : Plan) (candidateId : Id) : List (Site → Reply Failure) → Txn → Prop
  | [], _ => True
  | script :: rest, s =>
    let start := { s with script := script }
    let result := rollback plan candidateId start []
    (∀ value, result.outcome = .returned value →
      value ≠ .alreadySettled ∧ Recovered plan candidateId result.state) ∧
    ∀ failure, result.outcome = .threw failure →
      ¬ (script .rollbackLock = .pass ∧ RollbackGoes plan candidateId start) ∧
        RecoversBy plan candidateId rest result.state

/-- The first call that does not lose its lock goes through, or every later one loses its lock. -/
def Resumable (goes : (Site → Reply Failure) → Prop) : List (Site → Reply Failure) → Prop
  | [] => True
  | script :: rest =>
    if script .rollbackLock = .pass then goes script ∨ ∀ later ∈ rest, later .rollbackLock ≠ .pass
    else Resumable goes rest

section Calls

variable {plan : Plan} {s : Txn} {script : Site → Reply Failure} {rest scripts : List (Site → Reply Failure)}

/-- After a call that rejects, the others are made. -/
theorem recoversBy_of_threw {failure : Failure}
    (hrun : (rollback plan id { s with script := script } []).outcome = .threw failure) :
    RecoversBy plan id (script :: rest) s ↔
      ¬ (script .rollbackLock = .pass ∧ RollbackGoes plan id { s with script := script }) ∧
        RecoversBy plan id rest (rollback plan id { s with script := script } []).state := by
  rw [RecoversBy]
  constructor
  · exact fun h => h.2 failure hrun
  · intro h
    refine ⟨fun value hreturned => ?_, fun _ _ => h⟩
    cases hrun.symm.trans hreturned

/-- Once settled, only calls that lose their lock do not say so. -/
theorem recoversBy_settled (hsettled : s.settled = true) :
    RecoversBy plan id scripts s ↔ ∀ script ∈ scripts, script .rollbackLock ≠ .pass := by
  induction scripts generalizing s with
  | nil => simp [RecoversBy]
  | cons script rest ih =>
    rw [forall_mem_cons]
    obtain ⟨value, hrun, hlock, hsaid, -⟩ | ⟨failure, hrun, ⟨hlock, hstate⟩ | ⟨-, hopen, -⟩⟩ | hend :=
      (wp_calm (meets_rollback plan id { s with script := script })).cases
    · rw [RecoversBy]
      exact iff_of_false (fun h => (h.1 value hrun).1 (hsaid hsettled)) fun h => h.1 hlock
    · rw [recoversBy_of_threw hrun, hstate, ih (s := { s with script := script }) hsettled]
      exact and_congr_left fun _ => iff_of_true (fun hgoes => hlock hgoes.1) hlock
    · cases hsettled.symm.trans hopen
    · exact hend.elim

/-- The calls for a transaction that is not settled. -/
theorem recoversBy_iff (hopen : s.settled = false)
    (hfresh : id < s.issued) : RecoversBy plan id scripts s ↔
      Resumable (fun script => RollbackGoes plan id { s with script := script }) scripts := by
  induction scripts generalizing s with
  | nil => simp [RecoversBy, Resumable]
  | cons script rest ih =>
    rw [Resumable]
    obtain ⟨value, hrun, hlock, -, hends⟩ |
        ⟨failure, hrun, ⟨hlock, hstate⟩ | ⟨hlock, -, hsettled, hnot⟩⟩ | hend :=
      (wp_calm (meets_rollback plan id { s with script := script })).cases
    · obtain ⟨hne, hgoes, hrecovered⟩ := hends hopen
      rw [RecoversBy, if_pos hlock]
      refine iff_of_true ⟨fun other hother => ?_, fun failure hthrew => ?_⟩ (.inl hgoes)
      · cases hrun.symm.trans hother
        exact ⟨hne, hrecovered hfresh⟩
      · cases hrun.symm.trans hthrew
    · rw [if_neg hlock, recoversBy_of_threw hrun, hstate,
        ih (s := { s with script := script }) hopen hfresh]
      exact and_iff_right fun hgoes => hlock hgoes.1
    · rw [if_pos hlock, recoversBy_of_threw hrun, recoversBy_settled hsettled]
      exact (and_iff_right fun hgoes => hnot hgoes.2).trans (or_iff_right hnot).symm
    · exact hend.elim

end Calls

/-- A failed replacement restores the old Box exactly when the removal of the old Box does not throw
after it took place and the handler can look for a failed candidate. Calls of the rollback until one
returns recover exactly when the first one that does not lose its lock goes through, or no later one
gets that far: the rollback marks itself as settled before its other calls. -/
theorem replacement_recovers_iff (plan : Plan) (around : Circumstances) (candidateId : Id) (s : Txn)
    (hfresh : candidateId < s.issued) (scripts : List (Site → Reply Failure)) :
    (RestoresOld plan around ↔ Restorable plan around) ∧
      (RecoversBy plan candidateId scripts { s with settled := false } ↔
        Resumable (fun script => RollbackGoes plan candidateId { s with script := script }) scripts) :=
  ⟨restoresOld_iff, recoversBy_iff rfl hfresh⟩

/-- A replacement of a running Box by a Box of another image. -/
def upgradePlan : Plan where
  old := some ⟨0, true, ⟨"sha256:old", "ploinky-box:1", .image, none, .null⟩⟩
  desired := ⟨"sha256:new", "ploinky-box:2", .image, none, .null⟩

/-- An engine on which the given calls do not go through. -/
def engineWith (script : Site → Reply Failure) : Circumstances := ⟨script, true, true, false, 1⟩

/-- The engine fails. -/
def engineError : Failure := transactionError "engine unavailable"

/-- The removal of the old Box takes place and throws. -/
def removalThrows : Circumstances := engineWith fun site =>
  if site = .removeOld then .throwAfter engineError else .pass

/-- The candidate does not become ready, and the engine then fails to list it. -/
def listingFails : Circumstances := engineWith fun site =>
  if site = .candidate .startAndWaitReady ∨ site = .recoverCandidate then .throwBefore engineError else .pass

/-- A replaced Box. -/
def replaced : Txn :=
  { (opening upgradePlan (engineWith fun _ => .pass)).removed true with
    presence := .owned ⟨1, "sha256:new", true⟩, issued := 2, candidateId := some 1
    candidateAttempted := true }

/-- The given call throws before its effect, and every other one goes through. -/
def failsAt (failing : Site) : Site → Reply Failure := fun site =>
  if site = failing then .throwBefore engineError else .pass

/-- A rollback that loses its lock is called again and restores the old Box. -/
theorem replacement_recovers_iff_relocked :
    RecoversBy upgradePlan 1 [failsAt .rollbackLock, fun _ => .pass] { replaced with settled := false } := by
  have hrestore : RestoreGoes ⟨0, true, ⟨"sha256:old", "ploinky-box:1", .image, none, .null⟩⟩
      { replaced with script := fun _ => .pass } := by
    exact ⟨rfl, rfl, fun _ => rfl, ⟨fun _ _ => rfl, rfl, by simp⟩, fun _ _ => rfl, .inl rfl⟩
  refine (replacement_recovers_iff upgradePlan removalThrows 1 replaced (by decide) _).2.mpr (.inl ?_)
  refine ⟨rfl, fun container h => ?_, fun old hold _ => ⟨by decide, ?_⟩⟩
  · cases h
    exact ⟨rfl, rfl⟩
  · cases hold
    exact hrestore

/-- Three failures that are not recovered from: the last one is a rollback that loses its lock, cannot
list the containers when it is called again, and then says that it was settled. -/
theorem replacement_lost : ¬ RestoresOld upgradePlan removalThrows ∧
    ¬ RestoresOld upgradePlan listingFails ∧
    ¬ RecoversBy upgradePlan 1 [failsAt .rollbackLock, failsAt .rollbackDiscover, fun _ => .pass]
      { replaced with settled := false } := by
  refine ⟨fun h => ?_, fun h => ?_, fun h => ?_⟩
  · have htried := (h _ _ rfl rfl rfl).1
    cases htried
  · have htried := (h _ _ rfl rfl rfl).1
    cases htried
  · exact (((h.2 _ rfl).2.2 _ rfl).2.1 _ rfl).1 rfl

end Ploinky.Box
