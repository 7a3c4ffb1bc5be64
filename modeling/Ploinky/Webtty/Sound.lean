import Ploinky.Webtty.Closing

/-!
# Sound sessions

A session carries what its close may rely on (`Sound`): a reported failure has left its scope, a scope has
turned off a switch, and each stage of the close knows what it has seen. `closes_resumeClose` says that every
step of a close keeps this and brings it nearer to its end. The switches of the manager are only ever
turned off (`Safety.Le`).
-/

namespace Ploinky.Webtty

open Js Session List Option

/-- What is turned off in the first is turned off in the second. -/
structure Safety.Le (a b : Safety) : Prop where
  ready : a.ready = false → b.ready = false
  provider : a.agentProviderReady = false → b.agentProviderReady = false
  targets : ∀ key, (a.quarantinedAgentTargets.lookup key).isSome → (b.quarantinedAgentTargets.lookup key).isSome
  containers : ∀ key ∈ a.quarantinedAgentContainers, key ∈ b.quarantinedAgentContainers

namespace Safety

variable {a b c : Safety}

theorem Le.refl (a : Safety) : a.Le a := ⟨id, id, fun _ => id, fun _ => id⟩

theorem Le.trans (h : a.Le b) (h' : b.Le c) : a.Le c :=
  ⟨h'.ready ∘ h.ready, h'.provider ∘ h.provider, fun key => h'.targets key ∘ h.targets key,
    fun key => h'.containers key ∘ h.containers key⟩

theorem le_disableForUnprovenCleanup (a : Safety) (category : Str) :
    a.Le (a.disableForUnprovenCleanup category) :=
  ⟨fun _ => rfl, id, fun _ => id, fun _ => id⟩

theorem le_disableAgentProvider (a : Safety) (category : Str) : a.Le (a.disableAgentProvider category) :=
  ⟨id, fun _ => rfl, fun _ => id, fun _ => id⟩

theorem le_quarantineAgentTarget (a : Safety) (target : TargetIdentity) (category : Str) :
    a.Le (a.quarantineAgentTarget target category) := by
  unfold quarantineAgentTarget
  split
  · exact le_disableAgentProvider a _
  · refine ⟨id, id, fun key h => ?_, fun key h => mem_append_left _ h⟩
    rw [AssocList.lookup_set]
    by_cases hkey : key = agentTargetKey target
    · simp only [hkey, if_true, isSome_some]
    · simpa only [hkey, if_false] using h

theorem Le.quarantined {target : TargetIdentity} (h : a.Le b)
    (hq : a.isAgentTargetQuarantined target = true) : b.isAgentTargetQuarantined target = true := by
  simp only [isAgentTargetQuarantined, Bool.and_eq_true, Bool.or_eq_true, contains_iff_mem] at hq ⊢
  exact ⟨hq.1, hq.2.imp (h.targets _) (h.containers _)⟩

end Safety

/-- New terminals like this one are refused: all of them, those of agents, or those of its target. -/
def FailsClosed (safety : Safety) (target : Target) : Prop :=
  safety.ready = false ∨ target.kind = .agent ∧
    (safety.agentProviderReady = false ∨ safety.isAgentTargetQuarantined target.identity = true)

section Switches

variable {safety safety' : Safety} {target : Target}

theorem FailsClosed.mono (h : FailsClosed safety target) (hle : safety.Le safety') :
    FailsClosed safety' target :=
  h.imp hle.ready fun h => ⟨h.1, h.2.imp hle.provider hle.quarantined⟩

theorem failsClosed_disableForUnprovenCleanup (safety : Safety) (target : Target) (category : Str) :
    FailsClosed (safety.disableForUnprovenCleanup category) target :=
  .inl rfl

theorem failsClosed_disableAgentProvider (safety : Safety) (hkind : target.kind = .agent) (category : Str) :
    FailsClosed (safety.disableAgentProvider category) target :=
  .inr ⟨hkind, .inl rfl⟩

theorem failsClosed_quarantineAgentTarget (safety : Safety) (hkind : target.kind = .agent)
    (category : Str) : FailsClosed (safety.quarantineAgentTarget target.identity category) target := by
  unfold Safety.quarantineAgentTarget
  split
  · exact failsClosed_disableAgentProvider safety hkind _
  · rename_i hkey
    have hstart : (agentStartKey target.identity).isEmpty = false := by
      unfold agentTargetKey at hkey
      by_contra hempty
      simp [Bool.eq_true_of_not_eq_false hempty] at hkey
    refine .inr ⟨hkind, .inr ?_⟩
    simp [Safety.isAgentTargetQuarantined, hkey, hstart]

end Switches

namespace Session

/-- The close has not ended. -/
def Open (closing : Bool) (s : Session) : Prop :=
  s.closing = closing ∧ s.closed = false ∧ s.released = false ∧ s.givenBack = 0

/-- The session is out of the table, and its close has not ended. -/
def Held (s : Session) : Prop := s.Open true ∧ s.tombstone = some ⟨.pending, none, false⟩

/-- The close was called during the startup. -/
def Cancelled (options : CloseOptions) (s : Session) : Prop :=
  s.Open false ∧ s.startupCancellation ≠ [] ∧ (options.workerExited = true → s.workerExited = true)

/-- There was nothing to reclaim, or it was reclaimed. -/
def Clean (s : Session) : Prop := s.record = none ∧ s.initRequested = false ∨ s.reclaimed = true

/-- How a close ends. -/
def Ended (safety : Safety) (s : Session) (tombstone : Tombstone) : Prop :=
  tombstone.closure = .proven ∧ s.workerExited = true ∧ s.cleanupFailureScope = none ∧ s.Clean ∨
    tombstone.closure = .unconfirmed ∧ FailsClosed safety s.target

/-- What a stage of the close has seen. -/
def StageSound (safety : Safety) (s : Session) : Prop :=
  match s.stage with
  | .idle => s.Open false
  | .cancelling options => s.Cancelled options
  | .awaitingStartup options => s.Cancelled options
  | .closingWorker _ => s.Held
  | .waitingExit _ => s.Held
  | .flushing _ exited _ => s.Held ∧ (exited = true → s.workerExited = true)
  | .recovering _ => s.Held ∧ s.workerExited = true
  | .reclaiming _ => s.Held ∧ s.workerExited = true
  | .removing => s.Held ∧ s.workerExited = true ∧ s.Clean
  | .finished => s.closed = true ∧ s.givenBack = 1 ∧ ∃ tombstone, s.tombstone = some tombstone ∧
      s.Ended safety tombstone

/-- The session has not been taken out of the table. -/
def isListed (s : Session) : Bool :=
  match s.stage with
  | .idle => true
  | .cancelling _ => true
  | .awaitingStartup _ => true
  | _ => false

/-- A bound for the calls that a close out of the table still awaits. -/
def remaining (s : Session) : Nat :=
  match s.stage with
  | .closingWorker _ => 6
  | .waitingExit _ => 5
  | .flushing _ _ awaited => if awaited = s.recordWrites then 3 else 4
  | .recovering _ => 2
  | .reclaiming _ => 2
  | .removing => 1
  | _ => 0

end Session

/-- What holds of a session in every state. -/
structure Sound (safety : Safety) (s : Session) : Prop where
  reported : s.reported = true → s.cleanupFailureScope ≠ none
  noted : s.cleanupFailureScope ≠ none → FailsClosed safety s.target
  proof : s.terminalCleanupProven = true → s.isAgent = true
  init : s.initRequested = true → s.record.isSome = true
  startup : s.startupInProgress = true → s.isListed = true
  stage : s.StageSound safety

/-- A session whose close is between two awaits. -/
structure Retired (safety : Safety) (s : Session) : Prop where
  sound : Sound safety s
  held : s.Held
  started : s.startupInProgress = false

/-- A step of a close: what was off stays off, and the session stays out of the table and is sound. At
most `n` calls are awaited after it. -/
structure Closes (n : Nat) (safety : Safety) (s : Session) (next : Safety × Session) : Prop where
  le : safety.Le next.1
  sound : Sound next.1 next.2
  startup : next.2.startupInProgress = s.startupInProgress
  listed : next.2.isListed = false
  remaining : next.2.remaining ≤ n

section Closing

variable {safety safety' : Safety} {s : Session}

/-- The fields that say how far the close has come. -/
def Session.course (s : Session) : CloseStage × Bool × Bool × Bool × Nat × Option Tombstone × Str :=
  (s.stage, s.closing, s.closed, s.released, s.givenBack, s.tombstone, s.startupCancellation)

/-- What a stage has seen stays seen when the course of the close is the same. -/
theorem Session.StageSound.of_course (h : s.StageSound safety) {s' : Session} (hcourse : s'.course = s.course)
    (hexited : s.workerExited = true → s'.workerExited = true)
    (hclean : s.isListed = false → s.Clean → s'.Clean)
    (hended : s.stage = .finished → ∀ tombstone, s.Ended safety tombstone → s'.Ended safety' tombstone) :
    s'.StageSound safety' := by
  simp only [course, Prod.mk.injEq] at hcourse
  obtain ⟨hstage, hclosing, hclosed, hreleased, hback, htombstone, hcancel⟩ := hcourse
  have hopen (closing : Bool) (hopen : s.Open closing) : s'.Open closing :=
    ⟨hclosing ▸ hopen.1, hclosed ▸ hopen.2.1, hreleased ▸ hopen.2.2.1, hback ▸ hopen.2.2.2⟩
  have hheld (hheld : s.Held) : s'.Held := ⟨hopen true hheld.1, htombstone ▸ hheld.2⟩
  have hcancelled (options : CloseOptions) (h : s.Cancelled options) : s'.Cancelled options :=
    ⟨hopen false h.1, hcancel ▸ h.2.1, hexited ∘ h.2.2⟩
  unfold Session.StageSound at h ⊢
  unfold isListed at hclean
  rw [hstage]
  cases hs : s.stage with
  | idle => exact hopen false (by simpa only [hs] using h)
  | cancelling options => exact hcancelled options (by simpa only [hs] using h)
  | awaitingStartup options => exact hcancelled options (by simpa only [hs] using h)
  | closingWorker | waitingExit => exact hheld (by simpa only [hs] using h)
  | flushing options exited awaited =>
    simp only [hs] at h
    exact ⟨hheld h.1, hexited ∘ h.2⟩
  | recovering | reclaiming =>
    simp only [hs] at h
    exact ⟨hheld h.1, hexited h.2⟩
  | removing =>
    simp only [hs] at h hclean
    exact ⟨hheld h.1, hexited h.2.1, hclean trivial h.2.2⟩
  | finished =>
    simp only [hs] at h
    obtain ⟨hend, hback', tombstone, htombstone', h⟩ := h
    exact ⟨hclosed ▸ hend, hback ▸ hback', tombstone, htombstone ▸ htombstone', hended hs tombstone h⟩

theorem Sound.weaken (h : Sound safety s) (hle : safety.Le safety') : Sound safety' s :=
  { h with
    noted := fun hscope => (h.noted hscope).mono hle
    stage := h.stage.of_course rfl id (fun _ => id) fun _ _ hended => hended.imp id fun h => ⟨h.1, h.2.mono hle⟩ }

theorem Retired.weaken (h : Retired safety s) (hle : safety.Le safety') : Retired safety' s :=
  { h with sound := h.sound.weaken hle }

theorem noteCleanupFailure_ne_none (s : Session) (scope : Scope) :
    (s.noteCleanupFailure scope).cleanupFailureScope ≠ none := by
  unfold noteCleanupFailure
  split
  · simp
  · rename_i hrank
    intro hnone
    cases scope <;> simp [hnone, scopeRank] at hrank

/-- Only the scope is changed. -/
theorem noteCleanupFailure_eq (s : Session) (scope : Scope) :
    ∃ noted, noted ≠ none ∧ s.noteCleanupFailure scope = { s with cleanupFailureScope := noted } := by
  have hnoted := noteCleanupFailure_ne_none s scope
  refine ⟨_, hnoted, ?_⟩
  unfold noteCleanupFailure
  split
  · rfl
  · rfl

variable {closure : Closure} {n : Nat} {cleanupProven exited : Bool} {outcome : CloseOutcome}
  {next : Safety × Session}

/-- A held session is settled once. -/
theorem settle_finish (hheld : s.Held) (hclosure : closure ≠ .pending) (failed : Bool) :
    (s.settleClosure closure failed).finish = { s with
      tombstone := some ⟨closure, if closure = .unconfirmed then s.cleanupFailureScope else none, failed⟩
      closed := true, closing := false, released := true, givenBack := 1, stage := .finished } := by
  obtain ⟨⟨-, -, hreleased, hback⟩, htombstone⟩ := hheld
  simp [settleClosure, htombstone, finish, hclosure, hreleased, hback]

/-- The close ends with a settled tombstone. -/
theorem closes_settle (h : Retired safety s) (hle : safety.Le safety') (hclosure : closure ≠ .pending)
    (failed : Bool) (hnoted : s.cleanupFailureScope ≠ none → FailsClosed safety' s.target)
    (hended : ∀ scope, s.Ended safety' ⟨closure, scope, failed⟩) :
    Closes n safety s (safety', (s.settleClosure closure failed).finish) := by
  rw [settle_finish h.held hclosure]
  have hsound := h.sound
  exact ⟨hle, { hsound with
    noted := hnoted
    startup := fun hstart => absurd (h.started ▸ hstart) (by decide)
    stage := ⟨rfl, rfl, _, rfl, hended _⟩ }, rfl, rfl, Nat.zero_le n⟩

/-- A failure is noted for a session whose close has not ended as proven. -/
theorem sound_note (h : Sound safety s) (hclosed : FailsClosed safety' s.target)
    (hopen : s.workerExited = false ∨ s.stage ≠ .finished) {noted : Option Scope} (hnoted : noted ≠ none)
    (reported : Bool) :
    Sound safety' { s with preserveRecord := true, reported, cleanupFailureScope := noted } := by
  refine { h with
    reported := fun _ => hnoted
    noted := fun _ => hclosed
    stage := h.stage.of_course rfl id (fun _ => id) fun hs tombstone hended => .inr ⟨?_, hclosed⟩ }
  rcases hended with ⟨-, hexited, -⟩ | hended
  · simp [hexited, hs] at hopen
  · exact hended.1

theorem closes_unconfirmed (h : Retired safety s) (hstage : s.stage ≠ .finished) (hle : safety.Le safety')
    (hclosed : FailsClosed safety' s.target) (scope : Scope) :
    Closes n safety s (safety', s.finishUnconfirmed scope) := by
  obtain ⟨noted, hnoted, heq⟩ := noteCleanupFailure_eq { s with preserveRecord := true } scope
  have hsound := sound_note h.sound hclosed (.inr hstage) hnoted s.reported
  simp only [finishUnconfirmed, heq]
  have hcloses := closes_settle (n := n) ⟨hsound, h.held, h.started⟩ (.refl safety')
    (show Closure.unconfirmed ≠ .pending by decide) false (fun _ => hclosed) (fun _ => .inr ⟨rfl, hclosed⟩)
  exact { hcloses with le := hle }

theorem closes_clean (h : Retired safety s) (hexited : s.workerExited = true) (hclean : s.Clean)
    (failed : Bool) : Closes n safety s (safety, s.finishClean failed) := by
  unfold finishClean
  by_cases hscope : s.cleanupFailureScope = none
  · rw [if_pos (isNone_iff_eq_none.mpr hscope)]
    exact closes_settle h (.refl safety) (by decide) failed h.sound.noted
      fun _ => .inl ⟨rfl, hexited, hscope, hclean⟩
  · rw [if_neg (by simpa using hscope)]
    exact closes_settle h (.refl safety) (by decide) failed h.sound.noted
      fun _ => .inr ⟨rfl, h.sound.noted hscope⟩

/-- A close moves to a stage that has seen enough. -/
theorem closes_stage (h : Retired safety s) (stage : CloseStage)
    (hlisted : isListed { s with stage } = false) (hstage : Session.StageSound safety { s with stage })
    (hn : remaining { s with stage } ≤ n) :
    Closes n safety s (safety, { s with stage }) :=
  have hsound := h.sound
  ⟨.refl safety, { hsound with startup := fun hstart => absurd (h.started ▸ hstart) (by decide), stage := hstage },
    rfl, hlisted, hn⟩

/-- A session that is not kept is clean, because there is no record, or because of the proof. -/
theorem clean_of_not_kept (h : Sound safety s) {kept : Bool}
    (hproven : s.record.isSome = true → kept = false → cleanupProven = true → s.reclaimed = true)
    (hkept : ¬((s.record.isSome || s.initRequested) && (kept || !cleanupProven)) = true) : s.Clean := by
  cases hrecord : s.record with
  | none =>
    refine .inl ⟨hrecord, ?_⟩
    cases hinit : s.initRequested with
    | false => rfl
    | true => simpa [hrecord] using h.init hinit
  | some record =>
    simp only [hrecord, isSome_some, Bool.true_or, Bool.true_and, Bool.or_eq_true, Bool.not_eq_true',
      not_or, Bool.not_eq_true, Bool.not_eq_false] at hkept
    exact .inr (hproven (by simp [hrecord]) hkept.1 hkept.2)

theorem closes_conclude (h : Retired safety s) (hstage : s.stage ≠ .finished) (options : CloseOptions)
    (hexited : exited = true → s.workerExited = true)
    (hproven : s.record.isSome = true → (options.preserveRecord || s.preserveRecord) = false → exited = true → cleanupProven = true → s.reclaimed = true)
    (category : Str) (scope : Option Scope) (removed : Bool) :
    Closes (n + 1) safety s (s.conclude safety options exited cleanupProven category scope removed) := by
  have hagent : s.isAgent = true → s.target.kind = .agent := by simp [isAgent]
  have hglobal (category : Str) : Closes (n + 1) safety s
      (safety.disableForUnprovenCleanup category, s.finishUnconfirmed .global) :=
    closes_unconfirmed h hstage (Safety.le_disableForUnprovenCleanup _ _)
      (failsClosed_disableForUnprovenCleanup _ _ _) _
  have hprovider (hkind : s.isAgent = true) (category : Str) : Closes (n + 1) safety s
      (safety.disableAgentProvider category, s.finishUnconfirmed .provider) :=
    closes_unconfirmed h hstage (Safety.le_disableAgentProvider _ _)
      (failsClosed_disableAgentProvider _ (hagent hkind) _) _
  unfold conclude
  cases exited with
  | false =>
    cases hkind : s.isAgent with
    | true => exact hprovider hkind _
    | false => exact hglobal _
  | true =>
    simp only [Bool.not_true, Bool.false_eq_true, if_false]
    split
    · split
      · exact hglobal _
      · rename_i hscope
        have hkind : s.isAgent = true := by
          cases hk : s.isAgent with
          | true => rfl
          | false => simp [hk] at hscope
        split
        · exact hprovider hkind _
        · exact closes_unconfirmed h hstage (Safety.le_quarantineAgentTarget _ _ _)
            (failsClosed_quarantineAgentTarget _ (hagent hkind) _) _
    · rename_i hpreserve
      have hclean := clean_of_not_kept h.sound (fun h h' => hproven h h' rfl) hpreserve
      split
      · exact closes_stage h _ rfl ⟨h.held, hexited rfl, hclean⟩ (Nat.succ_le_succ (Nat.zero_le n))
      · exact closes_clean h (hexited rfl) hclean false

theorem closes_gatherEvidence (h : Retired safety s) (hstage : s.stage ≠ .finished)
    (hexited : exited = true → s.workerExited = true) (options : CloseOptions) :
    Closes (n + 2) safety s (s.gatherEvidence safety options exited) := by
  unfold gatherEvidence
  dsimp only
  split
  · rename_i hrecover
    simp only [Bool.and_eq_true] at hrecover
    exact closes_stage h _ rfl ⟨h.held, hexited hrecover.1.1.1.1⟩ (Nat.le_add_left 2 n)
  · split
    · rename_i hreclaim
      simp only [Bool.and_eq_true] at hreclaim
      exact closes_stage h _ rfl ⟨h.held, hexited hreclaim.1.1⟩ (Nat.le_add_left 2 n)
    · rename_i hrecover hreclaim
      -- only a record whose terminal was starting is left, and no proof of the worker counts for it
      refine closes_conclude h hstage options hexited (fun hrecord hkept hgone hproof => ?_) _ _ _
      have hagent := h.sound.proof hproof
      simp only [Bool.or_eq_false_iff] at hkept
      simp_all

theorem closes_afterWrite (h : Retired safety s) (hstage : s.stage ≠ .finished)
    (hexited : exited = true → s.workerExited = true) (options : CloseOptions) (awaited : Nat)
    (rejected : Bool) : Closes (if awaited = s.recordWrites then 2 else 3) safety s
      (s.afterWrite safety options exited awaited rejected) := by
  have hnext {safety : Safety} {s : Session} (h : Retired safety s) (hstage : s.stage ≠ .finished)
      (hexited : exited = true → s.workerExited = true) :
      Closes (if awaited = s.recordWrites then 2 else 3) safety s
        (if awaited = s.recordWrites then s.gatherEvidence safety options exited
          else (safety, { s with stage := .flushing options exited s.recordWrites })) := by
    split
    · exact closes_gatherEvidence h hstage hexited options
    · exact closes_stage h _ rfl ⟨h.held, hexited⟩ (by simp [remaining])
  unfold afterWrite
  cases rejected with
  | false => exact hnext h hstage hexited
  | true =>
    obtain ⟨noted, hnoted, heq⟩ := noteCleanupFailure_eq { s with preserveRecord := true } .global
    have hle := safety.le_disableForUnprovenCleanup "recovery_record_write_failed"
    have hsound := sound_note h.sound (failsClosed_disableForUnprovenCleanup safety _
      "recovery_record_write_failed") (.inr hstage) hnoted s.reported
    simp only [heq]
    have hcloses := hnext ⟨hsound, h.held, h.started⟩ hstage hexited
    exact { hcloses with le := hle.trans hcloses.le }

theorem le_disable_if (safety : Safety) (scope : Prop) [Decidable scope] (category : Str) :
    safety.Le (if scope then safety.disableAgentProvider category else safety) := by
  split
  · exact safety.le_disableAgentProvider category
  · exact .refl safety

section Exited

variable (h : Retired safety s) (hstage : s.stage ≠ .finished) (hexited : s.workerExited = true)

include h hstage hexited

/-- A failed check may turn off the provider before it is handled. -/
theorem closes_failed (hle : safety.Le safety') (options : CloseOptions) (category : Str) (scope : Option Scope) :
    Closes 1 safety s (s.conclude safety' options true false category scope false) :=
  have hcloses := closes_conclude (h.weaken hle) hstage options (fun _ => hexited)
    (fun _ _ _ h => absurd h (by decide)) category scope false
  { hcloses with le := hle.trans hcloses.le }

theorem closes_afterRecovery (options : CloseOptions) {result : Recovery}
    (hproves : (CloseOutcome.recovered result).proves = true → s.reclaimed = true) :
    Closes 1 safety s (s.afterRecovery safety options result) := by
  cases result with
  | returned recovered category scope =>
    cases recovered with
    | true =>
      unfold afterRecovery
      exact closes_conclude h hstage options (fun _ => hexited) (fun _ _ _ _ => hproves rfl) _ _ _
    | false => exact closes_failed h hstage hexited (le_disable_if _ _ _) options _ _
  | threw provider => exact closes_failed h hstage hexited (le_disable_if _ _ _) options _ _

theorem closes_afterReclamation (options : CloseOptions) {result : Reclamation}
    (hproves : (CloseOutcome.reclaimed result).proves = true → s.reclaimed = true) :
    Closes 1 safety s (s.afterReclamation safety options result) := by
  cases result with
  | returned proven =>
    unfold afterReclamation
    refine closes_conclude h hstage options (fun _ => hexited) (fun _ _ _ hproven => hproves ?_) _ _ _
    subst hproven
    rfl
  | threw provider => exact closes_failed h hstage hexited (le_disable_if _ _ _) options _ _

end Exited

theorem closes_afterRemoval (h : Retired safety s) (hexited : s.workerExited = true) (hclean : s.Clean)
    (result : Option Bool) : Closes 0 safety s (s.afterRemoval safety result) := by
  -- a record that could not be removed is kept, and the close ends as before
  have hfailed (safety' : Safety) (hle : safety.Le safety') : Closes 0 safety s
      (safety', { s with preserveRecord := true }.finishClean true) := by
    have hsound := h.sound.weaken hle
    have hkept : Sound safety' { s with preserveRecord := true } := { hsound with }
    have hcloses := closes_clean (n := 0) ⟨hkept, h.held, h.started⟩ hexited hclean true
    exact { hcloses with le := hle }
  unfold afterRemoval
  split
  · exact closes_clean h hexited hclean false
  · dsimp only
    split
    · exact hfailed _ (safety.le_disableAgentProvider _)
    · exact hfailed _ (safety.le_disableForUnprovenCleanup _)

theorem sound_reclaim (h : Sound safety s) (proves : Bool) :
    Sound safety { s with reclaimed := s.reclaimed || proves } := by
  have hclean (hclean : s.Clean) : Session.Clean { s with reclaimed := s.reclaimed || proves } :=
    hclean.imp_right fun hreclaimed => by simp [hreclaimed]
  exact { h with
    stage := h.stage.of_course rfl id (fun _ => hclean) fun _ _ hended => hended.imp_left fun h =>
      ⟨h.1, h.2.1, h.2.2.1, hclean h.2.2.2⟩ }

/-- Every outcome brings a sound close nearer to its end, and keeps it sound. -/
theorem closes_continueClose (h : Sound safety s) (hproves : outcome.proves = true → s.reclaimed = true)
    (hnext : s.continueClose safety outcome = some next) : ∃ n, n < s.remaining ∧ Closes n safety s next := by
  have hretired (hheld : s.Held) (hlisted : s.isListed = false) : Retired safety s := by
    refine ⟨h, hheld, ?_⟩
    cases hs : s.startupInProgress with
    | false => rfl
    | true => exact absurd (h.startup hs) (by simp [hlisted])
  have hstage := h.stage
  unfold continueClose at hnext
  unfold Session.StageSound at hstage
  unfold isListed at hretired
  unfold remaining
  cases hs : s.stage with
  | idle | cancelling | awaitingStartup | finished => cases outcome <;> simp [hs] at hnext
  | closingWorker options =>
    simp only [hs] at hstage hretired hnext
    cases outcome with
    | settled =>
      exact ⟨5, Nat.lt_add_one 5, some.inj hnext ▸
        closes_stage (hretired hstage trivial) _ rfl hstage le_rfl⟩
    | _ => simp at hnext
  | waitingExit options =>
    simp only [hs] at hstage hretired hnext
    cases outcome with
    | exited confirmed =>
      simp only [ite_none_left_eq_some, some.injEq] at hnext
      obtain ⟨hconfirmed, rfl⟩ := hnext
      refine ⟨4, Nat.lt_add_one 4, closes_stage (hretired hstage trivial) _ rfl ⟨hstage, ?_⟩ ?_⟩
      · intro hexited
        simpa [hexited] using hconfirmed
      · simp [remaining]
    | _ => simp at hnext
  | flushing options exited awaited =>
    simp only [hs] at hstage hretired hnext
    cases outcome with
    | written rejected =>
      refine ⟨_, ?_, some.inj hnext ▸ closes_afterWrite (hretired hstage.1 trivial) (by simp [hs])
        hstage.2 options awaited rejected⟩
      dsimp only
      split <;> decide
    | _ => simp at hnext
  | recovering options =>
    simp only [hs] at hstage hretired hnext
    cases outcome with
    | recovered result =>
      exact ⟨1, Nat.lt_add_one 1, some.inj hnext ▸
        closes_afterRecovery (hretired hstage.1 trivial) (by simp [hs]) hstage.2 options hproves⟩
    | _ => simp at hnext
  | reclaiming options =>
    simp only [hs] at hstage hretired hnext
    cases outcome with
    | reclaimed result =>
      exact ⟨1, Nat.lt_add_one 1, some.inj hnext ▸
        closes_afterReclamation (hretired hstage.1 trivial) (by simp [hs]) hstage.2 options hproves⟩
    | _ => simp at hnext
  | removing =>
    simp only [hs] at hstage hretired hnext
    cases outcome with
    | removed result =>
      exact ⟨0, Nat.lt_add_one 0, some.inj hnext ▸
        closes_afterRemoval (hretired hstage.1 trivial) hstage.2.1 hstage.2.2 result⟩
    | _ => simp at hnext

theorem closes_resumeClose (h : Sound safety s) (hnext : s.resumeClose safety outcome = some next) :
    ∃ n, n < s.remaining ∧ Closes n safety s next := by
  obtain ⟨n, hn, hcloses⟩ := closes_continueClose (sound_reclaim h outcome.proves)
    (fun hproves => by simp [hproves]) hnext
  exact ⟨n, hn, { hcloses with }⟩

end Closing

end Ploinky.Webtty
