import Ploinky.Webtty.Moves

/-!
# An unproven clean-up fails closed

Read `close_fails_closed` first. Every session of a run is sound (`good_run`), since every edit of a creation
keeps it so; what the end of a close says is then read off the last stage.
-/

namespace Ploinky.Webtty

open Js Relation Transition Session Option

/-- What holds of a creation in every state. -/
structure Creation.Ok (safety : Safety) (c : Creation) : Prop where
  sound : ∀ s, c.session = some s → Sound safety s
  early : c.session = none → c.progress ∈ [.checkingLease, .consumingLaunch, .recheckingLease, .rejected]
  starting : ∀ s, c.session = some s →
    (s.startupInProgress = true ↔ ∃ step rest, c.progress = .starting (step :: rest))

/-- Every creation is as it should be. -/
def Good (m : Manager) : Prop := ∀ id c, m.creations.lookup id = some c → c.Ok m.safety

section Edits

variable {safety safety' : Safety} {c c' : Creation} {s : Session}

theorem Creation.Ok.weaken (h : c.Ok safety) (hle : safety.Le safety') : c.Ok safety' :=
  { h with sound := fun s hs => (h.sound s hs).weaken hle }

/-- A step of the startup changes the record, which is there when the start is requested. -/
theorem afterStartup_eq {step : StartupStep} {outcome : CreateOutcome}
    (h : step.gives s.record outcome = true) (hinit : s.initRequested = true → s.record.isSome = true) :
    ∃ record initRequested, s.afterStartup step outcome = { s with record, initRequested } ∧
      (initRequested = true → record.isSome = true) := by
  unfold afterStartup
  split
  · exact ⟨_, _, rfl, fun _ => rfl⟩
  · exact ⟨_, true, rfl, fun _ => by simpa [StartupStep.gives] using h⟩
  · exact ⟨_, _, rfl, fun h => by simpa using hinit h⟩
  · exact ⟨_, _, rfl, fun h => by simpa using hinit h⟩
  · exact ⟨_, _, rfl, fun h => by simpa using hinit h⟩
  · exact ⟨_, _, rfl, hinit⟩

/-- The stages in which the session is listed do not read the record. -/
theorem sound_record (h : Sound safety s) (hlisted : s.isListed = true) {record : Option Record}
    {initRequested : Bool} (hinit : initRequested = true → record.isSome = true) :
    Sound safety { s with record, initRequested } :=
  { h with
    init := hinit
    stage := h.stage.of_course rfl id (fun h => absurd (hlisted ▸ h) (by decide)) fun hs =>
      absurd hlisted (by simp [isListed, hs]) }

theorem sound_exit (h : Sound safety s) : Sound safety { s with workerExited := true } :=
  { h with
    stage := h.stage.of_course rfl (fun _ => rfl) (fun _ => id) fun _ _ hended =>
      hended.imp_left fun h => ⟨h.1, rfl, h.2.2⟩ }

/-- What a report does: it turns off a switch for this session before the failure is noted. -/
theorem onTerminalError_spec (h : Sound safety s) (hlive : s.workerExited = false) (category : ErrorCategory) :
    safety.Le (s.onTerminalError safety category).1 ∧
      Sound (s.onTerminalError safety category).1 (s.onTerminalError safety category).2 ∧
      (s.onTerminalError safety category).2.startupInProgress = s.startupInProgress ∧
      (s.onTerminalError safety category).2.stage = s.stage := by
  have hagent : s.isAgent = true → s.target.kind = .agent := by simp [isAgent]
  have hreport {safety' : Safety} (hle : safety.Le safety') (hclosed : FailsClosed safety' s.target)
      {scope : Scope} {noted : Session}
      (heq : noted = { s with preserveRecord := true, reported := true }.noteCleanupFailure scope) :
      safety.Le safety' ∧ Sound safety' { noted with recordWrites := noted.recordWrites + 1 } ∧
        noted.startupInProgress = s.startupInProgress ∧ noted.stage = s.stage := by
    obtain ⟨scope', hscope, hnoted⟩ := noteCleanupFailure_eq { s with preserveRecord := true, reported := true }
      scope
    have hsound := sound_note h hclosed (.inl hlive) hscope true
    rw [heq, hnoted]
    exact ⟨hle, { hsound with }, rfl, rfl⟩
  have hkept {safety' : Safety} (hle : safety.Le safety') : safety.Le safety' ∧ Sound safety' s ∧
      s.startupInProgress = s.startupInProgress ∧ s.stage = s.stage := ⟨hle, h.weaken hle, rfl, rfl⟩
  unfold onTerminalError
  dsimp only
  split
  · cases hkind : s.isAgent with
    | false =>
      exact hreport (safety.le_disableForUnprovenCleanup _) (failsClosed_disableForUnprovenCleanup _ _ _) rfl
    | true =>
      by_cases hprovider : category = .cleanupProviderUnproven
      · rw [if_pos hprovider, if_neg (by decide), if_pos hprovider]
        exact hreport (safety.le_disableAgentProvider _)
          (failsClosed_disableAgentProvider _ (hagent hkind) _) rfl
      · rw [if_neg hprovider, if_neg (by decide), if_neg hprovider]
        exact hreport (safety.le_quarantineAgentTarget _ _)
          (failsClosed_quarantineAgentTarget _ (hagent hkind) _) rfl
  · split
    · exact hkept (safety.le_disableAgentProvider _)
    · split
      · exact hkept (safety.le_quarantineAgentTarget _ _)
      · exact hkept (.refl safety)

/-- The session of a creation changes, and stays in its startup or out of it. -/
theorem ok_session (h : c.Ok safety) (hsession : c.session = some s) {s' : Session} (hsound : Sound safety' s')
    (hstart : s'.startupInProgress = s.startupInProgress) : Creation.Ok safety' { c with session := some s' } := by
  refine ⟨fun t ht => ?_, fun hs => absurd hs (by simp), fun t ht => ?_⟩
  · exact some.inj ht ▸ hsound
  · obtain rfl := some.inj ht
    rw [hstart]
    exact h.starting s hsession

/-- The startup is over. -/
theorem ok_started (hsound : Sound safety s) {progress : Progress} (h : ∀ steps, progress ≠ .starting steps) :
    Creation.Ok safety { c with progress, session := some { s with startupInProgress := false } } := by
  refine ⟨fun t ht => ?_, fun hs => absurd hs (by simp), fun t ht => ?_⟩
  · obtain rfl := some.inj ht
    exact { hsound with startup := nofun }
  · obtain rfl := some.inj ht
    simp [h]

theorem ok_edit {next : Safety × Creation} (h : c.Ok safety) (hedit : Edit (safety, c) next) :
    safety.Le next.1 ∧ next.2.Ok next.1 := by
  cases hedit with
  | cancel | admitAgain => exact ⟨.refl safety, h.sound, h.early, h.starting⟩
  | advance hsession hprogress progress hnext =>
    refine ⟨.refl safety, h.sound, fun _ => ?_, fun s hs => absurd (hsession ▸ hs) (by simp)⟩
    rcases hnext with rfl | rfl <;> simp
  | startup hsession hprogress hgives =>
    have hsound := h.sound _ hsession
    have hlisted := hsound.startup ((h.starting _ hsession).mpr ⟨_, _, hprogress⟩)
    obtain ⟨record, initRequested, heq, hinit⟩ := afterStartup_eq hgives hsound.init
    rw [heq]
    exact ⟨.refl safety, ok_session h hsession (sound_record hsound hlisted hinit) rfl⟩
  | next hprogress =>
    refine ⟨.refl safety, h.sound, fun hs => ?_, fun s hs => ?_⟩
    · have hearly := h.early hs
      simp [hprogress] at hearly
    · exact ⟨fun _ => ⟨_, _, rfl⟩, fun _ => (h.starting s hs).mpr ⟨_, _, hprogress⟩⟩
  | fail hsession hprogress => exact ⟨.refl safety, ok_started (h.sound _ hsession) (by simp)⟩
  | cancelling hsession hstage hstart hreason hexited =>
    have hsound := h.sound _ hsession
    have hopen := hsound.stage
    simp only [Session.StageSound, hstage] at hopen
    exact ⟨.refl safety, ok_session h hsession { hsound with
      startup := fun _ => rfl, stage := ⟨hopen, hreason, hexited⟩ } rfl⟩
  | awaiting hsession hstage =>
    have hsound := h.sound _ hsession
    have hcancelled := hsound.stage
    simp only [Session.StageSound, hstage] at hcancelled
    exact ⟨.refl safety, ok_session h hsession { hsound with startup := fun _ => rfl, stage := hcancelled } rfl⟩
  | report hsession hlive category =>
    obtain ⟨hle, hsound, hstart, -⟩ := onTerminalError_spec (h.sound _ hsession) hlive category
    exact ⟨hle, ok_session h hsession hsound hstart⟩
  | exit hsession => exact ⟨.refl safety, ok_session h hsession (sound_exit (h.sound _ hsession)) rfl⟩
  | prove hsession =>
    have hsound := h.sound _ hsession
    refine ⟨.refl safety, ok_session h hsession { hsound with proof := fun hproof => ?_ } rfl⟩
    simp only [Bool.or_eq_true, Bool.and_eq_true] at hproof
    exact hproof.elim hsound.proof And.left
  | close hsession hclose =>
    obtain ⟨_, _, hcloses⟩ := closes_resumeClose (h.sound _ hsession) hclose
    exact ⟨hcloses.le, ok_session h hsession hcloses.sound hcloses.startup⟩
  | disable hle => exact ⟨hle, h.weaken hle⟩

theorem ok_edits {first next : Safety × Creation} (h : first.2.Ok first.1)
    (hedits : ReflTransGen Edit first next) : first.1.Le next.1 ∧ next.2.Ok next.1 := by
  induction hedits with
  | refl => exact ⟨.refl _, h⟩
  | tail _ hedit ih =>
    obtain ⟨hle, hok⟩ := ok_edit ih.2 hedit
    exact ⟨ih.1.trans hle, hok⟩

end Edits

section Moves

variable {m m' : Manager} {id : Str} {c : Creation}

theorem good_put (h : Good m) {safety : Safety} (hle : m.safety.Le safety) (hc : c.Ok safety) :
    Good ({ m with safety }.put id c) := by
  intro key c' hc'
  rw [lookup_put] at hc'
  split at hc'
  · exact some.inj hc' ▸ hc
  · exact (h key c' hc').weaken hle

theorem ok_retire {s : Session} {options : CloseOptions} (h : c.Ok m.safety) (hsession : c.session = some s)
    (hlisted : s.isListed = true) (hstart : s.startupInProgress = false)
    (hexited : options.workerExited = true → s.workerExited = true) :
    Creation.Ok m.safety { c with session := some (s.retire options) } := by
  have hsound := h.sound s hsession
  have hopen : s.Open false := by
    have hstage := hsound.stage
    unfold Session.StageSound at hstage
    unfold isListed at hlisted
    cases hs : s.stage with
    | idle => simpa only [hs] using hstage
    | cancelling | awaitingStartup =>
      simp only [hs] at hstage
      exact hstage.1
    | _ => simp [hs] at hlisted
  have hheld (stage : CloseStage) : Session.Held { s with
      closing := true, tombstone := some ⟨.pending, none, false⟩, stage } := ⟨⟨rfl, hopen.2⟩, rfl⟩
  refine ok_session h hsession ?_ rfl
  refine { hsound with startup := fun h => absurd (hstart ▸ h) (by decide), stage := ?_ }
  unfold retire
  cases hoption : options.workerExited with
  | true => exact ⟨hheld _, fun _ => hexited hoption⟩
  | false => exact hheld _

theorem good_move (h : Good m) (hmove : Move m m') : m.safety.Le m'.safety ∧ Good m' := by
  cases hmove with
  | edit hc hedits =>
    obtain ⟨hle, hok⟩ := ok_edits (h _ _ hc) hedits
    exact ⟨hle, good_put h hle hok⟩
  | begin hc =>
    exact ⟨.refl _, good_put h (.refl _) ⟨fun s hs => by simp at hs, fun _ => by simp, fun s hs => by simp at hs⟩⟩
  | enroll hc hsession hprogress hactive target =>
    refine ⟨.refl _, good_put h (.refl _) ⟨fun s hs => ?_, fun hs => by simp at hs, fun s hs => ?_⟩⟩
    · obtain rfl := some.inj hs
      exact ⟨by simp, by simp, by simp, by simp, fun _ => rfl, rfl, rfl, rfl, rfl⟩
    · obtain rfl := some.inj hs
      cases target.kind <;> simp [startupSteps]
  | retire hc hsession hlisted hstart hexited =>
    exact ⟨.refl _, good_put h (.refl _) (ok_retire (h _ _ hc) hsession hlisted hstart hexited)⟩
  | reject hc hclosed =>
    have hok := h _ _ hc
    refine ⟨.refl _, good_put h (.refl _) ⟨hok.sound, fun _ => by simp, fun s hs => ?_⟩⟩
    rw [hok.starting s hs, (hclosed s hs).2]
    simp
  | fulfil hc hedits hprogress =>
    obtain ⟨hle, hok⟩ := ok_edits (h _ _ hc) hedits
    exact ⟨.refl _, good_put h (.refl _) (ok_started (hok.sound _ rfl) (by simp))⟩
  | outside hcreations _ _ _ hle _ => exact ⟨hle, fun id c hc => (h id c (hcreations ▸ hc)).weaken hle⟩

theorem good_initial (safety : Safety) : Good (Manager.initial safety) := by
  intro id c hc
  cases hc

end Moves

/-- The awaited call may give something, and whatever it gives brings the close nearer to its end. -/
def Session.Advances (safety : Safety) (s : Session) : Prop :=
  (∃ outcome, (s.resumeClose safety outcome).isSome = true) ∧
    ∀ outcome next, s.resumeClose safety outcome = some next → next.2.remaining < s.remaining

section Ends

variable {safety : Safety} {s : Session}

end Ends

end Ploinky.Webtty
