import Ploinky.Webtty.Manager
import Ploinky.Webtty.Sound

/-!
# The moves of the manager

What a step may do is said once: it is a sequence of moves (`step_moves`), and a move changes one creation
(`Edit`), with the tables as they go with it. An invariant of the manager is then shown move by move.
-/

namespace Ploinky.Webtty

open Js Relation Manager List Option

/-- What may happen to a creation while the tables stay as they are. -/
inductive Edit : Safety × Creation → Safety × Creation → Prop
  | cancel {safety c} (h : c.cancellation = []) (reason : Str) :
      Edit (safety, c) (safety, { c with cancellation := reason })
  | admitAgain {safety c} (time : Nat) : Edit (safety, c) (safety, { c with adminAdmittedAt := time })
  | advance {safety c} (hsession : c.session = none) (hprogress : c.progress ≠ .rejected) (progress : Progress)
      (h : progress = .consumingLaunch ∨ progress = .recheckingLease) :
      Edit (safety, c) (safety, { c with progress })
  | startup {safety c s step rest outcome} (hsession : c.session = some s)
      (hprogress : c.progress = .starting (step :: rest)) (h : step.gives s.record outcome = true) :
      Edit (safety, c) (safety, { c with session := some (s.afterStartup step outcome) })
  | next {safety c last steps step rest} (hprogress : c.progress = .starting (last :: steps)) :
      Edit (safety, c) (safety, { c with progress := .starting (step :: rest) })
  | fail {safety c s steps} (hsession : c.session = some s) (hprogress : c.progress = .starting steps) :
      Edit (safety, c) (safety, { c with
        progress := .failing, session := some { s with startupInProgress := false } })
  | cancelling {safety c s options} (hsession : c.session = some s) (hstage : s.stage = .idle)
      (hstart : s.startupInProgress = true) {reason : Str} (hreason : reason ≠ [])
      (hexited : options.workerExited = true → s.workerExited = true) :
      Edit (safety, c) (safety, { c with session := some { s with
        startupCancellation := reason, stage := .cancelling options } })
  | awaiting {safety c s options} (hsession : c.session = some s) (hstage : s.stage = .cancelling options) :
      Edit (safety, c) (safety, { c with session := some { s with stage := .awaitingStartup options } })
  | report {safety c s} (hsession : c.session = some s) (hlive : s.workerExited = false)
      (category : ErrorCategory) : Edit (safety, c) ((s.onTerminalError safety category).1,
        { c with session := some (s.onTerminalError safety category).2 })
  | exit {safety c s} (hsession : c.session = some s) :
      Edit (safety, c) (safety, { c with session := some { s with workerExited := true } })
  | prove {safety c s proven} (hsession : c.session = some s) :
      Edit (safety, c) (safety, { c with session := some { s with
        terminalCleanupProven := s.terminalCleanupProven || s.isAgent && proven } })
  | close {safety c s outcome next} (hsession : c.session = some s)
      (h : s.resumeClose safety outcome = some next) :
      Edit (safety, c) (next.1, { c with session := some next.2 })
  | disable {safety safety' c} (h : safety.Le safety') : Edit (safety, c) (safety', c)

/-- One change of the manager. -/
inductive Move (m : Manager) : Manager → Prop
  | edit {id c next} (hc : m.creations.lookup id = some c) (h : ReflTransGen Edit (m.safety, c) next) :
      Move m ({ m with safety := next.1 }.put id next.2)
  | begin {id owner time} (hc : m.creations.lookup id = none) :
      Move m { m.put id ⟨owner, time, [], .checkingLease, none⟩ with
        pendingCreations := m.pendingCreations ++ [id]
        ownerIndex := addOwned m.ownerIndex owner id }
  | enroll {id c} (hc : m.creations.lookup id = some c) (hsession : c.session = none)
      (hprogress : c.progress = .recheckingLease) (hactive : c.cancellation = []) (target : Target) :
      Move m (m.enroll id c target)
  | retire {id c s options} (hc : m.creations.lookup id = some c) (hsession : c.session = some s)
      (hlisted : s.isListed = true) (hstart : s.startupInProgress = false)
      (hexited : options.workerExited = true → s.workerExited = true) : Move m (m.retire id c s options)
  | reject {id c} (hc : m.creations.lookup id = some c)
      (h : ∀ s, c.session = some s → s.closed = true ∧ c.progress = .failing) : Move m (m.reject id c)
  | fulfil {id c s steps} (hc : m.creations.lookup id = some c)
      (h : ReflTransGen Edit (m.safety, c) (m.safety, { c with session := some s }))
      (hprogress : c.progress = .starting steps) :
      Move m ((m.put id { c with
        progress := .fulfilled, session := some { s with startupInProgress := false } }).endCreate id c.owner)
  | outside {m' : Manager} (hcreations : m'.creations = m.creations)
      (hpending : m'.pendingCreations = m.pendingCreations) (hsessions : m'.sessions = m.sessions)
      (hindex : m'.ownerIndex = m.ownerIndex) (hle : m.safety.Le m'.safety)
      (hrequests : ∀ r ∈ m'.requests, r ∈ m.requests ∨ m.mayAuthorize r.sessionId = true) : Move m m'

section Steps

variable {m m' : Manager} {id : Str} {c : Creation} {s : Session}

theorem find_eq_some : m.find id = some (c, s) ↔ m.creations.lookup id = some c ∧ c.session = some s := by
  unfold find
  cases hc : m.creations.lookup id with
  | none => simp
  | some c' =>
    cases hs : c'.session with
    | none =>
      simp only [bind_eq_bind, bind_some, hs, bind_none, reduceCtorEq, some.injEq,
        false_iff, not_and]
      rintro rfl
      simp [hs]
    | some s' =>
      simp only [Option.bind_eq_bind, Option.bind_some, hs, Option.pure_def, Option.some.injEq, Prod.mk.injEq]
      constructor
      · rintro ⟨rfl, rfl⟩
        exact ⟨rfl, hs⟩
      · rintro ⟨rfl, h⟩
        exact ⟨rfl, Option.some.inj (hs.symm.trans h)⟩

theorem lookup_put (m : Manager) (id key : Str) (c : Creation) :
    (m.put id c).creations.lookup key = if key = id then some c else m.creations.lookup key :=
  AssocList.lookup_set _ _ _

theorem orText_ne_nil (text : Str) {other : String} (hother : lit other ≠ []) : orText text other ≠ [] := by
  unfold orText
  split
  · exact hother
  · rename_i h
    simpa using h

/-- A single edit. -/
theorem move_edit {next : Safety × Creation} (hc : m.creations.lookup id = some c)
    (h : Edit (m.safety, c) next) : ReflTransGen Move m ({ m with safety := next.1 }.put id next.2) :=
  .single (.edit hc (.single h))

theorem closeSession_moves {reason : Str} {options : CloseOptions}
    (hexited : ∀ c s, m.find id = some (c, s) → options.workerExited = true → s.workerExited = true) :
    ReflTransGen Move m (m.closeSession id reason options) := by
  unfold closeSession
  split
  · exact .refl
  · rename_i c s hfind
    obtain ⟨hc, hs⟩ := find_eq_some.mp hfind
    split
    · exact .refl
    · rename_i hstage
      simp only [Bool.or_eq_true, decide_eq_true_eq, not_or, not_not] at hstage
      split
      · rename_i hstart
        exact move_edit hc (.cancelling hs hstage.1 hstart (orText_ne_nil reason (by decide)) (hexited c s hfind))
      · rename_i hstart
        exact .single (.retire hc hs (by simp [Session.isListed, hstage.1]) (by simpa using hstart)
          (hexited c s hfind))

theorem closeSession_moves_plain {reason : Str} {preserveRecord : Bool} :
    ReflTransGen Move m (m.closeSession id reason ⟨false, preserveRecord⟩) :=
  closeSession_moves fun _ _ _ h => absurd h Bool.false_ne_true

theorem closeOwnerEntry_moves (m : Manager) (reason id : Str) :
    ReflTransGen Move m (m.closeOwnerEntry reason id) := by
  have hclose (m' : Manager) : ReflTransGen Move m'
      (if m'.sessions.contains id then m'.closeSession id reason ⟨false, false⟩ else m') := by
    split
    · exact closeSession_moves_plain
    · exact .refl
  refine .trans ?_ (hclose (m.cancelPending reason id))
  unfold cancelPending
  split
  · rename_i c hc
    split
    · rename_i h
      simp only [Bool.and_eq_true, List.isEmpty_iff] at h
      exact move_edit hc (.cancel h.2 reason)
    · exact .refl
  · exact .refl

theorem closeEntries_moves (m : Manager) (reason : Str) (chosen : Manager → Str → Bool) (ids : List Str) :
    ReflTransGen Move m (m.closeEntries reason chosen ids) := by
  induction ids generalizing m with
  | nil => exact .refl
  | cons id rest ih =>
    refine .trans (?_ : ReflTransGen Move m (if chosen m id then m.closeOwnerEntry reason id else m)) (ih _)
    split
    · exact closeOwnerEntry_moves m reason id
    · exact .refl

/-- The switches change, and nothing else. -/
theorem move_safety (m : Manager) {safety : Safety} (hle : m.safety.Le safety) : Move m { m with safety } :=
  .outside rfl rfl rfl rfl hle fun _ hr => .inl hr

theorem failStartup_moves {steps : List StartupStep} (hc : m.creations.lookup id = some c)
    (h : ReflTransGen Edit (m.safety, c) (m.safety, { c with session := some s }))
    (hprogress : c.progress = .starting steps) (workerUnproven : Bool) :
    ReflTransGen Move m (m.failStartup id c s workerUnproven) :=
  .trans (.single (.edit hc ((h.tail (.fail rfl hprogress)).tail (.disable (le_disable_if _ _ _)))))
    closeSession_moves_plain

theorem resumeStartup_moves {step : StartupStep} {rest : List StartupStep} {outcome : CreateOutcome}
    {current : Bool} (hc : m.creations.lookup id = some c) (hs : c.session = some s)
    (hprogress : c.progress = .starting (step :: rest)) (hgives : step.gives s.record outcome = true) :
    ReflTransGen Move m (m.resumeStartup id c s step rest outcome current) := by
  have hstartup : ReflTransGen Edit (m.safety, c)
      (m.safety, { c with session := some (s.afterStartup step outcome) }) := .single (.startup hs hprogress hgives)
  have hfail := failStartup_moves hc hstartup hprogress
  unfold resumeStartup
  dsimp only
  split
  · exact hfail _
  · split
    · exact hfail false
    · split
      · exact .single (.fulfil hc hstartup hprogress)
      · rename_i hrest
        obtain ⟨next, rest, rfl⟩ := exists_cons_of_ne_nil (by simpa using hrest)
        exact .single (.edit hc (hstartup.tail (.next hprogress)))

theorem resumeCreate_moves {outcome : CreateOutcome} {current : Bool} (hc : m.creations.lookup id = some c)
    (h : m.resumeCreate id c outcome current = some m') : ReflTransGen Move m m' := by
  have hreject (hs : c.session = none) : ReflTransGen Move m (m.reject id c) :=
    .single (.reject hc fun s h => by simp [hs] at h)
  have hadvance (hs : c.session = none) (hp : c.progress ≠ .rejected) {progress : Progress}
      (hprogress : progress = .consumingLaunch ∨ progress = .recheckingLease) :
      ReflTransGen Move m (m.put id { c with progress }) := move_edit hc (.advance hs hp progress hprogress)
  unfold resumeCreate at h
  split at h
  case h_1 hp hs =>
    obtain rfl := some.inj h
    split
    · exact hadvance hs (by simp [hp]) (.inl rfl)
    · exact hreject hs
  case h_2 hp hs =>
    obtain rfl := some.inj h
    split
    · exact hadvance hs (by simp [hp]) (.inr rfl)
    · exact hreject hs
  case h_3 target hp hs =>
    obtain rfl := some.inj h
    split
    · rename_i hactive
      simp only [Bool.and_eq_true, List.isEmpty_iff] at hactive
      exact .single (.enroll hc hs hp hactive.1 target)
    · exact hreject hs
  case h_4 hp hs => exact some.inj h ▸ hreject hs
  case h_5 hp hs => exact some.inj h ▸ hreject hs
  case h_6 hp hs => exact some.inj h ▸ hreject hs
  case h_7 step rest s hp hs =>
    simp only [ite_none_right_eq_some, some.injEq] at h
    obtain ⟨hgives, rfl⟩ := h
    exact resumeStartup_moves hc hs hp hgives
  case h_8 s hp hs =>
    simp only [ite_none_right_eq_some, some.injEq] at h
    obtain ⟨hclosed, rfl⟩ := h
    refine .single (.reject hc fun s' hs' => ?_)
    obtain rfl := some.inj (hs.symm.trans hs')
    exact ⟨hclosed, hp⟩
  case h_9 => cases h

theorem onWorker_eq_some {handle : Creation → Session → Manager} (h : m.onWorker id handle = some m') :
    ∃ c s, m.creations.lookup id = some c ∧ c.session = some s ∧ s.workerExited = false ∧ handle c s = m' := by
  simp only [onWorker, bind_eq_bind, bind_eq_some_iff, Prod.exists,
    ite_none_left_eq_some, Bool.not_eq_true, some.injEq] at h
  obtain ⟨c, s, hfind, hlive, rfl⟩ := h
  obtain ⟨hc, hs⟩ := find_eq_some.mp hfind
  exact ⟨c, s, hc, hs, hlive, rfl⟩

theorem resumeClose_moves {outcome : CloseOutcome} (hsound : Sound m.safety s)
    (hc : m.creations.lookup id = some c) (hs : c.session = some s)
    (h : m.resumeClose id c s outcome = some m') : ReflTransGen Move m m' := by
  have hstage := hsound.stage
  unfold Session.StageSound at hstage
  unfold resumeClose at h
  split at h
  · rename_i options hcancelling
    exact some.inj h ▸ move_edit hc (.awaiting hs hcancelling)
  · rename_i options hawaiting
    simp only [hawaiting] at hstage
    simp only [ite_none_left_eq_some, some.injEq] at h
    obtain ⟨hstart, rfl⟩ := h
    exact .single (.retire hc hs (by simp [Session.isListed, hawaiting]) (by simpa using hstart) hstage.2.2)
  · simp only [Option.bind_eq_bind, Option.bind_eq_some_iff, Option.pure_def, Option.some.injEq] at h
    obtain ⟨next, hnext, rfl⟩ := h
    exact move_edit hc (.close hs hnext)

theorem admitAgain_moves (m : Manager) (r : Request) : ReflTransGen Move m (m.admitAgain r) := by
  unfold admitAgain
  split
  · rename_i c hc
    split
    · exact move_edit hc (.admitAgain _)
    · exact .refl
  · exact .refl

/-- Every step is a sequence of moves. -/
theorem step_moves {e : Event} (hsound : ∀ id c s, m.creations.lookup id = some c → c.session = some s →
    Sound m.safety s) (h : m.step e = some m') : ReflTransGen Move m m' := by
  cases e with
  | create id principal createdAt =>
    simp only [step, ite_none_left_eq_some, some.injEq, Bool.not_eq_true,
      isSome_eq_false_iff, isNone_iff_eq_none] at h
    obtain ⟨hc, rfl⟩ := h
    exact .single (.begin hc)
  | resumeCreate id outcome current =>
    simp only [step, bind_eq_bind, bind_eq_some_iff] at h
    obtain ⟨c, hc, h⟩ := h
    exact resumeCreate_moves hc h
  | close id reason preserveRecord => exact some.inj h ▸ closeSession_moves_plain
  | terminalExit id category cleanupProven =>
    unfold step at h
    obtain ⟨c, s, hc, hs, -, rfl⟩ := onWorker_eq_some h
    exact (move_edit hc (.prove hs)).trans closeSession_moves_plain
  | processExit id category =>
    unfold step at h
    obtain ⟨c, s, hc, hs, -, rfl⟩ := onWorker_eq_some h
    refine (move_edit hc (.exit hs)).trans (closeSession_moves fun c' s' hfind _ => ?_)
    obtain ⟨hc', hs'⟩ := find_eq_some.mp hfind
    rw [lookup_put, if_pos rfl] at hc'
    obtain rfl := some.inj hc'
    obtain rfl := some.inj hs'
    rfl
  | terminalError id category =>
    unfold step at h
    obtain ⟨c, s, hc, hs, hlive, rfl⟩ := onWorker_eq_some h
    refine (move_edit hc (.report hs hlive category)).trans ?_
    dsimp only
    split
    · exact .refl
    · exact closeSession_moves_plain
  | errorCategory id category =>
    simp only [step, bind_eq_bind, bind_eq_some_iff, some.injEq] at h
    obtain ⟨c, s, -, rfl⟩ := h
    exact .head (move_safety m (le_disable_if _ _ _)) closeSession_moves_plain
  | resumeClose id outcome =>
    simp only [step, bind_eq_bind, bind_eq_some_iff, Prod.exists] at h
    obtain ⟨c, s, hfind, h⟩ := h
    obtain ⟨hc, hs⟩ := find_eq_some.mp hfind
    exact resumeClose_moves (hsound id c s hc hs) hc hs h
  | closePrincipal principal => exact some.inj h ▸ closeEntries_moves _ _ _ _
  | observe decision =>
    obtain rfl := some.inj h
    split
    · exact closeEntries_moves _ _ _ _
    · exact .refl
  | closeAll reason =>
    obtain rfl := some.inj h
    split
    · exact closeEntries_moves _ _ _ _
    · refine .trans (.single ?_) (closeEntries_moves _ _ _ _)
      exact .outside rfl rfl rfl rfl ⟨fun _ => rfl, id, fun _ => id, fun _ => id⟩ fun _ hr => .inl hr
  | authorize r =>
    obtain rfl := some.inj h
    split
    · rename_i hmay
      refine .single (.outside rfl rfl rfl rfl (.refl _) fun r' hr => ?_)
      rcases mem_append.mp hr with hr | hr
      · exact .inl hr
      · exact .inr (mem_singleton.mp hr ▸ hmay)
    · exact .refl
  | resumeAuthorize index valid =>
    simp only [step, bind_eq_bind, bind_eq_some_iff, some.injEq] at h
    obtain ⟨r, -, rfl⟩ := h
    have hserved : Move m { m with requests := m.requests.eraseIdx index } :=
      .outside rfl rfl rfl rfl (.refl _) fun r' hr => .inl (mem_of_mem_eraseIdx hr)
    split
    · exact .head hserved (admitAgain_moves _ r)
    · exact .single hserved

end Steps

end Ploinky.Webtty
