import Ploinky.Downgrade.Recovery

/-!
# Recoveries that settle the journal

A recovery without faults settles its journal, in a terminal phase or blocked, unless it is stuck: the
journal has all the attempts that its validation allows and the Box must be created once more, or the
barrier in place is not the one of the operation and so cannot be removed. Then it throws, and leaves a
pending journal that the next recovery fails on again.

The invariant says what the recovery finds; the lemmas here say how far it gets.
-/

namespace Ploinky.Downgrade

open Ploinky Js Durable Durable.Prog List

variable {platform : Platform} {identity : Identity} {effects : Effects} {request : Request}
  {ctx : Context} {s : Running} {stuck : Prop}

/-- The journal is in a terminal phase or blocked. -/
def Journal.isSettled (journal : Journal) : Bool :=
  journal.phase.isTerminal || journal.phase == .recoveryBlocked

/-- The durable journal is settled. -/
def World.Settled (world : World) : Prop :=
  ∃ journal, world.journal = some journal ∧ journal.isSettled = true

/-- The journal is settled exactly when the recovery is not stuck. -/
def Verdict (stuck : Prop) (world : World) : Prop := world.Settled ↔ ¬ stuck

/-- The run gets as far as claimed, or has thrown with its verdict. -/
def Fares {α : Type} (stuck : Prop) (R : α → Running → Prop) : Post Running Failure α :=
  ⟨R, fun _ t => Verdict stuck t.world, fun _ => False⟩

/-! ## Valid journals -/

/-- A journal passes its validation. -/
def Valid (identity : Identity) (journal : Journal) : Prop := validateJournal identity journal = .ok ()

variable {journal : Journal} {changes : Journal → Journal} {id operationId : Id}
  {oldConfiguration graph : Json} {requireEmpty : Bool} {world : World} {site : Site}

theorem valid_iff : Valid identity journal ↔
    journal.identity = identity ∧ journal.attempts.length ≤ maxAttempts ∧ journal.hostRecords.length ≤ 128 ∧
      [journal.old.configurationRef, journal.old.graphRef, journal.desired.configurationRef].all isRef =
        true := by
  unfold Valid validateJournal
  simp only [guardProp_eq_ok, not_not, Nat.not_lt, Bool.not_eq_false, and_true]

/-- Announcements leave a journal valid. -/
theorem Valid.of_amends {before after : Journal} (h : Valid identity before)
    (hamends : Amends before after) : Valid identity after := by
  rw [hamends.same]
  exact h

/-! ## Rules for runs without faults -/

section Rules

variable {α β : Type} {q : Post Running Failure α} {R M : α → Running → Prop} {p : Step α}

/-- The running process after a write of its changed journal. -/
def Running.persisted (s : Running) (changes : Journal → Journal) : Running :=
  ⟨{ s.world with journal := some (changes s.journal)
                  journals := s.world.journals ++ [changes s.journal] }, changes s.journal⟩

theorem fares_persist {q : Post Running Failure Unit} (hvalid : Valid identity (changes s.journal))
    (h : q.returns () (s.persisted changes)) : wp Faultless (persist identity changes) q s := by
  refine wp_bind (wp_amend (faultless_call ?_ h))
  show Except.map _ (validateJournal identity (changes s.journal)) = _
  rw [hvalid]
  rfl

theorem fares_persist_error {q : Post Running Failure Unit}
    (hinvalid : ¬ Valid identity (changes s.journal)) (h : ∀ error, q.throws error (s.amended changes)) :
    wp Faultless (persist identity changes) q s := by
  refine wp_bind (wp_amend ?_)
  cases hresult : validateJournal identity (changes s.journal) with
  | ok checked => exact absurd hresult hinvalid
  | error error =>
    refine faultless_error ?_ (h error)
    show Except.map _ (validateJournal identity (changes s.journal)) = _
    rw [hresult]
    rfl

theorem fares_intent {action : Action} {act : Step α} (hvalid : Valid identity s.journal)
    (hact : wp Faultless act q (s.persisted fun journal => { journal with nextAction := some action })) :
    wp Faultless (intent identity action act) q s :=
  wp_bind (fares_persist (hvalid.of_amends (.action rfl)) hact)

theorem fares_bind {next : α → Step β} {R : β → Running → Prop}
    (hp : wp Faultless p (Fares stuck M) s)
    (hnext : ∀ value t, M value t → wp Faultless (next value) (Fares stuck R) t) :
    wp Faultless (p >>= next) (Fares stuck R) s :=
  wp_bind (wp_imp hp hnext)

/-- What the invariant says of the end of a program, together with how far it gets. -/
theorem fares_and (hends : wp Faultless p (Ends ctx M) s)
    (hfares : wp Faultless p (Fares stuck R) s) :
    wp Faultless p (Fares stuck fun value t => M value t ∧ R value t) s :=
  wp_mono (wp_and hends hfares) (fun _ _ h => h) (fun _ _ h => h.2) fun _ h => h.2

/-- A blocked journal is settled. -/
theorem fares_block {problem : Option Problem} {message : Str} (hvalid : Valid identity s.journal)
    (hstuck : ¬ stuck) : wp Faultless (block identity problem message) (Fares stuck R) s := by
  refine wp_bind (fares_persist (hvalid.of_amends ⟨rfl, .inr (by simp)⟩)
    (wp_raise ?_))
  exact ⟨fun _ => hstuck, fun _ => ⟨_, rfl, rfl⟩⟩

theorem fares_onSite {f : Site → Except Failure (α × Site)} {v : α} {t : Site}
    (hf : f s.world.site = .ok (v, t)) (h : q.returns v (s.onto t)) : wp Faultless (onSite f) q s := by
  refine faultless_call (v := v) (t := s.onto t) ?_ h
  rw [hf]
  rfl

theorem fares_askSite {f : Site → Except Failure α} {v : α} (hf : f s.world.site = .ok v)
    (h : q.returns v s) : wp Faultless (askSite f) q s :=
  faultless_ask hf h

/-- An action on the Box that is there. -/
theorem fares_onBox {f : Box → α × Option Box} {box : Box} (hbox : s.world.site.box = some box)
    (hid : box.id = id) (h : q.returns (f box).1 (s.onto { s.world.site with box := (f box).2 })) :
    wp Faultless (onBox id f) q s := by
  refine fares_onSite ?_ h
  simp [hbox, hid]

/-- A snapshot that is there is read. -/
theorem fares_readSnapshot {ref : Str} {q : Post Running Failure Json} (hisRef : isRef ref = true)
    (hreadable : Readable platform s.world.site ref)
    (h : ∀ value, s.world.site.snapshots.lookup ref = some value → digestOf platform value = ref →
      q.returns value s) : wp Faultless (readSnapshot platform ref) q s := by
  obtain ⟨value, hlookup, hdigest⟩ := hreadable
  refine fares_askSite (v := value) ?_ (h value hlookup hdigest)
  simp [snapshotAt, hisRef, hlookup, hdigest]

end Rules

/-- A pending journal has its verdict when the recovery is stuck. -/
theorem verdict_of_pending (hjournal : world.journal = some journal)
    (hpending : journal.isSettled = false) (hstuck : stuck) : Verdict stuck world := by
  refine ⟨fun hsettled => ?_, fun hnot => absurd hstuck hnot⟩
  obtain ⟨found, hfound, hsettled⟩ := hsettled
  obtain rfl : journal = found := Option.some.inj (hjournal.symm.trans hfound)
  rw [hpending] at hsettled
  cases hsettled

/-! ## The rollback -/

/-- The Box is created again unless the attempts are used up. -/
theorem fares_recreateOld (hsynced : s.world.journal = some s.journal)
    (hbox : s.world.site.box = none) (hvalid : Valid identity s.journal)
    (hpending : s.journal.isSettled = false) (hstuck : maxAttempts ≤ s.journal.attempts.length → stuck) :
    wp Faultless (recreateOld platform identity oldConfiguration) (Fares stuck fun _ t =>
      Valid identity t.journal ∧ t.world.site.barrier = s.world.site.barrier ∧
        s.journal.attempts.length < maxAttempts) s := by
  refine wp_bind (wp_look (wp_bind (wp_bind (wp_bind (wp_look (wp_bind (wp_alter (wp_pure ?_))))))))
  refine wp_bind (wp_amend (wp_pure ?_))
  obtain ⟨hidentity, hattempts, hrecords, hrefs⟩ := valid_iff.mp hvalid
  by_cases hlength : s.journal.attempts.length < maxAttempts
  · have hpushed : ∀ attempt : Attempt, Valid identity
        { s.journal with attempts := s.journal.attempts ++ [attempt] } := by
      intro attempt
      refine valid_iff.mpr ⟨hidentity, ?_, hrecords, hrefs⟩
      rw [length_append, length_singleton]
      omega
    refine wp_bind (fares_intent (hpushed _) ?_)
    refine wp_bind (fares_onSite (v := s.world.site.issued + 1) (t := { s.world.site with
      box := some ⟨s.world.site.issued + 1, false, false, oldConfiguration⟩
      issued := s.world.site.issued + 2
      created := s.world.site.created ++ [s.world.site.issued + 1] }) ?_ ?_)
    · dsimp only
      rw [hbox]
      rfl
    refine fares_onSite rfl (wp_bind (fares_askSite (v := some (s.world.site.issued + 1)) ?_ ?_))
    · show Except.ok (lookup _ ((_, _) :: _)) = _
      rw [lookup_cons_self]
    refine wp_bind (wp_amend (wp_bind (fares_persist ?_ (wp_pure ⟨?_, rfl, hlength⟩))))
    all_goals
      refine valid_iff.mpr ⟨hidentity, ?_, hrecords, hrefs⟩
      show (modifyLast _ (s.journal.attempts ++ [_])).length ≤ _
      rw [modifyLast_concat, length_append, length_singleton]
      omega
  · refine wp_bind (wp_bind (fares_persist_error ?_ ?_))
    · intro hlong
      have hle := (valid_iff.mp hlong).2.1
      have hlength' : (s.journal.attempts ++ [_]).length ≤ maxAttempts := hle
      rw [length_append, length_singleton] at hlength'
      omega
    · intro error
      exact verdict_of_pending hsynced hpending (hstuck (by omega))

/-- A Box that is there belongs to a known attempt, or is the old one. -/
def Known (journal : Journal) (site : Site) : Prop :=
  ∀ box, site.box = some box → box.id = journal.old.containerId ∨
    (attemptOf box.id (ownedAttempts journal.attempts site)).isSome = true

/-- The rollback has to create the Box again. -/
def Recreates (journal : Journal) (site : Site) : Prop :=
  ∀ box, site.box = some box → box.id ≠ journal.old.containerId ∧
    ∃ attempt, attemptOf box.id (ownedAttempts journal.attempts site) = some attempt ∧
      attempt.stage ≠ .rollback

/-- All attempts are used, and one more is needed. -/
def Exhausted (journal : Journal) (site : Site) : Prop :=
  maxAttempts ≤ journal.attempts.length ∧ Recreates journal site

/-- How far the rollback gets to its restored Box. -/
theorem fares_restoredBox (h : At ctx (fun journal _ => Open journal) s)
    (hvalid : Valid ctx.identity s.journal) (hpending : s.journal.isSettled = false)
    (hknown : Known s.journal s.world.site) (hstuck : Exhausted s.journal s.world.site → stuck) :
    wp Faultless (restoredBox ctx.platform ctx.identity oldConfiguration) (Fares stuck fun _ t =>
      Valid ctx.identity t.journal ∧ t.world.site.barrier = s.world.site.barrier ∧
        ¬ Exhausted s.journal s.world.site ∧
        (s.world.site.boxId = some s.journal.old.containerId → t.world.site.box = s.world.site.box)) s := by
  refine wp_bind (wp_bind (wp_look (wp_bind (fares_askSite rfl (wp_bind (fares_askSite rfl ?_))))))
  cases hbox : s.world.site.box with
  | none =>
    refine wp_pure ?_
    refine wp_imp (fares_recreateOld h.synced hbox hvalid hpending fun hlength =>
      hstuck ⟨hlength, fun box hsome => ?_⟩) ?_
    · rw [hbox] at hsome
      cases hsome
    rintro _ t ⟨hvalid, hbarrier, hlength⟩
    refine ⟨hvalid, hbarrier, fun hexhausted => absurd hexhausted.1 (by omega), fun hid => ?_⟩
    simp [Site.boxId, hbox] at hid
  | some box =>
    have hid : s.world.site.boxId = some box.id := by simp [Site.boxId, hbox]
    refine wp_ite (fun hsame => wp_pure (wp_pure ⟨hvalid, rfl, ?_, fun _ => hbox⟩)) fun hne => ?_
    · exact fun hexhausted => absurd hsame (hexhausted.2 box hbox).1
    cases hattempt : attemptOf box.id (ownedAttempts s.journal.attempts s.world.site) with
    | none =>
      have hfound := (hknown box hbox).resolve_left hne
      rw [hattempt] at hfound
      cases hfound
    | some attempt =>
      refine wp_ite (fun hstage => ?_) fun hstage => ?_
      · have hmapped : Valid ctx.identity { s.journal with attempts := s.journal.attempts.map fun other =>
            if other.attemptId = attempt.attemptId then { other with observedId := some box.id }
            else other } := by
          obtain ⟨hidentity, hattempts, hrecords, hrefs⟩ := valid_iff.mp hvalid
          exact valid_iff.mpr ⟨hidentity, by simpa using hattempts, hrecords, hrefs⟩
        refine wp_bind (wp_amend (wp_bind (fares_persist hmapped (wp_pure (wp_pure ⟨hmapped, rfl, ?_,
          fun _ => hbox⟩)))))
        intro hexhausted
        obtain ⟨-, found, hfound, hother⟩ := hexhausted.2 box hbox
        rw [hattempt] at hfound
        cases hfound
        exact hother hstage
      · -- the candidate is removed, and the Box is created again
        refine wp_bind (fares_intent hvalid (wp_bind (wp_alter (fares_onBox hbox rfl ?_))))
        refine wp_bind (fares_askSite (v := none) rfl (wp_pure ?_))
        have hvalid' : Valid ctx.identity
            { s.journal with nextAction := some (.removeCandidate box.id) } :=
          hvalid.of_amends (.action rfl)
        refine wp_imp (fares_recreateOld rfl rfl hvalid' hpending fun hlength => hstuck ⟨hlength, ?_⟩)
          ?_
        · intro present hpresent
          obtain rfl : box = present := Option.some.inj (hbox.symm.trans hpresent)
          exact ⟨hne, attempt, hattempt, hstage⟩
        · rintro _ t ⟨hvalid, hbarrier, hlength⟩
          have hlength' : s.journal.attempts.length < maxAttempts := hlength
          refine ⟨hvalid, hbarrier, fun hexhausted => absurd hexhausted.1 (by omega), fun hsame => ?_⟩
          rw [hid] at hsame
          exact absurd (Option.some.inj hsame) hne

/-- The second process has a valid journal, and the same barrier and Box as the first. -/
structure Flagged (identity : Identity) (s t : Running) : Prop where
  valid : Valid identity t.journal
  barrier : t.world.site.barrier = s.world.site.barrier
  box : t.world.site.box.map (fun box => (box.id, box.configuration)) =
    s.world.site.box.map fun box => (box.id, box.configuration)

theorem Flagged.trans {s t u : Running} (hst : Flagged identity s t) (htu : Flagged identity t u) :
    Flagged identity s u := ⟨htu.valid, htu.barrier.trans hst.barrier, htu.box.trans hst.box⟩

theorem Flagged.boxId {s t : Running} (h : Flagged identity s t) :
    t.world.site.boxId = s.world.site.boxId := by
  have heq := congrArg (Option.map Prod.fst) h.box
  simpa [Site.boxId, Function.comp_def] using heq

/-- An announced action on the Box that leaves its identity. -/
theorem fares_flag {α : Type} {action : Action} {f : Box → α × Option Box} {R : α → Running → Prop}
    (hvalid : Valid identity s.journal) (hid : s.world.site.boxId = some id)
    (hf : ∀ box, ∃ after, (f box).2 = some after ∧ after.id = box.id ∧ after.configuration = box.configuration)
    (hR : ∀ value t, Flagged identity s t → R value t) :
    wp Faultless (intent identity action (onBox id f)) (Fares stuck R) s := by
  obtain ⟨box, hbox, hsame⟩ := Option.map_eq_some_iff.mp hid
  refine fares_intent hvalid (fares_onBox hbox hsame (hR _ _ ⟨?_, rfl, ?_⟩))
  · exact hvalid.of_amends (.action rfl)
  · obtain ⟨after, hafter, hid', hconfiguration⟩ := hf box
    simp [Running.onto, hafter, hbox, hid', hconfiguration]

theorem fares_startGraphOf (hvalid : Valid identity s.journal)
    (hid : s.world.site.boxId = some id) :
    wp Faultless (startGraphOf identity effects id graph) (Fares stuck fun _ => Flagged identity s) s :=
  fares_bind (fares_flag hvalid hid (fun _ => ⟨_, rfl, rfl, rfl⟩) fun _ _ ht => ht) fun _ _ ht => wp_ret ht

theorem fares_restoreRunning (hvalid : Valid identity s.journal)
    (hid : s.world.site.boxId = some id) :
    wp Faultless (restoreRunning identity effects id graph) (Fares stuck fun _ => Flagged identity s) s := by
  have hself : Flagged identity s s := ⟨hvalid, rfl, rfl⟩
  refine wp_bind (wp_look (fares_bind (M := fun _ t => t = s) ?_ ?_))
  · refine wp_bind (wp_look (wp_ite (fun _ => ?_) fun _ => wp_pure rfl))
    exact wp_bind (fares_askSite rfl (wp_pure rfl))
  rintro lost t rfl
  refine wp_whenDo (fun _ => ?_) fun _ => hself
  refine fares_bind (M := fun _ => Flagged identity t) ?_ ?_
  · refine wp_bind (fares_askSite rfl (wp_ite (fun _ => wp_pure hself) fun _ => ?_))
    exact fares_bind (fares_flag hvalid hid (fun box => ⟨_, rfl, rfl, rfl⟩) fun _ _ ht => ht)
      fun _ _ ht => wp_pure ht
  intro started u hu
  refine fares_bind (fares_flag hu.valid (hu.boxId.trans hid) (fun box => ⟨_, rfl, rfl, rfl⟩)
    fun _ v hv => hu.trans hv) ?_
  intro _ v hv
  have hgraph : wp Faultless (startGraphOf identity effects id graph)
      (Fares stuck fun _ => Flagged identity t) v :=
    wp_imp (fares_startGraphOf hv.valid (hv.boxId.trans hid)) (fun _ w hw => hv.trans hw)
  refine wp_whenDo (fun _ => wp_ite (fun _ => hgraph) fun _ => ?_) fun _ => hv
  exact wp_bind (fares_askSite rfl (wp_whenDo (fun _ => hgraph) fun _ => hv))

/-- The old Box would pass its verification. -/
def OldVerifies (effects : Effects) (journal : Journal) (site : Site) : Prop :=
  ∃ box configuration, site.box = some box ∧
    site.snapshots.lookup journal.old.configurationRef = some configuration ∧
    effects.verifies box.configuration configuration true = true

/-- How far the rollback gets to its decision. -/
theorem fares_restoreOld (h : Inv ctx s) (hvalid : Valid ctx.identity s.journal)
    (hnone : s.journal.commitIntent = none) (hknown : Known s.journal s.world.site)
    (hstuck : stuck ↔ Exhausted s.journal s.world.site ∨
      Foreign ctx.request s.world.site ∧ OldVerifies effects s.journal s.world.site) :
    wp Faultless (restoreOld ctx.platform ctx.identity effects) (Fares stuck fun _ t =>
      Valid ctx.identity t.journal ∧ t.journal.isSettled = false ∧
        (stuck ↔ Foreign ctx.request t.world.site)) s := by
  obtain ⟨-, -, -, hrefs⟩ := valid_iff.mp hvalid
  rw [all_eq_true] at hrefs
  have hreadable := h.memory.readable
  have hold : s.journal.old = _ := h.memory.old
  have hstarted : Valid ctx.identity { s.journal with phase := .rollbackStarted, nextAction := none } :=
    hvalid.of_amends ⟨rfl, .inr (by simp)⟩
  refine fares_bind (fares_and (ends_announce (P := fun journal _ => Open journal) h
    ⟨rfl, .inr (by simp)⟩ ⟨hnone, by simp, by simp⟩)
    (fares_persist (q := Fares stuck fun _ t => t = s.persisted _) hstarted rfl)) ?_
  rintro _ t ⟨ht, rfl⟩
  refine wp_bind (wp_look (wp_bind (fares_readSnapshot (hrefs _ (by simp [Running.persisted]))
    (hreadable _ (by simp [Running.persisted])) ?_)))
  intro oldConfiguration hlookup hdigest
  refine wp_bind (fares_readSnapshot (hrefs _ (by simp [Running.persisted]))
    (hreadable _ (by simp [Running.persisted])) ?_)
  intro graph _ _
  have hdigest' : digestOf ctx.platform oldConfiguration = digestOf ctx.platform ctx.request.oldConfiguration :=
    hdigest.trans (congrArg OldBox.configurationRef hold)
  refine fares_bind (fares_and (ends_restoredBox hdigest' ht) (fares_restoredBox ht hstarted rfl hknown
    fun hexhausted => hstuck.mpr (.inl hexhausted))) ?_
  rintro restoredId u ⟨hu, huvalid, hubarrier, hunot, hubox⟩
  refine fares_bind (fares_and (ends_restoreRunning hu) (fares_restoreRunning huvalid hu.holds.2.1)) ?_
  rintro _ v ⟨⟨hv, hopen, hvbox, -⟩, hflagged⟩
  have hforeign : Foreign ctx.request v.world.site ↔ Foreign ctx.request s.world.site := by
    unfold Foreign
    rw [hflagged.barrier, hubarrier]
    rfl
  -- with a foreign barrier, the Box is still the old one, as it was found
  have hverified : Foreign ctx.request s.world.site → ((v.world.site.box.any fun box => box.id == restoredId &&
      effects.verifies box.configuration oldConfiguration (restoredId == s.journal.old.containerId)) = true ↔
        OldVerifies effects s.journal s.world.site) := by
    intro hf
    have hid : s.world.site.boxId = some s.journal.old.containerId := by
      rw [hold]
      exact h.sound.owned.foreign hf
    obtain ⟨box, hbox, hboxId⟩ := Option.map_eq_some_iff.mp hid
    have hsame := hflagged.box
    rw [hubox hid, show (s.persisted _).world.site.box = some box from hbox] at hsame
    obtain ⟨after, hafter, heq⟩ := Option.map_eq_some_iff.mp hsame
    obtain ⟨hafterId, hconfiguration⟩ := Prod.mk.inj heq
    rw [Site.boxId, hafter, Option.map_some, Option.some.injEq] at hvbox
    have hrestored : restoredId = s.journal.old.containerId := by rw [← hvbox, hafterId, hboxId]
    rw [hafter, Option.any_some, hvbox, hconfiguration, hrestored]
    simp only [beq_self_eq_true]
    constructor
    · exact fun hpassed => ⟨box, oldConfiguration, hbox, hlookup, hpassed⟩
    · rintro ⟨present, configuration, hpresent, hfound, hpassed⟩
      cases hpresent.symm.trans hbox
      cases hfound.symm.trans hlookup
      exact hpassed
  refine wp_bind (fares_askSite rfl (wp_ite (fun hfalse => ?_) fun htrue => ?_))
  · refine fares_block hflagged.valid fun hs => ?_
    rcases hstuck.mp hs with hexhausted | ⟨hf, hverifies⟩
    · exact hunot hexhausted
    · exact absurd (hfalse.symm.trans ((hverified hf).mpr hverifies)) (by simp)
  · have hvalid1 : Valid ctx.identity { v.journal with phase := .rollbackVerified, nextAction := none } :=
      hflagged.valid.of_amends ⟨rfl, .inr (by simp)⟩
    have hdecided : Valid ctx.identity (Journal.decide ctx.platform
        { v.journal with phase := .rollbackVerified, nextAction := none } .restoredOld restoredId
        s.journal.old.configurationRef none (·.old)) := valid_iff.mpr (valid_iff.mp hvalid1)
    refine wp_bind (fares_persist hvalid1 (fares_persist hdecided ⟨hdecided, rfl, ?_⟩))
    show stuck ↔ Foreign ctx.request v.world.site
    rw [hforeign, hstuck]
    constructor
    · rintro (hexhausted | ⟨hf, -⟩)
      · exact absurd hexhausted hunot
      · exact hf
    · exact fun hf => .inr ⟨hf, (hverified hf).mp (Bool.eq_true_of_not_eq_false htrue)⟩

/-- A journal that is written in a settled phase. -/
theorem fares_settle (hvalid : Valid identity (changes s.journal))
    (hsettled : (changes s.journal).isSettled = true) (hstuck : ¬ stuck) :
    wp Faultless (persist identity changes) (Fares stuck fun _ t => Verdict stuck t.world) s :=
  fares_persist hvalid ⟨fun _ => hstuck, fun _ => ⟨_, rfl, hsettled⟩⟩

/-- The barrier is removed unless it is foreign. -/
theorem lifted_eq
    (hforeign : ¬ (site.barrier ≠ none ∧ site.barrier ≠ some (.owned operationId)))
    (hpolicy : requireEmpty = true → site.barrier = some (.owned operationId) →
      ∃ token, site.policy = .valid 0 token) :
    lifted operationId requireEmpty site = .ok ((), { site with barrier := none }) := by
  unfold lifted
  cases hbarrier : site.barrier with
  | none =>
    show Except.ok ((), site) = _
    rw [← hbarrier]
  | some barrier =>
    have hown : barrier = .owned operationId := by
      by_contra hne
      exact hforeign ⟨by simp [hbarrier], by simpa [hbarrier] using hne⟩
    have hrequired : requiredPolicy requireEmpty site.policy = .ok () := by
      cases requireEmpty with
      | false => rfl
      | true =>
        obtain ⟨token, htoken⟩ := hpolicy rfl (by rw [hbarrier, hown])
        rw [htoken]
        rfl
    simp only [hown, ne_eq, not_true_eq_false, if_false, hrequired]
    rfl

theorem lifted_foreign
    (hforeign : site.barrier ≠ none ∧ site.barrier ≠ some (.owned operationId)) :
    ∃ error, lifted operationId requireEmpty site = .error error := by
  unfold lifted
  cases hbarrier : site.barrier with
  | none => exact absurd hbarrier hforeign.1
  | some barrier =>
    have hne : barrier ≠ .owned operationId := by
      intro hown
      exact hforeign.2 (by rw [hbarrier, hown])
    exact ⟨_, if_pos hne⟩

/-- How the completion of a rollback ends. -/
theorem fares_completeRollback (hoperation : s.journal.operationId = request.operationId)
    (hvalid : Valid identity s.journal) (hpending : s.journal.isSettled = false)
    (hstuck : stuck ↔ Foreign request s.world.site) :
    wp Faultless (completeRollback identity) (Fares stuck fun _ t => Verdict stuck t.world) s := by
  refine wp_bind (wp_look (fares_bind (M := fun _ t => Valid identity t.journal ∧
    t.journal.isSettled = false ∧ t.world.site.barrier = s.world.site.barrier) ?_ ?_))
  · refine wp_forEach (I := fun _ t => Valid identity t.journal ∧ t.journal.isSettled = false ∧
      t.world.site.barrier = s.world.site.barrier) ⟨hvalid, hpending, rfl⟩ ?_ fun t ht => ht
    rintro record rest t ⟨htvalid, htpending, htbarrier⟩
    refine fares_intent htvalid (fares_onSite rfl ⟨?_, htpending, htbarrier⟩)
    exact htvalid.of_amends (.action rfl)
  rintro _ t ⟨htvalid, htpending, htbarrier⟩
  have hannounced : Valid identity { t.journal with nextAction := some .removeBarrier } :=
    htvalid.of_amends (.action rfl)
  by_cases hforeign : Foreign request s.world.site
  · obtain ⟨error, herror⟩ : ∃ error, lifted s.journal.operationId false t.world.site = .error error := by
      refine lifted_foreign ?_
      rw [htbarrier, hoperation]
      exact hforeign
    refine wp_bind (fares_intent htvalid (faultless_error (e := error) ?_ ?_))
    · show Except.map _ (lifted s.journal.operationId false t.world.site) = _
      rw [herror]
      rfl
    · exact verdict_of_pending rfl htpending (hstuck.mpr hforeign)
  · refine wp_bind (fares_intent htvalid (fares_onSite (lifted_eq ?_ (by simp)) ?_))
    · show ¬ (t.world.site.barrier ≠ none ∧ t.world.site.barrier ≠ _)
      rw [htbarrier, hoperation]
      exact hforeign
    · refine fares_settle ?_ rfl fun hs => hforeign (hstuck.mp hs)
      exact valid_iff.mpr (valid_iff.mp hannounced)

/-- How a rollback ends. -/
theorem fares_rollback (h : Inv ctx s) (hvalid : Valid ctx.identity s.journal)
    (hpending : s.journal.isSettled = false) (hresult : s.journal.result ≠ some .desiredOff)
    (hknown : Known s.journal s.world.site)
    (hstuck : stuck ↔ (s.journal.commitIntent = none ∧ Exhausted s.journal s.world.site) ∨
      Foreign ctx.request s.world.site ∧
        (s.journal.commitIntent = none → OldVerifies effects s.journal s.world.site)) :
    wp Faultless (rollback ctx.platform ctx.identity effects) (Fares stuck fun _ t => Verdict stuck t.world) s := by
  refine wp_bind (wp_look (wp_ite (fun hoff => absurd hoff hresult) fun _ => ?_))
  refine fares_bind (M := fun clean t => t = s ∧ (clean = true → s.journal.phase = .prepared ∧
    s.world.site.barrier = none)) ?_ ?_
  · refine wp_bind (wp_look (wp_ite (fun hphase => ?_) fun _ => wp_pure ⟨rfl, by simp⟩))
    exact wp_bind (fares_askSite rfl (wp_pure ⟨rfl, fun hnone =>
      ⟨hphase, Option.isNone_iff_eq_none.mp hnone⟩⟩))
  rintro clean t ⟨rfl, hclean⟩
  refine wp_ite (fun htrue => ?_) fun _ => ?_
  · obtain ⟨hphase, hbarrier⟩ := hclean htrue
    refine fares_settle (valid_iff.mpr (valid_iff.mp hvalid)) rfl fun hs => ?_
    rcases hstuck.mp hs with ⟨-, hexhausted⟩ | ⟨hforeign, -⟩
    · obtain ⟨box, hbox, hid⟩ := Option.map_eq_some_iff.mp (h.memory.prepared hphase)
      exact (hexhausted.2 box hbox).1 (hid.trans (congrArg OldBox.containerId h.memory.old).symm)
    · exact hforeign.1 hbarrier
  refine fares_bind (M := fun _ u => u.journal.operationId = ctx.request.operationId ∧
    Valid ctx.identity u.journal ∧ u.journal.isSettled = false ∧ (stuck ↔ Foreign ctx.request u.world.site)) ?_
    fun _ u hu => fares_completeRollback hu.1 hu.2.1 hu.2.2.1 hu.2.2.2
  by_cases hnone : t.journal.commitIntent = none
  · have hstuck' : stuck ↔ Exhausted t.journal t.world.site ∨
        Foreign ctx.request t.world.site ∧ OldVerifies effects t.journal t.world.site := by
      rw [hstuck]
      simp [hnone]
    refine wp_whenDo (fun _ => ?_) fun hrestored => ?_
    · refine wp_imp (fares_and (ends_restoreOld h hnone) (fares_restoreOld h hvalid hnone hknown hstuck'))
        ?_
      exact fun _ u hu => ⟨hu.1.inv.memory.operationId, hu.2⟩
    · simp [Journal.result, hnone] at hrestored
  · have hrestored : t.journal.result = some .restoredOld := by
      obtain ⟨decided, hdecided⟩ := Option.ne_none_iff_exists'.mp hnone
      rw [Journal.result, hdecided, Option.map_some] at hresult ⊢
      cases hdecision : decided.result with
      | desiredOff => exact absurd (by rw [hdecision]) hresult
      | restoredOld => rfl
    refine wp_whenDo (fun hne => absurd hrestored hne) fun _ =>
      ⟨h.memory.operationId, hvalid, hpending, ?_⟩
    rw [hstuck]
    simp [hnone]

/-! ## The completion of a decision -/

/-- A decision for the gate-off Box is completed. -/
theorem fares_completeDecision (h : Inv ctx s)
    (hvalid : Valid ctx.identity s.journal) (hresult : s.journal.result = some .desiredOff) (hstuck : ¬ stuck) :
    wp Faultless (completeDecision ctx.identity) (Fares stuck fun _ t => Verdict stuck t.world) s := by
  obtain ⟨decided, hdecided, hoff⟩ := Option.map_eq_some_iff.mp hresult
  have hforeign := (h.memory.desiredOff decided hdecided hoff).barrier
  have hpolicy := h.sound.owned.policy
  refine wp_bind (wp_look (fares_bind (M := fun _ t => Valid ctx.identity t.journal ∧
    t.world.site.barrier = s.world.site.barrier ∧ t.world.site.policy = s.world.site.policy) ?_ ?_))
  · refine wp_forEach (I := fun _ t => Valid ctx.identity t.journal ∧
      t.world.site.barrier = s.world.site.barrier ∧ t.world.site.policy = s.world.site.policy)
      ⟨hvalid, rfl, rfl⟩ ?_ fun t ht => ht
    rintro index rest t ⟨htvalid, htbarrier, htpolicy⟩
    refine wp_bind (wp_look ?_)
    cases t.journal.hostRecords[index]? with
    | none => exact wp_ret ⟨htvalid, htbarrier, htpolicy⟩
    | some record =>
      refine wp_ite (fun _ => wp_ret ⟨htvalid, htbarrier, htpolicy⟩) fun _ => ?_
      have hmarked : Valid ctx.identity { t.journal with
          nextAction := some (.writeRecord record.name)
          hostRecords := t.journal.hostRecords.modify index ({ · with written := true }) } := by
        obtain ⟨hidentity, hattempts, hrecords, hrefs⟩ := valid_iff.mp htvalid
        exact valid_iff.mpr ⟨hidentity, hattempts, by simpa using hrecords, hrefs⟩
      refine wp_bind (fares_intent htvalid (fares_onSite rfl ?_))
      exact wp_bind (wp_amend (fares_persist hmarked ⟨hmarked, htbarrier, htpolicy⟩))
  rintro _ t ⟨htvalid, htbarrier, htpolicy⟩
  refine wp_bind (fares_persist (valid_iff.mpr (valid_iff.mp htvalid)) ?_)
  refine wp_bind (fares_intent (valid_iff.mpr (valid_iff.mp htvalid))
    (fares_onSite (lifted_eq ?_ fun _ => ?_) ?_))
  · show ¬ (t.world.site.barrier ≠ none ∧ t.world.site.barrier ≠ _)
    rw [htbarrier, h.memory.operationId]
    exact hforeign
  · show t.world.site.barrier = _ → ∃ token, t.world.site.policy = _
    rw [htbarrier, htpolicy, h.memory.operationId]
    exact hpolicy
  · exact fares_settle (valid_iff.mpr (valid_iff.mp htvalid)) rfl hstuck

/-- How a decided downgrade is rolled forward. -/
theorem fares_rollForward {decided : CommitIntent} (h : Inv ctx s)
    (hvalid : Valid ctx.identity s.journal) (hdecided : s.journal.commitIntent = some decided)
    (hoff : decided.result = .desiredOff) (hstuck : ¬ stuck) :
    wp Faultless (rollForward ctx.platform ctx.identity effects decided)
      (Fares stuck fun _ t => Verdict stuck t.world) s := by
  have hd := h.memory.desiredOff decided hdecided hoff
  have hresult : s.journal.result = some .desiredOff := by rw [Journal.result, hdecided, Option.map_some, hoff]
  have hstable : Stable ctx.platform fun journal _ => journal.result = some .desiredOff := fun _ _ _ _ hs => hs
  obtain ⟨box, hbox, hid⟩ := Option.map_eq_some_iff.mp hd.box
  have hboxId : s.world.site.boxId = some box.id := by rw [hd.box, hid]
  refine wp_bind (wp_look (wp_bind (fares_readSnapshot hd.isRef hd.readable fun configuration _ _ => ?_)))
  refine wp_bind (fares_askSite rfl ?_)
  dsimp only
  rw [show s.world.site.box.filter (·.id = decided.finalContainerId) = some box by simp [hbox, hid]]
  refine fares_bind (M := fun _ t => (Inv ctx t ∧
    t.journal.result = some .desiredOff) ∧ Flagged ctx.identity s t) ?_ ?_
  · refine wp_whenDo (fun _ => ?_) fun _ => ⟨⟨h, hresult⟩, hvalid, rfl, rfl⟩
    refine wp_imp (fares_and (ends_intent h hresult fun _ ht => ends_onBox hstable ht fun _ =>
      ⟨_, rfl, rfl, rfl⟩) (fares_flag hvalid hboxId (fun _ => ⟨_, rfl, rfl, rfl⟩) fun _ _ ht => ht)) ?_
    exact fun _ t ht => ⟨⟨ht.1.inv, ht.1.holds⟩, ht.2⟩
  rintro _ t ⟨⟨ht, htoff⟩, hflagged⟩
  refine fares_bind (M := fun _ u => (Inv ctx u ∧
    u.journal.result = some .desiredOff) ∧ Flagged ctx.identity s u) ?_ ?_
  · refine wp_whenDo (fun _ => ?_) fun _ => ⟨⟨ht, htoff⟩, hflagged⟩
    refine wp_bind (fares_askSite rfl (wp_whenDo (fun _ => ?_) fun _ => ⟨⟨ht, htoff⟩, hflagged⟩))
    -- both graph references are those of one snapshot, which the journal has validated
    have hgraph : s.journal.desired.graphRef = t.journal.old.graphRef := by
      rw [h.memory.desired, ht.memory.old]
    have hisRef := all_eq_true.mp (valid_iff.mp hflagged.valid).2.2.2
    refine wp_bind (fares_readSnapshot (hisRef _ (by simp [hgraph])) (ht.memory.readable _ (by simp [hgraph]))
      fun graph _ _ => ?_)
    refine wp_imp (fares_and (ends_startGraphOf hstable (fun _ _ _ hP => hP) ht htoff)
      (fares_startGraphOf hflagged.valid (hflagged.boxId.trans hboxId))) ?_
    exact fun _ u hu => ⟨hu.1, hflagged.trans hu.2⟩
  rintro _ u ⟨⟨hu, huoff⟩, huflagged⟩
  refine wp_bind (fares_askSite rfl (wp_ite (fun _ => fares_block huflagged.valid hstuck) fun _ => ?_))
  exact fares_completeDecision hu huflagged.valid huoff hstuck

/-! ## The recovery -/

/-- The engine is the one of the journal. -/
def SameEngine (effects : Effects) (journal : Journal) : Prop :=
  effects.engineIdentity ≠ [] ∧ journal.engineIdentity = effects.engineIdentity ∧
    effects.hostKind ≠ [] ∧ journal.hostKind = effects.hostKind

/-- The recovery of the journal is stuck: nothing is decided and no attempt is left for the Box that has
to be created again, or the barrier belongs to another operation. -/
def Stuck (effects : Effects) (journal : Journal) (site : Site) : Prop :=
  journal.isSettled = false ∧ SameEngine effects journal ∧
    ((journal.commitIntent = none ∧ Exhausted journal site) ∨
      (site.barrier ≠ none ∧ site.barrier ≠ some (.owned journal.operationId)) ∧
        (journal.commitIntent = none → OldVerifies effects journal site))

/-- The attempts that own a Box are those that are found for it. -/
theorem isSome_attemptOf {pairs : List (Id × Attempt)} :
    (attemptOf id pairs).isSome = true ↔ id ∈ pairs.map Prod.fst := by
  unfold attemptOf
  rw [← mem_reverse, ← map_reverse]
  generalize pairs.reverse = l
  induction l with
  | nil => simp
  | cons pair rest ih =>
    by_cases hid : id = pair.1
    · simp [hid]
    · have hne : (id == pair.1) = false := by simpa using hid
      simp [lookup, hne, ih, hid]

theorem fares_recoverWithoutDecision (h : Inv ctx s)
    (hvalid : Valid ctx.identity s.journal) (hpending : s.journal.isSettled = false)
    (hresult : s.journal.result ≠ some .desiredOff)
    (hstuck : stuck ↔ (s.journal.commitIntent = none ∧ Exhausted s.journal s.world.site) ∨
      Foreign ctx.request s.world.site ∧
        (s.journal.commitIntent = none → OldVerifies effects s.journal s.world.site)) :
    wp Faultless (recoverWithoutDecision ctx.platform ctx.identity effects)
      (Fares stuck fun _ t => Verdict stuck t.world) s := by
  have hisRef := all_eq_true.mp (valid_iff.mp hvalid).2.2.2
  have hreadable := h.memory.readable
  have hold : s.journal.old.containerId = ctx.request.oldContainerId :=
    congrArg OldBox.containerId h.memory.old
  refine wp_bind (wp_look (wp_bind (fares_readSnapshot (hisRef _ (by simp)) (hreadable _ (by simp))
    fun _ _ _ => ?_)))
  refine wp_bind (fares_readSnapshot (hisRef _ (by simp)) (hreadable _ (by simp)) fun _ _ _ => ?_)
  refine wp_bind (fares_readSnapshot (hisRef _ (by simp)) (hreadable _ (by simp)) fun _ _ _ => ?_)
  refine fares_bind (M := fun clean t => t = s ∧ (clean = true → s.journal.phase = .prepared ∧
    s.world.site.barrier = none)) ?_ ?_
  · refine wp_bind (wp_look (wp_ite (fun _ => ?_) fun _ => wp_pure ⟨rfl, by simp⟩))
    refine wp_bind (wp_look (wp_ite (fun hphase => ?_) fun _ => wp_pure ⟨rfl, by simp⟩))
    exact wp_bind (fares_askSite rfl (wp_pure ⟨rfl, fun hnone =>
      ⟨hphase, Option.isNone_iff_eq_none.mp hnone⟩⟩))
  rintro clean t ⟨rfl, hclean⟩
  -- the old Box needs no new attempt
  have hexhausted : t.world.site.boxId = some ctx.request.oldContainerId →
      ¬ Exhausted t.journal t.world.site := by
    intro hid hexhausted
    obtain ⟨box, hbox, hboxId⟩ := Option.map_eq_some_iff.mp hid
    exact (hexhausted.2 box hbox).1 (hboxId.trans hold.symm)
  refine wp_ite (fun htrue => ?_) fun _ => ?_
  · obtain ⟨hphase, hbarrier⟩ := hclean htrue
    refine fares_settle (valid_iff.mpr (valid_iff.mp hvalid)) rfl fun hs => ?_
    rcases hstuck.mp hs with ⟨-, hex⟩ | ⟨hforeign, -⟩
    · exact hexhausted (h.memory.prepared hphase) hex
    · exact hforeign.1 hbarrier
  refine wp_bind (fares_askSite rfl (wp_bind (fares_askSite rfl ?_)))
  cases hbox : t.world.site.box with
  | none =>
    refine fares_rollback h hvalid hpending hresult ?_ hstuck
    intro box hsome
    rw [hbox] at hsome
    cases hsome
  | some box =>
    refine wp_ite (fun hknown => fares_rollback h hvalid hpending hresult ?_ hstuck) fun hunknown => ?_
    · intro present hpresent
      cases hpresent.symm.trans hbox
      exact hknown.imp_right isSome_attemptOf.mpr
    · refine fares_block hvalid fun hs => hunknown ?_
      rcases hstuck.mp hs with ⟨-, hex⟩ | ⟨hforeign, -⟩
      · obtain ⟨-, attempt, hattempt, -⟩ := hex.2 box hbox
        exact .inr (isSome_attemptOf.mp (by rw [hattempt]; rfl))
      · have hid := h.sound.owned.foreign hforeign
        rw [Site.boxId, hbox, Option.map_some, Option.some.injEq] at hid
        exact .inl (hid.trans hold.symm)

theorem fares_recoverJournal (h : Inv ctx s) (hjournal : s.journal = journal)
    (hvalid : Valid ctx.identity s.journal) (hpending : s.journal.isSettled = false)
    (hstuck : stuck ↔ Stuck effects s.journal s.world.site) :
    wp Faultless (recoverJournal ctx.platform ctx.identity effects journal)
      (Fares stuck fun _ t => Verdict stuck t.world) s := by
  subst hjournal
  refine wp_ite (fun hother => fares_block hvalid fun hs => ?_) fun hsame => ?_
  · obtain ⟨-, ⟨hengine, hidentity, hhost, hkind⟩, -⟩ := hstuck.mp hs
    rcases hother with hempty | hne | hempty | hne
    · exact hengine hempty
    · exact hne hidentity
    · exact hhost hempty
    · exact hne hkind
  have hengine : SameEngine effects s.journal := by
    push Not at hsame
    exact hsame
  cases hdecided : s.journal.commitIntent.filter (·.result = .desiredOff) with
  | some decided =>
    obtain ⟨hintent, hoff⟩ := Option.filter_eq_some_iff.mp hdecided
    have hoff' : decided.result = .desiredOff := by simpa using hoff
    refine fares_rollForward h hvalid hintent hoff' fun hs => ?_
    obtain ⟨-, -, ⟨hnone, -⟩ | ⟨hforeign, -⟩⟩ := hstuck.mp hs
    · rw [hintent] at hnone
      cases hnone
    · rw [h.memory.operationId] at hforeign
      exact (h.memory.desiredOff decided hintent hoff').barrier hforeign
  | none =>
    have hresult : s.journal.result ≠ some .desiredOff := by
      intro hoff
      obtain ⟨decided, hintent, hoff⟩ := Option.map_eq_some_iff.mp hoff
      simp [hintent, hoff] at hdecided
    refine fares_recoverWithoutDecision h hvalid hpending hresult ?_
    rw [hstuck, Stuck, h.memory.operationId]
    simp only [hpending, hengine, true_and]
    rfl

/-- A recovery without faults ends with its verdict. -/
theorem verdict_recoverHardwareDowngrades (effects : Effects) (h : Sound ctx world)
    (hjournal : world.journal = some journal) :
    wp Faultless (recoverHardwareDowngrades ctx.platform ctx.identity effects)
      ⟨fun _ => Verdict (Stuck effects journal world.site),
        fun _ => Verdict (Stuck effects journal world.site), fun _ => False⟩ world := by
  have hvalid : Valid ctx.identity journal := (h.durable journal hjournal).2
  -- a settled journal is left alone
  have hskip : journal.isSettled = true → Verdict (Stuck effects journal world.site) world := by
    intro hsettled
    refine ⟨fun _ hstuck => ?_, fun _ => ⟨journal, hjournal, hsettled⟩⟩
    rw [hstuck.1] at hsettled
    cases hsettled
  refine wp_bind (faultless_ask (v := [journal].filter fun journal => !journal.phase.isTerminal) ?_ ?_)
  · rw [hjournal, Option.toList_some, mapM_cons, hvalid]
    rfl
  rw [filter_singleton]
  cases hterminal : journal.phase.isTerminal with
  | true => exact wp_ret (hskip (by simp [Journal.isSettled, hterminal]))
  | false =>
    refine wp_bind (wp_ite (fun hblocked => wp_ret (wp_bind (wp_ret (wp_pure ?_)))) fun hne => ?_)
    · exact hskip (by simp [Journal.isSettled, hblocked])
    · have hpending : journal.isSettled = false := by simp [Journal.isSettled, hterminal, hne]
      have hrecovers : wp Faultless (recoverJournal ctx.platform ctx.identity effects journal)
          (Fares (Stuck effects journal world.site) fun _ t =>
            Verdict (Stuck effects journal world.site) t.world) ⟨world, journal⟩ :=
        fares_recoverJournal (h.inv hjournal) rfl hvalid hpending Iff.rfl
      refine wp_zoom (wp_attempt (wp_bind (wp_mono hrecovers ?_ ?_ (fun _ h => h))))
      · exact fun _ t ht => wp_look (wp_bind (wp_ret (wp_pure ht)))
      · intro error t ht
        exact wp_ite (fun _ => wp_ret (wp_bind (wp_ret (wp_pure ht)))) fun _ => wp_raise ht

/-- After every history of a downgrade, a recovery without faults leaves its journal settled exactly when
it is not stuck. -/
theorem recovery_settles_iff (platform : Platform) (identity : Identity) (effects : Effects)
    (request : Request) (world : World) (h : Observed request world) (faults : List (Fault Failure))
    (recoveries : List (Effects × List (Fault Failure))) (next : Effects) (journal : Journal)
    (hjournal : (downgraded platform identity effects request world faults recoveries).journal =
      some journal) : (recoverHardwareDowngrades platform identity next
        (downgraded platform identity effects request world faults recoveries) []).state.Settled ↔
      ¬ Stuck next journal (downgraded platform identity effects request world faults recoveries).site := by
  have hsound : Sound ⟨platform, identity, request, world.site.issued⟩
      (downgraded platform identity effects request world faults recoveries) :=
    sound_downgraded h rfl faults recoveries
  obtain ⟨_, -, hend⟩ | ⟨_, -, hend⟩ | hend := (wp_calm (verdict_recoverHardwareDowngrades next hsound hjournal)).cases
  · exact hend
  · exact hend
  · exact hend.elim

/-- The downgrade dies before it creates its candidate, and each of some recoveries before it creates the
old Box again. -/
def interruptedRecoveries (count : Nat) : World :=
  downgraded Plain.platform workspaceIdentity engineEffects gateRequest gateWorld (diesBefore 17)
    (replicate count (engineEffects, diesBefore 12))

/-- After seven such recoveries the journal has eight attempts, and no recovery gets further. -/
theorem recovery_stuck_after_eight_attempts : Observed gateRequest gateWorld ∧
      (interruptedRecoveries 7).journal.map (fun journal => (journal.phase, journal.attempts.length)) =
        some (.rollbackStarted, 8) ∧
      let stuck := recoverHardwareDowngrades Plain.platform workspaceIdentity engineEffects
        (interruptedRecoveries 7) []
      stuck.outcome = .threw (transitionError "transition journal attempts are invalid") ∧
        ¬ stuck.state.Settled ∧
        (recoverHardwareDowngrades Plain.platform workspaceIdentity engineEffects stuck.state []).outcome =
          .threw (transitionError "transition journal attempts are invalid") := by
  refine ⟨observed_gateWorld, by decide +kernel, by decide +kernel, ?_, by decide +kernel⟩
  rintro ⟨journal, hjournal, hsettled⟩
  have hpending : (recoverHardwareDowngrades Plain.platform workspaceIdentity engineEffects
      (interruptedRecoveries 7) []).state.journal.map (·.isSettled) = some false := by decide +kernel
  rw [hjournal, Option.map_some, hsettled] at hpending
  cases hpending

/-- After six of them the last attempt is left. -/
theorem recovery_settles_after_seven_attempts :
    (recoverHardwareDowngrades Plain.platform workspaceIdentity engineEffects
      (interruptedRecoveries 6) []).state.Settled := by
  have hsome : (interruptedRecoveries 6).journal.isSome = true := by decide +kernel
  obtain ⟨journal, hjournal⟩ := Option.isSome_iff_exists.mp hsome
  refine (recovery_settles_iff Plain.platform workspaceIdentity engineEffects gateRequest gateWorld
    observed_gateWorld (diesBefore 17) (replicate 6 (engineEffects, diesBefore 12)) engineEffects
    journal hjournal).mpr ?_
  rintro ⟨-, -, ⟨-, hlength, -⟩ | ⟨hforeign, -⟩⟩
  · have hseven : (interruptedRecoveries 6).journal.map (·.attempts.length) = some 7 := by decide +kernel
    rw [hjournal, Option.map_some, Option.some.injEq] at hseven
    rw [hseven] at hlength
    exact absurd hlength (by decide)
  · have hoperation : (interruptedRecoveries 6).journal.map (·.operationId) = some 0 := by decide +kernel
    have hbarrier : (interruptedRecoveries 6).site.barrier = some (.owned 0) := by decide +kernel
    rw [hjournal, Option.map_some, Option.some.injEq] at hoperation
    rw [hoperation] at hforeign
    exact hforeign.2 hbarrier

end Ploinky.Downgrade
