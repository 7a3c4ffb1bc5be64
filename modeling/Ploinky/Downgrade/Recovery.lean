import Ploinky.Downgrade.Safety
import Ploinky.Js.Plain

/-!
# Rollback and recovery

The rollback and the recovery keep the invariant of the downgrade, and so does every history of them:
the decision that is durable is never changed, the two terminal phases say the truth about the host, and
only Boxes of the operation are removed.
-/

namespace Ploinky.Downgrade

open Ploinky Js Durable Durable.Prog List Option

variable {platform : Platform} {effects : Effects} {request : Request} {ctx : Context}
  {admits : Fault Failure → Prop} {s : Running}

/-- The journal is open, and the Box that is restored is there. -/
def Restoring (platform : Platform) (request : Request) (id : Id) (journal : Journal) (site : Site) :
    Prop := Open journal ∧ site.boxId = some id ∧ Restored platform request site

variable {id : Id} {site : Site} {journal : Journal} {attempt : Attempt} {world : World}

theorem stable_restoring : Stable platform (Restoring platform request id) :=
  fun _ _ _ halike h => ⟨h.1, halike.boxId.trans h.2.1, halike.restored h.2.2⟩

/-- Without the old Box the barrier is not that of another operation. -/
theorem Owned.not_foreign (h : Owned ctx site) (hbox : site.boxId ≠ some ctx.request.oldContainerId) :
    ¬ Foreign ctx.request site :=
  fun hforeign => hbox (h.foreign hforeign)

/-- An attempt with the ID of its Box has a receipt of it. -/
theorem mem_ownedAttempts (hs : Consistent ctx journal site)
    (h : (id, attempt) ∈ ownedAttempts journal.attempts site) :
    attempt ∈ journal.attempts ∧ (attempt.attemptId, id) ∈ site.receipts := by
  obtain ⟨found, hmem, hfound⟩ := mem_filterMap.mp h
  obtain ⟨observed, hobserved, heq⟩ := map_eq_some_iff.mp hfound
  cases heq
  refine ⟨hmem, ?_⟩
  cases hid : attempt.observedId with
  | some known =>
    rw [hid] at hobserved
    cases hobserved
    exact (hs.attempts attempt hmem).observed id hid
  | none =>
    rw [hid] at hobserved
    obtain ⟨l, r, hreceipts, -⟩ := lookup_eq_some_iff.mp hobserved
    rw [hreceipts]
    simp

theorem mem_of_attemptOf {pairs : List (Id × Attempt)} (h : attemptOf id pairs = some attempt) :
    (id, attempt) ∈ pairs := by
  obtain ⟨l, r, hpairs, -⟩ := lookup_eq_some_iff.mp h
  rw [← mem_reverse, hpairs]
  simp

/-- The ID of a Box is recorded in the attempt that created it. -/
theorem Inv.resume (h : Inv ctx s) (hreceipt : (attempt.attemptId, id) ∈ s.world.site.receipts) :
    Inv ctx (s.amended fun journal => { journal with attempts := journal.attempts.map fun other =>
        if other.attemptId = attempt.attemptId then { other with observedId := some id } else other }) := by
  refine h.amended { h.memory with attempts := ?_ } fun _ => rfl
  intro changed hmem
  obtain ⟨other, hother, rfl⟩ := mem_map.mp hmem
  have hattempt := h.memory.attempts other hother
  split_ifs with hsame
  · refine { hattempt with observed := ?_ }
    intro found hfound
    cases hfound
    rw [← hsame] at hreceipt
    exact hreceipt
  · exact hattempt

/-- What is left of the observed Box: nothing, or the restored Box. -/
def LeftOf (platform : Platform) (request : Request) (settled : Option Box × Id) (journal : Journal)
    (site : Site) : Prop :=
  match settled.1 with
  | none => Forward request journal site ∧ site.box = none
  | some _ => Restoring platform request settled.2 journal site

theorem ends_settleObserved (h : At ctx (fun journal _ => Open journal) s) :
    wp admits (settleObserved ctx.identity) (Ends ctx fun settled =>
      At ctx (LeftOf ctx.platform ctx.request settled)) s := by
  have hold : s.journal.old.containerId = ctx.request.oldContainerId :=
    congrArg OldBox.containerId h.inv.memory.old
  have howned := h.inv.sound.owned
  refine wp_bind (wp_look (ends_askSite h.inv fun pairs hpairs => ends_askSite h.inv fun observed hobserved => ?_))
  cases hpairs
  cases hobserved
  cases hbox : s.world.site.box with
  | none =>
    refine wp_pure ⟨h.inv, h.synced, ⟨h.holds, howned.not_foreign ?_⟩, hbox⟩
    simp [Site.boxId, hbox]
  | some box =>
    have hid : s.world.site.boxId = some box.id := by simp [Site.boxId, hbox]
    refine wp_ite (fun hsame => wp_pure ⟨h.inv, h.synced, h.holds, ?_, box, hbox, .inl ?_⟩) fun hne => ?_
    · rw [hid, hsame]
    · rw [hsame, hold]
    cases hattempt : attemptOf box.id (ownedAttempts s.journal.attempts s.world.site) with
    | none => exact ends_block h.inv
    | some attempt =>
      obtain ⟨hmem, hreceipt⟩ := mem_ownedAttempts h.inv.memory (mem_of_attemptOf hattempt)
      have hknown := h.inv.memory.attempts attempt hmem
      have hcreated := (howned.receipts _ hreceipt).2.2 hknown.base_le
      refine wp_ite (fun hstage => ?_) fun _ => ?_
      · have hrestored : Restored ctx.platform ctx.request s.world.site := by
          refine ⟨box, hbox, .inr ⟨hcreated, ?_⟩⟩
          rw [hknown.configuration box hbox hreceipt, hknown.rollback hstage]
        refine wp_bind (wp_amend (ends_bind (ends_announce (P := Restoring ctx.platform ctx.request box.id)
          (h.inv.resume hreceipt) (.action rfl)
          ⟨h.holds, hid, hrestored⟩) ?_))
        intro _ t ht
        exact wp_pure ht
      · have hforeign := howned.not_foreign (by rw [hid, ← hold]; simpa using hne)
        refine ends_bind (ends_intent (P := Candidate ctx.request box.id) h.inv
          ⟨⟨h.holds, hforeign⟩, hcreated⟩ fun t ht =>
            ends_removeBox ⟨ht.inv, ht.synced, ht.holds.1⟩ (.inr ht.holds.2)) ?_
        intro _ t ht
        refine ends_askSite ht.inv fun left hleft => ?_
        cases hleft
        rw [ht.holds.2]
        exact wp_pure ht

variable {oldConfiguration graph : Json} {α : Type} {refs : List Str} {p : Step α}

theorem ends_recreateOld
    (hdigest : digestOf ctx.platform oldConfiguration = digestOf ctx.platform ctx.request.oldConfiguration)
    (h : At ctx (Forward ctx.request) s) :
    wp admits (recreateOld ctx.platform ctx.identity oldConfiguration) (Ends ctx
      fun id => At ctx (Restoring ctx.platform ctx.request id)) s := by
  have hold : s.journal.old.configurationRef = digestOf ctx.platform ctx.request.oldConfiguration :=
    congrArg OldBox.configurationRef h.inv.memory.old
  refine wp_bind (wp_look (ends_bind (ends_pushAttempt stable_forward (fun _ hP => hP) h fun _ => hold) ?_))
  rintro attemptId t ⟨ht, hforward, hattempting⟩
  refine ends_bind (ends_intent (P := fun journal site => Forward ctx.request journal site ∧
    Attempting attemptId s.journal.old.configurationRef journal site) ht ⟨hforward, hattempting⟩ fun _ =>
      ends_createBox (hdigest.trans hold.symm)) ?_
  intro _ t ht
  refine ends_askSite ht.inv fun receipt hreceipt => ?_
  cases hreceipt
  obtain ⟨⟨hforward, hattempting⟩, id, hfound, box, hbox, hid, hcreated, hconfiguration⟩ := ht.holds
  rw [hfound]
  have hrestored : Restored ctx.platform ctx.request t.world.site :=
    ⟨box, hbox, .inr ⟨hid ▸ hcreated, hconfiguration.trans hold⟩⟩
  refine wp_bind (wp_amend (ends_bind (ends_announce (P := Restoring ctx.platform ctx.request id)
    (ht.inv.observed hattempting hfound) (.action rfl)
    ⟨hforward.1, by simp [Site.boxId, Running.amended, hbox, hid], hrestored⟩) ?_))
  intro _ t ht
  exact wp_pure ht

theorem ends_restoredBox
    (hdigest : digestOf ctx.platform oldConfiguration = digestOf ctx.platform ctx.request.oldConfiguration)
    (h : At ctx (fun journal _ => Open journal) s) :
    wp admits (restoredBox ctx.platform ctx.identity oldConfiguration) (Ends ctx
      fun id => At ctx (Restoring ctx.platform ctx.request id)) s := by
  refine ends_bind (ends_settleObserved h) ?_
  rintro ⟨left, id⟩ t ht
  cases left with
  | none => exact ends_recreateOld hdigest ⟨ht.inv, ht.synced, ht.holds.1⟩
  | some box => exact wp_pure ht

/-- The start of a graph. -/
theorem ends_startGraphOf {P : Journal → Site → Prop} (hP : Stable ctx.platform P)
    (hannounce : ∀ journal site action, P journal site → P { journal with nextAction := some action } site)
    (h : Inv ctx s) (hs : P s.journal s.world.site) :
    wp admits (startGraphOf ctx.identity effects id graph) (Ends ctx fun _ t =>
      Inv ctx t ∧ P t.journal t.world.site) s := by
  refine ends_bind (ends_intent h (hannounce _ _ _ hs) fun _ ht => ends_onBox hP ht fun box =>
    ⟨_, rfl, rfl, rfl⟩) ?_
  intro _ t ht
  exact wp_ret ⟨ht.inv, ht.holds⟩

theorem ends_restoreRunning (h : At ctx (Restoring ctx.platform ctx.request id) s) :
    wp admits (restoreRunning ctx.identity effects id graph) (Ends ctx fun _ t =>
      Inv ctx t ∧ Restoring ctx.platform ctx.request id t.journal t.world.site) s := by
  refine wp_bind (wp_look (ends_bind (M := fun _ t => t = s) ?_ ?_))
  · refine wp_bind (wp_look (wp_ite (fun _ => ?_) fun _ => wp_pure rfl))
    exact ends_askSite h.inv fun _ _ => wp_pure rfl
  rintro lost t rfl
  refine wp_whenDo (fun _ => ?_) fun _ => ⟨h.inv, h.holds⟩
  refine ends_bind (M := fun _ => At ctx (Restoring ctx.platform ctx.request id)) ?_ ?_
  · refine ends_askSite h.inv fun observed _ => wp_ite (fun _ => wp_pure h) fun _ => ?_
    exact ends_bind (ends_intent h.inv h.holds fun _ ht => ends_onBox stable_restoring ht fun box =>
      ⟨_, rfl, rfl, rfl⟩) fun _ t ht => wp_pure ht
  intro started t ht
  refine ends_bind (ends_intent ht.inv ht.holds fun _ hu => ends_onBox stable_restoring hu fun box =>
    ⟨_, rfl, rfl, rfl⟩) ?_
  intro _ t ht
  refine wp_whenDo (fun _ => ?_) fun _ => ⟨ht.inv, ht.holds⟩
  have hgraph : wp admits (startGraphOf ctx.identity effects id graph) (Ends ctx fun _ t => Inv ctx t ∧
      Restoring ctx.platform ctx.request id t.journal t.world.site) t :=
    ends_startGraphOf stable_restoring (fun _ _ _ hP => hP) ht.inv ht.holds
  refine wp_ite (fun _ => hgraph) fun _ => ends_askSite ht.inv fun running _ => ?_
  exact wp_whenDo (fun _ => hgraph) fun _ => ⟨ht.inv, ht.holds⟩

/-- A decision for the Box that is restored. -/
theorem Consistent.decide_restored {ref : Str} (hs : Consistent ctx journal site)
    (hopen : Open journal) (hrestored : Restored ctx.platform ctx.request site) : Consistent ctx
      (Journal.decide ctx.platform journal .restoredOld id ref none (·.old)) site :=
  { hs with
    undecided := fun _ => hs.undecided (by simp [Journal.result, hopen.1])
    desiredOff := by
      intro decided hdecided hoff
      cases hdecided
      cases hoff
    restoredOld := fun _ => hrestored
    committed := by
      intro hphase
      have hresult := (hs.committed hphase).1
      rw [Journal.result, hopen.1] at hresult
      cases hresult
    rolledBack := fun hphase => absurd hphase hopen.2.2 }

theorem ends_restoreOld (h : Inv ctx s) (hnone : s.journal.commitIntent = none) :
    wp admits (restoreOld ctx.platform ctx.identity effects) (Ends ctx fun _ =>
      At ctx fun journal _ => journal.result = some .restoredOld) s := by
  refine ends_bind (ends_announce (P := fun journal _ => Open journal) h
    ⟨rfl, .inr (by simp)⟩ ⟨hnone, by simp, by simp⟩) ?_
  intro _ t ht
  have hold : t.journal.old.configurationRef = digestOf ctx.platform ctx.request.oldConfiguration :=
    congrArg OldBox.configurationRef ht.inv.memory.old
  refine wp_bind (wp_look (ends_readSnapshot ht.inv fun oldConfiguration ⟨_, _, hdigest⟩ => ?_))
  refine ends_readSnapshot ht.inv fun graph _ => ?_
  refine ends_bind (ends_restoredBox (hdigest.trans hold) ht) ?_
  intro restoredId t ht
  refine ends_bind (ends_restoreRunning ht) ?_
  rintro _ t ⟨ht, hopen, hbox, hrestored⟩
  refine ends_askSite ht fun verified _ => wp_ite (fun _ => ends_block ht) fun _ => ?_
  refine ends_bind (ends_announce (P := Restoring ctx.platform ctx.request restoredId) ht
    ⟨rfl, .inr (by simp)⟩
    ⟨⟨hopen.1, by simp, by simp⟩, hbox, hrestored⟩) ?_
  intro _ t ht
  obtain ⟨hopen, hbox, hrestored⟩ := ht.holds
  refine ends_persist ht.inv (ht.inv.memory.decide_restored hopen hrestored) ?_ rfl
  intro hdecided
  exact absurd hopen.1 hdecided

/-- A query whether the downgrade has touched the host. -/
theorem ends_untouched (h : Inv ctx s) : wp admits untouched (Ends ctx fun clean t => t = s ∧
      (clean = true → s.journal.phase = .prepared ∧ s.world.site.barrier = none)) s := by
  refine wp_bind (wp_look (wp_ite (fun hphase => ?_) fun _ => wp_pure ⟨rfl, by simp⟩))
  refine ends_askSite h fun barrier hbarrier => ?_
  cases hbarrier
  exact wp_pure ⟨rfl, fun hnone => ⟨hphase, isNone_iff_eq_none.mp hnone⟩⟩

/-- A downgrade that has not touched the host is rolled back by its journal alone. -/
theorem ends_rollBackUntouched {changes : Journal → Journal} {nextAction : Option Action}
    (h : Inv ctx s) (hresult : s.journal.result ≠ some .desiredOff)
    (hphase : s.journal.phase = .prepared) (hbarrier : s.world.site.barrier = none)
    (hchanges : changes s.journal = { s.journal with phase := .rolledBack, nextAction }) :
    wp admits (persist ctx.identity changes) (Ends ctx fun _ =>
      At ctx fun journal _ => journal.phase = .rolledBack) s := by
  obtain ⟨box, hbox, hid⟩ := map_eq_some_iff.mp (h.memory.prepared hphase)
  refine ends_persist h ?_ (fun _ => by rw [hchanges]) (by rw [hchanges])
  rw [hchanges]
  exact h.memory.roll_back hresult hbarrier ⟨box, hbox, .inl hid⟩

/-- A process that takes up the durable journal. -/
theorem Sound.inv (h : Sound ctx world) (hjournal : world.journal = some journal) :
    Inv ctx ⟨world, journal⟩ where
  sound := h
  memory := (h.durable journal hjournal).1
  agree := by
    intro earlier hmem
    obtain ⟨before, hbefore⟩ := getLast?_eq_some_iff.mp (h.last.trans hjournal)
    have hagree := h.agree
    rw [hbefore] at hmem hagree
    rcases mem_append.mp hmem with hold | hnew
    · exact (pairwise_append.mp hagree).2.2 earlier hold journal (.head _)
    · rw [mem_singleton.mp hnew]
      exact fun _ => rfl

/-- What a process with its journal object ends in. -/
theorem keeps_withJournal (h : wp admits p (Ends ctx fun _ => Inv ctx) ⟨world, journal⟩) :
    wp admits (withJournal journal p) ⟨fun _ => Sound ctx, fun _ => Sound ctx, Sound ctx⟩ world :=
  wp_zoom (wp_mono h (fun _ _ ht => ht.sound) (fun _ _ ht => ht.sound) fun _ ht => ht.sound)

/-- The pending journal. -/
theorem listPending_eq_ok {pending : List Journal}
    (h : (world.journal.toList.mapM fun journal => (validateJournal identity journal).map fun _ => journal).map (·.filter fun journal => !journal.phase.isTerminal) = .ok pending) :
    pending = world.journal.toList.filter fun journal => !journal.phase.isTerminal := by
  cases hjournal : world.journal with
  | none =>
    rw [hjournal] at h
    cases h
    rfl
  | some journal =>
    rw [hjournal] at h
    cases hvalid : validateJournal identity journal with
    | error error => simp [hvalid, Except.map, bind, Except.bind] at h
    | ok checked =>
      simp only [toList_some, mapM_cons, hvalid] at h
      cases h
      rfl

section Records

variable (hnames : (ctx.request.hostRecords.map (·.name)).Nodup)

include hnames

theorem ends_rollback (h : Inv ctx s) :
    wp admits (rollback ctx.platform ctx.identity effects) (Ends ctx fun _ =>
      At ctx fun journal _ => journal.phase = .rolledBack) s := by
  refine wp_bind (wp_look (wp_ite (fun _ => wp_raise h) fun hresult => ?_))
  refine ends_bind (ends_untouched h) ?_
  rintro clean t ⟨rfl, hclean⟩
  refine wp_ite (fun htrue => ?_) fun _ => ?_
  · obtain ⟨hphase, hbarrier⟩ := hclean htrue
    exact ends_rollBackUntouched h hresult hphase hbarrier rfl
  refine ends_bind (M := fun _ t => Inv ctx t ∧
    t.journal.result = some .restoredOld) ?_ fun _ t ht => ends_completeRollback hnames ht.1 ht.2
  refine wp_whenDo (fun hrestored => ?_) fun hrestored => ⟨h, by simpa using hrestored⟩
  have hnone : t.journal.commitIntent = none := by
    cases hdecided : t.journal.commitIntent with
    | none => rfl
    | some decided =>
      simp only [Journal.result, hdecided, map_some, some.injEq] at hresult hrestored
      cases hdecision : decided.result <;> simp_all
  exact wp_imp (ends_restoreOld h hnone) (fun _ t ht => ⟨ht.inv, ht.holds⟩)

theorem ends_rollForward {decided : CommitIntent} (h : Inv ctx s)
    (hresult : s.journal.result = some .desiredOff) :
    wp admits (rollForward ctx.platform ctx.identity effects decided) (Ends ctx
      fun _ => At ctx fun journal _ => journal.phase = .committed) s := by
  have hstable : Stable ctx.platform fun journal _ => journal.result = some .desiredOff :=
    fun _ _ _ _ hs => hs
  refine wp_bind (wp_look (ends_readSnapshot h fun configuration _ => ends_askSite h fun observed _ => ?_))
  cases hbox : observed.filter (·.id = decided.finalContainerId) with
  | none => exact ends_block h
  | some box =>
    refine ends_bind (M := fun _ t => Inv ctx t ∧
      t.journal.result = some .desiredOff) ?_ ?_
    · refine wp_whenDo (fun _ => ?_) fun _ => ⟨h, hresult⟩
      exact wp_imp (ends_intent h hresult fun _ ht => ends_onBox hstable ht fun box => ⟨_, rfl, rfl, rfl⟩)
        (fun _ t ht => ⟨ht.inv, ht.holds⟩)
    rintro _ t ⟨ht, hoff⟩
    refine ends_bind (M := fun _ t => Inv ctx t ∧
      t.journal.result = some .desiredOff) ?_ ?_
    · refine wp_whenDo (fun _ => ?_) fun _ => ⟨ht, hoff⟩
      refine ends_askSite ht fun running _ => wp_whenDo (fun _ => ?_) fun _ => ⟨ht, hoff⟩
      refine ends_readSnapshot ht fun graph _ => ?_
      exact ends_startGraphOf hstable (fun _ _ _ hP => hP) ht hoff
    rintro _ t ⟨ht, hoff⟩
    refine ends_askSite ht fun verified _ => ?_
    exact wp_ite (fun _ => ends_block ht) fun _ => ends_completeDecision hnames ht hoff

theorem ends_recoverWithoutDecision (h : Inv ctx s) (hresult : s.journal.result ≠ some .desiredOff) :
    wp admits (recoverWithoutDecision ctx.platform ctx.identity effects) (Ends ctx
      fun _ => At ctx fun journal _ => journal.phase = .rolledBack) s := by
  refine wp_bind (wp_look (ends_readSnapshot h fun _ _ => ends_readSnapshot h fun _ _ =>
    ends_readSnapshot h fun _ _ => ?_))
  refine ends_bind (M := fun clean t => t = s ∧
    (clean = true → s.journal.phase = .prepared ∧ s.world.site.barrier = none)) ?_ ?_
  · exact wp_bind (wp_look (wp_ite (fun _ => ends_untouched h) fun _ => wp_pure ⟨rfl, by simp⟩))
  rintro clean u ⟨rfl, hclean⟩
  refine wp_ite (fun htrue => ?_) fun _ => ?_
  · obtain ⟨hphase, hbarrier⟩ := hclean htrue
    exact ends_rollBackUntouched h hresult hphase hbarrier rfl
  refine ends_askSite h fun observed _ => ends_askSite h fun pairs _ => ?_
  cases observed with
  | none => exact ends_rollback hnames h
  | some box => exact wp_ite (fun _ => ends_rollback hnames h) fun _ => ends_block h

theorem keeps_recoverJournal (h : Inv ctx s) (hjournal : s.journal = journal) :
    wp admits (recoverJournal ctx.platform ctx.identity effects journal) (Ends ctx fun _ => Inv ctx) s := by
  refine wp_ite (fun _ => ends_block h) fun _ => ?_
  cases hdecided : journal.commitIntent.filter (·.result = .desiredOff) with
  | some decided =>
    obtain ⟨hintent, hoff⟩ := filter_eq_some_iff.mp hdecided
    have hresult : s.journal.result = some .desiredOff := by
      rw [hjournal, Journal.result, hintent]
      simpa using hoff
    exact wp_imp (ends_rollForward hnames h hresult) (fun _ _ ht => ht.inv)
  | none =>
    have hresult : s.journal.result ≠ some .desiredOff := by
      intro hoff
      rw [hjournal] at hoff
      obtain ⟨decided, hintent, hoff⟩ := map_eq_some_iff.mp hoff
      simp [hintent, hoff] at hdecided
    exact wp_imp (ends_recoverWithoutDecision hnames h hresult) (fun _ _ ht => ht.inv)

theorem keeps_recoverOne (h : Sound ctx world) (hjournal : world.journal = some journal) :
    wp admits (recoverOne ctx.platform ctx.identity effects journal) ⟨fun _ => Sound ctx, fun _ => Sound ctx,
        Sound ctx⟩ world := by
  refine wp_ite (fun _ => wp_ret h) fun _ => keeps_withJournal (wp_attempt ?_)
  refine wp_bind (wp_mono (keeps_recoverJournal hnames (h.inv hjournal) rfl) ?_ ?_ (fun _ h => h))
  · exact fun _ t ht => wp_look ht
  · exact fun error t ht => wp_ite (fun _ => wp_ret ht) fun _ => wp_raise ht

theorem keeps_recoverHardwareDowngrades : Keeps admits (Sound ctx)
      (recoverHardwareDowngrades ctx.platform ctx.identity effects) := by
  intro world h
  refine wp_bind (wp_ask (fun pending hpending => ?_) (fun _ => h) h)
  -- at most the journal of the operation is pending
  rw [listPending_eq_ok hpending]
  cases hjournal : world.journal with
  | none => exact wp_ret h
  | some journal =>
    rw [toList_some, filter_singleton]
    cases journal.phase.isTerminal with
    | true => exact wp_ret h
    | false =>
      refine wp_bind (wp_imp (keeps_recoverOne hnames h hjournal) ?_)
      exact fun result t ht => wp_bind (wp_ret (wp_pure ht))

end Records

/-! ## The first process -/

/-- What a downgrade finds: the Box that it is to replace, the host records with their old values, no
journal, and IDs that are new. -/
structure Observed (request : Request) (world : World) : Prop where
  journal : world.journal = none ∧ world.journals = []
  box : world.site.boxId = some request.oldContainerId
  issued : ∀ id, world.site.boxId = some id → id < world.site.issued
  receipts : ∀ receipt ∈ world.site.receipts,
    receipt.1 < world.site.issued ∧ receipt.2 < world.site.issued
  touched : world.site.created = [] ∧ world.site.removed = []
  records : ∀ change ∈ request.hostRecords, world.site.records change.name = change.old
  names : (request.hostRecords.map (·.name)).Nodup
  operationId : world.site.barrier ≠ some (.owned request.operationId)

theorem Observed.sound (h : Observed ctx.request world) (hbase : ctx.base = world.site.issued) :
    Sound ctx world where
  owned := {
    old := hbase ▸ h.issued _ h.box
    base_le := hbase.le
    box := by
      intro box hbox
      have hid : world.site.boxId = some box.id := by simp [Site.boxId, hbox]
      exact ⟨h.issued _ hid, .inl (some.inj (hid.symm.trans h.box))⟩
    created := by simp [h.touched.1]
    receipts := by
      intro receipt hmem
      obtain ⟨hattempt, hcontainer⟩ := h.receipts receipt hmem
      exact ⟨hattempt, hcontainer, fun hle => absurd hattempt (hbase ▸ hle).not_gt⟩
    removed := by simp [h.touched.2]
    foreign := fun _ => h.box
    policy := fun hbarrier => absurd hbarrier h.operationId }
  durable := by
    intro journal hjournal
    rw [h.journal.1] at hjournal
    cases hjournal
  last := by rw [h.journal.1, h.journal.2]; rfl
  agree := by simp [h.journal.2]

/-- The process before its journal is durable: it has written the snapshots of the references. -/
structure Preparing (ctx : Context) (effects : Effects) (refs : List Str) (s : Running) : Prop where
  sound : Sound ctx s.world
  journal : s.world.journal = none ∧ s.world.journals = []
  memory : s.journal = preparedJournal ctx.platform ctx.identity effects ctx.request
  box : s.world.site.boxId = some ctx.request.oldContainerId
  records : ∀ change ∈ ctx.request.hostRecords, s.world.site.records change.name = change.old
  readable : ∀ ref ∈ refs, Readable ctx.platform s.world.site ref

/-- The program ends as claimed, and leaves a sound host when it throws or dies. -/
def Leaves {α : Type} (ctx : Context) (R : α → Running → Prop) : Post Running Failure α :=
  ⟨R, fun _ t => Sound ctx t.world,
    fun t => Sound ctx t.world⟩

/-- A program that keeps the invariant leaves a sound host. -/
theorem leaves_of_ends {R : α → Running → Prop} (h : wp admits p (Ends ctx R) s) :
    wp admits p (Leaves ctx R) s :=
  wp_mono h (fun _ _ ht => ht) (fun _ _ ht => ht.sound) fun _ ht => ht.sound

theorem leaves_writeSnapshot {value : Json} (h : Preparing ctx effects refs s) :
    wp admits (writeSnapshot ctx.platform value) (Leaves ctx fun _ =>
      Preparing ctx effects (digestOf ctx.platform value :: refs)) s := by
  have halike : Alike ctx.platform s.world.site _ := alike_writeSnapshot s.world.site value
  have hsound : Sound ctx { s.world with
      site.snapshots := (digestOf ctx.platform value, value) :: s.world.site.snapshots } := {
    owned := h.sound.owned.alike halike h.sound.owned.removed
    durable := by
      intro journal hjournal
      rw [h.journal.1] at hjournal
      cases hjournal
    last := h.sound.last
    agree := h.sound.agree }
  refine wp_call_ok (v := digestOf ctx.platform value) rfl ⟨hsound, h.journal, h.memory, h.box, h.records, ?_⟩
    (fun _ _ => h.sound) (fun _ _ => hsound) (fun _ => h.sound) fun _ => hsound
  intro ref hmem
  rcases mem_cons.mp hmem with rfl | hold
  · exact ⟨value, by simp, rfl⟩
  · exact halike.readable ref (h.readable ref hold)

/-- The first journal says what the downgrade found. -/
theorem Preparing.inv (h : Preparing ctx effects refs s)
    (hrefs : ∀ value ∈ [ctx.request.oldConfiguration, ctx.request.graphSnapshot, ctx.request.desiredConfiguration], digestOf ctx.platform value ∈ refs) :
    Inv ctx s where
  sound := h.sound
  memory := by
    rw [h.memory]
    exact {
      operationId := rfl
      old := rfl
      desired := rfl
      hostRecords := by simp [preparedJournal, HostRecord.change, Function.comp_def]
      readable := by
        intro ref hmem
        refine h.readable ref ?_
        simp only [mem_cons, not_mem_nil, or_false] at hmem
        rcases hmem with rfl | rfl | rfl
        · exact hrefs _ (by simp)
        · exact hrefs _ (by simp)
        · exact hrefs _ (by simp)
      attempts := nofun
      prepared := fun _ => h.box
      undecided := by
        intro _
        refine ⟨h.records, fun record hmem => ?_⟩
        obtain ⟨change, -, rfl⟩ := mem_map.mp hmem
        rfl
      desiredOff := nofun
      restoredOld := nofun
      committed := nofun
      rolledBack := nofun }
  agree := by simp [h.journal.2]

theorem leaves_prepare (h : Preparing ctx effects [] s) :
    wp admits (prepare ctx.platform ctx.identity ctx.request) (Leaves ctx fun _ => At ctx fun journal _ =>
        journal.phase = .prepared ∧ journal.commitIntent = none) s := by
  have hseq : ∀ {α β : Type} {p : Step α} {next : α → Step β} {M : α → Running → Prop}
      {R : β → Running → Prop} {t : Running},
      wp admits p (Leaves ctx M) t →
      (∀ value u, M value u → wp admits (next value) (Leaves ctx R) u) →
      wp admits (p >>= next) (Leaves ctx R) t := fun hp hnext =>
    wp_bind (wp_imp hp hnext)
  refine hseq (leaves_writeSnapshot h) fun _ t ht => ?_
  refine hseq (leaves_writeSnapshot ht) fun _ t ht => ?_
  refine hseq (leaves_writeSnapshot ht) fun _ t ht => ?_
  refine hseq (leaves_writeSnapshot ht) fun _ t ht => ?_
  refine hseq (M := fun _ u => ∃ refs, Preparing ctx effects refs u ∧
    ∀ value ∈ [ctx.request.oldConfiguration, ctx.request.graphSnapshot, ctx.request.desiredConfiguration],
      digestOf ctx.platform value ∈ refs) ?_ ?_
  · cases ctx.request.reapplyConfiguration with
    | none => exact wp_ret ⟨_, ht, by simp⟩
    | some configuration =>
      exact hseq (leaves_writeSnapshot ht) fun _ u hu => wp_ret ⟨_, hu, by simp⟩
  · rintro _ u ⟨refs, hu, hrefs⟩
    refine leaves_of_ends (ends_writeJournal (hu.inv hrefs) ?_)
    rw [hu.memory]
    exact ⟨rfl, rfl⟩

theorem keeps_runHardwareDowngrade (h : Observed ctx.request world) (hbase : ctx.base = world.site.issued) :
    wp admits (runHardwareDowngrade ctx.platform ctx.identity effects ctx.request)
      ⟨fun _ => Sound ctx, fun _ => Sound ctx, Sound ctx⟩ world := by
  have hpreparing : Preparing ctx effects []
      ⟨world, preparedJournal ctx.platform ctx.identity effects ctx.request⟩ :=
    ⟨h.sound hbase, h.journal, rfl, h.box, h.records, by simp⟩
  refine wp_zoom (wp_bind (wp_imp (leaves_prepare hpreparing) ?_))
  intro _ t ht
  refine leaves_of_ends (R := fun _ t => Sound ctx t.world) ?_
  refine ends_bind (M := fun _ => At ctx fun journal _ =>
    journal.result = some .desiredOff) (wp_attempt (wp_mono (ends_forwardToDecision ht) (fun _ _ hu => hu)
      ?_ (fun _ h => h))) ?_
  · intro error u hu
    refine ends_bind (ends_announce (P := fun _ _ => True) hu (.action rfl)
      trivial) fun _ v hv => ends_bind (ends_rollback h.names hv.inv) fun _ w hw => wp_raise hw.inv
  · intro _ u hu
    refine ends_bind (ends_completeDecision h.names hu.inv hu.holds) fun _ v hv => wp_look hv.inv.sound

/-! ## Histories -/

/-- The host after recoveries, each with its process and its faults. -/
def recovered (platform : Platform) (identity : Identity) (world : World)
    (recoveries : List (Effects × List (Fault Failure))) : World :=
  recoveries.foldl (fun world recovery =>
    (recoverHardwareDowngrades platform identity recovery.1 world recovery.2).state) world

/-- The host after a downgrade and the recoveries that follow it. -/
def downgraded (platform : Platform) (identity : Identity) (effects : Effects) (request : Request)
    (world : World) (faults : List (Fault Failure))
    (recoveries : List (Effects × List (Fault Failure))) : World :=
  recovered platform identity (runHardwareDowngrade platform identity effects request world faults).state
    recoveries

/-- Every history leaves a sound host. -/
theorem sound_downgraded (h : Observed ctx.request world) (hbase : ctx.base = world.site.issued)
    (faults : List (Fault Failure)) (recoveries : List (Effects × List (Fault Failure))) : Sound ctx
      (downgraded ctx.platform ctx.identity effects ctx.request world faults recoveries) := by
  have hstart : Sound ctx
      (runHardwareDowngrade ctx.platform ctx.identity effects ctx.request world faults).state :=
    wp_state (keeps_runHardwareDowngrade h hbase : wp (fun _ => True) _ _ _) fun _ _ => trivial
  unfold downgraded recovered
  generalize (runHardwareDowngrade ctx.platform ctx.identity effects ctx.request world faults).state = first at hstart
  induction recoveries generalizing first with
  | nil => exact hstart
  | cons recovery rest ih =>
    have hkeeps : Keeps (fun _ => True) (Sound ctx)
        (recoverHardwareDowngrades ctx.platform ctx.identity recovery.1) :=
      keeps_recoverHardwareDowngrades h.names
    exact ih _ (hkeeps.run hstart fun _ _ => trivial)

/-- Over every history of a downgrade and its recoveries: a durable decision is kept by every later
journal; a committed downgrade has removed its barrier, written all host records and left the Box of its
decision; one that was rolled back has removed its barrier, left the host records and restored the Box;
and only the old Box and Boxes of the operation are removed. -/
theorem downgrade_decisions_kept (platform : Platform) (identity : Identity) (effects : Effects)
    (request : Request) (world : World) (h : Observed request world) (faults : List (Fault Failure))
    (recoveries : List (Effects × List (Fault Failure))) :
    let last := downgraded platform identity effects request world faults recoveries
    (last.journals.getLast? = last.journal ∧ last.journals.Pairwise fun earlier later =>
        ∀ result, earlier.result = some result → later.result = some result) ∧
      (∀ journal, last.journal = some journal → journal.phase = .committed →
        last.site.barrier = none ∧
          (∀ change ∈ request.hostRecords, last.site.records change.name = change.next) ∧
          ∃ decided, journal.commitIntent = some decided ∧
            last.site.boxId = some decided.finalContainerId) ∧
      (∀ journal, last.journal = some journal → journal.phase = .rolledBack →
        last.site.barrier = none ∧
          (∀ change ∈ request.hostRecords, last.site.records change.name = change.old) ∧
          Restored platform request last.site) ∧
      ∀ id ∈ last.site.removed, id = request.oldContainerId ∨ id ∈ last.site.created := by
  intro last
  have hsound : Sound ⟨platform, identity, request, world.site.issued⟩ last :=
    sound_downgraded h rfl faults recoveries
  refine ⟨⟨hsound.last, ?_⟩, ?_, ?_, hsound.owned.removed⟩
  · refine hsound.agree.imp fun hagree result hresult => ?_
    obtain ⟨decided, hdecided, -⟩ := map_eq_some_iff.mp hresult
    rw [Journal.result, hagree (by simp [hdecided])]
    exact hresult
  · intro journal hjournal hphase
    have hconsistent := (hsound.durable journal hjournal).1
    obtain ⟨hresult, hbarrier, hrecords⟩ := hconsistent.committed hphase
    obtain ⟨decided, hdecided, hoff⟩ := map_eq_some_iff.mp hresult
    exact ⟨hbarrier, hrecords, decided, hdecided, (hconsistent.desiredOff decided hdecided hoff).box⟩
  · intro journal hjournal hphase
    have hconsistent := (hsound.durable journal hjournal).1
    obtain ⟨hresult, hbarrier, hrestored⟩ := hconsistent.rolledBack hphase
    exact ⟨hbarrier, (hconsistent.undecided hresult).1, hrestored⟩

def workspaceIdentity : Identity := ⟨"ploinky-box-work-0123456789ab", "0123456789ab", "/work"⟩

/-- An engine on which every Box passes its verification. -/
def engineEffects : Effects where
  engineIdentity := "podman"
  hostKind := "native-linux"
  verifies := fun _ _ _ => true
  graphOutcome := fun _ => ⟨"ready", [], 0, 0⟩
  now := "2026-01-01T00:00:00.000Z"

/-- The downgrade of the running Box 1. -/
def gateRequest : Request where
  operationId := 0
  operation := .restart
  oldContainerId := 1
  oldConfiguration := .bool true
  desiredConfiguration := .bool false
  graphSnapshot := .null
  reapplyConfiguration := none
  oldWasRunning := true
  oldGraphRunning := false
  hostRecords := [⟨"gate", .bool true, .bool false⟩]

def gateWorld : World where
  site := ⟨[], [], none, .valid 0 .null, fun _ => .bool true, some ⟨1, true, false, .bool true⟩, 2, [], []⟩
  journal := none
  journals := []

theorem observed_gateWorld : Observed gateRequest gateWorld where
  journal := ⟨rfl, rfl⟩
  box := rfl
  issued := by
    intro id hid
    cases hid
    decide
  receipts := by simp [gateWorld]
  touched := ⟨rfl, rfl⟩
  records := fun change hmem => by
    rw [mem_singleton.mp hmem]
    rfl
  names := by simp [gateRequest]
  operationId := by simp [gateWorld]

/-- The process dies before a call. -/
def diesBefore (call : Nat) : List (Fault Failure) := replicate call .pass ++ [.dieBefore]

/-- The downgrade dies before it creates the candidate; the first recovery dies before it creates the old
Box again, the second one has no faults. -/
theorem decisions_kept_after_deaths :
    let last := downgraded Plain.platform workspaceIdentity engineEffects gateRequest gateWorld
      (diesBefore 17) [(engineEffects, diesBefore 12), (engineEffects, [])]
    (last.journals.getLast? = last.journal ∧ last.journals.Pairwise fun earlier later =>
        ∀ result, earlier.result = some result → later.result = some result) ∧
      (∀ journal, last.journal = some journal → journal.phase = .committed →
        last.site.barrier = none ∧
          (∀ change ∈ gateRequest.hostRecords, last.site.records change.name = change.next) ∧
          ∃ decided, journal.commitIntent = some decided ∧
            last.site.boxId = some decided.finalContainerId) ∧
      (∀ journal, last.journal = some journal → journal.phase = .rolledBack →
        last.site.barrier = none ∧
          (∀ change ∈ gateRequest.hostRecords, last.site.records change.name = change.old) ∧
          Restored Plain.platform gateRequest last.site) ∧
      ∀ id ∈ last.site.removed, id = gateRequest.oldContainerId ∨ id ∈ last.site.created :=
  downgrade_decisions_kept Plain.platform workspaceIdentity engineEffects gateRequest gateWorld
    observed_gateWorld (diesBefore 17) [(engineEffects, diesBefore 12), (engineEffects, [])]

end Ploinky.Downgrade
