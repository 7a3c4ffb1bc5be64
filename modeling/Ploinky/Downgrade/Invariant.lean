import Ploinky.Downgrade.Protocol

/-!
# The invariant of a downgrade

`Consistent` relates one journal to the host. It is stated of the journal object and of the durable
journal alike: a process changes its object first, and what it would write must be true whether the
write goes through or not. `Owned` says which Boxes the operation may touch. The rules at the end are
those of the two kinds of step: a write of the journal, which leaves the host as it is, and an effect on
the host, which comes after a write and so finds the two journals equal.
-/

namespace Ploinky.Downgrade

open Ploinky Js Durable Durable.Prog List Option

/-- What is fixed while an operation is under way, with the first ID that may be its own. -/
structure Context where
  platform : Platform
  identity : Identity
  request : Request
  base : Nat

variable {platform : Platform} {request : Request} {ctx : Context}

/-- The barrier is not the one of the operation. -/
def Foreign (request : Request) (site : Site) : Prop :=
  site.barrier ≠ none ∧ site.barrier ≠ some (.owned request.operationId)

/-- The snapshot of the reference is there. -/
def Readable (platform : Platform) (site : Site) (ref : Str) : Prop :=
  ∃ value, site.snapshots.lookup ref = some value ∧ digestOf platform value = ref

/-- The ID of the Box that is present. -/
def Site.boxId (site : Site) : Option Id := site.box.map (·.id)

/-- The Box is the old one, or one that the operation created from the old configuration. -/
def Restored (platform : Platform) (request : Request) (site : Site) : Prop :=
  ∃ box, site.box = some box ∧ (box.id = request.oldContainerId ∨
    box.id ∈ site.created ∧ digestOf platform box.configuration = digestOf platform request.oldConfiguration)

/-- Which IDs belong to the operation. -/
structure Owned (ctx : Context) (site : Site) : Prop where
  old : ctx.request.oldContainerId < ctx.base
  base_le : ctx.base ≤ site.issued
  box : ∀ box, site.box = some box → box.id < site.issued ∧
    (box.id = ctx.request.oldContainerId ∨ box.id ∈ site.created)
  created : ∀ id ∈ site.created, ctx.base ≤ id ∧ id < site.issued
  receipts : ∀ receipt ∈ site.receipts, receipt.1 < site.issued ∧ receipt.2 < site.issued ∧
    (ctx.base ≤ receipt.1 → receipt.2 ∈ site.created)
  removed : ∀ id ∈ site.removed, id = ctx.request.oldContainerId ∨ id ∈ site.created
  foreign : Foreign ctx.request site → site.boxId = some ctx.request.oldContainerId
  policy : site.barrier = some (.owned ctx.request.operationId) → ∃ token, site.policy = .valid 0 token

/-- An attempt of the operation: its receipt has the ID of a Box of its configuration. -/
structure AttemptOf (ctx : Context) (site : Site) (attempt : Attempt) : Prop where
  base_le : ctx.base ≤ attempt.attemptId
  issued : attempt.attemptId < site.issued
  rollback : attempt.stage = .rollback →
    attempt.configurationRef = digestOf ctx.platform ctx.request.oldConfiguration
  observed : ∀ id, attempt.observedId = some id → (attempt.attemptId, id) ∈ site.receipts
  configuration : ∀ box, site.box = some box → (attempt.attemptId, box.id) ∈ site.receipts →
    digestOf ctx.platform box.configuration = attempt.configurationRef

/-- What the decision for the gate-off Box says. -/
structure Decided (ctx : Context) (hostRecords : List HostRecord) (site : Site)
    (decided : CommitIntent) : Prop where
  box : site.boxId = some decided.finalContainerId
  barrier : ¬ Foreign ctx.request site
  isRef : isRef decided.configurationRef = true
  readable : Readable ctx.platform site decided.configurationRef
  written : ∀ record ∈ hostRecords, record.written = true → site.records record.name = record.next

/-- A host record as the request has it. -/
def HostRecord.change (record : HostRecord) : RecordChange := ⟨record.name, record.old, record.next⟩

/-- What a journal of the operation says about the host. -/
structure Consistent (ctx : Context) (journal : Journal) (site : Site) : Prop where
  operationId : journal.operationId = ctx.request.operationId
  old : journal.old = ⟨digestOf ctx.platform ctx.request.oldConfiguration, digestOf ctx.platform ctx.request.graphSnapshot,
    ctx.request.oldWasRunning, ctx.request.oldGraphRunning, ctx.request.oldContainerId⟩
  desired : journal.desired = ⟨digestOf ctx.platform ctx.request.desiredConfiguration,
    digestOf ctx.platform ctx.request.graphSnapshot, ctx.request.reapplyConfiguration.map (digestOf ctx.platform)⟩
  hostRecords : journal.hostRecords.map (·.change) = ctx.request.hostRecords
  readable : ∀ ref ∈ [journal.old.configurationRef, journal.old.graphRef,
    journal.desired.configurationRef], Readable ctx.platform site ref
  attempts : ∀ attempt ∈ journal.attempts, AttemptOf ctx site attempt
  prepared : journal.phase = .prepared → site.boxId = some ctx.request.oldContainerId
  undecided : journal.result ≠ some .desiredOff →
    (∀ change ∈ ctx.request.hostRecords, site.records change.name = change.old) ∧
      ∀ record ∈ journal.hostRecords, record.written = false
  desiredOff : ∀ decided, journal.commitIntent = some decided → decided.result = .desiredOff →
    Decided ctx journal.hostRecords site decided
  restoredOld : journal.result = some .restoredOld → Restored ctx.platform ctx.request site
  committed : journal.phase = .committed → journal.result = some .desiredOff ∧ site.barrier = none ∧
    ∀ change ∈ ctx.request.hostRecords, site.records change.name = change.next
  rolledBack : journal.phase = .rolledBack → journal.result ≠ some .desiredOff ∧ site.barrier = none ∧
    Restored ctx.platform ctx.request site

/-- A later journal has the decision of an earlier one. -/
def Agrees (earlier later : Journal) : Prop :=
  earlier.commitIntent ≠ none → later.commitIntent = earlier.commitIntent

/-- The invariant of the host between two processes. -/
structure Sound (ctx : Context) (world : World) : Prop where
  owned : Owned ctx world.site
  durable : ∀ journal, world.journal = some journal →
    Consistent ctx journal world.site ∧ validateJournal ctx.identity journal = .ok ()
  last : world.journals.getLast? = world.journal
  agree : world.journals.Pairwise Agrees

/-- The invariant of a running process. -/
structure Inv (ctx : Context) (s : Running) : Prop where
  sound : Sound ctx s.world
  memory : Consistent ctx s.journal s.world.site
  agree : ∀ earlier ∈ s.world.journals, Agrees earlier s.journal

/-- A point of a program at which the journal object is durable. -/
structure At (ctx : Context) (P : Journal → Site → Prop) (s : Running) : Prop where
  inv : Inv ctx s
  synced : s.world.journal = some s.journal
  holds : P s.journal s.world.site

/-- The program ends as claimed, and keeps the invariant when it throws or dies. -/
def Ends {α : Type} (ctx : Context) (R : α → Running → Prop) : Post Running Failure α :=
  ⟨R, fun _ => Inv ctx, Inv ctx⟩

/-! ## Changes of the host -/

/-- The second host differs from the first one in nothing that a journal speaks of. -/
structure Alike (platform : Platform) (s t : Site) : Prop where
  readable : ∀ ref, Readable platform s ref → Readable platform t ref
  receipts : t.receipts = s.receipts
  barrier : t.barrier = s.barrier
  policy : t.policy = s.policy
  records : t.records = s.records
  box : t.box.map (fun box => (box.id, box.configuration)) =
    s.box.map fun box => (box.id, box.configuration)
  issued : s.issued ≤ t.issued
  created : t.created = s.created

variable {t site s : Site} {changes : Journal → Journal} {P : Journal → Site → Prop} {box : Box}

/-- A Box of the second host is one of the first. -/
theorem Alike.exists_box (h : Alike platform s t) (hbox : t.box = some box) :
    ∃ before, s.box = some before ∧ before.id = box.id ∧ before.configuration = box.configuration := by
  have heq := h.box
  rw [hbox] at heq
  obtain ⟨before, hbefore, hsame⟩ := map_eq_some_iff.mp heq.symm
  exact ⟨before, hbefore, Prod.mk.inj hsame⟩

theorem Alike.boxId (h : Alike platform s t) : t.boxId = s.boxId := by
  have heq := congrArg (Option.map Prod.fst) h.box
  simpa [Site.boxId, Function.comp_def] using heq

theorem Alike.symm_box (h : Alike platform s t) (hbox : s.box = some box) :
    ∃ after, t.box = some after ∧ after.id = box.id ∧ after.configuration = box.configuration := by
  have heq := h.box
  rw [hbox] at heq
  obtain ⟨after, hafter, hsame⟩ := map_eq_some_iff.mp heq
  exact ⟨after, hafter, Prod.mk.inj hsame⟩

theorem Alike.foreign (h : Alike platform s t) (hforeign : Foreign request t) :
    Foreign request s := by
  unfold Foreign at hforeign ⊢
  rwa [h.barrier] at hforeign

theorem Alike.restored (h : Alike platform s t) (hs : Restored platform request s) :
    Restored platform request t := by
  obtain ⟨box, hbox, howner⟩ := hs
  obtain ⟨after, hafter, hid, hconfiguration⟩ := h.symm_box hbox
  refine ⟨after, hafter, ?_⟩
  rw [hid, hconfiguration, h.created]
  exact howner

theorem Owned.alike (hs : Owned ctx s) (h : Alike ctx.platform s t)
    (hremoved : ∀ id ∈ t.removed, id = ctx.request.oldContainerId ∨ id ∈ t.created) : Owned ctx t where
  old := hs.old
  base_le := hs.base_le.trans h.issued
  box := by
    intro box hbox
    obtain ⟨before, hbefore, hid, -⟩ := h.exists_box hbox
    obtain ⟨hlt, howner⟩ := hs.box before hbefore
    rw [h.created, ← hid]
    exact ⟨hlt.trans_le h.issued, howner⟩
  created := by
    intro id hmem
    rw [h.created] at hmem
    obtain ⟨hbase, hlt⟩ := hs.created id hmem
    exact ⟨hbase, hlt.trans_le h.issued⟩
  receipts := by
    intro receipt hmem
    rw [h.receipts] at hmem
    obtain ⟨hattempt, hcontainer, hcreated⟩ := hs.receipts receipt hmem
    rw [h.created]
    exact ⟨hattempt.trans_le h.issued, hcontainer.trans_le h.issued, hcreated⟩
  removed := hremoved
  foreign := by
    intro hforeign
    rw [h.boxId]
    exact hs.foreign (h.foreign hforeign)
  policy := by
    intro hbarrier
    rw [h.barrier] at hbarrier
    rw [h.policy]
    exact hs.policy hbarrier

theorem AttemptOf.alike {attempt : Attempt} (hs : AttemptOf ctx s attempt)
    (h : Alike ctx.platform s t) : AttemptOf ctx t attempt where
  base_le := hs.base_le
  issued := hs.issued.trans_le h.issued
  rollback := hs.rollback
  observed := by
    rw [h.receipts]
    exact hs.observed
  configuration := by
    intro box hbox hreceipt
    obtain ⟨before, hbefore, hid, hconfiguration⟩ := h.exists_box hbox
    rw [h.receipts, ← hid] at hreceipt
    rw [← hconfiguration]
    exact hs.configuration before hbefore hreceipt

theorem Consistent.alike {journal : Journal} (hs : Consistent ctx journal s)
    (h : Alike ctx.platform s t) : Consistent ctx journal t :=
  { hs with
    readable := fun ref hmem => h.readable ref (hs.readable ref hmem)
    attempts := fun attempt hmem => (hs.attempts attempt hmem).alike h
    prepared := by
      rw [h.boxId]
      exact hs.prepared
    undecided := by
      rw [h.records]
      exact hs.undecided
    desiredOff := by
      intro decided hdecided hresult
      obtain ⟨hbox, hbarrier, hisRef, hreadable, hwritten⟩ := hs.desiredOff decided hdecided hresult
      refine ⟨?_, fun hforeign => hbarrier (h.foreign hforeign), hisRef, h.readable _ hreadable, ?_⟩
      · rw [h.boxId]
        exact hbox
      · rw [h.records]
        exact hwritten
    restoredOld := fun hresult => h.restored (hs.restoredOld hresult)
    committed := by
      rw [h.records, h.barrier]
      exact hs.committed
    rolledBack := by
      intro hphase
      obtain ⟨hresult, hbarrier, hrestored⟩ := hs.rolledBack hphase
      rw [h.barrier]
      exact ⟨hresult, hbarrier, h.restored hrestored⟩ }

/-! ## Changes of the journal -/

/-- The second journal differs from the first one only in its announcements. -/
structure Amends (before after : Journal) : Prop where
  same : after = { before with
    phase := after.phase, nextAction := after.nextAction, lastProblem := after.lastProblem,
    policyToken := after.policyToken }
  phase : after.phase = before.phase ∨
    after.phase ≠ .prepared ∧ after.phase ≠ .committed ∧ after.phase ≠ .rolledBack

/-- An announced action. -/
theorem Amends.action {before after : Journal} (h : after = { before with
    nextAction := after.nextAction, lastProblem := after.lastProblem }) : Amends before after := by
  rw [h]
  exact ⟨rfl, .inl rfl⟩

theorem Amends.commitIntent {before after : Journal} (h : Amends before after) :
    after.commitIntent = before.commitIntent := by
  rw [h.same]

theorem Consistent.amends {before after : Journal} (hs : Consistent ctx before site)
    (h : Amends before after) : Consistent ctx after site := by
  have hphase : ∀ phase ∈ [Phase.prepared, .committed, .rolledBack], after.phase = phase →
      before.phase = phase := by
    rintro phase hmem rfl
    rcases h.phase with heq | hne
    · exact heq.symm
    · simp_all
  rw [h.same]
  exact { hs with
    prepared := fun heq => hs.prepared (hphase _ (by simp) heq)
    committed := fun heq => hs.committed (hphase _ (by simp) heq)
    rolledBack := fun heq => hs.rolledBack (hphase _ (by simp) heq) }

/-! ## The rules -/

section Rules

variable {admits : Fault Failure → Prop} {α β : Type} {s : Running} {Q : Journal → Site → Prop}
  {R : β → Running → Prop} {next : α → Step β}

/-- The host of a running process after an effect. -/
def Running.onto (s : Running) (site : Site) : Running := { s with world.site := site }

/-- The running process after a change of its journal object. -/
def Running.amended (s : Running) (changes : Journal → Journal) : Running :=
  { s with journal := changes s.journal }

theorem wp_amend {q : Post Running Failure Unit} (h : q.returns () (s.amended changes)) :
    wp admits (amend changes) q s := wp_alter h

/-- A change of the journal object keeps the invariant when the changed journal is consistent. -/
theorem Inv.amended (h : Inv ctx s) (hconsistent : Consistent ctx (changes s.journal) s.world.site)
    (hagree : Agrees s.journal (changes s.journal)) : Inv ctx (s.amended changes) where
  sound := h.sound
  memory := hconsistent
  agree := by
    intro earlier hmem hdecided
    have hmemory := h.agree earlier hmem hdecided
    show (changes s.journal).commitIntent = earlier.commitIntent
    rw [hagree (hmemory ▸ hdecided), hmemory]

/-- The write of the journal object. -/
theorem ends_writeJournal (h : Inv ctx s) (hP : P s.journal s.world.site) :
    wp admits (writeJournal ctx.identity) (Ends ctx fun _ => At ctx P) s := by
  refine wp_call (.of_ok ?_ h fun _ t ht => ht.inv)
  intro value t ht
  cases hvalid : validateJournal ctx.identity s.journal with
  | error error =>
    rw [hvalid] at ht
    cases ht
  | ok checked =>
    rw [hvalid] at ht
    cases ht
    refine ⟨⟨⟨h.sound.owned, ?_, ?_, ?_⟩, h.memory, ?_⟩, rfl, hP⟩
    · intro journal hjournal
      cases hjournal
      exact ⟨h.memory, hvalid⟩
    · exact getLast?_concat
    · refine pairwise_append.mpr ⟨h.sound.agree, pairwise_singleton _ _, ?_⟩
      intro earlier hmem later hlater
      rw [mem_singleton.mp hlater]
      exact h.agree earlier hmem
    · intro earlier hmem
      rcases mem_append.mp hmem with hold | hnew
      · exact h.agree earlier hold
      · rw [mem_singleton.mp hnew]
        exact fun _ => rfl

/-- A persisted change. -/
theorem ends_persist (h : Inv ctx s) (hconsistent : Consistent ctx (changes s.journal) s.world.site)
    (hagree : Agrees s.journal (changes s.journal)) (hP : P (changes s.journal) s.world.site) :
    wp admits (persist ctx.identity changes) (Ends ctx fun _ => At ctx P) s :=
  wp_bind (wp_amend (ends_writeJournal (h.amended hconsistent hagree) hP))

/-- A persisted announcement. -/
theorem ends_announce (h : Inv ctx s)
    (hamends : Amends s.journal (changes s.journal)) (hP : P (changes s.journal) s.world.site) :
    wp admits (persist ctx.identity changes) (Ends ctx fun _ => At ctx P) s :=
  ends_persist h (h.memory.amends hamends) (fun _ => hamends.commitIntent) hP

/-- The sequence of programs that keep the invariant. -/
theorem ends_bind {p : Step α} {M : α → Running → Prop}
    (hp : wp admits p (Ends ctx M) s)
    (hnext : ∀ value t, M value t → wp admits (next value) (Ends ctx R) t) :
    wp admits (p >>= next) (Ends ctx R) s :=
  wp_bind (wp_imp hp hnext)

/-- An announced action. -/
theorem ends_intent {action : Action} {act : Step α} {R : α → Running → Prop} (h : Inv ctx s)
    (hP : P { s.journal with nextAction := some action } s.world.site)
    (hact : ∀ t, At ctx P t → wp admits act (Ends ctx R) t) :
    wp admits (intent ctx.identity action act) (Ends ctx R) s :=
  ends_bind (ends_announce h (.action rfl) hP) fun _ => hact

/-- An effect on the host, where the journal object is durable. -/
theorem At.onto (h : At ctx P s)
    (howned : Owned ctx site) (hconsistent : Consistent ctx s.journal site) (hQ : Q s.journal site) :
    At ctx Q (s.onto site) where
  inv := {
    sound := {
      owned := howned
      durable := by
        intro journal hjournal
        have heq : s.journal = journal := some.inj (h.synced.symm.trans hjournal)
        subst heq
        exact ⟨hconsistent, (h.inv.sound.durable _ h.synced).2⟩
      last := h.inv.sound.last
      agree := h.inv.sound.agree }
    memory := hconsistent
    agree := h.inv.agree }
  synced := h.synced
  holds := hQ

theorem ends_onSite {f : Site → Except Failure (α × Site)} {Q : α → Journal → Site → Prop} (h : At ctx P s)
    (hok : ∀ value site, f s.world.site = .ok (value, site) → Owned ctx site ∧ Consistent ctx s.journal site ∧ Q value s.journal site) :
    wp admits (onSite f) (Ends ctx fun value => At ctx (Q value)) s := by
  refine wp_call (.of_ok ?_ h.inv fun _ t ht => ht.inv)
  intro value t ht
  cases hf : f s.world.site with
  | error error =>
    rw [hf] at ht
    cases ht
  | ok result =>
    rw [hf] at ht
    cases ht
    obtain ⟨howned, hconsistent, hQ⟩ := hok _ _ hf
    exact h.onto howned hconsistent hQ

/-- A query of the host, and what is done with its answer. -/
theorem ends_askSite {f : Site → Except Failure α}
    (h : Inv ctx s) (hnext : ∀ value, f s.world.site = .ok value → wp admits (next value) (Ends ctx R) s) :
    wp admits (askSite f >>= next) (Ends ctx R) s :=
  wp_bind (wp_ask hnext (fun _ => h) h)

/-- The host may change where no journal speaks of it, whatever the journal object is. -/
theorem Inv.alike (h : Inv ctx s) (halike : Alike ctx.platform s.world.site site)
    (hremoved : ∀ id ∈ site.removed, id = ctx.request.oldContainerId ∨ id ∈ site.created) :
    Inv ctx (s.onto site) where
  sound := {
    owned := h.sound.owned.alike halike hremoved
    durable := by
      intro journal hjournal
      obtain ⟨hconsistent, hvalid⟩ := h.sound.durable journal hjournal
      exact ⟨hconsistent.alike halike, hvalid⟩
    last := h.sound.last
    agree := h.sound.agree }
  memory := h.memory.alike halike
  agree := h.agree

theorem At.alike (h : At ctx P s) (halike : Alike ctx.platform s.world.site site)
    (hremoved : ∀ id ∈ site.removed, id = ctx.request.oldContainerId ∨ id ∈ site.created)
    (hQ : Q s.journal site) : At ctx Q (s.onto site) :=
  ⟨h.inv.alike halike hremoved, h.synced, hQ⟩

end Rules

end Ploinky.Downgrade
