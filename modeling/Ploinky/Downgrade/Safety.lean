import Ploinky.Downgrade.Invariant

/-!
# The downgrade keeps its invariant

One lemma for each program of the protocol, from the effects up to the two entry points: it ends as
stated, and keeps the invariant wherever it throws or dies.
-/

namespace Ploinky.Downgrade

open Ploinky Js Durable Durable.Prog List Option

variable {platform : Platform} {effects : Effects} {request : Request} {ctx : Context}
  {admits : Fault Failure → Prop} {s : Running}

/-- Nothing is decided and the Box may be replaced. -/
def Open (journal : Journal) : Prop :=
  journal.commitIntent = none ∧ journal.phase ≠ .prepared ∧ journal.phase ≠ .rolledBack

/-- The journal is open and the barrier is not that of another operation. -/
def Forward (request : Request) (journal : Journal) (site : Site) : Prop :=
  Open journal ∧ ¬ Foreign request site

variable {journal : Journal} {id attemptId candidateId operationId : Id} {P : Journal → Site → Prop}
  {configuration : Json} {ref : Str} {site : Site} {index : Nat} {change : RecordChange}
  {t after : Site} {α : Type} {value : Json} {stage : Stage} {phase : Phase}
  {nextAction : Option Action} {requireEmpty : Bool} {record : HostRecord} {R : α → Running → Prop}

/-- Of a journal without a decision, only the host records and the attempts speak of the host. -/
theorem Consistent.of_undecided {s : Site} (hs : Consistent ctx journal s)
    (hnone : journal.commitIntent = none) (hrolledBack : journal.phase ≠ .rolledBack)
    (hprepared : journal.phase = .prepared → t.boxId = some ctx.request.oldContainerId)
    (hsnapshots : t.snapshots = s.snapshots) (hrecords : t.records = s.records)
    (hattempts : ∀ attempt ∈ journal.attempts, AttemptOf ctx t attempt) : Consistent ctx journal t :=
  { hs with
    readable := by
      unfold Readable
      rw [hsnapshots]
      exact hs.readable
    attempts := hattempts
    prepared := hprepared
    undecided := by
      rw [hrecords]
      exact hs.undecided
    desiredOff := by
      intro decided hdecided
      rw [hnone] at hdecided
      cases hdecided
    restoredOld := by
      intro hresult
      rw [Journal.result, hnone] at hresult
      cases hresult
    committed := by
      intro hphase
      have hresult := (hs.committed hphase).1
      rw [Journal.result, hnone] at hresult
      cases hresult
    rolledBack := fun hphase => absurd hphase hrolledBack }

/-- An open journal says nothing of the Box that is present. -/
theorem Consistent.of_open {s : Site} (hs : Consistent ctx journal s) (hopen : Open journal)
    (hsnapshots : t.snapshots = s.snapshots) (hrecords : t.records = s.records)
    (hattempts : ∀ attempt ∈ journal.attempts, AttemptOf ctx t attempt) : Consistent ctx journal t :=
  hs.of_undecided hopen.1 hopen.2.2 (fun hphase => absurd hphase hopen.2.1) hsnapshots hrecords hattempts

/-! ## The effects -/

/-- A claim that only depends on what a journal speaks of. -/
def Stable (platform : Platform) (P : Journal → Site → Prop) : Prop :=
  ∀ journal s t, Alike platform s t → P journal s → P journal t

theorem stable_forward : Stable platform (Forward request) :=
  fun _ _ _ halike h => ⟨h.1, fun hforeign => h.2 (halike.foreign hforeign)⟩

/-- The journal is open, and the Box is one that the operation created. -/
def Candidate (request : Request) (id : Id) (journal : Journal) (site : Site) : Prop :=
  Forward request journal site ∧ id ∈ site.created

theorem stable_candidate : Stable platform (Candidate request id) :=
  fun _ _ _ halike h => ⟨stable_forward _ _ _ halike h.1, halike.created ▸ h.2⟩

/-- An effect on the Box that leaves its ctx.identity. -/
theorem ends_onBox {f : Box → α × Option Box} (hP : Stable ctx.platform P) (h : At ctx P s)
    (hf : ∀ box, ∃ after, (f box).2 = some after ∧ after.id = box.id ∧ after.configuration = box.configuration) :
    wp admits (onBox id f) (Ends ctx fun _ => At ctx P) s := by
  refine ends_onSite h ?_
  intro value site hok
  cases hbox : s.world.site.box with
  | none =>
    simp only [hbox] at hok
    cases hok
  | some box =>
    simp only [hbox] at hok
    split_ifs at hok with hid
    cases hok
    obtain ⟨after, hafter, hsame, hconfiguration⟩ := hf box
    have halike : Alike ctx.platform s.world.site { s.world.site with box := (f box).2 } := by
      refine ⟨fun _ hreadable => hreadable, rfl, rfl, rfl, rfl, ?_, le_refl _, rfl⟩
      simp [hafter, hbox, hsame, hconfiguration]
    exact ⟨h.inv.sound.owned.alike halike h.inv.sound.owned.removed, h.inv.memory.alike halike,
      hP _ _ _ halike h.holds⟩

/-- The removal of a Box of the operation. -/
theorem ends_removeBox (h : At ctx (Forward ctx.request) s)
    (hid : id = ctx.request.oldContainerId ∨ id ∈ s.world.site.created) :
    wp admits (removeBox id) (Ends ctx fun _ => At ctx fun journal site => Forward ctx.request journal site ∧
        site.box = none) s := by
  have hlogged : At ctx (Forward ctx.request)
      (s.onto { s.world.site with removed := s.world.site.removed ++ [id] }) := by
    refine h.alike ⟨fun _ hreadable => hreadable, rfl, rfl, rfl, rfl, rfl, le_refl _, rfl⟩ ?_ h.holds
    intro other hmem
    rcases mem_append.mp hmem with hold | hnew
    · exact h.inv.sound.owned.removed other hold
    · rw [mem_singleton.mp hnew]
      exact hid
  refine wp_bind (wp_alter (ends_onSite hlogged ?_))
  intro value site hok
  cases hbox : s.world.site.box with
  | none =>
    simp only [hbox] at hok
    cases hok
  | some box =>
    simp only [hbox] at hok
    split_ifs at hok
    cases hok
    obtain ⟨hopen, hforeign⟩ := h.holds
    have howned := hlogged.inv.sound.owned
    refine ⟨{ howned with box := nofun, foreign := fun hf => absurd hf hforeign }, ?_,
      ⟨hopen, hforeign⟩, rfl⟩
    refine hlogged.inv.memory.of_open hopen rfl rfl fun attempt hmem => ?_
    have hattempt := hlogged.inv.memory.attempts attempt hmem
    exact { hattempt with configuration := nofun }

/-- The last attempt of the journal creates a Box of the configuration with the reference. -/
def Attempting (attemptId : Id) (ref : Str) (journal : Journal) (site : Site) : Prop :=
  attemptId < site.issued ∧
    (∃ earlier last, journal.attempts = earlier ++ [last] ∧ last.attemptId = attemptId) ∧
    ∀ attempt ∈ journal.attempts, attempt.attemptId = attemptId → attempt.configurationRef = ref

/-- The Box of the attempt is there, with its receipt. -/
def Created (platform : Platform) (attemptId : Id) (ref : Str) (id : Id) (site : Site) : Prop :=
  site.receipts.lookup attemptId = some id ∧
    ∃ box, site.box = some box ∧ box.id = id ∧ id ∈ site.created ∧
      digestOf platform box.configuration = ref

theorem ends_createContainer (href : digestOf ctx.platform configuration = ref)
    (h : At ctx (fun journal site => Forward ctx.request journal site ∧ Attempting attemptId ref journal site) s) :
    wp admits (createContainer configuration) (Ends ctx fun id =>
      At ctx fun journal site => (Forward ctx.request journal site ∧
        Attempting attemptId ref journal site) ∧ ∃ box, site.box = some box ∧ box.id = id ∧
          id ∈ site.created ∧ id < site.issued ∧ digestOf ctx.platform box.configuration = ref) s := by
  refine ends_onSite h ?_
  intro id site hok
  cases hbox : s.world.site.box with
  | some box =>
    simp only [hbox] at hok
    cases hok
  | none =>
    simp only [hbox] at hok
    cases hok
    obtain ⟨⟨hopen, hforeign⟩, hissued, hlast, hrefs⟩ := h.holds
    have howned := h.inv.sound.owned
    refine ⟨⟨howned.old, howned.base_le.trans (Nat.le_succ _), ?_, ?_, ?_, ?_,
      fun hf => absurd hf hforeign, howned.policy⟩, ?_, ⟨⟨hopen, hforeign⟩, hissued.trans
      (Nat.lt_succ_self _), hlast, hrefs⟩, _, rfl, rfl, ?_, Nat.lt_succ_self _, href⟩
    · intro box hnew
      cases hnew
      exact ⟨Nat.lt_succ_self _, .inr (mem_append_right _ (.head _))⟩
    · intro other hmem
      rcases mem_append.mp hmem with hold | hnew
      · obtain ⟨hlow, hlt⟩ := howned.created other hold
        exact ⟨hlow, hlt.trans (Nat.lt_succ_self _)⟩
      · rw [mem_singleton.mp hnew]
        exact ⟨howned.base_le, Nat.lt_succ_self _⟩
    · intro receipt hmem
      obtain ⟨hattempt, hcontainer, hcreated⟩ := howned.receipts receipt hmem
      exact ⟨hattempt.trans (Nat.lt_succ_self _), hcontainer.trans (Nat.lt_succ_self _),
        fun hlow => mem_append_left _ (hcreated hlow)⟩
    · intro other hmem
      exact (howned.removed other hmem).imp_right (mem_append_left _)
    · refine h.inv.memory.of_open hopen rfl rfl fun attempt hmem => ?_
      have hattempt := h.inv.memory.attempts attempt hmem
      refine { hattempt with
        issued := hattempt.issued.trans (Nat.lt_succ_self _)
        configuration := ?_ }
      -- the ID of the new Box is in no receipt yet
      intro box hnew hreceipt
      cases hnew
      exact absurd (howned.receipts _ hreceipt).2.1 (Nat.lt_irrefl _)
    · exact mem_append_right _ (.head _)

theorem ends_createBox (href : digestOf ctx.platform configuration = ref)
    (h : At ctx (fun journal site => Forward ctx.request journal site ∧ Attempting attemptId ref journal site) s) :
    wp admits (createBox configuration attemptId) (Ends ctx fun _ =>
      At ctx fun journal site => (Forward ctx.request journal site ∧
        Attempting attemptId ref journal site) ∧ ∃ id, Created ctx.platform attemptId ref id site) s := by
  refine ends_bind (ends_createContainer href h) ?_
  intro id t ht
  refine ends_onSite ht ?_
  intro value site hok
  cases hok
  obtain ⟨⟨⟨hopen, hforeign⟩, hissued, hlast, hrefs⟩, box, hbox, hid, hcreated, hlt, hdigest⟩ := ht.holds
  have howned := ht.inv.sound.owned
  refine ⟨{ howned with receipts := ?_ }, ?_, ⟨⟨hopen, hforeign⟩, hissued, hlast, hrefs⟩, id, ?_, box, hbox,
    hid, hcreated, hdigest⟩
  · intro receipt hmem
    rcases mem_cons.mp hmem with hnew | hold
    · rw [hnew]
      exact ⟨hissued, hlt, fun _ => hcreated⟩
    · exact howned.receipts receipt hold
  · refine ht.inv.memory.of_open hopen rfl rfl fun attempt hmem => ?_
    have hattempt := ht.inv.memory.attempts attempt hmem
    refine { hattempt with
      observed := fun other hother => .tail _ (hattempt.observed other hother)
      configuration := ?_ }
    intro present hpresent hreceipt
    rcases mem_cons.mp hreceipt with hnew | hold
    · obtain rfl : present = box := some.inj (hpresent.symm.trans hbox)
      rw [hrefs attempt hmem (congrArg Prod.fst hnew)]
      exact hdigest
    · exact hattempt.configuration present hpresent hold
  · simp

/-- The snapshot that is read is the one of the reference. -/
theorem snapshotAt_eq_ok (h : snapshotAt platform ref site = .ok value) :
    isRef ref = true ∧ site.snapshots.lookup ref = some value ∧ digestOf platform value = ref := by
  unfold snapshotAt at h
  split_ifs at h with hisRef
  split at h
  next => cases h
  next found hlookup =>
    split_ifs at h with hdigest
    cases h
    exact ⟨by simpa using hisRef, hlookup, hdigest⟩

theorem ends_readSnapshot {next : Json → Step α} (h : Inv ctx s)
    (hnext : ∀ value, isRef ref = true ∧ s.world.site.snapshots.lookup ref = some value ∧ digestOf ctx.platform value = ref → wp admits (next value) (Ends ctx R) s) :
    wp admits (readSnapshot ctx.platform ref >>= next) (Ends ctx R) s :=
  ends_askSite h fun value hok => hnext value (snapshotAt_eq_ok hok)

/-- A snapshot that is written leaves the others readable. -/
theorem alike_writeSnapshot (site : Site) (value : Json) : Alike platform site
      { site with snapshots := (digestOf platform value, value) :: site.snapshots } := by
  refine ⟨?_, rfl, rfl, rfl, rfl, rfl, le_refl _, rfl⟩
  intro ref hreadable
  by_cases hsame : ref = digestOf platform value
  · exact ⟨value, by simp [hsame], hsame.symm⟩
  · obtain ⟨found, hlookup, hdigest⟩ := hreadable
    have hne : (ref == digestOf platform value) = false := by simpa using hsame
    exact ⟨found, by simpa [lookup, hne] using hlookup, hdigest⟩

theorem ends_writeSnapshot (hP : Stable ctx.platform P) (h : At ctx P s) :
    wp admits (writeSnapshot ctx.platform value) (Ends ctx fun _ => At ctx P) s := by
  refine ends_onSite h ?_
  intro ref site hok
  cases hok
  have halike : Alike ctx.platform s.world.site _ := alike_writeSnapshot s.world.site value
  exact ⟨h.inv.sound.owned.alike halike h.inv.sound.owned.removed, h.inv.memory.alike halike,
    hP _ _ _ halike h.holds⟩

/-! ## The way forward -/

/-- A new attempt of the journal object. -/
theorem ends_pushAttempt (hP : Stable ctx.platform P)
    (hamend : ∀ attempts, P s.journal s.world.site → P { s.journal with attempts } s.world.site)
    (h : At ctx P s)
    (hrollback : stage = .rollback → ref = digestOf ctx.platform ctx.request.oldConfiguration) :
    wp admits (pushAttempt ctx.platform stage ref configuration) (Ends ctx fun attemptId t => Inv ctx t ∧
        P t.journal t.world.site ∧ Attempting attemptId ref t.journal t.world.site) s := by
  have halike : Alike ctx.platform s.world.site { s.world.site with issued := s.world.site.issued + 1 } :=
    ⟨fun _ hreadable => hreadable, rfl, rfl, rfl, rfl, rfl, Nat.le_succ _, rfl⟩
  have hissued := h.inv.alike halike h.inv.sound.owned.removed
  refine wp_bind (wp_bind (wp_look (wp_bind (wp_alter (wp_pure ?_)))))
  refine wp_bind (wp_amend (wp_pure ?_))
  have howned := h.inv.sound.owned
  have hattempts := h.inv.memory.attempts
  refine ⟨hissued.amended ?_ fun _ => rfl, hP _ _ _ halike (hamend _ h.holds), Nat.lt_succ_self _,
    ⟨_, _, rfl, rfl⟩, ?_⟩
  · have hconsistent := hissued.memory
    refine { hconsistent with attempts := ?_ }
    intro attempt hmem
    rcases mem_append.mp hmem with hold | hnew
    · exact hconsistent.attempts attempt hold
    · rw [mem_singleton.mp hnew]
      refine ⟨howned.base_le, Nat.lt_succ_self _, hrollback, nofun, ?_⟩
      intro box _ hreceipt
      exact absurd (howned.receipts _ hreceipt).1 (Nat.lt_irrefl _)
  · intro attempt hmem hid
    rcases mem_append.mp hmem with hold | hnew
    · exact absurd hid (hattempts attempt hold).issued.ne
    · rw [mem_singleton.mp hnew]

/-- A change of the last attempt. -/
theorem Inv.amendLast {change : Attempt → Attempt} (h : Inv ctx s)
    (hchange : ∀ last, s.journal.lastAttempt = some last → AttemptOf ctx s.world.site last →
      AttemptOf ctx s.world.site (change last)) : Inv ctx (s.amended (·.amendLast change)) := by
  refine h.amended { h.memory with attempts := ?_ } fun _ => rfl
  have hattempts := h.memory.attempts
  intro attempt hmem
  unfold Journal.amendLast at hmem
  unfold Journal.lastAttempt at hchange
  rcases eq_nil_or_concat' s.journal.attempts with hnil | ⟨earlier, last, hconcat⟩
  · rw [hnil] at hmem
    cases hmem
  · rw [hconcat] at hattempts hmem hchange
    rw [modifyLast_concat] at hmem
    rcases mem_append.mp hmem with hold | hnew
    · exact hattempts attempt (mem_append_left _ hold)
    · rw [mem_singleton.mp hnew]
      exact hchange last getLast?_concat (hattempts last (mem_append_right _ (.head _)))

/-- The ID of the Box is recorded in its attempt. -/
theorem Inv.observed (h : Inv ctx s) (hattempting : Attempting attemptId ref s.journal s.world.site)
    (hreceipt : s.world.site.receipts.lookup attemptId = some id) : Inv ctx
      (s.amended (·.amendLast fun attempt => { attempt with observedId := some id })) := by
  obtain ⟨-, ⟨earlier, found, hattempts, hfound⟩, -⟩ := hattempting
  refine h.amendLast fun last hlast hattempt => { hattempt with observed := ?_ }
  intro other hother
  cases hother
  rw [Journal.lastAttempt, hattempts, getLast?_concat] at hlast
  cases hlast
  show (found.attemptId, id) ∈ s.world.site.receipts
  rw [hfound]
  obtain ⟨l, r, hreceipts, -⟩ := lookup_eq_some_iff.mp hreceipt
  rw [hreceipts]
  simp

theorem ends_receiptOf (h : Inv ctx s) : wp admits (receiptOf attemptId) (Ends ctx fun id t =>
      t = s ∧ s.world.site.receipts.lookup attemptId = some id) s := by
  refine ends_askSite h fun value hok => ?_
  cases value with
  | none => exact wp_raise h
  | some id => exact wp_pure ⟨rfl, Except.ok.inj hok⟩

/-- A journal that is blocked. -/
theorem ends_block {problem : Option Problem} {message : Str} (h : Inv ctx s) :
    wp admits (block ctx.identity problem message) (Ends ctx R) s := by
  refine ends_bind (ends_announce (P := fun _ _ => True) h ⟨rfl, .inr ?_⟩ trivial)
    fun _ t ht => wp_raise ht.inv
  exact ⟨by simp, by simp, by simp⟩

/-- The phases in which a journal without a decision is open. -/
def Phase.isOpen : Phase → Bool
  | .prepared | .committed | .rolledBack => false
  | _ => true

theorem Phase.of_isOpen (h : phase.isOpen = true) :
    phase ≠ .prepared ∧ phase ≠ .committed ∧ phase ≠ .rolledBack := by
  cases phase <;> simp_all [Phase.isOpen]

/-- The phases on the way forward. -/
theorem ends_phase (Q : Site → Prop) (hphase : phase.isOpen = true) (h : Inv ctx s)
    (hforward : Forward ctx.request s.journal s.world.site) (hQ : Q s.world.site) :
    wp admits (persist ctx.identity fun journal => { journal with phase, nextAction := none })
      (Ends ctx fun _ => At ctx
        fun journal site => Forward ctx.request journal site ∧ Q site) s := by
  have hamends : Amends s.journal { s.journal with phase, nextAction := none } :=
    ⟨rfl, .inr (Phase.of_isOpen hphase)⟩
  exact ends_announce h hamends ⟨⟨⟨hamends.commitIntent.trans hforward.1.1, (Phase.of_isOpen hphase).1,
    (Phase.of_isOpen hphase).2.2⟩, hforward.2⟩, hQ⟩

theorem ends_startCandidateGraph (h : At ctx (Candidate ctx.request id) s) :
    wp admits (startCandidateGraph ctx.platform ctx.identity effects attemptId id)
      (Ends ctx fun _ t => Inv ctx t ∧ Candidate ctx.request id t.journal t.world.site) s := by
  refine wp_bind (wp_look (ends_readSnapshot h.inv fun graph _ => ?_))
  refine ends_bind (ends_intent h.inv h.holds fun t ht => ends_onBox stable_candidate ht fun box =>
    ⟨_, rfl, rfl, rfl⟩) ?_
  intro outcome t ht
  refine wp_ite (fun _ => wp_raise ht.inv) fun _ => ends_bind (ends_writeSnapshot stable_candidate ht) ?_
  intro ref u hu
  -- the reference of the result is no part of what an attempt says about the host
  exact wp_amend ⟨hu.inv.amendLast fun last _ hlast => { hlast with }, hu.holds⟩

theorem ends_createVerifiedCandidate (hstage : stage ≠ .rollback) (h : At ctx (Forward ctx.request) s) :
    wp admits (createVerifiedCandidate ctx.platform ctx.identity effects ref stage) (Ends ctx fun id =>
        At ctx (Candidate ctx.request id)) s := by
  refine wp_bind (wp_look (wp_ite (fun _ => ends_block h.inv) fun _ => ?_))
  refine ends_readSnapshot h.inv fun configuration ⟨_, _, hdigest⟩ => ?_
  refine ends_bind (ends_pushAttempt stable_forward (fun _ hP => hP) h fun hrollback =>
    absurd hrollback hstage) ?_
  rintro attemptId t ⟨ht, hforward, hattempting⟩
  refine ends_bind (ends_intent (P := fun journal site => Forward ctx.request journal site ∧
    Attempting attemptId ref journal site) ht ⟨hforward, hattempting⟩ fun _ => ends_createBox hdigest) ?_
  intro _ t ht
  refine ends_bind (ends_receiptOf ht.inv) ?_
  rintro id u ⟨rfl, hreceipt⟩
  obtain ⟨⟨hforward, hattempting⟩, created, hfound, box, -, -, hcreated, -⟩ := ht.holds
  obtain rfl : created = id := some.inj (hfound.symm.trans hreceipt)
  have hobserved := ht.inv.observed hattempting hreceipt
  refine wp_bind (wp_amend (ends_bind (ends_phase (created ∈ ·.created) rfl hobserved hforward
    hcreated) ?_))
  intro _ t ht
  refine ends_bind (ends_intent ht.inv ht.holds fun _ ht => ends_onBox stable_candidate ht fun box =>
    ⟨_, rfl, rfl, rfl⟩) ?_
  intro _ t ht
  refine ends_bind (ends_phase (created ∈ ·.created) rfl ht.inv ht.holds.1 ht.holds.2) ?_
  intro _ t ht
  refine ends_bind (wp_whenDo (fun _ => ends_startCandidateGraph ht) fun _ => ⟨ht.inv, ht.holds⟩) ?_
  rintro _ t ⟨ht, hcandidate⟩
  refine ends_bind (ends_phase (created ∈ ·.created) rfl ht hcandidate.1 hcandidate.2) ?_
  intro _ t ht
  exact wp_pure ht

theorem ends_stopOld (h : At ctx (Forward ctx.request) s) :
    wp admits (stopOld ctx.identity) (Ends ctx fun _ => At ctx (Forward ctx.request)) s := by
  refine wp_bind (wp_look (wp_whenDo (fun _ => ?_) fun _ => h))
  refine ends_bind (M := fun _ => At ctx (Forward ctx.request)) ?_ ?_
  · refine wp_whenDo (fun _ => ?_) fun _ => h
    exact ends_intent h.inv h.holds fun _ ht => ends_onBox stable_forward ht fun box => ⟨_, rfl, rfl, rfl⟩
  · intro _ t ht
    exact ends_intent ht.inv ht.holds fun _ hu => ends_onBox stable_forward hu fun box =>
      ⟨_, rfl, rfl, rfl⟩

/-- The Box of a verified candidate is the one with its ID. -/
theorem box_of_verified {f : Box → Bool} (h : (site.box.any fun box => box.id == id && f box) = true) :
    site.boxId = some id := by
  cases hbox : site.box with
  | none =>
    rw [hbox] at h
    cases h
  | some box =>
    rw [hbox, any_some, Bool.and_eq_true, beq_iff_eq] at h
    rw [Site.boxId, hbox, map_some, h.1]

theorem ends_reapply (h : At ctx (Candidate ctx.request candidateId) s) :
    wp admits (reapply ctx.platform ctx.identity effects candidateId) (Ends ctx
      fun _ => At ctx (Forward ctx.request)) s := by
  refine wp_bind (wp_look ?_)
  cases hreapply : s.journal.desired.reapplyConfigurationRef with
  | none =>
    simp only [hreapply]
    exact wp_pure ⟨h.inv, h.synced, h.holds.1⟩
  | some ref =>
    simp only [hreapply]
    refine ends_bind (ends_intent h.inv h.holds fun _ ht => ends_onBox stable_candidate ht fun box =>
      ⟨_, rfl, rfl, rfl⟩) ?_
    intro _ t ht
    refine ends_bind (ends_intent (P := Candidate ctx.request candidateId) ht.inv ht.holds fun u hu =>
      ends_removeBox ⟨hu.inv, hu.synced, hu.holds.1⟩ (.inr hu.holds.2)) ?_
    intro _ t ht
    refine wp_imp (ends_createVerifiedCandidate (by simp) ⟨ht.inv, ht.synced, ht.holds.1⟩) ?_
    exact fun _ u hu => ⟨hu.inv, hu.synced, hu.holds.1⟩

/-- A decision for the gate-off Box that is present. -/
theorem Consistent.decide_desired {graphResultRef : Option Str} (hs : Consistent ctx journal site)
    (hopen : Open journal) (hbox : site.boxId = some candidateId) (hforeign : ¬ Foreign ctx.request site)
    (hisRef : isRef ref = true) (hreadable : Readable ctx.platform site ref) :
    Consistent ctx { Journal.decide ctx.platform journal .desiredOff candidateId ref
      graphResultRef (·.next) with phase := .commitDecided, nextAction } site :=
  { hs with
    prepared := nofun
    undecided := fun hresult => absurd rfl hresult
    desiredOff := by
      intro decided hdecided _
      cases hdecided
      refine ⟨hbox, hforeign, hisRef, hreadable, ?_⟩
      have hundecided : journal.result ≠ some .desiredOff := by
        rw [Journal.result, hopen.1]
        simp
      intro record hmem hwritten
      rw [(hs.undecided hundecided).2 record hmem] at hwritten
      cases hwritten
    restoredOld := nofun
    committed := nofun
    rolledBack := nofun }

theorem ends_decideDesired (h : At ctx (Forward ctx.request) s) :
    wp admits (decideDesired ctx.platform ctx.identity effects candidateId) (Ends ctx
      fun _ => At ctx fun journal _ => journal.result = some .desiredOff) s := by
  refine wp_bind (wp_look (ends_readSnapshot h.inv fun configuration ⟨hisRef, hlookup, hdigest⟩ => ?_))
  refine ends_askSite h.inv fun verified hverified => wp_ite (fun _ => wp_raise h.inv) fun hpassed => ?_
  refine ends_askSite h.inv fun barrier _ => wp_ite (fun _ => wp_raise h.inv) fun _ => ?_
  have hbox : s.world.site.boxId = some candidateId :=
    box_of_verified ((Except.ok.inj hverified).trans (by simpa using hpassed))
  obtain ⟨hopen, hforeign⟩ := h.holds
  refine ends_persist h.inv (h.inv.memory.decide_desired hopen hbox hforeign hisRef
    ⟨configuration, hlookup, hdigest⟩) ?_ rfl
  intro hdecided
  exact absurd hopen.1 hdecided

/-- What `beginDowngradeBarrier` does when it succeeds. -/
theorem installed_eq_ok {token : Json} (h : installed operationId site = .ok (token, after)) :
    site.policy = .valid 0 token ∧ after = { site with barrier := some (.owned operationId) } := by
  unfold installed at h
  split at h
  next => cases h
  next found hfound =>
    rw [guardProp_eq_ok] at h
    cases h.2
    unfold emptyPolicyToken at hfound
    split at hfound <;> cases hfound
    next hpolicy => exact ⟨hpolicy, rfl⟩

/-- What `removeDowngradeBarrier` does when it succeeds. -/
theorem lifted_eq_ok (h : lifted operationId requireEmpty site = .ok ((), after)) :
    after = { site with barrier := none } := by
  unfold lifted at h
  split at h
  next hnone =>
    cases h
    rw [← hnone]
  next =>
    rw [guardProp_eq_ok] at h
    cases hpolicy : requiredPolicy requireEmpty site.policy with
    | error error =>
      rw [hpolicy] at h
      cases h.2
    | ok found =>
      rw [hpolicy] at h
      cases h.2
      rfl

theorem ends_beginDowngradeBarrier (hoperation : operationId = ctx.request.operationId)
    (h : At ctx (fun journal _ => journal.phase = .prepared ∧ journal.commitIntent = none) s) :
    wp admits (beginDowngradeBarrier operationId) (Ends ctx fun _ =>
      At ctx fun journal site => journal.commitIntent = none ∧
        ¬ Foreign ctx.request site ∧ site.boxId = some ctx.request.oldContainerId) s := by
  refine ends_onSite h ?_
  intro token site hok
  obtain ⟨hpolicy, rfl⟩ := installed_eq_ok hok
  obtain ⟨hphase, hnone⟩ := h.holds
  have howned := h.inv.sound.owned
  have hforeign : ¬ Foreign ctx.request { s.world.site with barrier := some (.owned operationId) } := by
    intro hforeign
    exact hforeign.2 (by rw [hoperation])
  refine ⟨{ howned with foreign := fun hf => absurd hf hforeign, policy := fun _ => ⟨token, hpolicy⟩ }, ?_,
    hnone, hforeign, h.inv.memory.prepared hphase⟩
  refine h.inv.memory.of_undecided hnone (by simp [hphase]) h.inv.memory.prepared rfl rfl fun attempt hmem => ?_
  have hattempt := h.inv.memory.attempts attempt hmem
  exact { hattempt with }

theorem ends_forwardToDecision (h : At ctx
      (fun journal _ => journal.phase = .prepared ∧ journal.commitIntent = none) s) :
    wp admits (forwardToDecision ctx.platform ctx.identity effects) (Ends ctx
      fun _ => At ctx fun journal _ => journal.result = some .desiredOff) s := by
  have hold := congrArg OldBox.containerId h.inv.memory.old
  refine wp_bind (wp_look (ends_bind (ends_intent h.inv h.holds fun _ =>
    ends_beginDowngradeBarrier h.inv.memory.operationId) ?_))
  intro token t ht
  obtain ⟨hnone, hforeign, hbox⟩ := ht.holds
  refine ends_bind (ends_announce (P := Forward ctx.request) ht.inv
    ⟨rfl, .inr (by simp)⟩ ⟨⟨hnone, by simp, by simp⟩, hforeign⟩) ?_
  intro _ t ht
  refine ends_bind (ends_stopOld ht) ?_
  intro _ t ht
  refine ends_bind (ends_phase (fun _ => True) rfl ht.inv ht.holds trivial) ?_
  intro _ t ht
  refine ends_bind (ends_intent (P := Forward ctx.request) ht.inv ht.holds.1 fun u hu =>
    ends_removeBox hu (.inl hold)) ?_
  intro _ t ht
  refine ends_askSite ht.inv fun observed _ => wp_ite (fun _ => wp_raise ht.inv) fun _ => ?_
  refine ends_bind (ends_phase (fun _ => True) rfl ht.inv ht.holds.1 trivial) ?_
  intro _ t ht
  refine ends_bind (ends_createVerifiedCandidate (by simp) ⟨ht.inv, ht.synced, ht.holds.1⟩) ?_
  intro candidateId t ht
  refine ends_bind (ends_reapply ht) ?_
  intro finalId t ht
  exact ends_decideDesired ht

/-! ## The host records -/

/-- A host record of the journal is one of the ctx.request. -/
theorem Consistent.change_mem (hs : Consistent ctx journal site) (hmem : record ∈ journal.hostRecords) :
    record.change ∈ ctx.request.hostRecords := by
  rw [← hs.hostRecords]
  exact mem_map_of_mem hmem

/-- A host record does not matter for the ownership of the Boxes. -/
theorem Owned.records (h : Owned ctx site) (records : Str → Json) :
    Owned ctx { site with records } := { h with }

/-- The records after one of them is marked as written. -/
theorem getElem?_marked {records : List HostRecord} {i : Nat} {marked : HostRecord}
    (h : (records.modify index ({ · with written := true }))[i]? = some marked) :
    ∃ record, records[i]? = some record ∧ marked.change = record.change ∧
      (i = index ∧ marked.written = true ∨ i ≠ index ∧ marked = record) := by
  rw [getElem?_modify] at h
  split_ifs at h with hi
  · obtain ⟨record, hrecord, rfl⟩ := map_eq_some_iff.mp h
    exact ⟨record, hrecord, rfl, .inl ⟨hi.symm, rfl⟩⟩
  · exact ⟨marked, by simpa using h, rfl, .inr ⟨fun heq => hi heq.symm, rfl⟩⟩

/-- A record may be marked as written once it is. -/
theorem Consistent.mark_written (hs : Consistent ctx journal site)
    (hresult : journal.result = some .desiredOff) (hrecord : journal.hostRecords[index]? = some record)
    (hnext : site.records record.name = record.next) :
    Consistent ctx { journal with
      hostRecords := journal.hostRecords.modify index ({ · with written := true }) } site :=
  { hs with
    hostRecords := by
      rw [← hs.hostRecords]
      refine ext_getElem? fun i => ?_
      rw [getElem?_map, getElem?_map, getElem?_modify]
      split_ifs with hi
      · cases journal.hostRecords[i]? <;> rfl
      · simp
    undecided := fun hne => absurd hresult hne
    desiredOff := by
      intro decided hdecided hoff
      obtain ⟨hbox, hbarrier, hisRef, hreadable, hwritten⟩ := hs.desiredOff decided hdecided hoff
      refine ⟨hbox, hbarrier, hisRef, hreadable, fun marked hmem hdone => ?_⟩
      obtain ⟨i, hi⟩ := mem_iff_getElem?.mp hmem
      obtain ⟨found, hfound, hchange, ⟨rfl, -⟩ | ⟨-, rfl⟩⟩ := getElem?_marked hi
      · obtain rfl : found = record := some.inj (hfound.symm.trans hrecord)
        have hname := congrArg RecordChange.name hchange
        have hvalue := congrArg RecordChange.next hchange
        exact (congrArg site.records hname).trans (hnext.trans hvalue.symm)
      · exact hwritten marked (mem_of_getElem? hfound) hdone }

/-- A journal may be rolled back when the old Box is restored and the barrier is gone. -/
theorem Consistent.roll_back (hs : Consistent ctx journal site)
    (hresult : journal.result ≠ some .desiredOff) (hbarrier : site.barrier = none)
    (hrestored : Restored ctx.platform ctx.request site) :
    Consistent ctx { journal with phase := .rolledBack, nextAction } site :=
  { hs with
    prepared := nofun
    committed := nofun
    rolledBack := fun _ => ⟨hresult, hbarrier, hrestored⟩ }

/-- The barrier may be removed once the journal is decided. -/
theorem ends_removeDowngradeBarrier {decision : Decision} (Q : (Str → Json) → Prop)
    (h : At ctx (fun journal site => journal.result = some decision ∧ Q site.records) s) :
    wp admits (removeDowngradeBarrier operationId requireEmpty) (Ends ctx
      fun _ => At ctx fun journal site => journal.result = some decision ∧
        Q site.records ∧ site.barrier = none) s := by
  refine ends_onSite h ?_
  intro _ site hok
  obtain rfl := lifted_eq_ok hok
  have howned := h.inv.sound.owned
  have hs := h.inv.memory
  have hforeign : ¬ Foreign ctx.request { s.world.site with barrier := none } := fun hf => hf.1 rfl
  refine ⟨{ howned with foreign := fun hf => absurd hf hforeign, policy := nofun }, ?_, h.holds.1, h.holds.2,
    rfl⟩
  exact { hs with
    attempts := fun attempt hmem =>
      have hattempt := hs.attempts attempt hmem
      { hattempt with }
    desiredOff := fun decided hdecided hoff =>
      have hd := hs.desiredOff decided hdecided hoff
      { hd with barrier := hforeign }
    committed := fun hphase =>
      have hc := hs.committed hphase
      ⟨hc.1, rfl, hc.2.2⟩
    rolledBack := fun hphase =>
      have hr := hs.rolledBack hphase
      ⟨hr.1, rfl, hr.2.2⟩ }

section Records

variable (hnames : (ctx.request.hostRecords.map (·.name)).Nodup)

include hnames

/-- A write of one record leaves the others, and the record itself when it has that value already. -/
theorem records_update {records : Str → Json} {f : RecordChange → Json} {other : RecordChange}
    (hchange : change ∈ ctx.request.hostRecords) (hother : other ∈ ctx.request.hostRecords)
    (hvalue : other ≠ change → records other.name = f other) :
    Function.update records change.name (f change) other.name = f other := by
  by_cases hsame : other.name = change.name
  · rw [inj_on_of_nodup_map hnames hother hchange hsame, Function.update_self]
  · rw [Function.update_of_ne hsame]
    exact hvalue fun heq => hsame (congrArg _ heq)

theorem Consistent.write_next (hs : Consistent ctx journal site)
    (hresult : journal.result = some .desiredOff) (hchange : change ∈ ctx.request.hostRecords) :
    Consistent ctx journal { site with records := Function.update site.records change.name change.next } :=
  { hs with
    attempts := fun attempt hmem =>
      have h := hs.attempts attempt hmem
      { h with }
    undecided := fun hne => absurd hresult hne
    desiredOff := by
      intro decided hdecided hoff
      obtain ⟨hbox, hbarrier, hisRef, hreadable, hwritten⟩ := hs.desiredOff decided hdecided hoff
      refine ⟨hbox, hbarrier, hisRef, hreadable, fun record hmem hdone => ?_⟩
      exact records_update hnames (f := (·.next)) hchange (hs.change_mem hmem) fun _ =>
        hwritten record hmem hdone
    committed := by
      intro hphase
      obtain ⟨hoff, hbarrier, hall⟩ := hs.committed hphase
      exact ⟨hoff, hbarrier, fun other hother =>
        records_update hnames (f := (·.next)) hchange hother fun _ => hall other hother⟩
    rolledBack := fun hphase => absurd hresult (hs.rolledBack hphase).1 }

theorem Consistent.write_old (hs : Consistent ctx journal site)
    (hresult : journal.result ≠ some .desiredOff) (hchange : change ∈ ctx.request.hostRecords) :
    Consistent ctx journal { site with records := Function.update site.records change.name change.old } :=
  { hs with
    attempts := fun attempt hmem =>
      have h := hs.attempts attempt hmem
      { h with }
    undecided := by
      intro _
      obtain ⟨hall, hwritten⟩ := hs.undecided hresult
      exact ⟨fun other hother =>
        records_update hnames (f := (·.old)) hchange hother fun _ => hall other hother, hwritten⟩
    desiredOff := by
      intro decided hdecided hoff
      refine absurd ?_ hresult
      rw [Journal.result, hdecided, map_some, hoff]
    committed := fun hphase => absurd (hs.committed hphase).1 hresult }

theorem ends_commitRecord {rest : List Nat} (h : Inv ctx s) (hresult : s.journal.result = some .desiredOff)
    (hwritten : ∀ i record, s.journal.hostRecords[i]? = some record → record.written = true ∨ i ∈ index :: rest) :
    wp admits (commitRecord ctx.identity index) (Ends ctx fun _ t =>
      Inv ctx t ∧ t.journal.result = some .desiredOff ∧
        ∀ i record, t.journal.hostRecords[i]? = some record → record.written = true ∨ i ∈ rest) s := by
  have hrest : ∀ i record, s.journal.hostRecords[i]? = some record → i ≠ index →
      record.written = true ∨ i ∈ rest := by
    intro i record hi hne
    exact (hwritten i record hi).imp_right fun hmem => (mem_cons.mp hmem).resolve_left hne
  refine wp_bind (wp_look ?_)
  cases hrecord : s.journal.hostRecords[index]? with
  | none =>
    refine wp_ret ⟨h, hresult, fun i record hi => hrest i record hi ?_⟩
    rintro rfl
    rw [hrecord] at hi
    cases hi
  | some record =>
    refine wp_ite (fun hdone => wp_ret ⟨h, hresult, fun i other hi => ?_⟩) fun _ => ?_
    · by_cases hne : i = index
      · subst hne
        rw [hrecord] at hi
        cases hi
        exact .inl hdone
      · exact hrest i other hi hne
    have hchange := h.memory.change_mem (mem_of_getElem? hrecord)
    refine ends_bind (ends_intent (P := fun journal _ => journal.hostRecords = s.journal.hostRecords ∧
      journal.result = some .desiredOff) (R := fun _ => At ctx
        fun journal site => (journal.hostRecords = s.journal.hostRecords ∧
          journal.result = some .desiredOff) ∧ site.records record.name = record.next) h
      ⟨rfl, hresult⟩ fun t ht => ends_onSite ht ?_) ?_
    · intro value site hok
      cases hok
      exact ⟨ht.inv.sound.owned.records _, ht.inv.memory.write_next hnames ht.holds.2 hchange, ht.holds,
        Function.update_self _ _ _⟩
    intro _ t ht
    obtain ⟨⟨hrecords, hoff⟩, hnext⟩ := ht.holds
    have hmarked : Inv ctx (t.amended fun journal =>
        { journal with hostRecords := journal.hostRecords.modify index ({ · with written := true }) }) :=
      ht.inv.amended (ht.inv.memory.mark_written hoff (hrecords ▸ hrecord) hnext) fun _ => rfl
    refine wp_bind (wp_amend (wp_imp (ends_announce (P := fun journal _ => journal.hostRecords =
      s.journal.hostRecords.modify index ({ · with written := true }) ∧
        journal.result = some .desiredOff) hmarked (.action rfl)
      ⟨by rw [← hrecords]; rfl, hoff⟩) ?_))
    intro _ u hu
    refine ⟨hu.inv, hu.holds.2, fun i marked hi => ?_⟩
    rw [hu.holds.1] at hi
    obtain ⟨found, hfound, -, ⟨-, hdone⟩ | ⟨hne, rfl⟩⟩ := getElem?_marked hi
    · exact .inl hdone
    · exact hrest i marked hfound hne


theorem ends_completeDecision (h : Inv ctx s) (hresult : s.journal.result = some .desiredOff) :
    wp admits (completeDecision ctx.identity) (Ends ctx fun _ =>
      At ctx fun journal _ => journal.phase = .committed) s := by
  refine wp_bind (wp_look (ends_bind (M := fun _ t => Inv ctx t ∧
    t.journal.result = some .desiredOff ∧ ∀ record ∈ t.journal.hostRecords, record.written = true) ?_ ?_))
  · refine wp_forEach (I := fun rest t => Inv ctx t ∧
      t.journal.result = some .desiredOff ∧ ∀ i record, t.journal.hostRecords[i]? = some record →
        record.written = true ∨ i ∈ rest) ?_ ?_ ?_
    · refine ⟨h, hresult, fun i record hi => .inr (mem_range.mpr ?_)⟩
      exact (List.getElem?_eq_some_iff.mp hi).1
    · rintro index rest t ⟨ht, hoff, hwritten⟩
      exact ends_commitRecord hnames ht hoff hwritten
    · rintro t ⟨ht, hoff, hwritten⟩
      refine ⟨ht, hoff, fun record hmem => ?_⟩
      obtain ⟨i, hi⟩ := mem_iff_getElem?.mp hmem
      exact (hwritten i record hi).resolve_right not_mem_nil
  rintro _ t ⟨ht, hoff, hwritten⟩
  -- all records are written, so all of them have their next value
  have hnext : ∀ change ∈ ctx.request.hostRecords, t.world.site.records change.name = change.next := by
    intro change hchange
    rw [← ht.memory.hostRecords] at hchange
    obtain ⟨record, hmem, rfl⟩ := mem_map.mp hchange
    obtain ⟨decided, hdecided, hresult⟩ := map_eq_some_iff.mp hoff
    exact (ht.memory.desiredOff decided hdecided hresult).written record hmem (hwritten record hmem)
  refine ends_bind (ends_announce (P := fun journal site => journal.result = some .desiredOff ∧
    ∀ change ∈ ctx.request.hostRecords, site.records change.name = change.next) ht
    ⟨rfl, .inr (by simp)⟩ ⟨hoff, hnext⟩) ?_
  intro _ t ht
  refine ends_bind (ends_intent ht.inv ht.holds fun _ hu => ends_removeDowngradeBarrier
    (fun records => ∀ change ∈ ctx.request.hostRecords, records change.name = change.next) hu) ?_
  intro _ t ht
  obtain ⟨hoff, hnext, hbarrier⟩ := ht.holds
  refine ends_persist ht.inv ?_ (fun _ => rfl) rfl
  have hs := ht.inv.memory
  exact { hs with
    prepared := nofun
    committed := fun _ => ⟨hoff, hbarrier, hnext⟩
    rolledBack := nofun }

/-- The completion of a decision for the old Box. -/
theorem ends_completeRollback (h : Inv ctx s) (hresult : s.journal.result = some .restoredOld) :
    wp admits (completeRollback ctx.identity) (Ends ctx fun _ =>
      At ctx fun journal _ => journal.phase = .rolledBack) s := by
  refine wp_bind (wp_look (ends_bind (M := fun _ t => Inv ctx t ∧
    t.journal.result = some .restoredOld) ?_ ?_))
  · refine wp_forEach (I := fun rest t => (Inv ctx t ∧
      t.journal.result = some .restoredOld) ∧ ∀ record ∈ rest, record.change ∈ ctx.request.hostRecords)
      ⟨⟨h, hresult⟩, fun record hmem => h.memory.change_mem hmem⟩ ?_ fun t ht => ht.1
    rintro record rest t ⟨⟨ht, hold⟩, hchanges⟩
    refine wp_imp (ends_intent (P := fun journal _ => journal.result = some .restoredOld)
      (R := fun _ => At ctx fun journal _ =>
        journal.result = some .restoredOld) ht hold fun u hu => ends_onSite hu ?_) ?_
    · intro _ site hok
      cases hok
      exact ⟨hu.inv.sound.owned.records _, hu.inv.memory.write_old hnames (by simp [hu.holds])
        (hchanges record (.head _)), hu.holds⟩
    · intro _ u hu
      exact ⟨⟨hu.inv, hu.holds⟩, fun other hmem => hchanges other (.tail _ hmem)⟩
  rintro _ t ⟨ht, hold⟩
  refine ends_bind (ends_intent (P := fun journal _ => journal.result = some .restoredOld ∧ True) ht
    ⟨hold, trivial⟩ fun _ hu => ends_removeDowngradeBarrier (fun _ => True) hu) ?_
  intro _ t ht
  obtain ⟨hold, -, hbarrier⟩ := ht.holds
  exact ends_persist ht.inv (ht.inv.memory.roll_back (by simp [hold]) hbarrier
    (ht.inv.memory.restoredOld hold)) (fun _ => rfl) rfl

end Records

end Ploinky.Downgrade
