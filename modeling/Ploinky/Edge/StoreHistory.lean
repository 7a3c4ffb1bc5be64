import Ploinky.Edge.Initialize
import Ploinky.Js.Plain

/-!
# Committed denials are kept

A history of initialisations, installs, witness repairs, commits and sweeps, in which processes die at
arbitrary calls, keeps the hardware-availability store sound. So a reader finds the store absent only
before the first install, and otherwise returns what the last commit put in place or throws.
-/

namespace Ploinky.Edge

open Js Hardware Durable Durable.Prog List Option

variable {platform : Platform}

/-! ## What the operations keep -/

section Keeps

variable {inv : Workspace → Prop}

theorem keeps_writeDurableTemp : Keeps FileFault inv writeDurableTemp := by
  refine keeps_bind keeps_unobserved fun _ => keeps_attempt ?_ fun _ => ?_
  · iterate 4 refine keeps_bind keeps_unobserved fun _ => ?_
    exact keeps_unobserved
  · exact keeps_bind (keeps_attempt keeps_unobserved fun _ => keeps_pure) fun _ => keeps_raise

theorem keeps_removeDurableTemp : Keeps FileFault inv removeDurableTemp :=
  keeps_bind keeps_unobserved fun _ => keeps_unobserved

theorem keeps_existsSync (file : Workspace → Bool) : Keeps FileFault inv (existsSync file) :=
  keeps_attempt keeps_ask fun _ => keeps_pure

theorem keeps_presentSources (sources : List EdgeSource) : Keeps FileFault inv (presentSources sources) := by
  induction sources with
  | nil => exact keeps_pure
  | cons source rest ih =>
    exact keeps_bind (keeps_existsSync _) fun _ => keeps_bind ih fun _ => keeps_pure

theorem keeps_evidenceListing (directory : Workspace → Option (List Str)) :
    Keeps FileFault inv (evidenceListing directory) := keeps_attempt keeps_ask fun _ => keeps_raise

theorem keeps_hasPersistedGenerationEvidence : Keeps FileFault inv hasPersistedGenerationEvidence := by
  refine keeps_bind (keeps_existsSync _) fun _ => keeps_ite keeps_pure ?_
  refine keeps_bind (keeps_existsSync _) fun _ => keeps_ite keeps_pure ?_
  refine keeps_bind (keeps_evidenceListing _) fun _ => keeps_ite keeps_pure ?_
  exact keeps_bind (keeps_evidenceListing _) fun _ => keeps_pure

end Keeps

/-- A property that holds whatever the process does with the apply lock. -/
structure LockFramed (process : Process platform) (inv : Workspace → Prop) : Prop where
  lockIds : ∀ s n, inv s → inv { s with lockIds := n }
  link : ∀ s lockId, inv s → inv { s with applyLock := some (.owner process.pid lockId) }
  unlink : ∀ s, inv s → inv { s with applyLock := none }

/-- A property that the initialisation keeps when the reconciliation of the store does: it holds
whatever is written to the sources and to the lock by the process. -/
structure Framed (process : Process platform) (inv : Workspace → Prop) : Prop
    extends LockFramed process inv where
  source : ∀ s source bytes, inv s →
    inv { s with sources := Function.update s.sources source bytes }
  selector : ∀ s, inv s → inv { s with selector := none }
  store : ∀ complete, Keeps FileFault inv (onStore (reconcileHardwareAvailabilityStore process complete))

namespace LockFramed

variable {process : Process platform} {inv : Workspace → Prop}

theorem acquireTurn (h : LockFramed process inv) (first : Bool) :
    Keeps FileFault inv (acquireTurn process first) := by
  have hlink : ∀ lockId, Keeps FileFault inv (linkApplyLock process lockId) := by
    intro lockId
    refine keeps_call fun s _ t hs ht => ?_
    rw [guard_eq_ok] at ht
    cases ht.2
    exact h.link s lockId hs
  refine keeps_bind keeps_look fun lockId => ?_
  refine keeps_bind (keeps_alter fun s hs => h.lockIds s _ hs) fun _ => ?_
  refine keeps_bind keeps_writeDurableTemp fun _ => ?_
  refine keeps_bind (keeps_attempt (keeps_attempt ?_ fun error => ?_) fun error => ?_) fun acquired => ?_
  · exact keeps_bind (hlink lockId) fun _ => keeps_bind keeps_unobserved fun _ => keeps_pure
  · refine keeps_ite (keeps_bind (keeps_attempt keeps_ask fun _ => keeps_pure) fun stale => ?_)
      keeps_raise
    refine keeps_ite (keeps_attempt ?_ fun _ => keeps_raise) keeps_raise
    exact keeps_bind (keeps_effect h.unlink) fun _ => keeps_bind keeps_unobserved fun _ => keeps_pure
  · exact keeps_bind keeps_removeDurableTemp fun _ => keeps_raise
  · refine keeps_bind (keeps_attempt keeps_removeDurableTemp fun _ => ?_) fun _ => keeps_pure
    exact keeps_ite keeps_pure keeps_raise

theorem acquireApplyLock (h : LockFramed process inv) : Keeps FileFault inv (acquireApplyLock process) := by
  refine keeps_bind keeps_unobserved fun _ => keeps_bind (h.acquireTurn true) fun acquired => ?_
  cases acquired with
  | some lockId => exact keeps_pure
  | none =>
    refine keeps_bind (h.acquireTurn false) fun again => ?_
    cases again with
    | some lockId => exact keeps_pure
    | none => exact keeps_raise

theorem releaseApplyLock (h : LockFramed process inv) (lockId : Nat) :
    Keeps FileFault inv (releaseApplyLock lockId) := by
  refine keeps_attempt (keeps_bind keeps_ask fun current => ?_) fun _ => keeps_pure
  match current with
  | some (.owner _ _) =>
    refine keeps_ite ?_ keeps_pure
    exact keeps_bind (keeps_effect h.unlink) fun _ => keeps_unobserved
  | some .unreadable | none => exact keeps_pure

end LockFramed

namespace Framed

variable {process : Process platform} {inv : Workspace → Prop}

theorem discardEmptyDestroyTombstone (h : Framed process inv) (present : List Bool) :
    Keeps FileFault inv (discardEmptyDestroyTombstone platform present) := by
  have hempty : ∀ directory, Keeps FileFault inv (isEmptyDirectory directory) :=
    fun _ => keeps_attempt (keeps_bind keeps_ask fun _ => keeps_pure) fun _ => keeps_pure
  refine keeps_ite keeps_pure ?_
  refine keeps_bind (keeps_attempt keeps_ask fun _ => keeps_pure) fun _ => keeps_ite keeps_pure ?_
  refine keeps_bind (keeps_existsSync _) fun _ => keeps_ite keeps_pure ?_
  refine keeps_bind (hempty _) fun _ => keeps_ite keeps_pure ?_
  refine keeps_bind (hempty _) fun _ => keeps_ite keeps_pure ?_
  exact keeps_bind (keeps_effect h.selector) fun _ => keeps_bind keeps_unobserved fun _ => keeps_pure

theorem installSource (h : Framed process inv) (source : EdgeSource) :
    Keeps FileFault inv (installSource platform source) := by
  refine keeps_bind keeps_writeDurableTemp fun _ => keeps_finallyDo ?_ keeps_removeDurableTemp
  refine keeps_attempt (keeps_bind (keeps_call fun s _ t hs ht => ?_) fun _ => keeps_unobserved)
    fun error => keeps_ite (keeps_bind keeps_ask fun _ => keeps_ite keeps_raise keeps_pure) keeps_raise
  rw [guard_eq_ok] at ht
  cases ht.2
  exact h.source s source _ hs

theorem initializeSources (h : Framed process inv) (present : List Bool) :
    Keeps FileFault inv (initializeSources process present) := by
  refine keeps_bind (keeps_ite keeps_pure (keeps_ite keeps_pure
    keeps_hasPersistedGenerationEvidence)) fun refused => ?_
  have hrest : Keeps FileFault inv (do
      let hardwareAvailability ← onStore
        (reconcileHardwareAvailabilityStore process (present.all id))
      if present.all id then return Initialized.mk false hardwareAvailability
      forEach edgeSources (Edge.installSource platform)
      return ⟨true, hardwareAvailability⟩) := by
    refine keeps_bind (h.store _) fun _ => keeps_ite keeps_pure ?_
    exact keeps_bind (keeps_forEach h.installSource) fun _ => keeps_pure
  exact keeps_ite (keeps_bind keeps_raise fun _ => hrest) hrest

/-- The initialisation keeps a framed property. -/
theorem initializeFreshEdgeRoutingSources (h : Framed process inv) :
    Keeps FileFault inv (initializeFreshEdgeRoutingSources process) := by
  refine keeps_bind h.acquireApplyLock fun lockId => keeps_finallyDo ?_ (h.releaseApplyLock lockId)
  refine keeps_bind (keeps_presentSources _) fun present => ?_
  refine keeps_bind (h.discardEmptyDestroyTombstone present) fun discarded => ?_
  refine keeps_bind (keeps_ite (keeps_presentSources _) keeps_pure) fun present => ?_
  exact h.initializeSources present

end Framed

/-- A property of the availability store alone. -/
abbrev OfStore (good : StoreFiles → Prop) (s : Workspace) : Prop := good s.store

theorem keeps_onStore {α : Type} {good : StoreFiles → Prop} {p : StoreProg α}
    (h : Keeps FileFault good p) : Keeps FileFault (OfStore good) (onStore p) :=
  fun s hs => wp_zoom (h s.store hs)

/-- A property of the store is framed when the reconciliation keeps it. -/
theorem framed_ofStore {process : Process platform} {good : StoreFiles → Prop}
    (h : ∀ complete, Keeps FileFault good (reconcileHardwareAvailabilityStore process complete)) :
    Framed process (OfStore good) where
  lockIds := fun _ _ hs => hs
  link := fun _ _ hs => hs
  unlink := fun _ hs => hs
  source := fun _ _ _ hs => hs
  selector := fun _ hs => hs
  store := fun complete => keeps_onStore (h complete)

/-- The reconciliation of the store keeps it sound. -/
theorem keeps_reconcileHardwareAvailabilityStore (process : Process platform) (complete : Bool) :
    Keeps FileFault (Sound platform) (reconcileHardwareAvailabilityStore process complete) := by
  refine keeps_bind (keeps_of_shows (sound_of_shows platform) fun _ =>
    keeps_sweepHardwareAvailabilityTemps process) fun _ => ?_
  refine keeps_bind ?_ fun found => ?_
  · intro s hs
    exact wp_mono wp_inspectHardwareAvailabilityStore (fun _ _ ht => ht.1 ▸ hs)
      (fun _ _ ht => ht ▸ hs) fun _ ht => ht ▸ hs
  · match found with
    | (.invalid _, _) => exact keeps_raise
    | (.absent, .invalid _) | (.valid _, .invalid _) => exact keeps_raise
    | (.valid _, .absent) => exact keeps_raise
    | (.absent, .absent) =>
      exact keeps_bind (keeps_installHardwareAvailabilityStore process _) fun _ => keeps_pure
    | (.valid _, .valid _) => exact keeps_ite (keeps_bind keeps_raise fun _ => keeps_pure) keeps_pure
    | (.absent, .valid _) =>
      exact keeps_bind (keeps_restoreHardwareAvailabilityWitness process) fun _ => keeps_pure

/-! ## Histories -/

/-- The operations on the availability store. -/
inductive StoreOp (platform : Platform) where
  | start (process : Process platform)
  | install (process : Process platform) (initializedBy : Str)
  | restore (process : Process platform)
  | commit (process : Process platform) (expectedRevision : Json) (entries slots : Option Json)
  | sweep (process : Process platform)

/-- The program of an operation. -/
def StoreOp.program : StoreOp platform → WorkspaceProg Unit
  | .start process => do
      let _ ← initializeFreshEdgeRoutingSources process
  | .install process initializedBy => onStore (installHardwareAvailabilityStore process initializedBy)
  | .restore process => onStore (restoreHardwareAvailabilityWitness process)
  | .commit process expectedRevision entries slots => onStore do
      let _ ← commitHardwareAvailabilityPolicy process expectedRevision entries slots
  | .sweep process => onStore (sweepHardwareAvailabilityTemps process)

/-- Every operation keeps the store sound. -/
theorem keeps_program (op : StoreOp platform) : Keeps FileFault (OfStore (Sound platform)) op.program := by
  cases op with
  | start process =>
    have hframed := framed_ofStore (keeps_reconcileHardwareAvailabilityStore process)
    exact keeps_bind hframed.initializeFreshEdgeRoutingSources fun _ => keeps_pure
  | install process initializedBy =>
    exact keeps_onStore (keeps_installHardwareAvailabilityStore process initializedBy)
  | restore process => exact keeps_onStore (keeps_restoreHardwareAvailabilityWitness process)
  | commit process expectedRevision entries slots =>
    exact keeps_onStore (keeps_bind (keeps_commitHardwareAvailabilityPolicy process expectedRevision
      entries slots) fun _ => keeps_pure)
  | sweep process =>
    exact keeps_onStore (keeps_of_shows (sound_of_shows platform) fun _ =>
      keeps_sweepHardwareAvailabilityTemps process)

/-- The workspace that a history of operations leaves, each under its own faults. -/
def leaves (s : Workspace) (history : List (StoreOp platform × List (Fault Failure))) : Workspace :=
  history.foldl (fun t entry => (entry.1.program t entry.2).state) s

/-- A history keeps the store sound. -/
theorem sound_leaves {s : Workspace} {history : List (StoreOp platform × List (Fault Failure))}
    (hs : Sound platform s.store) (hfaults : ∀ entry ∈ history, ∀ fault ∈ entry.2, FileFault fault) :
    Sound platform (leaves s history).store := by
  induction history generalizing s with
  | nil => exact hs
  | cons entry rest ih =>
    refine ih ?_ fun other hother => hfaults other (.tail _ hother)
    exact (keeps_program entry.1).run hs (hfaults entry (.head _))

/-- A reader finds no store only before the first install; otherwise it returns the entries and slots
of the last commit. There is no witness without a store directory. -/
theorem reader_returns_last_commit (htext : platform.JsonText) (s : Workspace)
    (hs : s.store.witness = none ∧ s.store.directory = none ∧ s.store.committed = none)
    (history : List (StoreOp platform × List (Fault Failure)))
    (hhistory : ∀ entry ∈ history, ∀ fault ∈ entry.2, FileFault fault) :
    ((leaves s history).store.witness.isSome = true → (leaves s history).store.directory.isSome = true) ∧
      ∀ (process : Process platform) (faults : List (Fault Failure)) (snapshot : Hardware.Snapshot),
        (∀ fault ∈ faults, FileFault fault) →
        (readHardwareAvailabilityPolicy process (leaves s history).store faults).outcome =
          .returned snapshot → match snapshot with
        | .absent => (leaves s history).store.committed = none
        | .valid _ _ readEntries readSlots _ => ∃ entries slots,
            (leaves s history).store.committed = some (entries, slots) ∧
              readEntries = entries.stable.written platform.isNumber ∧
                readSlots = slots.stable.written platform.isNumber := by
  have hstart : Sound platform s.store := by
    unfold Sound
    rw [hs.2.1]
    exact ⟨hs.1, hs.2.2⟩
  have hsound := sound_leaves hstart hhistory
  generalize (leaves s history).store = t at hsound ⊢
  refine ⟨?_, ?_⟩
  · intro hwitness
    cases hdirectory : t.directory with
    | none =>
      unfold Sound at hsound
      rw [hdirectory] at hsound
      simp [hsound.1] at hwitness
    | some directory => rfl
  · intro process faults snapshot hfaults hreturned
    have hread := (wp_run (wp_readHardwareAvailabilityPolicy process) hfaults).returned hreturned
    cases snapshot with
    | absent =>
      unfold Sound at hsound
      rw [hread.2.2] at hsound
      exact hsound.2
    | valid storeId revision readEntries readSlots missing =>
      obtain ⟨-, document, hclassified, -, -, rfl, rfl⟩ := hread
      obtain ⟨content, hcontent, -, hparse⟩ := hclassified.parsed
      cases hdirectory : t.directory with
      | none => simp [policyFile, hdirectory] at hcontent
      | some directory =>
        unfold Sound at hsound
        rw [hdirectory] at hsound
        obtain ⟨id, entries, slots, hcommitted, hpolicy⟩ := hsound
        simp only [policyFile, hdirectory, bind_some, hpolicy, some.injEq] at hcontent
        subst hcontent
        rw [parse_serialize_policyDocument htext] at hparse
        cases hparse
        exact ⟨entries, slots, hcommitted, rfl, rfl⟩

/-- A process of a concrete run. -/
def plainProcess (pid : Nat) (h : 1 ≤ pid ∧ pid < 2 ^ 53) (dead : Nat → Bool) :
    Process Plain.platform where
  paths := ⟨"witness.json", "store", "store/policy.json"⟩
  pid := pid
  pid_safe := h
  dead := dead
  storeId := replicate 32 '0'
  storeId_hex := by decide
  now := Plain.isoText 0
  now_iso := ⟨0, rfl⟩

/-- A workspace without any of the files. -/
def emptyWorkspace : Workspace where
  applyLock := none
  lockIds := 0
  sources := fun _ => none
  selector := none
  topologyCurrent := false
  generations := none
  topologyGenerations := none
  store := ⟨none, none, ∅, ∅, none⟩

/-- A first initialisation that dies after its ninth call, and a second one. -/
def interruptedHistory : List (StoreOp Plain.platform × List (Fault Failure)) :=
  [(.start (plainProcess 1 (by decide) fun _ => false), replicate 8 .pass ++ [.dieAfter]),
    (.start (plainProcess 2 (by decide) (· == 1)), [])]

theorem interrupted_reader_returns_last_commit :
    ((leaves emptyWorkspace interruptedHistory).store.witness.isSome = true →
      (leaves emptyWorkspace interruptedHistory).store.directory.isSome = true) ∧
      ∀ (process : Process Plain.platform) (faults : List (Fault Failure)) (snapshot : Hardware.Snapshot),
        (∀ fault ∈ faults, FileFault fault) →
        (readHardwareAvailabilityPolicy process (leaves emptyWorkspace interruptedHistory).store
          faults).outcome = .returned snapshot → match snapshot with
        | .absent => (leaves emptyWorkspace interruptedHistory).store.committed = none
        | .valid _ _ readEntries readSlots _ => ∃ entries slots,
            (leaves emptyWorkspace interruptedHistory).store.committed = some (entries, slots) ∧
              readEntries = entries.stable.written Plain.platform.isNumber ∧
                readSlots = slots.stable.written Plain.platform.isNumber :=
  reader_returns_last_commit Plain.jsonText emptyWorkspace ⟨rfl, rfl, rfl⟩ interruptedHistory (by
    simp [interruptedHistory, FileFault])

end Ploinky.Edge
