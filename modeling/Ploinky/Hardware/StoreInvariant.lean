import Ploinky.Hardware.StoreInstall

/-!
# What the store operations keep

The policy in the store directory is the text of the last commit, and there is no witness without a
store directory. Every operation keeps this wherever the process dies: the temporaries are never read,
and the two renames put complete documents in place.
-/

namespace Ploinky.Hardware

open Js Durable Durable.Prog Option

variable {platform : Platform}

/-- The store holds what was committed last: nothing is in place before the first install, and
afterwards the policy is the text of the last commit. -/
def Sound (platform : Platform) (s : StoreFiles) : Prop :=
  match s.directory with
  | none => s.witness = none ∧ s.committed = none
  | some directory => ∃ storeId entries slots, s.committed = some (entries, slots) ∧
      directory.policy = some (serializeHardwareAvailabilityPolicy platform
        (policyDocument platform storeId entries slots))

variable {s t : StoreFiles} {document storeId entries slots : Json}

/-- The store is sound and its directory is in place. -/
def Placed (platform : Platform) (s : StoreFiles) : Prop := Sound platform s ∧ s.directory.isSome = true

/-- Soundness with a directory does not depend on the witness. -/
theorem Placed.of_directory (h : Placed platform s)
    (hdirectory : t.directory.map (·.policy) = s.directory.map (·.policy))
    (hcommitted : t.committed = s.committed) : Placed platform t := by
  obtain ⟨hsound, hsome⟩ := h
  obtain ⟨directory, hs⟩ := isSome_iff_exists.mp hsome
  rw [hs] at hdirectory
  obtain ⟨other, ht, hother⟩ := map_eq_some_iff.mp hdirectory
  unfold Sound at hsound
  rw [hs] at hsound
  obtain ⟨storeId, entries, slots, hlast, htext⟩ := hsound
  refine ⟨?_, by rw [ht]; rfl⟩
  unfold Sound
  rw [ht]
  exact ⟨storeId, entries, slots, hcommitted.trans hlast, hother.trans htext⟩

theorem placed_of_shows (platform : Platform) (s t : StoreFiles) (h : Placed platform s) (heq : visible t = visible s) :
    Placed platform t :=
  h.of_directory (congrArg (·.2.1) heq) (congrArg (·.2.2) heq)

/-- Soundness is a property of the visible files. -/
theorem sound_of_shows (platform : Platform) (s t : StoreFiles) (h : Sound platform s)
    (heq : visible t = visible s) : Sound platform t := by
  cases hs : s.directory with
  | some directory => exact (placed_of_shows platform s t ⟨h, by rw [hs]; rfl⟩ heq).1
  | none =>
    unfold Sound at h ⊢
    rw [hs] at h
    obtain ⟨hwitness, ht⟩ := blank_ofVisible s t ⟨h.1, hs⟩ heq
    rw [ht]
    exact ⟨hwitness, (congrArg (·.2.2) heq).trans h.2⟩

variable (process : Process platform)

/-- An install keeps the store sound. -/
theorem keeps_installHardwareAvailabilityStore (initializedBy : Str) :
    Keeps FileFault (Sound platform) (installHardwareAvailabilityStore process initializedBy) := by
  have hinstalls : Installs process initializedBy (fun s => Sound platform s ∧ Blank s)
      (fun s => Placed platform s ∧ s.witness = none) (Placed platform) :=
    { empty_visible := fun s t hs heq => ⟨sound_of_shows platform s t hs.1 heq, blank_ofVisible s t hs.2 heq⟩
      placed_visible := fun s t hs heq =>
        ⟨placed_of_shows platform s t hs.1 heq, (congrArg (·.1) heq).trans hs.2⟩
      done_visible := placed_of_shows platform
      blank := fun _ hs => hs.2
      place := by
        intro s hwitness hdirectory hcommitted
        refine ⟨⟨?_, by rw [hdirectory]; rfl⟩, hwitness⟩
        unfold Sound
        rw [hdirectory]
        exact ⟨.str process.storeId, .obj [], .obj [], hcommitted, rfl⟩
      unwitnessed := fun _ hs => hs.2
      link := fun _ hs => hs.1.of_directory rfl rfl }
  have hsound : ∀ t, (Sound platform t ∧ Blank t) ∨
      (Placed platform t ∧ t.witness = none) ∨ Placed platform t → Sound platform t := by
    intro t ht
    rcases ht with ht | ht | ht
    · exact ht.1
    · exact ht.1.1
    · exact ht.1
  have hinstall : Keeps FileFault (Sound platform) (do
      sweepHardwareAvailabilityTemps process
      assertStoreAbsent process
      placeStore process initializedBy) := by
    refine keeps_bind (keeps_of_shows (sound_of_shows platform) fun _ =>
      keeps_sweepHardwareAvailabilityTemps process) fun _ s hs => ?_
    refine wp_bind (wp_imp (wp_assertStoreAbsent process hs) ?_)
    intro _ t ht
    exact wp_mono (hinstalls.clean_placeStore (fun _ h => h) ht) (fun _ _ hu => hu.1)
      (fun _ u hu => hsound u hu.2) fun u hu => hsound u hu.2
  exact keeps_ite (keeps_bind keeps_raise fun _ => hinstall) hinstall

/-- A policy that is found is in the store directory. -/
theorem directory_of_classified {validate : Json → Except Violation Unit} {maxBytes : Nat}
    (h : ClassifiedAs platform validate maxBytes (policyFile s) document) :
    s.directory.isSome = true := by
  obtain ⟨content, hcontent, -⟩ := h.parsed
  cases hdirectory : s.directory with
  | none => simp [policyFile, hdirectory] at hcontent
  | some directory => rfl

/-- Restoring the witness keeps the store sound. -/
theorem keeps_restoreHardwareAvailabilityWitness :
    Keeps FileFault (Sound platform) (restoreHardwareAvailabilityWitness process) := by
  intro s hs
  refine wp_bind (wp_mono wp_inspectHardwareAvailabilityStore ?_ (fun _ _ ht => ht ▸ hs)
    fun _ ht => ht ▸ hs)
  intro found t hfound
  obtain ⟨rfl, hinspected⟩ := hfound
  match found with
  | (.absent, .valid document) =>
    have hplaced : Placed platform t :=
      ⟨hs, directory_of_classified (hinspected.directoryValid document rfl)⟩
    have hwrite := clean_writeWitness (fun _ h => h) process (fieldOf document "storeId") "restored"
      (fun u => Placed platform u ∧ u.witness = none) (Placed platform)
      (fun u v hu heq => ⟨placed_of_shows platform u v hu.1 heq, (congrArg (·.1) heq).trans hu.2⟩)
      (placed_of_shows platform) (fun _ hu => hu.2) (fun _ hu => hu.1.of_directory rfl rfl)
      ⟨hplaced, hinspected.witnessAbsent rfl⟩
    exact wp_mono hwrite (fun _ _ hu => hu.1) (fun _ _ hu => hu.2.elim (·.1.1) (·.1))
      fun _ hu => hu.2.elim (·.1.1) (·.1)
  | (.invalid _, _) | (.valid _, _) | (.absent, .absent) | (.absent, .invalid _) => exact wp_raise hs

/-- A temporary of the store directory holds the given content. -/
def Prepared (platform : Platform) (name : TempName) (content : Bytes) (s : StoreFiles) : Prop :=
  Placed platform s ∧ s.directory.bind (·.temps.lookup name) = some content

/-- The temporaries of the store directory are not among the visible files. -/
theorem Placed.mapTemps (h : Placed platform s) (f : Temps Bytes → Temps Bytes) :
    Placed platform (s.mapDirectory fun d => { d with temps := f d.temps }) :=
  placed_of_shows platform s _ h
    (visible_mapDirectory (f := fun d => { d with temps := f d.temps }) (fun _ => rfl) s)

/-- A temporary that was written. -/
theorem Placed.prepared (h : Placed platform s) (name : TempName) (content : Bytes) :
    Prepared platform name content
      (s.mapDirectory fun d => { d with temps := d.temps.insert name content }) := by
  refine ⟨h.mapTemps _, ?_⟩
  obtain ⟨directory, hdirectory⟩ := isSome_iff_exists.mp h.2
  simp [StoreFiles.mapDirectory, hdirectory]

theorem wp_openPolicyTemp (name : TempName) (h : Placed platform s) :
    wp FileFault (openPolicyTemp name)
      ⟨fun _ => Prepared platform name [], fun _ => Placed platform, Placed platform⟩ s := by
  refine wp_call (.of_ok (fun value t ht => ?_) h fun _ _ ht => ht.1)
  obtain ⟨directory, hdirectory⟩ := isSome_iff_exists.mp h.2
  cases hlookup : directory.temps.lookup name with
  | some content => simp [hdirectory, hlookup] at ht
  | none =>
    simp only [hdirectory, hlookup, Except.ok.injEq, Prod.mk.injEq, true_and] at ht
    subst ht
    exact h.prepared name []

theorem wp_writePolicyTemp (name : TempName) (content : Bytes) (h : Placed platform s) :
    wp FileFault (writePolicyTemp name content)
      ⟨fun _ => Prepared platform name content, fun _ => Placed platform, Placed platform⟩ s :=
  wp_effect (h.prepared name content) (fun _ => ⟨h, h.mapTemps _⟩) ⟨h, h.mapTemps _⟩

/-- The rename of a complete temporary commits its policy. -/
theorem wp_renamePolicy {name : TempName}
    (h : Prepared platform name (serializeHardwareAvailabilityPolicy platform (policyDocument platform storeId entries slots)) s) :
    wp FileFault (renamePolicy name entries slots)
      ⟨fun _ => Placed platform, fun _ => Placed platform, Placed platform⟩ s := by
  refine wp_call (.of_ok (fun value t ht => ?_) h.1 fun _ _ ht => ht)
  obtain ⟨directory, hdirectory⟩ := isSome_iff_exists.mp h.1.2
  simp only [h.2, Except.ok.injEq, Prod.mk.injEq, true_and] at ht
  subst ht
  simp only [Placed, Sound, StoreFiles.mapDirectory, hdirectory, map_some]
  exact ⟨⟨storeId, entries, slots, rfl, rfl⟩, rfl⟩

/-- The writes of a commit keep the store in place. -/
theorem keeps_renameIntoPlace (storeId entries slots : Json) :
    Keeps FileFault (Placed platform) (renameIntoPlace process entries slots
      (serializeHardwareAvailabilityPolicy platform (policyDocument platform storeId entries slots))) := by
  refine keeps_bind (keeps_of_shows (placed_of_shows platform) fun _ =>
    keeps_sweepHardwareAvailabilityTemps process) fun _ => ?_
  refine keeps_bind keeps_unobserved fun _ => ?_
  refine keeps_bind keeps_look fun name => ?_
  have hremove := keeps_of_shows (placed_of_shows platform) fun _ => keeps_removePolicyTemp name
  refine keeps_bind (keeps_attempt ?_ fun error => ?_) fun _ => ?_
  · intro s hs
    have hcreate := wp_createPrivateFile (wp_openPolicyTemp name hs) (fun t ht => wp_writePolicyTemp name
      (serializeHardwareAvailabilityPolicy platform (policyDocument platform storeId entries slots)) ht.1)
      fun _ _ ht => ht.1
    refine wp_bind (wp_imp hcreate ?_)
    intro _ t ht
    refine wp_bind (wp_mono (keeps_unobserved _ ht) ?_ (fun _ _ hu => hu.1) fun _ hu => hu.1)
    exact fun _ u hu => wp_renamePolicy hu
  · exact keeps_bind (keeps_attempt hremove fun _ => keeps_pure) fun _ => keeps_raise
  · exact keeps_attempt keeps_unobserved fun _ => keeps_raise

/-- The document that a commit writes is the one of its arguments. -/
theorem nextDocument_eq_ok (h : nextDocument platform storeId entries slots = .ok document) :
    document = policyDocument platform storeId entries slots := by
  unfold nextDocument at h
  cases hentries : exceeds entries 256 <;> cases hslots : exceeds slots 256 <;>
    simp [hentries, hslots, bind, Except.bind, throw, throwThe, MonadExceptOf.throw] at h
  cases hvalid : validatePolicyDocument platform (policyDocument platform storeId entries slots) with
  | ok _ =>
    simp only [hvalid, pure, Except.pure, Except.ok.injEq] at h
    exact h.symm
  | error violation =>
    cases violation with
    | range => simp [hvalid] at h
    | shape message =>
      simp only [hvalid] at h
      split_ifs at h

/-- A commit keeps the store sound. -/
theorem keeps_commitHardwareAvailabilityPolicy (expectedRevision : Json)
    (entries slots : Option Json) : Keeps FileFault (Sound platform)
      (commitHardwareAvailabilityPolicy process expectedRevision entries slots) := by
  intro s hs
  refine wp_bind (wp_mono (wp_readHardwareAvailabilityPolicy process) ?_ (fun _ _ ht => ht ▸ hs)
    fun _ ht => ht ▸ hs)
  intro snapshot t hsnapshot
  obtain ⟨rfl, hof⟩ := hsnapshot
  cases snapshot with
  | absent => exact wp_raise hs
  | valid storeId revision snapshotEntries snapshotSlots missing =>
    obtain ⟨found, hfound, -⟩ := hof
    have hsome := directory_of_classified hfound
    have hcommit : wp FileFault (do
        let document ← ofExcept (nextDocument platform storeId (entries.getD snapshotEntries)
          (slots.getD snapshotSlots))
        if strictEq (document.prop "revision") (some revision) then return false
        renameIntoPlace process (entries.getD snapshotEntries) (slots.getD snapshotSlots)
          (serializeHardwareAvailabilityPolicy platform document)
        return true) ⟨fun _ => Sound platform, fun _ => Sound platform, Sound platform⟩ t := by
      refine wp_bind (wp_ofExcept (fun document hdocument => ?_) fun _ _ => hs)
      rw [nextDocument_eq_ok hdocument]
      refine wp_ite (fun _ => wp_pure hs) fun _ => wp_bind ?_
      exact wp_mono (keeps_renameIntoPlace process storeId _ _ _ ⟨hs, hsome⟩)
        (fun _ _ hu => wp_pure hu.1) (fun _ _ hu => hu.1) fun _ hu => hu.1
    exact wp_ite (fun _ => wp_bind (wp_raise hs)) fun _ => hcommit

end Ploinky.Hardware
