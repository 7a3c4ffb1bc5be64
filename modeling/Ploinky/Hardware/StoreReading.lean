import Ploinky.Hardware.Store

/-!
# What readers of the store see

Readers look at the witness and at the policy in the store directory, never at temporaries. Sweeping
leaves what they see alone, and an inspection reports the two files as they are, or a problem.
-/

namespace Ploinky.Hardware

open Js Durable Durable.Prog Option

variable {platform : Platform}

/-- The files that readers see, with the history of commits. -/
def visible (s : StoreFiles) : Option Bytes × Option (Option Bytes) × Option (Json × Json) :=
  (s.witness, s.directory.map (·.policy), s.committed)

/-! ## Operations that leave the visible files alone -/

variable {σ : Type} {inv : StoreFiles → Prop} {content : Bytes} {document : Json} {maxBytes : Nat}
  {s : StoreFiles} {file : Option Bytes} {reading : Reading}

section Frame

variable {files : Option Bytes × Option (Option Bytes) × Option (Json × Json)}

/-- The visible files are the given ones. -/
abbrev Shows (files : Option Bytes × Option (Option Bytes) × Option (Json × Json)) (s : StoreFiles) :
    Prop := visible s = files

/-- A change inside the store directory that keeps its policy. -/
theorem visible_mapDirectory {f : StoreDirectory → StoreDirectory} (h : ∀ d, (f d).policy = d.policy)
    (s : StoreFiles) : visible (s.mapDirectory f) = visible s := by
  have hmap : (s.directory.map f).map (·.policy) = s.directory.map (·.policy) := by
    rw [map_map]
    exact congrArg (fun g => Option.map g s.directory) (funext h)
  show (s.witness, (s.directory.map f).map (·.policy), s.committed) = visible s
  rw [hmap]
  rfl

theorem keeps_unobserved {inv : σ → Prop} : Keeps FileFault inv unobserved :=
  keeps_effect fun _ h => h

theorem keeps_removePolicyTemp (name : TempName) : Keeps FileFault (Shows files) (removePolicyTemp name) :=
  keeps_effect fun s h => by
    have hsame := visible_mapDirectory (f := fun d => { d with temps := d.temps.erase name })
      (fun _ => rfl) s
    exact hsame.trans h

theorem keeps_removeStagingDirectory (name : TempName) :
    Keeps FileFault (Shows files) (removeStagingDirectory name) := by
  refine keeps_bind keeps_ask fun found => ?_
  cases found with
  | none => exact keeps_pure
  | some policy =>
    have herase : Keeps FileFault (Shows files) (effect fun s : StoreFiles =>
        { s with stagings := s.stagings.erase name }) := keeps_effect fun _ h => h
    cases policy with
    | none => exact herase
    | some content => exact keeps_bind (keeps_effect fun _ h => h) fun _ => herase

/-- Sweeping removes temporaries only. -/
theorem keeps_sweepHardwareAvailabilityTemps (process : Process platform) :
    Keeps FileFault (Shows files) (sweepHardwareAvailabilityTemps process) := by
  refine keeps_bind keeps_ask fun names => ?_
  refine keeps_bind (keeps_forEach keeps_removeStagingDirectory) fun _ => ?_
  refine keeps_bind (keeps_forEach fun _ => keeps_effect fun _ h => h) fun _ => ?_
  refine keeps_bind keeps_unobserved fun _ => ?_
  refine keeps_bind (keeps_attempt keeps_ask fun _ => keeps_pure) fun kind => ?_
  match kind with
  | .ok true =>
    refine keeps_bind keeps_ask fun temps => ?_
    exact keeps_bind (keeps_forEach keeps_removePolicyTemp) fun _ => keeps_unobserved
  | .ok false | .error _ => exact keeps_pure

end Frame

/-! ## Reading -/

/-- What a state is classified as is in the file. -/
structure ClassifiedAs (platform : Platform) (validate : Json → Except Violation Unit) (maxBytes : Nat)
    (file : Option Bytes) (document : Json) : Prop where
  parsed : ∃ content, file = some content ∧ content.length ≤ maxBytes ∧
    platform.parseJson (textOf platform content) = some document
  validated : validate document = .ok ()

variable {validate : Json → Except Violation Unit} {mark : Str} {α : Type} {admits : Fault Failure → Prop}

theorem classify_eq_valid (h : classify platform validate mark content = .ok (.valid document)) :
    platform.parseJson (textOf platform content) = some document ∧ validate document = .ok () := by
  unfold classify at h
  cases hparse : platform.parseJson (textOf platform content) with
  | none => simp [hparse] at h
  | some value =>
    rw [hparse] at h
    cases hvalid : validate value with
    | ok _ =>
      simp only [hvalid, Except.ok.injEq, Presence.valid.injEq] at h
      subst h
      exact ⟨rfl, hvalid⟩
    | error violation => cases violation <;> simp [hvalid] at h

theorem classify_ne_absent :
    classify platform validate mark content ≠ .ok .absent := by
  unfold classify
  cases platform.parseJson (textOf platform content) with
  | none => simp
  | some value =>
    cases hvalid : validate value with
    | ok _ => simp [hvalid]
    | error violation => cases violation <;> simp [hvalid]

/-- A bounded read finds the file as it is, or a problem. -/
theorem wp_readBoundedFile {file : StoreFiles → Option Bytes} {q : Post StoreFiles Failure Reading}
    (hread : q.returns (boundedReading (file s) maxBytes) s)
    (hproblem : ∀ text, q.returns (.problem text) s) (hdies : q.dies s) :
    wp FileFault (readBoundedFile file maxBytes) q s := by
  refine wp_attempt (wp_ask ?_ ?_ hdies)
  · intro value hvalue
    cases hvalue
    exact hread
  · intro error
    exact wp_ret (hproblem _)

/-- What an inspection reports about the files. -/
structure Inspected (platform : Platform) (s : StoreFiles) (witness directory : Presence) : Prop where
  witnessAbsent : witness = .absent → s.witness = none
  witnessValid : ∀ document, witness = .valid document →
    ClassifiedAs platform (validateWitnessDocument platform) maxWitnessBytes s.witness document
  directoryAbsent : directory = .absent → s.directory = none
  directoryValid : ∀ document, directory = .valid document →
    ClassifiedAs platform (validatePolicyDocument platform) maxPolicyBytes (policyFile s) document

theorem boundedReading_eq_bytes (h : boundedReading file maxBytes = .bytes content) :
    file = some content ∧ content.length ≤ maxBytes := by
  unfold boundedReading at h
  cases file with
  | none => simp at h
  | some other =>
    by_cases hsize : maxBytes < other.length
    · simp [hsize] at h
    · simp only [hsize, if_false, Reading.bytes.injEq] at h
      subst h
      exact ⟨rfl, by omega⟩

theorem boundedReading_eq_missing (h : boundedReading file maxBytes = .missing) : file = none := by
  unfold boundedReading at h
  cases file with
  | none => rfl
  | some other => by_cases hsize : maxBytes < other.length <;> simp [hsize] at h

/-- A reading that is the file as it is, or a problem. -/
def ReadingOf (file : Option Bytes) (maxBytes : Nat) (reading : Reading) : Prop :=
  reading = boundedReading file maxBytes ∨ ∃ text, reading = .problem text

theorem ReadingOf.bytes (h : ReadingOf file maxBytes (.bytes content)) :
    file = some content ∧ content.length ≤ maxBytes := by
  rcases h with h | ⟨text, h⟩
  · exact boundedReading_eq_bytes h.symm
  · cases h

theorem ReadingOf.missing (h : ReadingOf file maxBytes .missing) : file = none := by
  rcases h with h | ⟨text, h⟩
  · exact boundedReading_eq_missing h.symm
  · cases h

/-- The witness that is found absent is absent. -/
theorem witnessPresence_absent (hreading : ReadingOf file maxWitnessBytes reading)
    (h : witnessPresence platform reading = .ok .absent) : file = none := by
  cases reading with
  | missing => exact hreading.missing
  | problem text => cases h
  | bytes content => exact absurd h classify_ne_absent

/-- The witness that is found valid is the file. -/
theorem witnessPresence_valid (hreading : ReadingOf file maxWitnessBytes reading)
    (h : witnessPresence platform reading = .ok (.valid document)) :
    ClassifiedAs platform (validateWitnessDocument platform) maxWitnessBytes file document := by
  cases reading with
  | missing | problem => cases h
  | bytes content =>
    obtain ⟨hparse, hvalid⟩ := classify_eq_valid h
    exact ⟨⟨content, hreading.bytes.1, hreading.bytes.2, hparse⟩, hvalid⟩

/-- A store directory that exists is not found absent. -/
theorem policyPresence_ne_absent : policyPresence platform reading ≠ .ok .absent := by
  cases reading with
  | missing | problem text => simp [policyPresence]
  | bytes content => exact classify_ne_absent

/-- The policy that is found valid is the file. -/
theorem policyPresence_valid (hreading : ReadingOf file maxPolicyBytes reading)
    (h : policyPresence platform reading = .ok (.valid document)) :
    ClassifiedAs platform (validatePolicyDocument platform) maxPolicyBytes file document := by
  cases reading with
  | missing | problem => cases h
  | bytes content =>
    obtain ⟨hparse, hvalid⟩ := classify_eq_valid h
    exact ⟨⟨content, hreading.bytes.1, hreading.bytes.2, hparse⟩, hvalid⟩

/-- A computation that cannot be interrupted. -/
theorem wp_ofExcept {result : Except Failure α} {q : Post σ Failure α} {s : σ}
    (hok : ∀ value, result = .ok value → q.returns value s)
    (herror : ∀ error, result = .error error → q.throws error s) : wp FileFault (ofExcept result) q s := by
  cases result with
  | ok value => exact wp_ret (hok value rfl)
  | error error => exact wp_raise (herror error rfl)

/-- An inspection changes nothing and reports the files as they are. -/
theorem wp_inspectHardwareAvailabilityStore : wp FileFault (inspectHardwareAvailabilityStore platform)
      ⟨fun found t => t = s ∧ Inspected platform s found.1 found.2, fun _ t => t = s, fun t => t = s⟩ s := by
  -- what was read of the witness decides its state, whatever follows
  refine wp_bind (wp_imp (r := fun reading t => s = t ∧ ReadingOf s.witness maxWitnessBytes reading)
    (wp_readBoundedFile ⟨rfl, .inl rfl⟩ (fun text => ⟨rfl, .inr ⟨text, rfl⟩⟩) rfl) ?_)
  rintro reading _ ⟨rfl, hreading⟩
  refine wp_bind (wp_ofExcept ?_ fun _ _ => rfl)
  intro witness hwitness
  have habsent : witness = .absent → s.witness = none := fun h =>
    witnessPresence_absent hreading (h ▸ hwitness)
  have hvalid : ∀ document, witness = .valid document →
      ClassifiedAs platform (validateWitnessDocument platform) maxWitnessBytes s.witness document := fun document h =>
    witnessPresence_valid hreading (h ▸ hwitness)
  refine wp_bind (wp_attempt (wp_ask ?_ ?_ rfl))
  · intro kind hkind
    cases hkind
    cases hdirectory : s.directory with
    | none => exact wp_pure ⟨rfl, habsent, hvalid, fun _ => hdirectory, nofun⟩
    | some directory =>
      have hpolicy : ∀ policyRead, ReadingOf (policyFile s) maxPolicyBytes policyRead →
          wp FileFault (ofExcept (policyPresence platform policyRead) >>= fun directory =>
            pure (witness, directory))
          ⟨fun found t => t = s ∧ Inspected platform s found.1 found.2, fun _ t => t = s,
            fun t => t = s⟩ s := by
        intro policyRead hpolicyRead
        refine wp_bind (wp_ofExcept ?_ fun _ _ => rfl)
        intro presence hpresence
        refine wp_pure ⟨rfl, habsent, hvalid, ?_, ?_⟩
        · intro h
          exact absurd (hpresence.trans (congrArg _ h)) policyPresence_ne_absent
        · intro document h
          exact policyPresence_valid hpolicyRead (hpresence.trans (congrArg _ h))
      refine wp_bind (wp_readBoundedFile ?_ ?_ rfl)
      · exact hpolicy _ (.inl rfl)
      · exact fun text => hpolicy _ (.inr ⟨text, rfl⟩)
  · intro error
    exact wp_ret (wp_pure ⟨rfl, habsent, hvalid, nofun, nofun⟩)

/-- What a snapshot says about the files. -/
def Snapshot.Of (platform : Platform) (s : StoreFiles) : Snapshot → Prop
  | .absent => s.witness = none ∧ s.directory = none
  | .valid storeId revision entries slots _ => ∃ document,
      ClassifiedAs platform (validatePolicyDocument platform) maxPolicyBytes (policyFile s) document ∧
        storeId = fieldOf document "storeId" ∧ revision = fieldOf document "revision" ∧
          entries = fieldOf document "entries" ∧ slots = fieldOf document "slots"

theorem snapshotOf_of {paths : StorePaths} {witness directory : Presence} {snapshot : Snapshot}
    (hinspected : Inspected platform s witness directory)
    (h : snapshotOf paths witness directory = .ok snapshot) : snapshot.Of platform s := by
  have hvalid : ∀ document missing, directory = .valid document → snapshot =
      .valid (fieldOf document "storeId") (fieldOf document "revision") (fieldOf document "entries")
        (fieldOf document "slots") missing → snapshot.Of platform s := by
    intro document missing hdirectory hsnapshot
    subst hsnapshot
    exact ⟨document, hinspected.directoryValid document hdirectory, rfl, rfl, rfl, rfl⟩
  cases witness with
  | invalid problem => cases h
  | absent =>
    cases directory with
    | invalid problem => cases h
    | absent =>
      cases h
      exact ⟨hinspected.witnessAbsent rfl, hinspected.directoryAbsent rfl⟩
    | valid document =>
      unfold snapshotOf at h
      rw [guard_eq_ok] at h
      exact hvalid document _ rfl (Except.ok.inj h.2).symm
  | valid found =>
    cases directory with
    | invalid problem => cases h
    | absent => cases h
    | valid document =>
      unfold snapshotOf at h
      rw [guard_eq_ok] at h
      exact hvalid document _ rfl (Except.ok.inj h.2).symm

/-- The reader changes nothing, and what it returns is what the files hold. -/
theorem wp_readHardwareAvailabilityPolicy (process : Process platform) :
    wp FileFault (readHardwareAvailabilityPolicy process)
      ⟨fun snapshot t => t = s ∧ snapshot.Of platform s, fun _ t => t = s, fun t => t = s⟩ s := by
  refine wp_bind (wp_imp wp_inspectHardwareAvailabilityStore ?_)
  intro found t hfound
  obtain ⟨rfl, hinspected⟩ := hfound
  exact wp_ofExcept (fun snapshot h => ⟨rfl, snapshotOf_of hinspected h⟩) fun _ _ => rfl

/-- A program that keeps the visible files keeps every property of them. -/
theorem keeps_of_shows {p : StoreProg α} (hinv : ∀ s t, inv s → visible t = visible s → inv t)
    (h : ∀ files, Keeps FileFault (Shows files) p) : Keeps FileFault inv p := fun s hs =>
  wp_mono (h (visible s) _ rfl) (fun _ t ht => hinv s t hs ht) (fun _ t ht => hinv s t hs ht)
    fun t ht => hinv s t hs ht

/-! ## Creating files -/

section Creating

variable {bad : StoreFiles → Prop}

/-- A call without effect. -/
theorem wp_unobserved {R : Unit → StoreFiles → Prop} (hR : R () s) (hbad : Faulty admits → bad s) :
    wp admits unobserved ⟨R, fun _ => bad, bad⟩ s :=
  wp_call_ok rfl hR (fun _ h => hbad ⟨_, h⟩) (fun _ h => hbad ⟨_, h⟩) (fun h => hbad ⟨_, h⟩)
    fun h => hbad ⟨_, h⟩

/-- Creating a file: the open and the write are shown one after the other. -/
theorem wp_createPrivateFile {openFile writeFile : StoreProg Unit} {opened written : StoreFiles → Prop}
    (hopen : wp admits openFile ⟨fun _ => opened, fun _ => bad, bad⟩ s)
    (hwrite : ∀ t, opened t → wp admits writeFile ⟨fun _ => written, fun _ => bad, bad⟩ t)
    (hbad : Faulty admits → ∀ t, written t → bad t) :
    wp admits (createPrivateFile openFile writeFile) ⟨fun _ => written, fun _ => bad, bad⟩ s := by
  have hflush : ∀ u, written u → wp admits unobserved ⟨fun _ => written, fun _ => bad, bad⟩ u :=
    fun u hu => wp_unobserved hu fun hfault => hbad hfault u hu
  refine wp_bind (wp_imp hopen fun _ t ht => ?_)
  exact wp_finallyDo_of_keeps (M := fun _ => written)
    (wp_bind (wp_imp (hwrite t ht) fun _ u hu => hflush u hu)) (keeps_effect fun _ hu => hu)
    fun _ u hu => hflush u hu

end Creating

end Ploinky.Hardware
