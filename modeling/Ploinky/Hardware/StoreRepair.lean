import Ploinky.Hardware.StoreInstall

/-!
# Stores that can be repaired

A store is usable when it can be read: nothing is in place, or a valid policy is, with a witness of the
same store or with none. An install and a restore leave a usable store wherever the process dies, and
end with a complete one when it does not.
-/

namespace Ploinky.Hardware

open Js Durable Durable.Prog

variable {platform : Platform} {admits : Fault Failure → Prop}

/-- What the store relies on about digests, and about the lengths of two texts. -/
structure StoreTexts (platform : Platform) : Prop where
  digest : ∀ bytes, isHex 64 (platform.sha256 bytes) = true
  witness : ∀ storeId ms now initializedBy, isStoreId storeId = true →
    platform.toISOString ms = some now → initializedBy ∈ witnessInitializers →
    (witnessBytes platform (.str storeId) initializedBy now).length ≤ maxWitnessBytes
  policy : ∀ storeId, isStoreId storeId = true →
    (emptyPolicy platform storeId).length ≤ maxPolicyBytes

/-- The policy in the store directory. -/
abbrev PolicyIs (platform : Platform) (s : StoreFiles) (document : Json) : Prop :=
  ClassifiedAs platform (validatePolicyDocument platform) maxPolicyBytes (policyFile s) document

/-- The witness. -/
abbrev WitnessIs (platform : Platform) (s : StoreFiles) (document : Json) : Prop :=
  ClassifiedAs platform (validateWitnessDocument platform) maxWitnessBytes s.witness document

/-- A valid policy is in place, without a witness. -/
def Unwitnessed (platform : Platform) (storeId : Str) (s : StoreFiles) : Prop :=
  s.witness = none ∧ isStoreId storeId = true ∧
    ∃ document, PolicyIs platform s document ∧ document.prop "storeId" = some (.str storeId)

/-- A valid policy is in place, with a witness of the same store. -/
def Complete (platform : Platform) (s : StoreFiles) : Prop :=
  ∃ document witness, PolicyIs platform s document ∧ WitnessIs platform s witness ∧
    strictEq (witness.prop "storeId") (document.prop "storeId") = true

/-- The store can be read. -/
def Usable (platform : Platform) (s : StoreFiles) : Prop :=
  Blank s ∨ (∃ storeId, Unwitnessed platform storeId s) ∨ Complete platform s

/-! ## What validation says -/

variable {document : Json} {s : StoreFiles} {storeId initializedBy : Str} {inv : StoreFiles → Prop}

/-- A valid policy names its store. -/
theorem storeId_of_validatePolicyDocument (h : validatePolicyDocument platform document = .ok ()) :
    ∃ storeId, document.prop "storeId" = some (.str storeId) ∧ isStoreId storeId = true := by
  obtain ⟨-, -, h⟩ := bind_eq_ok.mp h
  obtain ⟨-, h⟩ := shape_bind_eq_ok.mp h
  obtain ⟨hstore, -⟩ := shape_bind_eq_ok.mp h
  cases hprop : document.prop "storeId" with
  | none => simp [hprop, Json.str?] at hstore
  | some value =>
    cases value with
    | str storeId => exact ⟨storeId, rfl, by simpa [hprop, Json.str?] using hstore⟩
    | null | bool | num | arr | obj => simp [hprop, Json.str?] at hstore

/-- A valid policy without a witness makes the store usable. -/
theorem usable_of_policyIs (hwitness : s.witness = none) (h : PolicyIs platform s document) :
    Usable platform s := by
  obtain ⟨storeId, hprop, hhex⟩ := storeId_of_validatePolicyDocument h.validated
  exact .inr (.inl ⟨storeId, hwitness, hhex, document, h, hprop⟩)

/-- The empty policy of a new store is valid. -/
theorem validatePolicyDocument_empty (htexts : StoreTexts platform) (h : isStoreId storeId = true) :
    validatePolicyDocument platform (policyDocument platform (.str storeId) (.obj []) (.obj [])) =
      .ok () := by
  have hkeys : exactOwnKeys (some (policyDocument platform (.str storeId) (.obj []) (.obj [])))
      policyKeys "policy" = .ok () := rfl
  have hrevision : isRevision (computeHardwareAvailabilityRevision platform (.str policySchema)
      (.str storeId) (.obj []) (.obj [])) = true := by
    simp only [isRevision, Bool.and_eq_true]
    exact ⟨rfl, htexts.digest _⟩
  have hsize : decide ((serializeHardwareAvailabilityPolicy platform
      (policyDocument platform (.str storeId) (.obj []) (.obj []))).length ≤ maxPolicyBytes) = true :=
    decide_eq_true (htexts.policy storeId h)
  refine bind_eq_ok.mpr ⟨(), hkeys, shape_bind_eq_ok.mpr ⟨rfl, shape_bind_eq_ok.mpr ⟨h, ?_⟩⟩⟩
  refine shape_bind_eq_ok.mpr ⟨hrevision, ?_⟩
  refine shape_bind_eq_ok.mpr ⟨rfl, shape_bind_eq_ok.mpr ⟨rfl, shape_bind_eq_ok.mpr ⟨rfl, ?_⟩⟩⟩
  refine shape_bind_eq_ok.mpr ⟨rfl, bind_eq_ok.mpr ⟨(), rfl, bind_eq_ok.mpr ⟨(), rfl, ?_⟩⟩⟩
  refine shape_bind_eq_ok.mpr ⟨hsize, ?_⟩
  exact if_pos (beq_self_eq_true _)

variable {now : Str} {ms : Int} {maxBytes : Nat} {R : Presence × Presence → StoreFiles → Prop}
  {witness directory : Presence}

/-- The witness of a process is valid and names its store. -/
theorem validateWitnessDocument_witnessDocument (hdates : platform.DateText) (h : isStoreId storeId = true)
    (hnow : platform.toISOString ms = some now) (hby : initializedBy ∈ witnessInitializers) :
    validateWitnessDocument platform (witnessDocument (.str storeId) initializedBy now) = .ok () := by
  have htime : isIsoTime platform (.str now) = true := by
    show ((platform.parseDate now).bind platform.toISOString == some now) = true
    rw [hdates.parse ms now hnow, Option.bind_some, hnow]
    exact beq_self_eq_true _
  have hinitializer : (witnessInitializers.any fun initializer =>
      isStr (some (.str initializedBy)) initializer) = true :=
    List.any_eq_true.mpr ⟨initializedBy, hby, beq_self_eq_true _⟩
  refine bind_eq_ok.mpr ⟨(), rfl, shape_bind_eq_ok.mpr ⟨rfl, shape_bind_eq_ok.mpr ⟨h, ?_⟩⟩⟩
  exact shape_bind_eq_ok.mpr ⟨htime, if_pos hinitializer⟩

/-- A complete staging directory that is put in place holds a valid policy. -/
theorem unwitnessed_of_emptyPolicy (htext : platform.JsonText) (htexts : StoreTexts platform)
    (h : isStoreId storeId = true) (hwitness : s.witness = none)
    (hpolicy : policyFile s = some (emptyPolicy platform storeId)) : Unwitnessed platform storeId s := by
  have hparse := parse_serialize_policyDocument htext (.str storeId) (.obj []) (.obj [])
  refine ⟨hwitness, h, policyDocument platform (.str storeId) (.obj []) (.obj []), ⟨?_, ?_⟩, rfl⟩
  · refine ⟨_, hpolicy, htexts.policy storeId h, ?_⟩
    unfold emptyPolicy
    rw [hparse]
    simp [policyDocument, Json.stable, Json.stableFields, fromEntries, enumerate, Json.written,
      Json.writtenFields]
  · exact validatePolicyDocument_empty htexts h

/-- The properties of a witness are written in their order. -/
theorem written_witnessDocument {isNumber : Str → Bool} (hone : isNumber (lit "1") = true) (now : Str) :
    (witnessDocument (.str storeId) initializedBy now).written isNumber =
      witnessDocument (.str storeId) initializedBy now := by
  have hnames : isLiteral [lit "schema", lit "storeId", lit "initializedAt", lit "initializedBy"] = true := by
    decide
  rw [witnessDocument, Json.written_literal _ (by exact hnames)]
  simp [mapValues, Json.written, hone]

/-- A witness that is put beside its policy completes the store. -/
theorem complete_of_witness (htext : platform.JsonText) (hdates : platform.DateText)
    (htexts : StoreTexts platform) (h : Unwitnessed platform storeId s)
    (hnow : platform.toISOString ms = some now) (hby : initializedBy ∈ witnessInitializers) :
    Complete platform { s with witness := some (witnessBytes platform (.str storeId) initializedBy now) } := by
  obtain ⟨-, hhex, document, hdocument, hstore⟩ := h
  refine ⟨document, witnessDocument (.str storeId) initializedBy now, hdocument, ⟨?_, ?_⟩, ?_⟩
  · refine ⟨_, rfl, htexts.witness storeId ms now initializedBy hhex hnow hby, ?_⟩
    rw [witnessBytes, htext.file, written_witnessDocument (htext.safeInteger 1 (by decide))]
  · exact validateWitnessDocument_witnessDocument hdates hhex hnow hby
  · rw [hstore]
    show (some (Json.str storeId) == some (Json.str storeId)) = true
    exact beq_self_eq_true _

/-! ## Properties of the visible files -/

/-- The policy is among the visible files. -/
theorem policyFile_of_visible {t : StoreFiles} (h : visible t = visible s) : policyFile t = policyFile s := by
  have hpolicy : t.directory.map (·.policy) = s.directory.map (·.policy) := congrArg (·.2.1) h
  have hjoin : ∀ u : StoreFiles, policyFile u = (u.directory.map (·.policy)).join := by
    intro u
    cases hu : u.directory <;> simp [policyFile, hu]
  rw [hjoin, hjoin, hpolicy]

theorem unwitnessed_ofVisible (storeId : Str) : OfVisible (Unwitnessed platform storeId) := by
  intro s t hs heq
  obtain ⟨hwitness, hhex, document, hpolicy, hstore⟩ := hs
  refine ⟨(congrArg (·.1) heq).trans hwitness, hhex, document, ?_, hstore⟩
  show ClassifiedAs platform _ maxPolicyBytes (policyFile t) document
  rw [policyFile_of_visible heq]
  exact hpolicy

theorem complete_ofVisible : OfVisible (Complete platform) := by
  intro s t hs heq
  obtain ⟨document, witness, hpolicy, hwitness, hsame⟩ := hs
  have hread : t.witness = s.witness := congrArg (·.1) heq
  refine ⟨document, witness, ?_, ?_, hsame⟩
  · show ClassifiedAs platform _ maxPolicyBytes (policyFile t) document
    rw [policyFile_of_visible heq]
    exact hpolicy
  · show ClassifiedAs platform _ maxWitnessBytes t.witness witness
    rw [hread]
    exact hwitness

theorem usable_ofVisible : OfVisible (Usable platform) := by
  intro s t hs heq
  rcases hs with hs | ⟨storeId, hs⟩ | hs
  · exact .inl (blank_ofVisible s t hs heq)
  · exact .inr (.inl ⟨storeId, unwitnessed_ofVisible storeId s t hs heq⟩)
  · exact .inr (.inr (complete_ofVisible s t hs heq))

/-! ## Reading without faults -/

/-- The state of the store directory. -/
def directoryPresence (platform : Platform) (s : StoreFiles) : Except Failure Presence :=
  match s.directory with
  | none => .ok .absent
  | some _ => policyPresence platform (boundedReading (policyFile s) maxPolicyBytes)

/-- A file that can be read, parsed and validated is valid. -/
theorem ClassifiedAs.classify {validate : Json → Except Violation Unit} {file : Option Bytes}
    (h : ClassifiedAs platform validate maxBytes file document) (mark : Str) :
    ∃ content, boundedReading file maxBytes = .bytes content ∧
      Hardware.classify platform validate mark content = .ok (.valid document) := by
  obtain ⟨content, hfile, hsize, hparse⟩ := h.parsed
  refine ⟨content, ?_, ?_⟩
  · rw [hfile]
    exact if_neg (by omega)
  · unfold Hardware.classify
    rw [hparse]
    simp [h.validated]

theorem WitnessIs.presence (h : WitnessIs platform s document) :
    witnessPresence platform (boundedReading s.witness maxWitnessBytes) = .ok (.valid document) := by
  obtain ⟨content, hread, hclassify⟩ := h.classify []
  rw [hread]
  exact hclassify

theorem PolicyIs.presence (h : PolicyIs platform s document) :
    directoryPresence platform s = .ok (.valid document) := by
  obtain ⟨content, hread, hclassify⟩ := h.classify "policy.json "
  obtain ⟨found, hfound, -⟩ := h.parsed
  unfold directoryPresence
  cases hdirectory : s.directory with
  | none => simp [policyFile, hdirectory] at hfound
  | some directory =>
    show policyPresence platform (boundedReading (policyFile s) maxPolicyBytes) = _
    rw [hread]
    exact hclassify

/-- A bounded read finds the file as it is, unless a fault made it a problem. -/
theorem clean_readBoundedFile {file : StoreFiles → Option Bytes} {R : Reading → StoreFiles → Prop}
    (hread : R (boundedReading (file s) maxBytes) s)
    (hproblem : Faulty admits → ∀ text, R (.problem text) s) (hs : inv s) :
    wp admits (readBoundedFile file maxBytes) (.clean admits inv R) s :=
  wp_attempt (wp_call_ok rfl hread (fun _ h => wp_ret (hproblem ⟨_, h⟩ _))
    (fun _ h => wp_ret (hproblem ⟨_, h⟩ _)) (fun h => ⟨⟨_, h⟩, hs⟩) fun h => ⟨⟨_, h⟩, hs⟩)

/-- The store directory exists, unless a fault hid it. -/
theorem clean_inspectDirectoryKind {R : Except Str Bool → StoreFiles → Prop}
    (hR : R (.ok s.directory.isSome) s) (hproblem : Faulty admits → ∀ text, R (.error text) s) (hs : inv s) :
    wp admits inspectDirectoryKind (.clean admits inv R) s :=
  wp_attempt (wp_call_ok rfl hR (fun _ h => wp_ret (hproblem ⟨_, h⟩ _))
    (fun _ h => wp_ret (hproblem ⟨_, h⟩ _)) (fun h => ⟨⟨_, h⟩, hs⟩) fun h => ⟨⟨_, h⟩, hs⟩)

/-- An inspection finds the two files as they are, unless a fault made one of them a problem. -/
theorem clean_inspectHardwareAvailabilityStore
    (hwitness : witnessPresence platform (boundedReading s.witness maxWitnessBytes) = .ok witness)
    (hdirectory : directoryPresence platform s = .ok directory) (hR : R (witness, directory) s)
    (hproblem : Faulty admits → ∀ found kind problem, found = Presence.invalid problem ∨ kind = Presence.invalid problem → R (found, kind) s)
    (hs : inv s) : wp admits (inspectHardwareAvailabilityStore platform) (.clean admits inv R) s := by
  -- what was found of the witness: its state, or a problem that a fault made
  refine wp_bind (wp_imp (r := fun reading t => s = t ∧ ∃ found, witnessPresence platform reading = .ok found ∧
      (found = witness ∨ Faulty admits ∧ ∃ problem, found = .invalid problem))
    (clean_readBoundedFile ⟨rfl, witness, hwitness, .inl rfl⟩
      (fun hfault text => ⟨rfl, .invalid text, rfl, .inr ⟨hfault, text, rfl⟩⟩) hs) ?_)
  rintro reading _ ⟨rfl, found, hreading, hfound⟩
  dsimp only
  rw [hreading]
  refine wp_bind (wp_ret ?_)
  have hdone : R (found, directory) s := by
    rcases hfound with rfl | ⟨hfault, problem, hinvalid⟩
    · exact hR
    · exact hproblem hfault found directory problem (.inl hinvalid)
  refine wp_bind (clean_inspectDirectoryKind ?_
    (fun hfault _ => wp_pure (hproblem hfault found _ _ (.inr rfl))) hs)
  unfold directoryPresence at hdirectory
  cases hplace : s.directory with
  | none =>
    rw [hplace] at hdirectory
    cases hdirectory
    exact wp_pure hdone
  | some place =>
    rw [hplace] at hdirectory
    have hpolicy : policyPresence platform (boundedReading (policyFile s) maxPolicyBytes) =
        .ok directory := hdirectory
    refine wp_bind (clean_readBoundedFile ?_ ?_ hs)
    · rw [hpolicy]
      exact wp_bind (wp_ret (wp_pure hdone))
    · intro hfault text
      exact wp_bind (wp_ret (wp_pure (hproblem hfault found _ _ (.inr rfl))))

/-- What an inspection of a usable store finds. -/
inductive Found (platform : Platform) (s : StoreFiles) : Presence → Presence → Prop
  | blank (h : Blank s) : Found platform s .absent .absent
  | unwitnessed {storeId : Str} {document : Json} (h : Unwitnessed platform storeId s)
      (hstore : document.prop "storeId" = some (.str storeId)) : Found platform s .absent (.valid document)
  | complete {document witness : Json} (h : Complete platform s)
      (hsame : strictEq (witness.prop "storeId") (document.prop "storeId") = true) :
      Found platform s (.valid witness) (.valid document)

/-- An inspection of a usable store finds its state, unless a fault made a file a problem. -/
theorem clean_inspect_usable (h : Usable platform s)
    (hR : ∀ witness directory, Found platform s witness directory → R (witness, directory) s)
    (hproblem : Faulty admits → ∀ found kind problem, found = Presence.invalid problem ∨ kind = Presence.invalid problem → R (found, kind) s)
    (hs : inv s) : wp admits (inspectHardwareAvailabilityStore platform) (.clean admits inv R) s := by
  rcases h with hblank | ⟨storeId, hunwitnessed⟩ | hcomplete
  · refine clean_inspectHardwareAvailabilityStore ?_ ?_ (hR .absent .absent (.blank hblank))
      hproblem hs
    · rw [hblank.1]
      rfl
    · unfold directoryPresence
      rw [hblank.2]
  · obtain ⟨hwitness, hhex, document, hpolicy, hstore⟩ := hunwitnessed
    refine clean_inspectHardwareAvailabilityStore ?_ hpolicy.presence
      (hR .absent _ (.unwitnessed ⟨hwitness, hhex, document, hpolicy, hstore⟩ hstore)) hproblem hs
    rw [hwitness]
    rfl
  · obtain ⟨document, witness, hpolicy, hwitness, hsame⟩ := hcomplete
    exact clean_inspectHardwareAvailabilityStore hwitness.presence hpolicy.presence
      (hR _ _ (.complete ⟨document, witness, hpolicy, hwitness, hsame⟩ hsame)) hproblem hs

variable (process : Process platform)

/-- The store can be read, with the given result. -/
def Reads (s : StoreFiles) (snapshot : Snapshot) : Prop :=
  (readHardwareAvailabilityPolicy process s []).outcome = .returned snapshot

/-- The snapshot is that of a store in place. -/
def Snapshot.isValid : Snapshot → Bool
  | .absent => false
  | .valid .. => true

/-- A reader finds the policy of its witness. -/
theorem snapshotOf_valid (paths : StorePaths) {witness document : Json}
    (hsame : strictEq (witness.prop "storeId") (document.prop "storeId") = true) :
    snapshotOf paths (.valid witness) (.valid document) = .ok (.valid (fieldOf document "storeId")
      (fieldOf document "revision") (fieldOf document "entries") (fieldOf document "slots") false) :=
  if_neg (by simp [Presence.document, hsame])

/-- A complete store is read. -/
theorem reads_of_complete (h : Complete platform s) :
    ∃ snapshot, Reads process s snapshot ∧ snapshot.isValid = true := by
  obtain ⟨document, witness, hpolicy, hwitness, hsame⟩ := h
  have hread : wp Faultless (readHardwareAvailabilityPolicy process)
      (.clean Faultless (fun _ => True) fun snapshot _ => snapshot.isValid = true) s := by
    refine wp_bind (clean_inspectHardwareAvailabilityStore hwitness.presence hpolicy.presence ?_
      (fun hfault => hfault.elim fun _ hnone => hnone.elim) trivial)
    show wp Faultless (ofExcept (snapshotOf process.paths (.valid witness) (.valid document))) _ s
    rw [snapshotOf_valid _ hsame]
    exact wp_ret rfl
  obtain ⟨snapshot, hreturned, hvalid⟩ := faultless_run hread
  exact ⟨snapshot, hreturned, hvalid⟩

/-- A store that is usable can be read. -/
theorem reads_of_usable (h : Usable platform s) :
    ∃ snapshot, Reads process s snapshot := by
  have hread : wp Faultless (readHardwareAvailabilityPolicy process)
      (.clean Faultless (fun _ => True) fun _ _ => True) s := by
    refine wp_bind (clean_inspect_usable h ?_ (fun hfault => hfault.elim fun _ hnone => hnone.elim)
      trivial)
    intro witness directory hfound
    cases hfound with
    | blank | unwitnessed => exact wp_ret trivial
    | @complete document found _ hsame =>
      show wp Faultless (ofExcept (snapshotOf process.paths (.valid found) (.valid document))) _ s
      rw [snapshotOf_valid _ hsame]
      exact wp_ret trivial
  obtain ⟨snapshot, hreturned, -⟩ := faultless_run hread
  exact ⟨snapshot, hreturned⟩

/-- A store that can be read is usable. -/
theorem usable_of_reads {process : Process platform} {snapshot : Snapshot} (h : Reads process s snapshot) :
    Usable platform s := by
  have hread : wp FileFault (readHardwareAvailabilityPolicy process)
      ⟨fun _ _ => Usable platform s, fun _ _ => True, fun _ => True⟩ s := by
    refine wp_bind (wp_mono wp_inspectHardwareAvailabilityStore ?_ (fun _ _ _ => trivial)
      fun _ _ => trivial)
    intro found t hfound
    obtain ⟨rfl, hinspected⟩ := hfound
    refine wp_ofExcept (fun value hvalue => ?_) fun _ _ => trivial
    obtain ⟨witness, directory⟩ := found
    cases witness with
    | invalid problem => cases hvalue
    | absent =>
      cases directory with
      | invalid problem => cases hvalue
      | absent => exact .inl ⟨hinspected.witnessAbsent rfl, hinspected.directoryAbsent rfl⟩
      | valid document =>
        exact usable_of_policyIs (hinspected.witnessAbsent rfl) (hinspected.directoryValid document rfl)
    | valid w =>
      cases directory with
      | invalid problem => cases hvalue
      | absent => cases hvalue
      | valid document =>
        have hguard := (guard_eq_ok.mp (show (if _ then _ else _) = Except.ok value from hvalue)).1
        exact .inr (.inr ⟨document, w, hinspected.directoryValid document rfl, hinspected.witnessValid w rfl,
          by simpa [Presence.document] using hguard⟩)
  exact (wp_calm hread).returned h

/-! ## Sweeping, installing and restoring -/

/-- Sweeping changes nothing visible and fails only by a fault. -/
theorem clean_sweepHardwareAvailabilityTemps {p : StoreFiles → Prop}
    (hp : OfVisible p) (hs : p s) :
    wp admits (sweepHardwareAvailabilityTemps process) (.clean admits p fun _ => p) s := by
  refine wp_bind (clean_ask rfl ?_ hs)
  refine wp_bind (wp_forEach (I := fun _ => p) hs
    (fun name _ t ht => clean_removeStagingDirectory hp name ht) ?_)
  intro t ht
  refine wp_bind (wp_forEach (I := fun _ => p) ht (fun name _ u hu =>
    clean_effect (hp u _ hu rfl) hu (hp u _ hu rfl)) ?_)
  intro u hu
  refine wp_bind (wp_unobserved (wp_bind (clean_inspectDirectoryKind ?_ (fun _ _ => wp_pure hu) hu))
    fun hfault => ⟨hfault, hu⟩)
  cases u.directory.isSome with
  | false => exact wp_pure hu
  | true =>
    refine wp_bind (clean_ask rfl ?_ hu)
    refine wp_bind (wp_forEach (I := fun _ => p) hu (fun name _ v hv => ?_) fun v hv => wp_unobserved hv fun hfault => ⟨hfault, hv⟩)
    have herased : p (v.mapDirectory fun d => { d with temps := d.temps.erase name }) :=
      hp v _ hv (visible_mapDirectory (f := fun d => { d with temps := d.temps.erase name })
        (fun _ => rfl) v)
    exact clean_effect herased hv herased

section Repair

variable (htext : platform.JsonText) (hdates : platform.DateText) (htexts : StoreTexts platform)
  (hadmits : ∀ fault, admits fault → FileFault fault)

include htext hdates htexts hadmits

/-- An install where nothing is in place completes the store. -/
theorem clean_installHardwareAvailabilityStore (process : Process platform)
    (hby : initializedBy = lit "fresh" ∨ initializedBy = lit "upgrade") (hs : Blank s) :
    wp admits (installHardwareAvailabilityStore process initializedBy)
      (.clean admits (Usable platform) fun _ => Complete platform) s := by
  obtain ⟨ms, hnow⟩ := process.now_iso
  have hmem : initializedBy ∈ witnessInitializers := by
    rcases hby with rfl | rfl <;> simp [witnessInitializers]
  have hinstalls : Installs process initializedBy Blank (Unwitnessed platform process.storeId)
      (Complete platform) :=
    { empty_visible := blank_ofVisible
      placed_visible := unwitnessed_ofVisible process.storeId
      done_visible := complete_ofVisible
      blank := fun _ ht => ht
      place := fun t hwitness hdirectory _ => unwitnessed_of_emptyPolicy htext htexts
        process.storeId_hex hwitness (by simp [policyFile, hdirectory])
      unwitnessed := fun _ ht => ht.1
      link := fun _ ht => complete_of_witness htext hdates htexts ht hnow hmem }
  have husable : ∀ t, Blank t ∨ Unwitnessed platform process.storeId t ∨ Complete platform t →
      Usable platform t := fun t ht => ht.imp_right fun ht => ht.imp_left fun ht => ⟨_, ht⟩
  refine wp_ite (fun hother => ?_) fun _ => ?_
  · rcases hby with hfresh | hupgrade
    · exact absurd hfresh hother.1
    · exact absurd hupgrade hother.2
  refine wp_bind (wp_mono (clean_sweepHardwareAvailabilityTemps process blank_ofVisible hs) ?_
    (fun _ _ ht => ⟨ht.1, .inl ht.2⟩) fun _ ht => ⟨ht.1, .inl ht.2⟩)
  intro _ t ht
  refine wp_bind (clean_assertStoreAbsent process ht ?_ (.inl ht))
  exact wp_mono (hinstalls.clean_placeStore hadmits ht) (fun _ _ hu => hu)
    (fun _ u hu => ⟨hu.1, husable u hu.2⟩) fun u hu => ⟨hu.1, husable u hu.2⟩

/-- Restoring the witness of a valid policy completes the store. -/
theorem clean_restoreHardwareAvailabilityWitness (process : Process platform)
    (hs : Unwitnessed platform storeId s) : wp admits (restoreHardwareAvailabilityWitness process)
      (.clean admits (Usable platform) fun _ => Complete platform) s := by
  obtain ⟨ms, hnow⟩ := process.now_iso
  have husable : Usable platform s := .inr (.inl ⟨storeId, hs⟩)
  refine wp_bind (clean_inspect_usable husable ?_ ?_ husable)
  · intro witness directory hfound
    cases hfound with
    | blank hblank =>
      -- a policy is in place
      obtain ⟨-, -, document, hpolicy, -⟩ := hs
      obtain ⟨content, hcontent, -⟩ := hpolicy.parsed
      simp [policyFile, hblank.2] at hcontent
    | complete hcomplete =>
      -- there is no witness
      obtain ⟨-, found, -, hwitness, -⟩ := hcomplete
      obtain ⟨content, hcontent, -⟩ := hwitness.parsed
      rw [hs.1] at hcontent
      cases hcontent
    | @unwitnessed id document hid hstore =>
      have hfield : fieldOf document "storeId" = .str id := by simp [fieldOf, hstore]
      show wp admits (writeWitness process (fieldOf document "storeId") "restored") _ s
      rw [hfield]
      have hwrite := clean_writeWitness hadmits process (.str id) "restored" (Unwitnessed platform id)
        (Complete platform) (unwitnessed_ofVisible id) complete_ofVisible (fun _ ht => ht.1)
        (fun _ ht => complete_of_witness htext hdates htexts ht hnow (by simp [witnessInitializers]))
        hid
      exact wp_mono hwrite (fun _ _ ht => ht) (fun _ _ ht => ⟨ht.1, .inr (ht.2.imp_left fun h => ⟨_, h⟩)⟩)
        fun _ ht => ⟨ht.1, .inr (ht.2.imp_left fun h => ⟨_, h⟩)⟩
  · intro hfault found kind problem hinvalid
    rcases hinvalid with rfl | rfl
    · exact clean_raise hfault husable
    · cases found <;> exact clean_raise hfault husable

end Repair

end Ploinky.Hardware
