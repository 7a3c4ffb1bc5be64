import Ploinky.Hardware.StoreReading

/-!
# Installing a store and writing its witness

Both operations prepare a temporary under a fresh name and put it in place with one call. The lemmas say
what this does to an arbitrary property of the visible files: it holds before that call, another one
holds after it, and the operation fails only by a fault.
-/

namespace Ploinky.Hardware

open Js Durable Durable.Prog List Option

variable {platform : Platform} {admits : Fault Failure → Prop}

/-- A property of the visible files. -/
def OfVisible (p : StoreFiles → Prop) : Prop := ∀ s t, p s → visible t = visible s → p t

/-- Nothing of the store is in place. -/
def Blank (s : StoreFiles) : Prop := s.witness = none ∧ s.directory = none

theorem blank_ofVisible : OfVisible Blank := by
  intro s t hs heq
  have hpolicy : t.directory.map (·.policy) = s.directory.map (·.policy) := congrArg (·.2.1) heq
  rw [hs.2] at hpolicy
  exact ⟨(congrArg (·.1) heq).trans hs.1, map_eq_none_iff.mp hpolicy⟩

/-! ## Fresh names -/

variable {s : StoreFiles} {name : TempName} {R : Unit → StoreFiles → Prop} {inv : StoreFiles → Prop}

/-- The random part of a new name is greater than those in use. -/
theorem uuid_lt_freshUuid (h : name ∈ s.tempNames) :
    name.uuid < s.freshUuid := by
  exact Nat.lt_succ_of_le (le_max_of_le' 0 (mem_map_of_mem (f := (·.uuid)) h) le_rfl)

/-- No temporary has a new name. -/
theorem fresh_not_mem (pid : Nat) (s : StoreFiles) : ⟨pid, s.freshUuid⟩ ∉ s.tempNames := fun h =>
  absurd (uuid_lt_freshUuid h) (lt_irrefl _)

/-- No witness temporary and no staging directory has a new name. -/
theorem lookup_fresh (pid : Nat) (s : StoreFiles) :
    s.witnessTemps.lookup ⟨pid, s.freshUuid⟩ = none ∧ s.stagings.lookup ⟨pid, s.freshUuid⟩ = none := by
  simp only [AList.lookup_eq_none, AList.mem_keys]
  constructor <;> intro hmem <;> exact fresh_not_mem pid s (by simp [StoreFiles.tempNames, hmem])

/-! ## The witness -/

/-- Linking the witness: the link meets no existing witness, so only a fault makes it fail. -/
theorem wp_linkWitness (hadmits : ∀ fault, admits fault → FileFault fault) {content : Bytes}
    {bad : StoreFiles → Prop} {handler : StoreProg Unit}
    (hlookup : s.witnessTemps.lookup name = some content) (hnone : s.witness = none)
    (hR : R () { s with witness := some content })
    (hbad : Faulty admits → bad s ∧ bad { s with witness := some content }) :
    wp admits (attempt (linkWitness name) fun error =>
      if error = .system .EEXIST then handler else raise error) ⟨R, fun _ => bad, bad⟩ s := by
  -- an error comes from a fault, and no fault is an `EEXIST`
  have hhandler : ∀ error t, error = .system .other → bad t →
      wp admits (if error = .system .EEXIST then handler else raise error) ⟨R, fun _ => bad, bad⟩ t := by
    intro error t herror ht
    subst herror
    exact wp_ite nofun fun _ => wp_raise ht
  refine wp_attempt (wp_call_ok (v := ()) (by simp [hlookup, hnone]) hR ?_ ?_ (fun h => (hbad ⟨_, h⟩).1)
    fun h => (hbad ⟨_, h⟩).2)
  · exact fun error h => hhandler error s (hadmits _ h) (hbad ⟨_, h⟩).1
  · exact fun error h => hhandler error _ (hadmits _ h) (hbad ⟨_, h⟩).2

/-- Writing a witness where there is none. -/
theorem clean_writeWitness (hadmits : ∀ fault, admits fault → FileFault fault) (process : Process platform)
    (storeId : Json) (initializedBy : Str) (before done : StoreFiles → Prop) (hbefore : OfVisible before)
    (hdone : OfVisible done) (hnone : ∀ s, before s → s.witness = none)
    (hlink : ∀ s, before s → done { s with witness := some (witnessBytes platform storeId initializedBy process.now) })
    (hs : before s) :
    wp admits (writeWitness process storeId initializedBy)
      (.clean admits (fun t => before t ∨ done t) fun _ => done) s := by
  set content := witnessBytes platform storeId initializedBy process.now
  refine wp_bind (wp_look ?_)
  set name : TempName := ⟨process.pid, s.freshUuid⟩
  -- the temporary is removed at the end, which changes nothing visible
  have hremove : ∀ (p : StoreFiles → Prop), OfVisible p → ∀ t, p t →
      p { t with witnessTemps := t.witnessTemps.erase name } := fun p hp t ht => hp t _ ht rfl
  refine wp_finallyDo_of_keeps (M := fun _ => done) ?_
    (keeps_effect fun t ht => ⟨ht.1, ht.2.imp (hremove before hbefore t) (hremove done hdone t)⟩)
    fun _ t ht => clean_effect (hremove done hdone t ht) (.inr ht) (.inr (hremove done hdone t ht))
  have hopen : wp admits (openWitnessTemp name)
      (.clean admits (fun t => before t ∨ done t) fun _ => before) s := by
    have hopened : before { s with witnessTemps := s.witnessTemps.insert name [] } := hbefore s _ hs rfl
    have hfree : s.witnessTemps.lookup name = none := (lookup_fresh process.pid s).1
    exact clean_call (v := ()) (by simp [hfree]) hopened (.inl hs) (.inl hopened)
  have hwrite : ∀ t, before t → wp admits (writeWitnessTemp name content)
      (.clean admits (fun t => before t ∨ done t) fun _ t =>
        before t ∧ t.witnessTemps.lookup name = some content) t := by
    intro t ht
    have hwritten : before { t with witnessTemps := t.witnessTemps.insert name content } :=
      hbefore t _ ht rfl
    exact clean_effect ⟨hwritten, AList.lookup_insert _⟩ (.inl ht) (.inl hwritten)
  refine wp_bind (wp_imp (wp_createPrivateFile hopen hwrite fun hfault t ht => ⟨hfault, .inl ht.1⟩) ?_)
  intro _ t ht
  have hlinked := hlink t ht.1
  refine wp_bind (wp_linkWitness hadmits ht.2 (hnone t ht.1) ?_ fun hfault =>
    ⟨⟨hfault, .inl ht.1⟩, hfault, .inr hlinked⟩)
  exact wp_unobserved hlinked fun hfault => ⟨hfault, .inr hlinked⟩

/-! ## The store directory -/

/-- The assertion passes when nothing of the store is in place. -/
theorem clean_assertStoreAbsent (process : Process platform) (hblank : Blank s) (hR : R () s) (hs : inv s) :
    wp admits (assertStoreAbsent process) (.clean admits inv R) s := by
  refine wp_bind (clean_ask (v := false) (by simp [hblank.1]) ?_ hs)
  refine wp_bind (clean_ask (v := false) (by simp [hblank.2]) ?_ hs)
  exact wp_ite nofun fun _ => wp_pure hR

/-- The assertion passes only when nothing of the store is in place. -/
theorem wp_assertStoreAbsent (process : Process platform) (h : inv s) :
    wp FileFault (assertStoreAbsent process)
      ⟨fun _ t => inv t ∧ Blank t, fun _ => inv, inv⟩ s := by
  refine wp_bind (wp_ask (fun witness hwitness => ?_) (fun _ => h) h)
  cases hwitness
  refine wp_ite (fun _ => wp_bind (wp_raise h)) fun habsent => ?_
  refine wp_bind (wp_ask (fun directory hdirectory => ?_) (fun _ => h) h)
  cases hdirectory
  refine wp_ite (fun _ => wp_raise h) fun hnone => wp_pure ⟨h, ?_, ?_⟩
  · exact not_isSome_iff_eq_none.mp habsent
  · exact not_isSome_iff_eq_none.mp hnone

/-- Removing a staging directory changes nothing visible. -/
theorem clean_removeStagingDirectory {p : StoreFiles → Prop} (hp : OfVisible p) (name : TempName) (hs : p s) :
    wp admits (removeStagingDirectory name) (.clean admits p fun _ => p) s := by
  have herase : ∀ t, p t → wp admits (effect fun t : StoreFiles =>
      { t with stagings := t.stagings.erase name }) (.clean admits p fun _ => p) t := fun t ht =>
    clean_effect (hp t _ ht rfl) ht (hp t _ ht rfl)
  refine wp_bind (clean_ask rfl ?_ hs)
  match s.stagings.lookup name with
  | none => exact wp_pure hs
  | some none => exact herase s hs
  | some (some content) =>
    exact wp_bind (clean_effect (herase _ (hp s _ hs rfl)) hs (hp s _ hs rfl))

/-- What an install turns one property of the files into another: the first holds until the rename of
the staging directory, the second until the link of the witness, the third after it. -/
structure Installs (process : Process platform) (initializedBy : Str)
    (empty placed done : StoreFiles → Prop) : Prop where
  empty_visible : OfVisible empty
  placed_visible : OfVisible placed
  done_visible : OfVisible done
  blank : ∀ s, empty s → Blank s
  place : ∀ s, s.witness = none →
    s.directory = some ⟨some (emptyPolicy platform process.storeId), ∅⟩ →
    s.committed = some (.obj [], .obj []) → placed s
  unwitnessed : ∀ s, placed s → s.witness = none
  link : ∀ s, placed s → done
    { s with witness := some (witnessBytes platform (.str process.storeId) initializedBy process.now) }

namespace Installs

variable {process : Process platform} {initializedBy : Str} {empty placed done : StoreFiles → Prop}

/-- A staging run ends with the store in place. -/
theorem clean_stageStore (h : Installs process initializedBy empty placed done)
    (hadmits : ∀ fault, admits fault → FileFault fault) (hs : empty s) :
    wp admits (stageStore process ⟨process.pid, s.freshUuid⟩ (emptyPolicy platform process.storeId))
      (.clean admits (fun t => empty t ∨ placed t) fun _ => placed) s := by
  set name : TempName := ⟨process.pid, s.freshUuid⟩
  set content := emptyPolicy platform process.storeId
  refine wp_bind (wp_unobserved ?_ fun hfault => ⟨hfault, .inl hs⟩)
  -- the directory, its policy file and the content of the file appear one after the other
  have hmade : empty { s with stagings := s.stagings.insert name none } := h.empty_visible s _ hs rfl
  have hfree : s.stagings.lookup name = none := (lookup_fresh process.pid s).2
  refine wp_bind (clean_call (v := ()) (by simp [hfree]) ?_ (.inl hs) (.inl hmade))
  have hopen : wp admits (openStagedPolicy name)
      (.clean admits (fun t => empty t ∨ placed t) fun _ => empty)
      { s with stagings := s.stagings.insert name none } := by
    have hopened : empty { s with stagings := s.stagings.insert name (some []) } :=
      h.empty_visible s _ hs rfl
    exact clean_call (v := ()) (by simp) hopened (.inl hmade) (.inl hopened)
  have hwrite : ∀ t, empty t → wp admits (writeStagedPolicy name content)
      (.clean admits (fun t => empty t ∨ placed t) fun _ u =>
        empty u ∧ u.stagings.lookup name = some (some content)) t := fun t ht => clean_effect ⟨h.empty_visible t _ ht rfl, AList.lookup_insert _⟩ (.inl ht)
    (.inl (h.empty_visible t _ ht rfl))
  refine wp_bind (wp_imp (wp_createPrivateFile hopen hwrite fun hfault t ht => ⟨hfault, .inl ht.1⟩) ?_)
  intro _ t ht
  refine wp_bind (wp_unobserved ?_ fun hfault => ⟨hfault, .inl ht.1⟩)
  obtain ⟨hwitness, hdirectory⟩ := h.blank t ht.1
  refine wp_bind (clean_assertStoreAbsent process ⟨hwitness, hdirectory⟩ ?_ (.inl ht.1))
  -- the rename meets no directory, so only a fault makes it fail
  have hplaced := h.place { t with
    directory := some ⟨some content, ∅⟩
    stagings := t.stagings.erase name
    committed := some (.obj [], .obj []) } hwitness rfl rfl
  refine wp_attempt (wp_call_ok (v := ()) (by simp [ht.2, hdirectory]) hplaced ?_ ?_
    (fun hfault => ⟨⟨_, hfault⟩, .inl ht.1⟩) fun hfault => ⟨⟨_, hfault⟩, .inr hplaced⟩)
  · intro error herror
    rw [hadmits _ herror]
    exact wp_ite nofun fun _ => clean_raise ⟨_, herror⟩ (.inl ht.1)
  · intro error herror
    rw [hadmits _ herror]
    exact wp_ite nofun fun _ => clean_raise ⟨_, herror⟩ (.inr hplaced)

/-- An install where nothing is in place. -/
theorem clean_placeStore (h : Installs process initializedBy empty placed done)
    (hadmits : ∀ fault, admits fault → FileFault fault) (hs : empty s) :
    wp admits (placeStore process initializedBy)
      (.clean admits (fun t => empty t ∨ placed t ∨ done t) fun _ => done) s := by
  have hstaged : OfVisible fun t => empty t ∨ placed t := fun t u ht heq =>
    ht.imp (fun ht => h.empty_visible t u ht heq) fun ht => h.placed_visible t u ht heq
  refine wp_bind (wp_look (wp_bind (wp_attempt (wp_mono (h.clean_stageStore hadmits hs) ?_ ?_ ?_))))
  · intro _ t ht
    refine wp_bind (wp_unobserved ?_ fun hfault => ⟨hfault, .inr (.inl ht)⟩)
    exact wp_mono (clean_writeWitness hadmits process _ initializedBy placed done h.placed_visible h.done_visible
      h.unwitnessed h.link ht) (fun _ _ hu => hu) (fun _ _ hu => ⟨hu.1, .inr hu.2⟩)
      fun _ hu => ⟨hu.1, .inr hu.2⟩
  · -- the staging directory is removed as far as possible, and the error is thrown again
    intro error t ht
    refine wp_bind (wp_attempt (wp_mono (clean_removeStagingDirectory hstaged _ ht.2) ?_ ?_ ?_))
    · exact fun _ u hu => wp_raise ⟨ht.1, hu.imp id .inl⟩
    · exact fun _ u hu => wp_pure (wp_raise ⟨ht.1, hu.2.imp id .inl⟩)
    · exact fun u hu => ⟨ht.1, hu.2.imp id .inl⟩
  · exact fun t ht => ⟨ht.1, ht.2.imp id .inl⟩

end Installs

end Ploinky.Hardware
