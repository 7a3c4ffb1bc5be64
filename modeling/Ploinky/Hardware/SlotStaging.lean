import Ploinky.Hardware.Outcome
import Ploinky.Hardware.SlotResolution
import Ploinky.Js.Plain

/-!
# The plan of a store

What the planner does with a whole store. Its first part leaves no finished launch in the slots and keeps
every check of the entries and slots; its second part, for staging, can fail on the entry of a route too.
Read `resolution_faithful_iff` first: the plan is made, and denies what the store denied, exactly when no
route whose entry has to be looked at has an inherited name and no entry of its own.
-/

namespace Ploinky.Hardware

open Js Edge AssocList Plain List Option
open AssocList (keys)

variable {platform : Platform} {scene : Scene} {entries slots : Table Json}

/-! ## The checks of the store -/

variable {routeKey : Str} {slot : Json} {draft : Draft} {evaluation : Evaluation}

/-- The entry of a route after the resolution is an old one or a latched one. -/
theorem resolvedEntry_cases (hstable : OutcomesStable platform) {entry : Json}
    (h : resolvedEntry platform scene entries slots routeKey = some entry) :
    entries.lookup routeKey = some entry ∨ ∃ slot projection compiled,
      slots.lookup routeKey = some slot ∧ Latchable platform slot projection compiled ∧
        entry = latchedEntry platform slot projection := by
  unfold resolvedEntry at h
  cases hslot : slots.lookup routeKey with
  | none =>
    have hclass : classAt platform scene slots routeKey = none := by
      unfold classAt
      rw [hslot]
      rfl
    rw [hclass] at h
    exact Or.inl h
  | some slot =>
    rw [hslot, getD_some] at h
    split at h
    · obtain ⟨found, hfound, hentry⟩ := map_eq_some_iff.mp h
      cases hevidence : slotEvidence platform scene routeKey slot with
      | active projection compiled timestamps =>
        rw [hevidence] at hfound
        cases hfound
        exact Or.inr ⟨slot, projection, compiled, rfl, slotEvidence_eq_active hstable hevidence,
          hentry.symm⟩
      | missing | pending | succeeded | succeededUnowned | unowned | failedGeneric | invalid =>
        rw [hevidence] at hfound
        cases hfound
    · exact Or.inl (filter_eq_some_iff.mp h).1
    · exact Or.inl (filter_eq_some_iff.mp h).1
    · exact Or.inl h

theorem natural_ofInt (n : Nat) : (Json.num (ofInt n)).natural = some n := by
  have hpos : ¬ ((n : Int) < 0) := by omega
  unfold ofInt
  exact Json.natural_num_ofNat n

/-- The entry of a latched slot passes its checks. -/
theorem validateEntry_latchedEntry (hdates : platform.DateText) {projection compiled : Json}
    {k i g run : Str} (hvalid : SlotValid slot k i g run)
    (hlatch : Latchable platform slot projection compiled) :
    validateEntry platform routeKey (latchedEntry platform slot projection) = .ok () := by
  obtain ⟨finished, observedAt, hpositive, hsafe, hiso, hobserved⟩ := hlatch.observed
  have hkey : projection.prop "key" = some (.str k) := (eq_of_strictEq hlatch.key).trans hvalid.key
  have hdate : dateNumber platform (projection.prop "observedAt") = .num (ofInt finished) := by
    rw [hobserved]
    simp only [dateNumber, bind_some, Json.str?, hdates.parse _ _ hiso]
  obtain ⟨started, hstarted⟩ : ∃ value, slot.prop "runStartedAtMs" = some value := by
    have hany := hvalid.runStarted
    cases hprop : slot.prop "runStartedAtMs" with
    | none =>
      rw [hprop] at hany
      cases hany
    | some value => exact ⟨value, rfl⟩
  obtain ⟨wave, hwave⟩ : ∃ value, slot.prop "waveIndex" = some value := by
    have hany := hvalid.waveIndex
    cases hprop : slot.prop "waveIndex" with
    | none =>
      rw [hprop] at hany
      cases hany
    | some value => exact ⟨value, rfl⟩
  have hentry : latchedEntry platform slot projection = .obj [("projection", projection), ("source",
      .obj [("kind", .str "no-wait-terminal"), ("runId", .str run), ("runStartedAtMs", started),
        ("waveIndex", wave), ("statusFile", .str (statusFileName k run)),
        ("finishedAtMs", .num (ofInt finished))])] := by
    unfold latchedEntry latchedSource
    rw [hvalid.runId, hstarted, hwave, hvalid.statusFile, hdate]
    rfl
  have hstartedOk := hvalid.runStarted
  have hwaveOk := hvalid.waveIndex
  rw [hstarted] at hstartedOk
  rw [hwave] at hwaveOk
  have hkeyOk := hvalid.safeKey
  rw [hvalid.key] at hkeyOk
  have hfinished : ((some (Json.num (ofInt finished))).bind Json.natural) = some finished :=
    natural_ofInt finished
  rw [hentry]
  simp only [validateEntry, exactOwnKeys, identityText, canonicalRunId, publishedInteger, bind_eq_ok, shape_eq_ok,
    exists_const]
  refine ⟨⟨rfl, rfl, rfl⟩, ?_, ?_, ⟨rfl, rfl, rfl⟩, rfl, ?_, ?_, ?_, ?_, ?_, ?_⟩
  · exact hlatch.valid
  · show isIdentity isSafeContainer (projection.prop "key") = true
    rw [hkey]
    exact hkeyOk
  · exact hvalid.runIdForm
  · exact hstartedOk
  · exact hwaveOk
  · show ((some (Json.num (ofInt finished))).bind Json.natural).any _ = true
    rw [hfinished]
    simp only [any_some, Bool.and_eq_true, decide_eq_true_eq]
    omega
  · show isStr (some (.str (statusFileName k run)))
      (statusFileName (((projection.prop "key").bind Json.str?).getD []) run) = true
    rw [hkey]
    exact beq_self_eq_true _
  · generalize hread : platform.toISOString _ = read
    have hms : platform.toISOString
        ((((some (Json.num (ofInt finished))).bind Json.natural).getD 0 : Nat) : Int) = read := hread
    rw [hfinished, getD_some, hiso] at hms
    subst hms
    show shape (isStr (projection.prop "observedAt") observedAt) _ = _
    rw [hobserved, shape_eq_ok]
    exact beq_self_eq_true _

/-- The slot of a valid store that is stored for a route. -/
theorem Content.slotValid (hcontent : Content platform entries slots)
    (h : slots.lookup routeKey = some slot) : routeKeyText routeKey "slot route key" = .ok () ∧
      (∃ k i g run, SlotValid slot k i g run) ∧ sharesRun (.obj entries) (routeKey, slot) = false := by
  obtain ⟨hkey, hslot, hrun⟩ := (validateSlots_eq_ok.mp hcontent.validSlots).1 _ (mem_of_lookup h)
  exact ⟨hkey, validateSlot_eq_ok hslot, hrun⟩

/-- A slot that is left has the entry that it had. -/
theorem resolvedEntry_of_resolvedSlot (h : resolvedSlot platform scene slots routeKey = some slot) :
    slots.lookup routeKey = some slot ∧
      resolvedEntry platform scene entries slots routeKey = entries.lookup routeKey := by
  unfold resolvedSlot at h
  split_ifs at h with hterminal
  refine ⟨h, ?_⟩
  unfold resolvedEntry
  split
  case h_4 => rfl
  all_goals
    rename_i hclass
    rw [hclass] at hterminal
    exact absurd rfl hterminal

/-- The resolved store passes the checks of entries and slots. -/
theorem Resolves.content (hstable : OutcomesStable platform) (hdates : platform.DateText)
    (hcontent : Content platform entries slots) (h : Resolves platform scene entries slots [] draft) :
    Content platform draft.entries draft.slots := by
  have hslotsNodup : (keys draft.slots).Nodup := hcontent.nodupSlots.sublist (h.sublist.map _)
  refine ⟨h.nodup, hslotsNodup, validateEntries_eq_ok.mpr ?_, validateSlots_eq_ok.mpr ⟨?_, ?_, ?_⟩⟩
  · rintro ⟨routeKey, entry⟩ hentered
    have hentry : resolvedEntry platform scene entries slots routeKey = some entry := by
      rw [← (h.lookups routeKey).2]
      exact lookup_of_mem h.nodup hentered
    rcases resolvedEntry_cases hstable hentry with hold | ⟨slot, projection, compiled, hslot, hlatch, rfl⟩
    · exact validateEntries_eq_ok.mp hcontent.validEntries _ (mem_of_lookup hold)
    · obtain ⟨hkey, ⟨_, _, _, _, hvalid⟩, _⟩ := hcontent.slotValid hslot
      exact ⟨by simpa only [routeKeyText, identityText, bind_eq_ok, shape_eq_ok] using hkey,
      validateEntry_latchedEntry hdates hvalid hlatch⟩
  · rintro ⟨routeKey, slot⟩ hslotted
    obtain ⟨hkey, hslot, hrun⟩ :=
      (validateSlots_eq_ok.mp hcontent.validSlots).1 _ (h.sublist.subset hslotted)
    refine ⟨hkey, hslot, ?_⟩
    have hleft : resolvedSlot platform scene slots routeKey = some slot := by
      rw [← (h.lookups routeKey).1]
      exact lookup_of_mem hslotsNodup hslotted
    show ((draft.entries.lookup routeKey).any _) = false
    rw [(h.lookups routeKey).2, (resolvedEntry_of_resolvedSlot hleft).2]
    exact hrun
  · exact (validateSlots_eq_ok.mp hcontent.validSlots).2.1.sublist (h.sublist.map _)
  · intro slotted _
    exact not_mem_nil

/-- A valid store can be evaluated with a fresh cache. -/
theorem Content.evaluates (hcontent : Content platform entries slots) {cache : EvidenceCache}
    (hfresh : Fresh platform scene.files slots cache) :
    ∃ evaluation rest, evaluateHardwareAvailabilityOfStore platform scene entries slots cache =
        .ok (evaluation, rest) ∧
      Evaluates platform scene entries slots evaluation ∧ Fresh platform scene.files slots rest :=
  evaluate_spec hfresh hcontent.filesDistinct
    (fun _ hentered => entryReads_of_valid (validateEntries_eq_ok.mp hcontent.validEntries _ hentered).2)
    hcontent.nodupEntries hcontent.nodupSlots

/-! ## Staging -/

/-- The successor of the run of a slot published a target, and the planner cannot read the entry of the
route. -/
def Blocked (platform : Platform) (scene : Scene) (entries slots : Table Json) (routeKey : Str) : Prop :=
  (slots.lookup routeKey).any (fun slot => routeNowTargeted platform slot routeKey scene.generation) =
    true ∧ EntryUnreadable entries routeKey

/-- The slot of a route that has a target does not apply to it. -/
theorem slotApplies_of_routeNowTargeted
    (h : routeNowTargeted platform slot routeKey scene.generation = true) :
    slotApplies platform scene routeKey slot = false := by
  revert h
  unfold routeNowTargeted slotApplies identityApplies
  cases Js.read scene.generation.routes (.obj []) routeKey with
  | none => exact fun _ => rfl
  | some route =>
    intro h
    simp only [Bool.and_eq_true, Bool.not_eq_true'] at h
    show (_ && routeIsTargetLess platform route) = false
    rw [h.2, Bool.and_false]

/-- Two drafts with one slot and one entry for a route. -/
structure AgreeAt (draft other : Draft) (routeKey : Str) : Prop where
  slot : draft.slots.lookup routeKey = other.slots.lookup routeKey
  entry : draft.entries.lookup routeKey = other.entries.lookup routeKey

theorem AgreeAt.blocked_iff {other : Draft} (h : AgreeAt draft other routeKey) :
    Blocked platform scene draft.entries draft.slots routeKey ↔
      Blocked platform scene other.entries other.slots routeKey := by
  unfold Blocked EntryUnreadable
  rw [h.slot, h.entry]

/-- A step of the staging loops deletes entries, and changes its own route only. -/
structure Retires (draft next : Draft) (routeKey : Str) : Prop where
  sublist : next.entries.Sublist draft.entries
  others : ∀ key, key ≠ routeKey → AgreeAt next draft key

theorem lookup_erase_of_ne {table : Table Json} {key : Str} (h : key ≠ routeKey) :
    (erase table routeKey).lookup key = table.lookup key := by
  rw [lookup_erase, if_neg h]

/-- Retiring a slot that does not apply fails when the entry of its route has to be read and cannot be. -/
theorem retireInapplicable_spec (scene : Scene) (hslot : draft.slots.lookup routeKey = some slot)
    (hreads : ∀ entered ∈ draft.entries, EntryReads platform entered.2) :
    FailsIff (Blocked platform scene draft.entries draft.slots routeKey)
      (retireInapplicable platform scene.generation draft routeKey slot)
      fun next => Retires draft next routeKey := by
  unfold retireInapplicable supersedeTargeted Blocked
  rw [hslot, any_some]
  cases routeNowTargeted platform slot routeKey scene.generation with
  | false =>
    refine ⟨fun h => Bool.noConfusion h.1, List.Sublist.refl _, fun key hkey => ⟨?_, rfl⟩⟩
    exact lookup_erase_of_ne hkey
  | true =>
    rw [and_iff_right rfl]
    refine (supersedeEntry_spec (fun entry hentry => hreads _ (mem_of_lookup hentry))
      (tupleOf slot)).andThen fun next hnext => ?_
    refine ⟨_, rfl, hnext.1, fun key hkey => ⟨lookup_erase_of_ne hkey, ?_⟩⟩
    exact (hnext.2 key).trans (if_neg hkey)

/-- One turn of the staging loop over the slots. -/
theorem retireSlot_spec (hcontent : Content platform entries slots)
    (heval : Evaluates platform scene entries slots evaluation) (respawned : List Str)
    (hslot : draft.slots.lookup routeKey = some slot) (hold : slots.lookup routeKey = some slot)
    (hreads : ∀ entered ∈ draft.entries, EntryReads platform entered.2) :
    FailsIff (Blocked platform scene draft.entries draft.slots routeKey)
      (retireSlot platform scene.generation evaluation respawned draft routeKey)
      fun next => Retires draft next routeKey := by
  unfold retireSlot
  rw [lookup_slots_eq heval hold, slotNote, hslot, getD_some]
  cases happlies : slotApplies platform scene routeKey slot with
  | false => exact retireInapplicable_spec scene hslot hreads
  | true =>
    obtain ⟨_, ⟨_, _, _, run, hvalid⟩, _⟩ := hcontent.slotValid hold
    have hrun : strictEq (slot.prop "runId") (slot.prop "runId") = true := by
      rw [hvalid.runId]
      exact beq_self_eq_true _
    have hfree : ¬ Blocked platform scene draft.entries draft.slots routeKey := by
      intro hblocked
      have htargeted := hblocked.1
      rw [hslot] at htargeted
      rw [slotApplies_of_routeNowTargeted htargeted] at happlies
      cases happlies
    rw [if_pos rfl]
    dsimp only
    rw [hrun, if_neg (by decide)]
    split_ifs with hmem
    · exact ⟨hfree, List.Sublist.refl _, fun key hkey => ⟨lookup_erase_of_ne hkey, rfl⟩⟩
    · exact ⟨hfree, List.Sublist.refl _, fun _ _ => ⟨rfl, rfl⟩⟩

/-- The slots of the routes in the list are as the first part of the planner left them, and the entries
are among those it left. -/
structure Retiring (platform : Platform) (slots : Table Json) (resolved : Draft) (todo : List Str)
    (draft : Draft) : Prop where
  distinct : todo.Nodup
  slotAt : ∀ key ∈ todo, ∃ slot, draft.slots.lookup key = some slot ∧ slots.lookup key = some slot
  untouched : ∀ key ∈ todo, AgreeAt draft resolved key
  sublist : draft.entries.Sublist resolved.entries

/-- The staging loop over the slots. -/
theorem retireSlots_spec (hcontent : Content platform entries slots)
    (heval : Evaluates platform scene entries slots evaluation) (respawned : List Str) {todo : List Str}
    (hreads : ∀ entered ∈ draft.entries, EntryReads platform entered.2)
    (h : Retiring platform slots draft todo draft) :
    FailsIff (∃ key ∈ todo, Blocked platform scene draft.entries draft.slots key)
      (todo.foldlM (retireSlot platform scene.generation evaluation respawned) draft)
      (Retiring platform slots draft []) := by
  refine FailsIff.foldlM (Retiring platform slots draft) (fun key todo state h => ?_) h
  obtain ⟨hnew, hdistinct⟩ := nodup_cons.mp h.distinct
  obtain ⟨slot, hslot, hold⟩ := h.slotAt key (.head _)
  rw [← (h.untouched key (.head _)).blocked_iff]
  refine (retireSlot_spec hcontent heval respawned hslot hold fun entered hentered =>
    hreads entered (h.sublist.subset hentered)).imp fun next hretires => ?_
  -- the routes that follow are as they were
  have hagree : ∀ other ∈ todo, AgreeAt next state other := fun other hother =>
    hretires.others other fun heq => hnew (heq ▸ hother)
  refine ⟨hdistinct, fun other hother => ?_, fun other hother => ?_, hretires.sublist.trans h.sublist⟩
  · rw [(hagree other hother).slot]
    exact h.slotAt other (.tail _ hother)
  · have hbefore := h.untouched other (.tail _ hother)
    exact ⟨(hagree other hother).slot.trans hbefore.slot, (hagree other hother).entry.trans hbefore.entry⟩

/-- The staging loop over the entries never fails. -/
theorem retireEntries_isOk (generation : Captured) {todo : List Str} (hnodup : todo.Nodup)
    (hreads : ∀ key ∈ todo, ∃ entry, draft.entries.lookup key = some entry ∧ EntryReads platform entry) :
    ∃ next, todo.foldlM (retireEntry generation) draft = .ok next := by
  induction todo generalizing draft with
  | nil => exact ⟨draft, rfl⟩
  | cons key rest ih =>
    rw [nodup_cons] at hnodup
    obtain ⟨entry, hentry, projection, compiled, hprojection, _⟩ := hreads key (.head _)
    have hstep : retireEntry generation draft key =
        .ok (if tupleIsCurrent (tupleOf projection) generation then draft
          else ⟨erase draft.entries key, draft.slots,
            draft.resolutions ++ [⟨key, none, .retiredStaleEntry⟩]⟩) := by
      unfold retireEntry
      rw [hentry, getD_some, hprojection]
      rfl
    rw [foldlM_cons, hstep]
    refine ih hnodup.2 fun other hother => ?_
    obtain ⟨found, hfound, hfoundReads⟩ := hreads other (.tail _ hother)
    refine ⟨found, ?_, hfoundReads⟩
    split_ifs
    · exact hfound
    · show (erase draft.entries key).lookup other = _
      have hne : other ≠ key := fun heq => hnodup.1 (heq ▸ hother)
      rw [lookup_erase_of_ne hne]
      exact hfound

/-- A route is blocked after the resolution when it was before. -/
theorem Resolves.blocked_iff (h : Resolves platform scene entries slots [] draft) (routeKey : Str) :
    Blocked platform scene draft.entries draft.slots routeKey ↔
      Blocked platform scene entries slots routeKey := by
  obtain ⟨hslotAt, hentryAt⟩ := h.lookups routeKey
  unfold Blocked EntryUnreadable
  rw [hslotAt, hentryAt]
  constructor
  · rintro ⟨htargeted, hunreadable⟩
    obtain ⟨slot, hslot, hany⟩ := (any_eq_true _ _).mp htargeted
    have hleft : slots.lookup routeKey = some slot ∧
        resolvedEntry platform scene entries slots routeKey = entries.lookup routeKey :=
      resolvedEntry_of_resolvedSlot hslot
    rw [hleft.1, ← hleft.2]
    exact ⟨hany, hunreadable⟩
  · rintro ⟨htargeted, hunreadable⟩
    obtain ⟨slot, hslot, hany⟩ := (any_eq_true _ _).mp htargeted
    have hclass : classAt platform scene slots routeKey = none := by
      rw [classAt_of_lookup hslot, slotApplies_of_routeNowTargeted hany]
      rfl
    rw [resolvedSlot, resolvedEntry, hclass, hslot]
    exact ⟨hany, hunreadable⟩

/-- The second part of the planner fails exactly on a blocked route. -/
theorem stageSlots_spec (hstable : OutcomesStable platform) (hdates : platform.DateText)
    (hcontent : Content platform entries slots) (heval : Evaluates platform scene entries slots evaluation)
    (h : Resolves platform scene entries slots [] draft) (spawned : List (Str × Json))
    (startupGraceMs : Json) : FailsIff (∃ key ∈ keys slots, Blocked platform scene entries slots key)
      (stageSlots platform scene.generation evaluation spawned startupGraceMs draft) fun _ => True := by
  have hresolved := h.content hstable hdates hcontent
  have hreads : ∀ entered ∈ draft.entries, EntryReads platform entered.2 := fun _ hentered =>
    entryReads_of_valid (validateEntries_eq_ok.mp hresolved.validEntries _ hentered).2
  have hmem : ∀ (table : Table Json) key, key ∈ sortedRouteKeys table ↔ key ∈ keys table :=
    fun table key => mem_insertionSort _
  have hsorted : ∀ {table : Table Json}, (keys table).Nodup → (sortedRouteKeys table).Nodup :=
    fun hnodup => (perm_insertionSort _ _).nodup_iff.mpr hnodup
  have hbad : (∃ key ∈ keys slots, Blocked platform scene entries slots key) ↔
      ∃ key ∈ sortedRouteKeys draft.slots, Blocked platform scene draft.entries draft.slots key := by
    simp only [h.blocked_iff]
    refine ⟨fun ⟨key, _, hblocked⟩ => ?_, fun ⟨key, hkey, hblocked⟩ =>
      ⟨key, (h.sublist.map _).subset ((hmem _ key).mp hkey), hblocked⟩⟩
    obtain ⟨slot, hslot, _⟩ := (any_eq_true _ _).mp ((h.blocked_iff key).mpr hblocked).1
    exact ⟨key, (hmem _ key).mpr (mem_map_of_mem (mem_of_lookup hslot)), hblocked⟩
  have hstart : Retiring platform slots draft (sortedRouteKeys draft.slots) draft := by
    refine ⟨hsorted hresolved.nodupSlots, fun key hkey => ?_, fun _ _ => ⟨rfl, rfl⟩, List.Sublist.refl _⟩
    obtain ⟨⟨_, slot⟩, hslotted, rfl⟩ := mem_map.mp ((hmem _ key).mp hkey)
    exact ⟨slot, lookup_of_mem hresolved.nodupSlots hslotted,
      lookup_of_mem hcontent.nodupSlots (h.sublist.subset hslotted)⟩
  rw [hbad]
  refine (retireSlots_spec hcontent heval (spawned.map Prod.fst) hreads hstart).andThen
    fun retired hretired => ?_
  have hnodup := h.nodup.sublist (hretired.sublist.map _)
  obtain ⟨current, hcurrent⟩ := retireEntries_isOk scene.generation (hsorted hnodup) fun key hkey => by
    obtain ⟨⟨_, entry⟩, hentered, rfl⟩ := mem_map.mp ((hmem _ key).mp hkey)
    exact ⟨entry, lookup_of_mem hnodup hentered, hreads _ (hretired.sublist.subset hentered)⟩
  rw [hcurrent]
  exact ⟨_, rfl, trivial⟩

/-! ## The whole plan -/

/-- The planner cannot make a plan because of the slot of a route. -/
def Unplannable (platform : Platform) (mode : PlanMode) (scene : Scene) (entries slots : Table Json)
    (routeKey : Str) : Prop :=
  Stuck platform scene entries slots routeKey ∨
    (mode = .staging ∧ Blocked platform scene entries slots routeKey)

/-- The planner makes a plan, and resolves every terminal slot, unless a slot is in its way. -/
theorem plan_spec (hstable : OutcomesStable platform) (hdates : platform.DateText)
    (hcontent : Content platform entries slots) (heval : Evaluates platform scene entries slots evaluation)
    (mode : PlanMode) (spawned : List (Str × Json)) (startupGraceMs : Json) :
    FailsIff (∃ key ∈ keys slots, Unplannable platform mode scene entries slots key)
      (planNoWaitAvailabilitySlots platform mode entries slots scene.generation evaluation spawned
        startupGraceMs) fun plan => ∃ draft, Resolves platform scene entries slots [] draft ∧
        plan.resolved = (draft.entries, draft.slots) ∧
        (mode = .resolve → plan.entries = draft.entries ∧ plan.slots = draft.slots) := by
  unfold planNoWaitAvailabilitySlots Unplannable
  simp only [and_or_left, exists_or]
  refine (resolved_spec heval hcontent).bind fun draft hresolves => ?_
  cases mode with
  | resolve => exact ⟨by simp, draft, hresolves, rfl, fun _ => ⟨rfl, rfl⟩⟩
  | staging =>
    simp only [true_and]
    exact (stageSlots_spec hstable hdates hcontent heval hresolves spawned startupGraceMs).andThen
      fun staged _ => ⟨_, rfl, draft, hresolves, rfl, nofun⟩

/-- The platform with the validator of outcomes that the program has. -/
def withHardwareOutcome (platform : Platform) : Platform :=
  { platform with
    validateHardwareOutcome := fun value =>
      Outcome.validateHardwareOutcome platform (value.getD .null) }

theorem outcomesStable_withHardwareOutcome (platform : Platform) :
    OutcomesStable (withHardwareOutcome platform) :=
  fun _ _ h => Outcome.validateHardwareOutcome_idem h

/-- The evaluation of a store, the plan made on it and the evaluation of the resolved store. -/
structure PlanRun (platform : Platform) (mode : PlanMode) (scene : Scene) (store : ValidStore platform)
    (cache : EvidenceCache) (spawned : List (Str × Json)) (startupGraceMs : Json)
    (evaluation : Evaluation) (plan : SlotPlan) (again : Evaluation) : Prop where
  evaluated : ∃ rest, evaluateHardwareAvailabilityOfStore platform scene store.entries store.slots cache =
      .ok (evaluation, rest) ∧
    ∃ last, evaluateHardwareAvailabilityOfStore platform scene plan.resolved.1 plan.resolved.2 rest =
      .ok (again, last)
  planned : planNoWaitAvailabilitySlots platform mode store.entries store.slots scene.generation evaluation
    spawned startupGraceMs = .ok plan

/-- Resolving the finished launches of a store changes no denial. -/
structure ResolutionFaithful (platform : Platform) (mode : PlanMode) (scene : Scene)
    (store : ValidStore platform) (cache : EvidenceCache) (spawned : List (Str × Json))
    (startupGraceMs : Json) (evaluation : Evaluation) (plan : SlotPlan) (again : Evaluation) : Prop where
  run : PlanRun platform mode scene store cache spawned startupGraceMs evaluation plan again
  denials : ∀ routeKey, again.denials.lookup routeKey = evaluation.denials.lookup routeKey
  revision : again.revision = evaluation.revision
  resolved : ∀ routeKey evidence, again.slots.lookup routeKey = some evidence →
    terminalSlotEvidenceClasses.contains evidence.evidenceClass = false
  valid : mode = .resolve → validateEntries platform plan.entries = .ok () ∧
    validateSlots (.obj plan.entries) [] plan.slots = .ok ()

/-- For every valid store, generation, status files, time and fresh cache, the finished launches are
resolved without a change of the denials exactly when no slot is in the planner's way: no slot of a
finished, unrefused launch, and in staging none whose route has a target again, is of a route with an
inherited name and no entry. -/
theorem resolution_faithful_iff (base : Platform) (hdates : base.DateText) (mode : PlanMode)
    (scene : Scene) (store : ValidStore (withHardwareOutcome base)) (cache : EvidenceCache)
    (hfresh : Fresh (withHardwareOutcome base) scene.files store.slots cache)
    (spawned : List (Str × Json)) (startupGraceMs : Json) :
    (∃ evaluation plan again, ResolutionFaithful (withHardwareOutcome base) mode scene store cache spawned
        startupGraceMs evaluation plan again) ↔ ∀ routeKey ∈ keys store.slots,
        ¬ Unplannable (withHardwareOutcome base) mode scene store.entries store.slots routeKey := by
  have hstable := outcomesStable_withHardwareOutcome base
  have hdates : (withHardwareOutcome base).DateText := ⟨hdates.parse, hdates.parses⟩
  have hcontent := store.content
  obtain ⟨evaluation, rest, hevaluated, heval, hrest⟩ := hcontent.evaluates hfresh
  have hspec := plan_spec hstable hdates hcontent heval mode spawned startupGraceMs
  constructor
  · rintro ⟨evaluation', plan, again, hfaithful⟩ routeKey hmem hunplannable
    obtain ⟨⟨rest', hevaluated', _⟩, hplanned⟩ := hfaithful.run
    rw [hevaluated] at hevaluated'
    cases hevaluated'
    obtain ⟨error, herror⟩ := hspec.fails ⟨routeKey, hmem, hunplannable⟩
    rw [herror] at hplanned
    cases hplanned
  · intro hall
    obtain ⟨plan, hplan, draft, hresolves, hresolved, hmode⟩ :=
      hspec.returns fun ⟨routeKey, hmem, hunplannable⟩ => hall routeKey hmem hunplannable
    have hagainContent := hresolves.content hstable hdates hcontent
    obtain ⟨again, last, hagain, hagainEval, _⟩ :=
      hagainContent.evaluates (hrest.subset hresolves.sublist.subset)
    have hdenials : ∀ routeKey, again.denials.lookup routeKey = evaluation.denials.lookup routeKey := by
      intro routeKey
      rw [hagainEval.denials, heval.denials, hresolves.verdict_eq hstable hcontent]
    refine ⟨evaluation, plan, again, ⟨⟨rest, hevaluated, last, ?_⟩, hplan⟩, hdenials, ?_,
      fun routeKey evidence hevidence => ?_, fun hresolve => ?_⟩
    · rw [hresolved]
      exact hagain
    · rw [hagainEval.revision, heval.revision]
      exact computeEffectiveRevision_congr hagainEval.nodup heval.nodup hdenials
    · -- a slot that is left had no terminal evidence
      rw [hagainEval.slots, (hresolves.lookups routeKey).1, resolvedSlot] at hevidence
      split_ifs at hevidence with hterminal
      · cases hevidence
      · have hclass : classAt (withHardwareOutcome base) scene store.slots routeKey = some evidence.evidenceClass := by
          unfold classAt
          rw [hevidence]
          rfl
        rw [hclass] at hterminal
        simpa using hterminal
    · rw [(hmode hresolve).1, (hmode hresolve).2]
      exact ⟨hagainContent.validEntries, hagainContent.validSlots⟩

/-! ## A finished launch -/

/-- The platform of the launches. -/
abbrev launchPlatform : Platform := withHardwareOutcome Plain.platform

/-- The run of the launch. -/
def launchRun : Str := "00000000-0000-4000-8000-000000000000"

/-- The slot of the launch of an agent. -/
def launchSlot : Json :=
  .obj [("key", .str "box"), ("instanceId", .str "i"), ("enableGeneration", .str "g"),
    ("runId", .str launchRun), ("runStartedAtMs", .num "1"), ("waveIndex", .num "0"),
    ("statusFile", .str (statusFileName "box" launchRun)), ("startupGraceMs", .num "0")]

/-- The status of the launch: the agent runs. -/
def launchStatus (name : Str) : Json :=
  .obj [("containerName", .str "box"), ("instanceId", .str "i"), ("enableGeneration", .str "g"),
    ("repoName", .str "r"), ("shortAgent", .str name), ("alias", .str ""),
    ("routeKey", .str name), ("runId", .str launchRun), ("runStartedAtMs", .num "1"),
    ("waveIndex", .num "0"), ("statusFile", .str (statusFileName "box" launchRun)),
    ("pid", .num "7"), ("state", .str "running")]

/-- The generation that has the agent, its route without a target, and the status file of its launch. -/
def launchScene (name : Str) : Scene where
  generation := ⟨[("box", .obj [("instanceId", .str "i"), ("enableGeneration", .str "g")])],
    [(name, .obj [("container", .str "box")])]⟩
  files := fun _ => .regular 0 (utf8Bytes (launchPlatform.prettyJson (launchStatus name)))
  nowMs := 5

/-- A policy with the slots of launches and no entries. -/
def launchDocument (slots : Table Json) : Json :=
  let storeId := .str (replicate 32 'a')
  .obj [("schema", .str policySchema), ("storeId", storeId), ("entries", .obj []), ("slots", .obj slots),
    ("revision", .str (computeHardwareAvailabilityRevision launchPlatform (.str policySchema) storeId
      (.obj []) (.obj slots)))]

theorem proper_launchDocument {slots : Table Json}
    (h : (launchDocument slots).written isNumber = launchDocument slots) :
    (launchDocument slots).Proper := by
  rw [← h]
  exact Json.proper_written _ _

/-- The store with the slot of a launch of the agent `toString`. -/
def launchStore : ValidStore launchPlatform where
  document := launchDocument [("toString", launchSlot)]
  proper := proper_launchDocument (by decide +kernel)
  valid := by decide +kernel

/-- The launch succeeded, and there is no entry of its route. -/
theorem launch_stuck : Stuck launchPlatform (launchScene "toString")
    launchStore.entries launchStore.slots "toString" :=
  ⟨.inl (by decide +kernel), by decide +kernel, by decide +kernel⟩

/-- The planner throws on the finished launch of the agent `toString`: it reads the method that every
object inherits as the entry of the route. -/
theorem finished_launch_unplannable : (∃ evaluation rest error,
      evaluateHardwareAvailabilityOfStore launchPlatform
        (launchScene "toString") launchStore.entries launchStore.slots [] = .ok (evaluation, rest) ∧
      planNoWaitAvailabilitySlots launchPlatform .resolve launchStore.entries
        launchStore.slots (launchScene "toString").generation evaluation [] .null = .error error) ∧
    ¬ ∃ evaluation plan again, ResolutionFaithful launchPlatform .resolve
      (launchScene "toString") launchStore [] [] .null evaluation plan again := by
  have hfresh : Fresh launchPlatform (launchScene "toString").files launchStore.slots [] :=
    fun _ hcached => absurd hcached not_mem_nil
  obtain ⟨evaluation, rest, hevaluated, heval, _⟩ := launchStore.content.evaluates hfresh
  have hdates : launchPlatform.DateText :=
    ⟨dateText.parse, dateText.parses⟩
  obtain ⟨error, herror⟩ := (plan_spec (outcomesStable_withHardwareOutcome _) hdates launchStore.content
    heval .resolve [] .null).fails ⟨"toString", by decide +kernel, Or.inl launch_stuck⟩
  refine ⟨⟨evaluation, rest, error, hevaluated, herror⟩, ?_⟩
  rintro ⟨other, plan, again, hfaithful⟩
  obtain ⟨⟨_, hother, _⟩, hplanned⟩ := hfaithful.run
  rw [hevaluated] at hother
  cases hother
  rw [herror] at hplanned
  cases hplanned

/-- The store with the slot of a launch of the agent `demo`. -/
def demoStore : ValidStore launchPlatform where
  document := launchDocument [("demo", launchSlot)]
  proper := proper_launchDocument (by decide +kernel)
  valid := by decide +kernel

/-- The finished launch of the agent `demo` is resolved faithfully. -/
theorem resolution_faithful_launch :
    classAt launchPlatform (launchScene "demo") demoStore.slots "demo" = some .succeeded ∧
      ∃ evaluation plan again, ResolutionFaithful launchPlatform .resolve
        (launchScene "demo") demoStore [] [] .null evaluation plan again := by
  refine ⟨by decide +kernel, ?_⟩
  refine (resolution_faithful_iff Plain.platform Plain.dateText .resolve (launchScene "demo") demoStore
    [] (fun _ hcached => absurd hcached not_mem_nil) [] .null).mpr fun routeKey hmem => ?_
  have hkeys : keys demoStore.slots = [lit "demo"] := by decide +kernel
  rw [hkeys, mem_singleton] at hmem
  subst hmem
  rintro (⟨-, hunreadable⟩ | ⟨hstaging, -⟩)
  · exact absurd hunreadable.1 (by decide +kernel)
  · cases hstaging

end Ploinky.Hardware
