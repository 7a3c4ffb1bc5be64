import Ploinky.Replay.Liveness

/-!
# The caches refine a map of expiries

The specification is a ledger: the recordings made so far, each with the pair of texts it is for and its
expiry. A `jti` is live as long as one of its recordings has not expired. Read
`replay_caches_refine_ledger` first: whatever is swept, deleted and created again in between, both caches
answer as the ledger says, as long as the clock does not go back.

Strings are compared by their texts. A string with a lone surrogate has the text of another one, and
`lone_surrogates_share_an_entry` shows that the caches do not tell the two apart.
-/

namespace Ploinky.Replay

open Js Expiry Transition List

variable {K T : Type} [DecidableEq K] [LinearOrder T] {clocks : List (Option T)} {live : Prop}

/-! ## The specification -/

/-- The recordings of a run: for each key the expiries that were asked for. -/
abbrev Ledger (κ T : Type) := List (κ × T)

/-- A recording of the key has not expired. -/
def Ledger.Live {κ : Type} (ledger : Ledger κ T) (key : κ) (t : T) : Prop :=
  ∃ e, (key, e) ∈ ledger ∧ t < e

/-- The expiry that `consume` records: the time and at least one millisecond more. -/
def consumedUntil (numbers : Numbers T) (ttlMs : Option T) (t : T) : T :=
  numbers.add t (max numbers.one (ttlMs.getD numbers.one))

/-- The expiry that `remember` records: that of `consume` with the legacy floor. -/
def rememberedUntil (numbers : Numbers T) (floorMs : T) (ttlMs : Option T) (t : T) : T :=
  numbers.add t (max (max numbers.one (ttlMs.getD numbers.one)) floorMs)

/-- A refusal for a quota or a capacity. -/
def Outcome.Exhausted (outcome : Outcome) : Prop :=
  ∃ error, outcome = .refused error ∧ error.isExhaustion = true

/-- What `consume` may answer. -/
def ConsumeAnswer (live : Prop) (outcome : Outcome) : Prop :=
  (outcome = .answered false ↔ live) ∧
    (outcome = .answered false ∨ outcome = .answered true ∨ outcome.Exhausted)

/-- What `seen` answers. -/
def SeenAnswer (live : Prop) (outcome : Outcome) : Prop :=
  (outcome = .answered true ↔ live) ∧ (outcome = .answered false ↔ ¬ live)

/-- The specification of the bounded cache, over a ledger of the texts of `jti`s. -/
def Bounded.contract (config : Bounded.Config T) : Contract (Ledger Str T) (Bounded.Event T) Outcome where
  admits ledger event outcome :=
    match event.call, event.clock with
    | .consume jti _, some t =>
      if jtiAccepted jti then ConsumeAnswer (ledger.Live (toWellFormed jti) t) outcome
      else outcome = .refused jtiInvalid
    | .seen jti, some t =>
      if jtiAccepted jti then SeenAnswer (ledger.Live (toWellFormed jti) t) outcome
      else outcome = .refused jtiInvalid
    | .remember jti _, some _ =>
      if jtiAccepted jti then outcome = .remembered ∨ outcome.Exhausted
      else outcome = .refused jtiInvalid
    | _, _ => True
  next ledger event outcome :=
    match event.call, event.clock, outcome with
    | .consume jti ttlMs, some t, .answered true =>
      (toWellFormed jti, consumedUntil config.numbers ttlMs t) :: ledger
    | .remember jti ttlMs, some t, .remembered =>
      (toWellFormed jti, rememberedUntil config.numbers config.floorMs ttlMs t) :: ledger
    | .reset, _, _ => []
    | _, _, _ => ledger

/-- The arguments of a call on the view of a caller pass their checks. -/
def accepted (caller jti : Units) : Bool := partitionKeyAccepted caller && jtiAccepted jti

/-- The specification of the partitioned cache, over a ledger of the texts of callers and `jti`s. -/
def Partitioned.contract (config : Partitioned.Config T) :
    Contract (Ledger (Str × Str) T) (Partitioned.Event T) Outcome where
  admits ledger event outcome :=
    match event.call, event.clock with
    | .consume caller jti _, some t =>
      if accepted caller jti then
        ConsumeAnswer (ledger.Live (toWellFormed caller, toWellFormed jti) t) outcome
      else outcome = .refused partitionKeyInvalid ∨ outcome = .refused jtiInvalid
    | .seen caller jti, some t =>
      if accepted caller jti then
        SeenAnswer (ledger.Live (toWellFormed caller, toWellFormed jti) t) outcome
      else outcome = .refused partitionKeyInvalid ∨ outcome = .refused jtiInvalid
    | .remember caller jti _, some _ =>
      if accepted caller jti then outcome = .remembered ∨ outcome.Exhausted
      else outcome = .refused partitionKeyInvalid ∨ outcome = .refused jtiInvalid
    | _, _ => True
  next ledger event outcome :=
    match event.call, event.clock, outcome with
    | .consume caller jti ttlMs, some t, .answered true =>
      ((toWellFormed caller, toWellFormed jti), consumedUntil config.numbers ttlMs t) :: ledger
    | .remember caller jti ttlMs, some t, .remembered =>
      ((toWellFormed caller, toWellFormed jti),
        rememberedUntil config.numbers config.floorMs ttlMs t) :: ledger
    | .reset, _, _ => []
    | _, _, _ => ledger

/-! ## Expiries and keys -/

theorem requestedExpiry_eq (numbers : Numbers T) (ttlMs : Option T) (t : T) :
    requestedExpiry numbers ttlMs t = consumedUntil numbers ttlMs t := by
  cases ttlMs <;> simp [requestedExpiry, retentionMs, consumedUntil]

theorem requestedExpiry_legacyTtl (numbers : Numbers T) (floorMs : T) (ttlMs : Option T) (t : T) :
    requestedExpiry numbers (legacyTtl numbers floorMs ttlMs) t =
      rememberedUntil numbers floorMs ttlMs t := by
  cases ttlMs <;> simp [requestedExpiry, retentionMs, legacyTtl, rememberedUntil]

omit [DecidableEq K] in
/-- Where the hash does not collide, two strings have one digest when they have one text. -/
theorem digestKey_eq_iff {sha256 : Bytes → K} {strings : Set Units}
    (hhash : Set.InjOn sha256 (Set.image utf8Units strings)) {a b : Units} (ha : a ∈ strings)
    (hb : b ∈ strings) : digestKey sha256 a = digestKey sha256 b ↔ toWellFormed a = toWellFormed b := by
  constructor
  · intro h
    exact utf8Bytes_injective (hhash (Set.mem_image_of_mem _ ha) (Set.mem_image_of_mem _ hb) h)
  · intro h
    unfold digestKey utf8Units
    rw [h]

/-! ## The simulation -/

/-- The finite readings of the clock in a run do not decrease. -/
def Nondecreasing (clocks : List (Option T)) : Prop := (clocks.filterMap id).Pairwise (· ≤ ·)

theorem Nondecreasing.tail {clock : Option T}
    (h : Nondecreasing (clock :: clocks)) : Nondecreasing clocks := by
  cases clock with
  | none => exact h
  | some t => exact (pairwise_cons.mp h).2

theorem Nondecreasing.head {t t' : T} (h : Nondecreasing (some t :: clocks))
    (ht : some t' ∈ some t :: clocks) : t ≤ t' := by
  obtain heq | ht := mem_cons.mp ht
  · exact (Option.some.inj heq).ge
  · exact (pairwise_cons.mp h).1 t' (mem_filterMap.mpr ⟨_, ht, rfl⟩)

/-- A table and a ledger agree on what is live at the readings of the calls to come, for the strings that
are used. A call is given by the strings that it is for and the reading of its clock. -/
structure Sim {κ κ' ι : Type} (key : ι → κ) (text : ι → κ') (used : Set ι) (table : κ → Option T)
    (ledger : Ledger κ' T) (calls : List (Option ι × Option T)) : Prop where
  clock : Nondecreasing (calls.map Prod.snd)
  strings : ∀ call ∈ calls, ∀ i, call.1 = some i → i ∈ used
  agree : ∀ i ∈ used, ∀ t, some t ∈ calls.map Prod.snd → (LiveAt table (key i) t ↔ ledger.Live (text i) t)

namespace Sim

variable {κ κ' ι : Type} {key : ι → κ} {text : ι → κ'} {used : Set ι} {table after : κ → Option T}
  {ledger : Ledger κ' T} {call : Option ι × Option T} {calls : List (Option ι × Option T)} {i : ι} {t e : T}

theorem empty (hclock : Nondecreasing (calls.map Prod.snd))
    (hstrings : ∀ call ∈ calls, ∀ i, call.1 = some i → i ∈ used) (htable : ∀ k, table k = none) :
    Sim key text used table [] calls :=
  ⟨hclock, hstrings, fun _ _ _ _ => by simp [LiveAt, Ledger.Live, htable]⟩

theorem mem {clock : Option T} (h : Sim key text used table ledger ((some i, clock) :: calls)) : i ∈ used :=
  h.strings _ (.head _) i rfl

theorem skip (h : Sim key text used table ledger (call :: calls)) : Sim key text used table ledger calls :=
  ⟨h.clock.tail, fun c hc => h.strings c (.tail _ hc),
    fun i hi t ht => h.agree i hi t (.tail _ ht)⟩

/-- A sweep at the time of the call. -/
theorem kept {c : Option ι} (h : Sim key text used table ledger ((c, some t) :: calls))
    (hkeeps : Keeps t table after) : (∀ i ∈ used, LiveAt after (key i) t ↔ ledger.Live (text i) t) ∧
      Sim key text used after ledger calls := by
  have hlive (i) (hi : i ∈ used) (t') (ht : some t' ∈ some t :: calls.map Prod.snd) :=
    (hkeeps (key i) t' (h.clock.head ht)).trans (h.agree i hi t' ht)
  exact ⟨fun i hi => hlive i hi t (.head _), h.clock.tail, h.skip.strings,
    fun i hi t' ht => hlive i hi t' (.tail _ ht)⟩

theorem recorded (hkey : ∀ i ∈ used, ∀ j ∈ used, key i = key j ↔ text i = text j)
    (h : Sim key text used table ledger ((some i, some t) :: calls))
    (hstores : Stores t (key i) e table after) : Sim key text used after ((text i, e) :: ledger) calls := by
  refine ⟨h.clock.tail, h.skip.strings, fun j hj t' ht => ?_⟩
  have ht := mem_cons_of_mem (some t) ht
  rw [hstores (key j) t' (h.clock.head ht), h.agree j hj t' ht, hkey j hj i h.mem]
  constructor
  · rintro (⟨e', hmem, hlt⟩ | ⟨htext, hlt⟩)
    · exact ⟨e', .tail _ hmem, hlt⟩
    · exact ⟨e, htext ▸ (.head _), hlt⟩
  · rintro ⟨e', hmem, hlt⟩
    rcases mem_cons.mp hmem with heq | hmem
    · rw [Prod.mk.injEq] at heq
      exact .inr ⟨heq.1, heq.2 ▸ hlt⟩
    · exact .inl ⟨e', hmem, hlt⟩

/-- The outcome of a recording. -/
theorem answered {S : Type} {tableOf : S → κ → Option T} {result : Option ReplayError × S}
    (hkey : ∀ i ∈ used, ∀ j ∈ used, key i = key j ↔ text i = text j)
    (h : Sim key text used table ledger ((some i, some t) :: calls))
    (hrecords : Records t (key i) e table tableOf result) :
    (∃ error next, result = (some error, next) ∧ error.isExhaustion = true ∧
        Sim key text used (tableOf next) ledger calls) ∨
      ∃ next, result = (none, next) ∧ Sim key text used (tableOf next) ((text i, e) :: ledger) calls := by
  obtain ⟨error, next, hresult, herror, hkeeps⟩ | ⟨next, hresult, hstores⟩ := hrecords
  · exact .inl ⟨error, next, hresult, herror, (h.kept hkeeps).2⟩
  · exact .inr ⟨next, hresult, h.recorded hkey hstores⟩

end Sim

theorem consumeAnswer_refused {error : ReplayError} (hlive : ¬ live)
    (herror : error.isExhaustion = true) : ConsumeAnswer live (.refused error) :=
  ⟨⟨nofun, fun h => absurd h hlive⟩, .inr (.inr ⟨error, rfl, herror⟩)⟩

theorem seenAnswer_answered {result : Bool} (h : result = true ↔ live) :
    SeenAnswer live (.answered result) := by
  cases result with
  | true => exact ⟨⟨fun _ => h.mp rfl, fun _ => rfl⟩, ⟨nofun, fun hno => absurd (h.mp rfl) hno⟩⟩
  | false => exact ⟨⟨nofun, fun hlive => absurd (h.mpr hlive) Bool.false_ne_true⟩,
      ⟨fun _ hlive => Bool.false_ne_true (h.mpr hlive), fun _ => rfl⟩⟩

namespace Bounded

/-- The `jti` of a call. -/
def Call.jti : Call T → Option Units
  | .consume jti _ => some jti
  | .seen jti => some jti
  | .remember jti _ => some jti
  | .size => none
  | .reset => none

/-- The strings that the calls of a run pass. -/
def stringsOf (events : List (Event T)) : Set Units := {jti | ∃ event ∈ events, event.call.jti = some jti}

/-- The cache and the ledger agree at the readings of the events to come. -/
abbrev Agrees (sha256 : Bytes → K) (used : Set Units) (set : EntrySet K T) (ledger : Ledger Str T)
    (events : List (Event T)) : Prop :=
  Sim (digestKey sha256) toWellFormed used set.entries.get ledger
    (events.map fun event => (event.call.jti, event.clock))

theorem sim_step {config : Config T} {sha256 : Bytes → K} {used : Set Units}
    (hhash : Set.InjOn sha256 (Set.image utf8Units used)) (set : EntrySet K T) (ledger : Ledger Str T)
    (event : Event T) (rest : List (Event T)) (h : Agrees sha256 used set ledger (event :: rest)) :
    (contract config).admits ledger event (respond config sha256 set event).1 ∧
      Agrees sha256 used (respond config sha256 set event).2
        ((contract config).next ledger event (respond config sha256 set event).1) rest := by
  have hkey : ∀ i ∈ used, ∀ j ∈ used, digestKey sha256 i = digestKey sha256 j ↔ _ := fun i hi j hj =>
    digestKey_eq_iff hhash hi hj
  obtain ⟨call, clock⟩ := event
  by_cases hrefused : ∃ jti, call.jti = some jti ∧ (jtiAccepted jti = false ∨ clock = none)
  · -- Without a reading nothing is promised; with one the `jti` is not accepted.
    obtain ⟨jti, hjti, hno⟩ := hrefused
    cases call with
    | size | reset => cases hjti
    | seen | consume | remember =>
      cases hjti
      obtain hno | rfl := hno
      · cases clock <;> simpa only [respond, contract, hno, Bool.false_eq_true, if_false, true_and] using h.skip
      · cases haccepted : jtiAccepted jti <;>
          simpa only [respond, startCall, contract, haccepted, Bool.false_eq_true, if_true, if_false,
            true_and] using h.skip
  have hpasses (jti) (hjti : call.jti = some jti) : jtiAccepted jti = true ∧ ∃ t, clock = some t := by
    simpa [Option.ne_none_iff_exists'] using fun hno => hrefused ⟨jti, hjti, hno⟩
  cases call with
  | reset => exact ⟨by cases clock <;> trivial, .empty h.skip.clock h.skip.strings fun _ => rfl⟩
  | size =>
    cases clock with
    | none => exact ⟨trivial, h.skip⟩
    | some t => exact ⟨trivial, (h.kept (keeps_sweepExpiredPrefix set)).2⟩
  | seen jti =>
    obtain ⟨haccepted, t, rfl⟩ := hpasses jti rfl
    obtain ⟨hlive, hrest⟩ := h.kept (keeps_sweepExpiredPrefix set)
    simp only [respond, haccepted, contract, if_true]
    exact ⟨seenAnswer_answered (isLive_eq_true.trans (hlive jti h.mem)), hrest⟩
  | consume jti ttlMs =>
    obtain ⟨haccepted, t, rfl⟩ := hpasses jti rfl
    obtain ⟨hlive, hrest⟩ := h.kept (keeps_sweepExpiredPrefix set)
    have hlive := isLive_eq_true.trans (hlive jti h.mem)
    simp only [respond, haccepted, startCall, contract, if_true]
    split_ifs with hfound
    · exact ⟨⟨iff_of_true rfl (hlive.mp hfound), .inl rfl⟩, hrest⟩
    · have hdead := mt hlive.mpr hfound
      obtain ⟨error, next, hrecord, herror, hnext⟩ | ⟨next, hrecord, hnext⟩ := h.answered hkey
        ((record_spec config (digestKey sha256 jti) ttlMs _).of_keeps (keeps_sweepExpiredPrefix set))
      · rw [hrecord]
        exact ⟨consumeAnswer_refused hdead herror, hnext⟩
      · rw [hrecord]
        rw [requestedExpiry_eq] at hnext
        exact ⟨⟨iff_of_false (by simp) hdead, .inr (.inl rfl)⟩, hnext⟩
  | remember jti ttlMs =>
    obtain ⟨haccepted, t, rfl⟩ := hpasses jti rfl
    simp only [respond, haccepted, startCall, contract]
    obtain ⟨error, next, hrecord, herror, hnext⟩ | ⟨next, hrecord, hnext⟩ := h.answered hkey
      ((record_spec config (digestKey sha256 jti) (legacyTtl config.numbers config.floorMs ttlMs) _).of_keeps
        (keeps_sweepExpiredPrefix set))
    · rw [hrecord]
      exact ⟨.inr ⟨error, rfl, herror⟩, hnext⟩
    · rw [hrecord]
      rw [requestedExpiry_legacyTtl] at hnext
      exact ⟨.inl rfl, hnext⟩

end Bounded

namespace Partitioned

/-- The digests of a caller and a `jti`. -/
def digests (sha256 : Bytes → K) (pair : Units × Units) : K × K :=
  (digestKey sha256 pair.1, digestKey sha256 pair.2)

/-- The texts of a caller and a `jti`. -/
def texts (pair : Units × Units) : Str × Str := (toWellFormed pair.1, toWellFormed pair.2)

/-- The strings that the calls of a run pass, of callers and of `jti`s. -/
def stringsOf (events : List (Event T)) : Set Units :=
  {text | ∃ event ∈ events, ∃ pair, event.call.pair = some pair ∧ (text = pair.1 ∨ text = pair.2)}

/-- The cache and the ledger agree at the readings of the events to come. -/
abbrev Agrees (sha256 : Bytes → K) (used : Set Units) (cache : Cache K T) (ledger : Ledger (Str × Str) T)
    (events : List (Event T)) : Prop :=
  Sim (digests sha256) texts (used ×ˢ used) cache.expiry ledger
    (events.map fun event => (event.call.pair, event.clock))

theorem sim_step {config : Config T} {sha256 : Bytes → K} {used : Set Units}
    (hhash : Set.InjOn sha256 (Set.image utf8Units used)) (cache : Cache K T)
    (ledger : Ledger (Str × Str) T) (event : Event T) (rest : List (Event T))
    (h : Agrees sha256 used cache ledger (event :: rest)) :
    (contract config).admits ledger event (respond config sha256 cache event).1 ∧
      Agrees sha256 used (respond config sha256 cache event).2
        ((contract config).next ledger event (respond config sha256 cache event).1) rest := by
  have hkey : ∀ i ∈ used ×ˢ used, ∀ j ∈ used ×ˢ used, digests sha256 i = digests sha256 j ↔
      texts i = texts j := fun i hi j hj => by
    simp only [digests, texts, Prod.mk.injEq, digestKey_eq_iff hhash hi.1 hj.1, digestKey_eq_iff hhash hi.2 hj.2]
  obtain ⟨call, clock⟩ := event
  by_cases hrefused : ∃ pair, call.pair = some pair ∧ (accepted pair.1 pair.2 = false ∨ clock = none)
  · -- Without a reading nothing is promised; with one the arguments are not accepted.
    obtain ⟨⟨caller, jti⟩, hpair, hno⟩ := hrefused
    cases call with
    | stats | reset => cases hpair
    | seen | consume | remember =>
      cases hpair
      cases hcaller : partitionKeyAccepted caller <;> cases hjti : jtiAccepted jti <;> cases clock
      all_goals
        first
        | simpa only [respond, startCall, contract, accepted, hcaller, hjti, Bool.false_and, Bool.and_false,
            Bool.false_eq_true, if_true, if_false, true_and, true_or, or_true] using h.skip
        | simp [accepted, hcaller, hjti] at hno
  have hpasses (caller jti) (hpair : call.pair = some (caller, jti)) : (partitionKeyAccepted caller = true ∧
      jtiAccepted jti = true) ∧ ∃ t, clock = some t := by
    simpa [Option.ne_none_iff_exists', accepted] using fun hno => hrefused ⟨_, hpair, hno⟩
  cases call with
  | stats => exact ⟨by cases clock <;> trivial, h.skip⟩
  | reset => exact ⟨by cases clock <;> trivial, .empty h.skip.clock h.skip.strings fun _ => rfl⟩
  | seen caller jti =>
    obtain ⟨⟨hcaller, hjti⟩, t, rfl⟩ := hpasses caller jti rfl
    obtain ⟨hlive, hrest⟩ := h.kept (keeps_currentPartition (digestKey sha256 caller) cache)
    simp only [respond, startCall, contract, accepted, hcaller, hjti, if_true]
    exact ⟨seenAnswer_answered (hasLive_eq_true.trans (hlive _ h.mem)), hrest⟩
  | consume caller jti ttlMs =>
    obtain ⟨⟨hcaller, hjti⟩, t, rfl⟩ := hpasses caller jti rfl
    have hcurrent := keeps_currentPartition (t := t) (digestKey sha256 caller) cache
    obtain ⟨hlive, hrest⟩ := h.kept hcurrent
    have hlive := hasLive_eq_true.trans (hlive _ h.mem)
    simp only [respond, startCall, contract, accepted, hcaller, hjti, Bool.and_self, if_true]
    split_ifs with hfound
    · exact ⟨⟨iff_of_true rfl (hlive.mp hfound), .inl rfl⟩, hrest⟩
    · have hdead := mt hlive.mpr hfound
      obtain ⟨error, next, hrecord, herror, hnext⟩ | ⟨next, hrecord, hnext⟩ := h.answered hkey
        ((record_spec config (digestKey sha256 caller) (digestKey sha256 jti) ttlMs _).of_keeps hcurrent)
      · rw [hrecord]
        exact ⟨consumeAnswer_refused hdead herror, hnext⟩
      · rw [hrecord]
        rw [requestedExpiry_eq] at hnext
        exact ⟨⟨iff_of_false (by simp) hdead, .inr (.inl rfl)⟩, hnext⟩
  | remember caller jti ttlMs =>
    obtain ⟨⟨hcaller, hjti⟩, t, rfl⟩ := hpasses caller jti rfl
    simp only [respond, startCall, contract, accepted, hcaller, hjti, if_true]
    obtain ⟨error, next, hrecord, herror, hnext⟩ | ⟨next, hrecord, hnext⟩ := h.answered hkey
      (record_spec config (digestKey sha256 caller) (digestKey sha256 jti)
        (legacyTtl config.numbers config.floorMs ttlMs) cache)
    · rw [hrecord]
      exact ⟨.inr ⟨error, rfl, herror⟩, hnext⟩
    · rw [hrecord]
      rw [requestedExpiry_legacyTtl] at hnext
      exact ⟨.inl rfl, hnext⟩

end Partitioned

/-! ## The refinement -/

/-- With a clock that does not go back, and as long as the hash does not collide on the strings of the
run, every run of either cache complies with its ledger. -/
theorem replay_caches_refine_ledger (sha256 : Bytes → K) :
    (∀ (config : Bounded.Config T) (events : List (Bounded.Event T)),
      Set.InjOn sha256 (Set.image utf8Units (Bounded.stringsOf events)) →
      Nondecreasing (events.map Bounded.Event.clock) → (Bounded.contract config).Complies []
          ((Bounded.cache config sha256).trace createEntrySet events)) ∧
      ∀ (config : Partitioned.Config T) (events : List (Partitioned.Event T)),
        Set.InjOn sha256 (Set.image utf8Units (Partitioned.stringsOf events)) →
        Nondecreasing (events.map Partitioned.Event.clock) → (Partitioned.contract config).Complies []
            ((Partitioned.cache config sha256).trace Partitioned.Cache.fresh events) := by
  refine ⟨fun config events hhash hclock => complies_of_simulation (Bounded.sim_step hhash) ?_,
    fun config events hhash hclock => complies_of_simulation (Partitioned.sim_step hhash) ?_⟩
  · refine .empty (by rwa [map_map]) (fun call hcall jti hjti => ?_) fun _ => rfl
    obtain ⟨event, hevent, rfl⟩ := mem_map.mp hcall
    exact ⟨event, hevent, hjti⟩
  · refine .empty (by rwa [map_map]) (fun call hcall pair hpair => ?_) fun _ => rfl
    obtain ⟨event, hevent, rfl⟩ := mem_map.mp hcall
    exact ⟨⟨event, hevent, pair, hpair, .inl rfl⟩, ⟨event, hevent, pair, hpair, .inr rfl⟩⟩

/-- A run that consumes a `jti`, sees it refused while it is live, and consumes it again later. -/
def consumedTwice : List (Partitioned.Event Int) :=
  [⟨.consume [97] [98] (some 10), some 0⟩, ⟨.consume [97] [98] (some 10), some 9⟩,
    ⟨.consume [97] [98] (some 10), some 10⟩]

theorem replay_caches_refine_ledger_consumedTwice :
    ((Partitioned.cache Partitioned.smallCache id).trace Partitioned.Cache.fresh consumedTwice).map Prod.snd =
        [.answered true, .answered false, .answered true] ∧
      (Partitioned.contract Partitioned.smallCache).Complies []
        ((Partitioned.cache Partitioned.smallCache id).trace Partitioned.Cache.fresh consumedTwice) := by
  refine ⟨by decide +kernel, ?_⟩
  exact (replay_caches_refine_ledger id).2 Partitioned.smallCache consumedTwice (Set.injOn_id _)
    (by unfold Nondecreasing consumedTwice; decide)

/-- Two different strings with a lone surrogate share one entry, so that the second one is refused
without ever having been recorded; and a string that is too long is refused for its length. -/
theorem lone_surrogates_share_an_entry : ([0xD800] : Units) ≠ [0xD801] ∧
      ((Partitioned.cache Partitioned.smallCache id).trace Partitioned.Cache.fresh
          [⟨.consume [97] [0xD800] (some 10), some 0⟩, ⟨.consume [97] [0xD801] (some 10), some 1⟩,
            ⟨.consume [97] (replicate 129 97) (some 10), some 2⟩]).map Prod.snd =
        [.answered true, .answered false, .refused jtiInvalid] := by
  exact ⟨by decide, by decide +kernel⟩

end Ploinky.Replay
