import Ploinky.Lib.Expiry
import Ploinky.Replay.Cache

/-!
# What is live after each operation

Every operation of the caches either keeps what is live from the time of the call on, or adds one
recording to it. The sweeps, the deletions of partitions and the refusals are all of the first kind.
-/

namespace Ploinky.Replay

open Js Expiry OrderedMap List Option

variable {K T : Type} [DecidableEq K] [LinearOrder T] {t : T}

/-! ## One set of entries -/

theorem isLive_eq_true {set : EntrySet K T} {jti : K} :
    isLive set jti t = true ↔ LiveAt set.entries.get jti t := by
  unfold isLive LiveAt
  cases set.entries.get jti <;> simp

theorem keeps_sweepExpiredPrefix (set : EntrySet K T) :
    Keeps t set.entries.get (sweepExpiredPrefix set t).1.entries.get := by
  refine keeps_of_removed (fun k e h => ?_) fun k e h hlt => ?_
  · exact get_eq_some_iff.mpr ((dropWhile_sublist _).subset (get_eq_some_iff.mp h))
  · exact get_dropWhile_of_get h (decide_eq_false hlt.not_ge)

theorem keeps_sweepAllExpired (set : EntrySet K T) :
    Keeps t set.entries.get (sweepAllExpired set t).1.entries.get := by
  refine keeps_of_removed (fun k e h => ?_) fun k e h hlt => ?_
  · exact (get_filter_eq_some_iff.mp h).1
  · exact get_filter_eq_some_iff.mpr ⟨h, decide_eq_true hlt⟩

theorem keeps_throttledSweep (numbers : Numbers T) (set : EntrySet K T) :
    Keeps t set.entries.get (throttledSweep numbers set t).1.entries.get := by
  unfold throttledSweep
  split_ifs
  · exact keeps_refl _ _
  · exact keeps_sweepAllExpired { set with lastFullSweepAt := some t }

/-- Deleting an entry that is not live keeps what is live. -/
theorem keeps_delete {m : OrderedMap K T} {jti : K} (hdead : ¬ LiveAt m.get jti t) :
    Keeps t m.get (m.delete jti).get := by
  refine keeps_of_removed (fun k e h => ?_) fun k e h hlt => ?_
  · rw [get_delete] at h
    split_ifs at h
    exact h
  · rw [get_delete, if_neg fun hk : k = jti => hdead ⟨e, hk ▸ h, hlt⟩]
    exact h

/-- The entry has the later one of its live expiry and the requested one. -/
theorem stores_storeEntry (numbers : Numbers T) (set : EntrySet K T) (jti : K) (ttlMs : Option T) :
    Stores t jti (requestedExpiry numbers ttlMs t) set.entries.get
      (storeEntry numbers set jti ttlMs t).1.entries.get := by
  intro k t' ht
  have hother : ∀ e, k ≠ jti →
      (((set.entries.delete jti).set jti e).get k = set.entries.get k) := by
    intro e hk
    rw [get_set, if_neg hk, get_delete, if_neg hk]
  have hself : ∀ e, ((set.entries.delete jti).set jti e).get jti = some e := by
    intro e
    rw [get_set, if_pos rfl]
  by_cases hk : k = jti
  · subst hk
    unfold storeEntry LiveAt
    cases hget : set.entries.get k with
    | none => simp [hself]
    | some existing =>
      by_cases hlive : t < existing
      · simp [hself, hlive]
      · have hexpired : ¬ t' < existing := fun hlt => hlive (ht.trans_lt hlt)
        simp [hself, hlive, hexpired]
  · unfold storeEntry LiveAt
    cases hget : set.entries.get jti <;> simp [hother _ hk, hk]

/-- A recording is refused for exhaustion and keeps what is live, or stores the entry. -/
def Records {κ S : Type} (t : T) (key : κ) (e : T) (before : κ → Option T) (table : S → κ → Option T)
    (result : Option ReplayError × S) : Prop :=
  (∃ error next, result = (some error, next) ∧ error.isExhaustion = true ∧ Keeps t before (table next)) ∨
    ∃ next, result = (none, next) ∧ Stores t key e before (table next)

section Records

variable {κ S : Type} {key : κ} {e : T} {first before : κ → Option T} {table : S → κ → Option T}
  {result : Option ReplayError × S}

theorem Records.of_keeps (h : Records t key e before table result) (hkeeps : Keeps t first before) :
    Records t key e first table result := by
  obtain ⟨error, next, hresult, herror, hkept⟩ | ⟨next, hresult, hstores⟩ := h
  · exact .inl ⟨error, next, hresult, herror, hkeeps.trans hkept⟩
  · exact .inr ⟨next, hresult, hkeeps.stores hstores⟩

theorem Records.live (h : Records t key e before table result) :
    Keeps t before (table result.2) ∨ Stores t key e before (table result.2) := by
  obtain ⟨error, next, rfl, -, hkeeps⟩ | ⟨next, rfl, hstores⟩ := h
  · exact .inl hkeeps
  · exact .inr hstores

end Records

theorem Bounded.record_spec (config : Bounded.Config T) (jti : K) (ttlMs : Option T) (set : EntrySet K T) :
    Records t jti (requestedExpiry config.numbers ttlMs t) set.entries.get (fun next => next.entries.get)
      (Bounded.record config jti ttlMs t set) := by
  unfold Bounded.record
  by_cases hlive : isLive set jti t = true
  · rw [if_pos hlive]
    exact .inr ⟨_, rfl, stores_storeEntry _ _ _ _⟩
  · have hdelete := keeps_delete (mt isLive_eq_true.mpr hlive)
    have hswept : Keeps t set.entries.get (throttledSweep config.numbers
        { set with entries := set.entries.delete jti } t).1.entries.get :=
      hdelete.trans (keeps_throttledSweep _ _)
    dsimp only
    split_ifs
    · exact .inl ⟨_, _, rfl, by decide, hswept⟩
    · exact .inr ⟨_, rfl, hswept.stores (stores_storeEntry _ _ _ _)⟩
    · exact .inr ⟨_, rfl, hdelete.stores (stores_storeEntry _ { set with entries := _ } _ _)⟩

/-! ## The table of partitions -/

namespace Partitioned

/-- The expiry of an entry of a partition. -/
def Cache.expiry (cache : Cache K T) (key : K × K) : Option T :=
  (cache.partitions.get key.1).bind fun set => set.entries.get key.2

variable {config : Config T} {key : K} {cache : Cache K T}

theorem hasLive_eq_true {jti : K} : hasLive key jti t cache = true ↔ LiveAt cache.expiry (key, jti) t := by
  unfold hasLive
  cases hget : cache.partitions.get key with
  | none => simp [LiveAt, Cache.expiry, hget]
  | some set => rw [isLive_eq_true]; simp [LiveAt, Cache.expiry, hget]

omit [LinearOrder T] in
/-- A set without entries has no expiries. -/
theorem get_of_size_eq_zero {set : EntrySet K T} (h : set.entries.size = 0) (jti : K) :
    set.entries.get jti = none := by
  unfold OrderedMap.get
  rw [eq_nil_of_length_eq_zero h]
  rfl

omit [LinearOrder T] in
theorem expiry_deleteIfEmpty (key : K) (cache : Cache K T) :
    (deleteIfEmpty key cache).expiry = cache.expiry := by
  unfold deleteIfEmpty
  cases hget : cache.partitions.get key with
  | none => rfl
  | some set =>
    dsimp only
    split_ifs with hsize
    · funext other
      unfold Cache.expiry
      rw [get_delete]
      by_cases hkey : other.1 = key
      · rw [if_pos hkey, hkey, hget]
        exact (get_of_size_eq_zero hsize other.2).symm
      · rw [if_neg hkey]
    · rfl

omit [LinearOrder T] in
/-- Partitions without entries may go. -/
theorem expiry_filter_nonempty (partitions : OrderedMap K (EntrySet K T)) (total : Int) (last : Option T) :
    Cache.expiry ⟨partitions.filter fun set => set.entries.size ≠ 0, total, last⟩ =
      Cache.expiry ⟨partitions, total, last⟩ := by
  funext other
  unfold Cache.expiry
  cases hget : partitions.get other.1 with
  | none =>
    cases hfiltered : (partitions.filter fun set => set.entries.size ≠ 0).get other.1 with
    | none => rfl
    | some set => cases hget.symm.trans (get_filter_eq_some_iff.mp hfiltered).1
  | some set =>
    by_cases hsize : set.entries.size = 0
    · cases hfiltered : (partitions.filter fun set => set.entries.size ≠ 0).get other.1 with
      | none => exact (get_of_size_eq_zero hsize other.2).symm
      | some found =>
        have hfound := (get_filter_eq_some_iff.mp hfiltered).1
        rw [hget] at hfound
        rw [some.inj hfound]
    · rw [get_filter_eq_some_iff.mpr ⟨hget, decide_eq_true hsize⟩]

/-- Replacing the set of a key by one with the same live entries. -/
theorem keeps_applySweep {set : EntrySet K T} (hget : cache.partitions.get key = some set)
    {swept : EntrySet K T × Nat} (hkeeps : Keeps t set.entries.get swept.1.entries.get) :
    Keeps t cache.expiry (applySweep key swept cache).expiry := by
  intro other t' ht
  have hexpiry : (applySweep key swept cache).expiry other =
      if other.1 = key then swept.1.entries.get other.2 else cache.expiry other := by
    simp only [Cache.expiry, applySweep, get_set]
    split_ifs <;> rfl
  by_cases hkey : other.1 = key
  · rw [LiveAt, LiveAt, hexpiry, if_pos hkey, Cache.expiry, hkey, hget]
    exact hkeeps other.2 t' ht
  · rw [LiveAt, LiveAt, hexpiry, if_neg hkey]

theorem keeps_currentPartition (key : K) (cache : Cache K T) :
    Keeps t cache.expiry (currentPartition key t cache).expiry := by
  unfold currentPartition
  cases hget : cache.partitions.get key with
  | none => exact keeps_refl _ _
  | some set =>
    rw [expiry_deleteIfEmpty]
    exact keeps_applySweep hget (keeps_sweepExpiredPrefix set)

theorem keeps_throttledGlobalSweep (numbers : Numbers T) (cache : Cache K T) :
    Keeps t cache.expiry (throttledGlobalSweep numbers t cache).expiry := by
  unfold throttledGlobalSweep
  split_ifs
  · exact keeps_refl _ _
  · rw [expiry_filter_nonempty]
    intro other t' ht
    cases hget : cache.partitions.get other.1 with
    | none => simp [LiveAt, Cache.expiry, get_mapValues, hget]
    | some set =>
      simp only [LiveAt, Cache.expiry, get_mapValues, hget, map_some,
        bind_some]
      exact keeps_sweepAllExpired set other.2 t' ht

theorem keeps_pruneEmptyPartitions (cache : Cache K T) :
    Keeps t cache.expiry (pruneEmptyPartitions cache).expiry := by
  unfold pruneEmptyPartitions
  rw [expiry_filter_nonempty]
  exact keeps_refl _ _

/-- A step of the admission: what is live is kept, and a refusal is one for exhaustion. -/
def Admits (t : T) (cache : Cache K T) (result : Option ReplayError × Cache K T) : Prop :=
  Keeps t cache.expiry result.2.expiry ∧ ∀ error, result.1 = some error → error.isExhaustion = true

theorem admits_admitPartition (config : Config T) (key : K) (cache : Cache K T) :
    Admits t cache (admitPartition config key t cache) := by
  have hswept : Keeps t cache.expiry
      (throttledGlobalSweep config.numbers t (pruneEmptyPartitions cache)).expiry :=
    (keeps_pruneEmptyPartitions cache).trans (keeps_throttledGlobalSweep _ _)
  unfold admitPartition
  dsimp only
  split_ifs
  · refine ⟨hswept, fun error herror => ?_⟩
    cases herror
    decide
  · exact ⟨hswept, nofun⟩
  · exact ⟨keeps_refl _ _, nofun⟩

theorem admits_admitQuota (config : Config T) (key : K) (cache : Cache K T) :
    Admits t cache (admitQuota config key t cache) := by
  unfold admitQuota
  cases hget : cache.partitions.get key with
  | none => exact ⟨keeps_refl _ _, nofun⟩
  | some set =>
    have hswept := keeps_applySweep hget (keeps_throttledSweep (t := t) config.numbers set)
    dsimp only
    split_ifs
    · refine ⟨hswept, fun error herror => ?_⟩
      cases herror
      decide
    · refine ⟨?_, nofun⟩
      rw [expiry_deleteIfEmpty]
      exact hswept
    · exact ⟨keeps_refl _ _, nofun⟩

theorem admits_admitTotal (config : Config T) (cache : Cache K T) :
    Admits t cache (admitTotal config t cache) := by
  unfold admitTotal
  dsimp only
  split_ifs
  · refine ⟨keeps_throttledGlobalSweep _ cache, fun error herror => ?_⟩
    cases herror
    decide
  · exact ⟨keeps_throttledGlobalSweep _ cache, nofun⟩
  · exact ⟨keeps_refl _ _, nofun⟩

theorem admits_admitNewEntry (config : Config T) (key : K) (cache : Cache K T) :
    Admits t cache (admitNewEntry config key t cache) := by
  unfold admitNewEntry
  have hfirst := admits_admitPartition (t := t) config key cache
  generalize admitPartition config key t cache = first at hfirst ⊢
  obtain ⟨error | error, cache₁⟩ := first
  · have hsecond := admits_admitQuota (t := t) config key cache₁
    dsimp only
    generalize admitQuota config key t cache₁ = second at hsecond ⊢
    obtain ⟨error | error, cache₂⟩ := second
    · have hthird := admits_admitTotal (t := t) config cache₂
      exact ⟨(hfirst.1.trans hsecond.1).trans hthird.1, hthird.2⟩
    · exact ⟨hfirst.1.trans hsecond.1, hsecond.2⟩
  · exact hfirst

theorem keeps_dropEntry {jti : K} (hdead : ¬ LiveAt cache.expiry (key, jti) t) :
    Keeps t cache.expiry (dropEntry key jti cache).expiry := by
  unfold dropEntry
  cases hget : cache.partitions.get key with
  | none => exact keeps_refl _ _
  | some existing =>
    dsimp only
    split_ifs
    · rw [expiry_deleteIfEmpty]
      refine keeps_applySweep hget (keeps_delete fun hlive => hdead ?_)
      simpa only [LiveAt, Cache.expiry, hget, bind_some] using hlive
    · exact keeps_refl _ _

theorem stores_insertEntry (config : Config T) (key jti : K) (ttlMs : Option T) (cache : Cache K T) :
    Stores t (key, jti) (requestedExpiry config.numbers ttlMs t) cache.expiry
      (insertEntry config key jti ttlMs t cache).expiry := by
  intro other t' ht
  obtain ⟨key', jti'⟩ := other
  have hstored := stores_storeEntry (t := t) config.numbers
    ((cache.partitions.get key).getD createEntrySet) jti ttlMs jti' t' ht
  have hbefore : LiveAt ((cache.partitions.get key).getD createEntrySet).entries.get jti' t' ↔
      LiveAt cache.expiry (key, jti') t' := by
    unfold LiveAt Cache.expiry
    cases cache.partitions.get key <;> simp [createEntrySet]
  by_cases hkey : key' = key
  · subst hkey
    have hafter : LiveAt (insertEntry config key' jti ttlMs t cache).expiry (key', jti') t' ↔
        LiveAt (storeEntry config.numbers ((cache.partitions.get key').getD createEntrySet) jti ttlMs
          t).1.entries.get jti' t' := by
      simp only [LiveAt, Cache.expiry, insertEntry, get_set, if_true, bind_some]
    rw [hafter, hstored, hbefore]
    simp
  · simp [LiveAt, Cache.expiry, insertEntry, get_set, hkey]

theorem record_spec (config : Config T) (key jti : K) (ttlMs : Option T) (cache : Cache K T) :
    Records t (key, jti) (requestedExpiry config.numbers ttlMs t) cache.expiry Cache.expiry
      (record config key jti ttlMs t cache) := by
  have hcurrent := keeps_currentPartition (t := t) key cache
  unfold record
  dsimp only
  split_ifs with hlive
  · exact .inr ⟨_, rfl, hcurrent.stores (stores_insertEntry _ _ _ _ _)⟩
  · have hdrop := hcurrent.trans (keeps_dropEntry (mt hasLive_eq_true.mpr hlive))
    have hadmit := admits_admitNewEntry (t := t) config key
      (dropEntry key jti (currentPartition key t cache))
    generalize admitNewEntry config key t (dropEntry key jti (currentPartition key t cache)) = result
      at hadmit ⊢
    obtain ⟨error | error, next⟩ := result
    · exact .inr ⟨_, rfl, (hdrop.trans hadmit.1).stores (stores_insertEntry _ _ _ _ _)⟩
    · exact .inl ⟨error, next, rfl, hadmit.2 error rfl, hdrop.trans hadmit.1⟩

/-! ## Every call -/

/-- The caller and the `jti` of a call. -/
def Call.pair : Call T → Option (Units × Units)
  | .consume caller jti _ => some (caller, jti)
  | .seen caller jti => some (caller, jti)
  | .remember caller jti _ => some (caller, jti)
  | .stats => none
  | .reset => none

/-- What a call of a caller may do with the table, at its time. -/
inductive Works (config : Config T) (key : K) (t : T) (cache : Cache K T) : Cache K T → Prop where
  | looked : Works config key t cache (currentPartition key t cache)
  | recorded (jti : K) (ttlMs : Option T) : Works config key t cache (record config key jti ttlMs t cache).2
  | lookedRecorded (jti : K) (ttlMs : Option T) :
      Works config key t cache (record config key jti ttlMs t (currentPartition key t cache)).2

/-- A call leaves the table alone, clears it, or works for its caller at the time it reads. -/
theorem respond_cases (config : Config T) (sha256 : Bytes → K) (cache : Cache K T) (event : Event T) :
    (respond config sha256 cache event).2 = cache ∨
      event.call = .reset ∧ (respond config sha256 cache event).2 = Cache.fresh ∨
      ∃ caller jti t, event.call.pair = some (caller, jti) ∧ event.clock = some t ∧
        Works config (digestKey sha256 caller) t cache (respond config sha256 cache event).2 := by
  obtain ⟨call, clock⟩ := event
  have hstart : ∀ (caller jti : Units) (body : T → Outcome × Cache K T),
      (startCall caller jti clock cache body).2 = cache ∨
        ∃ t, clock = some t ∧ (startCall caller jti clock cache body).2 = (body t).2 := by
    intro caller jti body
    unfold startCall
    split_ifs
    · cases clock with
      | none => exact .inl rfl
      | some t => exact .inr ⟨t, rfl, rfl⟩
    · exact .inl rfl
    · exact .inl rfl
  cases call with
  | stats => exact .inl rfl
  | reset => exact .inr (.inl ⟨rfl, rfl⟩)
  | seen caller jti =>
    refine (hstart caller jti _).imp_right fun ⟨t, hclock, hbody⟩ =>
      .inr ⟨caller, jti, t, rfl, hclock, ?_⟩
    unfold respond
    rw [hbody]
    exact .looked
  | consume caller jti ttlMs =>
    refine (hstart caller jti _).imp_right fun ⟨t, hclock, hbody⟩ =>
      .inr ⟨caller, jti, t, rfl, hclock, ?_⟩
    unfold respond
    rw [hbody]
    dsimp only
    split_ifs
    · exact .looked
    · have hrecorded : Works config (digestKey sha256 caller) t cache _ :=
        .lookedRecorded (digestKey sha256 jti) ttlMs
      generalize record config (digestKey sha256 caller) (digestKey sha256 jti) ttlMs t
        (currentPartition (digestKey sha256 caller) t cache) = result at hrecorded ⊢
      obtain ⟨error | error, next⟩ := result <;> exact hrecorded
  | remember caller jti ttlMs =>
    refine (hstart caller jti _).imp_right fun ⟨t, hclock, hbody⟩ =>
      .inr ⟨caller, jti, t, rfl, hclock, ?_⟩
    unfold respond
    rw [hbody]
    have hrecorded : Works config (digestKey sha256 caller) t cache _ :=
      .recorded (digestKey sha256 jti) (legacyTtl config.numbers config.floorMs ttlMs)
    generalize record config (digestKey sha256 caller) (digestKey sha256 jti)
      (legacyTtl config.numbers config.floorMs ttlMs) t cache = result at hrecorded ⊢
    obtain ⟨error | error, next⟩ := result <;> exact hrecorded

/-- A caller's work keeps what is live, and may record an entry of its own. -/
theorem Works.live {next : Cache K T} (h : Works config key t cache next) :
    Keeps t cache.expiry next.expiry ∨ ∃ jti e, Stores t (key, jti) e cache.expiry next.expiry := by
  have hcurrent := keeps_currentPartition (t := t) key cache
  cases h with
  | looked => exact .inl hcurrent
  | recorded jti ttlMs => exact (record_spec config key jti ttlMs cache).live.imp_right fun h => ⟨jti, _, h⟩
  | lookedRecorded jti ttlMs =>
    exact ((record_spec config key jti ttlMs _).of_keeps hcurrent).live.imp_right fun h => ⟨jti, _, h⟩

end Partitioned

end Ploinky.Replay
