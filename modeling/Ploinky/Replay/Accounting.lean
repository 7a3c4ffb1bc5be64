import Ploinky.Replay.Liveness

/-!
# The accounting of the partitioned cache

The running total, the quotas and the table of partitions. Every operation before the insertion only
thins the table: no set grows, no partition appears, and the total falls by what was deleted. The
insertion finds room because the admission left it. Read `partitioned_cache_accounted` first.
-/

namespace Ploinky.Replay

open Js Expiry Transition OrderedMap List

open Option hiding map_map
open AssocList (keys)

namespace Partitioned

variable {K T : Type} {config : Config T} {key : K} {t : T} {cache next last : Cache K T}

/-! ## Sizes of one set -/

section Sizes

variable [LinearOrder T]

theorem size_sweepExpiredPrefix (set : EntrySet K T) (t : T) :
    (sweepExpiredPrefix set t).1.entries.size + (sweepExpiredPrefix set t).2 = set.entries.size := by
  have hsplit := takeWhile_append_dropWhile (p := fun pair : K × T => decide (pair.2 ≤ t))
    (l := set.entries.entries)
  have hlength := congrArg length hsplit
  rw [length_append] at hlength
  show (set.entries.entries.dropWhile _).length + (set.entries.entries.takeWhile _).length = _
  rw [Nat.add_comm]
  exact hlength

theorem size_sweepAllExpired (set : EntrySet K T) (t : T) :
    (sweepAllExpired set t).1.entries.size + (sweepAllExpired set t).2 = set.entries.size := by
  show (set.entries.entries.filter fun pair => decide (t < pair.2)).length +
    set.entries.entries.countP (fun pair => decide (pair.2 ≤ t)) = set.entries.entries.length
  rw [← countP_eq_length_filter, length_eq_countP_add_countP fun pair => decide (t < pair.2)]
  congr 2
  simp

theorem size_throttledSweep (numbers : Numbers T) (set : EntrySet K T) (t : T) :
    (throttledSweep numbers set t).1.entries.size + (throttledSweep numbers set t).2 = set.entries.size := by
  unfold throttledSweep
  split_ifs
  · rfl
  · exact size_sweepAllExpired { set with lastFullSweepAt := some t } t

theorem size_storeEntry [DecidableEq K] (numbers : Numbers T) (set : EntrySet K T) (jti : K) (ttlMs : Option T)
    (t : T) : (storeEntry numbers set jti ttlMs t).1.entries.size =
        set.entries.size + (storeEntry numbers set jti ttlMs t).2 ∧
      (storeEntry numbers set jti ttlMs t).2 ≤ 1 := by
  have habsent : (set.entries.delete jti).get jti = none := by
    rw [get_delete, if_pos rfl]
  unfold storeEntry
  cases hget : set.entries.get jti with
  | none =>
    rw [size_set_of_none habsent, delete_of_get hget]
    exact ⟨rfl, Nat.le_refl 1⟩
  | some existing =>
    rw [size_set_of_none habsent, size_delete_of_get hget]
    exact ⟨rfl, Nat.zero_le 1⟩

end Sizes

/-! ## Thinning the table -/

variable {set : EntrySet K T} {swept : EntrySet K T × Nat} {sha256 : Bytes → K}

section Tables

variable [DecidableEq K]

/-- The number of entries of all partitions. -/
def Cache.entryCount (cache : Cache K T) : Nat := cache.partitions.sum fun set => set.entries.size

/-- The running total is the number of entries. -/
def Balanced (cache : Cache K T) : Prop := cache.total = cache.entryCount

/-- No set grows, no partition appears and the total does not rise; the balance is kept. -/
structure Thins (cache next : Cache K T) : Prop where
  keys : (keys next.partitions.entries).Sublist (keys cache.partitions.entries)
  sizes : ∀ key set, next.partitions.get key = some set →
    ∃ old, cache.partitions.get key = some old ∧ set.entries.size ≤ old.entries.size
  total : next.total ≤ cache.total
  balanced : Balanced cache → Balanced next

/-- Every partition except possibly one has entries. -/
def NonemptyBut (key : Option K) (cache : Cache K T) : Prop :=
  ∀ other set, cache.partitions.get other = some set → key ≠ some other → set.entries.size ≠ 0

theorem thins_refl (cache : Cache K T) : Thins cache cache :=
  ⟨List.Sublist.refl _, fun _ set hset => ⟨set, hset, Nat.le_refl _⟩, le_rfl, id⟩

theorem Thins.trans (h : Thins cache next) (h' : Thins next last) : Thins cache last where
  keys := h'.keys.trans h.keys
  sizes key set hset := by
    obtain ⟨middle, hmiddle, hle⟩ := h'.sizes key set hset
    obtain ⟨old, hold, hle'⟩ := h.sizes key middle hmiddle
    exact ⟨old, hold, Nat.le_trans hle hle'⟩
  total := le_trans h'.total h.total
  balanced := h'.balanced ∘ h.balanced

theorem thins_applySweep (hget : cache.partitions.get key = some set)
    (hsize : swept.1.entries.size + swept.2 = set.entries.size) :
    Thins cache (applySweep key swept cache) where
  keys := by
    have hmem : key ∈ keys cache.partitions.entries := by
      by_contra hno
      rw [OrderedMap.get, AssocList.lookup_eq_none_iff.mpr hno] at hget
      cases hget
    show (keys (AssocList.set cache.partitions.entries (key, swept.1))).Sublist _
    rw [AssocList.keys_set, if_pos hmem]
  sizes other found hfound := by
    rw [applySweep, get_set] at hfound
    by_cases hkey : other = key
    · rw [if_pos hkey] at hfound
      refine ⟨set, hkey ▸ hget, ?_⟩
      rw [← some.inj hfound]
      omega
    · rw [if_neg hkey] at hfound
      exact ⟨found, hfound, Nat.le_refl _⟩
  total := by
    show cache.total - (swept.2 : Int) ≤ cache.total
    omega
  balanced h := by
    have hsum := sum_set_of_get hget swept.1 fun set => set.entries.size
    have htotal : cache.total = cache.entryCount := h
    unfold Cache.entryCount at htotal
    show cache.total - (swept.2 : Int) =
      ((cache.partitions.set key swept.1).sum fun set => set.entries.size : Nat)
    omega

theorem nonemptyBut_applySweep (h : NonemptyBut none cache) (swept : EntrySet K T × Nat) :
    NonemptyBut (some key) (applySweep key swept cache) := by
  intro other set hset hne
  have hother : ¬ other = key := fun heq => hne (congrArg some heq.symm)
  rw [applySweep, get_set, if_neg hother] at hset
  exact h other set hset (some_ne_none _).symm

theorem thins_deleteIfEmpty (key : K) (cache : Cache K T) : Thins cache (deleteIfEmpty key cache) := by
  unfold deleteIfEmpty
  cases hget : cache.partitions.get key with
  | none => exact thins_refl cache
  | some set =>
    dsimp only
    split_ifs with hempty
    · refine ⟨filter_sublist.map _, fun other found hfound => ?_, le_rfl, fun h => ?_⟩
      · rw [get_delete] at hfound
        split_ifs at hfound with hkey
        exact ⟨found, hfound, Nat.le_refl _⟩
      · have hsum := sum_delete_of_get hget fun set => set.entries.size
        have htotal : cache.total = cache.entryCount := h
        unfold Cache.entryCount at htotal
        show cache.total = ((cache.partitions.delete key).sum fun set => set.entries.size : Nat)
        omega
    · exact thins_refl cache

theorem nonempty_deleteIfEmpty (h : NonemptyBut (some key) cache) :
    NonemptyBut none (deleteIfEmpty key cache) := by
  intro other set hset _
  unfold deleteIfEmpty at hset
  by_cases hkey : other = key
  · subst hkey
    cases hget : cache.partitions.get other with
    | none => simp [hget] at hset
    | some found =>
      simp only [hget] at hset
      split_ifs at hset with hempty
      · rw [get_delete, if_pos rfl] at hset
        cases hset
      · rw [hget] at hset
        exact some.inj hset ▸ hempty
  · refine h other set ?_ fun heq => hkey (some.inj heq).symm
    cases hget : cache.partitions.get key with
    | none => simpa [hget] using hset
    | some found =>
      simp only [hget] at hset
      split_ifs at hset with hempty
      · rwa [get_delete, if_neg hkey] at hset
      · exact hset

/-- Nothing grows, and no partition is left without entries. -/
structure Trims (cache next : Cache K T) : Prop extends Thins cache next where
  nonempty : NonemptyBut none cache → NonemptyBut none next

theorem trims_refl (cache : Cache K T) : Trims cache cache := ⟨thins_refl cache, id⟩

theorem Trims.trans (h : Trims cache next) (h' : Trims next last) : Trims cache last :=
  ⟨h.toThins.trans h'.toThins, h'.nonempty ∘ h.nonempty⟩

/-- A swept set is put back, or its partition goes. -/
theorem trims_swept (hget : cache.partitions.get key = some set)
    (hsize : swept.1.entries.size + swept.2 = set.entries.size) :
    Trims cache (deleteIfEmpty key (applySweep key swept cache)) :=
  ⟨(thins_applySweep hget hsize).trans (thins_deleteIfEmpty key _), fun h =>
    nonempty_deleteIfEmpty (nonemptyBut_applySweep h swept)⟩

theorem nonempty_filter (partitions : OrderedMap K (EntrySet K T)) (total : Int) (last : Option T) :
    NonemptyBut none ⟨partitions.filter fun set => set.entries.size ≠ 0, total, last⟩ := by
  intro other set hset _
  exact of_decide_eq_true (get_filter_eq_some_iff.mp hset).2

theorem trims_pruneEmptyPartitions (cache : Cache K T) : Trims cache (pruneEmptyPartitions cache) where
  nonempty _ := nonempty_filter _ _ _
  keys := filter_sublist.map _
  sizes _ set hset := ⟨set, (get_filter_eq_some_iff.mp hset).1, Nat.le_refl _⟩
  total := le_rfl
  balanced h := by
    have hsum : (pruneEmptyPartitions cache).entryCount = cache.entryCount := by
      show ((cache.partitions.filter fun set => set.entries.size ≠ 0).sum fun set => _) = _
      refine sum_filter fun set hset => ?_
      simpa using hset
    unfold Balanced
    rw [hsum]
    exact h

theorem Thins.size_le (h : Thins cache next) : next.partitions.size ≤ cache.partitions.size := by
  simpa [size] using h.keys.length_le

theorem trims_dropEntry (key jti : K) (cache : Cache K T) : Trims cache (dropEntry key jti cache) := by
  unfold dropEntry
  cases hget : cache.partitions.get key with
  | none => exact trims_refl cache
  | some existing =>
    dsimp only
    split_ifs with hfound
    · obtain ⟨e, he⟩ := isSome_iff_exists.mp hfound
      exact trims_swept hget (size_delete_of_get he)
    · exact trims_refl cache

/-! ## The invariant -/

/-- The table is accounted for: the total is right, no partition is empty, and every bound holds. -/
structure Accounted (config : Config T) (cache : Cache K T) : Prop where
  balanced : Balanced cache
  nonempty : NonemptyBut none cache
  quota : ∀ key set, cache.partitions.get key = some set → set.entries.size ≤ config.quota
  capacity : cache.total ≤ config.maxSize
  partitions : cache.partitions.size ≤ config.maxPartitions

theorem Accounted.trims (h : Accounted config cache) (htrims : Trims cache next) : Accounted config next where
  balanced := htrims.balanced h.balanced
  nonempty := htrims.nonempty h.nonempty
  quota key set hset := by
    obtain ⟨old, hold, hle⟩ := htrims.sizes key set hset
    exact Nat.le_trans hle (h.quota key old hold)
  capacity := le_trans htrims.total h.capacity
  partitions := Nat.le_trans htrims.size_le h.partitions

theorem accounted_fresh (config : Config T) : Accounted config (Cache.fresh : Cache K T) where
  balanced := rfl
  nonempty _ _ hset _ := by cases hset
  quota _ _ hset := by cases hset
  capacity := Int.natCast_nonneg _
  partitions := Nat.zero_le _

/-- The number of entries of a partition that may be missing. -/
def Cache.sizeOf (cache : Cache K T) (key : K) : Nat :=
  ((cache.partitions.get key).getD createEntrySet).entries.size

theorem Cache.sizeOf_none (h : cache.partitions.get key = none) : cache.sizeOf key = 0 := by
  rw [Cache.sizeOf, h]
  rfl

theorem Cache.sizeOf_some (h : cache.partitions.get key = some set) :
    cache.sizeOf key = set.entries.size := by
  rw [Cache.sizeOf, h]
  rfl

/-- There is room for a partition of the key. -/
def PartitionRoom (config : Config T) (key : K) (cache : Cache K T) : Prop :=
  cache.partitions.get key = none → cache.partitions.size < config.maxPartitions

/-- A thinner table has room where there was room: a partition that went leaves its place. -/
theorem PartitionRoom.thins (h : PartitionRoom config key cache) (hcache : Accounted config cache)
    (hthins : Thins cache next) : PartitionRoom config key next := by
  intro hnone
  by_cases hbefore : cache.partitions.get key = none
  · exact Nat.lt_of_le_of_lt hthins.size_le (h hbefore)
  · exact Nat.lt_of_lt_of_le (size_lt_of_sublist hthins.keys hbefore hnone)
      hcache.partitions

/-- There is room in the partition of the key. -/
def QuotaRoom (config : Config T) (key : K) (cache : Cache K T) : Prop :=
  ∀ set, cache.partitions.get key = some set → set.entries.size < config.quota

theorem QuotaRoom.thins (h : QuotaRoom config key cache) (hthins : Thins cache next) :
    QuotaRoom config key next := by
  intro set hset
  obtain ⟨old, hold, hle⟩ := hthins.sizes key set hset
  exact Nat.lt_of_le_of_lt hle (h old hold)

end Tables

variable [DecidableEq K] [LinearOrder T]

theorem trims_throttledGlobalSweep (numbers : Numbers T) (t : T) (cache : Cache K T) :
    Trims cache (throttledGlobalSweep numbers t cache) := by
  unfold throttledGlobalSweep
  split_ifs with hrecent
  · exact trims_refl cache
  refine ⟨⟨?_, fun other set hset => ?_, ?_, fun h => ?_⟩, fun _ => nonempty_filter _ _ _⟩
  · have hkeys : keys (cache.partitions.mapValues fun set =>
        (sweepAllExpired set t).1).entries = keys cache.partitions.entries := by
      simp only [OrderedMap.mapValues, map_map]
      rfl
    rw [← hkeys]
    exact filter_sublist.map _
  · have hmapped := (get_filter_eq_some_iff.mp hset).1
    rw [get_mapValues, map_eq_some_iff] at hmapped
    obtain ⟨old, hold, rfl⟩ := hmapped
    have hsize := size_sweepAllExpired old t
    exact ⟨old, hold, by omega⟩
  · show cache.total - (_ : Int) ≤ cache.total
    omega
  · have hsum : (cache.partitions.sum fun set => (sweepAllExpired set t).1.entries.size) +
        (cache.partitions.sum fun set => (sweepAllExpired set t).2) = cache.entryCount := by
      refine List.sum_map_add.symm.trans (congrArg List.sum (List.map_congr_left fun pair _ => ?_))
      exact size_sweepAllExpired pair.2 t
    have htotal : cache.total = cache.entryCount := h
    show cache.total - _ = _
    unfold Cache.entryCount
    rw [sum_filter fun set hset => by simpa using hset, sum_mapValues]
    omega

theorem trims_currentPartition (key : K) (t : T) (cache : Cache K T) :
    Trims cache (currentPartition key t cache) := by
  unfold currentPartition
  cases hget : cache.partitions.get key with
  | none => exact trims_refl cache
  | some set => exact trims_swept hget (size_sweepExpiredPrefix set t)

/-! ## The admission -/

/-- A step of the admission trims the table, and leaves room when it does not refuse. -/
structure Clears (cache : Cache K T) (result : Option ReplayError × Cache K T)
    (room : Cache K T → Prop) : Prop where
  trims : Trims cache result.2
  room : result.1 = none → room result.2

theorem clears_admitPartition (key : K) (t : T) (cache : Cache K T) :
    Clears cache (admitPartition config key t cache) (PartitionRoom config key) := by
  have htrims := (trims_pruneEmptyPartitions cache).trans
    (trims_throttledGlobalSweep config.numbers t (pruneEmptyPartitions cache))
  have hroom : ∀ cache : Cache K T, ¬ partitionsFull config key cache = true →
      PartitionRoom config key cache := by
    intro cache hfull hnone
    by_contra hsize
    exact hfull (by simp [partitionsFull, hnone, Nat.le_of_not_lt hsize])
  unfold admitPartition
  dsimp only
  split_ifs with hfull hstill
  · exact ⟨htrims, fun h => by cases h⟩
  · exact ⟨htrims, fun _ => hroom _ hstill⟩
  · exact ⟨trims_refl cache, fun _ => hroom _ hfull⟩

theorem clears_admitQuota (h : Accounted config cache) (key : K) (t : T) :
    Clears cache (admitQuota config key t cache) (QuotaRoom config key) := by
  unfold admitQuota
  cases hget : cache.partitions.get key with
  | none =>
    refine ⟨trims_refl cache, fun _ set hset => ?_⟩
    cases hget.symm.trans hset
  | some set =>
    have hsize := size_throttledSweep config.numbers set t
    have hthins := thins_applySweep hget hsize
    dsimp only
    split_ifs with hfull hstill
    · -- The quota is positive, so that a set that still fills it has entries.
      refine ⟨⟨hthins, fun _ other found hfound _ => ?_⟩, nofun⟩
      by_cases hkey : other = key
      · rw [applySweep, get_set, if_pos hkey] at hfound
        have hpos : 0 < config.quota :=
          lt_min config.perCallerMaxSize_pos config.maxSize_pos
        rw [← some.inj hfound]
        omega
      · exact nonemptyBut_applySweep h.nonempty _ other found hfound
          fun heq => hkey (some.inj heq).symm
    · refine ⟨trims_swept hget hsize, fun _ => ?_⟩
      refine QuotaRoom.thins (fun found hfound => ?_) (thins_deleteIfEmpty key _)
      rw [applySweep, get_set, if_pos rfl] at hfound
      rw [← some.inj hfound]
      omega
    · refine ⟨trims_refl cache, fun _ found hfound => ?_⟩
      rw [hget] at hfound
      rw [← some.inj hfound]
      omega

theorem clears_admitTotal (t : T) (cache : Cache K T) :
    Clears cache (admitTotal config t cache) fun cache => cache.total < config.maxSize := by
  have htrims := trims_throttledGlobalSweep config.numbers t cache
  unfold admitTotal
  dsimp only
  split_ifs with hfull hstill
  · exact ⟨htrims, nofun⟩
  · exact ⟨htrims, fun _ => lt_of_not_ge hstill⟩
  · exact ⟨trims_refl cache, fun _ => lt_of_not_ge hfull⟩

/-- After an admission there is room for the entry. -/
theorem admitNewEntry_spec (h : Accounted config cache) (key : K) (t : T) :
    Accounted config (admitNewEntry config key t cache).2 ∧ ((admitNewEntry config key t cache).1 = none →
        PartitionRoom config key (admitNewEntry config key t cache).2 ∧
          QuotaRoom config key (admitNewEntry config key t cache).2 ∧
          (admitNewEntry config key t cache).2.total < config.maxSize) := by
  unfold admitNewEntry
  have hfirst := @clears_admitPartition _ _ config _ _ key t cache
  generalize admitPartition config key t cache = first at hfirst ⊢
  have h₁ := h.trims hfirst.trims
  obtain ⟨error | error, cache₁⟩ := first
  · have hsecond := clears_admitQuota h₁ key t
    dsimp only
    generalize admitQuota config key t cache₁ = second at hsecond ⊢
    have h₂ := h₁.trims hsecond.trims
    obtain ⟨error | error, cache₂⟩ := second
    · have hthird := @clears_admitTotal _ _ config _ _ t cache₂
      refine ⟨h₂.trims hthird.trims, fun hnone => ⟨?_, ?_, hthird.room hnone⟩⟩
      · exact ((hfirst.room rfl).thins h₁ hsecond.trims.toThins).thins h₂ hthird.trims.toThins
      · exact (hsecond.room rfl).thins hthird.trims.toThins
    · exact ⟨h₂, nofun⟩
  · exact ⟨h₁, nofun⟩

/-! ## The insertion -/

theorem size_storeEntry_ne_zero (numbers : Numbers T) (set : EntrySet K T) (jti : K)
    (ttlMs : Option T) (t : T) : (storeEntry numbers set jti ttlMs t).1.entries.size ≠ 0 := by
  have habsent : (set.entries.delete jti).get jti = none := by
    rw [get_delete, if_pos rfl]
  unfold storeEntry
  cases set.entries.get jti with
  | none | some =>
    rw [size_set_of_none habsent]
    omega

omit [LinearOrder T] in
/-- A set of the key with more entries, where the bounds allow them. -/
theorem Accounted.stored (h : Accounted config cache) {stored : EntrySet K T × Nat}
    (hsize : stored.1.entries.size = cache.sizeOf key + stored.2) (hne : stored.1.entries.size ≠ 0)
    (hquota : stored.1.entries.size ≤ config.quota) (htotal : cache.total + stored.2 ≤ config.maxSize)
    (hpartition : PartitionRoom config key cache) : Accounted config { cache with
      partitions := cache.partitions.set key stored.1
      total := cache.total + stored.2 } := by
  have hbalanced : cache.total = (cache.partitions.sum fun set => set.entries.size : Nat) := h.balanced
  refine ⟨?_, fun other set hset _ => ?_, fun other set hset => ?_, htotal, ?_⟩
  · show cache.total + (stored.2 : Int) =
      ((cache.partitions.set key stored.1).sum fun set => set.entries.size : Nat)
    cases hget : cache.partitions.get key with
    | none =>
      have hsum := sum_set_of_none hget stored.1 fun set => set.entries.size
      rw [Cache.sizeOf_none hget] at hsize
      omega
    | some set =>
      have hsum := sum_set_of_get hget stored.1 fun set => set.entries.size
      rw [Cache.sizeOf_some hget] at hsize
      omega
  · rw [get_set] at hset
    split_ifs at hset with hkey
    · rwa [← some.inj hset]
    · exact h.nonempty other set hset (some_ne_none _).symm
  · rw [get_set] at hset
    split_ifs at hset with hkey
    · rwa [← some.inj hset]
    · exact h.quota other set hset
  · show (cache.partitions.set key stored.1).size ≤ config.maxPartitions
    cases hget : cache.partitions.get key with
    | none =>
      rw [size_set_of_none hget]
      exact hpartition hget
    | some set =>
      rw [size_set_of_get hget]
      exact h.partitions

/-- A new entry where the admission left room. -/
theorem Accounted.inserted (h : Accounted config cache) (jti : K) (ttlMs : Option T)
    (hpartition : PartitionRoom config key cache) (hquota : QuotaRoom config key cache)
    (htotal : cache.total < config.maxSize) :
    Accounted config (insertEntry config key jti ttlMs t cache) := by
  obtain ⟨hsize, hle⟩ := size_storeEntry config.numbers
    ((cache.partitions.get key).getD createEntrySet) jti ttlMs t
  refine h.stored hsize (size_storeEntry_ne_zero _ _ _ _ _) ?_ (by omega) hpartition
  have hpos : 0 < config.quota := lt_min config.perCallerMaxSize_pos config.maxSize_pos
  have hroom : cache.sizeOf key < config.quota := by
    cases hget : cache.partitions.get key with
    | none =>
      rw [Cache.sizeOf_none hget]
      exact hpos
    | some set =>
      rw [Cache.sizeOf_some hget]
      exact hquota set hget
  unfold Cache.sizeOf at hroom
  omega

/-- An entry that is live already is stored again without a change of any size. -/
theorem Accounted.restored (h : Accounted config cache) {jti : K} (ttlMs : Option T)
    (hlive : hasLive key jti t cache = true) :
    Accounted config (insertEntry config key jti ttlMs t cache) := by
  obtain ⟨e, hexpiry, -⟩ := hasLive_eq_true.mp hlive
  obtain ⟨set, hget, he⟩ := bind_eq_some_iff.mp hexpiry
  obtain ⟨hsize, -⟩ := size_storeEntry config.numbers
    ((cache.partitions.get key).getD createEntrySet) jti ttlMs t
  have hzero : (storeEntry config.numbers ((cache.partitions.get key).getD createEntrySet) jti
      ttlMs t).2 = 0 := by
    rw [hget, getD_some, storeEntry, he]
  refine h.stored hsize (size_storeEntry_ne_zero _ _ _ _ _) ?_ ?_ fun hnone => ?_
  · rw [hsize, hzero, hget]
    exact h.quota key set hget
  · have hcapacity := h.capacity
    omega
  · rw [hget] at hnone
    cases hnone

theorem Accounted.record (h : Accounted config cache) (key jti : K) (ttlMs : Option T) (t : T) :
    Accounted config (record config key jti ttlMs t cache).2 := by
  have hcurrent := h.trims (trims_currentPartition key t cache)
  unfold Partitioned.record
  dsimp only
  split_ifs with hlive
  · exact hcurrent.restored ttlMs hlive
  · have hdropped := hcurrent.trims (trims_dropEntry key jti _)
    obtain ⟨hadmitted, hroom⟩ := admitNewEntry_spec hdropped key t
    generalize admitNewEntry config key t (dropEntry key jti (currentPartition key t cache)) = result
      at hadmitted hroom ⊢
    obtain ⟨error | error, next⟩ := result
    · obtain ⟨hpartition, hquota, htotal⟩ := hroom rfl
      exact hadmitted.inserted jti ttlMs hpartition hquota htotal
    · exact hadmitted

/-! ## Every call -/

theorem Accounted.works (h : Accounted config cache) (hworks : Works config key t cache next) :
    Accounted config next := by
  have hcurrent := h.trims (trims_currentPartition key t cache)
  cases hworks with
  | looked => exact hcurrent
  | recorded jti ttlMs => exact h.record key jti ttlMs t
  | lookedRecorded jti ttlMs => exact hcurrent.record key jti ttlMs t

theorem accounted_respond (cache : Cache K T) (event : Event T) (h : Accounted config cache) :
    Accounted config (respond config sha256 cache event).2 := by
  rcases respond_cases config sha256 cache event with
    hsame | ⟨-, hfresh⟩ | ⟨caller, jti, t, -, -, hworks⟩
  · rw [hsame]
    exact h
  · rw [hfresh]
    exact accounted_fresh config
  · exact h.works hworks

/-- A call of a caller removes no live entry, and touches the live entries of no other caller. -/
theorem live_respond {event : Event T} {caller jti : Units} {k : K × K} {e : T}
    (hpair : event.call.pair = some (caller, jti)) (hclock : event.clock = some t)
    (hentry : cache.expiry k = some e) (hlive : t < e) :
    ∃ e', (respond config sha256 cache event).2.expiry k = some e' ∧ e ≤ e' ∧
      (k.1 ≠ digestKey sha256 caller → e' = e) := by
  rcases respond_cases config sha256 cache event with
    hsame | ⟨hreset, -⟩ | ⟨caller', jti', t', hpair', hclock', hworks⟩
  · rw [hsame]
    exact ⟨e, hentry, le_rfl, fun _ => rfl⟩
  · rw [hreset] at hpair
    cases hpair
  · rw [hpair] at hpair'
    rw [hclock] at hclock'
    cases hpair'
    cases hclock'
    rcases hworks.live with hkeeps | ⟨stored, until_, hstores⟩
    · exact ⟨e, hkeeps.expiry_eq hentry hlive, le_rfl, fun _ => rfl⟩
    · obtain ⟨e', he', hle⟩ := hstores.exists_le hentry hlive
      refine ⟨e', he', hle, fun hother => ?_⟩
      have hne : k ≠ (digestKey sha256 caller, stored) := fun hk => hother (congrArg Prod.fst hk)
      have hsame := hstores.expiry_eq hne hentry hlive
      rw [he'] at hsame
      exact some.inj hsame

/-- After any calls the total is the number of entries, no partition is empty and all bounds hold; and
a further call of one caller removes no live entry of another. -/
theorem partitioned_cache_accounted (config : Config T) (sha256 : Bytes → K) (events : List (Event T)) :
    (((Partitioned.cache config sha256).after Cache.fresh events).total =
        ((Partitioned.cache config sha256).after Cache.fresh events).entryCount ∧ (∀ key set,
        ((Partitioned.cache config sha256).after Cache.fresh events).partitions.get key = some set →
          0 < set.entries.size ∧ set.entries.size ≤ min config.perCallerMaxSize config.maxSize) ∧
      ((Partitioned.cache config sha256).after Cache.fresh events).total ≤ config.maxSize ∧
      ((Partitioned.cache config sha256).after Cache.fresh events).partitions.size ≤ config.maxPartitions) ∧
    ∀ (event : Event T) (caller jti other : Units) (entry : K) (t e : T),
      event.call.pair = some (caller, jti) → event.clock = some t →
      ((Partitioned.cache config sha256).after Cache.fresh events).expiry
          (digestKey sha256 other, entry) = some e → t < e →
      ∃ e', ((Partitioned.cache config sha256).after Cache.fresh (events ++ [event])).expiry
          (digestKey sha256 other, entry) = some e' ∧ e ≤ e' ∧
        (digestKey sha256 other ≠ digestKey sha256 caller → e' = e) := by
  have h := @Responder.invariant_after _ _ _ (Partitioned.cache config sha256) (Accounted config)
    accounted_respond _ (accounted_fresh config) events
  refine ⟨⟨h.balanced, fun key set hset => ?_, h.capacity, h.partitions⟩, ?_⟩
  · exact ⟨Nat.pos_of_ne_zero (h.nonempty key set hset nofun), h.quota key set hset⟩
  · intro event caller jti other entry t e hpair hclock hentry hlive
    rw [Responder.after_concat]
    exact live_respond hpair hclock hentry hlive

/-- Two callers with one entry each, after the second one used up its quota and was refused. -/
def twoCallers : List (Event Int) :=
  [⟨.consume [97] [1] (some 50), some 0⟩, ⟨.consume [98] [1] (some 20), some 5⟩,
    ⟨.consume [98] [2] (some 20), some 6⟩, ⟨.consume [98] [3] (some 20), some 7⟩]

theorem partitioned_cache_accounted_twoCallers :
    ((Partitioned.cache smallCache id).trace Cache.fresh twoCallers).map Prod.snd =
        [.answered true, .answered true, .answered true, .refused quotaExhausted] ∧
      ((Partitioned.cache smallCache id).after Cache.fresh twoCallers).total = 3 ∧
      ∃ e', ((Partitioned.cache smallCache id).after Cache.fresh
          (twoCallers ++ [⟨.consume [98] [3] (some 20), some 30⟩])).expiry
            (digestKey id [97], digestKey id [1]) = some e' ∧ 50 ≤ e' := by
  refine ⟨by decide +kernel, by decide +kernel, ?_⟩
  obtain ⟨e', hexpiry, hle, -⟩ := (partitioned_cache_accounted smallCache id twoCallers).2
    ⟨.consume [98] [3] (some 20), some 30⟩ [98] [3] [97] (digestKey id [1]) 30 50 rfl rfl
    (by decide +kernel) (by decide)
  exact ⟨e', hexpiry, hle⟩

end Partitioned

end Ploinky.Replay
