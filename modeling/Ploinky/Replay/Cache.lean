import Ploinky.Js.Utf16
import Ploinky.Lib.OrderedMap
import Ploinky.Lib.Responder

/-!
# The replay caches

The embedding of `replayCache.mjs`: the bounded cache of one issuer and the partitioned cache that many
callers share. An entry is live while its expiry is after the time read by the call; expired entries go
lazily, by a sweep of the expired prefix in every call and by throttled full sweeps before a refusal.
A call that throws keeps the changes it made before.

Times are any ordered numbers, with the platform's addition and subtraction as parameters, so that
nothing depends on how they round. Keys are the digests of strings.
-/

namespace Ploinky.Replay

open Js

/-- The numbers of the platform, with what the caches compute with them. -/
structure Numbers (T : Type) where
  one : T
  add : T → T → T
  sub : T → T → T
  /-- `SWEEP_INTERVAL_MS`. -/
  sweepInterval : T

/-- Whole milliseconds. -/
def milliseconds : Numbers Int := ⟨1, (· + ·), (· - ·), 1000⟩

/-- An error of the caches. -/
structure ReplayError where
  message : Str
  code : Str
  status : Option Nat
  deriving DecidableEq

/-- `REPLAY_CACHE_EXHAUSTED_CODE`. -/
def exhaustedCode : Str := lit "JWT_REPLAY_CACHE_EXHAUSTED"

/-- `REPLAY_QUOTA_EXHAUSTED_CODE`. -/
def quotaCode : Str := lit "PLOINKY_REPLAY_QUOTA_EXHAUSTED"

/-- `REPLAY_CLOCK_INVALID_CODE`. -/
def clockCode : Str := lit "PLOINKY_REPLAY_CLOCK_INVALID"

/-- `capacityExhausted(message)`. -/
def capacityExhausted (message : Str) : ReplayError := ⟨message, exhaustedCode, some 503⟩

/-- The default message of `capacityExhausted`. -/
def capacityMessage : Str := lit "replayCache: replay cache capacity exhausted"

/-- The refusal of a further partition. -/
def partitionsExhausted : ReplayError :=
  capacityExhausted "replayCache: replay cache partition table exhausted"

/-- The refusal of a caller whose quota is used up. -/
def quotaExhausted : ReplayError := ⟨lit "replayCache: replay quota exhausted", quotaCode, some 429⟩

/-- The refusal of a time that is not finite. -/
def clockInvalid : ReplayError :=
  ⟨lit "replayCache: clock returned a non-finite time", clockCode, some 503⟩

/-- The refusal of `assertJti`. -/
def jtiInvalid : ReplayError :=
  ⟨lit "replayCache: jti must be a string of at most 128 characters",
    lit "PLOINKY_REPLAY_JTI_INVALID", none⟩

/-- The refusal of `assertPartitionKey`. -/
def partitionKeyInvalid : ReplayError :=
  ⟨lit "replayCache: replay partition key is invalid", lit "PLOINKY_REPLAY_PARTITION_INVALID", none⟩

/-- `assertJti(jti)` passes. -/
def jtiAccepted (jti : Units) : Bool := jti.length ≤ 128

/-- `assertPartitionKey(key)` passes. -/
def partitionKeyAccepted (key : Units) : Bool := 0 < key.length && key.length ≤ 512

/-- A refusal for a quota or a capacity. -/
def ReplayError.isExhaustion (error : ReplayError) : Bool :=
  error.code == quotaCode || error.code == exhaustedCode

/-- What a call gives. -/
inductive Outcome where
  | answered (result : Bool)
  | remembered
  | counted (entries : Nat)
  | stats (partitions : Nat) (entries : Int)
  | cleared
  | refused (error : ReplayError)
  deriving DecidableEq

/-! ## One set of entries -/

section EntrySets

variable {K T : Type} [DecidableEq K] [LinearOrder T]

/-- A map from keys to expiries with the time of its last full sweep; no time stands for `-Infinity`. -/
structure EntrySet (K T : Type) where
  entries : OrderedMap K T
  lastFullSweepAt : Option T

/-- `createEntrySet()`. -/
def createEntrySet : EntrySet K T := ⟨.empty, none⟩

/-- `isLive(set, jti, currentTime)`. -/
def isLive (set : EntrySet K T) (jti : K) (currentTime : T) : Bool :=
  match set.entries.get jti with
  | some expiresAt => currentTime < expiresAt
  | none => false

/-- `sweepExpiredPrefix(set, currentTime)`. -/
def sweepExpiredPrefix (set : EntrySet K T) (currentTime : T) : EntrySet K T × Nat :=
  ({ set with entries := set.entries.dropWhile fun expiresAt => expiresAt ≤ currentTime },
    (set.entries.entries.takeWhile fun pair => pair.2 ≤ currentTime).length)

/-- `sweepAllExpired(set, currentTime)`. -/
def sweepAllExpired (set : EntrySet K T) (currentTime : T) : EntrySet K T × Nat :=
  ({ set with entries := set.entries.filter fun expiresAt => currentTime < expiresAt },
    set.entries.entries.countP fun pair => pair.2 ≤ currentTime)

variable (numbers : Numbers T)

/-- `currentTime - last < SWEEP_INTERVAL_MS`. -/
def sweptRecently (currentTime : T) (last : Option T) : Bool :=
  match last with
  | some last => numbers.sub currentTime last < numbers.sweepInterval
  | none => false

/-- `throttledSweep(set, currentTime)`. -/
def throttledSweep (set : EntrySet K T) (currentTime : T) : EntrySet K T × Nat :=
  if sweptRecently numbers currentTime set.lastFullSweepAt then (set, 0)
  else sweepAllExpired { set with lastFullSweepAt := some currentTime } currentTime

/-- `retentionMs(ttlMs)`. A `ttlMs` that is not a number counts as 1, and so does 0. -/
def retentionMs (ttlMs : Option T) : T :=
  match ttlMs with
  | some ttlMs => max numbers.one ttlMs
  | none => numbers.one

/-- The expiry that a recording asks for. -/
def requestedExpiry (ttlMs : Option T) (currentTime : T) : T :=
  numbers.add currentTime (retentionMs numbers ttlMs)

/-- `storeEntry(set, jti, ttlMs, currentTime)`. -/
def storeEntry (set : EntrySet K T) (jti : K) (ttlMs : Option T)
    (currentTime : T) : EntrySet K T × Nat :=
  let requested := requestedExpiry numbers ttlMs currentTime
  match set.entries.get jti with
  | some existing =>
    let expiresAt := if currentTime < existing then max existing requested else requested
    ({ set with entries := (set.entries.delete jti).set jti expiresAt }, 0)
  | none => ({ set with entries := (set.entries.delete jti).set jti requested }, 1)

/-- The `ttlMs` that `remember` passes on. -/
def legacyTtl (floorMs : T) (ttlMs : Option T) : Option T :=
  some (max (retentionMs numbers ttlMs) floorMs)

end EntrySets

/-- `digestKey(value)`, with the hash of the platform. -/
def digestKey {K : Type} (sha256 : Bytes → K) (value : Units) : K := sha256 (utf8Units value)

/-! ## The bounded cache -/

namespace Bounded

variable {K T : Type} [DecidableEq K] [LinearOrder T]

/-- The options of `createBoundedReplayCache`, validated. -/
structure Config (T : Type) where
  numbers : Numbers T
  maxSize : Nat
  maxSize_pos : 0 < maxSize
  floorMs : T

inductive Call (T : Type) where
  | consume (jti : Units) (ttlMs : Option T)
  | seen (jti : Units)
  | remember (jti : Units) (ttlMs : Option T)
  | size
  | reset

/-- A call with the reading of the clock; no reading is a time that is not finite. -/
structure Event (T : Type) where
  call : Call T
  clock : Option T

/-- `record(jti, ttlMs, currentTime)`. -/
def record (config : Config T) (jti : K) (ttlMs : Option T) (currentTime : T) (set : EntrySet K T) :
    Option ReplayError × EntrySet K T :=
  let store := fun set : EntrySet K T =>
    (none, (storeEntry config.numbers set jti ttlMs currentTime).1)
  if isLive set jti currentTime then store set
  else
    let set := { set with entries := set.entries.delete jti }
    if config.maxSize ≤ set.entries.size then
      let set := (throttledSweep config.numbers set currentTime).1
      if config.maxSize ≤ set.entries.size then (some (capacityExhausted capacityMessage), set)
      else store set
    else store set

/-- `startCall()`, then the rest of the call. -/
def startCall (clock : Option T) (set : EntrySet K T)
    (rest : T → EntrySet K T → Outcome × EntrySet K T) : Outcome × EntrySet K T :=
  match clock with
  | none => (.refused clockInvalid, set)
  | some currentTime => rest currentTime (sweepExpiredPrefix set currentTime).1

/-- A method of the cache. -/
def respond (config : Config T) (sha256 : Bytes → K) (set : EntrySet K T) (event : Event T) :
    Outcome × EntrySet K T :=
  match event.call with
  | .consume jti ttlMs =>
    if jtiAccepted jti then
      let key := digestKey sha256 jti
      startCall event.clock set fun currentTime set =>
        if isLive set key currentTime then (.answered false, set)
        else match record config key ttlMs currentTime set with
          | (some error, set) => (.refused error, set)
          | (none, set) => (.answered true, set)
    else (.refused jtiInvalid, set)
  | .seen jti =>
    if jtiAccepted jti then
      startCall event.clock set fun currentTime set =>
        (.answered (isLive set (digestKey sha256 jti) currentTime), set)
    else (.refused jtiInvalid, set)
  | .remember jti ttlMs =>
    if jtiAccepted jti then
      startCall event.clock set fun currentTime set =>
        match record config (digestKey sha256 jti) (legacyTtl config.numbers config.floorMs ttlMs)
            currentTime set with
        | (some error, set) => (.refused error, set)
        | (none, set) => (.remembered, set)
    else (.refused jtiInvalid, set)
  | .size => startCall event.clock set fun _ set => (.counted set.entries.size, set)
  | .reset => (.cleared, createEntrySet)

/-- `createBoundedReplayCache({ … })`. -/
def cache (config : Config T) (sha256 : Bytes → K) :
    Transition.Responder (EntrySet K T) (Event T) Outcome := ⟨respond config sha256⟩

end Bounded

/-! ## The partitioned cache -/

namespace Partitioned

variable {K T : Type} [DecidableEq K] [LinearOrder T]

/-- The options of `createPartitionedReplayCache`, validated. -/
structure Config (T : Type) where
  numbers : Numbers T
  perCallerMaxSize : Nat
  perCallerMaxSize_pos : 0 < perCallerMaxSize
  maxSize : Nat
  maxSize_pos : 0 < maxSize
  maxPartitions : Nat
  maxPartitions_pos : 0 < maxPartitions
  floorMs : T

/-- Room for two entries of each of two callers. -/
def smallCache : Config Int := ⟨milliseconds, 2, by decide, 4, by decide, 2, by decide, 0⟩

variable (config : Config T)

/-- `quota`. -/
def Config.quota : Nat := min config.perCallerMaxSize config.maxSize

/-- The variables of the cache. -/
structure Cache (K T : Type) where
  partitions : OrderedMap K (EntrySet K T)
  total : Int
  lastGlobalSweepAt : Option T

/-- The cache when it is created. -/
def Cache.fresh : Cache K T := ⟨.empty, 0, none⟩

inductive Call (T : Type) where
  | consume (caller jti : Units) (ttlMs : Option T)
  | seen (caller jti : Units)
  | remember (caller jti : Units) (ttlMs : Option T)
  | stats
  | reset

/-- A call with the reading of the clock; no reading is a time that is not finite. -/
structure Event (T : Type) where
  call : Call T
  clock : Option T

/-- `deleteIfEmpty(key, set)`, for the set of the key. -/
def deleteIfEmpty (key : K) (cache : Cache K T) : Cache K T :=
  match cache.partitions.get key with
  | some set =>
    if set.entries.size = 0 then { cache with partitions := cache.partitions.delete key } else cache
  | none => cache

/-- `pruneEmptyPartitions()`. -/
def pruneEmptyPartitions (cache : Cache K T) : Cache K T :=
  { cache with partitions := cache.partitions.filter fun set => set.entries.size ≠ 0 }

/-- `throttledGlobalSweep(currentTime)`. -/
def throttledGlobalSweep (numbers : Numbers T) (currentTime : T) (cache : Cache K T) : Cache K T :=
  if sweptRecently numbers currentTime cache.lastGlobalSweepAt then cache
  else
    { partitions := (cache.partitions.mapValues fun set => (sweepAllExpired set currentTime).1).filter
        fun set => set.entries.size ≠ 0
      total := cache.total - (cache.partitions.sum fun set => (sweepAllExpired set currentTime).2 : Nat)
      lastGlobalSweepAt := some currentTime }

/-- The set of a key after a sweep that returned the number of entries it deleted. -/
def applySweep (key : K) (swept : EntrySet K T × Nat) (cache : Cache K T) : Cache K T :=
  { cache with
    partitions := cache.partitions.set key swept.1
    total := cache.total - (swept.2 : Nat) }

/-- `currentPartition(key, currentTime)`; the partition is the one of the key afterwards. -/
def currentPartition (key : K) (currentTime : T) (cache : Cache K T) : Cache K T :=
  match cache.partitions.get key with
  | some set => deleteIfEmpty key (applySweep key (sweepExpiredPrefix set currentTime) cache)
  | none => cache

/-- `!partitions.has(key) && partitions.size >= partitionCapacity`. -/
def partitionsFull (key : K) (cache : Cache K T) : Bool :=
  (cache.partitions.get key).isNone && config.maxPartitions ≤ cache.partitions.size

/-- The part of `admitNewEntry` about the number of partitions. -/
def admitPartition (key : K) (currentTime : T) (cache : Cache K T) :
    Option ReplayError × Cache K T :=
  if partitionsFull config key cache then
    let cache := throttledGlobalSweep config.numbers currentTime (pruneEmptyPartitions cache)
    if partitionsFull config key cache then (some partitionsExhausted, cache) else (none, cache)
  else (none, cache)

/-- The part of `admitNewEntry` about the quota of the caller. -/
def admitQuota (key : K) (currentTime : T) (cache : Cache K T) :
    Option ReplayError × Cache K T :=
  match cache.partitions.get key with
  | some set =>
    if config.quota ≤ set.entries.size then
      let swept := throttledSweep config.numbers set currentTime
      let cache := applySweep key swept cache
      if config.quota ≤ swept.1.entries.size then (some quotaExhausted, cache)
      else (none, deleteIfEmpty key cache)
    else (none, cache)
  | none => (none, cache)

/-- The part of `admitNewEntry` about the capacity. -/
def admitTotal (currentTime : T) (cache : Cache K T) :
    Option ReplayError × Cache K T :=
  if (config.maxSize : Int) ≤ cache.total then
    let cache := throttledGlobalSweep config.numbers currentTime cache
    if (config.maxSize : Int) ≤ cache.total then (some (capacityExhausted capacityMessage), cache)
    else (none, cache)
  else (none, cache)

/-- `admitNewEntry(key, currentTime)`. -/
def admitNewEntry (key : K) (currentTime : T) (cache : Cache K T) :
    Option ReplayError × Cache K T :=
  match admitPartition config key currentTime cache with
  | (some error, cache) => (some error, cache)
  | (none, cache) =>
    match admitQuota config key currentTime cache with
    | (some error, cache) => (some error, cache)
    | (none, cache) => admitTotal config currentTime cache

/-- `existing.entries.delete(jti)` with its accounting. -/
def dropEntry (key jti : K) (cache : Cache K T) : Cache K T :=
  match cache.partitions.get key with
  | some existing =>
    if (existing.entries.get jti).isSome then
      deleteIfEmpty key
        (applySweep key ({ existing with entries := existing.entries.delete jti }, 1) cache)
    else cache
  | none => cache

/-- The end of `record`: the entry goes to the partition of the key, which may be new. -/
def insertEntry (key jti : K) (ttlMs : Option T) (currentTime : T)
    (cache : Cache K T) : Cache K T :=
  let set := (cache.partitions.get key).getD createEntrySet
  let stored := storeEntry config.numbers set jti ttlMs currentTime
  { cache with
    partitions := cache.partitions.set key stored.1
    total := cache.total + (stored.2 : Nat) }

/-- The key has a live entry for the `jti`. -/
def hasLive (key jti : K) (currentTime : T) (cache : Cache K T) : Bool :=
  match cache.partitions.get key with
  | some set => isLive set jti currentTime
  | none => false

/-- `record(key, jti, ttlMs, currentTime)`. -/
def record (key jti : K) (ttlMs : Option T) (currentTime : T)
    (cache : Cache K T) : Option ReplayError × Cache K T :=
  let cache := currentPartition key currentTime cache
  if hasLive key jti currentTime cache then
    -- The entry is there, so that the total does not change.
    (none, insertEntry config key jti ttlMs currentTime cache)
  else
    match admitNewEntry config key currentTime (dropEntry key jti cache) with
    | (some error, cache) => (some error, cache)
    | (none, cache) => (none, insertEntry config key jti ttlMs currentTime cache)

/-- The checks of `forCaller(callerKey)`, of the `jti` and of the clock, then the rest of the call. -/
def startCall (caller jti : Units) (clock : Option T) (cache : Cache K T)
    (rest : T → Outcome × Cache K T) : Outcome × Cache K T :=
  if partitionKeyAccepted caller then
    if jtiAccepted jti then
      match clock with
      | none => (.refused clockInvalid, cache)
      | some currentTime => rest currentTime
    else (.refused jtiInvalid, cache)
  else (.refused partitionKeyInvalid, cache)

/-- A method of the cache, on the view of a caller. -/
def respond (sha256 : Bytes → K) (cache : Cache K T) (event : Event T) :
    Outcome × Cache K T :=
  match event.call with
  | .consume caller jti ttlMs =>
    startCall caller jti event.clock cache fun currentTime =>
      let key := digestKey sha256 caller
      let entry := digestKey sha256 jti
      let cache := currentPartition key currentTime cache
      if hasLive key entry currentTime cache then (.answered false, cache)
      else match record config key entry ttlMs currentTime cache with
        | (some error, cache) => (.refused error, cache)
        | (none, cache) => (.answered true, cache)
  | .seen caller jti =>
    startCall caller jti event.clock cache fun currentTime =>
      let key := digestKey sha256 caller
      let cache := currentPartition key currentTime cache
      (.answered (hasLive key (digestKey sha256 jti) currentTime cache), cache)
  | .remember caller jti ttlMs =>
    startCall caller jti event.clock cache fun currentTime =>
      match record config (digestKey sha256 caller) (digestKey sha256 jti)
          (legacyTtl config.numbers config.floorMs ttlMs) currentTime cache with
      | (some error, cache) => (.refused error, cache)
      | (none, cache) => (.remembered, cache)
  | .stats => (.stats cache.partitions.size cache.total, cache)
  | .reset => (.cleared, Cache.fresh)

/-- `createPartitionedReplayCache({ … })`. -/
def cache (sha256 : Bytes → K) :
    Transition.Responder (Cache K T) (Event T) Outcome := ⟨respond config sha256⟩

end Partitioned

end Ploinky.Replay
