import Ploinky.Edge.Generation
import Ploinky.Hardware.Availability
import Ploinky.Js.JsonText

/-!
# The documents of the hardware-availability store

The embedding of the validators of `hardwareAvailabilityStore`: the policy with its committed entries
and its slots of launches that are still running, and the witness that records the initialisation of
the store. A document is verified as it was written, so every reader recomputes the revision.
-/

namespace Ploinky.Hardware

open Js Edge List

/-- What a validator throws: a `ShapeError`, or the `RangeError` of a time beyond the range of dates,
which the readers do not catch. -/
inductive Violation where
  | shape (message : Str)
  | range
  deriving DecidableEq

/-- `shape(condition, message)`. -/
def shape (condition : Bool) (message : Str) : Except Violation Unit :=
  if condition then .ok () else .error (.shape message)

/-- A sequence of checks succeeds when each of them does. -/
theorem shape_bind_eq_ok {α : Type} {condition : Bool} {message : Str}
    {next : Unit → Except Violation α} {value : α} :
    (shape condition message >>= next) = .ok value ↔ condition = true ∧ next () = .ok value := by
  cases condition <;> simp [shape, bind, Except.bind]

/-- `text.length`, in UTF-16 code units. -/
def utf16Length (text : Str) : Nat := (text.flatMap codeUnits).length

variable (value : Option Json)

/-- `exactOwnKeys(value, keys, label)`. -/
def exactOwnKeys (keys : List Str) (label : Str) : Except Violation Unit := do
  let object := value.getD .null
  shape object.isObject (label ++ lit " must be an object")
  shape (object.keys.all fun key => !reservedObjectKeys.contains key && keys.contains key)
    (label ++ lit " has an unsupported field")
  shape (keys.all fun key => object.keys.contains key) (label ++ lit " is missing a required field")

/-- The check of `identityText(value, label, pattern)`. -/
def isIdentity (pattern : Str → Bool) : Option Json → Bool
  | some (.str text) =>
    text == trim text && decide (0 < utf16Length text) && decide (utf16Length text ≤ 1024) &&
      pattern text
  | _ => false

/-- `identityText(value, label, pattern)`. -/
def identityText (label : Str) (pattern : Str → Bool) :
    Except Violation Unit :=
  shape (isIdentity pattern value) (label ++ lit " is not one exact canonical identity value")

/-- The patterns `/^[A-Za-z0-9][…]*$/` with further characters in the class. -/
def isSafeName (extra : List Char) : Str → Bool
  | [] => false
  | c :: rest => isAlnum c && rest.all fun d => isAlnum d || extra.contains d

/-- `SAFE_CONTAINER`. -/
def isSafeContainer : Str → Bool := isSafeName ['.', '_', '-']

/-- `SAFE_OPAQUE_IDENTITY`. -/
def isSafeOpaqueIdentity : Str → Bool := isSafeName ['.', '_', ':', '-']

/-- `SAFE_AGENT_IDENTITY`. -/
def isSafeAgentIdentity (text : Str) : Bool :=
  !text.isEmpty && text.all fun c =>
    c != '/' && c != ':' && !isSpace c && !(c.toNat ≤ 0x1F || (0x7F ≤ c.toNat && c.toNat ≤ 0x9F))

/-- Text of a given number of lower-case hexadecimal digits. -/
def isHex (length : Nat) (text : Str) : Bool := text.length == length && text.all isLowerHex

/-- `NO_WAIT_RUN_ID_PATTERN`, for a text that is its own `exactRunId`. -/
def isRunId (text : Str) : Bool :=
  match split text '-' with
  | [a, b, c, d, e] =>
    isHex 8 a && isHex 4 b && isHex 4 c && c.head? == some '4' && isHex 4 d &&
      d.head?.any (fun v => ['8', '9', 'a', 'b'].contains v) && isHex 12 e
  | _ => false

/-- `canonicalRunId(value, label)`. -/
def canonicalRunId (label : Str) : Except Violation Unit :=
  shape ((value.bind Json.str?).any isRunId) (label ++ lit " must be one exact canonical UUID")

/-- `publishedInteger(value, label, { minimum, maximum })`. -/
def publishedInteger (label : Str) (minimum : Nat := 0)
    (maximum : Nat := 2 ^ 53 - 1) : Except Violation Unit :=
  shape ((value.bind Json.natural).any fun n => minimum ≤ n && n ≤ maximum && n ≤ 2 ^ 53 - 1)
    (label ++ lit " must be one exact published integer")

/-- `routeKeyText(value, label)`. -/
def routeKeyText (routeKey label : Str) : Except Violation Unit := do
  shape (!reservedObjectKeys.contains routeKey) (label ++ lit " is not a valid route key")
  identityText (some (.str routeKey)) label isSafeAgentIdentity

/-- The text of a string property, empty when it is none. -/
def textAt (key : Str) : Str :=
  ((value.bind (·.prop key)).bind Json.str?).getD []

/-- `${key}.${runId}.json`. -/
def statusFileName (key runId : Str) : Str := key ++ '.' :: runId ++ lit ".json"

/-- `MAX_NO_WAIT_WAVE_INDEX`. -/
def maxNoWaitWaveIndex : Nat := 1023

/-- The fields of an entry. -/
def entryKeys : List Str := ["projection", "source"]

/-- The fields of the source of an entry. -/
def sourceKeys : List Str :=
  ["kind", "runId", "runStartedAtMs", "waveIndex", "statusFile", "finishedAtMs"]

/-- The fields of a slot. -/
def slotKeys : List Str :=
  ["key", "instanceId", "enableGeneration", "runId", "runStartedAtMs", "waveIndex", "statusFile",
    "startupGraceMs"]

/-- `validateEntry(routeKey, entry)`. -/
def validateEntry (platform : Platform) (routeKey : Str) (entry : Json) : Except Violation Unit := do
  let label := lit "entry '" ++ routeKey ++ lit "'"
  exactOwnKeys (some entry) entryKeys label
  let projection := entry.prop "projection"
  shape ((validateAvailabilityProjection platform (projection.getD .null)).toOption.isSome)
    (label ++ lit " projection is invalid")
  identityText (projection.bind (·.prop "key")) (label ++ lit " key") isSafeContainer
  let source := entry.prop "source"
  exactOwnKeys source sourceKeys (label ++ lit " source")
  let field := fun name : Str => source.bind (·.prop name)
  shape (isStr (field "kind") "no-wait-terminal") (label ++ lit " source kind is unsupported")
  canonicalRunId (field "runId") (label ++ lit " run id")
  publishedInteger (field "runStartedAtMs") (label ++ lit " run start")
  publishedInteger (field "waveIndex") (label ++ lit " wave index") 0 maxNoWaitWaveIndex
  publishedInteger (field "finishedAtMs") (label ++ lit " finish time") 1
  shape (isStr (field "statusFile")
      (statusFileName (textAt projection "key") (textAt source "runId")))
    (label ++ lit " status file is not the exact run-scoped file")
  -- a finish time beyond the range of dates makes `toISOString` throw
  match platform.toISOString (((field "finishedAtMs").bind Json.natural).getD 0) with
  | none => .error .range
  | some finished =>
    shape (isStr (projection.bind (·.prop "observedAt")) finished)
      (label ++ lit " observedAt is not its finish time")

/-- `validateSlot(routeKey, slot)`. -/
def validateSlot (routeKey : Str) (slot : Json) : Except Violation Unit := do
  let label := lit "slot '" ++ routeKey ++ lit "'"
  exactOwnKeys (some slot) slotKeys label
  identityText (slot.prop "key") (label ++ lit " key") isSafeContainer
  identityText (slot.prop "instanceId") (label ++ lit " instance id") isSafeOpaqueIdentity
  identityText (slot.prop "enableGeneration") (label ++ lit " enable generation")
    isSafeOpaqueIdentity
  shape (!strictEq (slot.prop "instanceId") (slot.prop "enableGeneration"))
    (label ++ lit " instance id and enable generation must be distinct")
  canonicalRunId (slot.prop "runId") (label ++ lit " run id")
  publishedInteger (slot.prop "runStartedAtMs") (label ++ lit " run start")
  publishedInteger (slot.prop "waveIndex") (label ++ lit " wave index") 0 maxNoWaitWaveIndex
  shape (isStr (slot.prop "statusFile")
      (statusFileName (textAt (some slot) "key") (textAt (some slot) "runId")))
    (label ++ lit " status file is not the exact run-scoped file")
  publishedInteger (slot.prop "startupGraceMs") (label ++ lit " startup grace") 0 300000

/-- The checks of the entries, in enumeration order. -/
def validateEntries (platform : Platform) : List (Str × Json) → Except Violation Unit
  | [] => .ok ()
  | (routeKey, entry) :: rest => do
      routeKeyText routeKey "entry route key"
      validateEntry platform routeKey entry
      validateEntries platform rest

/-- The checks of the slots, in enumeration order, given the keys of the slots before them. -/
def validateSlots (entries : Json) (seen : List Str) : List (Str × Json) → Except Violation Unit
  | [] => .ok ()
  | (routeKey, slot) :: rest => do
      routeKeyText routeKey "slot route key"
      validateSlot routeKey slot
      let key := textAt (some slot) "key"
      shape (!seen.contains key) "policy has two slots for one key"
      shape (!(entries.prop routeKey).any fun entry =>
          strictEq ((entry.prop "source").bind (·.prop "runId")) (slot.prop "runId"))
        "an entry and a slot of one route share a run id"
      validateSlots entries (key :: seen) rest

/-- The entries pass when each of them does. -/
theorem validateEntries_eq_ok {platform : Platform} {entries : List (Str × Json)} :
    validateEntries platform entries = .ok () ↔ ∀ entered ∈ entries,
      routeKeyText entered.1 "entry route key" = .ok () ∧
        validateEntry platform entered.1 entered.2 = .ok () := by
  induction entries with
  | nil => simp [validateEntries]
  | cons entered rest ih =>
    simp only [validateEntries, bind_eq_ok, ih, forall_mem_cons]
    constructor
    · rintro ⟨_, hkey, _, hentry, hrest⟩
      exact ⟨⟨hkey, hentry⟩, hrest⟩
    · rintro ⟨⟨hkey, hentry⟩, hrest⟩
      exact ⟨(), hkey, (), hentry, hrest⟩

/-- The slot of a route and its entry are of one run. -/
def sharesRun (entries : Json) (slotted : Str × Json) : Bool :=
  (entries.prop slotted.1).any fun entry =>
    strictEq ((entry.prop "source").bind (·.prop "runId")) (slotted.2.prop "runId")

/-- The key of a slot. -/
def slotKey (slotted : Str × Json) : Str := textAt (some slotted.2) "key"

/-- The slots pass when each of them does, no two have one key, and none shares its run with the entry of
its route. -/
theorem validateSlots_eq_ok {entries : Json} {seen : List Str} {slots : List (Str × Json)} :
    validateSlots entries seen slots = .ok () ↔
      (∀ slotted ∈ slots, routeKeyText slotted.1 "slot route key" = .ok () ∧
        validateSlot slotted.1 slotted.2 = .ok () ∧ sharesRun entries slotted = false) ∧
      (slots.map slotKey).Nodup ∧ ∀ slotted ∈ slots, slotKey slotted ∉ seen := by
  induction slots generalizing seen with
  | nil => simp [validateSlots]
  | cons slotted rest ih =>
    have hshape : ∀ (condition : Bool) message, shape condition message = .ok () ↔ condition = true := by
      intro condition message
      cases condition <;> simp [shape]
    simp only [validateSlots, bind_eq_ok, ih, forall_mem_cons, hshape, map_cons,
      nodup_cons, exists_const, Bool.not_eq_true']
    have hsplit : (∀ other ∈ rest, slotKey other ∉ slotKey slotted :: seen) ↔
        slotKey slotted ∉ rest.map slotKey ∧ ∀ other ∈ rest, slotKey other ∉ seen := by
      simp only [mem_cons, not_or, mem_map, not_exists, not_and]
      exact ⟨fun h => ⟨fun other hmem => (h other hmem).1, fun other hmem => (h other hmem).2⟩,
        fun h other hmem => ⟨h.1 other hmem, h.2 other hmem⟩⟩
    have hseen : seen.contains (slotKey slotted) = false ↔ slotKey slotted ∉ seen := by
      rw [contains_eq_mem, decide_eq_false_iff_not]
    constructor
    · rintro ⟨_, hkey, _, hslot, hnew, hrun, hrest, hnodup, hothers⟩
      exact ⟨⟨⟨hkey, hslot, hrun⟩, hrest⟩, ⟨(hsplit.mp hothers).1, hnodup⟩, hseen.mp hnew,
        (hsplit.mp hothers).2⟩
    · rintro ⟨⟨⟨hkey, hslot, hrun⟩, hrest⟩, ⟨hfresh, hnodup⟩, hnew, hothers⟩
      exact ⟨(), hkey, (), hslot, hseen.mpr hnew, hrun, hrest, hnodup, hsplit.mpr ⟨hfresh, hothers⟩⟩

/-! ## The policy and the witness -/

/-- `HARDWARE_AVAILABILITY_SCHEMA`. -/
def policySchema : Str := "ploinky.hardware-availability/v1"

/-- The fields of a policy. -/
def policyKeys : List Str := ["schema", "storeId", "revision", "entries", "slots"]

/-- `STORE_ID`. -/
def isStoreId (text : Str) : Bool := isHex 32 text

/-- `REVISION`. -/
def isRevision (text : Str) : Bool := startsWith text "sha256:" && isHex 64 (text.drop 7)

/-- `computeHardwareAvailabilityRevision({ schema, storeId, entries, slots })`. -/
def computeHardwareAvailabilityRevision (platform : Platform) (schema storeId entries slots : Json) :
    Str :=
  lit "sha256:" ++ platform.sha256 (utf8Bytes (platform.stringifyJson (Json.stable (.obj
    [("schema", schema), ("storeId", storeId), ("entries", entries), ("slots", slots)]))))

/-- `serializeHardwareAvailabilityPolicy(document)`. The entries and slots keep their places among
the fields of the document. -/
def serializeHardwareAvailabilityPolicy (platform : Platform) (document : Json) : Bytes :=
  utf8Bytes (platform.prettyJson (.obj (document.entries.map fun field =>
    (field.1, if field.1 = lit "entries" ∨ field.1 = lit "slots" then field.2.stable else field.2)))
      ++ ['\n'])

/-- `MAX_HARDWARE_AVAILABILITY_POLICY_BYTES`. -/
def maxPolicyBytes : Nat := 1024 * 1024

/-- `validatePolicyDocument(document)`. -/
def validatePolicyDocument (platform : Platform) (document : Json) : Except Violation Unit := do
  exactOwnKeys (some document) policyKeys "policy"
  let field := fun name : Str => (document.prop name).getD .null
  shape (isStr (document.prop "schema") policySchema) "policy schema is unsupported"
  shape ((field "storeId").str?.any isStoreId) "policy storeId is invalid"
  shape ((field "revision").str?.any isRevision) "policy revision is invalid"
  shape (field "entries").isObject "policy entries must be an object"
  shape (field "slots").isObject "policy slots must be an object"
  shape ((field "entries").keys.length ≤ 256) "policy has too many entries"
  shape ((field "slots").keys.length ≤ 256) "policy has too many slots"
  validateEntries platform (field "entries").entries
  validateSlots (field "entries") [] (field "slots").entries
  shape ((serializeHardwareAvailabilityPolicy platform document).length ≤ maxPolicyBytes)
    "policy exceeds its byte bound"
  shape (isStr (document.prop "revision") (computeHardwareAvailabilityRevision platform
      (field "schema") (field "storeId") (field "entries") (field "slots")))
    "policy revision does not match its content"

/-- The fields of a witness. -/
def witnessKeys : List Str := ["schema", "storeId", "initializedAt", "initializedBy"]

/-- `WITNESS_INITIALIZERS`. -/
def witnessInitializers : List Str := ["fresh", "upgrade", "restored"]

/-- The check of `witness.initializedAt`: the ISO text of its own time. -/
def isIsoTime (platform : Platform) : Json → Bool
  | .str text => ((platform.parseDate text).bind platform.toISOString) == some text
  | _ => false

/-- `validateWitnessDocument(document)`. -/
def validateWitnessDocument (platform : Platform) (document : Json) : Except Violation Unit := do
  exactOwnKeys (some document) witnessKeys "witness"
  let field := fun name : Str => (document.prop name).getD .null
  shape (document.prop "schema" == some (.num "1")) "witness schema is unsupported"
  shape ((field "storeId").str?.any isStoreId) "witness storeId is invalid"
  shape (isIsoTime platform (field "initializedAt")) "witness initializedAt is invalid"
  shape (witnessInitializers.any fun initializer => isStr (document.prop "initializedBy") initializer)
    "witness initializedBy is invalid"

end Ploinky.Hardware
