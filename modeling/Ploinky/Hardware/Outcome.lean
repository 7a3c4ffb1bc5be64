import Ploinky.Hardware.PolicyDocument

/-!
# Hardware outcomes

The embedding of `validateHardwareOutcome`: the bounded, typed form in which a refusal, or a block by a
dependency, travels between the parts of the program. The validator returns an outcome in one order of
fields, and a validated outcome passes the validator unchanged.
-/

namespace Ploinky.Hardware.Outcome

open Js

/-- `schemaFail(message)`. -/
def schemaFail {α : Type} (message : Str) : Except Str α := .error (lit "hardware outcome " ++ message)

/-- A check with its message. -/
def demand (condition : Bool) (message : Str) : Except Str Unit :=
  if condition then .ok () else schemaFail message

theorem demand_eq_ok {condition : Bool} {message : Str} {value : Unit} :
    demand condition message = .ok value ↔ condition = true := by
  cases condition <;> simp [demand, schemaFail]

/-- The first key of a list is rejected. -/
def rejectFirst (keys : List Str) (message : Str → Str) : Except Str Unit :=
  match keys with
  | [] => .ok ()
  | key :: _ => schemaFail (message key)

/-- `exactKeys(value, keys, label)`. Every object of a JSON text is a plain object. -/
def exactKeys (value : Json) (keys : List Str) (label : Str) : Except Str Unit := do
  demand value.isObject (label ++ lit " must be an object")
  rejectFirst (value.keys.filter fun key => !keys.contains key) fun key =>
    label ++ lit " has unknown property '" ++ key ++ lit "'"
  rejectFirst (keys.filter fun key => !value.keys.contains key) fun key =>
    label ++ lit " is missing '" ++ key ++ lit "'"

/-- An object with exactly the keys of a list has its keys. -/
theorem exactKeys_obj {fields : List (Str × Json)} {keys : List Str} (label : Str)
    (h : fields.map Prod.fst = keys) : exactKeys (.obj fields) keys label = .ok () := by
  subst h
  have hall : (fields.map Prod.fst).filter (fun key => !(fields.map Prod.fst).contains key) = [] := by
    rw [List.filter_eq_nil_iff]
    simp
  have hkeys : (Json.obj fields).keys = fields.map Prod.fst := rfl
  unfold exactKeys
  rw [hkeys, hall]
  rfl

/-- The value of a property, `null` when there is none. -/
def fieldOf (value : Json) (key : Str) : Json := (value.prop key).getD .null

/-- `boundedText(value, max, label, { allowEmpty })`. -/
def boundedText (value : Json) (max : Nat) (label : Str) (allowEmpty : Bool := false) : Except Str Unit :=
  match value with
  | .str text => do
      demand (allowEmpty || !text.isEmpty) (label ++ lit " must not be empty")
      demand (!text.contains (Char.ofNat 0)) (label ++ lit " must not contain NUL")
      demand (byteLength text ≤ max) (label ++ lit " exceeds " ++ ofNat max ++ lit " bytes")
  | _ => schemaFail (label ++ lit " must be a string")

/-- `REF_COMPONENT`. -/
def isRefComponent (text : Str) : Bool := isSafeName ['.', '_', '-'] text && text.length ≤ 128

/-- `isHardwareRef(value)`. -/
def isHardwareRef : Json → Bool
  | .str text => byteLength text ≤ 257 && match split text '/' with
    | [repository, agent] => isRefComponent repository && isRefComponent agent
    | _ => false
  | _ => false

/-- `validateRef(value, label)`. -/
def validateRef (value : Json) (label : Str) : Except Str Unit :=
  demand (isHardwareRef value) (label ++ lit " must be an exact REPO/AGENT reference")

/-- `validateKey(value, label)`. -/
def validateKey (value : Json) (label : Str) : Except Str Unit := boundedText value 1024 label

/-- `list.includes(value)` for a list of texts. -/
def includesText (texts : List Str) (value : Json) : Bool := texts.any fun text => value == .str text

/-- `HARDWARE_FIELDS`. -/
def hardwareFields : List Str := ["memory", "cpus", "pidsLimit", "gpu"]

/-- `HARDWARE_SOURCES`. -/
def hardwareSources : List Str := ["manifest", "catalog", "profile", "settings"]

/-- `HARDWARE_UNENFORCEABLE`. -/
def hardwareUnenforceable : Str := "PLOINKY_HARDWARE_LIMITS_UNENFORCEABLE"

/-- `HARDWARE_OUTCOME_CODES`. -/
def hardwareOutcomeCodes : List Str :=
  [hardwareUnenforceable, "PLOINKY_HARDWARE_LIMITS_DEPENDENCY_BLOCKED"]

/-- `HARDWARE_REASON_CODES`. -/
def hardwareReasonCodes : List Str :=
  ["gate_off", "unprepared", "controller_unavailable", "cgroup_unsupported", "runtime_unverified",
    "backend_unavailable", "store_unreadable", "gpu_grant_missing", "gpu_sharing_unavailable",
    "mps_unavailable", "mps_failed", "gpu_user_network", "gpu_memory_model",
    "image_preparation_required", "lite_sandbox", "interactive_runtime", "host_network_nested_podman",
    "exceeds_envelope", "envelope_unknown", "declaration_conflict", "dependency_blocked"]

/-! ## The parts of an outcome -/

/-- The label of an element of a list. -/
def elementLabel (label : Str) (index : Nat) : Str := label ++ lit "[" ++ ofNat index ++ lit "]"

/-- The entries of `validateRequested`, given the number and the fields of those before them. -/
def validateRequestedFrom (label : Str) (index : Nat) (seen : List Json) :
    List Json → Except Str (List Json)
  | [] => .ok []
  | entry :: rest => do
      let place := elementLabel label index
      let field := fieldOf entry "field"
      exactKeys entry ["field", "value", "source"] place
      demand (includesText hardwareFields field) (place ++ lit ".field is unknown")
      demand (!seen.contains field) (label ++ lit " repeats field '" ++ field.toStr ++ lit "'")
      boundedText (fieldOf entry "value") 128 (place ++ lit ".value")
      demand (includesText hardwareSources (fieldOf entry "source")) (place ++ lit ".source is unknown")
      let others ← validateRequestedFrom label (index + 1) (field :: seen) rest
      return .obj [("field", field), ("value", fieldOf entry "value"),
        ("source", fieldOf entry "source")] :: others

/-- `validateRequested(list, label)`. -/
def validateRequested (list : Json) (label : Str) : Except Str (List Json) :=
  match list with
  | .arr items => do
      demand (items.length ≤ 4) (label ++ lit " exceeds 4 entries")
      validateRequestedFrom label 0 [] items
  | _ => schemaFail (label ++ lit " must be an array")

/-- `validateRoot(value, label)`. The validated root is the value itself. -/
def validateRoot (value : Json) (label : Str) : Except Str Unit := do
  exactKeys value ["key", "ref", "field", "reason", "fix"] label
  validateKey (fieldOf value "key") (label ++ lit ".key")
  validateRef (fieldOf value "ref") (label ++ lit ".ref")
  demand (fieldOf value "field" == .null || includesText hardwareFields (fieldOf value "field"))
    (label ++ lit ".field is unknown")
  boundedText (fieldOf value "reason") 2048 (label ++ lit ".reason")
  boundedText (fieldOf value "fix") 2048 (label ++ lit ".fix") true

/-- The fields of an outcome. -/
structure Fields where
  state : Json
  code : Json
  reasonCode : Json
  key : Json
  ref : Json
  aliasName : Json
  inputFingerprint : Json
  reason : Json
  fix : Json
  requested : Json
  blockedBy : Json
  rootCause : Json
  causalPath : Json
  omittedPathCount : Json
  additionalCauseCount : Json

/-- `OUTCOME_KEYS`. -/
def outcomeKeys : List Str :=
  ["state", "code", "reasonCode", "key", "ref", "alias", "inputFingerprint", "reason", "fix",
    "requested", "blockedBy", "rootCause", "causalPath", "omittedPathCount", "additionalCauseCount"]

/-- The fields of a value. -/
def Fields.of (value : Json) : Fields where
  state := fieldOf value "state"
  code := fieldOf value "code"
  reasonCode := fieldOf value "reasonCode"
  key := fieldOf value "key"
  ref := fieldOf value "ref"
  aliasName := fieldOf value "alias"
  inputFingerprint := fieldOf value "inputFingerprint"
  reason := fieldOf value "reason"
  fix := fieldOf value "fix"
  requested := fieldOf value "requested"
  blockedBy := fieldOf value "blockedBy"
  rootCause := fieldOf value "rootCause"
  causalPath := fieldOf value "causalPath"
  omittedPathCount := fieldOf value "omittedPathCount"
  additionalCauseCount := fieldOf value "additionalCauseCount"

/-- The outcome with the given fields, in the order in which the validator returns them. -/
def Fields.toJson (fields : Fields) : Json := .obj [
  ("state", fields.state), ("code", fields.code), ("reasonCode", fields.reasonCode),
  ("key", fields.key), ("ref", fields.ref), ("alias", fields.aliasName),
  ("inputFingerprint", fields.inputFingerprint), ("reason", fields.reason), ("fix", fields.fix),
  ("requested", fields.requested), ("blockedBy", fields.blockedBy), ("rootCause", fields.rootCause),
  ("causalPath", fields.causalPath), ("omittedPathCount", fields.omittedPathCount),
  ("additionalCauseCount", fields.additionalCauseCount)]

/-- The check of `alias`. -/
def validateAlias (value : Json) : Except Str Unit :=
  if value = .null then .ok () else boundedText value 1024 "alias"

/-- The checks of the fields before `requested`. -/
def validateHead (fields : Fields) : Except Str Unit := do
  demand (includesText ["refused", "blocked"] fields.state) "state must be refused or blocked"
  demand (includesText hardwareOutcomeCodes fields.code) "code is unknown"
  demand ((fields.state == .str "refused") == (fields.code == .str hardwareUnenforceable))
    "state and code disagree"
  demand (includesText hardwareReasonCodes fields.reasonCode) "reasonCode is unknown"
  validateKey fields.key "key"
  validateRef fields.ref "ref"
  validateAlias fields.aliasName
  demand (isFingerprint fields.inputFingerprint.toStr)
    "inputFingerprint must be 64 lower-case hex digits"
  boundedText fields.reason 2048 "reason"
  boundedText fields.fix 2048 "fix" true

/-- The checks that depend on the state: the validated `blockedBy`. -/
def validateBlockedBy (fields : Fields) (requested : List Json) : Except Str Json :=
  if fields.state = .str "refused" then do
    demand (fields.blockedBy == .null) "a refusal has no blockedBy"
    demand (fieldOf fields.rootCause "key" == fields.key) "a refusal is its own root cause"
    demand (fields.reasonCode != .str "dependency_blocked") "a refusal cannot be dependency_blocked"
    return .null
  else do
    exactKeys fields.blockedBy ["key", "ref"] "blockedBy"
    validateKey (fieldOf fields.blockedBy "key") "blockedBy.key"
    validateRef (fieldOf fields.blockedBy "ref") "blockedBy.ref"
    demand requested.isEmpty "a blocked outcome requests nothing itself"
    demand (fields.reasonCode == .str "dependency_blocked") "a blocked outcome is dependency_blocked"
    return .obj [("key", fieldOf fields.blockedBy "key"), ("ref", fieldOf fields.blockedBy "ref")]

/-- The keys of a causal path, from the given number on. -/
def validatePathFrom (index : Nat) : List Json → Except Str Unit
  | [] => .ok ()
  | entry :: rest => do
      validateKey entry (elementLabel "causalPath" index)
      validatePathFrom (index + 1) rest

/-- The checks of `causalPath`. -/
def validatePath (platform : Platform) (fields : Fields) : Except Str Unit :=
  match fields.causalPath with
  | .arr path => do
      demand (!path.isEmpty) "causalPath must be a non-empty array"
      demand (path.length ≤ 32) "causalPath exceeds 32 entries"
      validatePathFrom 0 path
      demand (byteLength (platform.stringifyJson (.arr path)) ≤ 8 * 1024) "causalPath exceeds 8 KiB"
      demand (path.head? == some fields.key) "causalPath must start at the outcome key"
      demand (path.getLast? == some (fieldOf fields.rootCause "key"))
        "causalPath must end at the root cause"
  | _ => schemaFail "causalPath must be a non-empty array"

/-- A count of an outcome. -/
def validateCount (value : Json) (field : Str) : Except Str Unit :=
  demand (value.natural.any (· ≤ 2 ^ 53 - 1)) (field ++ lit " must be a non-negative safe integer")

/-- The checks after `blockedBy`. -/
def validateTail (platform : Platform) (fields : Fields) : Except Str Unit := do
  validatePath platform fields
  validateCount fields.omittedPathCount "omittedPathCount"
  validateCount fields.additionalCauseCount "additionalCauseCount"

/-- `validateHardwareOutcome(value)`. -/
def validateHardwareOutcome (platform : Platform) (value : Json) : Except Str Json := do
  exactKeys value outcomeKeys "outcome"
  let fields := Fields.of value
  validateHead fields
  let requested ← validateRequested fields.requested "requested"
  validateRoot fields.rootCause "rootCause"
  let blockedBy ← validateBlockedBy fields requested
  validateTail platform fields
  let outcome := { fields with requested := .arr requested, blockedBy := blockedBy }.toJson
  demand (byteLength (platform.stringifyJson outcome) ≤ 16 * 1024) "exceeds 16 KiB"
  return outcome

/-! ## A validated outcome passes unchanged -/

theorem Fields.of_toJson (fields : Fields) : Fields.of fields.toJson = fields := rfl

variable {label : Str} {index : Nat} {seen items entries : List Json}

theorem validateRequestedFrom_length (h : validateRequestedFrom label index seen items = .ok entries) :
    entries.length = items.length := by
  induction items generalizing index seen entries with
  | nil =>
    cases h
    rfl
  | cons entry rest ih =>
    simp only [validateRequestedFrom, bind_eq_ok] at h
    obtain ⟨_, _, _, _, _, _, _, _, _, _, others, hothers, h⟩ := h
    cases h
    simp [ih hothers]

/-- The validated entries pass unchanged. -/
theorem validateRequestedFrom_idem (h : validateRequestedFrom label index seen items = .ok entries) :
    validateRequestedFrom label index seen entries = .ok entries := by
  induction items generalizing index seen entries with
  | nil =>
    cases h
    rfl
  | cons entry rest ih =>
    simp only [validateRequestedFrom, bind_eq_ok] at h
    obtain ⟨_, _, _, hfield, _, hnew, _, hvalue, _, hsource, others, hothers, h⟩ := h
    cases h
    simp only [validateRequestedFrom, bind_eq_ok]
    exact ⟨(), exactKeys_obj _ rfl, (), hfield, (), hnew, (), hvalue, (), hsource, others,
      ih hothers, rfl⟩

theorem validateRequested_idem {list : Json} (h : validateRequested list label = .ok entries) :
    validateRequested (.arr entries) label = .ok entries := by
  cases list with
  | arr items =>
    simp only [validateRequested, bind_eq_ok, demand_eq_ok, decide_eq_true_eq] at h ⊢
    obtain ⟨_, hlength, hentries⟩ := h
    rw [← validateRequestedFrom_length hentries] at hlength
    exact ⟨(), hlength, validateRequestedFrom_idem hentries⟩
  | null | bool | num | str | obj => cases h

theorem validateBlockedBy_idem {fields : Fields} {requested : List Json} {blockedBy : Json}
    (h : validateBlockedBy fields requested = .ok blockedBy) :
    validateBlockedBy { fields with requested := .arr requested, blockedBy := blockedBy } requested =
      .ok blockedBy := by
  unfold validateBlockedBy at h ⊢
  by_cases hstate : fields.state = .str "refused"
  · rw [if_pos hstate] at h ⊢
    simp only [bind_eq_ok] at h ⊢
    obtain ⟨_, _, _, hroot, _, hreason, h⟩ := h
    cases h
    exact ⟨(), rfl, (), hroot, (), hreason, rfl⟩
  · rw [if_neg hstate] at h ⊢
    simp only [bind_eq_ok] at h ⊢
    obtain ⟨_, _, _, hkey, _, href, _, hnone, _, hreason, h⟩ := h
    cases h
    exact ⟨(), exactKeys_obj _ rfl, (), hkey, (), href, (), hnone, (), hreason, rfl⟩

/-- A validated outcome passes the validator unchanged. -/
theorem validateHardwareOutcome_idem {platform : Platform} {value outcome : Json}
    (h : validateHardwareOutcome platform value = .ok outcome) :
    validateHardwareOutcome platform outcome = .ok outcome := by
  simp only [validateHardwareOutcome, bind_eq_ok] at h
  obtain ⟨_, _, _, hhead, requested, hrequested, _, hroot, blockedBy, hblocked, _, htail, _, hsize, h⟩ := h
  cases h
  simp only [validateHardwareOutcome, bind_eq_ok, Fields.of_toJson]
  exact ⟨(), exactKeys_obj _ rfl, (), hhead, requested, validateRequested_idem hrequested, (), hroot,
    blockedBy, validateBlockedBy_idem hblocked, (), htail, (), hsize, rfl⟩

end Ploinky.Hardware.Outcome
