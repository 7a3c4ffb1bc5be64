import Ploinky.Edge.Routing

/-!
# Hardware availability

The embedding of `hardwareAvailability`: an instance that is refused or blocked keeps its route but
loses its runtime targets. `compileAvailabilityProjection` makes the compiled entry of an unavailable
instance; `routeHardwareAvailability` looks one up in a compiled generation and fails closed on a
malformed entry.
-/

namespace Ploinky.Hardware

open Js Edge

/-- The fields of a projection in a route. -/
def projectionKeys : List Str :=
  ["schema", "inputFingerprint", "key", "instanceId", "enableGeneration", "state", "problem",
    "observedAt"]

/-- The fields of a compiled entry. -/
def compiledKeys : List Str :=
  ["state", "code", "reasonCode", "key", "instanceId", "enableGeneration", "reason", "fix",
    "rootKey"]

/-- `fail(message)`. -/
def fail {α : Type} (message : Str) : Except Str α := .error (lit "hardware availability " ++ message)

/-- `exactKeys(value, keys, label)`. -/
def exactKeys (value : Json) (keys : List Str) (label : Str) : Except Str Unit :=
  if !value.isObject then fail (label ++ lit " must be an object")
  else match value.keys.find? fun key => !keys.contains key with
    | some key => fail (label ++ lit " has unknown property '" ++ key ++ lit "'")
    | none =>
      match keys.find? fun key => !value.keys.contains key with
      | some key => fail (label ++ lit " is missing '" ++ key ++ lit "'")
      | none => .ok ()

/-- `Buffer.byteLength(text, 'utf8')`. -/
def byteLength (text : Str) : Nat := (text.map Char.utf8Size).sum

/-- The check of `identityText(value, label)`. -/
def isIdentityText : Option Json → Bool
  | some (.str text) => !text.isEmpty && byteLength text ≤ 512
  | _ => false

/-- The pattern `/^[0-9a-f]{64}$/`. -/
def isFingerprint (text : Str) : Bool := text.length == 64 && text.all isLowerHex

/-- `validateAvailabilityProjection(value)`: the validated problem. -/
def validateAvailabilityProjection (platform : Platform) (value : Json) : Except Str Json := do
  exactKeys value projectionKeys "projection"
  if value.prop "schema" ≠ some (.num "1") then fail "projection schema is unsupported"
  if !isFingerprint (((value.prop "inputFingerprint").map Json.toStr).getD "undefined") then
    fail "projection inputFingerprint is invalid"
  let problem ← platform.validateHardwareOutcome (value.prop "problem")
  if !strictEq (value.prop "state") (problem.prop "state") then
    fail "projection state disagrees with its problem"
  if !strictEq (value.prop "key") (problem.prop "key") then
    fail "projection key disagrees with its problem"
  if !isIdentityText (value.prop "instanceId") then
    fail "projection instanceId must be a bounded non-empty string"
  if !isIdentityText (value.prop "enableGeneration") then
    fail "projection enableGeneration must be a bounded non-empty string"
  if !platform.dateParses (value.prop "observedAt") then
    fail "projection observedAt must be an ISO time"
  return problem

/-- A guard that fails is passed when its condition does not hold. -/
theorem guard_fail {α β : Type} {c : Prop} [Decidable c] {message : Str} {next : α → Except Str β}
    {rest : Except Str β} {value : β} (h : (if c then fail message >>= next else rest) = .ok value) :
    ¬ c ∧ rest = .ok value := by
  by_cases hc : c
  · rw [if_pos hc] at h
    cases h
  · rw [if_neg hc] at h
    exact ⟨hc, h⟩

/-- The problem of a valid projection is validated. -/
theorem validateAvailabilityProjection_eq_ok {platform : Platform} {value problem : Json}
    (h : validateAvailabilityProjection platform value = .ok problem) :
    platform.validateHardwareOutcome (value.prop "problem") = .ok problem := by
  obtain ⟨_, _, h⟩ := bind_eq_ok.mp h
  obtain ⟨_, h⟩ := guard_fail h
  obtain ⟨_, h⟩ := guard_fail h
  obtain ⟨result, hresult, h⟩ := bind_eq_ok.mp h
  obtain ⟨_, h⟩ := guard_fail h
  obtain ⟨_, h⟩ := guard_fail h
  obtain ⟨_, h⟩ := guard_fail h
  obtain ⟨_, h⟩ := guard_fail h
  obtain ⟨_, h⟩ := guard_fail h
  cases h
  exact hresult

/-- The fields that are present, in the given order. -/
def presentFields (fields : List (Str × Option Json)) : Json :=
  .obj (fields.filterMap fun field => field.2.map fun value => (field.1, value))

/-- `compileAvailabilityProjection(value)`. -/
def compileAvailabilityProjection (platform : Platform) (value : Json) : Except Str Json := do
  let problem ← validateAvailabilityProjection platform value
  let rootCause := problem.prop "rootCause"
  let source := if isStr (problem.prop "state") "refused" then some problem else rootCause
  return presentFields [
    ("state", value.prop "state"), ("code", problem.prop "code"),
    ("reasonCode", problem.prop "reasonCode"), ("key", value.prop "key"),
    ("instanceId", value.prop "instanceId"),
    ("enableGeneration", value.prop "enableGeneration"),
    ("reason", source.bind (·.prop "reason")), ("fix", source.bind (·.prop "fix")),
    ("rootKey", rootCause.bind (·.prop "key"))]

/-! ## Lookups -/

/-- `validCompiledEntry(entry)`. -/
def validCompiledEntry (entry : Json) : Bool :=
  match exactKeys entry compiledKeys "compiled entry" with
  | .ok _ => isStr (entry.prop "state") "refused" || isStr (entry.prop "state") "blocked"
  | .error _ => false

/-- The entry that stands for a malformed one. -/
def invalidAvailability : Json :=
  .obj [("state", .str "refused"), ("code", .str "PLOINKY_HARDWARE_LIMITS_UNENFORCEABLE"),
    ("reasonCode", .str "unprepared"), ("key", .str []), ("instanceId", .str []),
    ("enableGeneration", .str []),
    ("reason", .str "The hardware availability record is invalid."),
    ("fix", .str "On the host run ploinky limits status."), ("rootKey", .str [])]

/-- `routeHardwareAvailability(snapshot, routeKey)` for the compiled entries of the snapshot. -/
def routeHardwareAvailability (compiled : Option (Table Json)) (routeKey : Str) : Option Json :=
  (compiled.bind (·.lookup routeKey)).map fun entry =>
    if validCompiledEntry entry then entry else invalidAvailability

end Ploinky.Hardware
