import Ploinky.Hardware.PolicyDocument

/-!
# The selector

The embedding of `readSelector`: the file that names the active generation, or records that none is
active. A selector carries the digest of its own body, and one that does not verify counts as absent.
-/

namespace Ploinky.Edge

open Js Hardware

/-- `sourceDigest(bytes)`. -/
def sourceDigest (platform : Platform) (bytes : Bytes) : Str := lit "sha256:" ++ platform.sha256 bytes

/-- `stableStringify(value)`. -/
def stableStringify (platform : Platform) (value : Json) : Str := platform.stringifyJson value.stable

/-- The fields of a selector that names an active generation. -/
def activeSelectorKeys : List Str :=
  ["schemaVersion", "state", "generation", "publicationState", "activationId", "activatedAt",
    "selectorDigest"]

/-- The fields of a selector that names none. -/
def inactiveSelectorKeys : List Str :=
  ["schemaVersion", "state", "generation", "previousGeneration", "reason", "activationId", "changedAt",
    "selectorDigest"]

/-- The fields of a selector match its state: the generation ids it holds have the form of one. -/
def selectorShape (selector : Json) : Bool :=
  let generation := selector.prop "generation"
  let previous := selector.prop "previousGeneration"
  if isStr (selector.prop "state") "active" then
    selector.keys.all activeSelectorKeys.contains && isRevision (strOr generation [])
  else
    isStr (selector.prop "state") "inactive" && selector.keys.all inactiveSelectorKeys.contains &&
      (generation.isNone || isRevision (strOr generation [])) &&
      (!truthy previous || isRevision (strOr previous []))

/-- The digest of a selector without its `selectorDigest`. -/
def selectorDigest (platform : Platform) (selector : Json) : Str :=
  sourceDigest platform (utf8Bytes (stableStringify platform
    (.obj (selector.entries.filter fun field => field.1 ≠ lit "selectorDigest"))))

/-- `readSelector(paths)`. -/
def readSelector (platform : Platform) (file : Option Bytes) : Option Json := do
  let selector ← platform.parseJson (textOf platform (← file))
  if selector.isObject && selector.prop "schemaVersion" == some (.num "1") &&
      selectorShape selector && isStr (selector.prop "selectorDigest") (selectorDigest platform selector)
  then some selector
  else none

end Ploinky.Edge
