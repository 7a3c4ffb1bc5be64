import Ploinky.Js.Bytes
import Ploinky.Js.Json

/-!
# The platform

What the sources take from their platform, and the results of three validators of the program whose
inner checks no modelled function depends on. Every theorem holds for all of them; no property of
them is assumed unless a statement says so.
-/

namespace Ploinky

/-- The parts of a parsed URL that the sources read. -/
structure Url where
  pathname : Str
  search : Str
  deriving DecidableEq

/-- The functions of the platform. -/
structure Platform where
  /-- `left.localeCompare(right) <= 0`. -/
  localeLe : Str → Str → Bool
  /-- `net.isIP(text)`. -/
  isIP : Str → Nat
  /-- `domainToASCII(text)`. -/
  domainToASCII : Str → Str
  /-- `Number(text)`, when it is a natural number. -/
  numberOf : Str → Option Nat
  /-- `new URL(target, base)`. -/
  parseUrl : Str → Str → Option Url
  /-- The text is that of a finite number. -/
  isNumber : Str → Bool
  /-- `JSON.parse(text)`. -/
  parseJson : Str → Option Json
  /-- `JSON.stringify(value)`. -/
  stringifyJson : Json → Str
  /-- `JSON.stringify(value, null, 2)`. -/
  prettyJson : Json → Str
  /-- `buffer.toString('utf8')` of octets that are no well-formed UTF-8. -/
  replaceInvalid : Bytes → Str
  /-- The hexadecimal SHA-256 digest. -/
  sha256 : Bytes → Str
  /-- `new URL('http://' + host + ':' + port).origin`. -/
  routerOrigin : Str → Nat → Str
  /-- `isCanonicalRouterOrigin(value)`. -/
  isCanonicalRouterOrigin : Str → Bool
  /-- `Number.isNaN(Date.parse(value))` is false. -/
  dateParses : Option Json → Bool
  /-- `Date.parse(text)`, when it is a number. -/
  parseDate : Str → Option Int
  /-- `new Date(ms).toISOString()`, nothing when it throws a `RangeError`. -/
  toISOString : Int → Option Str
  /-- `validateHardwareOutcome(value)`: the validated outcome, or the message of the failure. -/
  validateHardwareOutcome : Option Json → Except Str Json
  /-- Whether `resolveManifestRuntimeProfile` selects host networking, for a manifest, the label of
  the agent and the profile recorded for it. -/
  hostNetwork : Json → Str → Str → Except Str Bool
  /-- `normalizeDelegations(spec, access, route)` for an authenticated route: the delegations of the
  list, or nothing when one of them is invalid. -/
  delegations : List Json → Json → Option (List Json)

/-- The text of a time is a date, and reads back as that time. -/
structure Platform.DateText (platform : Platform) : Prop where
  parse : ∀ ms text, platform.toISOString ms = some text → platform.parseDate text = some ms
  parses : ∀ ms text, platform.toISOString ms = some text →
    platform.dateParses (some (.str text)) = true

namespace Js

/-- `buffer.toString('utf8')`. -/
def textOf (platform : Platform) (bytes : Bytes) : Str :=
  (utf8Decode bytes).getD (platform.replaceInvalid bytes)

/-- The text of encoded text. -/
theorem textOf_utf8Bytes (platform : Platform) (text : Str) : textOf platform (utf8Bytes text) = text := by
  simp [textOf, utf8Decode_utf8Bytes]

/-- `left === right` for values that may be `undefined`. Distinct objects are never equal, and the
sources never compare an object with itself. -/
def strictEq : Option Json → Option Json → Bool
  | some (.arr _), _ | some (.obj _), _ => false
  | left, right => left == right

/-- The natural number that `Number(value)` is. -/
def numberOf (platform : Platform) : Json → Option Nat
  | .null => some 0
  | .bool b => some b.toNat
  | .num text => (Json.num text).natural
  | .str text => platform.numberOf text
  | .arr items => platform.numberOf (Json.arr items).toStr
  | .obj _ => none

end Js

end Ploinky
