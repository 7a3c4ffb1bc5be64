import Ploinky.Js.Bytes

/-!
# Strings as code units

A JavaScript string is any sequence of UTF-16 code units, so it may hold a surrogate without its
partner. Encoding such a string as UTF-8 replaces the lone surrogate by `U+FFFD`.
-/

namespace Ploinky.Js

/-- A string. -/
abbrev Units := List UInt16

/-- The unit is the first one of a surrogate pair. -/
def isHighSurrogate (u : UInt16) : Bool := 0xD800 ≤ u.toNat && u.toNat ≤ 0xDBFF

/-- The unit is the second one of a surrogate pair. -/
def isLowSurrogate (u : UInt16) : Bool := 0xDC00 ≤ u.toNat && u.toNat ≤ 0xDFFF

/-- The character of a unit outside a pair. -/
def loneUnit (u : UInt16) : Char :=
  if isHighSurrogate u || isLowSurrogate u then Char.ofNat 0xFFFD else Char.ofNat u.toNat

/-- The character of a surrogate pair. -/
def pairedUnits (u v : UInt16) : Char :=
  Char.ofNat (0x10000 + (u.toNat - 0xD800) * 1024 + (v.toNat - 0xDC00))

/-- `string.toWellFormed()`, as characters. -/
def toWellFormed : Units → Str
  | [] => []
  | [u] => [loneUnit u]
  | u :: v :: rest =>
    if isHighSurrogate u && isLowSurrogate v then pairedUnits u v :: toWellFormed rest
    else loneUnit u :: toWellFormed (v :: rest)

/-- `Buffer.from(string, 'utf8')`. -/
def utf8Units (value : Units) : Bytes := utf8Bytes (toWellFormed value)

theorem utf8Bytes_injective {a b : Str} (h : utf8Bytes a = utf8Bytes b) : a = b := by
  have hdecoded := utf8Decode_utf8Bytes a
  rw [h, utf8Decode_utf8Bytes] at hdecoded
  exact (Option.some.inj hdecoded).symm

end Ploinky.Js
