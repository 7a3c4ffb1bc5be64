import Ploinky.Js.Uri

/-!
# Octets and text

A `Buffer` is a list of octets. Encoding a text writes the UTF-8 form of each of its characters, and
reading well-formed octets gives the text back.
-/

namespace Ploinky

open List

/-- The contents of a `Buffer`. -/
abbrev Bytes := List UInt8

namespace Js

/-- `Buffer.from(text, 'utf8')`. -/
def utf8Bytes (text : Str) : Bytes := (text.flatMap utf8Encode).map UInt8.ofNat

/-- The text of well-formed UTF-8. -/
def utf8Decode (bytes : Bytes) : Option Str :=
  assemble 0 0 0 (bytes.map fun octet => .octet octet.toNat)

/-- The octets of a text assemble to it. -/
theorem assemble_text (text : Str) :
    assemble 0 0 0 ((text.flatMap utf8Encode).map Token.octet) = some text := by
  induction text with
  | nil => rfl
  | cons c text ih =>
    rw [flatMap_cons, map_append, assemble_utf8Encode, ih]
    rfl

/-- Reading the UTF-8 form of a text gives the text back. -/
theorem utf8Decode_utf8Bytes (text : Str) : utf8Decode (utf8Bytes text) = some text := by
  have htokens : (utf8Bytes text).map (fun octet => Token.octet octet.toNat) =
      (text.flatMap utf8Encode).map Token.octet := by
    simp only [utf8Bytes, map_map, map_inj_left, Function.comp_apply]
    intro n hn
    obtain ⟨c, -, hc⟩ := mem_flatMap.mp hn
    rw [UInt8.toNat_ofNat_of_lt' (utf8Encode_lt c n hc)]
  unfold utf8Decode
  rw [htokens, assemble_text]

end Js

end Ploinky
