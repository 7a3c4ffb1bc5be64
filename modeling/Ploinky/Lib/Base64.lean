import Mathlib

/-!
# Base64

The standard alphabet with padding. `decode` reads the groups of an encoded text and ignores the bits
that the last character has beyond the last octet.
-/

namespace Base64

/-- The character of a number below 64. -/
def digit (n : Nat) : Char :=
  Char.ofNat (if n < 26 then n + 65 else if n < 52 then n + 71 else if n < 62 then n - 4
    else if n = 62 then 43 else 47)

/-- The number a character of the alphabet stands for. -/
def value (c : Char) : Option Nat :=
  if 'A' ≤ c && c ≤ 'Z' then some (c.toNat - 65)
  else if 'a' ≤ c && c ≤ 'z' then some (c.toNat - 71)
  else if '0' ≤ c && c ≤ '9' then some (c.toNat + 4)
  else if c == '+' then some 62
  else if c == '/' then some 63
  else none

/-- The text of a list of octets. -/
def encode : List UInt8 → List Char
  | [] => []
  | [a] => [digit (a.toNat / 4), digit (a.toNat % 4 * 16), '=', '=']
  | [a, b] =>
    [digit (a.toNat / 4), digit (a.toNat % 4 * 16 + b.toNat / 16), digit (b.toNat % 16 * 4), '=']
  | a :: b :: c :: rest =>
    digit (a.toNat / 4) :: digit (a.toNat % 4 * 16 + b.toNat / 16) ::
      digit (b.toNat % 16 * 4 + c.toNat / 64) :: digit (c.toNat % 64) :: encode rest

/-- The octets of an encoded text. -/
def decode : List Char → Option (List UInt8)
  | [] => some []
  | w :: x :: y :: z :: rest =>
    match value w, value x, value y, value z with
    | some w, some x, some y, some z => (decode rest).map fun octets =>
      .ofNat (w * 4 + x / 16) :: .ofNat (x % 16 * 16 + y / 4) :: .ofNat (y % 4 * 64 + z) :: octets
    | some w, some x, some y, none =>
      if z = '=' ∧ rest = [] then some [.ofNat (w * 4 + x / 16), .ofNat (x % 16 * 16 + y / 4)]
      else none
    | some w, some x, none, none =>
      if y = '=' ∧ z = '=' ∧ rest = [] then some [.ofNat (w * 4 + x / 16)] else none
    | _, _, _, _ => none
  | _ => none

/-- A digit reads back as its number. -/
theorem value_digit {n : Nat} (h : n < 64) : value (digit n) = some n := by
  have hall : ∀ k < 64, value (digit k) = some k := by decide
  exact hall n h

/-- An octet is determined by its number. -/
theorem ofNat_eq {n : Nat} {a : UInt8} (h : n = a.toNat) : UInt8.ofNat n = a := by
  rw [h, UInt8.ofNat_toNat]

/-- Decoding an encoded list gives the list back. -/
theorem decode_encode (octets : List UInt8) : decode (encode octets) = some octets := by
  have hpad : value '=' = none := by decide
  fun_induction encode octets with
  | case1 => rfl
  | case2 a =>
    have ha := a.toNat_lt
    have hfirst : UInt8.ofNat (a.toNat / 4 * 4 + a.toNat % 4 * 16 / 16) = a := ofNat_eq (by omega)
    simp (disch := omega) only [decode, value_digit, hpad, hfirst, and_self, if_true]
  | case3 a b =>
    have ha := a.toNat_lt
    have hb := b.toNat_lt
    have hfirst : UInt8.ofNat (a.toNat / 4 * 4 + (a.toNat % 4 * 16 + b.toNat / 16) / 16) = a :=
      ofNat_eq (by omega)
    have hsecond : UInt8.ofNat ((a.toNat % 4 * 16 + b.toNat / 16) % 16 * 16 +
        b.toNat % 16 * 4 / 4) = b := ofNat_eq (by omega)
    simp (disch := omega) only [decode, value_digit, hpad, hfirst, hsecond, and_self, if_true]
  | case4 a b c rest ih =>
    have ha := a.toNat_lt
    have hb := b.toNat_lt
    have hc := c.toNat_lt
    have hfirst : UInt8.ofNat (a.toNat / 4 * 4 + (a.toNat % 4 * 16 + b.toNat / 16) / 16) = a :=
      ofNat_eq (by omega)
    have hsecond : UInt8.ofNat ((a.toNat % 4 * 16 + b.toNat / 16) % 16 * 16 +
        (b.toNat % 16 * 4 + c.toNat / 64) / 4) = b := ofNat_eq (by omega)
    have hthird : UInt8.ofNat ((b.toNat % 16 * 4 + c.toNat / 64) % 4 * 64 + c.toNat % 64) = c :=
      ofNat_eq (by omega)
    simp (disch := omega) only [decode, value_digit, ih, Option.map_some, hfirst, hsecond, hthird]

end Base64
