import Mathlib

/-!
# JavaScript strings

Strings of the modelled sources are lists of characters. The file gives the string methods the
sources call, under their JavaScript names: `trim`, `startsWith`, `endsWith`, `includes`, `split`
and `join` on one separator character, and the ASCII part of the case conversions. Characters are
Unicode scalar values; lone surrogates have no counterpart here.
-/

namespace Ploinky

open List

/-- A JavaScript string. -/
abbrev Str := List Char

/-- Comparing strings decides their equality. -/
instance instLawfulBEqStr : LawfulBEq Str := inferInstanceAs (LawfulBEq (List Char))

namespace Js

/-- The characters of a string literal. -/
def lit (s : String) : Str := s.toList

/-- String literals denote their character lists. -/
instance : Coe String Str := ⟨lit⟩

/-- The characters `String.prototype.trim` strips: white space and line terminators. -/
def isSpace (c : Char) : Bool :=
  let n := c.toNat
  (9 ≤ n && n ≤ 13) || n == 0x20 || n == 0xA0 || n == 0x1680 || (0x2000 ≤ n && n ≤ 0x200A) ||
    n == 0x2028 || n == 0x2029 || n == 0x202F || n == 0x205F || n == 0x3000 || n == 0xFEFF

/-- `text.trimStart()`. -/
def trimStart (s : Str) : Str := s.dropWhile isSpace

/-- `text.trimEnd()`. -/
def trimEnd (s : Str) : Str := s.rdropWhile isSpace

/-- `text.trim()`. -/
def trim (s : Str) : Str := trimEnd (trimStart s)

/-- `text.startsWith(pre)`. -/
def startsWith (s pre : Str) : Bool := pre.isPrefixOf s

/-- `text.endsWith(suf)`. -/
def endsWith (s suf : Str) : Bool := suf.isSuffixOf s

/-- `text.includes(sub)`. -/
def includes (s sub : Str) : Bool :=
  match s with
  | [] => sub.isEmpty
  | c :: rest => sub.isPrefixOf (c :: rest) || includes rest sub

/-- `startsWith` is the list prefix relation. -/
theorem startsWith_iff {s pre : Str} : startsWith s pre = true ↔ pre <+: s :=
  isPrefixOf_iff_prefix

/-- `endsWith` is the list suffix relation. -/
theorem endsWith_iff {s suf : Str} : endsWith s suf = true ↔ suf <:+ s :=
  isSuffixOf_iff_suffix

/-- `includes` is the list infix relation. -/
theorem includes_iff {s sub : Str} : includes s sub = true ↔ sub <:+: s := by
  induction s with
  | nil => simp [includes]
  | cons c s ih =>
    rw [includes, Bool.or_eq_true, ih, isPrefixOf_iff_prefix, infix_cons_iff]

/-- `text.split(sep)` for a separator of one character. -/
def split (s : Str) (sep : Char) : List Str := s.splitOn sep

/-- A text without the separator is the first part of a split. -/
theorem split_append_cons {front : Str} (rest : Str) {sep : Char} (h : sep ∉ front) :
    split (front ++ sep :: rest) sep = front :: split rest sep := by
  apply splitOnP_append_cons_of_forall_mem
  · intro c hc
    have hne : c ≠ sep := fun heq => h (heq ▸ hc)
    simpa using hne
  · simp

/-- `parts.join(sep)` for a separator of one character. -/
def join (parts : List Str) (sep : Char) : Str := intercalate [sep] parts

/-- `parts.filter(Boolean)` for a list of strings. -/
def nonEmpty (parts : List Str) : List Str := parts.filter fun part => !part.isEmpty

/-- The text before the first occurrence of a character, as `text.slice(0, text.indexOf(c))` when
the character occurs and the whole text otherwise. -/
def before (s : Str) (c : Char) : Str := s.takeWhile (· != c)

/-- An ASCII lower-case letter. -/
def isLower (c : Char) : Bool := 'a' ≤ c && c ≤ 'z'

/-- An ASCII upper-case letter. -/
def isUpper (c : Char) : Bool := 'A' ≤ c && c ≤ 'Z'

/-- An ASCII decimal digit. -/
def isDigit (c : Char) : Bool := '0' ≤ c && c ≤ '9'

/-- An ASCII letter or digit, the class `[A-Za-z0-9]`. -/
def isAlnum (c : Char) : Bool := isLower c || isUpper c || isDigit c

/-- A lower-case hexadecimal digit, the class `[a-f0-9]`. -/
def isLowerHex (c : Char) : Bool := ('a' ≤ c && c ≤ 'f') || isDigit c

/-- One character of `text.toLowerCase()`. Beyond ASCII only the characters with an ASCII letter in
their lower-case form are converted: the sources compare the result with ASCII text or match it
against an ASCII pattern. -/
def lowerChar (c : Char) : Str :=
  if isUpper c then [Char.ofNat (c.toNat + 32)]
  else if c.toNat = 0x212A then ['k']
  else if c.toNat = 0x130 then ['i', Char.ofNat 0x307]
  else [c]

/-- `text.toLowerCase()`, see `lowerChar`. -/
def toLowerCase (s : Str) : Str := s.flatMap lowerChar

/-- One character of `text.toUpperCase()`, with the same restriction as `lowerChar`: the characters
beyond ASCII whose upper-case form is ASCII are the dotless i, the long s, the sharp s and the Latin
ligatures. -/
def upperChar (c : Char) : Str :=
  if isLower c then [Char.ofNat (c.toNat - 32)]
  else if c.toNat = 0x131 then ['I']
  else if c.toNat = 0x17F then ['S']
  else if c.toNat = 0xDF then ['S', 'S']
  else if c.toNat = 0xFB00 then ['F', 'F']
  else if c.toNat = 0xFB01 then ['F', 'I']
  else if c.toNat = 0xFB02 then ['F', 'L']
  else if c.toNat = 0xFB03 then ['F', 'F', 'I']
  else if c.toNat = 0xFB04 then ['F', 'F', 'L']
  else if c.toNat = 0xFB05 then ['S', 'T']
  else if c.toNat = 0xFB06 then ['S', 'T']
  else [c]

/-- `text.toUpperCase()`, see `upperChar`. -/
def toUpperCase (s : Str) : Str := s.flatMap upperChar

/-- `String(n)` of a natural number. -/
def ofNat (n : Nat) : Str := Nat.toDigits 10 n

/-- The value of a decimal text. -/
def decimal (s : Str) : Nat := s.foldl (fun n c => 10 * n + (c.toNat - 48)) 0

/-- The UTF-16 code units of a character. -/
def codeUnits (c : Char) : List Nat :=
  if c.toNat < 0x10000 then [c.toNat]
  else [0xD800 + (c.toNat - 0x10000) / 1024, 0xDC00 + (c.toNat - 0x10000) % 1024]

/-- The order of `Array.prototype.sort` on strings: lexicographic on UTF-16 code units. -/
def le (a b : Str) : Bool := decide (a.flatMap codeUnits ≤ b.flatMap codeUnits)

/-- The values a character can have. -/
theorem toNat_scalar (c : Char) : c.toNat < 0xD800 ∨ 0xDFFF < c.toNat ∧ c.toNat < 0x110000 := c.valid

/-- Texts with the same code units are equal. -/
theorem flatMap_codeUnits_injective {a b : Str} (h : a.flatMap codeUnits = b.flatMap codeUnits) : a = b := by
  have hne : ∀ c, codeUnits c ≠ [] := by
    intro c
    unfold codeUnits
    split_ifs <;> simp
  induction a generalizing b with
  | nil =>
    cases b with
    | nil => rfl
    | cons d b => exact absurd (append_eq_nil_iff.mp h.symm).1 (hne d)
  | cons c a ih =>
    cases b with
    | nil => exact absurd (append_eq_nil_iff.mp h).1 (hne c)
    | cons d b =>
      have hc := toNat_scalar c
      have hd := toNat_scalar d
      rw [flatMap_cons, flatMap_cons] at h
      unfold codeUnits at h
      -- A first unit is a surrogate exactly when its character takes two units.
      split_ifs at h with hsmall hsmall' hsmall' <;>
        simp only [cons_append, cons.injEq] at h
      · rw [Char.toNat_inj.mp h.1, ih h.2]
      · omega
      · omega
      · have hsame : c.toNat = d.toNat := by omega
        rw [Char.toNat_inj.mp hsame, ih h.2.2]

instance : Std.Total fun a b : Str => le a b = true :=
  ⟨fun a b => by simpa [le] using le_total (a.flatMap codeUnits) (b.flatMap codeUnits)⟩

instance : IsTrans Str fun a b => le a b = true :=
  ⟨fun a b c hab hbc => by
    simp only [le, decide_eq_true_eq] at hab hbc ⊢
    exact le_trans hab hbc⟩

instance : Std.Antisymm fun a b : Str => le a b = true :=
  ⟨fun a b hab hba => by
    simp only [le, decide_eq_true_eq] at hab hba
    exact flatMap_codeUnits_injective (le_antisymm hab hba)⟩

end Js

end Ploinky
