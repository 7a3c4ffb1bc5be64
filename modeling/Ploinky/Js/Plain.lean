import Ploinky.Js.JsonText

/-!
# A platform for concrete runs

A platform that has the properties the sources rely on: `localeCompare` is the order of code units, the
numbers are the natural numbers and the times are the first ten milliseconds. Its JSON texts are those
that `JSON.stringify` writes, and its reader takes one character after the other; `reads_render` says
that the text of a value reads back. The platform shows that the properties are consistent, and the
concrete runs of the development use it.
-/

namespace Ploinky.Js.Plain

open List

/-! ## Writing JSON -/

/-- The characters that are written as a backslash and a letter. -/
def escapes : List (Char × Char) :=
  [('"', '"'), ('\\', '\\'), (Char.ofNat 8, 'b'), (Char.ofNat 12, 'f'), ('\n', 'n'), ('\r', 'r'),
    ('\t', 't')]

/-- A character of a string. -/
def escape (c : Char) : Str :=
  match escapes.lookup c with
  | some letter => ['\\', letter]
  | none =>
    if c.toNat < 32 then
      lit "\\u00" ++ [Nat.digitChar (c.toNat / 16), Nat.digitChar (c.toNat % 16)]
    else [c]

/-- A string in quotation marks. -/
def quote (text : Str) : Str := '"' :: (text.flatMap escape ++ ['"'])

/-- The white space before an item: that of `JSON.stringify(value, null, 2)`, or none. -/
def pad (pretty : Bool) (depth : Nat) : Str :=
  if pretty then '\n' :: replicate (2 * depth) ' ' else []

/-- The name of a property, and its colon. -/
def keyText (pretty : Bool) (key : Str) : Str := quote key ++ (if pretty then lit ": " else lit ":")

mutual

/-- The text of a value. -/
def render (pretty : Bool) (depth : Nat) : Json → Str
  | .null => "null"
  | .bool b => if b then "true" else "false"
  | .num text => text
  | .str text => quote text
  | .arr items => if items.isEmpty then "[]" else renderItems pretty depth '[' items
  | .obj fields => if fields.isEmpty then "\x7b\x7d" else renderFields pretty depth '\x7b' fields

/-- The items of an array, each after a bracket or a comma, and the closing bracket. -/
def renderItems (pretty : Bool) (depth : Nat) (mark : Char) : List Json → Str
  | [] => pad pretty depth ++ [']']
  | item :: rest => mark :: (pad pretty (depth + 1) ++ (render pretty (depth + 1) item ++
      renderItems pretty depth ',' rest))

/-- The properties of an object, each after a brace or a comma, and the closing brace. -/
def renderFields (pretty : Bool) (depth : Nat) (mark : Char) : List (Str × Json) → Str
  | [] => pad pretty depth ++ ['\x7d']
  | (key, value) :: rest => mark :: (pad pretty (depth + 1) ++ (keyText pretty key ++
      (render pretty (depth + 1) value ++ renderFields pretty depth ',' rest)))

end

/-! ## Reading JSON -/

/-- The white space of JSON. -/
def isBlank (c : Char) : Bool := c == ' ' || c == '\n' || c == '\r' || c == '\t'

/-- The texts of the natural numbers. -/
def isNumber (text : Str) : Bool := text == ofNat (decimal text)

/-- The value of a name or a number. -/
def wordValue (word : Str) : Option Json :=
  if word = "null" then some .null
  else if word = "true" then some (.bool true)
  else if word = "false" then some (.bool false)
  else if isNumber word then some (.num word) else none

/-- The character of an escape, after the backslash. Surrogates are not read. -/
def unescape : Str → Option Char
  | [letter] => if letter = '/' then some '/' else (escapes.find? (·.2 == letter)).map Prod.fst
  | 'u' :: digits => do
    let values ← digits.mapM (lit "0123456789abcdef").idxOf?
    let code := values.foldl (16 * · + ·) 0
    if code.isValidChar then some (Char.ofNat code) else none
  | _ => none

/-- An array or an object around the place of the reader, with what was read of it. -/
inductive Frame where
  | items (read : List Json)
  | field (read : List (Str × Json)) (key : Str)

/-- The place of the reader: before a value, in a name or a number, in a string (with its escape so
far, and the properties before it when it is the name of one), before the name of a property, after it,
and after a value. -/
inductive Place where
  | start
  | word (text : Str)
  | text (read : Str) (pending : Option Str) (fields : Option (List (Str × Json)))
  | name (fields : List (Str × Json))
  | colon (fields : List (Str × Json)) (key : Str)
  | done (value : Json)

/-- The reader. -/
structure Reader where
  place : Place
  frames : List Frame

/-- The character after a value. -/
def afterValue (value : Json) (frames : List Frame) (c : Char) : Option Reader :=
  if isBlank c then some ⟨.done value, frames⟩
  else
    match frames with
    | .items read :: outer =>
      if c = ',' then some ⟨.start, .items (read ++ [value]) :: outer⟩
      else if c = ']' then some ⟨.done (.arr (read ++ [value])), outer⟩ else none
    | .field read key :: outer =>
      if c = ',' then some ⟨.name (read ++ [(key, value)]), outer⟩
      else if c = '\x7d' then some ⟨.done (.obj (read ++ [(key, value)])), outer⟩ else none
    | [] => none

/-- The place after a string. -/
def afterText (read : Str) : Option (List (Str × Json)) → Place
  | none => .done (.str read)
  | some fields => .colon fields read

/-- One character. -/
def step (reader : Reader) (c : Char) : Option Reader :=
  let frames := reader.frames
  match reader.place with
  | .start =>
    if isBlank c then some reader
    else if c = '"' then some ⟨.text [] none none, frames⟩
    else if c = '[' then some ⟨.start, .items [] :: frames⟩
    else if c = '\x7b' then some ⟨.name [], frames⟩
    else if isAlnum c then some ⟨.word [c], frames⟩
    else
      match frames with
      | .items [] :: outer => if c = ']' then some ⟨.done (.arr []), outer⟩ else none
      | _ => none
  | .word text =>
    if isAlnum c then some ⟨.word (text ++ [c]), frames⟩
    else (wordValue text).bind (afterValue · frames c)
  | .text read none fields =>
    if c = '"' then some ⟨afterText read fields, frames⟩
    else if c = '\\' then some ⟨.text read (some []) fields, frames⟩
    else if c.toNat < 32 then none else some ⟨.text (read ++ [c]) none fields, frames⟩
  | .text read (some pending) fields =>
    let escaped := pending ++ [c]
    if escaped.head? = some 'u' ∧ escaped.length < 5 then some ⟨.text read (some escaped) fields, frames⟩
    else (unescape escaped).map fun e => ⟨.text (read ++ [e]) none fields, frames⟩
  | .name fields =>
    if isBlank c then some reader
    else if c = '"' then some ⟨.text [] none (some fields), frames⟩
    else if c = '\x7d' ∧ fields = [] then some ⟨.done (.obj []), frames⟩ else none
  | .colon fields key =>
    if isBlank c then some reader
    else if c = ':' then some ⟨.start, .field fields key :: frames⟩ else none
  | .done value => afterValue value frames c

/-- The value at the end of the text. -/
def finish (reader : Reader) : Option Json :=
  match reader.place, reader.frames with
  | .done value, [] => some value
  | .word text, [] => wordValue text
  | _, _ => none

/-- `JSON.parse(text)`. -/
def parse (text : Str) : Option Json :=
  ((text.foldlM step ⟨.start, []⟩).bind finish).map (Json.written isNumber)

/-! ## Reading what was written -/

variable {reader : Reader} {frames : List Frame} {value : Json} {text : Str} {pretty : Bool} {c : Char}
  {depth : Nat}

theorem run_blanks (h : step reader ' ' = some reader) (n : Nat) :
    (replicate n ' ').foldlM step reader = some reader := by
  induction n with
  | zero => rfl
  | succ n ih => simp [replicate_succ, h, ih]

/-- White space before a value. -/
@[simp] theorem run_pad_start : (pad pretty depth).foldlM step ⟨.start, frames⟩ = some ⟨.start, frames⟩ := by
  cases pretty <;> simp [pad, step, isBlank, run_blanks]

/-- White space before the name of a property. -/
@[simp] theorem run_pad_name {fields : List (Str × Json)} :
    (pad pretty depth).foldlM step ⟨.name fields, frames⟩ = some ⟨.name fields, frames⟩ := by
  cases pretty <;> simp [pad, step, isBlank, run_blanks]

/-- A character reads back from its escape. -/
theorem run_escape (read : Str) (fields : Option (List (Str × Json))) (c : Char) :
    (escape c).foldlM step ⟨.text read none fields, frames⟩ =
      some ⟨.text (read ++ [c]) none fields, frames⟩ := by
  unfold escape
  cases hletter : escapes.lookup c with
  | some letter =>
    have hall : ∀ special ∈ escapes, special.2 ≠ 'u' ∧ unescape [special.2] = some special.1 := by
      decide
    obtain ⟨hu, hback⟩ := hall _ (AssocList.mem_of_lookup hletter)
    dsimp only at hu hback
    simp [step, hu, hback]
  | none =>
    dsimp only
    split_ifs with hcontrol
    · have hall : ∀ n < 32, unescape ['u', '0', '0', Nat.digitChar (n / 16), Nat.digitChar (n % 16)] =
          some (Char.ofNat n) := by decide
      have hback := hall c.toNat hcontrol
      rw [Char.ofNat_toNat] at hback
      simp [step, lit, hback]
    · have hquote : c ≠ '"' := by
        rintro rfl
        exact absurd hletter (by decide)
      have hslash : c ≠ '\\' := by
        rintro rfl
        exact absurd hletter (by decide)
      simp [step, hquote, hslash, hcontrol]

/-- A string reads back from its text. -/
theorem run_quote {fields : Option (List (Str × Json))}
    (h : step reader '"' = some ⟨.text [] none fields, frames⟩) (text : Str) :
    (quote text).foldlM step reader = some ⟨afterText text fields, frames⟩ := by
  have hrun : ∀ read, (text.flatMap escape).foldlM step ⟨.text read none fields, frames⟩ =
      some ⟨.text (read ++ text) none fields, frames⟩ := by
    induction text with
    | nil => simp
    | cons c text ih =>
      intro read
      rw [flatMap_cons, foldlM_append, run_escape]
      simpa using ih (read ++ [c])
  have hclose : step ⟨.text text none fields, frames⟩ '"' = some ⟨afterText text fields, frames⟩ := rfl
  simp [quote, h, hrun, hclose]

/-- The reader is right after a value: behind it, or at the end of its word. -/
def After (value : Json) (frames : List Frame) (reader : Reader) : Prop :=
  reader = ⟨.done value, frames⟩ ∨
    ∃ text, reader = ⟨.word text, frames⟩ ∧ wordValue text = some value

theorem After.step (h : After value frames reader) (hc : isAlnum c = false) :
    Plain.step reader c = afterValue value frames c := by
  obtain rfl | ⟨text, rfl, hvalue⟩ := h
  · rfl
  · simp [Plain.step, hc, hvalue]

/-- The closing bracket after a value. -/
theorem After.close (h : After value frames reader) (hc : isAlnum c = false) :
    (pad pretty depth ++ [c]).foldlM Plain.step reader = afterValue value frames c := by
  cases pretty with
  | false => simp [pad, h.step hc]
  | true =>
    have hblank : Plain.step ⟨.done value, frames⟩ ' ' = some ⟨.done value, frames⟩ := rfl
    have hline : Plain.step reader '\n' = some ⟨.done value, frames⟩ := h.step rfl
    have hlast : Plain.step ⟨.done value, frames⟩ c = afterValue value frames c := rfl
    simp [pad, hline, run_blanks hblank, hlast]

/-- The text reads as the value. -/
def Reads (value : Json) (text : Str) : Prop :=
  ∀ frames, ∃ reader, text.foldlM step ⟨.start, frames⟩ = some reader ∧ After value frames reader

/-- The items after one that was read. -/
theorem run_items {read items : List Json} (h : After value (.items read :: frames) reader)
    (hitems : ∀ item ∈ items, Reads item (render pretty (depth + 1) item)) :
    (renderItems pretty depth ',' items).foldlM step reader =
      some ⟨.done (.arr (read ++ value :: items)), frames⟩ := by
  induction items generalizing value read reader with
  | nil => exact h.close rfl
  | cons item items ih =>
    obtain ⟨next, hrun, hafter⟩ := hitems item (.head _) (.items (read ++ [value]) :: frames)
    have hcomma : step reader ',' = some ⟨.start, .items (read ++ [value]) :: frames⟩ := h.step rfl
    have hrest := ih hafter fun other hother => hitems other (.tail _ hother)
    simp [renderItems, hcomma, hrun, hrest]

/-- The name of a property, up to its value. -/
@[simp] theorem run_key (key : Str) (read : List (Str × Json)) :
    (keyText pretty key).foldlM step ⟨.name read, frames⟩ =
      some ⟨.start, .field read key :: frames⟩ := by
  have hopen : step ⟨.name read, frames⟩ '"' = some ⟨.text [] none (some read), frames⟩ := rfl
  rw [keyText, foldlM_append, run_quote hopen]
  cases pretty <;> rfl

/-- The properties after one that was read. -/
theorem run_fields {key : Str} {read fields : List (Str × Json)}
    (h : After value (.field read key :: frames) reader)
    (hfields : ∀ field ∈ fields, Reads field.2 (render pretty (depth + 1) field.2)) :
    (renderFields pretty depth ',' fields).foldlM step reader =
      some ⟨.done (.obj (read ++ (key, value) :: fields)), frames⟩ := by
  induction fields generalizing key value read reader with
  | nil => exact h.close rfl
  | cons field fields ih =>
    obtain ⟨next, hrun, hafter⟩ :=
      hfields field (.head _) (.field (read ++ [(key, value)]) field.1 :: frames)
    have hcomma : step reader ',' = some ⟨.name (read ++ [(key, value)]), frames⟩ := h.step rfl
    have hrest := ih hafter fun other hother => hfields other (.tail _ hother)
    simp [renderFields, hcomma, hrun, hrest]

/-- A name or a number reads as its value. -/
theorem reads_word (htext : text ≠ []) (hword : text.all isAlnum = true)
    (hvalue : wordValue text = some value) : Reads value text := by
  intro frames
  rw [all_eq_true] at hword
  have hrun : ∀ more read : Str, (∀ c ∈ more, isAlnum c = true) →
      more.foldlM step ⟨.word read, frames⟩ = some ⟨.word (read ++ more), frames⟩ := by
    intro more
    induction more with
    | nil => simp
    | cons c more ih =>
      intro read h
      have hc : step ⟨.word read, frames⟩ c = some ⟨.word (read ++ [c]), frames⟩ := if_pos (h c (.head _))
      simpa [hc] using ih (read ++ [c]) fun d hd => h d (.tail _ hd)
  obtain ⟨c, more, rfl⟩ := exists_cons_of_ne_nil htext
  have hc := hword c (.head _)
  have hne : ∀ d, isAlnum d = false → c ≠ d := by
    rintro d hd rfl
    rw [hc] at hd
    cases hd
  have hblank : isBlank c = false := by
    simp [isBlank, hne ' ' rfl, hne '\n' rfl, hne '\r' rfl, hne '\t' rfl]
  have hfirst : step ⟨.start, frames⟩ c = some ⟨.word [c], frames⟩ := by
    simp [step, hblank, hc, hne '"' rfl, hne '[' rfl, hne '\x7b' rfl]
  refine ⟨⟨.word (c :: more), frames⟩, ?_, .inr ⟨_, rfl, hvalue⟩⟩
  simpa [hfirst] using hrun more [c] fun d hd => hword d (.tail _ hd)

/-- The word of a number. -/
theorem reads_number (h : isNumber text = true) : Reads (.num text) text := by
  have hnatural := Json.natural_num_ofNat (decimal text)
  rw [← eq_of_beq h, Json.natural] at hnatural
  split_ifs at hnatural with hdigits
  simp only [Bool.and_eq_true, Bool.not_eq_true', isEmpty_eq_false_iff, all_eq_true] at hdigits
  have hword : text.all isAlnum = true :=
    all_eq_true.mpr fun c hc => by simp [isAlnum, hdigits.2 c hc]
  have hnot : ∀ name, isNumber name = false → text ≠ name := by
    rintro name hname rfl
    rw [h] at hname
    cases hname
  refine reads_word hdigits.1 hword ?_
  rw [wordValue, if_neg (hnot "null" (by decide)), if_neg (hnot "true" (by decide)),
    if_neg (hnot "false" (by decide)), if_pos h]

/-- The text of a value reads back. -/
theorem reads_render (pretty : Bool) (h : value.written isNumber = value) (depth : Nat) :
    Reads value (render pretty depth value) := by
  induction value generalizing depth with
  | null =>
    rw [render]
    exact reads_word (by decide) (by decide) rfl
  | bool b =>
    rw [render]
    cases b <;> exact reads_word (by decide) (by decide) rfl
  | num text =>
    rw [Json.written] at h
    split_ifs at h with hnumber
    rw [render]
    exact reads_number hnumber
  | str text =>
    intro frames
    have hopen : step ⟨.start, frames⟩ '"' = some ⟨.text [] none none, frames⟩ := rfl
    exact ⟨⟨.done (.str text), frames⟩, run_quote hopen text, .inl rfl⟩
  | arr items ih =>
    intro frames
    rw [Json.written_arr, Json.arr.injEq] at h
    have hitems : ∀ item ∈ items, Reads item (render pretty (depth + 1) item) := by
      intro item hitem
      refine ih item hitem ?_ (depth + 1)
      rw [← h] at hitem
      obtain ⟨old, -, rfl⟩ := mem_map.mp hitem
      exact Json.written_written _ old
    cases items with
    | nil => exact ⟨⟨.done (.arr []), frames⟩, rfl, .inl rfl⟩
    | cons item items =>
      obtain ⟨next, hrun, hafter⟩ := hitems item (.head _) (.items [] :: frames)
      have hopen : step ⟨.start, frames⟩ '[' = some ⟨.start, .items [] :: frames⟩ := rfl
      have hrest := run_items hafter fun other hother => hitems other (.tail _ hother)
      refine ⟨⟨.done (.arr (item :: items)), frames⟩, ?_, .inl rfl⟩
      simp [render, renderItems, hopen, hrun, hrest]
  | obj fields ih =>
    intro frames
    rw [Json.written_obj, Json.obj.injEq] at h
    have hfields : ∀ field ∈ fields, Reads field.2 (render pretty (depth + 1) field.2) := by
      intro field hfield
      refine ih field hfield ?_ (depth + 1)
      rw [← h] at hfield
      obtain ⟨old, -, rfl⟩ := mem_map.mp hfield
      exact Json.written_written _ old.2
    cases fields with
    | nil => exact ⟨⟨.done (.obj []), frames⟩, rfl, .inl rfl⟩
    | cons field fields =>
      obtain ⟨next, hrun, hafter⟩ := hfields field (.head _) (.field [] field.1 :: frames)
      have hopen : step ⟨.start, frames⟩ '\x7b' = some ⟨.name [], frames⟩ := rfl
      have hrest := run_fields hafter fun other hother => hfields other (.tail _ hother)
      refine ⟨⟨.done (.obj (field :: fields)), frames⟩, ?_, .inl rfl⟩
      simp [render, renderFields, hopen, hrun, hrest]

/-- What was written is read back. -/
theorem parse_render (pretty : Bool) (value : Json) :
    parse (render pretty 0 (value.written isNumber)) = some (value.written isNumber) := by
  have hwritten := Json.written_written isNumber value
  obtain ⟨reader, hrun, hafter⟩ := reads_render pretty hwritten 0 []
  have hfinish : finish reader = some (value.written isNumber) := by
    obtain rfl | ⟨text, rfl, hvalue⟩ := hafter
    · rfl
    · exact hvalue
  simp [parse, hrun, hfinish, hwritten]

/-! ## The platform -/

/-- A text of 64 hexadecimal digits, for a digest. -/
def digest (bytes : Bytes) : Str :=
  let code := bytes.foldl (fun total octet => 257 * total + octet.toNat + 1) 0
  (range 64).map fun i => Nat.digitChar (code / 16 ^ i % 16)

/-- The text of a time. -/
def isoText (ms : Nat) : Str := lit "1970-01-01T00:00:00.00" ++ ofNat ms ++ lit "Z"

/-- The time of a text. -/
def timeOf (text : Str) : Option Nat := (range 10).find? (isoText · == text)

/-- The platform. -/
def platform : Platform where
  localeLe := le
  isIP := fun _ => 0
  domainToASCII := id
  numberOf := fun _ => none
  parseUrl := fun target _ => some { pathname := target, search := [] }
  isNumber := isNumber
  parseJson := parse
  stringifyJson := fun value => render false 0 (value.written isNumber)
  prettyJson := fun value => render true 0 (value.written isNumber)
  replaceInvalid := fun _ => []
  sha256 := digest
  routerOrigin := fun host _ => host
  isCanonicalRouterOrigin := fun _ => true
  dateParses := fun value => (value.bind Json.str?).any fun text => (timeOf text).isSome
  parseDate := fun text => (timeOf text).map Int.ofNat
  toISOString := fun ms => if 0 ≤ ms ∧ ms < 10 then some (isoText ms.toNat) else none
  validateHardwareOutcome := fun _ => .error []
  hostNetwork := fun _ _ _ => .ok false
  delegations := fun _ _ => none

/-- Its JSON texts can be read back. -/
theorem jsonText : platform.JsonText where
  empty := rfl
  newline := by
    intro text
    have hline : ∀ reader, (step reader '\n').bind finish = finish reader := by
      rintro ⟨_ | word | ⟨read, _ | pending, fields⟩ | _ | _ | value, frames⟩
      all_goals try rfl
      · cases frames <;> cases hvalue : wordValue word <;> simp [step, finish, afterValue, isBlank, isAlnum, hvalue, isLower, isUpper, isDigit]
      · simp only [step]
        split_ifs
        · rfl
        · simp [finish]
    simp only [platform, parse, foldlM_append]
    cases htext : text.foldlM step ⟨.start, []⟩ with
    | none => rfl
    | some reader => simp [hline]
  safeInteger := by
    intro n _
    have hnatural := Json.natural_num_ofNat n
    rw [Json.natural] at hnatural
    split_ifs at hnatural
    simpa [platform, isNumber] using congrArg ofNat (Option.some.inj hnatural).symm
  parsed := by
    intro text value h
    obtain ⟨read, -, rfl⟩ := Option.map_eq_some_iff.mp h
    exact Json.proper_written _ read
  stringify := parse_render false
  pretty := parse_render true

/-- The texts of its times read back. -/
theorem dateText : platform.DateText := by
  have hall : ∀ ms < 10, timeOf (isoText ms) = some ms := by decide
  have htime : ∀ ms text, platform.toISOString ms = some text →
      timeOf text = some ms.toNat ∧ 0 ≤ ms := by
    intro ms text h
    simp only [platform, Option.ite_none_right_eq_some, Option.some.injEq] at h
    obtain ⟨⟨hlow, hhigh⟩, rfl⟩ := h
    exact ⟨hall _ (by omega), hlow⟩
  refine ⟨fun ms text h => ?_, fun ms text h => ?_⟩
  · simp [platform, htime ms text h]
  · simp [platform, htime ms text h, Json.str?]

theorem length_quote_le (text : Str) : (quote text).length ≤ 6 * text.length + 2 := by
  have hescape : ∀ c, (escape c).length ≤ 6 := by
    intro c
    unfold escape
    split
    · exact Nat.le_of_ble_eq_true rfl
    · split_ifs <;> exact Nat.le_of_ble_eq_true rfl
  have hsum := sum_le_card_nsmul (text.map fun c => (escape c).length) 6 (by simp [hescape])
  simp [quote, length_flatMap] at hsum ⊢
  omega

/-- The octets of the text of a value that is written as it stands. -/
theorem length_prettyJson_le (h : value.written isNumber = value) :
    (utf8Bytes (platform.prettyJson value ++ ['\n'])).length ≤ 4 * (render true 0 value).length + 4 := by
  have hchar : ∀ c : Char, (utf8Encode c).length ≤ 4 := by
    intro c
    simp only [utf8Encode]
    split_ifs <;> simp
  have hall : ∀ text : Str, (utf8Bytes text).length ≤ 4 * text.length := by
    intro text
    induction text with
    | nil => decide
    | cons c text ih =>
      have hc := hchar c
      simp only [utf8Bytes, length_map, flatMap_cons, length_append, length_cons] at ih ⊢
      omega
  have hrender : platform.prettyJson value = render true 0 value := congrArg (render true 0) h
  simpa [hrender, Nat.mul_add] using hall (render true 0 value ++ ['\n'])

/-- A digest has 64 hexadecimal digits. -/
theorem digest_hex (bytes : Bytes) : (digest bytes).length = 64 ∧ (digest bytes).all isLowerHex = true := by
  have hdigit : ∀ n < 16, isLowerHex (Nat.digitChar n) = true := by decide
  simp [digest, hdigit _ (Nat.mod_lt _ _)]

end Ploinky.Js.Plain
