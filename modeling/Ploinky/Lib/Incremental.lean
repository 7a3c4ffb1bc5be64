import Mathlib

/-!
# Reading a stream in chunks

A parser looks at the front of a buffer: it reads an item, fails, or waits for more input. A reader
keeps the input that it has not read in its buffer, and stops for good at the first failure. Where the
parser does not change its mind when more input follows, what the reader has read depends only on the
stream, not on the chunks in which the stream arrived (`Reader.Reads.feed`).
-/

namespace Incremental

open List

variable {α β ε : Type}

/-- What a parser finds at the front of its input. -/
inductive Front (α β ε : Type) where
  | more
  | item (value : β) (rest : List α)
  | fail (error : ε) (rest : List α)

/-- The same with more input behind it; a parser that waits for input may then go on. -/
def Front.extend (input : List α) : Front α β ε → Front α β ε
  | .more => .more
  | .item value rest => .item value (rest ++ input)
  | .fail error rest => .fail error (rest ++ input)

/-- A parser that reads its items one by one and keeps its verdicts when more input follows. -/
structure Parser (α β ε : Type) where
  front : List α → Front α β ε
  extends_front : ∀ xs ys, front xs ≠ .more → front (xs ++ ys) = (front xs).extend ys
  shorter : ∀ {xs value rest}, front xs = .item value rest → rest.length < xs.length

/-- What was read of an input: the items, the failure that ended the reading, and the rest. -/
structure Reading (α β ε : Type) where
  items : List β
  error : Option ε
  rest : List α

namespace Parser

variable (p : Parser α β ε)

/-- Read as many items as there are. -/
def scan (xs : List α) : Reading α β ε :=
  match _h : p.front xs with
  | .more => ⟨[], none, xs⟩
  | .fail error rest => ⟨[], some error, rest⟩
  | .item value rest =>
    let after := scan rest
    { after with items := value :: after.items }
  termination_by xs.length
  decreasing_by exact p.shorter _h

variable {p} {xs : List α}

theorem scan_more (h : p.front xs = .more) : p.scan xs = ⟨[], none, xs⟩ := by
  rw [scan]
  split <;> simp_all

theorem scan_fail {error : ε} {rest : List α} (h : p.front xs = .fail error rest) :
    p.scan xs = ⟨[], some error, rest⟩ := by
  rw [scan]
  split <;> simp_all

theorem scan_item {value : β} {rest : List α} (h : p.front xs = .item value rest) :
    p.scan xs = { p.scan rest with items := value :: (p.scan rest).items } := by
  rw [scan]
  split <;> simp_all

variable (p)

/-- A reading that did not fail waits for more input. -/
theorem front_rest_scan (xs : List α) (h : (p.scan xs).error = none) : p.front (p.scan xs).rest = .more := by
  fun_induction scan p xs with
  | case1 xs hfront => exact hfront
  | case2 => cases h
  | case3 xs value rest hfront after ih => exact ih h

/-- Reading goes on where it stopped when more input follows, unless it failed. -/
theorem scan_append (xs ys : List α) : p.scan (xs ++ ys) = match (p.scan xs).error with
      | some error => ⟨(p.scan xs).items, some error, (p.scan xs).rest ++ ys⟩
      | none =>
        { p.scan ((p.scan xs).rest ++ ys) with
          items := (p.scan xs).items ++ (p.scan ((p.scan xs).rest ++ ys)).items } := by
  have hextend := p.extends_front xs ys
  fun_induction scan p xs with
  | case1 => rfl
  | case2 xs error rest hfront =>
    rw [hfront] at hextend
    exact scan_fail (hextend (by simp))
  | case3 xs value rest hfront after ih =>
    rw [hfront] at hextend
    rw [scan_item (hextend (by simp)), ih (p.extends_front rest ys)]
    show _ = match after.error with | some error => _ | none => _
    cases after.error <;> rfl

end Parser

/-- A reader of a stream: its buffer and whether it failed, with the items and the failure so far
and the length of the input it took. -/
structure Reader (α β ε : Type) where
  buffer : List α
  items : List β
  error : Option ε
  received : Nat

namespace Reader

variable (p : Parser α β ε)

/-- A reader before its first input. -/
def initial : Reader α β ε := ⟨[], [], none, 0⟩

/-- A chunk arrives. -/
def push (reader : Reader α β ε) (chunk : List α) : Reader α β ε :=
  if reader.error.isSome then reader
  else
    let reading := p.scan (reader.buffer ++ chunk)
    ⟨reading.rest, reader.items ++ reading.items, reading.error, reader.received + chunk.length⟩

/-- The chunks arrive one after the other. -/
def feed (reader : Reader α β ε) (chunks : List (List α)) : Reader α β ε :=
  chunks.foldl (push p) reader

/-- The place in the stream up to which the reader has read. -/
def position (reader : Reader α β ε) : Nat := reader.received - reader.buffer.length

/-- The reader has read a stream. After a failure it no longer takes the input that follows. -/
structure Reads (reader : Reader α β ε) (xs : List α) : Prop where
  items : reader.items = (p.scan xs).items
  error : reader.error = (p.scan xs).error
  buffer : reader.error = none → reader.buffer = (p.scan xs).rest
  received : reader.received + (p.scan xs).rest.length = xs.length + reader.buffer.length

variable {p} {reader : Reader α β ε} {xs : List α}

/-- A reader without input waits, when the parser does. -/
theorem reads_initial (h : p.front [] = .more) : Reads p initial [] where
  items := by rw [p.scan_more h]; rfl
  error := by rw [p.scan_more h]; rfl
  buffer := fun _ => by rw [p.scan_more h]; rfl
  received := by rw [p.scan_more h]; rfl

/-- A chunk extends the stream that was read. -/
theorem Reads.push (h : Reads p reader xs) (chunk : List α) :
    Reads p (reader.push p chunk) (xs ++ chunk) := by
  have hscan := p.scan_append xs chunk
  have hreceived := h.received
  match herror : reader.error with
  | some error =>
    have hpush : reader.push p chunk = reader := by simp [Reader.push, herror]
    rw [← h.error, herror] at hscan
    rw [hpush]
    refine ⟨by rw [hscan, h.items], by rw [hscan, herror], by simp [herror], ?_⟩
    rw [hscan]
    simp only [length_append]
    omega
  | none =>
    have hpush : reader.push p chunk = ⟨(p.scan ((p.scan xs).rest ++ chunk)).rest,
        reader.items ++ (p.scan ((p.scan xs).rest ++ chunk)).items,
        (p.scan ((p.scan xs).rest ++ chunk)).error, reader.received + chunk.length⟩ := by
      simp [Reader.push, herror, h.buffer herror]
    rw [← h.error, herror] at hscan
    rw [h.buffer herror] at hreceived
    rw [hpush]
    refine ⟨by rw [hscan, h.items], by rw [hscan], fun _ => by rw [hscan], ?_⟩
    rw [hscan]
    simp only [length_append]
    omega

/-- The chunks of a stream are read as the stream is. -/
theorem Reads.feed (h : Reads p reader xs) (chunks : List (List α)) :
    Reads p (reader.feed p chunks) (xs ++ chunks.flatten) := by
  induction chunks generalizing reader xs with
  | nil => rwa [flatten_nil, append_nil]
  | cons chunk chunks ih =>
    rw [flatten_cons, ← append_assoc]
    exact ih (h.push chunk)

/-- The place up to which the reader has read is that of the stream. -/
theorem Reads.position (h : Reads p reader xs) : reader.position = xs.length - (p.scan xs).rest.length := by
  have := h.received
  unfold Reader.position
  omega

end Reader

end Incremental
