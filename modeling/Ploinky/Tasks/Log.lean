import Ploinky.Js.Utf16

/-!
# The log of a task

The embedding of `appendTaskLog`. The tail is cut by code units, by as many as it has octets too many,
and the octets are counted as chunks come and go.
-/

namespace Ploinky.Tasks

open Js List

/-- `Buffer.byteLength(text, 'utf8')`. -/
def byteLength (text : Units) : Nat := (utf8Units text).length

/-- An entry of `taskLogs`. -/
structure LogState where
  tail : Units
  /-- The running count of octets, which is not always the length of the tail. -/
  tailBytes : Int
  seq : Nat
  truncated : Bool

/-- `createTaskLogState()`. -/
def createTaskLogState : LogState := ⟨[], 0, 0, false⟩

/-- The loop that trims the tail, with the count of its octets. -/
def trim (maxLogTailBytes : Nat) : Units → Int → Units × Int
  | [], tailBytes => ([], tailBytes)
  | unit :: rest, tailBytes =>
    let tail := unit :: rest
    if maxLogTailBytes < tailBytes then
      let charsToDrop := max 1 (min tail.length (tailBytes - maxLogTailBytes).toNat)
      trim maxLogTailBytes (tail.drop charsToDrop) (tailBytes - byteLength (tail.take charsToDrop))
    else (tail, tailBytes)
termination_by tail => tail.length
decreasing_by
  rw [length_drop]
  grind

/-- What `appendTaskLog` does to the log state. -/
def LogState.append (maxLogTailBytes : Nat) (full : Bool) (state : LogState) (text : Units) : LogState :=
  if text.isEmpty then state
  else
    let tail := state.tail ++ text
    let tailBytes := state.tailBytes + byteLength text
    if !full && decide (maxLogTailBytes < tailBytes) then
      let trimmed := trim maxLogTailBytes tail tailBytes
      ⟨trimmed.1, trimmed.2, state.seq + 1, true⟩
    else ⟨tail, tailBytes, state.seq + 1, state.truncated⟩

/-- The log state retains the end of what was written. -/
structure Retains (maxLogTailBytes : Nat) (whole : Units) (state : LogState) : Prop where
  bound : byteLength state.tail ≤ maxLogTailBytes
  suffix : state.tail <:+ whole
  bytes : state.tailBytes = byteLength state.tail
  truncated : state.truncated = true ↔ state.tail ≠ whole

/-- No unit of the text begins a surrogate pair. -/
def Unpaired (text : Units) : Prop := ∀ unit ∈ text, isHighSurrogate unit = false

variable {maxLogTailBytes : Nat} {tail whole text : Units} {tailBytes : Int} {state : LogState}

theorem byteLength_append (htail : Unpaired tail) (text : Units) :
    byteLength (tail ++ text) = byteLength tail + byteLength text := by
  have hformed : toWellFormed (tail ++ text) = toWellFormed tail ++ toWellFormed text := by
    induction tail with
    | nil => rfl
    | cons unit tail ih =>
      have hcons : ∀ rest, toWellFormed (unit :: rest) = loneUnit unit :: toWellFormed rest := by
        intro rest
        cases rest <;> simp [toWellFormed, htail unit mem_cons_self]
      rw [cons_append, hcons, hcons, ih fun other h => htail other (.tail _ h), cons_append]
  simp [byteLength, utf8Units, utf8Bytes, hformed]

/-- The loop ends with the count within the limit, and drops something when it was not. -/
theorem trim_spec (maxLogTailBytes : Nat) (htail : Unpaired tail) (hbytes : tailBytes = byteLength tail) :
    ∃ kept, trim maxLogTailBytes tail tailBytes = (kept, ↑(byteLength kept)) ∧ kept <:+ tail ∧
      byteLength kept ≤ maxLogTailBytes ∧ (maxLogTailBytes < tailBytes → kept.length < tail.length) := by
  fun_induction trim maxLogTailBytes tail tailBytes with
  | case1 =>
    subst hbytes
    exact ⟨[], rfl, suffix_rfl, Nat.zero_le _, fun h => absurd (Int.ofNat_lt.mp h) (Nat.not_lt_zero _)⟩
  | case2 unit rest tailBytes tail hover charsToDrop ih =>
    have htake : Unpaired (tail.take charsToDrop) := fun u h => htail u (mem_of_mem_take h)
    have hsplit := byteLength_append htake (tail.drop charsToDrop)
    rw [take_append_drop] at hsplit
    change tailBytes = byteLength tail at hbytes
    obtain ⟨kept, heq, hsuffix, hbound, -⟩ :=
      ih (fun u h => htail u (mem_of_mem_drop h)) (by rw [hbytes, hsplit]; omega)
    refine ⟨kept, heq, hsuffix.trans (drop_suffix _ _), hbound, fun _ => ?_⟩
    have hlength := hsuffix.length_le
    rw [length_drop] at hlength
    grind
  | case3 unit rest tailBytes tail hover =>
    rw [hbytes] at hover ⊢
    exact ⟨tail, rfl, suffix_rfl, Int.ofNat_le.mp (Int.not_lt.mp hover), fun h => absurd h hover⟩

/-- A chunk without surrogate pairs is appended, and the end of the whole text is retained. -/
theorem Retains.append (h : Retains maxLogTailBytes whole state) (hwhole : Unpaired whole)
    (htext : Unpaired text) :
    Retains maxLogTailBytes (whole ++ text) (state.append maxLogTailBytes false text) := by
  obtain ⟨before, hbefore⟩ := h.suffix
  have htail : Unpaired state.tail := fun unit hmem => hwhole unit (h.suffix.subset hmem)
  have hbytes : state.tailBytes + byteLength text = byteLength (state.tail ++ text) := by
    rw [h.bytes, byteLength_append htail]
    rfl
  have hsuffix : state.tail ++ text <:+ whole ++ text := ⟨before, by rw [← append_assoc, hbefore]⟩
  unfold LogState.append
  simp only [Bool.not_false, Bool.true_and, decide_eq_true_eq]
  split_ifs with hempty hexceeds
  · rwa [isEmpty_iff.mp hempty, append_nil]
  · obtain ⟨kept, heq, hkept, hbound, hdropped⟩ := trim_spec maxLogTailBytes
      (fun unit hmem => (mem_append.mp hmem).elim (htail unit) (htext unit)) hbytes
    have hshort := (hdropped hexceeds).trans_le hsuffix.length_le
    rw [heq]
    exact ⟨hbound, hkept.trans hsuffix, rfl, by simp [ne_of_apply_ne length hshort.ne]⟩
  · exact ⟨Int.ofNat_le.mp (hbytes ▸ Int.not_lt.mp hexceeds), hsuffix, hbytes, by simp [h.truncated]⟩

/-- The tail of a task with bounded retention, after each of its chunks. -/
theorem retains_of_appended (maxLogTailBytes : Nat) (chunks : List Units)
    (hchunks : ∀ chunk ∈ chunks, Unpaired chunk) : Retains maxLogTailBytes chunks.flatten
      (chunks.foldl (LogState.append maxLogTailBytes false) createTaskLogState) := by
  induction chunks using reverseRecOn with
  | nil => exact ⟨Nat.zero_le _, suffix_rfl, rfl, by simp [createTaskLogState]⟩
  | append_singleton chunks chunk ih =>
    rw [foldl_concat, flatten_concat]
    have hbefore := fun other h => hchunks other (mem_append_left [chunk] h)
    refine (ih hbefore).append ?_ (hchunks chunk (by simp))
    intro unit hmem
    obtain ⟨other, hother, hunit⟩ := mem_flatten.mp hmem
    exact hbefore other hother unit hunit

/-- Chunks without surrogate pairs, of which the first one is dropped. -/
theorem retains_of_appended_letters : Retains 3 [0xE9, 0x61, 0x62]
    ([[0xE9], [0x61, 0x62]].foldl (LogState.append 3 false) createTaskLogState) :=
  retains_of_appended 3 [[0xE9], [0x61, 0x62]] (by simp [Unpaired, isHighSurrogate])

/-- The first half of a surrogate pair is dropped. Alone, the other half takes more octets than the
count has left, and the tail outgrows its limit with the next chunk. -/
theorem halved_pair_outgrows_limit :
    let state := [[0xD83D, 0xDE00], [0x61, 0x62]].foldl (LogState.append 3 false) createTaskLogState
    state.tailBytes = 3 ∧ byteLength state.tail = 5 := by
  decide +kernel

end Ploinky.Tasks
