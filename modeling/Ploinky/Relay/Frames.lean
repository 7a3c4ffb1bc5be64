import Ploinky.Js.Error
import Ploinky.Js.Plain
import Ploinky.Lib.AssocList
import Ploinky.Lib.Base64
import Ploinky.Lib.Incremental

/-!
# The frames of the runtime relay

A relay frame travels as a JSON text behind its length in four bytes. The decoder collects the chunks
of a stream, emits each frame when it is complete, and stops at the first frame it cannot read. It is
an instance of the reader of `Incremental`: the loop of `push` is `Parser.scan`, and `frontFrame` is
one round of it.
-/

namespace Ploinky.Relay

open Js Incremental List Option

/-- `RELAY_FRAME_TYPES`. -/
def relayFrameTypes : List Str :=
  ["HELLO", "READY", "OPEN", "DATA", "HALF_CLOSE", "CANCEL", "END", "ERROR"]

/-- The value of a property: a JSON value, or the octets of a `Buffer`. -/
inductive Value where
  | json (value : Json)
  | bytes (octets : Bytes)
  deriving DecidableEq

/-- The value `JSON.stringify` writes. -/
def Value.toJson : Value → Json
  | .json value => value
  | .bytes octets => .obj [("type", .str "Buffer"),
      ("data", .arr (octets.map fun octet => .num (ofNat octet.toNat)))]

/-- The own properties of a frame. -/
structure Frame where
  fields : List (Str × Value)
  nodup : (fields.map Prod.fst).Nodup

namespace Frame

/-- `frame[key]`. -/
def get (frame : Frame) (key : Str) : Option Value := frame.fields.lookup key

/-- `{ ...frame, [key]: value }`. -/
def set (frame : Frame) (key : Str) (value : Value) : Frame :=
  ⟨setProperty frame.fields (key, value), AssocList.nodup_keys_set frame.nodup _⟩

/-- `{ ...frame }` of a JSON value, which has no type unless it is a text or an object. -/
def ofJson : Json → Frame
  | .str type => ⟨[("type", .json (.str type))], by simp⟩
  | .obj fields => ⟨fromEntries (mapValues .json fields), nodup_fromEntries _⟩
  | _ => ⟨[], nodup_nil⟩

/-- The object `JSON.stringify` writes. -/
def toJson (frame : Frame) : Json := .obj (mapValues Value.toJson frame.fields)

@[simp] theorem get_set (frame : Frame) (key other : Str) (value : Value) :
    (frame.set key value).get other = if other = key then some value else frame.get other :=
  AssocList.lookup_set frame.fields (key, value) other

/-- `String(frame.type || '')`. -/
def typeText (platform : Platform) (frame : Frame) : Str :=
  match frame.get "type" with
  | some (.json value) => strOr (some value) []
  | some (.bytes octets) => textOf platform octets
  | none => []

end Frame

/-- An error of the protocol. -/
structure Failure where
  message : Str
  code : Option Str
  deriving DecidableEq

/-- `new Error('runtimeRelayProtocol: ' + text)`. -/
def failure (text : Str) : Failure := ⟨"runtimeRelayProtocol: " ++ text, none⟩

section Codec

variable (platform : Platform) (maxFrameBytes : Nat)

/-- `normalizeFrame(frame)`. -/
def normalizeFrame (frame : Frame) : Except Failure Frame :=
  let type := toUpperCase (frame.typeText platform)
  if type ∈ relayFrameTypes then
    let normalized := frame.set "type" (.json (.str type))
    match normalized.get "data" with
    | some (.bytes octets) =>
      .ok ((normalized.set "data" (.json (.str (Base64.encode octets)))).set "dataEncoding"
        (.json (.str "base64")))
    | _ => .ok normalized
  else .error (failure ("unknown frame type '" ++ frame.typeText platform ++ "'"))

/-- `restoreFrameData(frame)`. A text is base64 when it has octets. -/
def restoreFrameData (frame : Frame) : Except Failure Frame :=
  if frame.get "dataEncoding" = some (.json (.str "base64")) then
    match frame.get "data" with
    | some (.json (.str text)) =>
      match Base64.decode text with
      | some octets => .ok (frame.set "data" (.bytes octets))
      | none => .error (failure "malformed base64 DATA payload")
    | _ => .error (failure "base64 DATA payload must be a string")
  else .ok frame

/-- `prefix.writeUInt32BE(n, 0)`. -/
def writeUInt32BE (n : Nat) : Bytes :=
  [.ofNat (n / 2 ^ 24), .ofNat (n / 2 ^ 16 % 256), .ofNat (n / 2 ^ 8 % 256), .ofNat (n % 256)]

/-- `buffer.readUInt32BE(0)`. -/
def readUInt32BE (a b c d : UInt8) : Nat :=
  ((a.toNat * 256 + b.toNat) * 256 + c.toNat) * 256 + d.toNat

/-- The body of an encoded frame. -/
def bodyOf (frame : Frame) : Bytes := utf8Bytes (platform.stringifyJson frame.toJson)

/-- `encodeRelayFrame(frame)`; with a type and a payload the frame is the payload with the type. -/
def encodeRelayFrame (frame : Frame) : Except Failure Bytes := do
  let normalized ← normalizeFrame platform frame
  let body := bodyOf platform normalized
  if body.length = 0 ∨ body.length > maxFrameBytes then
    .error { failure ("invalid frame length " ++ ofNat body.length) with
      code := some "RELAY_FRAME_TOO_LARGE" }
  else if body.length < 2 ^ 32 then .ok (writeUInt32BE body.length ++ body)
  else .error ⟨"The value of \"value\" is out of range.", some "ERR_OUT_OF_RANGE"⟩

/-- `decodeRelayFrameBody(body)`. -/
def decodeRelayFrameBody (body : Bytes) : Except Failure Frame :=
  match platform.parseJson (textOf platform body) with
  | none => .error (failure "malformed JSON frame")
  | some value => normalizeFrame platform (.ofJson value) >>= restoreFrameData

/-- One round of the loop of `push`. A frame leaves the buffer before its body is read. -/
def frontFrame : Bytes → Front UInt8 Frame Failure
  | a :: b :: c :: d :: rest =>
    let length := readUInt32BE a b c d
    if length = 0 ∨ length > maxFrameBytes then
      .fail (failure ("invalid frame length " ++ ofNat length)) (a :: b :: c :: d :: rest)
    else if rest.length < length then .more
    else match decodeRelayFrameBody platform (rest.take length) with
      | .ok frame => .item frame (rest.drop length)
      | .error error => .fail error (rest.drop length)
  | _ => .more

end Codec

section Decoder

variable (platform : Platform) (maxFrameBytes : Nat)

/-- The frames of a stream. A verdict on the front of the buffer stands when more bytes follow. -/
def frames : Parser UInt8 Frame Failure where
  front := frontFrame platform maxFrameBytes
  extends_front := by
    intro xs ys hmore
    match xs with
    | [] | [_] | [_, _] | [_, _, _] => exact absurd rfl hmore
    | a :: b :: c :: d :: rest =>
      simp only [frontFrame, cons_append, ne_eq] at hmore ⊢
      by_cases hlimit : readUInt32BE a b c d = 0 ∨ readUInt32BE a b c d > maxFrameBytes
      · simp only [hlimit, if_true]
        rfl
      · by_cases hshort : rest.length < readUInt32BE a b c d
        · simp [hlimit, hshort] at hmore
        · have hle : readUInt32BE a b c d ≤ rest.length := Nat.le_of_not_lt hshort
          have hlong : ¬ (rest ++ ys).length < readUInt32BE a b c d := by
            rw [length_append]
            omega
          simp only [hlimit, hshort, hlong, if_false, take_append_of_le_length hle,
            drop_append_of_le_length hle]
          cases decodeRelayFrameBody platform (rest.take (readUInt32BE a b c d)) <;> rfl
  shorter := by
    intro xs value rest h
    match xs with
    | [] | [_] | [_, _] | [_, _, _] => cases h
    | a :: b :: c :: d :: bytes =>
      simp only [frontFrame] at h
      split_ifs at h
      split at h <;> cases h
      simp only [length_drop, length_cons]
      omega

/-- `RelayFrameDecoder`: it has failed when it has an error. -/
abbrev RelayFrameDecoder := Reader UInt8 Frame Failure

/-- `push(chunk)`: the decoder after the chunk, and the frames returned or the error thrown. -/
def push (decoder : RelayFrameDecoder) (chunk : Bytes) :
    RelayFrameDecoder × Except Failure (List Frame) :=
  let after := decoder.push (frames platform maxFrameBytes) chunk
  (after, match decoder.error, after.error with
    | some _, _ => .ok []
    | none, some error => .error error
    | none, none => .ok (after.items.drop decoder.items.length))

/-- `end()`: the decoder after the end of the stream. -/
def finish (decoder : RelayFrameDecoder) : RelayFrameDecoder × Except Failure Unit :=
  if decoder.buffer.isEmpty then (decoder, .ok ())
  else
    let error := failure "truncated frame"
    ({ decoder with error := some error }, .error error)

/-- The decoder after the chunks of a stream. -/
def receive (chunks : List Bytes) : RelayFrameDecoder :=
  chunks.foldl (fun decoder chunk => (push platform maxFrameBytes decoder chunk).1) Reader.initial

/-- The frames of a list of bodies and the error of the first body that is refused. -/
def delivered : List (Except Failure Frame) → List Frame × Option Failure
  | [] => ([], none)
  | .error error :: _ => ([], some error)
  | .ok frame :: rest => (frame :: (delivered rest).1, (delivered rest).2)

end Decoder

variable {platform : Platform} {maxFrameBytes : Nat}

/-- What the decoder has read is what the stream holds. -/
theorem reads_receive (platform : Platform) (maxFrameBytes : Nat) (chunks : List Bytes) :
    Reader.Reads (frames platform maxFrameBytes) (receive platform maxFrameBytes chunks) chunks.flatten :=
  (Reader.reads_initial rfl).feed chunks

/-- A decoder that waits holds less than a frame of the largest size. -/
theorem length_of_more {bytes : Bytes} (h : frontFrame platform maxFrameBytes bytes = .more) :
    bytes.length < 4 + maxFrameBytes := by
  match bytes with
  | [] | [_] | [_, _] | [_, _, _] =>
    simp only [length_nil, length_cons]
    omega
  | a :: b :: c :: d :: rest =>
    simp only [frontFrame] at h
    split_ifs at h
    · simp only [length_cons]
      omega
    · split at h <;> cases h

/-- The length of a body is read as it was written. -/
theorem readUInt32BE_write {n : Nat} (h : n < 2 ^ 32) :
    readUInt32BE (.ofNat (n / 2 ^ 24)) (.ofNat (n / 2 ^ 16 % 256)) (.ofNat (n / 2 ^ 8 % 256))
      (.ofNat (n % 256)) = n := by
  have hfirst : n / 2 ^ 24 % 2 ^ 8 = n / 2 ^ 24 := Nat.mod_eq_of_lt (by omega)
  simp only [readUInt32BE, UInt8.toNat_ofNat']
  omega

variable {frame : Frame} {encoding : Bytes}

/-- The encoding of a frame is its body behind its length. -/
theorem encodeRelayFrame_eq_ok (h : encodeRelayFrame platform maxFrameBytes frame = .ok encoding) :
    ∃ normalized, normalizeFrame platform frame = .ok normalized ∧ 0 < (bodyOf platform normalized).length ∧
      (bodyOf platform normalized).length ≤ maxFrameBytes ∧ (bodyOf platform normalized).length < 2 ^ 32 ∧
      encoding = writeUInt32BE (bodyOf platform normalized).length ++ bodyOf platform normalized := by
  obtain ⟨normalized, hnormal, h⟩ := bind_eq_ok.mp h
  obtain ⟨hfits, h⟩ := guardProp_eq_ok.mp h
  split_ifs at h with hrange
  cases h
  exact ⟨normalized, hnormal, by omega, by omega, hrange, rfl⟩

/-- An encoded frame at the front of the buffer is read. -/
theorem frontFrame_encoding (h : encodeRelayFrame platform maxFrameBytes frame = .ok encoding)
    (rest : Bytes) :
    frontFrame platform maxFrameBytes (encoding ++ rest) =
      match decodeRelayFrameBody platform (encoding.drop 4) with
      | .ok frame => .item frame rest
      | .error error => .fail error rest := by
  obtain ⟨normalized, -, hpos, hle, hrange, rfl⟩ := encodeRelayFrame_eq_ok h
  have hlimit : ¬ ((bodyOf platform normalized).length = 0 ∨
      (bodyOf platform normalized).length > maxFrameBytes) := by omega
  have hlong : ¬ (bodyOf platform normalized ++ rest).length < (bodyOf platform normalized).length := by
    simp
  simp only [writeUInt32BE, cons_append, nil_append, frontFrame,
    readUInt32BE_write hrange, hlimit, hlong, if_false, take_left', drop_left',
    drop_succ_cons, drop_zero]

/-- The encodings of frames are read one by one, up to the first body that is refused. -/
theorem scan_encodings {sent : List Frame} {encodings : List Bytes}
    (h : List.Forall₂ (fun frame encoding => encodeRelayFrame platform maxFrameBytes frame = .ok encoding)
      sent encodings) : let expected := delivered (encodings.map fun encoding =>
      decodeRelayFrameBody platform (encoding.drop 4))
    let reading := (frames platform maxFrameBytes).scan encodings.flatten
    reading.items = expected.1 ∧ reading.error = expected.2 ∧
      (expected.2 = none → reading.rest = []) := by
  induction h with
  | nil =>
    rw [Parser.scan_more (p := frames platform maxFrameBytes) rfl]
    exact ⟨rfl, rfl, fun _ => rfl⟩
  | @cons frame encoding sent encodings hfirst hrest ih =>
    have hfront := frontFrame_encoding hfirst encodings.flatten
    rw [flatten_cons, map_cons]
    match hbody : decodeRelayFrameBody platform (encoding.drop 4) with
    | .ok received =>
      rw [hbody] at hfront
      rw [Parser.scan_item (p := frames platform maxFrameBytes) hfront]
      exact ⟨congrArg (received :: ·) ih.1, ih.2⟩
    | .error error =>
      rw [hbody] at hfront
      rw [Parser.scan_fail (p := frames platform maxFrameBytes) hfront]
      exact ⟨rfl, rfl, nofun⟩

/-! ## What a frame decodes to -/

/-- A value as it reads back. -/
def reread (platform : Platform) (value : Value) : Value :=
  .json (value.toJson.written platform.isNumber)

/-- The properties of a normalized frame read back one by one. -/
theorem get_ofJson_written (platform : Platform) (frame : Frame) (key : Str) :
    (Frame.ofJson (frame.toJson.written platform.isNumber)).get key =
      (frame.get key).map (reread platform) := by
  have hfields : fromEntries (mapValues Value.json (mapValues (Json.written platform.isNumber)
      (fromEntries (mapValues Value.toJson frame.fields)))) =
      (enumerate frame.fields).map fun pair => (pair.1, reread platform pair.2) := by
    rw [fromEntries_mapValues, fromEntries_mapValues, fromEntries_fromEntries,
      fromEntries_mapValues, fromEntries_of_nodup frame.nodup]
    simp [mapValues, reread]
  rw [Frame.toJson, Json.written_obj]
  show lookup key (fromEntries _) = _
  rw [hfields, AssocList.lookup_map_values,
    AssocList.lookup_perm frame.nodup (enumerate_perm _).symm]
  rfl

/-- The body of a frame with a known type decodes to the frame as it reads back. -/
theorem decode_bodyOf (htext : platform.JsonText) {type : Str}
    (htype : frame.get "type" = some (.json (.str type))) (hknown : type ∈ relayFrameTypes) :
    ∃ same : Frame, (∀ key, same.get key = (frame.get key).map (reread platform)) ∧
      decodeRelayFrameBody platform (bodyOf platform frame) = restoreFrameData same := by
  have hget := get_ofJson_written platform frame
  have hread : (Frame.ofJson (frame.toJson.written platform.isNumber)).get "type" =
      some (.json (.str type)) := by
    rw [hget, htype]
    simp [reread, Value.toJson]
  have hupper : ∀ known ∈ relayFrameTypes, toUpperCase (strOr (some (.str known)) []) = known := by
    decide
  refine ⟨(Frame.ofJson (frame.toJson.written platform.isNumber)).set "type" (.json (.str type)), ?_, ?_⟩
  · intro key
    rw [Frame.get_set]
    split_ifs with hkey
    · rw [hkey, ← hread, hget]
    · exact hget key
  · have hdata : ∀ octets, ((Frame.ofJson (frame.toJson.written platform.isNumber)).set "type"
        (.json (.str type))).get "data" ≠ some (.bytes octets) := by
      rw [Frame.get_set, if_neg (by decide), hget]
      cases frame.get "data" <;> simp [reread]
    have hnormal : normalizeFrame platform (.ofJson (frame.toJson.written platform.isNumber)) =
        .ok ((Frame.ofJson (frame.toJson.written platform.isNumber)).set "type"
          (.json (.str type))) := by
      simp only [normalizeFrame, Frame.typeText, hread, hupper type hknown, hknown, if_true]
    rw [decodeRelayFrameBody, bodyOf, textOf_utf8Bytes, htext.stringify]
    simp only [hnormal]
    rfl

/-- The properties of a normalized frame. -/
theorem get_normalizeFrame {normalized : Frame} (h : normalizeFrame platform frame = .ok normalized) :
    toUpperCase (frame.typeText platform) ∈ relayFrameTypes ∧ ∀ key, normalized.get key =
      if key = "type" then some (.json (.str (toUpperCase (frame.typeText platform))))
      else match frame.get "data" with
        | some (.bytes octets) =>
          if key = "dataEncoding" then some (.json (.str "base64"))
          else if key = "data" then some (.json (.str (Base64.encode octets))) else frame.get key
        | _ => frame.get key := by
  have hdata : (frame.set "type" (.json (.str (toUpperCase (frame.typeText platform))))).get "data" =
      frame.get "data" := by
    rw [Frame.get_set, if_neg (by decide)]
  unfold normalizeFrame at h
  simp only [hdata] at h
  split_ifs at h with hknown
  refine ⟨hknown, fun key => ?_⟩
  split at h <;> cases h
  · split_ifs with hencoding htype <;> simp_all [lit]
  · simp only [Frame.get_set]

/-- What arrives of a property of a frame: octets as they are, and with their encoding; the type in
upper case; other values as they read back. -/
def arrived (platform : Platform) (frame : Frame) (key : Str) : Option Value :=
  if key = "type" then some (.json (.str (toUpperCase (frame.typeText platform))))
  else match frame.get "data" with
    | some (.bytes octets) =>
      if key = "dataEncoding" then some (.json (.str "base64"))
      else if key = "data" then some (.bytes octets) else (frame.get key).map (reread platform)
    | _ => (frame.get key).map (reread platform)

/-- The data of the frame is octets, or the frame is not marked as base64. -/
def WellMarked (frame : Frame) : Prop :=
  (∃ octets, frame.get "data" = some (.bytes octets)) ∨
    frame.get "dataEncoding" ≠ some (.json (.str "base64"))

/-- Only a text is written as a text. -/
theorem eq_of_reread_str {value : Value} {text : Str}
    (h : reread platform value = .json (.str text)) : value = .json (.str text) := by
  simp only [reread, Value.json.injEq] at h
  match value with
  | .bytes _ | .json (.obj _) => simp [Value.toJson, Json.written_obj] at h
  | .json (.str _) => simpa [Value.toJson] using h
  | .json .null | .json (.bool _) | .json (.arr _) => simp [Value.toJson] at h
  | .json (.num _) =>
    simp only [Value.toJson, Json.written] at h
    split_ifs at h

/-- The body of an encoded frame decodes to what arrives of the frame. -/
theorem decode_encoding (htext : platform.JsonText)
    (h : encodeRelayFrame platform maxFrameBytes frame = .ok encoding) (hmarked : WellMarked frame) :
    ∃ received, decodeRelayFrameBody platform (encoding.drop 4) = .ok received ∧
      ∀ key, received.get key = arrived platform frame key := by
  obtain ⟨normalized, hnormal, -, -, -, rfl⟩ := encodeRelayFrame_eq_ok h
  obtain ⟨hknown, hget⟩ := get_normalizeFrame hnormal
  obtain ⟨same, hsame, hdecode⟩ := decode_bodyOf htext (hget "type") hknown
  have hstr : ∀ text, reread platform (.json (.str text)) = .json (.str text) := by
    simp [reread, Value.toJson]
  simp only [hget] at hsame
  show ∃ received, decodeRelayFrameBody platform (bodyOf platform normalized) = .ok received ∧ _
  rw [hdecode, restoreFrameData]
  unfold arrived
  split at hsame
  · next octets hdata =>
    have hbase : same.get "dataEncoding" = some (.json (.str "base64")) := by simp [hsame, hstr, lit]
    have hread : same.get "data" = some (.json (.str (Base64.encode octets))) := by
      simp [hsame, hstr, lit]
    simp only [hbase, hread, Base64.decode_encode]
    refine ⟨_, rfl, fun key => ?_⟩
    split_ifs <;> simp_all [lit]
  · next hnone =>
    have hplain : same.get "dataEncoding" ≠ some (.json (.str "base64")) := by
      rw [hsame]
      intro hread
      obtain ⟨value, hvalue, hread⟩ := map_eq_some_iff.mp hread
      rw [eq_of_reread_str hread] at hvalue
      obtain ⟨octets, hdata⟩ | hunmarked := hmarked
      · exact hnone octets hdata
      · exact hunmarked hvalue
    rw [if_neg hplain]
    refine ⟨same, rfl, fun key => ?_⟩
    rw [hsame]
    split_ifs <;> simp [hstr]

/-- The frames sent over the relay arrive one by one, in any chunks of the stream; of any stream
the frames that are emitted, the failure and its place do not depend on the chunks, a failed decoder
emits nothing more, and one that has not failed holds less than a frame of the largest size. -/
theorem relay_frames_arrive (platform : Platform) (htext : platform.JsonText) (maxFrameBytes : Nat) :
    (∀ sent encodings chunks, List.Forall₂ (fun frame encoding =>
        encodeRelayFrame platform maxFrameBytes frame = .ok encoding) sent encodings →
      chunks.flatten = encodings.flatten → let expected := delivered (encodings.map fun encoding =>
        decodeRelayFrameBody platform (encoding.drop 4))
      let decoder := receive platform maxFrameBytes chunks
      decoder.items = expected.1 ∧ decoder.error = expected.2 ∧
        (expected.2 = none → decoder.buffer = [] ∧ finish decoder = (decoder, .ok ()))) ∧
    (∀ frame encoding, encodeRelayFrame platform maxFrameBytes frame = .ok encoding →
      WellMarked frame → ∃ received, decodeRelayFrameBody platform (encoding.drop 4) = .ok received ∧
        ∀ key, received.get key = arrived platform frame key) ∧
    (∀ chunks other : List Bytes, chunks.flatten = other.flatten →
      let decoder := receive platform maxFrameBytes chunks
      let twin := receive platform maxFrameBytes other
      decoder.items = twin.items ∧ decoder.error = twin.error ∧ decoder.position = twin.position) ∧
    ∀ chunks, let decoder := receive platform maxFrameBytes chunks
      (decoder.error ≠ none →
        ∀ chunk, push platform maxFrameBytes decoder chunk = (decoder, .ok [])) ∧
      (decoder.error = none → decoder.buffer.length < 4 + maxFrameBytes) := by
  refine ⟨?_, fun frame encoding => decode_encoding htext, ?_, ?_⟩
  · intro sent encodings chunks hsent hchunks
    have hreads := reads_receive platform maxFrameBytes chunks
    rw [hchunks] at hreads
    obtain ⟨hitems, herror, hrest⟩ := scan_encodings hsent
    refine ⟨hreads.items.trans hitems, hreads.error.trans herror, fun hnone => ?_⟩
    have hbuffer := (hreads.buffer (hreads.error.trans (herror.trans hnone))).trans (hrest hnone)
    exact ⟨hbuffer, by simp [finish, hbuffer]⟩
  · intro chunks other hsame
    have hreads := reads_receive platform maxFrameBytes chunks
    have hother := reads_receive platform maxFrameBytes other
    rw [hsame] at hreads
    exact ⟨hreads.items.trans hother.items.symm, hreads.error.trans hother.error.symm,
      hreads.position.trans hother.position.symm⟩
  · intro chunks
    have hreads := reads_receive platform maxFrameBytes chunks
    refine ⟨fun hfailed chunk => ?_, fun hnone => ?_⟩
    · obtain ⟨error, herror⟩ := ne_none_iff_exists'.mp hfailed
      simp [push, Reader.push, herror]
    · rw [hreads.buffer hnone]
      exact length_of_more (Parser.front_rest_scan _ _ (hreads.error ▸ hnone))

/-- A frame with two octets arrives after one without, in chunks cut inside its length. -/
theorem relay_frames_arrive_cut :
    let data := (Frame.ofJson (.str "data")).set "data" (.bytes [1, 255])
    let first := [0, 0, 0, 15] ++ utf8Bytes "\x7b\"type\":\"OPEN\"\x7d"
    let second := [0, 0, 0, 53] ++
      utf8Bytes "\x7b\"type\":\"DATA\",\"data\":\"Af8=\",\"dataEncoding\":\"base64\"\x7d"
    let decoder := receive Plain.platform 200 [first ++ second.take 2, second.drop 2]
    encodeRelayFrame Plain.platform 200 (.ofJson (.str "open")) = .ok first ∧
      encodeRelayFrame Plain.platform 200 data = .ok second ∧ finish decoder = (decoder, .ok ()) ∧
        decoder.items.map (Frame.get · "data") = [none, some (.bytes [1, 255])] := by
  intro data first second decoder
  have hfirst : encodeRelayFrame Plain.platform 200 (.ofJson (.str "open")) = .ok first := by
    decide +kernel
  have hsecond : encodeRelayFrame Plain.platform 200 data = .ok second := by decide +kernel
  obtain ⟨harrive, hdecode, -, -⟩ := relay_frames_arrive Plain.platform Plain.jsonText 200
  obtain ⟨opened, hopened, hempty⟩ := hdecode _ _ hfirst (.inr (by decide))
  obtain ⟨read, hread, hdata⟩ := hdecode _ _ hsecond (.inl ⟨_, rfl⟩)
  obtain ⟨hitems, -, hend⟩ := harrive _ _ [first ++ second.take 2, second.drop 2]
    (.cons hfirst (.cons hsecond .nil)) (by simp)
  simp only [map_cons, hopened, hread, map_nil, delivered, true_implies] at hitems hend
  refine ⟨hfirst, hsecond, hend.2, ?_⟩
  simp only [decoder, hitems, map_cons, hempty, hdata, map_nil]
  rfl

/-- A failed decoder keeps what it holds, however much that is; and a frame that is marked as base64, with
a text that is not, is sent and then refused. -/
theorem refused_bytes_stay : 4 + 1 ≤ (receive Plain.platform 1 [[0, 0, 0, 2, 0]]).buffer.length ∧
    let data := (Frame.ofJson (.str "data")).set "data" (.json (.str "?"))
    ∃ encoding, encodeRelayFrame Plain.platform 200 (data.set "dataEncoding" (.json (.str "base64"))) =
        .ok encoding ∧
      (receive Plain.platform 200 [encoding]).error = some (failure "malformed base64 DATA payload") := by
  constructor
  · obtain ⟨error, hfail⟩ : ∃ error, (frames Plain.platform 1).front [0, 0, 0, 2, 0] =
        .fail error [0, 0, 0, 2, 0] := by
      simp [frames, frontFrame, readUInt32BE]
    show 5 ≤ ((frames Plain.platform 1).scan [0, 0, 0, 2, 0]).rest.length
    rw [Parser.scan_fail hfail]
    exact Nat.le_refl 5
  · intro data
    have hsent : encodeRelayFrame Plain.platform 200 (data.set "dataEncoding" (.json (.str "base64"))) =
        .ok ([0, 0, 0, 50] ++
          utf8Bytes "\x7b\"type\":\"DATA\",\"data\":\"?\",\"dataEncoding\":\"base64\"\x7d") := by
      decide +kernel
    refine ⟨_, hsent, (reads_receive ..).error.trans ?_⟩
    exact (scan_encodings (.cons hsent .nil)).2.1.trans (by decide +kernel)

end Ploinky.Relay
