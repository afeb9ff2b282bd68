import Kitsune2.Api.Url
import Kitsune2.Lib.BigEndian
import Kitsune2.Lib.Loops

/-!
# Frame — encoding and decoding frames

A frame is a type byte, the length of its payload as a big-endian `u32`, and the payload.  Lengths
are `usize` everywhere else, 64 bits wide, and are cut to 32 bits where they are written, so a stream
stays in step exactly while every payload is shorter than `2^32`.

Bytes are taken out of a slice with a check of the bounds, and a failed check is a panic.
-/

namespace Kitsune2
namespace Transport

open Api Lib

/-! ## Frames -/

/-- `FRAME_HEADER_LEN`. -/
def frameHeaderLen : Nat := 5

inductive FrameType
  | preflight
  | data
  deriving DecidableEq, Repr

namespace FrameType

def toU8 : FrameType → UInt8
  | .preflight => 0
  | .data => 1

def tryFrom (value : UInt8) : Except Fault FrameType :=
  if value = 0 then .ok .preflight
  else if value = 1 then .ok .data
  else .error (.k2 ("unknown iroh frame type: " ++ toString value))

end FrameType

section Frames

variable (parse : String → Option ParsedUrl)

inductive Frame
  | preflight (url : Url parse) (preflight : Bytes)
  | data (data : Bytes)

/-- `len as u32`. -/
def asU32 (len : Nat) : Nat :=
  len % 2 ^ 32

/-- `u32::to_be_bytes`. -/
def toBeBytes (n : Nat) : Bytes :=
  beBytes 4 n

def encodeFrameHeader (ty : FrameType) (dataLen maxFrameBytes : Nat) : Except Fault Bytes :=
  if dataLen + frameHeaderLen > maxFrameBytes then .error (.k2 "frame too large")
  else .ok (ty.toU8 :: toBeBytes (asU32 dataLen))

variable {parse} in
/-- The payload of a preflight: the length of the URL, the URL and the preflight bytes. -/
def preflightPayload (url : Url parse) (preflight : Bytes) : Bytes :=
  toBeBytes (asU32 url.bytes.length) ++ url.bytes ++ preflight

def encodeFrame (frame : Frame parse) (maxFrameBytes : Nat) : Except Fault Bytes :=
  match frame with
  | .preflight url preflight => do
      let data := preflightPayload url preflight
      let header ← encodeFrameHeader .preflight data.length maxFrameBytes
      pure (header ++ data)
  | .data data => do
      let header ← encodeFrameHeader .data data.length maxFrameBytes
      pure (header ++ data)

/-! ## Decoding -/

/-- `data[i]`. -/
def byteAt (data : Bytes) (i : Nat) : Except Fault UInt8 :=
  match data[i]? with
  | some byte => .ok byte
  | none => .error (.panicked "index out of bounds")

/-- `data[start..stop]`. -/
def slice (data : Bytes) (start stop : Nat) : Except Fault Bytes :=
  if start ≤ stop ∧ stop ≤ data.length then .ok ((data.drop start).take (stop - start))
  else .error (.panicked "range out of bounds")

/-- `u32::from_be_bytes` of four bytes of the slice. -/
def readU32 (data : Bytes) (start : Nat) : Except Fault Nat := do
  let b0 ← byteAt data start
  let b1 ← byteAt data (start + 1)
  let b2 ← byteAt data (start + 2)
  let b3 ← byteAt data (start + 3)
  pure (ofBe [b0, b1, b2, b3])

def decodeFrameHeader (data : Bytes) (maxFrameBytes : Nat) : Except Fault (FrameType × Nat) :=
  if data.length < frameHeaderLen then .error (.k2 "iroh frame shorter than header")
  else do
    let frameType ← FrameType.tryFrom (← byteAt data 0)
    let dataLen ← readU32 data 1
    if dataLen + frameHeaderLen > maxFrameBytes then .error (.k2 "iroh frame too large")
    else pure (frameType, dataLen)

def decodeFramePreflight (data : Bytes) : Except Fault (Url parse × Bytes) :=
  if data.length < 4 then .error (.k2 "preflight data too short for URL length")
  else do
    let urlLen ← readU32 data 0
    if data.length < 4 + urlLen then .error (.k2 "preflight data too short for actual URL")
    else do
      let urlBytes ← slice data 4 (4 + urlLen)
      match strFromUtf8 urlBytes with
      | none => .error (.k2 "invalid peer url")
      | some _ => do
          -- the bytes of the text are the ones it was read from
          let url ← Url.new parse urlBytes
          let preflightBytes ← slice data (4 + urlLen) data.length
          pure (url, preflightBytes)

end Frames

/-! ## Numbers and slices in bounds -/

theorem byteAt_ok {data : Bytes} {i : Nat} (h : i < data.length) : byteAt data i = .ok data[i] := by
  rw [byteAt, List.getElem?_eq_getElem h]

theorem readU32_ok {data : Bytes} {start : Nat} (h : start + 4 ≤ data.length) :
    ∃ n, readU32 data start = .ok n := by
  rw [readU32, byteAt_ok (by omega), byteAt_ok (by omega), byteAt_ok (by omega),
    byteAt_ok (by omega)]
  exact ⟨_, rfl⟩

theorem slice_ok {data : Bytes} {start stop : Nat} (hle : start ≤ stop) (hin : stop ≤ data.length) :
    slice data start stop = .ok ((data.drop start).take (stop - start)) :=
  if_pos ⟨hle, hin⟩

/-- A number that was written with four bytes. -/
theorem ofBe_toBeBytes (n : Nat) : ofBe (toBeBytes (asU32 n)) = asU32 n := by
  have hmod : asU32 n % 256 ^ 4 = asU32 n := by
    unfold asU32
    rw [show (256 : Nat) ^ 4 = 2 ^ 32 by decide, Nat.mod_mod]
  rw [toBeBytes, ofBe_beBytes, hmod]

theorem readU32_toBeBytes (n : Nat) (rest : Bytes) :
    readU32 (toBeBytes (asU32 n) ++ rest) 0 = .ok (asU32 n) := by
  have hread : readU32 (toBeBytes (asU32 n) ++ rest) 0 = .ok (ofBe (toBeBytes (asU32 n))) := rfl
  rw [hread, ofBe_toBeBytes]

theorem readU32_header (ty : FrameType) (n : Nat) :
    readU32 (ty.toU8 :: toBeBytes (asU32 n)) 1 = .ok (asU32 n) := by
  have hread : readU32 (ty.toU8 :: toBeBytes (asU32 n)) 1 = .ok (ofBe (toBeBytes (asU32 n))) := rfl
  rw [hread, ofBe_toBeBytes]

theorem tryFrom_toU8 (ty : FrameType) : FrameType.tryFrom ty.toU8 = .ok ty := by
  cases ty with
  | preflight => rfl
  | data => rfl

/-! ## Headers -/

theorem length_header (ty : FrameType) (n : Nat) :
    (ty.toU8 :: toBeBytes (asU32 n)).length = frameHeaderLen := by
  rw [List.length_cons, toBeBytes, length_beBytes]
  rfl

theorem asU32_le (n : Nat) : asU32 n ≤ n :=
  Nat.mod_le n _

theorem asU32_eq_self_iff {n : Nat} : asU32 n = n ↔ n < 2 ^ 32 := by
  unfold asU32
  constructor
  · intro h
    rw [← h]
    exact Nat.mod_lt n (by decide)
  · exact Nat.mod_eq_of_lt

/-- An accepted header is read as its type and the length that was left of the payload's. -/
theorem decodeFrameHeader_encoded {ty : FrameType} {n maxFrameBytes : Nat}
    (h : n + frameHeaderLen ≤ maxFrameBytes) :
    decodeFrameHeader (ty.toU8 :: toBeBytes (asU32 n)) maxFrameBytes = .ok (ty, asU32 n) := by
  have hle := asU32_le n
  have hbyte : byteAt (ty.toU8 :: toBeBytes (asU32 n)) 0 = .ok ty.toU8 := rfl
  rw [decodeFrameHeader, if_neg (by rw [length_header]; exact lt_irrefl _)]
  refine bind_eq_ok_iff.mpr ⟨_, hbyte, bind_eq_ok_iff.mpr ⟨_, tryFrom_toU8 ty, ?_⟩⟩
  refine bind_eq_ok_iff.mpr ⟨_, readU32_header ty n, ?_⟩
  rw [if_neg (by omega)]
  rfl

/-- A header that is read announces a frame within the limit. -/
theorem decodeFrameHeader_within {header : Bytes} {maxFrameBytes : Nat} {ty : FrameType}
    {dataLen : Nat} (h : decodeFrameHeader header maxFrameBytes = .ok (ty, dataLen)) :
    dataLen + frameHeaderLen ≤ maxFrameBytes := by
  unfold decodeFrameHeader at h
  split at h
  · cases h
  · rcases bind_eq_ok_iff.mp h with ⟨byte, -, h⟩
    rcases bind_eq_ok_iff.mp h with ⟨ty', -, h⟩
    rcases bind_eq_ok_iff.mp h with ⟨n, -, h⟩
    split at h
    · cases h
    · rename_i hle
      cases h
      exact not_lt.mp hle

/-! ## No panics -/

/-- A value or an error, never a panic. -/
def PanicFree {α : Type} (r : Except Fault α) : Prop :=
  ∀ reason, r ≠ .error (.panicked reason)

theorem panicFree_bind {α β : Type} {x : Except Fault α} {f : α → Except Fault β} (hx : PanicFree x)
    (hf : ∀ a, x = .ok a → PanicFree (f a)) : PanicFree (x >>= f) := by
  cases x with
  | error fault =>
      intro reason h
      cases h
      exact hx reason rfl
  | ok a => exact hf a rfl

theorem tryFrom_panicFree (value : UInt8) : PanicFree (FrameType.tryFrom value) := by
  unfold FrameType.tryFrom
  split
  · nofun
  · split
    · nofun
    · nofun

theorem decodeFrameHeader_panicFree (header : Bytes) (maxFrameBytes : Nat) :
    PanicFree (decodeFrameHeader header maxFrameBytes) := by
  unfold decodeFrameHeader
  split
  · nofun
  · rename_i hlen
    have hfive : 5 ≤ header.length := not_lt.mp hlen
    have hlength : ∃ n, readU32 header 1 = .ok n := readU32_ok (by omega)
    rcases hlength with ⟨n, hn⟩
    rw [byteAt_ok (by omega), hn]
    refine panicFree_bind nofun fun byte _ => ?_
    -- the type byte may be unknown, which is an error
    refine panicFree_bind (tryFrom_panicFree _) fun ty _ => ?_
    refine panicFree_bind nofun fun dataLen _ => ?_
    split
    · nofun
    · nofun

section Frames

variable {parse : String → Option ParsedUrl}

theorem Url.new_panicFree (src : Bytes) : PanicFree (Url.new parse src) := by
  intro reason h
  unfold Url.new at h
  split at h
  · cases h
  · rename_i fault hvalid
    cases h
    exact validateUrl_not_panicked src reason hvalid

/-- The check of the URL's length is the one its slice needs. -/
theorem decodeFramePreflight_panicFree (data : Bytes) :
    PanicFree (decodeFramePreflight parse data) := by
  unfold decodeFramePreflight
  split
  · nofun
  · rename_i hfour
    have hlength : ∃ n, readU32 data 0 = .ok n := readU32_ok (by omega)
    rcases hlength with ⟨urlLen, hlen⟩
    rw [hlen]
    dsimp only [bind, Except.bind]
    split
    · nofun
    · rename_i hfits
      have hin : 4 + urlLen ≤ data.length := not_lt.mp hfits
      rw [slice_ok (Nat.le_add_right 4 urlLen) hin]
      dsimp only
      split
      · nofun
      · refine panicFree_bind (Url.new_panicFree _) fun url _ => ?_
        rw [slice_ok hin (le_refl _)]
        nofun

/-! ## Preflights -/

theorem length_preflightPayload (url : Url parse) (preflight : Bytes) :
    (preflightPayload url preflight).length = 4 + url.bytes.length + preflight.length := by
  rw [preflightPayload, List.length_append, List.length_append, toBeBytes, length_beBytes]

/-- What a preflight is read as accounts for all of its bytes. -/
theorem length_of_decodeFramePreflight {data preflight : Bytes} {url : Url parse}
    (h : decodeFramePreflight parse data = .ok (url, preflight)) :
    data.length = 4 + url.bytes.length + preflight.length := by
  unfold decodeFramePreflight at h
  split at h
  · cases h
  · rcases bind_eq_ok_iff.mp h with ⟨urlLen, -, h⟩
    split at h
    · cases h
    · rename_i hfits
      have hin : 4 + urlLen ≤ data.length := not_lt.mp hfits
      rw [slice_ok (Nat.le_add_right 4 urlLen) hin, slice_ok hin (le_refl _)] at h
      rcases bind_eq_ok_iff.mp h with ⟨urlBytes, hurl, h⟩
      split at h
      · cases h
      · rcases bind_eq_ok_iff.mp h with ⟨url', hnew, h⟩
        rcases bind_eq_ok_iff.mp h with ⟨rest, hrest, h⟩
        cases hurl
        cases hrest
        cases h
        rw [Url.bytes_of_new hnew, List.length_take, List.length_take, List.length_drop,
          List.length_drop]
        omega

/-- A preflight whose URL is not too long for its length is read as what it was made of. -/
theorem decodeFramePreflight_payload {url : Url parse} (hlen : url.bytes.length < 2 ^ 32)
    (preflight : Bytes) :
    decodeFramePreflight parse (preflightPayload url preflight) = .ok (url, preflight) := by
  have hself : asU32 url.bytes.length = url.bytes.length := asU32_eq_self_iff.mpr hlen
  have htotal := length_preflightPayload url preflight
  have hread : readU32 (preflightPayload url preflight) 0 = .ok url.bytes.length := by
    rw [preflightPayload, List.append_assoc, readU32_toBeBytes, hself]
  have hprefix : (toBeBytes (asU32 url.bytes.length)).length = 4 := length_beBytes 4 _
  have hurl : ((preflightPayload url preflight).drop 4).take (4 + url.bytes.length - 4) = url.bytes := by
    rw [preflightPayload, List.append_assoc, List.drop_left' hprefix, Nat.add_sub_cancel_left,
      List.take_left]
  have hrest : ((preflightPayload url preflight).drop (4 + url.bytes.length)).take
      ((preflightPayload url preflight).length - (4 + url.bytes.length)) = preflight := by
    rw [htotal, Nat.add_sub_cancel_left, preflightPayload, List.drop_left' (by
      rw [List.length_append, hprefix]), List.take_length]
  rcases Url.text url with ⟨text, htext⟩
  rw [decodeFramePreflight, if_neg (by omega)]
  refine bind_eq_ok_iff.mpr ⟨_, hread, ?_⟩
  rw [if_neg (by omega), slice_ok (Nat.le_add_right 4 _) (by omega), hurl]
  refine bind_eq_ok_iff.mpr ⟨_, rfl, ?_⟩
  rw [htext]
  refine bind_eq_ok_iff.mpr ⟨url, Url.new_bytes url, ?_⟩
  rw [slice_ok (by omega) (le_refl _), hrest]
  rfl

end Frames

end Transport
end Kitsune2
