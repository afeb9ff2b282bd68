import Kitsune2.Lib.Effect
import Kitsune2.Transport.Frame

/-!
# FrameStream — frames on an iroh stream

A connection's stream starts with one preflight frame and goes on with data frames.  The readers take
the bytes of one frame at a time, so what they return after a frame depends on whether they are still
at its end: a payload of `2^32` bytes or more leaves them in the middle of it.
-/

namespace Kitsune2
namespace Transport

open Api Lib

section Frames

variable (parse : String → Option ParsedUrl)

/-- The bytes of the frames, one after another. -/
def encodeFrames (frames : List (Frame parse)) (maxFrameBytes : Nat) : Except Fault Bytes := do
  let encoded ← frames.mapM fun frame => encodeFrame parse frame maxFrameBytes
  pure encoded.flatten

/-! ## Reading a stream -/

/-- `K2Error::other_src`: an error under a new text; a panic stays one. -/
def otherSrc (ctx : String) : Fault → Fault
  | .k2 _ => .k2 ctx
  | .panicked reason => .panicked reason

/-- The next bytes of a stream, which is the state, or an error if there are not as many. -/
def readExact (ctx : String) (len : Nat) : Eff Fault Bytes Bytes :=
  fun stream =>
    if stream.length < len then (.error (.k2 ctx), [])
    else (.ok (stream.take len), stream.drop len)

def readPreflightFrameFromStream (maxFrameBytes : Nat) : Eff Fault Bytes (Url parse × Bytes) := do
  let headerBytes ← readExact "preflight header read failed" frameHeaderLen
  let (frameType, dataLen) ← Eff.lift (decodeFrameHeader headerBytes maxFrameBytes)
  if frameType = .data then
    Eff.fail (.k2 "preflight frame expected, received data frame")
  else do
    let preflightBytes ← readExact "preflight data read failed" dataLen
    Eff.lift (decodeFramePreflight parse preflightBytes)

def readDataFrameFromStream (maxFrameBytes : Nat) : Eff Fault Bytes (Bytes × Nat) := do
  let header ← readExact "error reading data frame header" frameHeaderLen
  let (frameType, dataLen) ← Eff.lift
    ((decodeFrameHeader header maxFrameBytes).mapError
      (otherSrc "failed to decode iroh frame header"))
  if frameType = .preflight then
    Eff.fail (.k2 "data frame expected, received preflight frame")
  else do
    let data ← readExact "error reading data frame data" dataLen
    pure (data, dataLen)

/-- So many data frames, one after another. -/
def readDataFrames (maxFrameBytes : Nat) : Nat → Eff Fault Bytes (List (Bytes × Nat))
  | 0 => pure []
  | n + 1 => do
      let first ← readDataFrameFromStream maxFrameBytes
      let rest ← readDataFrames maxFrameBytes n
      pure (first :: rest)

/-- A preflight frame and then so many data frames. -/
def readFrames (maxFrameBytes n : Nat) :
    Eff Fault Bytes ((Url parse × Bytes) × List (Bytes × Nat)) := do
  let preflight ← readPreflightFrameFromStream parse maxFrameBytes
  let frames ← readDataFrames maxFrameBytes n
  pure (preflight, frames)

end Frames

/-! ## What the readers take -/

variable {parse : String → Option ParsedUrl} {maxFrameBytes : Nat} {stream rest : Bytes}

theorem returns_readExact_iff {ctx : String} {len : Nat} {data : Bytes} :
    Returns (readExact ctx len) stream data rest ↔ data.length = len ∧ stream = data ++ rest := by
  unfold Returns readExact
  by_cases hshort : stream.length < len
  · rw [if_pos hshort]
    constructor
    · nofun
    · rintro ⟨hlen, rfl⟩
      rw [List.length_append] at hshort
      omega
  · rw [if_neg hshort]
    constructor
    · intro h
      cases h
      refine ⟨?_, (List.take_append_drop len stream).symm⟩
      rw [List.length_take]
      omega
    · rintro ⟨rfl, rfl⟩
      rw [List.take_left, List.drop_left]

theorem mapError_eq_ok_iff {α : Type} {f : Fault → Fault} {x : Except Fault α} {a : α} :
    x.mapError f = .ok a ↔ x = .ok a := by
  cases x with
  | error fault =>
      constructor
      · nofun
      · nofun
  | ok a' => rfl

/-- A header of `ty` and a payload that its length announces. -/
def Framed (ty : FrameType) (maxFrameBytes : Nat) (stream payload rest : Bytes) : Prop :=
  ∃ header, header.length = frameHeaderLen ∧
    decodeFrameHeader header maxFrameBytes = .ok (ty, payload.length) ∧
    stream = header ++ (payload ++ rest)

theorem returns_readDataFrame_iff {data : Bytes} {dataLen : Nat} :
    Returns (readDataFrameFromStream maxFrameBytes) stream (data, dataLen) rest ↔
      dataLen = data.length ∧ Framed .data maxFrameBytes stream data rest := by
  unfold readDataFrameFromStream
  constructor
  · intro h
    rcases returns_bind_iff.mp h with ⟨header, afterHeader, hheader, hnext⟩
    rcases returns_lift_bind_iff.mp hnext with ⟨⟨ty, announced⟩, hdecode, hchecked⟩
    rw [mapError_eq_ok_iff] at hdecode
    rcases returns_check_iff.mp hchecked with ⟨hty, hbody⟩
    rcases returns_bind_iff.mp hbody with ⟨data', rest', hdata, hend⟩
    rcases returns_pure_iff.mp hend with ⟨hsame, hstream⟩
    cases hsame
    cases hstream
    rcases returns_readExact_iff.mp hheader with ⟨hlen, rfl⟩
    rcases returns_readExact_iff.mp hdata with ⟨rfl, rfl⟩
    cases ty with
    | preflight => exact absurd rfl hty
    | data => exact ⟨rfl, header, hlen, hdecode, rfl⟩
  · rintro ⟨rfl, header, hlen, hdecode, rfl⟩
    refine returns_bind_iff.mpr ⟨header, _, returns_readExact_iff.mpr ⟨hlen, rfl⟩, ?_⟩
    refine returns_lift_bind_iff.mpr ⟨_, mapError_eq_ok_iff.mpr hdecode, ?_⟩
    refine returns_check_iff.mpr ⟨nofun, ?_⟩
    refine returns_bind_iff.mpr ⟨data, rest, returns_readExact_iff.mpr ⟨rfl, rfl⟩, ?_⟩
    exact returns_pure_iff.mpr ⟨rfl, rfl⟩

theorem returns_readPreflightFrame_iff {url : Url parse} {preflight : Bytes} :
    Returns (readPreflightFrameFromStream parse maxFrameBytes) stream (url, preflight) rest ↔
      ∃ payload, decodeFramePreflight parse payload = .ok (url, preflight) ∧
        Framed .preflight maxFrameBytes stream payload rest := by
  unfold readPreflightFrameFromStream
  constructor
  · intro h
    rcases returns_bind_iff.mp h with ⟨header, afterHeader, hheader, hnext⟩
    rcases returns_lift_bind_iff.mp hnext with ⟨⟨ty, announced⟩, hdecode, hchecked⟩
    rcases returns_check_iff.mp hchecked with ⟨hty, hbody⟩
    rcases returns_bind_iff.mp hbody with ⟨payload, rest', hpayload, hend⟩
    rcases returns_lift_iff.mp hend with ⟨hpreflight, hstream⟩
    cases hstream
    rcases returns_readExact_iff.mp hheader with ⟨hlen, rfl⟩
    rcases returns_readExact_iff.mp hpayload with ⟨rfl, rfl⟩
    cases ty with
    | preflight => exact ⟨payload, hpreflight, header, hlen, hdecode, rfl⟩
    | data => exact absurd rfl hty
  · rintro ⟨payload, hpreflight, header, hlen, hdecode, rfl⟩
    refine returns_bind_iff.mpr ⟨header, _, returns_readExact_iff.mpr ⟨hlen, rfl⟩, ?_⟩
    refine returns_lift_bind_iff.mpr ⟨_, hdecode, ?_⟩
    refine returns_check_iff.mpr ⟨nofun, ?_⟩
    refine returns_bind_iff.mpr ⟨payload, rest, returns_readExact_iff.mpr ⟨rfl, rfl⟩, ?_⟩
    exact returns_lift_iff.mpr ⟨hpreflight, rfl⟩

/-! ## An encoded frame -/

theorem encodeFrameHeader_eq_ok_iff {ty : FrameType} {dataLen : Nat} {header : Bytes} :
    encodeFrameHeader ty dataLen maxFrameBytes = .ok header ↔
      dataLen + frameHeaderLen ≤ maxFrameBytes ∧ header = ty.toU8 :: toBeBytes (asU32 dataLen) := by
  unfold encodeFrameHeader
  by_cases hlarge : dataLen + frameHeaderLen > maxFrameBytes
  · rw [if_pos hlarge]
    constructor
    · nofun
    · rintro ⟨hle, -⟩
      exact absurd hle (not_le.mpr hlarge)
  · rw [if_neg hlarge, Except.ok.injEq]
    constructor
    · rintro rfl
      exact ⟨not_lt.mp hlarge, rfl⟩
    · rintro ⟨-, rfl⟩
      rfl

/-- The payload that a frame carries. -/
def Frame.payload : Frame parse → Bytes
  | .preflight url bytes => preflightPayload url bytes
  | .data bytes => bytes

def Frame.type : Frame parse → FrameType
  | .preflight _ _ => .preflight
  | .data _ => .data

theorem encodeFrame_eq_ok_iff {frame : Frame parse} {encoded : Bytes} :
    encodeFrame parse frame maxFrameBytes = .ok encoded ↔
      frame.payload.length + frameHeaderLen ≤ maxFrameBytes ∧
        encoded = (frame.type.toU8 :: toBeBytes (asU32 frame.payload.length)) ++ frame.payload := by
  have hencode : encodeFrame parse frame maxFrameBytes = (do
      let header ← encodeFrameHeader frame.type frame.payload.length maxFrameBytes
      pure (header ++ frame.payload)) := by
    cases frame with
    | preflight url preflight => rfl
    | data data => rfl
  rw [hencode, bind_eq_ok_iff]
  constructor
  · rintro ⟨header, hheader, h⟩
    rcases encodeFrameHeader_eq_ok_iff.mp hheader with ⟨hle, rfl⟩
    cases h
    exact ⟨hle, rfl⟩
  · rintro ⟨hle, rfl⟩
    exact ⟨_, encodeFrameHeader_eq_ok_iff.mpr ⟨hle, rfl⟩, rfl⟩

theorem exists_encodeFrame_data {data : Bytes} (h : data.length + frameHeaderLen ≤ maxFrameBytes) :
    ∃ encoded, encodeFrame parse (.data data) maxFrameBytes = .ok encoded :=
  ⟨_, encodeFrame_eq_ok_iff.mpr ⟨h, rfl⟩⟩

/-- What stands after the header of an encoded frame is read as a payload exactly as far as its
length survived. -/
theorem framed_encoded_iff {frame : Frame parse} {encoded payload rest' : Bytes}
    (h : encodeFrame parse frame maxFrameBytes = .ok encoded) :
    Framed frame.type maxFrameBytes (encoded ++ rest) payload rest' ↔
      payload.length = asU32 frame.payload.length ∧ frame.payload ++ rest = payload ++ rest' := by
  rcases encodeFrame_eq_ok_iff.mp h with ⟨hle, rfl⟩
  have hheader := length_header frame.type frame.payload.length
  have hdecode : decodeFrameHeader (frame.type.toU8 :: toBeBytes (asU32 frame.payload.length))
      maxFrameBytes = .ok (frame.type, asU32 frame.payload.length) := decodeFrameHeader_encoded hle
  constructor
  · rintro ⟨header, hlen, hread, hstream⟩
    rw [List.append_assoc] at hstream
    rcases List.append_inj hstream (hheader.trans hlen.symm) with ⟨rfl, hpayload⟩
    rw [hdecode, Except.ok.injEq, Prod.mk.injEq] at hread
    exact ⟨hread.2.symm, hpayload⟩
  · rintro ⟨hlen, hpayload⟩
    refine ⟨_, hheader, ?_, ?_⟩
    · rw [hlen]
      exact hdecode
    · rw [List.append_assoc, hpayload]

/-- A data frame is read again, and nothing after it is touched, exactly if its length survived. -/
theorem returns_readDataFrame_encoded_iff {data encoded rest' : Bytes}
    (h : encodeFrame parse (.data data) maxFrameBytes = .ok encoded) :
    Returns (readDataFrameFromStream maxFrameBytes) (encoded ++ rest) (data, data.length) rest' ↔
      data.length < 2 ^ 32 ∧ rest' = rest := by
  rw [returns_readDataFrame_iff, and_iff_right rfl]
  refine (framed_encoded_iff h).trans ?_
  constructor
  · rintro ⟨hlen, hpayload⟩
    exact ⟨asU32_eq_self_iff.mp hlen.symm, (List.append_cancel_left hpayload).symm⟩
  · rintro ⟨hlen, rfl⟩
    exact ⟨(asU32_eq_self_iff.mpr hlen).symm, rfl⟩

/-- A preflight is shorter than its frame, so its URL's length survives if the frame's does. -/
theorem returns_readPreflightFrame_encoded_iff {url : Url parse} {preflight encoded rest' : Bytes}
    (h : encodeFrame parse (.preflight url preflight) maxFrameBytes = .ok encoded) :
    Returns (readPreflightFrameFromStream parse maxFrameBytes) (encoded ++ rest) (url, preflight)
        rest' ↔
      4 + url.bytes.length + preflight.length < 2 ^ 32 ∧ rest' = rest := by
  have htotal := length_preflightPayload url preflight
  rw [returns_readPreflightFrame_iff]
  constructor
  · rintro ⟨payload, hdecode, hframed⟩
    rcases (framed_encoded_iff h).mp hframed with ⟨hlen, hpayload⟩
    -- what was decoded is as long as what was encoded
    have hsame : (preflightPayload url preflight).length = payload.length := by
      rw [htotal, length_of_decodeFramePreflight hdecode]
    have hself : asU32 (preflightPayload url preflight).length =
        (preflightPayload url preflight).length := by
      rw [hsame]
      exact (hlen.trans (congrArg asU32 hsame)).symm
    rw [← htotal]
    exact ⟨asU32_eq_self_iff.mp hself, (List.append_inj_right hpayload hsame).symm⟩
  · rintro ⟨hlen, rfl⟩
    refine ⟨preflightPayload url preflight, decodeFramePreflight_payload (by omega) preflight, ?_⟩
    refine (framed_encoded_iff h).mpr ⟨?_, rfl⟩
    exact (asU32_eq_self_iff.mpr (htotal.trans_lt hlen)).symm

/-! ## A stream of frames -/

theorem encodeFrames_cons_eq_ok_iff {frame : Frame parse} {frames : List (Frame parse)} :
    encodeFrames parse (frame :: frames) maxFrameBytes = .ok stream ↔
      ∃ encoded rest, encodeFrame parse frame maxFrameBytes = .ok encoded ∧
        encodeFrames parse frames maxFrameBytes = .ok rest ∧ stream = encoded ++ rest := by
  unfold encodeFrames
  rw [List.mapM_cons]
  constructor
  · intro h
    rcases bind_eq_ok_iff.mp h with ⟨all, hall, hflat⟩
    rcases bind_eq_ok_iff.mp hall with ⟨encoded, hframe, hall⟩
    rcases bind_eq_ok_iff.mp hall with ⟨others, hothers, hcons⟩
    cases hcons
    cases hflat
    exact ⟨encoded, others.flatten, hframe, bind_eq_ok_iff.mpr ⟨others, hothers, rfl⟩, rfl⟩
  · rintro ⟨encoded, rest, hframe, hrest, rfl⟩
    rcases bind_eq_ok_iff.mp hrest with ⟨others, hothers, hflat⟩
    cases hflat
    refine bind_eq_ok_iff.mpr ⟨encoded :: others, ?_, rfl⟩
    refine bind_eq_ok_iff.mpr ⟨encoded, hframe, ?_⟩
    exact bind_eq_ok_iff.mpr ⟨others, hothers, rfl⟩

/-- Data frames are read one after another to the end of the stream, if every length survived. -/
theorem returns_readDataFrames_encoded_iff :
    ∀ (datas : List Bytes) {stream : Bytes},
      encodeFrames parse (datas.map .data) maxFrameBytes = .ok stream →
      (Returns (readDataFrames maxFrameBytes datas.length) stream
          (datas.map fun data => (data, data.length)) [] ↔
        ∀ data ∈ datas, data.length < 2 ^ 32) := by
  intro datas
  induction datas with
  | nil =>
      intro stream h
      cases h
      exact ⟨fun _ data hdata => absurd hdata List.not_mem_nil, fun _ => rfl⟩
  | cons data datas ih =>
      intro stream h
      rcases encodeFrames_cons_eq_ok_iff.mp h with ⟨encoded, rest, hframe, hrest, rfl⟩
      rw [List.forall_mem_cons, List.length_cons, List.map_cons, readDataFrames]
      constructor
      · intro hreads
        rcases returns_bind_iff.mp hreads with ⟨first, afterFirst, hfirst, hnext⟩
        rcases returns_bind_iff.mp hnext with ⟨others, atEnd, hothers, hpure⟩
        rcases returns_pure_iff.mp hpure with ⟨hcons, rfl⟩
        cases hcons
        -- the first frame is read as it was written exactly when its length fits
        rcases (returns_readDataFrame_encoded_iff hframe).mp hfirst with ⟨hlen, rfl⟩
        exact ⟨hlen, (ih hrest).mp hothers⟩
      · rintro ⟨hlen, hall⟩
        refine returns_bind_iff.mpr ⟨(data, data.length), rest, ?_, ?_⟩
        · exact (returns_readDataFrame_encoded_iff hframe).mpr ⟨hlen, rfl⟩
        · refine returns_bind_iff.mpr ⟨_, [], (ih hrest).mpr hall, ?_⟩
          exact returns_pure_iff.mpr ⟨rfl, rfl⟩

theorem returns_readFrames_encoded_iff {url : Url parse} {preflight : Bytes} {datas : List Bytes}
    (h : encodeFrames parse (.preflight url preflight :: datas.map .data) maxFrameBytes = .ok stream) :
    Returns (readFrames parse maxFrameBytes datas.length) stream
        ((url, preflight), datas.map fun data => (data, data.length)) [] ↔
      4 + url.bytes.length + preflight.length < 2 ^ 32 ∧ ∀ data ∈ datas, data.length < 2 ^ 32 := by
  rcases encodeFrames_cons_eq_ok_iff.mp h with ⟨encoded, rest, hpreflight, hdatas, rfl⟩
  unfold readFrames
  constructor
  · intro hreads
    rcases returns_bind_iff.mp hreads with ⟨first, afterFirst, hfirst, hnext⟩
    rcases returns_bind_iff.mp hnext with ⟨frames, atEnd, hframes, hpure⟩
    rcases returns_pure_iff.mp hpure with ⟨hsame, rfl⟩
    cases hsame
    rcases (returns_readPreflightFrame_encoded_iff hpreflight).mp hfirst with ⟨hlen, rfl⟩
    exact ⟨hlen, (returns_readDataFrames_encoded_iff datas hdatas).mp hframes⟩
  · rintro ⟨hlen, hall⟩
    refine returns_bind_iff.mpr ⟨(url, preflight), rest, ?_, ?_⟩
    · exact (returns_readPreflightFrame_encoded_iff hpreflight).mpr ⟨hlen, rfl⟩
    · refine returns_bind_iff.mpr ⟨_, [], ?_, returns_pure_iff.mpr ⟨rfl, rfl⟩⟩
      exact (returns_readDataFrames_encoded_iff datas hdatas).mpr hall

/-! ## Every stream -/

/-- Reading a frame ends without a panic, and what is accepted are bytes within the limit. -/
def ReadsWithin {α : Type} (reader : Eff Fault Bytes α) (maxFrameBytes : Nat) (stream : Bytes) :
    Prop :=
  Ends reader stream fun r rest =>
    PanicFree r ∧ ∀ a, r = .ok a → ∃ frame, stream = frame ++ rest ∧ frame.length ≤ maxFrameBytes

theorem Framed.within {ty : FrameType} {payload : Bytes}
    (h : Framed ty maxFrameBytes stream payload rest) :
    ∃ frame, stream = frame ++ rest ∧ frame.length ≤ maxFrameBytes := by
  rcases h with ⟨header, hlen, hdecode, rfl⟩
  refine ⟨header ++ payload, (List.append_assoc header payload rest).symm, ?_⟩
  have hle := decodeFrameHeader_within hdecode
  rw [List.length_append, hlen]
  omega

theorem readsWithin_of_returns {α : Type} {reader : Eff Fault Bytes α}
    (hpanic : Ends reader stream fun r _ => PanicFree r)
    (hreturns : ∀ a rest, Returns reader stream a rest →
      ∃ frame, stream = frame ++ rest ∧ frame.length ≤ maxFrameBytes) :
    ReadsWithin reader maxFrameBytes stream := by
  refine ⟨hpanic, ?_⟩
  intro a ha
  exact hreturns a _ (Prod.ext ha rfl)

/-- Reading past the end of the stream is an error. -/
theorem panicFree_readExact_bind {α : Type} {ctx : String} {len : Nat}
    {f : Bytes → Eff Fault Bytes α}
    (hf : ∀ data rest, Ends (f data) rest fun r _ => PanicFree r) :
    Ends (readExact ctx len >>= f) stream fun r _ => PanicFree r := by
  refine ends_bind ?_ fun data rest _ => hf data rest
  intro fault s' hrun
  unfold readExact at hrun
  split at hrun
  · cases hrun
    nofun
  · cases hrun

theorem panicFree_lift_bind {α β : Type} {x : Except Fault β} {f : β → Eff Fault Bytes α}
    (hx : PanicFree x) (hf : ∀ b, Ends (f b) stream fun r _ => PanicFree r) :
    Ends (Eff.lift x >>= f) stream fun r _ => PanicFree r := by
  refine ends_lift_bind ?_ fun b _ => hf b
  rintro fault rfl reason h
  cases h
  exact hx reason rfl

theorem panicFree_mapError {α : Type} {ctx : String} {x : Except Fault α} (hx : PanicFree x) :
    PanicFree (x.mapError (otherSrc ctx)) := by
  cases x with
  | ok a => nofun
  | error fault =>
      cases fault with
      | k2 message => nofun
      | panicked reason => exact absurd rfl (hx reason)

theorem readDataFrame_within (maxFrameBytes : Nat) (stream : Bytes) :
    ReadsWithin (readDataFrameFromStream maxFrameBytes) maxFrameBytes stream := by
  refine readsWithin_of_returns ?_ ?_
  · refine panicFree_readExact_bind fun header afterHeader => ?_
    refine panicFree_lift_bind (panicFree_mapError (decodeFrameHeader_panicFree _ _)) ?_
    rintro ⟨ty, dataLen⟩
    cases ty with
    | preflight => nofun
    | data => exact panicFree_readExact_bind fun data rest => nofun
  · rintro ⟨data, dataLen⟩ rest hreads
    exact (returns_readDataFrame_iff.mp hreads).2.within

theorem readPreflightFrame_within (maxFrameBytes : Nat) (stream : Bytes) :
    ReadsWithin (readPreflightFrameFromStream parse maxFrameBytes) maxFrameBytes stream := by
  refine readsWithin_of_returns ?_ ?_
  · refine panicFree_readExact_bind fun header afterHeader => ?_
    refine panicFree_lift_bind (decodeFrameHeader_panicFree _ _) ?_
    rintro ⟨ty, dataLen⟩
    cases ty with
    | preflight =>
        refine panicFree_readExact_bind fun data rest => ?_
        exact decodeFramePreflight_panicFree data
    | data => nofun
  · rintro ⟨url, preflight⟩ rest hreads
    rcases returns_readPreflightFrame_iff.mp hreads with ⟨payload, -, hframed⟩
    exact hframed.within

/-! ## The whole stream -/

/-- Frames that were accepted are read again in their order to the end of the stream exactly if every
payload is shorter than `2^32` bytes; and whatever the stream, a reader neither panics nor accepts a
frame over the limit. -/
theorem frames_read_back_iff (parse : String → Option ParsedUrl) (maxFrameBytes : Nat) :
    (∀ (url : Url parse) (preflight : Bytes) (datas : List Bytes) (stream : Bytes),
      encodeFrames parse (.preflight url preflight :: datas.map .data) maxFrameBytes = .ok stream →
        (Returns (readFrames parse maxFrameBytes datas.length) stream
            ((url, preflight), datas.map fun data => (data, data.length)) [] ↔
          4 + url.bytes.length + preflight.length < 2 ^ 32 ∧
            ∀ data ∈ datas, data.length < 2 ^ 32)) ∧
    ∀ stream, ReadsWithin (readPreflightFrameFromStream parse maxFrameBytes) maxFrameBytes stream ∧
      ReadsWithin (readDataFrameFromStream maxFrameBytes) maxFrameBytes stream := by
  refine ⟨fun url preflight datas stream h => returns_readFrames_encoded_iff h, ?_⟩
  intro stream
  exact ⟨readPreflightFrame_within maxFrameBytes stream, readDataFrame_within maxFrameBytes stream⟩

/-- What is found in the one URL of the examples. -/
def sampleParse (text : String) : Option ParsedUrl :=
  if text = "ws://a:80" then
    some ⟨"ws", some "a", some 80, "/"⟩
  else none

/-- `ws://a:80`. -/
def sampleUrl : Url sampleParse :=
  ⟨[119, 115, 58, 47, 47, 97, 58, 56, 48], by decide +kernel⟩

/-- A preflight of fifteen bytes and two data frames, one of them empty. -/
theorem frames_read_back_sample :
    Returns (readFrames sampleParse 100 2)
      [0, 0, 0, 0, 15, 0, 0, 0, 9, 119, 115, 58, 47, 47, 97, 58, 56, 48, 1, 2,
        1, 0, 0, 0, 1, 7, 1, 0, 0, 0, 0]
      ((sampleUrl, [1, 2]), [([7], 1), ([], 0)]) [] := by
  refine ((frames_read_back_iff sampleParse 100).1 sampleUrl [1, 2] [[7], []] _ rfl).mpr ?_
  decide

/-- A data frame whose length leaves nothing in 32 bits is read as an empty one. -/
theorem returns_readDataFrame_of_asU32_eq_zero {data encoded : Bytes}
    (h : encodeFrame parse (.data data) maxFrameBytes = .ok encoded) (hzero : asU32 data.length = 0) :
    Returns (readDataFrameFromStream maxFrameBytes) encoded ([], 0) data := by
  refine returns_readDataFrame_iff.mpr ⟨rfl, ?_⟩
  have hframed : Framed .data maxFrameBytes (encoded ++ []) [] data :=
    (framed_encoded_iff h).mpr ⟨hzero.symm, List.append_nil data⟩
  rwa [List.append_nil] at hframed

/-- With a limit above `2^32` a data frame of `2^32` bytes is accepted and sent with the length zero:
it is read as an empty frame, and all of its bytes are left on the stream. -/
theorem long_frame_read_as_empty :
    ∃ stream,
      encodeFrames sampleParse [.preflight sampleUrl [], .data (List.replicate (2 ^ 32) 0)]
        (2 ^ 32 + 5) = .ok stream ∧
      Returns (readFrames sampleParse (2 ^ 32 + 5) 1) stream ((sampleUrl, []), [([], 0)])
        (List.replicate (2 ^ 32) 0) ∧
      ¬ Returns (readFrames sampleParse (2 ^ 32 + 5) 1) stream
        ((sampleUrl, []), [(List.replicate (2 ^ 32) 0, (List.replicate (2 ^ 32) (0 : UInt8)).length)])
        [] := by
  have hlen : (List.replicate (2 ^ 32) (0 : UInt8)).length = 2 ^ 32 := List.length_replicate
  generalize List.replicate (2 ^ 32) (0 : UInt8) = data at hlen ⊢
  have hpreflight : ∃ encoded,
      encodeFrame sampleParse (.preflight sampleUrl []) (2 ^ 32 + 5) = .ok encoded :=
    ⟨_, encodeFrame_eq_ok_iff.mpr ⟨by decide, rfl⟩⟩
  have hfive : frameHeaderLen = 5 := rfl
  have hfits : data.length + frameHeaderLen ≤ 2 ^ 32 + 5 := by
    omega
  have hdata : ∃ encoded, encodeFrame sampleParse (.data data) (2 ^ 32 + 5) = .ok encoded :=
    exists_encodeFrame_data hfits
  rcases hpreflight with ⟨first, hfirst⟩
  rcases hdata with ⟨second, hsecond⟩
  have hstream : encodeFrames sampleParse [.preflight sampleUrl [], .data data] (2 ^ 32 + 5) =
      .ok (first ++ (second ++ [])) :=
    encodeFrames_cons_eq_ok_iff.mpr ⟨first, _, hfirst,
      encodeFrames_cons_eq_ok_iff.mpr ⟨second, [], hsecond, rfl, rfl⟩, rfl⟩
  have hread : Returns (readFrames sampleParse (2 ^ 32 + 5) 1) (first ++ (second ++ []))
      ((sampleUrl, []), [([], 0)]) data := by
    refine returns_bind_iff.mpr ⟨(sampleUrl, []), second ++ [], ?_, ?_⟩
    · exact (returns_readPreflightFrame_encoded_iff hfirst).mpr ⟨by decide, rfl⟩
    · refine returns_bind_iff.mpr ⟨[([], 0)], data, ?_, returns_pure_iff.mpr ⟨rfl, rfl⟩⟩
      refine returns_bind_iff.mpr ⟨([], 0), data, ?_, ?_⟩
      · rw [List.append_nil]
        refine returns_readDataFrame_of_asU32_eq_zero hsecond ?_
        rw [hlen]
        decide
      · refine returns_bind_iff.mpr ⟨[], data, returns_pure_iff.mpr ⟨rfl, rfl⟩, ?_⟩
        exact returns_pure_iff.mpr ⟨rfl, rfl⟩
  refine ⟨_, hstream, hread, ?_⟩
  intro hback
  -- a stream is read in one way only
  have hrest : data = [] := (hread.det hback).2
  rw [hrest, List.length_nil] at hlen
  omega

end Transport
end Kitsune2
