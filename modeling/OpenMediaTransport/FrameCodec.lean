import OpenMediaTransport.LittleEndian
import OpenMediaTransport.WireTypes

/-!
`protocol/frame.rs`: the 16-byte common header, the two extended headers and
the assembled frame. A fixed-size array filled by `copy_from_slice` at adjoining
offsets is the concatenation of its fields. An `f32` field is its 32 bits.
-/

namespace OpenMediaTransport

open LittleEndian

def protocolVersion : UInt8 := 1
def headerSize : Nat := 16
def videoExtHeaderSize : Nat := 32
def audioExtHeaderSize : Nat := 24

structure FrameHeader where
  version : UInt8
  frameType : FrameType
  timestamp : Int64
  metadataLength : UInt16
  dataLength : Int32
  deriving DecidableEq, Repr

namespace FrameHeader

def toBytes (header : FrameHeader) : List UInt8 :=
  [header.version, header.frameType.bits] ++ (i64Bytes header.timestamp ++
    (u16Bytes header.metadataLength ++ i32Bytes header.dataLength))

def fromBytes (buf : List UInt8) : Except OmtError FrameHeader :=
  if buf.length < headerSize then .error (.protocol .headerTooShort)
  else
    let version := buf.getD 0 0
    if version ≠ protocolVersion then .error (.protocol (.unsupportedVersion version))
    else .ok {
      version := version
      frameType := ⟨buf.getD 1 0⟩
      timestamp := i64Of (slice buf 2 10)
      metadataLength := u16Of (slice buf 10 12)
      dataLength := i32Of (slice buf 12 16) }

end FrameHeader

structure VideoHeader where
  codec : Codec
  width : Int32
  height : Int32
  frameRateN : Int32
  frameRateD : Int32
  aspectRatio : UInt32
  flags : VideoFlags
  colorSpace : ColorSpace
  deriving DecidableEq, Repr

namespace VideoHeader

def toBytes (header : VideoHeader) : List UInt8 :=
  i32Bytes header.codec.asI32 ++ (i32Bytes header.width ++ (i32Bytes header.height ++
    (i32Bytes header.frameRateN ++ (i32Bytes header.frameRateD ++ (u32Bytes header.aspectRatio ++
      (i32Bytes header.flags.bits ++ i32Bytes header.colorSpace.code))))))

def fromBytes (buf : List UInt8) : Except OmtError VideoHeader :=
  if buf.length < videoExtHeaderSize then .error (.protocol .videoHeaderTooShort)
  else
    let codecRaw := i32Of (slice buf 0 4)
    match Codec.fromI32 codecRaw with
    | none => .error (.protocol (.unknownVideoCodec codecRaw))
    | some codec => .ok {
        codec := codec
        width := i32Of (slice buf 4 8)
        height := i32Of (slice buf 8 12)
        frameRateN := i32Of (slice buf 12 16)
        frameRateD := i32Of (slice buf 16 20)
        aspectRatio := u32Of (slice buf 20 24)
        flags := ⟨i32Of (slice buf 24 28)⟩
        colorSpace := .ofCode (i32Of (slice buf 28 32)) }

end VideoHeader

structure AudioHeader where
  codec : Codec
  sampleRate : Int32
  samplesPerChannel : Int32
  channels : Int32
  activeChannels : UInt32
  reserved1 : Int32
  deriving DecidableEq, Repr

namespace AudioHeader

def toBytes (header : AudioHeader) : List UInt8 :=
  i32Bytes header.codec.asI32 ++ (i32Bytes header.sampleRate ++
    (i32Bytes header.samplesPerChannel ++ (i32Bytes header.channels ++
      (u32Bytes header.activeChannels ++ i32Bytes header.reserved1))))

def fromBytes (buf : List UInt8) : Except OmtError AudioHeader :=
  if buf.length < audioExtHeaderSize then .error (.protocol .audioHeaderTooShort)
  else
    let codecRaw := i32Of (slice buf 0 4)
    match Codec.fromI32 codecRaw with
    | none => .error (.protocol (.unknownAudioCodec codecRaw))
    | some codec => .ok {
        codec := codec
        sampleRate := i32Of (slice buf 4 8)
        samplesPerChannel := i32Of (slice buf 8 12)
        channels := i32Of (slice buf 12 16)
        activeChannels := u32Of (slice buf 16 20)
        reserved1 := i32Of (slice buf 20 24) }

end AudioHeader

structure AssembledFrame where
  header : FrameHeader
  video : Option VideoHeader
  audio : Option AudioHeader
  data : List UInt8
  metadata : List UInt8
  deriving DecidableEq, Repr

namespace AssembledFrame

/-- The bytes of whatever extended headers are present, in `write_into`'s order. -/
def extBytes (frame : AssembledFrame) : List UInt8 :=
  (frame.video.map VideoHeader.toBytes).getD [] ++ (frame.audio.map AudioHeader.toBytes).getD []

def toBytes (frame : AssembledFrame) : List UInt8 :=
  frame.header.toBytes ++ (frame.extBytes ++ (frame.data ++ frame.metadata))

/-- The split of `ext_and_data` by frame type: VIDEO wins over AUDIO, and any
other type keeps the bytes as data. -/
def splitExt (frameType : FrameType) (extAndData : List UInt8) :
    Except OmtError (Option VideoHeader × Option AudioHeader × List UInt8) :=
  if frameType.contains .video then
    if extAndData.length < videoExtHeaderSize then .error (.protocol .missingVideoHeader)
    else match VideoHeader.fromBytes extAndData with
      | .error error => .error error
      | .ok video => .ok (some video, none, extAndData.drop videoExtHeaderSize)
  else if frameType.contains .audio then
    if extAndData.length < audioExtHeaderSize then .error (.protocol .missingAudioHeader)
    else match AudioHeader.fromBytes extAndData with
      | .error error => .error error
      | .ok audio => .ok (none, some audio, extAndData.drop audioExtHeaderSize)
  else .ok (none, none, extAndData)

/-- Cut a complete body from both ends, by the header's type and metadata length. -/
def ofBody (header : FrameHeader) (body : List UInt8) : Except OmtError AssembledFrame :=
  let metaLen := header.metadataLength.toNat
  if body.length < metaLen then .error (.protocol .metadataLongerThanBody)
  else
    let payloadEnd := body.length - metaLen
    match splitExt header.frameType (body.take payloadEnd) with
    | .error error => .error error
    | .ok (video, audio, data) =>
        .ok { header, video, audio, data, metadata := body.drop payloadEnd }

def fromBytes (buf : List UInt8) : Except OmtError AssembledFrame :=
  match FrameHeader.fromBytes buf with
  | .error error => .error error
  | .ok header =>
      if header.dataLength < 0 then .error (.protocol .negativeDataLength)
      else
        let bodyLen := header.dataLength.toNatClampNeg
        if buf.length < headerSize + bodyLen then .error (.protocol .frameTruncated)
        else ofBody header (slice buf headerSize (headerSize + bodyLen))

end AssembledFrame

/-! Each fixed header: its width, reading back what was written whatever
follows, and what an accepted buffer must have held. -/

namespace FrameHeader

@[simp] theorem toBytes_length (header : FrameHeader) : header.toBytes.length = headerSize := by
  simp [toBytes, headerSize]

theorem read_written (header : FrameHeader) (rest : List UInt8)
    (version : header.version = protocolVersion) :
    fromBytes (header.toBytes ++ rest) = .ok header := by
  have long : ¬ (header.toBytes ++ rest).length < headerSize := by simp
  have first : (header.toBytes ++ rest).getD 0 0 = header.version := rfl
  have second : (header.toBytes ++ rest).getD 1 0 = header.frameType.bits := rfl
  rw [fromBytes, if_neg long, first, if_neg (not_not_intro version), second]
  simp [toBytes, slice_cons, slice_skip, slice_head, List.append_assoc]

theorem accepted (buf : List UInt8) (header : FrameHeader) (ok : fromBytes buf = .ok header) :
    headerSize ≤ buf.length ∧ header.version = protocolVersion ∧
      header.toBytes = buf.take headerSize := by
  unfold fromBytes at ok
  split at ok
  · cases ok
  rename_i long
  simp only [Nat.not_lt, headerSize] at long
  dsimp only at ok
  split at ok
  · cases ok
  rename_i version
  simp only [ne_eq, Decidable.not_not] at version
  cases ok
  have pair : [buf.getD 0 0, buf.getD 1 0] = slice buf 0 2 := by
    match buf, long with
    | first :: second :: _, _ => rfl
  refine ⟨long, version, ?_⟩
  rw [toBytes, pair, i64_write _ (slice_length buf 2 10 (by omega)),
    u16_write _ (slice_length buf 10 12 (by omega)),
    i32_write _ (slice_length buf 12 16 (by omega)),
    slice_join buf 10 12 16 (by omega) (by omega), slice_join buf 2 10 16 (by omega) (by omega),
    slice_join buf 0 2 16 (by omega) (by omega), slice_front, headerSize]

theorem fromBytes_append (buf more : List UInt8) (long : headerSize ≤ buf.length) :
    fromBytes (buf ++ more) = fromBytes buf := by
  have size : 16 ≤ buf.length := long
  have first (index : Nat) (inside : index < 16) :
      (buf ++ more).getD index 0 = buf.getD index 0 := by
    simp only [List.getD_eq_getElem?_getD]
    rw [List.getElem?_append_left (by omega)]
  have grown : ¬ (buf ++ more).length < headerSize := by
    simp only [List.length_append, headerSize]
    omega
  rw [fromBytes, fromBytes, if_neg grown, if_neg (Nat.not_lt.mpr long), first 0 (by decide),
    first 1 (by decide), slice_append _ _ _ _ (by omega), slice_append _ _ _ _ (by omega),
    slice_append _ _ _ _ (by omega)]

end FrameHeader

/-- The color-space code a decoded header writes back: known codes stay, any
other code becomes 0. -/
def spaceBytes (raw : List UInt8) : List UInt8 :=
  if i32Of raw = 601 ∨ i32Of raw = 709 then raw else [0, 0, 0, 0]

theorem space_written (raw : List UInt8) (width : raw.length = 4) :
    i32Bytes (ColorSpace.ofCode (i32Of raw)).code = spaceBytes raw := by
  have back := i32_write raw width
  unfold ColorSpace.ofCode spaceBytes
  by_cases sd : i32Of raw = 601
  · rw [if_pos sd, if_pos (Or.inl sd)]
    rwa [sd] at back
  by_cases hd : i32Of raw = 709
  · rw [if_neg sd, if_pos hd, if_pos (Or.inr hd)]
    rwa [hd] at back
  · rw [if_neg sd, if_neg hd, if_neg (by simp [sd, hd])]
    decide

def patchColorSpace (offset : Nat) (bytes : List UInt8) : List UInt8 :=
  bytes.take offset ++ (spaceBytes (slice bytes offset (offset + 4)) ++ bytes.drop (offset + 4))

theorem patch_front (front bytes : List UInt8) (offset : Nat) :
    patchColorSpace (front.length + offset) (front ++ bytes) =
      front ++ patchColorSpace offset bytes := by
  have field : slice (front ++ bytes) (front.length + offset) (front.length + offset + 4) =
      slice bytes offset (offset + 4) := by
    rw [slice_skip _ _ _ _ (by omega)]
    congr 1 <;> omega
  have tail : (front ++ bytes).drop (front.length + offset + 4) = bytes.drop (offset + 4) := by
    rw [Nat.add_assoc, List.drop_length_add_append]
  rw [patchColorSpace, field, tail, List.take_length_add_append, List.append_assoc]
  rfl

theorem patch_back (bytes back : List UInt8) (offset : Nat) (inside : offset + 4 ≤ bytes.length) :
    patchColorSpace offset (bytes ++ back) = patchColorSpace offset bytes ++ back := by
  rw [patchColorSpace, slice_append _ _ _ _ inside, List.take_append_of_le_length (by omega),
    List.drop_append_of_le_length inside, patchColorSpace]
  simp only [List.append_assoc]

namespace VideoHeader

@[simp] theorem toBytes_length (header : VideoHeader) :
    header.toBytes.length = videoExtHeaderSize := by
  simp [toBytes, videoExtHeaderSize]

theorem read_written (header : VideoHeader) (rest : List UInt8) :
    fromBytes (header.toBytes ++ rest) = .ok header := by
  have long : ¬ (header.toBytes ++ rest).length < videoExtHeaderSize := by simp
  rw [fromBytes, if_neg long]
  simp [toBytes, slice_skip, slice_head, List.append_assoc]

theorem accepted (buf : List UInt8) (header : VideoHeader) (ok : fromBytes buf = .ok header) :
    videoExtHeaderSize ≤ buf.length ∧
      header.toBytes ++ buf.drop videoExtHeaderSize = patchColorSpace 28 buf := by
  unfold fromBytes at ok
  split at ok
  · cases ok
  rename_i long
  simp only [Nat.not_lt, videoExtHeaderSize] at long
  dsimp only at ok
  split at ok
  · cases ok
  rename_i codec known
  cases ok
  refine ⟨long, ?_⟩
  have front : buf.take 28 = slice buf 0 28 := (slice_front buf 28).symm
  rw [patchColorSpace, front, ← space_written _ (slice_length buf 28 32 (by omega)), toBytes,
    Codec.asI32_of_fromI32 _ _ known]
  dsimp only
  rw [i32_write _ (slice_length buf 0 4 (by omega)), i32_write _ (slice_length buf 4 8 (by omega)),
    i32_write _ (slice_length buf 8 12 (by omega)), i32_write _ (slice_length buf 12 16 (by omega)),
    i32_write _ (slice_length buf 16 20 (by omega)), u32_write _ (slice_length buf 20 24 (by omega)),
    i32_write _ (slice_length buf 24 28 (by omega)),
    ← slice_join buf 0 24 28 (by omega) (by omega), ← slice_join buf 0 20 24 (by omega) (by omega),
    ← slice_join buf 0 16 20 (by omega) (by omega), ← slice_join buf 0 12 16 (by omega) (by omega),
    ← slice_join buf 0 8 12 (by omega) (by omega), ← slice_join buf 0 4 8 (by omega) (by omega)]
  simp only [List.append_assoc, videoExtHeaderSize]

end VideoHeader

namespace AudioHeader

@[simp] theorem toBytes_length (header : AudioHeader) :
    header.toBytes.length = audioExtHeaderSize := by
  simp [toBytes, audioExtHeaderSize]

theorem read_written (header : AudioHeader) (rest : List UInt8) :
    fromBytes (header.toBytes ++ rest) = .ok header := by
  have long : ¬ (header.toBytes ++ rest).length < audioExtHeaderSize := by simp
  rw [fromBytes, if_neg long]
  simp [toBytes, slice_skip, slice_head, List.append_assoc]

theorem accepted (buf : List UInt8) (header : AudioHeader) (ok : fromBytes buf = .ok header) :
    audioExtHeaderSize ≤ buf.length ∧ header.toBytes ++ buf.drop audioExtHeaderSize = buf := by
  unfold fromBytes at ok
  split at ok
  · cases ok
  rename_i long
  simp only [Nat.not_lt, audioExtHeaderSize] at long
  dsimp only at ok
  split at ok
  · cases ok
  rename_i codec known
  cases ok
  refine ⟨long, ?_⟩
  have whole : buf = slice buf 0 24 ++ buf.drop 24 := by
    rw [slice_front, List.take_append_drop]
  rw [toBytes, Codec.asI32_of_fromI32 _ _ known]
  dsimp only
  rw [i32_write _ (slice_length buf 0 4 (by omega)), i32_write _ (slice_length buf 4 8 (by omega)),
    i32_write _ (slice_length buf 8 12 (by omega)), i32_write _ (slice_length buf 12 16 (by omega)),
    u32_write _ (slice_length buf 16 20 (by omega)), i32_write _ (slice_length buf 20 24 (by omega)),
    slice_join buf 16 20 24 (by omega) (by omega), slice_join buf 12 16 24 (by omega) (by omega),
    slice_join buf 8 12 24 (by omega) (by omega), slice_join buf 4 8 24 (by omega) (by omega),
    slice_join buf 0 4 24 (by omega) (by omega)]
  exact whole.symm

end AudioHeader

end OpenMediaTransport
