import OpenMediaTransport.FrameCodec

/-!
Writer against reader for assembled frames. A well-formed frame describes its
own body: `from_bytes` returns it whatever bytes follow, and everything
`from_bytes` returns is well formed and writes back the bytes it was read from,
an unknown color-space code excepted.
-/

namespace OpenMediaTransport

open LittleEndian

namespace AssembledFrame

/-- The header's type and length fields tell the truth about the sections. -/
structure WellFormed (frame : AssembledFrame) : Prop where
  version : frame.header.version = protocolVersion
  metadata : frame.header.metadataLength.toNat = frame.metadata.length
  body : frame.header.dataLength.toInt =
    (frame.extBytes.length + (frame.data.length + frame.metadata.length) : Nat)
  video : frame.video.isSome = frame.header.frameType.contains .video
  audio : frame.audio.isSome =
    (frame.header.frameType.contains .audio && !frame.header.frameType.contains .video)

/-- A body with an unknown color-space code replaced by 0, where the type has one. -/
def canonicalExt (frameType : FrameType) (bytes : List UInt8) : List UInt8 :=
  if frameType.contains .video then patchColorSpace 28 bytes else bytes

theorem split_written (frame : AssembledFrame)
    (video : frame.video.isSome = frame.header.frameType.contains .video)
    (audio : frame.audio.isSome =
      (frame.header.frameType.contains .audio && !frame.header.frameType.contains .video)) :
    splitExt frame.header.frameType (frame.extBytes ++ frame.data) =
      .ok (frame.video, frame.audio, frame.data) := by
  cases isVideo : frame.header.frameType.contains .video with
  | true =>
      obtain ⟨v, present⟩ := Option.isSome_iff_exists.mp (video.trans isVideo)
      have absent : frame.audio = none := by simpa [isVideo] using audio
      have layout : frame.extBytes = v.toBytes := by simp [extBytes, present, absent]
      have long : ¬ (v.toBytes ++ frame.data).length < videoExtHeaderSize := by simp
      have rest : (v.toBytes ++ frame.data).drop videoExtHeaderSize = frame.data := by
        rw [← v.toBytes_length, List.drop_left]
      rw [splitExt, if_pos isVideo, layout, if_neg long, VideoHeader.read_written, present, absent]
      simp only [rest]
  | false =>
      have absent : frame.video = none := by simpa [isVideo] using video
      cases isAudio : frame.header.frameType.contains .audio with
      | true =>
          have some : frame.audio.isSome = true := by simp [audio, isAudio, isVideo]
          obtain ⟨a, present⟩ := Option.isSome_iff_exists.mp some
          have layout : frame.extBytes = a.toBytes := by simp [extBytes, present, absent]
          have long : ¬ (a.toBytes ++ frame.data).length < audioExtHeaderSize := by simp
          have rest : (a.toBytes ++ frame.data).drop audioExtHeaderSize = frame.data := by
            rw [← a.toBytes_length, List.drop_left]
          rw [splitExt, if_neg (by simp [isVideo]), if_pos isAudio, layout, if_neg long,
            AudioHeader.read_written, present, absent]
          simp only [rest]
      | false =>
          have none : frame.audio = none := by simpa [isAudio] using audio
          have layout : frame.extBytes = [] := by simp [extBytes, none, absent]
          rw [splitExt, if_neg (by simp [isVideo]), if_neg (by simp [isAudio]), layout, none, absent]
          rfl

theorem split_accepted (frameType : FrameType) (bytes : List UInt8) (video : Option VideoHeader)
    (audio : Option AudioHeader) (data : List UInt8)
    (ok : splitExt frameType bytes = .ok (video, audio, data)) :
    video.isSome = frameType.contains .video ∧
      audio.isSome = (frameType.contains .audio && !frameType.contains .video) ∧
      (frameType.contains .video = true → videoExtHeaderSize ≤ bytes.length) ∧
      (video.map VideoHeader.toBytes).getD [] ++ (audio.map AudioHeader.toBytes).getD [] ++ data =
        canonicalExt frameType bytes := by
  unfold splitExt at ok
  split at ok
  · rename_i isVideo
    split at ok
    · cases ok
    split at ok
    · cases ok
    rename_i header read
    cases ok
    have whole := VideoHeader.accepted bytes header read
    exact ⟨by simp [isVideo], by simp [isVideo], fun _ => whole.1,
      by simpa [canonicalExt, isVideo] using whole.2⟩
  · rename_i notVideo
    split at ok
    · rename_i isAudio
      split at ok
      · cases ok
      split at ok
      · cases ok
      rename_i header read
      cases ok
      have whole := AudioHeader.accepted bytes header read
      exact ⟨by simp [notVideo], by simp [notVideo, isAudio], fun video => absurd video notVideo,
        by simpa [canonicalExt, notVideo] using whole.2⟩
    · rename_i notAudio
      cases ok
      exact ⟨by simp [notVideo], by simp [notAudio], fun video => absurd video notVideo,
        by simp [canonicalExt, notVideo]⟩

theorem body_written (frame : AssembledFrame) (formed : WellFormed frame) :
    ofBody frame.header (frame.extBytes ++ (frame.data ++ frame.metadata)) = .ok frame := by
  have size : (frame.extBytes ++ (frame.data ++ frame.metadata)).length =
      (frame.extBytes ++ frame.data).length + frame.metadata.length := by
    simp only [List.length_append]
    omega
  have payload : (frame.extBytes ++ (frame.data ++ frame.metadata)).length -
      frame.header.metadataLength.toNat = (frame.extBytes ++ frame.data).length := by
    rw [size, formed.metadata]
    omega
  have enough : ¬ (frame.extBytes ++ (frame.data ++ frame.metadata)).length <
      frame.header.metadataLength.toNat := by
    rw [size, formed.metadata]
    omega
  rw [ofBody, if_neg enough, payload, ← List.append_assoc]
  dsimp only
  rw [List.take_left, List.drop_left, split_written frame formed.video formed.audio]

theorem ofBody_accepted (header : FrameHeader) (body : List UInt8) (frame : AssembledFrame)
    (ok : ofBody header body = .ok frame) :
    frame.header = header ∧ frame.metadata.length = header.metadataLength.toNat ∧
      frame.video.isSome = header.frameType.contains .video ∧
      frame.audio.isSome =
        (header.frameType.contains .audio && !header.frameType.contains .video) ∧
      (header.frameType.contains .video = true → videoExtHeaderSize ≤ body.length) ∧
      frame.extBytes ++ (frame.data ++ frame.metadata) = canonicalExt header.frameType body := by
  unfold ofBody at ok
  dsimp only at ok
  split at ok
  · cases ok
  rename_i enough
  split at ok
  · cases ok
  rename_i video audio data cut
  cases ok
  obtain ⟨someVideo, someAudio, room, joined⟩ := split_accepted _ _ _ _ _ cut
  refine ⟨rfl, ?_, someVideo, someAudio, ?_, ?_⟩
  · simp only [List.length_drop]
    omega
  · intro isVideo
    have inside := room isVideo
    simp only [List.length_take] at inside
    omega
  · simp only [extBytes, ← List.append_assoc, joined]
    unfold canonicalExt
    split
    · rename_i isVideo
      have inside := room isVideo
      simp only [videoExtHeaderSize] at inside
      rw [← patch_back _ _ _ (by omega), List.take_append_drop]
    · exact List.take_append_drop _ _

/-- The whole frame's bytes, with the color-space code of a video frame read as
the decoder reads it. -/
def canonicalBytes (frameType : FrameType) (bytes : List UInt8) : List UInt8 :=
  if frameType.contains .video then patchColorSpace 44 bytes else bytes

theorem canonical_header (header : FrameHeader) (body : List UInt8) :
    header.toBytes ++ canonicalExt header.frameType body =
      canonicalBytes header.frameType (header.toBytes ++ body) := by
  unfold canonicalExt canonicalBytes
  split
  · rw [show 44 = header.toBytes.length + 28 by simp [headerSize], patch_front]
  · rfl

theorem canonical_length (frameType : FrameType) (body : List UInt8)
    (room : frameType.contains .video = true → videoExtHeaderSize ≤ body.length) :
    (canonicalExt frameType body).length = body.length := by
  unfold canonicalExt
  split
  · rename_i isVideo
    have inside := room isVideo
    simp only [videoExtHeaderSize] at inside
    have field : (spaceBytes (slice body 28 32)).length = 4 := by
      have raw : (slice body 28 32).length = 4 := slice_length body 28 32 inside
      unfold spaceBytes
      split <;> simp [raw]
    simp only [patchColorSpace, List.length_append, List.length_take, List.length_drop, field]
    omega
  · rfl

theorem WellFormed.size (frame : AssembledFrame) (formed : WellFormed frame) :
    frame.header.dataLength.toNatClampNeg =
      (frame.extBytes ++ (frame.data ++ frame.metadata)).length := by
  rw [← Int32.toNat_toInt, formed.body]
  simp only [List.length_append, Int.toNat_natCast]

theorem WellFormed.nonnegative (frame : AssembledFrame) (formed : WellFormed frame) :
    ¬ frame.header.dataLength < 0 := by
  rw [Int32.lt_iff_toInt_lt, formed.body]
  simp only [Int32.toInt_zero]
  omega

theorem fromBytes_written (frame : AssembledFrame) (rest : List UInt8)
    (formed : WellFormed frame) : fromBytes (frame.toBytes ++ rest) = .ok frame := by
  have layout : frame.toBytes ++ rest =
      frame.header.toBytes ++ (frame.extBytes ++ (frame.data ++ frame.metadata) ++ rest) := by
    rw [toBytes, List.append_assoc]
  have size := formed.size
  have enough : ¬ (frame.toBytes ++ rest).length <
      headerSize + frame.header.dataLength.toNatClampNeg := by
    rw [size, layout]
    simp only [List.length_append, FrameHeader.toBytes_length]
    omega
  have body : slice (frame.toBytes ++ rest) headerSize
      (headerSize + frame.header.dataLength.toNatClampNeg) =
      frame.extBytes ++ (frame.data ++ frame.metadata) := by
    rw [layout, slice_skip _ _ _ _ (by simp), FrameHeader.toBytes_length, Nat.sub_self,
      Nat.add_sub_cancel_left, size]
    exact slice_head _ rest _ rfl
  rw [fromBytes, layout, FrameHeader.read_written _ _ formed.version, ← layout]
  dsimp only
  rw [if_neg formed.nonnegative, if_neg enough, body, body_written frame formed]

theorem fromBytes_accepted (bytes : List UInt8) (frame : AssembledFrame)
    (ok : fromBytes bytes = .ok frame) :
    WellFormed frame ∧
      headerSize + frame.header.dataLength.toNatClampNeg ≤ bytes.length ∧
      frame.toBytes = canonicalBytes frame.header.frameType
        (bytes.take (headerSize + frame.header.dataLength.toNatClampNeg)) := by
  unfold fromBytes at ok
  split at ok
  · cases ok
  rename_i header read
  split at ok
  · cases ok
  rename_i positive
  dsimp only at ok
  split at ok
  · cases ok
  rename_i enough
  obtain ⟨sameHeader, metadata, video, audio, room, joined⟩ := ofBody_accepted _ _ _ ok
  obtain ⟨_, version, front⟩ := FrameHeader.accepted bytes header read
  have inside : headerSize + header.dataLength.toNatClampNeg ≤ bytes.length := by omega
  have bodyLength : (slice bytes headerSize (headerSize + header.dataLength.toNatClampNeg)).length =
      header.dataLength.toNatClampNeg := by
    rw [slice_length _ _ _ inside]
    omega
  -- The header's length is that of the body, since the parts make up the body again.
  have total := congrArg List.length joined
  rw [canonical_length _ _ room, bodyLength] at total
  simp only [List.length_append] at total
  have nonneg : 0 ≤ header.dataLength.toInt := by
    rw [Int32.lt_iff_toInt_lt] at positive
    simpa using positive
  refine ⟨⟨?_, ?_, ?_, ?_, ?_⟩, ?_, ?_⟩
  · rw [sameHeader, version]
  · rw [sameHeader, metadata]
  · rw [sameHeader, total, ← Int32.toNat_toInt, Int.toNat_of_nonneg nonneg]
  · rw [sameHeader, video]
  · rw [sameHeader, audio]
  · rw [sameHeader]
    exact inside
  · rw [sameHeader, toBytes, joined, sameHeader, canonical_header, front, ← slice_front,
      slice_join _ _ _ _ (by omega) (by omega), slice_front]

/-- Decoding is exact in both directions. -/
theorem frame_format_exact :
    (∀ (frame : AssembledFrame) (rest : List UInt8), WellFormed frame →
      fromBytes (frame.toBytes ++ rest) = .ok frame) ∧
    (∀ (bytes : List UInt8) (frame : AssembledFrame), fromBytes bytes = .ok frame →
      WellFormed frame ∧ fromBytes frame.toBytes = .ok frame ∧
        frame.toBytes = canonicalBytes frame.header.frameType
          (bytes.take (headerSize + frame.header.dataLength.toNatClampNeg))) := by
  constructor
  · intro frame rest formed
    exact fromBytes_written frame rest formed
  · intro bytes frame ok
    obtain ⟨formed, _, written⟩ := fromBytes_accepted bytes frame ok
    refine ⟨formed, ?_, written⟩
    simpa using fromBytes_written frame [] formed

def uyvySample : AssembledFrame where
  header := ⟨protocolVersion, .video, 1, 2, 36⟩
  video := some ⟨.uyvy, 8, 2, 30, 1, 0x3FE38E39, .none, .undefined⟩
  audio := none
  data := [1, 2]
  metadata := [60, 0]

theorem frame_format_exact_uyvy :
    fromBytes (uyvySample.toBytes ++ [7]) = .ok uyvySample ∧
      (WellFormed uyvySample ∧ fromBytes uyvySample.toBytes = .ok uyvySample ∧
        uyvySample.toBytes = canonicalBytes uyvySample.header.frameType
          ((uyvySample.toBytes ++ [7]).take
            (headerSize + uyvySample.header.dataLength.toNatClampNeg))) :=
  have formed : WellFormed uyvySample := ⟨rfl, rfl, by decide, rfl, rfl⟩
  ⟨frame_format_exact.1 uyvySample [7] formed,
    frame_format_exact.2 (uyvySample.toBytes ++ [7]) uyvySample
      (frame_format_exact.1 uyvySample [7] formed)⟩

end AssembledFrame

end OpenMediaTransport
