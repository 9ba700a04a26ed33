import OpenMediaTransport.FrameMetadata
import OpenMediaTransport.PreviewVariant

/-!
Frames that a sender can put on the wire and a receiver can take off it: `build_frame`
gives no others as long as per-frame metadata and body stay within their limits, and a
preview of one is one.
-/

namespace OpenMediaTransport

/-- A frame that describes itself, is of one type and is within its limit. -/
structure Sendable (frame : AssembledFrame) : Prop where
  formed : frame.WellFormed
  kind : frame.header.frameType = .video ∨ frame.header.frameType = .audio ∨
    frame.header.frameType = .metadata
  fits : frame.header.dataLength.toNatClampNeg ≤ maxPayloadFor frame.header.frameType

namespace Sendable
variable {frame : AssembledFrame} (sendable : Sendable frame)
include sendable

theorem valid : isValidFrameType frame.header.frameType = true := by
  rcases sendable.kind with kind | kind | kind <;> rw [kind] <;> decide

theorem complete : CompleteFrame frame.toBytes :=
  written_complete frame sendable.formed sendable.fits sendable.valid

theorem read : AssembledFrame.fromBytes frame.toBytes = .ok frame :=
  (formed_describes frame sendable.formed).back

theorem same {other : AssembledFrame} (sent : Sendable other)
    (bytes : frame.toBytes = other.toBytes) : frame = other := by
  have read := sendable.read
  rw [bytes, sent.read] at read
  exact (Except.ok.inj read).symm

theorem picture (video : VideoHeader) (present : frame.video = some video) :
    frame.header.frameType = .video := by
  have flag := sendable.formed.video
  rw [present, Option.isSome_some] at flag
  rcases sendable.kind with kind | kind | kind
  · exact kind
  · rw [kind] at flag
    exact absurd flag (by decide)
  · rw [kind] at flag
    exact absurd flag (by decide)

theorem preview (video : VideoHeader) (present : frame.video = some video) (previewLen : Nat)
    (inside : previewLen ≤ frame.data.length) : Sendable (previewFrame frame video previewLen) where
  formed := previewFrame_formed frame video previewLen sendable.formed present inside
  kind := sendable.kind
  fits := by
    have length := previewFrame_length frame video previewLen sendable.formed present inside
    have whole := sendable.formed.body
    have fits := sendable.fits
    have ext : frame.extBytes.length ≥ videoExtHeaderSize := by
      simp [AssembledFrame.extBytes, present]
    refine Nat.le_trans ?_ fits
    rw [Int32.toNatClampNeg, Int32.toNatClampNeg, length, whole, Int.toNat_natCast,
      Int.toNat_natCast]
    omega

end Sendable

/-- What a peer is sent for a broadcast, by what it has asked for. -/
def Variant (frame sent : AssembledFrame) : Prop :=
  sent = frame ∨ ∃ video previewLen, frame.video = some video ∧ previewLen ≤ frame.data.length ∧
    sent = previewFrame frame video previewLen

theorem broadcast_variant (previewBitstreamLength : List UInt8 → Option Nat)
    (frame : AssembledFrame) (sendable : Sendable frame) (state : PeerState) :
    ∃ sent, Sendable sent ∧ Variant frame sent ∧
      (broadcastWire previewBitstreamLength frame).bytesFor state = sent.toBytes := by
  unfold WireBytes.bytesFor broadcastWire
  dsimp only
  split
  · rename_i asked
    rw [if_pos (Bool.and_eq_true_iff.mp asked).1]
    cases built : previewVideoBytes previewBitstreamLength frame with
    | none => exact ⟨frame, sendable, .inl rfl, rfl⟩
    | some bytes =>
        obtain ⟨video, previewLen, present, -, -, -, inside, same⟩ :=
          preview_serialized previewBitstreamLength frame bytes built
        exact ⟨previewFrame frame video previewLen, sendable.preview video present previewLen inside,
          .inr ⟨video, previewLen, present, inside, rfl⟩, same⟩
  · exact ⟨frame, sendable, .inl rfl, rfl⟩

theorem Variant.kind {frame sent : AssembledFrame} (variant : Variant frame sent) :
    sent.header.frameType = frame.header.frameType := by
  rcases variant with rfl | ⟨video, previewLen, -, -, rfl⟩
  · rfl
  · rfl

/-! What `build_frame` gives. -/

theorem videoFrame_sendable (timestamp : Int64) (frame : MediaFrame)
    (short : frame.metadataBytes.length ≤ 65535)
    (fits : videoExtHeaderSize + frame.data.length + frame.metadataBytes.length ≤ videoMaxSize) :
    Sendable (videoFrame timestamp frame) := by
  have flags : FrameType.video.contains .video = true ∧
      (FrameType.video.contains .audio && !FrameType.video.contains .video) = false ∧
      maxPayloadFor .video = videoMaxSize := by decide
  have length : (Int32.ofNat (videoExtHeaderSize + frame.data.length +
      frame.metadataBytes.length)).toInt =
        ((videoExtHeaderSize + frame.data.length + frame.metadataBytes.length : Nat) : Int) :=
    Int32.toInt_ofNat_of_lt (Nat.lt_of_le_of_lt fits (by decide))
  refine ⟨⟨rfl, (narrow_length _).mpr short, ?_, flags.1.symm, flags.2.1.symm⟩, .inl rfl, ?_⟩
  · rw [show (videoFrame timestamp frame).extBytes.length = videoExtHeaderSize from rfl,
      ← Nat.add_assoc]
    exact length
  · change (Int32.ofNat _).toNatClampNeg ≤ maxPayloadFor .video
    rw [flags.2.2, Int32.toNatClampNeg, length]
    exact fits

theorem audioFrame_sendable (timestamp : Int64) (frame : MediaFrame) (payload : List UInt8)
    (active : UInt32) (short : frame.metadataBytes.length ≤ 65535)
    (fits : audioExtHeaderSize + payload.length + frame.metadataBytes.length ≤ audioMaxSize) :
    Sendable (audioFrame timestamp frame payload active) where
  formed := audioFrame_formed timestamp frame payload active short fits
  kind := .inr (.inl rfl)
  fits := by
    have limit : maxPayloadFor .audio = audioMaxSize := by decide
    change (Int32.ofNat _).toNatClampNeg ≤ maxPayloadFor .audio
    rw [limit, Int32.toNatClampNeg, Int32.toInt_ofNat_of_lt (Nat.lt_of_le_of_lt fits (by decide))]
    exact fits

theorem metadataFrame_sendable (timestamp : Int64) (data : List UInt8)
    (fits : data.length ≤ metadataFrameSize) : Sendable (metadataFrame timestamp data) where
  formed := by
    have flags : FrameType.metadata.contains .video = false ∧
        (FrameType.metadata.contains .audio && !FrameType.metadata.contains .video) = false := by
      decide
    refine ⟨rfl, rfl, ?_, flags.1.symm, flags.2.symm⟩
    change (Int32.ofNat data.length).toInt = ((0 + (data.length + 0) : Nat) : Int)
    rw [Nat.zero_add, Nat.add_zero]
    exact Int32.toInt_ofNat_of_lt (Nat.lt_of_le_of_lt fits (by decide))
  kind := .inr (.inr rfl)
  fits := by
    have limit : maxPayloadFor .metadata = metadataFrameSize := by decide
    change (Int32.ofNat _).toNatClampNeg ≤ maxPayloadFor .metadata
    rw [limit, Int32.toNatClampNeg, Int32.toInt_ofNat_of_lt (Nat.lt_of_le_of_lt fits (by decide))]
    exact fits

/-- The limits on the wire: metadata whose length is written in 16 bits, and a body that a
reader takes for this type of frame. -/
structure WithinLimits (source : MediaFrame) (frame : AssembledFrame) : Prop where
  metadata : source.metadataBytes.length ≤ 65535
  body : frame.bodyLength ≤ maxPayloadFor frame.header.frameType

theorem assembleAudio_sendable (clock : ClockAnswer) (source : MediaFrame) (frame : AssembledFrame)
    (assembled : assembleAudio clock source = .ok frame) (limits : WithinLimits source frame) :
    Sendable frame ∧ frame.header.frameType = .audio := by
  obtain ⟨timestamp, payload, active, -, rfl⟩ := assembleAudio_packed clock source frame assembled
  have limit : maxPayloadFor .audio = audioMaxSize := by decide
  refine ⟨audioFrame_sendable timestamp source payload active limits.metadata ?_, rfl⟩
  rw [Nat.add_assoc]
  exact Nat.le_trans limits.body (Nat.le_of_eq limit)

theorem buildFrame_sendable (videoClock audioClock : ClockAnswer) (now : Int64)
    (source : MediaFrame) (frame : AssembledFrame)
    (built : buildFrame videoClock audioClock now source = .ok frame)
    (limits : WithinLimits source frame) : Sendable frame := by
  have most : maxPayloadFor .video = videoMaxSize ∧ maxPayloadFor .metadata = metadataFrameSize := by
    decide
  unfold buildFrame at built
  split at built
  · exact (assembleAudio_sendable audioClock source frame built limits).1
  split at built
  · cases built
    refine videoFrame_sendable _ source limits.metadata ?_
    rw [Nat.add_assoc]
    exact Nat.le_trans limits.body (Nat.le_of_eq most.1)
  · cases built
    refine metadataFrame_sendable _ _
      (Nat.le_trans ?_ (Nat.le_trans limits.body (Nat.le_of_eq most.2)))
    exact Nat.le_trans (Nat.le_add_right _ 0) (Nat.le_add_left _ 0)

/-- What the owner of a sender broadcasts: a frame of `build_frame`, or a document of
`send_metadata`. -/
inductive Built (frame : AssembledFrame) : Prop where
  | media (videoClock audioClock : ClockAnswer) (now : Int64) (source : MediaFrame)
      (built : buildFrame videoClock audioClock now source = .ok frame)
      (limits : WithinLimits source frame)
  | document (timestamp : Int64) (data : List UInt8) (made : frame = metadataFrame timestamp data)
      (fits : data.length ≤ metadataFrameSize)

theorem Built.sendable {frame : AssembledFrame} (built : Built frame) : Sendable frame := by
  cases built with
  | media videoClock audioClock now source built limits =>
      exact buildFrame_sendable videoClock audioClock now source frame built limits
  | document timestamp data made fits =>
      rw [made]
      exact metadataFrame_sendable timestamp data fits

def Packed (frame : AssembledFrame) : Prop :=
  ∃ clock source, assembleAudio clock source = .ok frame ∧ WithinLimits source frame

theorem Packed.sendable {frame : AssembledFrame} (packed : Packed frame) :
    Sendable frame ∧ frame.header.frameType = .audio := by
  obtain ⟨clock, source, assembled, limits⟩ := packed
  exact assembleAudio_sendable clock source frame assembled limits

end OpenMediaTransport
