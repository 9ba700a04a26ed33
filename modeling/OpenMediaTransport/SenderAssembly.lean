import OpenMediaTransport.FrameRoundTrip
import OpenMediaTransport.PlanarAudio
import OpenMediaTransport.Utf8

/-!
How `send.rs` turns a media frame into a wire frame: `Sender::build_frame` and
`assemble_audio`. The two clocks answer with some timestamp for the frame's own
timestamp and geometry and enter as functions; what they answer is written to
the header and decides nothing else here. A string is its characters, and
`usize` is 64 bits wide.

`metadata.len() as u16` and the `as i32` of the data length keep the low bits.
-/

namespace OpenMediaTransport

open LittleEndian

/-- Owned media frame (video, audio, or metadata), without the fields that only
raw video encoding reads. -/
structure MediaFrame where
  frameType : FrameType := .none
  timestamp : Int64 := 0
  codec : Int32 := 0
  width : Int32 := 0
  height : Int32 := 0
  flags : VideoFlags := .none
  frameRateN : Int32 := 60
  frameRateD : Int32 := 1
  aspectRatio : UInt32 := 0x3FE38E39
  colorSpace : ColorSpace := .undefined
  sampleRate : Int32 := 0
  channels : Int32 := 0
  samplesPerChannel : Int32 := 0
  activeChannels : UInt32 := 0
  data : List UInt8 := []
  frameMetadata : Option (List Char) := none

def encodeMetadataXml (xml : List Char) : List UInt8 := Utf8.encode xml

def autoTimestamp : Int64 := -1

def resolveTimestamp (now ts : Int64) : Int64 := if ts = autoTimestamp then now else ts

/-- `clock.resolve` of the timestamp, frame rate, sample rate and samples per channel. -/
abbrev ClockAnswer := Int64 → Int32 → Int32 → Int32 → Int32 → Int64

def MediaFrame.metadataBytes (frame : MediaFrame) : List UInt8 :=
  (frame.frameMetadata.map encodeMetadataXml).getD []

/-- The planes of channel-major little-endian samples. -/
def planesOf (data : List UInt8) (channels samples : Nat) : List (List UInt32) :=
  (List.range channels).map fun ch =>
    (List.range samples).map fun s =>
      u32Of (slice data (ch * samples * 4 + s * 4) (ch * samples * 4 + s * 4 + 4))

/-- The payload and its channel mask: as given, or packed from planar samples. -/
def audioPayload (frame : MediaFrame) : Except OmtError (List UInt8 × UInt32) :=
  if frame.activeChannels ≠ 0 then .ok (frame.data, frame.activeChannels)
  else
    let channels := frame.channels.toNatClampNeg
    let samples := frame.samplesPerChannel.toNatClampNeg
    if channels = 0 ∨ samples = 0 then
      .error (.invalidArgument "audio frame missing geometry")
    else if frame.data.length < channels * samples * 4 then
      .error (.invalidArgument "audio frame data too short")
    else encodePlanar (planesOf frame.data channels samples)

def assembleAudio (clock : ClockAnswer) (frame : MediaFrame) : Except OmtError AssembledFrame :=
  let timestamp := clock frame.timestamp frame.frameRateN frame.frameRateD frame.sampleRate
    frame.samplesPerChannel
  let metadata := frame.metadataBytes
  match audioPayload frame with
  | .error error => .error error
  | .ok (payload, active) => .ok {
      header := {
        version := protocolVersion
        frameType := .audio
        timestamp := timestamp
        metadataLength := .ofNat metadata.length
        dataLength := .ofNat (audioExtHeaderSize + payload.length + metadata.length) }
      video := none
      audio := some {
        codec := .fpa1
        sampleRate := frame.sampleRate
        samplesPerChannel := frame.samplesPerChannel
        channels := frame.channels
        activeChannels := active
        reserved1 := 0 }
      data := payload
      metadata := metadata }

def isAudioFrame (frame : MediaFrame) : Bool :=
  frame.frameType.contains .audio && !frame.frameType.contains .video

def videoFrame (timestamp : Int64) (frame : MediaFrame) : AssembledFrame where
  header := {
    version := protocolVersion
    frameType := .video
    timestamp := timestamp
    metadataLength := .ofNat frame.metadataBytes.length
    dataLength := .ofNat (videoExtHeaderSize + frame.data.length + frame.metadataBytes.length) }
  video := some {
    codec := (Codec.fromI32 frame.codec).getD .uyvy
    width := frame.width
    height := frame.height
    frameRateN := frame.frameRateN
    frameRateD := frame.frameRateD
    aspectRatio := frame.aspectRatio
    flags := frame.flags
    colorSpace := frame.colorSpace }
  audio := none
  data := frame.data
  metadata := frame.metadataBytes

/-- Without data of its own a metadata frame carries its metadata as data. -/
def metadataFrame (timestamp : Int64) (data : List UInt8) : AssembledFrame where
  header := {
    version := protocolVersion
    frameType := .metadata
    timestamp := timestamp
    metadataLength := 0
    dataLength := .ofNat data.length }
  video := none
  audio := none
  data := data
  metadata := []

def buildFrame (videoClock audioClock : ClockAnswer) (now : Int64) (frame : MediaFrame) :
    Except OmtError AssembledFrame :=
  if isAudioFrame frame then assembleAudio audioClock frame
  else if frame.frameType.contains .video then
    .ok (videoFrame (videoClock frame.timestamp frame.frameRateN frame.frameRateD 0 0) frame)
  else
    .ok (metadataFrame (resolveTimestamp now frame.timestamp)
      (if frame.data.isEmpty then frame.metadataBytes else frame.data))

theorem planesOf_planar (data : List UInt8) (channels samples : Nat) :
    ∀ plane ∈ planesOf data channels samples, plane.length = samples := by
  intro plane member
  obtain ⟨ch, _, rfl⟩ := List.mem_map.mp member
  rw [List.length_map, List.length_range]

theorem audioPayload_length (frame : MediaFrame) (payload : List UInt8) (active : UInt32)
    (ok : audioPayload frame = .ok (payload, active)) : payload.length ≤ frame.data.length := by
  unfold audioPayload at ok
  split at ok
  · cases ok
    exact Nat.le_refl _
  dsimp only at ok
  split at ok
  · cases ok
  split at ok
  · cases ok
  rename_i enough
  have bound := encodePlanar_length _ _ _ (planesOf_planar frame.data _ _) ok
  rw [planesOf, List.length_map, List.length_range] at bound
  rw [← Nat.mul_assoc] at bound
  exact Nat.le_trans bound (Nat.not_lt.mp enough)

/-- The header's lengths are the true ones, and the receiver splits the frame
where the sender joined it. -/
structure SelfDescribing (frame : AssembledFrame) : Prop where
  metadata : frame.header.metadataLength.toNat = frame.metadata.length
  body : frame.header.dataLength.toInt =
    (frame.extBytes.length + (frame.data.length + frame.metadata.length) : Nat)
  back : AssembledFrame.fromBytes frame.toBytes = .ok frame

theorem formed_describes (frame : AssembledFrame) (formed : frame.WellFormed) :
    SelfDescribing frame := by
  have back := AssembledFrame.fromBytes_written frame [] formed
  rw [List.append_nil] at back
  exact ⟨formed.metadata, formed.body, back⟩

theorem narrow_length (count : Nat) : (UInt16.ofNat count).toNat = count ↔ count ≤ 65535 := by
  rw [UInt16.toNat_ofNat']
  constructor
  · intro same
    have bound := Nat.mod_lt count (by decide : 0 < 2 ^ 16)
    omega
  · intro small
    exact Nat.mod_eq_of_lt (by omega)

theorem video_describes_iff (timestamp : Int64) (frame : MediaFrame)
    (payload : frame.data.length < 2 ^ 30) :
    SelfDescribing (videoFrame timestamp frame) ↔ frame.metadataBytes.length ≤ 65535 := by
  constructor
  · intro describes
    exact (narrow_length _).mp describes.metadata
  · intro small
    apply formed_describes
    have flags : FrameType.video.contains .video = true ∧
        (FrameType.video.contains .audio && !FrameType.video.contains .video) = false := by decide
    refine ⟨rfl, (narrow_length _).mpr small, ?_, flags.1.symm, flags.2.symm⟩
    have layout : (videoFrame timestamp frame).extBytes.length = videoExtHeaderSize := rfl
    rw [layout, ← Nat.add_assoc]
    apply Int32.toInt_ofNat_of_lt
    simp only [videoExtHeaderSize]
    omega

theorem audio_describes_iff (clock : ClockAnswer) (frame : MediaFrame) (assembled : AssembledFrame)
    (payload : frame.data.length < 2 ^ 30) (ok : assembleAudio clock frame = .ok assembled) :
    SelfDescribing assembled ↔ frame.metadataBytes.length ≤ 65535 := by
  unfold assembleAudio at ok
  dsimp only at ok
  split at ok
  · cases ok
  rename_i packed active given
  have bound := audioPayload_length frame packed active given
  cases ok
  constructor
  · intro describes
    exact (narrow_length _).mp describes.metadata
  · intro small
    apply formed_describes
    have flags : FrameType.audio.contains .video = false ∧
        (FrameType.audio.contains .audio && !FrameType.audio.contains .video) = true := by decide
    refine ⟨rfl, (narrow_length _).mpr small, ?_, flags.1.symm, flags.2.symm⟩
    change (Int32.ofNat _).toInt =
      ((audioExtHeaderSize + (packed.length + frame.metadataBytes.length) : Nat) : Int)
    rw [← Nat.add_assoc]
    apply Int32.toInt_ofNat_of_lt
    simp only [audioExtHeaderSize]
    omega

theorem metadata_describes (timestamp : Int64) (data : List UInt8) (small : data.length < 2 ^ 30) :
    SelfDescribing (metadataFrame timestamp data) := by
  apply formed_describes
  have flags : FrameType.metadata.contains .video = false ∧
      (FrameType.metadata.contains .audio && !FrameType.metadata.contains .video) = false := by
    decide
  refine ⟨rfl, rfl, ?_, flags.1.symm, flags.2.symm⟩
  change (Int32.ofNat data.length).toInt = ((0 + (data.length + 0) : Nat) : Int)
  rw [Nat.zero_add, Nat.add_zero]
  exact Int32.toInt_ofNat_of_lt (by omega)

/-- A frame assembled from less than 2^30 bytes of payload and of metadata
describes itself if and only if it carries at most 65535 bytes of per-frame
metadata or is a metadata frame, which carries none. -/
theorem assembled_describes_iff (videoClock audioClock : ClockAnswer) (now : Int64)
    (frame : MediaFrame) (payload : frame.data.length < 2 ^ 30)
    (text : frame.metadataBytes.length < 2 ^ 30) :
    (∀ assembled, buildFrame videoClock audioClock now frame = .ok assembled →
      (SelfDescribing assembled ↔
        ((frame.frameType.contains .video = false ∧ frame.frameType.contains .audio = false) ∨
          frame.metadataBytes.length ≤ 65535))) ∧
      (∀ assembled, assembleAudio audioClock frame = .ok assembled →
        (SelfDescribing assembled ↔ frame.metadataBytes.length ≤ 65535)) := by
  refine ⟨?_, fun assembled ok => audio_describes_iff audioClock frame assembled payload ok⟩
  intro assembled ok
  unfold buildFrame isAudioFrame at ok
  -- Video is looked at first, so that a frame of both kinds is a video frame.
  cases video : frame.frameType.contains .video with
  | true =>
      rw [video, Bool.not_true, Bool.and_false, if_neg Bool.false_ne_true, if_pos rfl] at ok
      cases ok
      rw [video_describes_iff _ frame payload]
      simp
  | false =>
      cases audio : frame.frameType.contains .audio with
      | true =>
          rw [video, audio, Bool.not_false, Bool.and_true, if_pos rfl] at ok
          rw [audio_describes_iff audioClock frame assembled payload ok]
          simp
      | false =>
          rw [video, audio, Bool.false_and, if_neg Bool.false_ne_true,
            if_neg Bool.false_ne_true] at ok
          cases ok
          refine iff_of_true (metadata_describes _ _ ?_) (Or.inl ⟨rfl, rfl⟩)
          split
          · exact text
          · exact payload

def captionedVideo (caption : List Char) : MediaFrame :=
  { frameType := .video, codec := Codec.vmx1.asI32, data := [1, 2], frameMetadata := some caption }

theorem assembled_describes_iff_caption :
    SelfDescribing (videoFrame 5 (captionedVideo ['<', 'a', '/', '>'])) :=
  ((assembled_describes_iff (fun _ _ _ _ _ => 5) (fun _ _ _ _ _ => 5) 0
      (captionedVideo ['<', 'a', '/', '>']) (by decide) (by decide)).1 _ rfl).mpr
    (Or.inr (by decide))

theorem caption_length (count : Nat) :
    (captionedVideo (List.replicate count 'a')).metadataBytes.length = count := by
  change (Utf8.encode (List.replicate count 'a')).length = count
  induction count with
  | zero => rfl
  | succ count ih =>
      rw [List.replicate_succ, Utf8.encode_cons, List.length_append, ih,
        String.length_utf8EncodeChar]
      exact Nat.add_comm 1 count

/-- With 65536 bytes of per-frame metadata the header says there are none. -/
theorem caption_length_wraps :
    (captionedVideo (List.replicate 65536 'a')).data.length < 2 ^ 30 ∧
      (captionedVideo (List.replicate 65536 'a')).metadataBytes.length < 2 ^ 30 ∧
      buildFrame (fun _ _ _ _ _ => 5) (fun _ _ _ _ _ => 5) 0
          (captionedVideo (List.replicate 65536 'a')) =
        .ok (videoFrame 5 (captionedVideo (List.replicate 65536 'a'))) ∧
      ¬ SelfDescribing (videoFrame 5 (captionedVideo (List.replicate 65536 'a'))) := by
  refine ⟨by change 2 < _; decide, by rw [caption_length]; decide, rfl, ?_⟩
  intro describes
  have same := (narrow_length _).mp describes.metadata
  change (captionedVideo (List.replicate 65536 'a')).metadataBytes.length ≤ 65535 at same
  rw [caption_length] at same
  exact absurd same (by decide)

end OpenMediaTransport
