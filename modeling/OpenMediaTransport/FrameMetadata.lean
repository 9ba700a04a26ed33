import OpenMediaTransport.AudioTransport
import OpenMediaTransport.SenderPeers

/-!
Per-frame metadata from the sender's frame to the application's. Video is decoded
apart from the reader and audio by the reader, or by a reader of its own. The VMX
decoder enters as a function from what it is given to a picture.
-/

namespace OpenMediaTransport

/-- A decoded picture; `vmx` gives its size and pixels, or fails. -/
structure VmxPicture where
  width : UInt32
  height : UInt32
  pixels : List UInt8

abbrev VmxDecode := Int32 → Int32 → ColorSpace → Bool → List UInt8 → Except OmtError VmxPicture

structure DecodedVideoFrame where
  width : UInt32
  height : UInt32
  stride : UInt32
  timestamp : Int64
  frameRateN : Int32
  frameRateD : Int32
  colorSpace : ColorSpace
  pixels : List UInt8
  frameMetadata : Option (List Char)

def decodeVmxBgra (vmxDecode : VmxDecode) (wire : WireVideo) : Except OmtError DecodedVideoFrame :=
  match vmxDecode wire.width wire.height wire.colorSpace wire.preview wire.payload with
  | .error error => .error error
  | .ok picture => .ok {
      width := picture.width
      height := picture.height
      stride := picture.width * 4
      timestamp := wire.timestamp
      frameRateN := wire.frameRateN
      frameRateD := wire.frameRateD
      colorSpace := wire.colorSpace
      pixels := picture.pixels
      frameMetadata := wire.metadata }

inductive Published where
  | video (frame : DecodedVideoFrame)
  | audio (frame : DecodedAudioFrame)

def Published.frameMetadata : Published → Option (List Char)
  | .video frame => frame.frameMetadata
  | .audio frame => frame.frameMetadata

/-- What comes of a dispatched frame that its channel has taken. -/
def publish (vmxDecode : VmxDecode) : DispatchEffect → Option Published
  | .video wire =>
      match decodeVmxBgra vmxDecode wire with
      | .ok frame => some (.video frame)
      | .error _ => none
  | .audio decoded => some (.audio decoded)
  | .metadata _ => none
  | .dropWire => none
  | .dropAudio => none

inductive ReaderLoop where
  | video (decodeAudioHere : Bool)
  | audio

def ReaderLoop.publishes (vmxDecode : VmxDecode) (frame : AssembledFrame) :
    ReaderLoop → List Published
  | .video decodeAudioHere =>
      (dispatchAvFrame frame decodeAudioHere .ok .ok .ok).filterMap (publish vmxDecode)
  | .audio => (decodeAudioFrame frame).toList.map .audio

/-- The frames published for one frame's bytes, by a reader whose channel is empty. -/
def receives (vmxDecode : VmxDecode) (reader : ReaderLoop) (bytes : List UInt8) : List Published :=
  match (Channel.new.pushBytes bytes).tryPopFrame.1 with
  | .ok (some frame) => reader.publishes vmxDecode frame
  | _ => []

/-! The frame that arrives. -/

def AssembledFrame.bodyLength (frame : AssembledFrame) : Nat :=
  frame.extBytes.length + (frame.data.length + frame.metadata.length)

/-- A video frame that says so, and its body's length. -/
structure VideoWire (frame : AssembledFrame) : Prop where
  type : frame.header.frameType = .video
  version : frame.header.version = protocolVersion
  metadata : frame.header.metadataLength = .ofNat frame.metadata.length
  body : frame.header.dataLength = .ofNat frame.bodyLength
  video : frame.video.isSome = true
  audio : frame.audio = none
  short : frame.metadata.length ≤ 65535
  fits : frame.bodyLength ≤ videoMaxSize

theorem VideoWire.pops (frame : AssembledFrame) (wire : VideoWire frame) :
    (Channel.new.pushBytes frame.toBytes).tryPopFrame = (.ok (some frame), .new) := by
  have flags : FrameType.video.contains .video = true ∧
      (FrameType.video.contains .audio && !FrameType.video.contains .video) = false ∧
      maxPayloadFor .video = videoMaxSize ∧ isValidFrameType .video = true := by decide
  have small : frame.bodyLength < 2 ^ 31 := Nat.lt_of_le_of_lt wire.fits (by decide)
  have length : frame.header.dataLength.toInt = (frame.bodyLength : Int) := by
    rw [wire.body]
    exact Int32.toInt_ofNat_of_lt small
  refine tryPopFrame_written frame ⟨wire.version, ?_, length, ?_, ?_⟩ ?_ ?_
  · rw [wire.metadata]
    exact (narrow_length _).mpr wire.short
  · rw [wire.video, wire.type, flags.1]
  · rw [wire.audio, wire.type, flags.2.1]
    rfl
  · rw [Int32.toNatClampNeg, length, wire.type, flags.2.2.1]
    exact wire.fits
  · rw [wire.type]
    exact flags.2.2.2

theorem videoFrame_wire (timestamp : Int64) (frame : MediaFrame)
    (short : frame.metadataBytes.length ≤ 65535)
    (fits : (videoFrame timestamp frame).bodyLength ≤ videoMaxSize) :
    VideoWire (videoFrame timestamp frame) where
  type := rfl
  version := rfl
  metadata := rfl
  body := by
    have layout : (videoFrame timestamp frame).extBytes.length = videoExtHeaderSize := rfl
    rw [AssembledFrame.bodyLength, layout, ← Nat.add_assoc]
    rfl
  video := rfl
  audio := rfl
  short := short
  fits := fits

theorem previewFrame_wire (frame : AssembledFrame) (wire : VideoWire frame) (video : VideoHeader)
    (previewLen : Nat) (inside : previewLen ≤ frame.data.length) :
    VideoWire (previewFrame frame video previewLen) := by
  have layout : (previewFrame frame video previewLen).extBytes.length = videoExtHeaderSize := by
    simp [AssembledFrame.extBytes, previewFrame]
  have cut : (previewFrame frame video previewLen).data.length = previewLen := by
    rw [previewFrame, List.length_take, Nat.min_eq_left inside]
  have whole : (previewFrame frame video previewLen).bodyLength =
      videoExtHeaderSize + previewLen + frame.metadata.length := by
    rw [AssembledFrame.bodyLength, layout, cut, ← Nat.add_assoc]
    rfl
  have full : frame.extBytes.length = videoExtHeaderSize := by
    obtain ⟨header, present⟩ := Option.isSome_iff_exists.mp wire.video
    simp [AssembledFrame.extBytes, present, wire.audio]
  have fits := wire.fits
  rw [AssembledFrame.bodyLength, full] at fits
  exact ⟨wire.type, wire.version, wire.metadata, by rw [whole]; rfl, rfl, rfl, wire.short,
    by rw [whole]; omega⟩

theorem broadcast_video (previewBitstreamLength : List UInt8 → Option Nat) (frame : AssembledFrame)
    (wire : VideoWire frame) (state : PeerState) :
    ∃ sent, (broadcastWire previewBitstreamLength frame).bytesFor state = sent.toBytes ∧
      VideoWire sent ∧ sent.metadata = frame.metadata := by
  unfold WireBytes.bytesFor broadcastWire
  dsimp only
  split
  · rename_i asked
    rw [if_pos (Bool.and_eq_true_iff.mp asked).1]
    cases built : previewVideoBytes previewBitstreamLength frame with
    | none => exact ⟨frame, rfl, wire, rfl⟩
    | some bytes =>
        obtain ⟨video, previewLen, _, _, _, _, inside, same⟩ :=
          preview_serialized previewBitstreamLength frame bytes built
        exact ⟨previewFrame frame video previewLen, same,
          previewFrame_wire frame wire video previewLen inside, rfl⟩
  · exact ⟨frame, rfl, wire, rfl⟩

/-! What is published of it. -/

theorem frameMeta_text (frame : AssembledFrame) (text : List Char) (some : text ≠ [])
    (clean : Char.ofNat 0 ∉ text) (carried : frame.metadata = Utf8.encode text) :
    frameMeta frame = Option.some text := by
  obtain ⟨char, rest, rfl⟩ := List.exists_cons_of_ne_nil some
  have bytes : (Utf8.encode (char :: rest)).isEmpty = false := by
    rw [Utf8.encode_cons, List.isEmpty_eq_false_iff]
    refine List.ne_nil_of_length_pos ?_
    rw [List.length_append, String.length_utf8EncodeChar]
    have width := char.utf8Size_pos
    omega
  rw [frameMeta, carried, bytes, if_neg Bool.false_ne_true, (decodeMetadataXml_text _ clean).1]

theorem wireVideo_metadata (frame : AssembledFrame) (wire : WireVideo)
    (made : wireVideo frame = some wire) : wire.metadata = frameMeta frame := by
  unfold wireVideo at made
  split at made
  · cases made
  split at made
  · cases made
  split at made
  · cases made
  split at made
  · cases made
  · cases made
    rfl

theorem decodeVmxBgra_metadata (vmxDecode : VmxDecode) (wire : WireVideo)
    (frame : DecodedVideoFrame) (decoded : decodeVmxBgra vmxDecode wire = .ok frame) :
    frame.frameMetadata = wire.metadata := by
  unfold decodeVmxBgra at decoded
  split at decoded
  · cases decoded
  · cases decoded
    rfl

theorem decodeAudioFrame_metadata (frame : AssembledFrame) (decoded : DecodedAudioFrame)
    (made : decodeAudioFrame frame = some decoded) : decoded.frameMetadata = none := by
  unfold decodeAudioFrame at made
  split at made
  · cases made
  split at made
  · cases made
  split at made
  · cases made
  split at made
  · cases made
  · cases made
    rfl

theorem video_published (vmxDecode : VmxDecode) (frame : AssembledFrame) (wire : VideoWire frame)
    (reader : ReaderLoop) (published : Published)
    (member : published ∈ reader.publishes vmxDecode frame) :
    published.frameMetadata = frameMeta frame := by
  have isVideo : FrameType.video.contains .video = true := by decide
  cases reader with
  | audio =>
      rw [ReaderLoop.publishes, decodeAudioFrame, wire.audio] at member
      cases member
  | video decodeAudioHere =>
      rw [ReaderLoop.publishes, dispatchAvFrame, wire.type, if_pos isVideo] at member
      cases made : wireVideo frame with
      | none =>
          rw [made] at member
          cases member
      | some queued =>
          rw [made] at member
          cases decoded : decodeVmxBgra vmxDecode queued with
          | error error => simp [publish, decoded] at member
          | ok picture =>
              simp only [publish, decoded, List.filterMap_cons, List.filterMap_nil,
                List.mem_singleton] at member
              rw [member, Published.frameMetadata, decodeVmxBgra_metadata vmxDecode queued picture
                decoded, wireVideo_metadata frame queued made]

theorem audio_published (vmxDecode : VmxDecode) (frame : AssembledFrame)
    (type : frame.header.frameType = .audio) (reader : ReaderLoop) (published : Published)
    (member : published ∈ reader.publishes vmxDecode frame) : published.frameMetadata = none := by
  have flags : FrameType.audio.contains .video = false ∧ FrameType.audio.contains .audio = true ∧
      FrameType.audio.contains .metadata = false := by decide
  cases reader with
  | audio =>
      obtain ⟨decoded, made, rfl⟩ := List.mem_map.mp member
      exact decodeAudioFrame_metadata frame decoded (Option.mem_toList.mp made)
  | video decodeAudioHere =>
      rw [ReaderLoop.publishes, dispatchAvFrame, type, flags.1, if_neg Bool.false_ne_true, flags.2.1,
        flags.2.2] at member
      cases decodeAudioHere with
      | false => cases member
      | true =>
          cases made : decodeAudioFrame frame with
          | none =>
              rw [made] at member
              cases member
          | some decoded =>
              rw [made] at member
              simp only [Bool.and_self, if_true, publish, List.filterMap_cons, List.filterMap_nil,
                List.mem_singleton] at member
              rw [member]
              exact decodeAudioFrame_metadata frame decoded made

/-- A frame that is received and decoded still has its metadata if and only if it is
video, whatever state the peer is in and whichever thread reads it. -/
theorem frame_metadata_kept_iff (videoClock audioClock : ClockAnswer) (now : Int64)
    (previewBitstreamLength : List UInt8 → Option Nat) (vmxDecode : VmxDecode)
    (frame : MediaFrame) (text : List Char) (carried : frame.frameMetadata = some text)
    (some : text ≠ []) (short : (Utf8.encode text).length ≤ 65535) (clean : Char.ofNat 0 ∉ text)
    (kind : frame.frameType.contains .video = true ∨ isAudioFrame frame = true)
    (assembled : AssembledFrame)
    (made : buildFrame videoClock audioClock now frame = .ok assembled)
    (fits : assembled.bodyLength ≤ maxPayloadFor assembled.header.frameType)
    (state : PeerState) (reader : ReaderLoop) (published : Published)
    (received : published ∈ receives vmxDecode reader
      ((broadcastWire previewBitstreamLength assembled).bytesFor state)) :
    published.frameMetadata = Option.some text ↔ frame.frameType.contains .video = true := by
  have bytes : frame.metadataBytes = Utf8.encode text := by
    rw [MediaFrame.metadataBytes, carried]
    rfl
  unfold buildFrame at made
  cases audio : isAudioFrame frame with
  | true =>
      have noVideo : frame.frameType.contains .video = false := by
        simpa using (Bool.and_eq_true_iff.mp audio).2
      rw [audio, if_pos rfl] at made
      obtain ⟨timestamp, payload, active, _, rfl⟩ := assembleAudio_packed audioClock frame _ made
      have limit : maxPayloadFor .audio = audioMaxSize := by decide
      have full : (broadcastWire previewBitstreamLength (audioFrame timestamp frame payload active)).bytesFor
          state = (audioFrame timestamp frame payload active).toBytes := by
        have noVideo : FrameType.audio.contains .video = false := by decide
        rw [WireBytes.bytesFor]
        change (if FrameType.audio.contains .video && state.preview then _ else _) = _
        rw [noVideo]
        rfl
      have layout : (audioFrame timestamp frame payload active).extBytes.length =
          audioExtHeaderSize := rfl
      change (audioFrame timestamp frame payload active).bodyLength ≤ maxPayloadFor .audio at fits
      rw [limit, AssembledFrame.bodyLength, layout, ← Nat.add_assoc] at fits
      rw [receives, full, audioFrame_pops timestamp frame payload active
        (by rw [bytes]; exact short) fits] at received
      -- The text is on the wire, but nothing published of an audio frame carries it.
      have lost := audio_published vmxDecode _ rfl reader published received
      rw [lost, noVideo]
      exact iff_of_false (Option.some_ne_none text).symm Bool.false_ne_true
  | false =>
      have isVideo : frame.frameType.contains .video = true := by
        rw [audio] at kind
        exact kind.resolve_right Bool.false_ne_true
      rw [audio, if_neg Bool.false_ne_true, if_pos isVideo] at made
      cases made
      have limit : maxPayloadFor .video = videoMaxSize := by decide
      have wire := videoFrame_wire _ frame (by rw [bytes]; exact short)
        (Nat.le_trans fits (Nat.le_of_eq limit))
      obtain ⟨sent, arrived, sentWire, same⟩ :=
        broadcast_video previewBitstreamLength _ wire state
      rw [receives, arrived, sentWire.pops] at received
      have kept := video_published vmxDecode sent sentWire reader published received
      have read := frameMeta_text sent text some clean (same.trans bytes)
      exact iff_of_true (kept.trans read) isVideo

def blackPixel : VmxDecode := fun _ _ _ _ _ => .ok ⟨1, 1, [0, 0, 0, 255]⟩

def subtitledVideo : MediaFrame := captionedVideo ['<', 'a', '/', '>']

def subtitledAudio : MediaFrame :=
  { frameType := .audio, timestamp := 7, sampleRate := 48000, channels := 1, samplesPerChannel := 1
    data := [0, 0, 128, 63], frameMetadata := some ['<', 'a', '/', '>'] }

theorem frame_metadata_kept_iff_video :
    ∃ published ∈ receives blackPixel (.video true)
        ((broadcastWire (fun _ => none) (videoFrame 5 subtitledVideo)).bytesFor {}),
      (published.frameMetadata = some ['<', 'a', '/', '>'] ↔
        subtitledVideo.frameType.contains .video = true) := by
  refine ⟨_, List.mem_singleton.mpr rfl, ?_⟩
  exact frame_metadata_kept_iff (fun _ _ _ _ _ => 5) (fun _ _ _ _ _ => 5) 0 (fun _ => none)
    blackPixel subtitledVideo ['<', 'a', '/', '>'] rfl (by decide) (by decide) (by decide)
    (.inl (by decide)) _ rfl (by decide) {} (.video true) _ (List.mem_singleton.mpr rfl)

/-- The receiver publishes the sample without the caption. -/
theorem audio_caption_lost :
    ∃ assembled published,
      buildFrame (fun _ _ _ _ _ => 7) (fun _ _ _ _ _ => 7) 0 subtitledAudio = .ok assembled ∧
      assembled.metadata = Utf8.encode ['<', 'a', '/', '>'] ∧
      receives blackPixel .audio assembled.toBytes = [published] ∧
      published.frameMetadata = none :=
  ⟨_, _, rfl, rfl, rfl, rfl⟩

end OpenMediaTransport
