import OpenMediaTransport.Chunking
import OpenMediaTransport.FrameDispatch
import OpenMediaTransport.PlanarRoundTrip
import OpenMediaTransport.TimestampClock

/-!
Audio from the sender's frame to the receiver's samples. The planes are read from
the frame's data, packed without the silent ones, framed, taken from the stream and
unpacked again: the samples are bytes all the way.
-/

namespace OpenMediaTransport

open LittleEndian

def audioFrame (timestamp : Int64) (frame : MediaFrame) (payload : List UInt8)
    (active : UInt32) : AssembledFrame where
  header := {
    version := protocolVersion
    frameType := .audio
    timestamp := timestamp
    metadataLength := .ofNat frame.metadataBytes.length
    dataLength := .ofNat (audioExtHeaderSize + payload.length + frame.metadataBytes.length) }
  video := none
  audio := some {
    codec := .fpa1
    sampleRate := frame.sampleRate
    samplesPerChannel := frame.samplesPerChannel
    channels := frame.channels
    activeChannels := active
    reserved1 := 0 }
  data := payload
  metadata := frame.metadataBytes

theorem assembleAudio_frame (clock : ClockAnswer) (frame : MediaFrame) (payload : List UInt8)
    (active : UInt32) (packed : audioPayload frame = .ok (payload, active)) :
    assembleAudio clock frame = .ok (audioFrame (clock frame.timestamp frame.frameRateN
      frame.frameRateD frame.sampleRate frame.samplesPerChannel) frame payload active) := by
  unfold assembleAudio
  rw [packed]
  rfl

theorem assembleAudio_packed (clock : ClockAnswer) (frame : MediaFrame)
    (assembled : AssembledFrame) (made : assembleAudio clock frame = .ok assembled) :
    ∃ timestamp payload active, audioPayload frame = .ok (payload, active) ∧
      assembled = audioFrame timestamp frame payload active := by
  cases packed : audioPayload frame with
  | error error =>
      unfold assembleAudio at made
      rw [packed] at made
      cases made
  | ok pair =>
      obtain ⟨payload, active⟩ := pair
      rw [assembleAudio_frame clock frame payload active packed] at made
      exact ⟨_, payload, active, rfl, (Except.ok.inj made).symm⟩

theorem audioFrame_formed (timestamp : Int64) (frame : MediaFrame) (payload : List UInt8)
    (active : UInt32) (bare : frame.metadataBytes.length ≤ 65535)
    (fits : audioExtHeaderSize + payload.length + frame.metadataBytes.length ≤ audioMaxSize) :
    (audioFrame timestamp frame payload active).WellFormed := by
  have flags : FrameType.audio.contains .video = false ∧
      (FrameType.audio.contains .audio && !FrameType.audio.contains .video) = true := by decide
  refine ⟨rfl, (narrow_length _).mpr bare, ?_, flags.1.symm, flags.2.symm⟩
  change (Int32.ofNat _).toInt =
    ((audioExtHeaderSize + (payload.length + frame.metadataBytes.length) : Nat) : Int)
  rw [← Nat.add_assoc]
  exact Int32.toInt_ofNat_of_lt (Nat.lt_of_le_of_lt fits (by decide))

/-- A well-formed frame within its limit comes out of the channel as it went in. -/
theorem tryPopFrame_written (frame : AssembledFrame) (formed : frame.WellFormed)
    (fits : frame.header.dataLength.toNatClampNeg ≤ maxPayloadFor frame.header.frameType)
    (valid : isValidFrameType frame.header.frameType = true) :
    (Channel.new.pushBytes frame.toBytes).tryPopFrame = (.ok (some frame), .new) := by
  have whole := complete_whole frame.toBytes (written_complete frame formed fits valid)
  have back := AssembledFrame.fromBytes_written frame [] formed
  rw [List.append_nil] at back
  have popped := Channel.pop_item ⟨frame.toBytes⟩ _ _ whole
  rw [back, List.drop_length] at popped
  exact popped

theorem audioFrame_pops (timestamp : Int64) (frame : MediaFrame) (payload : List UInt8)
    (active : UInt32) (bare : frame.metadataBytes.length ≤ 65535)
    (fits : audioExtHeaderSize + payload.length + frame.metadataBytes.length ≤ audioMaxSize) :
    (Channel.new.pushBytes (audioFrame timestamp frame payload active).toBytes).tryPopFrame =
      (.ok (some (audioFrame timestamp frame payload active)), .new) := by
  refine tryPopFrame_written _ (audioFrame_formed timestamp frame payload active bare fits) ?_
    (by change isValidFrameType .audio = true; decide)
  have limit : maxPayloadFor .audio = audioMaxSize := by decide
  change (Int32.ofNat _).toNatClampNeg ≤ maxPayloadFor .audio
  rw [limit, Int32.toNatClampNeg, Int32.toInt_ofNat_of_lt (Nat.lt_of_le_of_lt fits (by decide))]
  exact fits

/-! The planes of a frame. -/

theorem planesOf_bytes (data : List UInt8) (channels samples : Nat)
    (enough : channels * samples * 4 ≤ data.length) :
    (planesOf data channels samples).flatMap (List.flatMap u32Bytes) =
      data.take (channels * samples * 4) := by
  have plane (ch : Nat) (inside : ch < channels) :
      (((List.range samples).map fun s =>
          u32Of (slice data (ch * samples * 4 + s * 4) (ch * samples * 4 + s * 4 + 4))).flatMap
        u32Bytes) = slice data (ch * samples * 4) (ch * samples * 4 + samples * 4) := by
    have below : (ch + 1) * samples ≤ channels * samples := Nat.mul_le_mul_right samples inside
    rw [Nat.succ_mul] at below
    rw [List.flatMap_map, ← slice_chunks data (ch * samples * 4) 4 samples]
    refine List.flatMap_congr fun s member => ?_
    have early := List.mem_range.mp member
    refine u32_write _ ?_
    rw [slice_length _ _ _ (by omega)]
    omega
  have all := slice_chunks data 0 (samples * 4) channels
  rw [Nat.zero_add, slice_front, ← Nat.mul_assoc] at all
  rw [planesOf, List.flatMap_map, ← all]
  refine List.flatMap_congr fun ch member => ?_
  rw [plane ch (List.mem_range.mp member), Nat.zero_add, Nat.mul_assoc]

theorem audioPayload_planar (frame : MediaFrame) (channels samples : Nat)
    (counted : frame.channels.toNatClampNeg = channels)
    (sampled : frame.samplesPerChannel.toNatClampNeg = samples)
    (mask : frame.activeChannels = 0) (some : 0 < channels) (few : channels ≤ 32)
    (sounds : 0 < samples) (enough : channels * samples * 4 ≤ frame.data.length) :
    ∃ packed, audioPayload frame = .ok packed ∧
      encodePlanar (planesOf frame.data channels samples) = .ok packed := by
  have length : (planesOf frame.data channels samples).length = channels := by
    rw [planesOf, List.length_map, List.length_range]
  have planar := planesOf_planar frame.data channels samples
  have encoded : ∃ packed, encodePlanar (planesOf frame.data channels samples) = .ok packed := by
    obtain ⟨first, rest, planes⟩ : ∃ first rest,
        planesOf frame.data channels samples = first :: rest :=
      List.exists_cons_of_ne_nil (List.ne_nil_of_length_pos (by omega))
    unfold encodePlanar
    rw [planes] at length planar ⊢
    dsimp only
    have same : ((first :: rest).any fun channel => channel.length != first.length) = false := by
      refine List.any_eq_false.mpr fun channel member => ?_
      rw [planar channel member, planar first List.mem_cons_self]
      simp
    rw [if_neg (by omega), same, if_neg Bool.false_ne_true]
    exact ⟨_, rfl⟩
  obtain ⟨packed, encoded⟩ := encoded
  refine ⟨packed, ?_, encoded⟩
  unfold audioPayload
  rw [if_neg (by simp [mask])]
  dsimp only
  rw [counted, sampled, if_neg (by omega), if_neg (by omega), encoded]

/-- What the receiver hands on of an audio frame is what the sender was given. -/
theorem audio_transport_exact
    (paced : TimestampClock → Int32 → Int32 → Int32 → Int32 → Int64 × TimestampClock)
    (clock : TimestampClock) (now : Nat) (frame : MediaFrame) (channels samples : Nat)
    (counted : frame.channels.toInt = channels) (sampled : frame.samplesPerChannel.toInt = samples)
    (mask : frame.activeChannels = 0) (bare : frame.frameMetadata = none)
    (explicit : frame.timestamp ≠ autoTimestamp) (some : 1 ≤ channels) (few : channels ≤ 32)
    (sounds : 1 ≤ samples) (enough : channels * samples * 4 ≤ frame.data.length) :
    ∃ assembled, assembleAudio (clock.answer paced now) frame = .ok assembled ∧
      (audioExtHeaderSize + assembled.data.length ≤ audioMaxSize →
        (Channel.new.pushBytes assembled.toBytes).tryPopFrame = (.ok (Option.some assembled), .new) ∧
          ∃ decoded, decodeAudioFrame assembled = Option.some decoded ∧
            decoded.timestamp = frame.timestamp ∧ decoded.sampleRate = frame.sampleRate ∧
            decoded.channels = frame.channels ∧
            decoded.samplesPerChannel = frame.samplesPerChannel ∧
            decoded.pcmPlanarF32 = frame.data.take (channels * samples * 4)) := by
  have channelCount : frame.channels.toNatClampNeg = channels := by
    rw [Int32.toNatClampNeg, counted]
    rfl
  have sampleCount : frame.samplesPerChannel.toNatClampNeg = samples := by
    rw [Int32.toNatClampNeg, sampled]
    rfl
  have narrow : samples < 2 ^ 32 := by
    have bound := frame.samplesPerChannel.toInt_lt
    omega
  have sized : channels * samples * audioSampleSize < 2 ^ 64 := by
    have once : channels * samples ≤ 32 * samples := Nat.mul_le_mul_right samples few
    unfold audioSampleSize
    omega
  obtain ⟨⟨payload, active⟩, packed, encoded⟩ := audioPayload_planar frame channels samples
    channelCount sampleCount mask some few sounds enough
  have none : frame.metadataBytes = [] := by
    rw [MediaFrame.metadataBytes, bare]
    rfl
  have stamp := clock.answer_explicit paced now frame.timestamp frame.frameRateN frame.frameRateD
    frame.sampleRate frame.samplesPerChannel explicit
  have assembled := assembleAudio_frame (clock.answer paced now) frame payload active packed
  rw [stamp] at assembled
  refine ⟨_, assembled, fun fits => ?_⟩
  change audioExtHeaderSize + payload.length ≤ audioMaxSize at fits
  refine ⟨audioFrame_pops _ frame payload active (by rw [none]; exact Nat.zero_le _)
    (by rw [none]; exact fits), ?_⟩
  have planes : (planesOf frame.data channels samples).length = channels := by
    rw [planesOf, List.length_map, List.length_range]
  have decoded := decodePlanarInto_packed (planesOf frame.data channels samples) samples
    (payload, active) (List.ne_nil_of_length_pos (by omega))
    (planesOf_planar frame.data channels samples) (by rw [planes]; exact sized) encoded
  rw [planes, planesOf_bytes frame.data channels samples enough] at decoded
  have small : ¬ audioMaxSize < payload.length := by omega
  unfold decodeAudioFrame audioFrame
  dsimp only
  rw [if_neg (by simp), if_neg small, channelCount, sampleCount, decoded]
  exact ⟨_, rfl, rfl, rfl, rfl, rfl, rfl⟩

/-- Two channels of two samples: a silent one, and one of negative zero and a NaN;
the data goes on behind them. -/
def stereo : MediaFrame :=
  { frameType := .audio, timestamp := 7, sampleRate := 48000, channels := 2, samplesPerChannel := 2
    data := [0, 0, 0, 0, 0, 0, 0, 0, 0, 0, 0, 128, 1, 0, 192, 127, 9] }

theorem audio_transport_exact_stereo :
    ∃ assembled, assembleAudio ((TimestampClock.new true 0).answer
        (fun clock _ _ _ _ => (0, clock)) 0) stereo = .ok assembled ∧
      (audioExtHeaderSize + assembled.data.length ≤ audioMaxSize →
        (Channel.new.pushBytes assembled.toBytes).tryPopFrame = (.ok (some assembled), .new) ∧
          ∃ decoded, decodeAudioFrame assembled = some decoded ∧
            decoded.timestamp = stereo.timestamp ∧ decoded.sampleRate = stereo.sampleRate ∧
            decoded.channels = stereo.channels ∧
            decoded.samplesPerChannel = stereo.samplesPerChannel ∧
            decoded.pcmPlanarF32 = stereo.data.take (2 * 2 * 4)) :=
  audio_transport_exact (fun clock _ _ _ _ => (0, clock)) (.new true 0) 0 stereo 2 2 (by decide)
    (by decide) rfl rfl (by decide) (by decide) (by decide) (by decide) (by decide)

end OpenMediaTransport
