import OpenMediaTransport.AudioExpansion
import OpenMediaTransport.MediaPath

/-!
Sound from the ingress of a sender to the application at the other end, on a socket of its
own: `audio_reader_loop` of `receive.rs`, and what it makes of the stream of a peer. The
loop takes every frame for sound and ends at its first error, or when nobody is left to take
the sound.
-/

namespace OpenMediaTransport

open LittleEndian SenderTransport

/-- What a turn of the loop does outside the channel; `hear` is what becomes of a frame. -/
inductive AudioEffect where
  | recordBytes (count : Nat)
  | hear (frame : AssembledFrame) (effects : List DispatchEffect)
  | setError (text : String)

structure AudioTurn where
  effects : List AudioEffect
  goesOn : Bool
  channel : Channel
  reader : List ReadResult

/-- The frame at the channel to the application, and whether the loop goes on. -/
def hearFrame (frame : AssembledFrame) (audioTx : TrySend) : List DispatchEffect × Bool :=
  match decodeAudioFrame frame with
  | none => ([.dropAudio], true)
  | some decoded =>
      match audioTx with
      | .ok => ([.audio decoded], true)
      | .full => ([.dropAudio], true)
      | .disconnected => ([], false)

def audioTurn (channel : Channel) (reader : List ReadResult) (audioTx : TrySend) : AudioTurn :=
  match channel.recvFrameInto networkReceiveMaxTransfer reader with
  | (.ok (some frame), channel, reader) =>
      let heard := hearFrame frame audioTx
      ⟨[.recordBytes (frame.header.dataLength.toNatClampNeg + 16), .hear frame heard.1], heard.2,
        channel, reader⟩
  | (.ok none, channel, reader) => ⟨[], false, channel, reader⟩
  | (.error (.io .timedOut _), channel, reader) => ⟨[], true, channel, reader⟩
  | (.error (.io .wouldBlock _), channel, reader) => ⟨[], true, channel, reader⟩
  | (.error error, channel, reader) =>
      ⟨[.setError ("audio I/O: " ++ error.message)], false, channel, reader⟩

/-- The loop, with the channel's answer in each turn, until `stop` is seen. -/
def audioReaderLoop (channel : Channel) (reader : List ReadResult) :
    List TrySend → List AudioEffect
  | [] => []
  | audioTx :: later =>
      let turn := audioTurn channel reader audioTx
      if turn.goesOn then turn.effects ++ audioReaderLoop turn.channel turn.reader later
      else turn.effects

def heardFrames : List AudioEffect → List AssembledFrame
  | [] => []
  | .hear frame _ :: rest => frame :: heardFrames rest
  | _ :: rest => heardFrames rest

theorem audioTurn_frame (channel next : Channel) (reader reads : List ReadResult)
    (audioTx : TrySend) (frame : AssembledFrame)
    (got : channel.recvFrame reader = (.ok (some frame), next, reads)) :
    audioTurn channel reader audioTx =
      ⟨[.recordBytes (frame.header.dataLength.toNatClampNeg + 16),
        .hear frame (hearFrame frame audioTx).1], (hearFrame frame audioTx).2, next, reads⟩ := by
  rw [Channel.recvFrame] at got
  rw [audioTurn, got]

/-- The loop hands on the frames of the stream from the front. -/
theorem loop_hears (answers : List TrySend) (frames : List AssembledFrame) (channel : Channel)
    (reader : List ReadResult) (sendable : ∀ frame ∈ frames, Sendable frame)
    (aligned : Aligned (frames.map AssembledFrame.toBytes) channel reader) :
    heardFrames (audioReaderLoop channel reader answers) <+: frames := by
  induction answers generalizing frames channel reader with
  | nil => exact List.nil_prefix
  | cons audioTx later ih =>
      have call := recv_step _ channel reader aligned
      generalize got : channel.recvFrame reader = result at call
      cases call with
      | frame first rest next reads split after shorter kept ends =>
          obtain ⟨frame, others, rfl, rfl, rfl⟩ := List.map_eq_cons_iff.mp split
          rw [(sendable frame List.mem_cons_self).read] at got
          rw [audioReaderLoop, audioTurn_frame channel next reader reads audioTx frame got]
          dsimp only
          split
          · exact List.cons_prefix_cons.mpr ⟨rfl, ih others next reads
              (fun other member => sendable other (List.mem_cons_of_mem frame member)) after⟩
          · exact List.cons_prefix_cons.mpr ⟨rfl, List.nil_prefix⟩
      | incomplete next reads after shorter kept ends =>
          rw [Channel.recvFrame] at got
          rw [audioReaderLoop, audioTurn, got]
          exact ih frames next reads sendable after
      | overflow next reads unfit =>
          rw [Channel.recvFrame] at got
          rw [audioReaderLoop, audioTurn, got]
          exact List.nil_prefix

/-! What is heard of a frame. -/

theorem sound_kind {frame : AssembledFrame} (sendable : Sendable frame)
    (decoded : DecodedAudioFrame) (made : decodeAudioFrame frame = some decoded) :
    frame.header.frameType = .audio := by
  have flag := sendable.formed.audio
  cases present : frame.audio with
  | none =>
      rw [decodeAudioFrame, present] at made
      cases made
  | some header =>
      rw [present, Option.isSome_some] at flag
      rcases sendable.kind with kind | kind | kind
      · rw [kind] at flag
        exact absurd flag (by decide)
      · exact kind
      · rw [kind] at flag
        exact absurd flag (by decide)

theorem decoded_samples (clock : ClockAnswer) (source : MediaFrame) (frame : AssembledFrame)
    (assembled : assembleAudio clock source = .ok frame) (planar : source.activeChannels = 0)
    (decoded : DecodedAudioFrame) (made : decodeAudioFrame frame = some decoded) :
    decoded.sampleRate = source.sampleRate ∧ decoded.channels = source.channels ∧
      decoded.samplesPerChannel = source.samplesPerChannel ∧
      decoded.pcmPlanarF32 = source.data.take
        (source.channels.toNatClampNeg * source.samplesPerChannel.toNatClampNeg * 4) := by
  obtain ⟨timestamp, payload, active, packed, rfl⟩ :=
    assembleAudio_packed clock source frame assembled
  -- The decoder has checked the sizes of the planes.
  have sized := (decodeAudioFrame_some _ _ decoded rfl made).1.planes
  unfold audioPayload at packed
  rw [if_neg (not_not.mpr planar)] at packed
  dsimp only at packed
  split at packed
  · cases packed
  rename_i geometry
  split at packed
  · cases packed
  rename_i enough
  unfold decodeAudioFrame audioFrame at made
  dsimp only at made
  split at made
  · cases made
  split at made
  · cases made
  split at made
  · cases made
  rename_i pcm unpacked
  cases made
  refine ⟨rfl, rfl, rfl, ?_⟩
  obtain ⟨some, -⟩ := not_or.mp geometry
  have planes : (planesOf source.data source.channels.toNatClampNeg
      source.samplesPerChannel.toNatClampNeg).length = source.channels.toNatClampNeg := by
    rw [planesOf, List.length_map, List.length_range]
  have back := decodePlanarInto_packed _ source.samplesPerChannel.toNatClampNeg (payload, active)
    (List.ne_nil_of_length_pos (by rw [planes]; omega)) (planesOf_planar source.data _ _)
    (by rw [planes]; exact sized) packed
  rw [planes, planesOf_bytes source.data _ _ (Nat.not_lt.mp enough)] at back
  rw [unpacked] at back
  exact Except.ok.inj back

theorem written_sound (previewBitstreamLength : List UInt8 → Option Nat) (wire : WireBytes)
    (frame : AssembledFrame) (proper : Proper previewBitstreamLength .audio wire)
    (written : WrittenFrame wire frame) : wire.full = frame.toBytes := by
  obtain ⟨kind, origin, sendable, made⟩ := proper
  obtain ⟨-, -, state, bytes⟩ := written
  rcases made with rfl | rfl
  · obtain ⟨sent, -, variant, same⟩ :=
      broadcast_variant previewBitstreamLength origin sendable state
    rcases variant with rfl | ⟨video, -, present, -, -⟩
    · exact same.symm.trans bytes
    · -- Only pictures have previews.
      have audio : origin.header.frameType = .audio := kind
      rw [sendable.picture video present] at audio
      exact absurd audio (by decide)
  · rw [← bytes]
    unfold WireBytes.bytesFor enqueuedWire
    split <;> rfl

/-- The sound is that of the frame on the wire. If the frame was packed from planar samples,
these are the samples. -/
structure SoundOf (wire : WireBytes) (decoded : DecodedAudioFrame) : Prop where
  frame : ∃ frame, Sendable frame ∧ wire.full = frame.toBytes ∧
    decodeAudioFrame frame = some decoded
  samples : ∀ clock source frame, assembleAudio clock source = .ok frame →
    WithinLimits source frame → wire.full = frame.toBytes → source.activeChannels = 0 →
      decoded.timestamp = frame.header.timestamp ∧ decoded.sampleRate = source.sampleRate ∧
      decoded.channels = source.channels ∧
      decoded.samplesPerChannel = source.samplesPerChannel ∧
      decoded.pcmPlanarF32 = source.data.take
        (source.channels.toNatClampNeg * source.samplesPerChannel.toNatClampNeg * 4)

theorem decoded_timestamp (frame : AssembledFrame) (decoded : DecodedAudioFrame)
    (made : decodeAudioFrame frame = some decoded) :
    decoded.timestamp = frame.header.timestamp := by
  unfold decodeAudioFrame at made
  split at made
  · cases made
  split at made
  · cases made
  split at made
  · cases made
  split at made
  · cases made
  · cases made
    rfl

theorem soundOf_decoded (wire : WireBytes) (frame : AssembledFrame) (decoded : DecodedAudioFrame)
    (sendable : Sendable frame) (bytes : wire.full = frame.toBytes)
    (made : decodeAudioFrame frame = some decoded) : SoundOf wire decoded where
  frame := ⟨frame, sendable, bytes, made⟩
  samples := by
    intro clock source sent assembled limits same planar
    obtain rfl := sendable.same (assembleAudio_sendable clock source sent assembled limits).1
      (bytes.symm.trans same)
    exact ⟨decoded_timestamp frame decoded made,
      decoded_samples clock source frame assembled planar decoded made⟩

structure SoundPath (documentParse : List Char → Except String Markup.XmlNode)
    (previewBitstreamLength : List UInt8 → Option Nat) (transport : SenderTransport)
    (pipeline : ReceiverPipeline) : Prop where
  sent : SenderRun documentParse previewBitstreamLength transport
  carried : ∃ entry ∈ transport.control.peers, ∃ reader answers, Carries entry.2 reader ∧
    pipeline.heard = heardFrames (audioReaderLoop .new reader answers)
  received : ∃ history,
    Runs.replay ReceiverPipeline.act ReceiverPipeline.begin history = some pipeline

/-- What the application takes is sound that was written, in that order, none of it twice, and
with the samples that were sent; with queues, it is in the order in which they were offered
it, whoever offered it. -/
theorem sound_as_sent (documentParse : List Char → Except String Markup.XmlNode)
    (previewBitstreamLength : List UInt8 → Option Nat) (transport : SenderTransport)
    (pipeline : ReceiverPipeline)
    (path : SoundPath documentParse previewBitstreamLength transport pipeline) :
    Derived SoundOf transport.writtenWires pipeline.audio.received ∧
      (transport.depth ≠ 0 →
        Derived SoundOf (transport.outbound .audio).offered pipeline.audio.received) := by
  obtain ⟨entry, member, reader, answers, carries, heard⟩ := path.carried
  obtain ⟨received, receivedRan⟩ := path.received
  have accounted := ReceiverPipeline.run_accounted received pipeline receivedRan
  have some : transport.control.peers ≠ [] := List.ne_nil_of_mem member
  obtain ⟨straight, first, rest, -, known, written, sendable, aligned⟩ := carried_frames
    documentParse previewBitstreamLength transport path.sent entry member reader carries
  have front := loop_hears answers (first ++ rest) .new reader sendable aligned
  rw [← heard] at front
  have taken := accounted.others.audio.fewer pipeline.audio.received_prefix.sublist
  -- A greeting is no sound.
  have audible := (taken.among front.sublist).member.within
    (fun frame => frame.header.frameType = .audio) fun frame decoded found => by
      obtain ⟨⟨inside, -⟩, made⟩ := found
      exact decide_eq_true (sound_kind (sendable frame inside) decoded made)
  have none : first.filter (fun frame => frame.header.frameType = .audio) = [] := by
    refine List.filter_eq_nil_iff.mpr fun frame inside audio => ?_
    rw [(known frame inside).2] at audio
    exact absurd audio (by decide)
  rw [List.filter_append, none, List.nil_append] at audible
  have ofKind : Derived WrittenFrame (ofType .audio transport.writtenWires)
      (rest.filter fun frame => frame.header.frameType = .audio) :=
    ((written.fewer List.filter_sublist).member.within (fun wire => wire.ft = .audio)
      fun wire frame found => by
        obtain ⟨⟨-, inside⟩, -, same, -⟩ := found
        exact decide_eq_true (same.symm.trans (of_decide_eq_true (List.mem_filter.mp inside).2))).imp
      fun wire frame found => found.2
  have sounds : Derived SoundOf (ofType .audio transport.writtenWires) pipeline.audio.received := by
    refine (ofKind.member.trans audible).imp fun wire decoded found => ?_
    obtain ⟨frame, ⟨⟨inside, -⟩, made⟩, -, decodes⟩ := found
    obtain ⟨wrote, kind⟩ := List.mem_filter.mp inside
    exact soundOf_decoded wire frame decoded made.1 (written_sound previewBitstreamLength wire
      frame ⟨of_decide_eq_true kind, straight.written wire wrote⟩ made) decodes
  exact ⟨sounds.among List.filter_sublist,
    fun queued => sounds.among (straight.sound_in_order some queued)⟩

def monoBlock (timestamp : Int64) : AssembledFrame :=
  audioFrame timestamp monoAudio [0, 0, 128, 63] 1

theorem monoBlock_packed (timestamp : Int64) : Packed (monoBlock timestamp) :=
  ⟨fun _ _ _ _ _ => timestamp, monoAudio,
    assembleAudio_frame (fun _ _ _ _ _ => timestamp) monoAudio [0, 0, 128, 63] 1 (by decide),
    ⟨Nat.zero_le 65535, by change 28 ≤ maxPayloadFor .audio; decide⟩⟩

/-- Two clones of the ingress have seen the flag; the one that saw it last is first. -/
def twoBlocks : List TransportStep :=
  [.write .audio fun _ => .ok, .take .audio, .write .audio fun _ => .ok, .take .audio,
    .ingressOffer 0 fun _ => .ok, .ingressOffer 1 fun _ => .ok, .ingressCheck (monoBlock 2),
    .ingressCheck (monoBlock 1), .forceSubscribe false true false, .control (.addPeer none .ok)]

def blockReader : Peer where
  stream := [⟨(monoBlock 2).toBytes, (monoBlock 2).toBytes.length⟩,
    ⟨(monoBlock 1).toBytes, (monoBlock 1).toBytes.length⟩]
  state := { audio := true }
  inbound := []

def blockReads : List ReadResult := [.data ((monoBlock 2).toBytes ++ (monoBlock 1).toBytes)]

def blocksHeard : List PipelineStep :=
  [.tryRecvAudio, .tryRecvAudio, .audioFrame (monoBlock 1), .audioFrame (monoBlock 2)]

theorem blockReader_whole : ¬ Torn blockReader.stream := by
  rintro ⟨written, member, -, part⟩
  rcases List.mem_cons.mp member with rfl | last
  · exact part List.take_length
  · rw [List.mem_singleton.mp last] at part
    exact part List.take_length

theorem twoBlocks_made : ∀ step ∈ twoBlocks, Makes step := by
  intro step member
  simp only [twoBlocks, List.mem_cons, List.not_mem_nil, or_false] at member
  rcases member with rfl | rfl | rfl | rfl | rfl | rfl | rfl | rfl | rfl | rfl
  case inr.inr.inr.inr.inr.inr.inl => exact monoBlock_packed 2
  case inr.inr.inr.inr.inr.inr.inr.inl => exact monoBlock_packed 1
  all_goals exact trivial

theorem blocks_heard :
    heardFrames (audioReaderLoop .new blockReads [.ok, .ok]) = [monoBlock 2, monoBlock 1] := by
  decide

theorem blocks_delivered : streamOf blockReads = delivered blockReader.stream := by
  decide

theorem sound_as_sent_blocks :
    ∃ (transport : SenderTransport) (pipeline : ReceiverPipeline),
      pipeline.audio.received.length = 2 ∧ transport.depth ≠ 0 ∧
      (transport.outbound .audio).offered = [enqueuedWire (monoBlock 2), enqueuedWire (monoBlock 1)] ∧
      Derived SoundOf (transport.outbound .audio).offered pipeline.audio.received := by
  have sent : Runs.replay (act Markup.readEmptyTag fun _ => none) (create 2 fun _ => true)
    twoBlocks = some _ := rfl
  have received : Runs.replay ReceiverPipeline.act ReceiverPipeline.begin blocksHeard = some _ := rfl
  have sound : ∀ read ∈ blockReads, SoundRead read := by
    intro read member
    rw [List.mem_singleton.mp member]
    exact ⟨by decide, by decide⟩
  refine ⟨_, _, ?_, ?_, rfl, (sound_as_sent Markup.readEmptyTag (fun _ => none) _ _
    ⟨⟨2, fun _ => true, twoBlocks, sent, twoBlocks_made⟩,
      ⟨(1, blockReader), ?_, blockReads, [.ok, .ok],
        ⟨blockReader_whole, blocks_delivered, sound⟩, blocks_heard.symm⟩,
      ⟨blocksHeard, received⟩⟩).2 ?_⟩
  · rfl
  · exact Nat.succ_ne_zero 1
  · exact List.mem_singleton.mpr rfl
  · exact Nat.succ_ne_zero 1

end OpenMediaTransport
