import OpenMediaTransport.DecodedVideoQueue
import OpenMediaTransport.EncodedCapture
import OpenMediaTransport.Provenance
import OpenMediaTransport.SaturatingCount
import OpenMediaTransport.SyncChannel
import OpenMediaTransport.WireDepth

/-!
The threads of a `ReceiverSession` as `connect_with_addresses` of `receive.rs` ties them
together: the video reader, the audio reader, the decoder and the application, in any order
of their steps. The frames that the sockets yield are inputs, and so is what the codec
answers. The pooled buffers, the times of the codec and the text of the last error are left
out, and no thread ends.
-/

namespace OpenMediaTransport

def videoDecodedQ : Nat := 1
def audioQ : Nat := 10
def metadataQ : Nat := 60

/-- Where the decoder thread is with the frame that it has counted off. -/
inductive Decoding where
  | idle
  | counted (wire : WireVideo)
  | captured (wire : WireVideo)
  | failed
  | decoded (frame : DecodedVideoFrame)
  | timed (frame : DecodedVideoFrame)

/-- Where the video reader is with the statistics of a frame that it gives up. -/
inductive Reading where
  | idle
  | dropping
  deriving DecidableEq

def Decoding.wires : Decoding → List WireVideo
  | .counted wire => [wire]
  | .captured wire => [wire]
  | _ => []

def Decoding.frames : Decoding → List DecodedVideoFrame
  | .decoded frame => [frame]
  | .timed frame => [frame]
  | _ => []

/-- A picture that the statistics do not know of yet. -/
def Decoding.uncounted : Decoding → Nat
  | .decoded _ => 1
  | _ => 0

/-- The frame that the encoded capture has seen already. -/
def Decoding.seen : Decoding → List WireVideo
  | .captured wire => [wire]
  | _ => []

def Decoding.failing : Decoding → Nat
  | .failed => 1
  | _ => 0

def Reading.pending : Reading → Nat
  | .idle => 0
  | .dropping => 1

structure Decode where
  wire : WireVideo
  frame : Option DecodedVideoFrame

/-- The session with what has passed through it: the frames that came on either socket,
the protocol errors in between, the wire frames that were queued and what the decoder made
of them. -/
structure ReceiverPipeline where
  wire : WireQueue
  reading : Reading
  decoding : Decoding
  capturing : EncodedCapture.Capturing
  traffic : DecodedVideoQueue.Traffic DecodedVideoFrame
  audio : SyncChannel DecodedAudioFrame
  metadata : SyncChannel MetadataFrame
  bytesReceived : UInt64
  bytesReceivedSinceLast : UInt64
  framesDecoded : UInt64
  framesDroppedWire : UInt64
  framesDroppedAudio : UInt64
  arrived : List AssembledFrame
  protocolErrors : Nat
  queued : List WireVideo
  decodes : List Decode
  heard : List AssembledFrame

inductive PipelineStep where
  | dispatch (frame : AssembledFrame)
  | count
  | protocolError
  | recordDropWire
  | audioFrame (frame : AssembledFrame)
  | receive
  | countOff
  | capture
  | decode (answer : Except OmtError VmxPicture)
  | recordDropDecode
  | recordCodecTime
  | publish
  | tryRecvVideo
  | recvVideo (stop expired : Bool)
  | tryRecvAudio
  | tryRecvMetadata
  | tryRecvVmx1
  | setEncodedCapture (on : Bool)

namespace ReceiverPipeline

def begin : ReceiverPipeline where
  wire := .init
  reading := .idle
  decoding := .idle
  capturing := EncodedCapture.begin
  traffic := DecodedVideoQueue.begin videoDecodedQ 0
  audio := .new audioQ
  metadata := .new metadataQ
  bytesReceived := 0
  bytesReceivedSinceLast := 0
  framesDecoded := 0
  framesDroppedWire := 0
  framesDroppedAudio := 0
  arrived := []
  protocolErrors := 0
  queued := []
  decodes := []
  heard := []

def answer {α : Type} (channel : SyncChannel α) : TrySend := if channel.hasRoom then .ok else .full

def recordBytes (pipeline : ReceiverPipeline) (frame : AssembledFrame) : ReceiverPipeline :=
  let count := frame.header.dataLength.toNatClampNeg + 16
  { pipeline with
    bytesReceived := saturatingAdd pipeline.bytesReceived count
    bytesReceivedSinceLast := saturatingAdd pipeline.bytesReceivedSinceLast count }

/-- What `dispatch_av_frame` does outside the video channel; that is done with the depth. -/
def effect (pipeline : ReceiverPipeline) : DispatchEffect → ReceiverPipeline
  | .dropWire => { pipeline with reading := .dropping }
  | .dropAudio =>
      { pipeline with framesDroppedAudio := saturatingAdd pipeline.framesDroppedAudio 1 }
  | .video wire => { pipeline with queued := pipeline.queued ++ [wire] }
  | .audio decoded => { pipeline with audio := pipeline.audio.trySend decoded }
  | .metadata frame => { pipeline with metadata := pipeline.metadata.trySend frame }

/-- One step, if the thread is at it. The session's video reader leaves audio to the other
socket. -/
def act (pipeline : ReceiverPipeline) : PipelineStep → Option ReceiverPipeline
  | .dispatch frame =>
      match pipeline.reading with
      | .dropping => none
      | .idle =>
          (pipeline.wire.act (.dispatch frame false (answer pipeline.metadata)
            (answer pipeline.audio))).map fun wire =>
            (dispatchAvFrame frame false pipeline.wire.trySend (answer pipeline.metadata)
              (answer pipeline.audio)).foldl effect
              { pipeline.recordBytes frame with wire, arrived := pipeline.arrived ++ [frame] }
  | .count =>
      (pipeline.wire.act .count).map fun wire => { pipeline with wire }
  | .protocolError =>
      if pipeline.reading = .idle ∧ pipeline.wire.counting = false then
        some { pipeline with
          reading := .dropping
          protocolErrors := pipeline.protocolErrors + 1 }
      else none
  | .recordDropWire =>
      match pipeline.reading with
      | .idle => none
      | .dropping => some { pipeline with
          reading := .idle
          framesDroppedWire := saturatingAdd pipeline.framesDroppedWire 1 }
  | .audioFrame frame =>
      let pipeline := { pipeline.recordBytes frame with heard := pipeline.heard ++ [frame] }
      match decodeAudioFrame frame with
      | none => some (pipeline.effect .dropAudio)
      | some decoded =>
          if pipeline.audio.hasRoom then some (pipeline.effect (.audio decoded))
          else some (pipeline.effect .dropAudio)
  | .receive =>
      match pipeline.decoding with
      | .idle => (pipeline.wire.act .receive).map fun wire => { pipeline with wire }
      | _ => none
  | .countOff =>
      match pipeline.wire.taken with
      | none => none
      | some frame => (pipeline.wire.act .countOff).map fun wire =>
          { pipeline with wire, decoding := .counted frame }
  | .capture =>
      match pipeline.decoding with
      | .counted wire => (pipeline.capturing.act (.publish wire)).map fun capturing =>
          { pipeline with capturing, decoding := .captured wire }
      | _ => none
  | .decode answer =>
      match pipeline.decoding with
      | .captured wire =>
          match decodeVmxBgra (fun _ _ _ _ _ => answer) wire with
          | .ok frame => some { pipeline with
              decoding := .decoded frame
              decodes := pipeline.decodes ++ [⟨wire, some frame⟩] }
          | .error _ => some { pipeline with
              decoding := .failed
              decodes := pipeline.decodes ++ [⟨wire, none⟩] }
      | _ => none
  | .recordDropDecode =>
      match pipeline.decoding with
      | .failed => some { pipeline with
          decoding := .idle
          traffic := { pipeline.traffic with
            framesDroppedDecode := OpenMediaTransport.recordDropDecode
              pipeline.traffic.framesDroppedDecode } }
      | _ => none
  | .recordCodecTime =>
      match pipeline.decoding with
      | .decoded frame => some { pipeline with
          decoding := .timed frame
          framesDecoded := saturatingAdd pipeline.framesDecoded 1 }
      | _ => none
  | .publish =>
      match pipeline.decoding with
      | .timed frame => (pipeline.traffic.act (.publish frame)).map fun traffic =>
          { pipeline with traffic, decoding := .idle }
      | _ => none
  | .tryRecvVideo =>
      (pipeline.traffic.act .tryTake).map fun traffic => { pipeline with traffic }
  | .recvVideo stop expired =>
      (pipeline.traffic.act (.waitTake stop expired)).map fun traffic => { pipeline with traffic }
  | .tryRecvAudio => some { pipeline with audio := pipeline.audio.tryRecv.2 }
  | .tryRecvMetadata => some { pipeline with metadata := pipeline.metadata.tryRecv.2 }
  | .tryRecvVmx1 =>
      (pipeline.capturing.act .take).map fun capturing => { pipeline with capturing }
  | .setEncodedCapture on =>
      (pipeline.capturing.act (.setEncodedCapture on)).map fun capturing =>
        { pipeline with capturing }

/-! What the threads hold of a frame. -/

def isVideo (frame : AssembledFrame) : Bool := frame.header.frameType.contains .video

def metadataFrame (frame : AssembledFrame) : MetadataFrame :=
  { timestamp := frame.header.timestamp
    xml := (frameMeta frame).getD (if frame.data.isEmpty then [] else Utf8.decodeLossy frame.data) }

/-- A frame that is neither video nor, on this socket, audio. -/
def isMetadata (frame : AssembledFrame) : Bool :=
  !isVideo frame && frame.header.frameType.contains .metadata

structure Shows (wire : WireVideo) (frame : DecodedVideoFrame) : Prop where
  timestamp : frame.timestamp = wire.timestamp
  frameRateN : frame.frameRateN = wire.frameRateN
  frameRateD : frame.frameRateD = wire.frameRateD
  colorSpace : frame.colorSpace = wire.colorSpace
  frameMetadata : frame.frameMetadata = wire.metadata

theorem decodeVmxBgra_shows (vmxDecode : VmxDecode) (wire : WireVideo) (frame : DecodedVideoFrame)
    (decoded : decodeVmxBgra vmxDecode wire = .ok frame) : Shows wire frame := by
  unfold decodeVmxBgra at decoded
  split at decoded
  · cases decoded
  · cases decoded
    exact ⟨rfl, rfl, rfl, rfl, rfl⟩

inductive Dispatched (before : ReceiverPipeline) (frame : AssembledFrame) :
    ReceiverPipeline → Prop where
  | refused (video : isVideo frame = true)
      (why : wireVideo frame = none ∨ videoWireQ ≤ before.wire.channel.length) :
      Dispatched before frame { before.recordBytes frame with
        arrived := before.arrived ++ [frame], reading := .dropping }
  | queued (video : isVideo frame = true) (room : before.wire.channel.length < videoWireQ)
      (wire : WireVideo) (made : wireVideo frame = some wire) :
      Dispatched before frame { before.recordBytes frame with
        arrived := before.arrived ++ [frame], queued := before.queued ++ [wire]
        wire := { before.wire with channel := before.wire.channel ++ [wire], counting := true } }
  | metadata (document : isMetadata frame = true) :
      Dispatched before frame { before.recordBytes frame with
        arrived := before.arrived ++ [frame]
        metadata := before.metadata.trySend (metadataFrame frame) }
  | ignored (video : isVideo frame = false) (document : isMetadata frame = false) :
      Dispatched before frame { before.recordBytes frame with
        arrived := before.arrived ++ [frame] }

theorem wire_unchanged (queue : WireQueue) (free : queue.counting = false) :
    { queue with channel := queue.channel ++ [], counting := false } = queue := by
  cases queue
  cases free
  rw [List.append_nil]

theorem act_dispatched (before after : ReceiverPipeline) (frame : AssembledFrame)
    (acted : before.act (.dispatch frame) = some after) :
    before.reading = .idle ∧ before.wire.counting = false ∧ Dispatched before frame after := by
  simp only [act] at acted
  split at acted
  · cases acted
  rename_i idle
  refine ⟨idle, ?_⟩
  cases free : before.wire.counting with
  | true => simp [WireQueue.act, free] at acted
  | false =>
      refine ⟨rfl, ?_⟩
      simp only [WireQueue.act, free, Bool.false_eq_true, if_false, Option.map_some,
        Option.some.injEq] at acted
      have kept := wire_unchanged before.wire free
      cases video : frame.header.frameType.contains .video with
      | true =>
          cases made : wireVideo frame with
          | none =>
              simp only [dispatchAvFrame, video, made, if_true, queuedVideo, List.isEmpty_nil,
                Bool.not_true, kept, List.foldl_cons, List.foldl_nil, effect] at acted
              rw [← acted]
              exact .refused video (.inl made)
          | some wire =>
              by_cases room : before.wire.channel.length < videoWireQ
              · have answered : before.wire.trySend = .ok := if_pos room
                simp only [dispatchAvFrame, video, made, answered, if_true, queuedVideo,
                  List.isEmpty_cons, Bool.not_false, List.foldl_cons, List.foldl_nil,
                  effect] at acted
                rw [← acted]
                exact .queued video room wire made
              · have answered : before.wire.trySend = .full := if_neg room
                simp only [dispatchAvFrame, video, made, answered, if_true, queuedVideo,
                  List.isEmpty_nil, Bool.not_true, kept, List.foldl_cons, List.foldl_nil,
                  effect] at acted
                rw [← acted]
                exact .refused video (.inr (Nat.le_of_not_lt room))
      | false =>
          cases document : frame.header.frameType.contains .metadata with
          | false =>
              simp only [dispatchAvFrame, video, document, Bool.false_eq_true, if_false,
                Bool.and_false, queuedVideo, List.isEmpty_nil, Bool.not_true, kept,
                List.foldl_nil] at acted
              rw [← acted]
              exact .ignored video (by simp [isMetadata, document])
          | true =>
              have kind : isMetadata frame = true := by simp [isMetadata, isVideo, video, document]
              cases room : before.metadata.hasRoom with
              | true =>
                  simp only [dispatchAvFrame, video, document, answer, room, Bool.false_eq_true,
                    if_false, if_true, Bool.and_false, queuedVideo, List.isEmpty_nil,
                    Bool.not_true, kept, List.foldl_cons, List.foldl_nil, effect] at acted
                  rw [← acted]
                  exact .metadata kind
              | false =>
                  simp only [dispatchAvFrame, video, document, answer, room, Bool.false_eq_true,
                    if_false, if_true, Bool.and_false, queuedVideo, List.isEmpty_nil,
                    Bool.not_true, kept, List.foldl_nil] at acted
                  have same : before.metadata.trySend (metadataFrame frame) = before.metadata := by
                    rw [SyncChannel.trySend, dif_neg (by rw [room]; exact Bool.false_ne_true)]
                  have step : Dispatched before frame _ := .metadata kind
                  rw [same] at step
                  rw [← acted]
                  exact step

/-! What the books say. -/

def pictures (decodes : List Decode) : List DecodedVideoFrame := decodes.filterMap Decode.frame

def failures (decodes : List Decode) : Nat :=
  (decodes.filter fun decode => decode.frame.isNone).length

def wireBytes (frames : List AssembledFrame) : Nat :=
  (frames.map fun frame => frame.header.dataLength.toNatClampNeg + 16).sum

/-- The statistics of video, the frames a thread is still to count apart. -/
structure VideoAccounted (pipeline : ReceiverPipeline) : Prop where
  dropped : ∃ refused, (pipeline.arrived.filter isVideo).length + pipeline.protocolErrors =
    pipeline.queued.length + refused + pipeline.reading.pending ∧
    Counts pipeline.framesDroppedWire refused
  decoded : ∃ counted, (pictures pipeline.decodes).length =
    counted + pipeline.decoding.uncounted ∧ Counts pipeline.framesDecoded counted
  overwritten : ∃ counted, failures pipeline.decodes = counted + pipeline.decoding.failing ∧
    DecodedVideoQueue.Accounted videoDecodedQ (recordDropDecode^[counted] 0) pipeline.traffic

/-- Where the frames are that have come, stage by stage. -/
structure VideoOrdered (pipeline : ReceiverPipeline) : Prop where
  room : pipeline.wire.channel.length ≤ videoWireQ
  alone : pipeline.wire.taken = none ∨ pipeline.decoding = .idle
  derived : Derived (fun frame wire => isVideo frame = true ∧ wireVideo frame = some wire)
    pipeline.arrived pipeline.queued
  stages : pipeline.queued = pipeline.decodes.map Decode.wire ++ (pipeline.decoding.wires ++
    (pipeline.wire.taken.toList ++ pipeline.wire.channel))
  shown : ∀ decode ∈ pipeline.decodes, ∀ frame ∈ decode.frame, Shows decode.wire frame
  published : pictures pipeline.decodes = pipeline.traffic.published ++ pipeline.decoding.frames
  captured : Derived (fun wire frame => ∃ number, frame = EncodedCapture.captured wire number)
    (pipeline.decodes.map Decode.wire ++ pipeline.decoding.seen) pipeline.capturing.entered
  capture : EncodedCapture.Accounted pipeline.capturing

structure OthersAccounted (pipeline : ReceiverPipeline) : Prop where
  bytes : Counts pipeline.bytesReceived (wireBytes pipeline.arrived + wireBytes pipeline.heard)
  audioCap : pipeline.audio.cap = audioQ
  audio : Derived (fun frame decoded => decodeAudioFrame frame = some decoded)
    pipeline.heard pipeline.audio.accepted
  dropped : ∃ refused, pipeline.heard.length = pipeline.audio.accepted.length + refused ∧
    Counts pipeline.framesDroppedAudio refused
  metadataCap : pipeline.metadata.cap = metadataQ
  metadata : Derived (fun frame document => isMetadata frame = true ∧
    document = metadataFrame frame) pipeline.arrived pipeline.metadata.accepted

structure Accounted (pipeline : ReceiverPipeline) : Prop where
  video : VideoAccounted pipeline
  ordered : VideoOrdered pipeline
  others : OthersAccounted pipeline

theorem wireBytes_snoc (frames : List AssembledFrame) (frame : AssembledFrame) :
    wireBytes (frames ++ [frame]) =
      wireBytes frames + (frame.header.dataLength.toNatClampNeg + 16) := by
  simp [wireBytes]

theorem filter_snoc (frames : List AssembledFrame) (frame : AssembledFrame) :
    ((frames ++ [frame]).filter isVideo).length =
      (frames.filter isVideo).length + if isVideo frame then 1 else 0 := by
  cases video : isVideo frame <;> simp [video]

theorem drop_accounted {cap : Nat} {droppedBefore : UInt64}
    {traffic : DecodedVideoQueue.Traffic DecodedVideoFrame}
    (accounted : DecodedVideoQueue.Accounted cap droppedBefore traffic) :
    DecodedVideoQueue.Accounted cap (recordDropDecode droppedBefore)
      { traffic with framesDroppedDecode := recordDropDecode traffic.framesDroppedDecode } := by
  have below := droppedBefore.toNat_lt
  have before := DecodedVideoQueue.recordDropDecode_count droppedBefore.toNat 0 droppedBefore
    (by omega)
  have after := DecodedVideoQueue.recordDropDecode_count droppedBefore.toNat
    traffic.overwritten.length traffic.framesDroppedDecode accounted.dropped
  refine { accounted with dropped := ?_ }
  change (recordDropDecode traffic.framesDroppedDecode).toNat =
    min ((recordDropDecode droppedBefore).toNat + traffic.overwritten.length) (2 ^ 64 - 1)
  rw [after, before]
  omega

theorem begin_accounted : Accounted begin where
  video := ⟨⟨0, rfl, .zero⟩, ⟨0, rfl, .zero⟩, ⟨0, rfl,
    (DecodedVideoQueue.accounted_kept videoDecodedQ 0).start⟩⟩
  ordered := ⟨Nat.zero_le _, .inl rfl, .nil [], rfl, nofun, rfl, .nil [],
    EncodedCapture.accounted_kept.start⟩
  others := ⟨.zero, rfl, .nil [], ⟨0, rfl, .zero⟩, rfl, .nil []⟩

theorem VideoOrdered.free {pipeline : ReceiverPipeline} (ordered : VideoOrdered pipeline)
    (busy : pipeline.decoding ≠ .idle) : pipeline.wire.taken = none :=
  ordered.alone.resolve_right busy

theorem dispatch_accounted (before after : ReceiverPipeline) (frame : AssembledFrame)
    (accounted : Accounted before) (idle : before.reading = .idle)
    (dispatched : Dispatched before frame after) : Accounted after := by
  obtain ⟨video, ordered, others⟩ := accounted
  obtain ⟨refused, total, counted⟩ := video.dropped
  rw [idle, Reading.pending, Nat.add_zero] at total
  have bytes : Counts (before.recordBytes frame).bytesReceived
      (wireBytes (before.arrived ++ [frame]) + wireBytes before.heard) := by
    rw [wireBytes_snoc, Nat.add_right_comm]
    exact others.bytes.add _
  cases dispatched with
  | refused kind why =>
      refine ⟨{ video with dropped := ⟨refused, ?_, counted⟩ },
        { ordered with derived := ordered.derived.skip [frame] },
        { others with bytes, metadata := others.metadata.skip [frame] }⟩
      change ((before.arrived ++ [frame]).filter isVideo).length + before.protocolErrors =
        before.queued.length + refused + 1
      rw [filter_snoc, kind, if_pos rfl]
      omega
  | queued kind room wire made =>
      refine ⟨{ video with dropped := ⟨refused, ?_, counted⟩ },
        { ordered with
          room := ?_
          derived := ordered.derived.keep frame wire ⟨kind, made⟩
          stages := ?_ },
        { others with bytes, metadata := others.metadata.skip [frame] }⟩
      · change ((before.arrived ++ [frame]).filter isVideo).length + before.protocolErrors =
          (before.queued ++ [wire]).length + refused + before.reading.pending
        rw [filter_snoc, kind, if_pos rfl, List.length_append, List.length_singleton, idle,
          Reading.pending]
        omega
      · rw [List.length_append, List.length_singleton]
        exact room
      · change before.queued ++ [wire] = before.decodes.map Decode.wire ++ (before.decoding.wires ++
          (before.wire.taken.toList ++ (before.wire.channel ++ [wire])))
        rw [ordered.stages]
        simp only [List.append_assoc]
  | metadata document =>
      have kind : isVideo frame = false := by
        rw [isMetadata, Bool.and_eq_true, Bool.not_eq_true'] at document
        exact document.1
      refine ⟨{ video with dropped := ⟨refused, ?_, counted⟩ },
        { ordered with derived := ordered.derived.skip [frame] },
        { others with
          bytes
          metadataCap := (SyncChannel.trySend_cap _ _).trans others.metadataCap
          metadata := ?_ }⟩
      · change ((before.arrived ++ [frame]).filter isVideo).length + before.protocolErrors =
          before.queued.length + refused + before.reading.pending
        rw [filter_snoc, kind, idle, if_neg Bool.false_ne_true]
        exact total
      · change Derived _ (before.arrived ++ [frame])
          (before.metadata.trySend (metadataFrame frame)).accepted
        rw [SyncChannel.trySend_accepted]
        split
        · exact others.metadata.keep frame _ ⟨document, rfl⟩
        · exact others.metadata.skip [frame]
  | ignored kind document =>
      refine ⟨{ video with dropped := ⟨refused, ?_, counted⟩ },
        { ordered with derived := ordered.derived.skip [frame] },
        { others with bytes, metadata := others.metadata.skip [frame] }⟩
      change ((before.arrived ++ [frame]).filter isVideo).length + before.protocolErrors =
        before.queued.length + refused + before.reading.pending
      rw [filter_snoc, kind, idle, if_neg Bool.false_ne_true]
      exact total

/-! The steps of the reader. -/

theorem count_accounted (before after : ReceiverPipeline) (accounted : Accounted before)
    (acted : before.act .count = some after) : Accounted after := by
  obtain ⟨wire, counted, rfl⟩ := Option.map_eq_some_iff.mp acted
  simp only [WireQueue.act] at counted
  split at counted
  · cases counted
    exact ⟨{ accounted.video with }, { accounted.ordered with }, { accounted.others with }⟩
  · cases counted

theorem protocolError_accounted (before after : ReceiverPipeline) (accounted : Accounted before)
    (acted : before.act .protocolError = some after) : Accounted after := by
  simp only [act] at acted
  split at acted
  · rename_i free
    cases acted
    obtain ⟨refused, total, counted⟩ := accounted.video.dropped
    rw [free.1, Reading.pending] at total
    refine ⟨{ accounted.video with dropped := ⟨refused, ?_, counted⟩ }, { accounted.ordered with },
      { accounted.others with }⟩
    change (before.arrived.filter isVideo).length + (before.protocolErrors + 1) =
      before.queued.length + refused + 1
    omega
  · cases acted

theorem recordDropWire_accounted (before after : ReceiverPipeline) (accounted : Accounted before)
    (acted : before.act .recordDropWire = some after) : Accounted after := by
  simp only [act] at acted
  split at acted
  · cases acted
  · rename_i dropping
    cases acted
    obtain ⟨refused, total, counted⟩ := accounted.video.dropped
    rw [dropping, Reading.pending] at total
    refine ⟨{ accounted.video with dropped := ⟨refused + 1, ?_, counted.add 1⟩ },
      { accounted.ordered with }, { accounted.others with }⟩
    change (before.arrived.filter isVideo).length + before.protocolErrors =
      before.queued.length + (refused + 1) + 0
    omega

theorem audioFrame_accounted (before after : ReceiverPipeline) (frame : AssembledFrame)
    (accounted : Accounted before) (acted : before.act (.audioFrame frame) = some after) :
    Accounted after := by
  obtain ⟨video, ordered, others⟩ := accounted
  obtain ⟨refused, total, counted⟩ := others.dropped
  have bytes : Counts (before.recordBytes frame).bytesReceived
      (wireBytes before.arrived + wireBytes (before.heard ++ [frame])) := by
    rw [wireBytes_snoc, ← Nat.add_assoc]
    exact others.bytes.add _
  have lost : Accounted (({ before.recordBytes frame with
      heard := before.heard ++ [frame] } : ReceiverPipeline).effect .dropAudio) := by
    refine ⟨{ video with }, { ordered with }, { others with
      bytes
      audio := others.audio.skip [frame]
      dropped := ⟨refused + 1, ?_, counted.add 1⟩ }⟩
    change (before.heard ++ [frame]).length = before.audio.accepted.length + (refused + 1)
    rw [List.length_append, List.length_singleton, total]
    omega
  simp only [act] at acted
  split at acted
  · cases acted
    exact lost
  rename_i decoded made
  split at acted
  · rename_i room
    change before.audio.hasRoom = true at room
    cases acted
    have sent : (before.audio.trySend decoded).accepted = before.audio.accepted ++ [decoded] := by
      rw [SyncChannel.trySend_accepted, if_pos room]
    refine ⟨{ video with }, { ordered with }, { others with
      bytes
      audioCap := (SyncChannel.trySend_cap _ _).trans others.audioCap
      audio := ?_
      dropped := ⟨refused, ?_, counted⟩ }⟩
    · change Derived _ (before.heard ++ [frame]) (before.audio.trySend decoded).accepted
      rw [sent]
      exact others.audio.keep frame decoded made
    · change (before.heard ++ [frame]).length = (before.audio.trySend decoded).accepted.length + refused
      rw [sent, List.length_append, List.length_append, List.length_singleton,
        List.length_singleton, total]
      omega
  · cases acted
    exact lost

/-! The steps of the decoder. -/

theorem receive_accounted (before after : ReceiverPipeline) (accounted : Accounted before)
    (acted : before.act .receive = some after) : Accounted after := by
  simp only [act] at acted
  split at acted
  · rename_i idle
    obtain ⟨wire, received, rfl⟩ := Option.map_eq_some_iff.mp acted
    obtain ⟨video, ordered, others⟩ := accounted
    have room := ordered.room
    have stages := ordered.stages
    simp only [WireQueue.act] at received
    split at received
    · rename_i first rest taken channel
      cases received
      refine ⟨{ video with }, { ordered with room := ?_, alone := .inr idle, stages := ?_ },
        { others with }⟩
      · rw [channel, List.length_cons] at room
        exact Nat.le_of_succ_le room
      · rw [stages, taken, channel]
        rfl
    · cases received
  · cases acted

theorem countOff_accounted (before after : ReceiverPipeline) (accounted : Accounted before)
    (acted : before.act .countOff = some after) : Accounted after := by
  simp only [act] at acted
  split at acted
  · cases acted
  · rename_i frame taken
    obtain ⟨wire, counted, rfl⟩ := Option.map_eq_some_iff.mp acted
    obtain ⟨video, ordered, others⟩ := accounted
    have idle : before.decoding = .idle := by
      rcases ordered.alone with none | idle
      · rw [taken] at none
        cases none
      · exact idle
    simp only [WireQueue.act, taken, Option.some.injEq] at counted
    subst counted
    obtain ⟨shown, total, right⟩ := video.decoded
    obtain ⟨failed, sum, traffic⟩ := video.overwritten
    rw [idle] at total sum
    refine ⟨{ video with decoded := ⟨shown, total, right⟩, overwritten := ⟨failed, sum, traffic⟩ },
      { ordered with alone := .inl rfl, stages := ?_, published := ?_, captured := ?_ },
      { others with }⟩
    · rw [ordered.stages, idle, taken]
      rfl
    · rw [ordered.published, idle]
      rfl
    · have captured := ordered.captured
      rw [idle] at captured
      exact captured

theorem capture_entered (before after : EncodedCapture.Capturing) (wire : WireVideo)
    (published : before.act (.publish wire) = some after) :
    after.entered = before.entered ∨ ∃ number,
      after.entered = before.entered ++ [EncodedCapture.captured wire number] := by
  cases published
  cases on : before.encoded.capture with
  | false => exact .inl (by simp)
  | true => exact .inr ⟨before.encoded.sequence + 1, by
      simp [EncodedCapture.publish, on, EncodedCapture.store]⟩

theorem capture_accounted (before after : ReceiverPipeline) (accounted : Accounted before)
    (acted : before.act .capture = some after) : Accounted after := by
  simp only [act] at acted
  split at acted
  · rename_i wire holds
    obtain ⟨capturing, published, rfl⟩ := Option.map_eq_some_iff.mp acted
    obtain ⟨video, ordered, others⟩ := accounted
    obtain ⟨shown, total, right⟩ := video.decoded
    obtain ⟨failed, sum, traffic⟩ := video.overwritten
    have stages := ordered.stages
    have frames := ordered.published
    have entered := ordered.captured
    rw [holds] at total sum stages frames entered
    have alone := ordered.free (by rw [holds]; exact nofun)
    refine ⟨{ video with decoded := ⟨shown, total, right⟩, overwritten := ⟨failed, sum, traffic⟩ },
      { ordered with
        alone := .inl alone
        stages
        published := frames
        captured := ?_
        capture := EncodedCapture.publish_accounted _ wire ordered.capture _ published },
      { others with }⟩
    change Derived _ (before.decodes.map Decode.wire ++ [wire]) capturing.entered
    change Derived _ (before.decodes.map Decode.wire ++ []) before.capturing.entered at entered
    rw [List.append_nil] at entered
    rcases capture_entered before.capturing capturing wire published with same | ⟨number, more⟩
    · rw [same]
      exact entered.skip [wire]
    · rw [more]
      exact entered.keep wire _ ⟨number, rfl⟩
  · cases acted

theorem pictures_snoc (decodes : List Decode) (decode : Decode) :
    pictures (decodes ++ [decode]) = pictures decodes ++ decode.frame.toList := by
  obtain ⟨wire, frame⟩ := decode
  cases frame <;> simp [pictures]

theorem failures_snoc (decodes : List Decode) (decode : Decode) :
    failures (decodes ++ [decode]) = failures decodes + if decode.frame.isNone then 1 else 0 := by
  obtain ⟨wire, frame⟩ := decode
  cases frame <;> simp [failures]

theorem decode_accounted (before after : ReceiverPipeline) (answer : Except OmtError VmxPicture)
    (accounted : Accounted before) (acted : before.act (.decode answer) = some after) :
    Accounted after := by
  simp only [act] at acted
  split at acted
  · rename_i wire holds
    obtain ⟨video, ordered, others⟩ := accounted
    obtain ⟨shown, total, right⟩ := video.decoded
    obtain ⟨failed, sum, traffic⟩ := video.overwritten
    have stages := ordered.stages
    have frames := ordered.published
    have entered := ordered.captured
    rw [holds] at total sum stages frames entered
    have alone := ordered.free (by rw [holds]; exact nofun)
    -- Whatever it is, the result takes the place of the frame in hand.
    have books : ∀ frame : Option DecodedVideoFrame,
        before.queued = (before.decodes ++ [Decode.mk wire frame]).map Decode.wire ++
          (before.wire.taken.toList ++ before.wire.channel) ∧
        Derived (fun wire frame => ∃ number, frame = EncodedCapture.captured wire number)
          ((before.decodes ++ [Decode.mk wire frame]).map Decode.wire ++ [])
          before.capturing.entered := by
      intro frame
      rw [List.map_append, List.map_singleton, List.append_nil]
      refine ⟨?_, entered⟩
      rw [stages, List.append_assoc]
      rfl
    split at acted
    · rename_i frame decoded
      cases acted
      refine ⟨{ video with decoded := ⟨shown, ?_, right⟩, overwritten := ⟨failed, ?_, traffic⟩ },
        { ordered with
          alone := .inl alone
          stages := (books (some frame)).1
          shown := ?_
          published := ?_
          captured := (books (some frame)).2 },
        { others with }⟩
      · change (pictures (before.decodes ++ [⟨wire, some frame⟩])).length = shown + 1
        rw [pictures_snoc, List.length_append, total]
        rfl
      · change failures (before.decodes ++ [⟨wire, some frame⟩]) = failed + 0
        rw [failures_snoc]
        exact sum
      · intro decode member picture made
        rcases List.mem_append.mp member with old | new
        · exact ordered.shown decode old picture made
        · rw [List.mem_singleton.mp new] at made ⊢
          cases made
          exact decodeVmxBgra_shows _ wire frame decoded
      · change pictures (before.decodes ++ [⟨wire, some frame⟩]) = before.traffic.published ++ [frame]
        rw [pictures_snoc, frames]
        exact congrArg (· ++ [frame]) (List.append_nil before.traffic.published)
    · cases acted
      refine ⟨{ video with decoded := ⟨shown, ?_, right⟩, overwritten := ⟨failed, ?_, traffic⟩ },
        { ordered with
          alone := .inl alone
          stages := (books none).1
          shown := ?_
          published := ?_
          captured := (books none).2 },
        { others with }⟩
      · change (pictures (before.decodes ++ [⟨wire, none⟩])).length = shown + 0
        rw [pictures_snoc, List.length_append, total]
        rfl
      · change failures (before.decodes ++ [⟨wire, none⟩]) = failed + 1
        rw [failures_snoc, sum]
        rfl
      · intro decode member picture made
        rcases List.mem_append.mp member with old | new
        · exact ordered.shown decode old picture made
        · rw [List.mem_singleton.mp new] at made
          cases made
      · change pictures (before.decodes ++ [⟨wire, none⟩]) = before.traffic.published ++ []
        rw [pictures_snoc, frames]
        exact List.append_nil _
  · cases acted

theorem recordDropDecode_accounted (before after : ReceiverPipeline) (accounted : Accounted before)
    (acted : before.act .recordDropDecode = some after) : Accounted after := by
  simp only [act] at acted
  split at acted
  · rename_i holds
    cases acted
    obtain ⟨video, ordered, others⟩ := accounted
    obtain ⟨shown, total, right⟩ := video.decoded
    obtain ⟨failed, sum, traffic⟩ := video.overwritten
    have stages := ordered.stages
    have frames := ordered.published
    have entered := ordered.captured
    rw [holds] at total sum stages frames entered
    refine ⟨{ video with
        decoded := ⟨shown, total, right⟩
        overwritten := ⟨failed + 1, sum, ?_⟩ },
      { ordered with alone := .inr rfl, stages, published := frames, captured := entered },
      { others with }⟩
    rw [Function.iterate_succ_apply']
    exact drop_accounted traffic
  · cases acted

theorem recordCodecTime_accounted (before after : ReceiverPipeline) (accounted : Accounted before)
    (acted : before.act .recordCodecTime = some after) : Accounted after := by
  simp only [act] at acted
  split at acted
  · rename_i frame holds
    cases acted
    obtain ⟨video, ordered, others⟩ := accounted
    obtain ⟨shown, total, right⟩ := video.decoded
    obtain ⟨failed, sum, traffic⟩ := video.overwritten
    have stages := ordered.stages
    have frames := ordered.published
    have entered := ordered.captured
    rw [holds] at total sum stages frames entered
    have alone := ordered.free (by rw [holds]; exact nofun)
    exact ⟨{ video with
        decoded := ⟨shown + 1, total, right.add 1⟩
        overwritten := ⟨failed, sum, traffic⟩ },
      { ordered with alone := .inl alone, stages, published := frames, captured := entered },
      { others with }⟩
  · cases acted

theorem publish_accounted (before after : ReceiverPipeline) (accounted : Accounted before)
    (acted : before.act .publish = some after) : Accounted after := by
  simp only [act] at acted
  split at acted
  · rename_i frame holds
    obtain ⟨traffic, published, rfl⟩ := Option.map_eq_some_iff.mp acted
    obtain ⟨video, ordered, others⟩ := accounted
    obtain ⟨shown, total, right⟩ := video.decoded
    obtain ⟨failed, sum, books⟩ := video.overwritten
    have stages := ordered.stages
    have frames := ordered.published
    have entered := ordered.captured
    rw [holds] at total sum stages frames entered
    have more : traffic.published = before.traffic.published ++ [frame] := by
      cases published
      rfl
    refine ⟨{ video with
        decoded := ⟨shown, total, right⟩
        overwritten := ⟨failed, sum, (DecodedVideoQueue.publish_accounted videoDecodedQ _
          before.traffic traffic frame books published).1⟩ },
      { ordered with alone := .inr rfl, stages, published := ?_, captured := entered },
      { others with }⟩
    change pictures before.decodes = traffic.published ++ []
    rw [more, List.append_nil]
    exact frames
  · cases acted

/-! The application's steps. -/

theorem takes_accounted (before : ReceiverPipeline) (traffic : DecodedVideoQueue.Traffic DecodedVideoFrame)
    (step : DecodedVideoQueue.Step DecodedVideoFrame) (takes : ∀ frame, step ≠ .publish frame)
    (accounted : Accounted before) (acted : before.traffic.act step = some traffic) :
    Accounted { before with traffic } := by
  obtain ⟨video, ordered, others⟩ := accounted
  obtain ⟨failed, sum, books⟩ := video.overwritten
  have same : traffic.published = before.traffic.published := by
    cases step with
    | publish frame => exact absurd rfl (takes frame)
    | tryTake =>
        cases acted
        rfl
    | waitTake stop expired =>
        simp only [DecodedVideoQueue.Traffic.act] at acted
        split at acted <;> cases acted <;> rfl
  refine ⟨{ video with overwritten := ⟨failed, sum, (DecodedVideoQueue.take_accounted videoDecodedQ _
      before.traffic traffic step books acted takes).1⟩ },
    { ordered with published := ?_ }, { others with }⟩
  rw [ordered.published]
  exact congrArg (· ++ before.decoding.frames) same.symm

theorem capturing_accounted (before : ReceiverPipeline) (capturing : EncodedCapture.Capturing)
    (step : EncodedCapture.Step) (takes : ∀ wire, step ≠ .publish wire)
    (accounted : Accounted before) (acted : before.capturing.act step = some capturing) :
    Accounted { before with capturing } := by
  have same : capturing.entered = before.capturing.entered := by
    cases step with
    | publish wire => exact absurd rfl (takes wire)
    | take =>
        cases acted
        rfl
    | setEncodedCapture on =>
        cases acted
        rfl
  have capture := EncodedCapture.accounted_kept.step before.capturing capturing step
    accounted.ordered.capture trivial acted
  refine ⟨{ accounted.video with }, { accounted.ordered with captured := ?_, capture },
    { accounted.others with }⟩
  have captured := accounted.ordered.captured
  rw [← same] at captured
  exact captured

theorem accounted_kept :
    Runs.Invariant act begin (fun _ _ => True) Accounted where
  start := begin_accounted
  step before after step accounted _ acted := by
    cases step with
    | dispatch frame =>
        obtain ⟨idle, -, dispatched⟩ := act_dispatched before after frame acted
        exact dispatch_accounted before after frame accounted idle dispatched
    | count => exact count_accounted before after accounted acted
    | protocolError => exact protocolError_accounted before after accounted acted
    | recordDropWire => exact recordDropWire_accounted before after accounted acted
    | audioFrame frame => exact audioFrame_accounted before after frame accounted acted
    | receive => exact receive_accounted before after accounted acted
    | countOff => exact countOff_accounted before after accounted acted
    | capture => exact capture_accounted before after accounted acted
    | decode answer => exact decode_accounted before after answer accounted acted
    | recordDropDecode => exact recordDropDecode_accounted before after accounted acted
    | recordCodecTime => exact recordCodecTime_accounted before after accounted acted
    | publish => exact publish_accounted before after accounted acted
    | tryRecvVideo =>
        simp only [act, Option.map_eq_some_iff] at acted
        obtain ⟨traffic, took, rfl⟩ := acted
        exact takes_accounted before traffic .tryTake nofun accounted took
    | recvVideo stop expired =>
        simp only [act, Option.map_eq_some_iff] at acted
        obtain ⟨traffic, took, rfl⟩ := acted
        exact takes_accounted before traffic (.waitTake stop expired) nofun accounted took
    | tryRecvAudio =>
        cases acted
        exact ⟨{ accounted.video with }, { accounted.ordered with }, { accounted.others with }⟩
    | tryRecvMetadata =>
        cases acted
        exact ⟨{ accounted.video with }, { accounted.ordered with }, { accounted.others with }⟩
    | tryRecvVmx1 =>
        simp only [act, Option.map_eq_some_iff] at acted
        obtain ⟨capturing, took, rfl⟩ := acted
        exact capturing_accounted before capturing .take nofun accounted took
    | setEncodedCapture on =>
        simp only [act, Option.map_eq_some_iff] at acted
        obtain ⟨capturing, took, rfl⟩ := acted
        exact capturing_accounted before capturing (.setEncodedCapture on) nofun accounted took

/-! What a run has come to. -/

/-- Everything of a video frame that is neither counted nor taken. -/
def inFlight (pipeline : ReceiverPipeline) : Nat :=
  pipeline.reading.pending + pipeline.wire.channel.length + pipeline.wire.taken.toList.length +
    pipeline.decoding.wires.length + pipeline.decoding.failing + pipeline.decoding.frames.length +
      pipeline.traffic.queue.slot.length

theorem decodes_shown (decodes : List Decode)
    (shown : ∀ decode ∈ decodes, ∀ frame ∈ decode.frame, Shows decode.wire frame) :
    Derived Shows (decodes.map Decode.wire) (pictures decodes) := by
  induction decodes with
  | nil => exact .nil []
  | cons decode rest ih =>
      obtain ⟨chosen, among, related⟩ :=
        ih fun other member => shown other (List.mem_cons_of_mem decode member)
      have first := shown decode List.mem_cons_self
      obtain ⟨wire, frame⟩ := decode
      cases frame with
      | none => exact ⟨chosen, among.cons wire, related⟩
      | some frame => exact ⟨wire :: chosen, among.cons_cons wire, .cons (first frame rfl) related⟩

theorem decodes_length (decodes : List Decode) :
    decodes.length = (pictures decodes).length + failures decodes := by
  induction decodes with
  | nil => rfl
  | cons decode rest ih =>
      obtain ⟨wire, frame⟩ := decode
      cases frame with
      | none =>
          simp only [pictures, failures] at ih ⊢
          simp [ih, Nat.add_assoc]
      | some frame =>
          simp only [pictures, failures] at ih ⊢
          simp [ih, Nat.add_right_comm]

theorem VideoOrdered.decoded_among {pipeline : ReceiverPipeline} (ordered : VideoOrdered pipeline) :
    (pipeline.decodes.map Decode.wire).Sublist pipeline.queued := by
  rw [ordered.stages]
  exact List.sublist_append_left _ _

theorem VideoOrdered.published_derived {pipeline : ReceiverPipeline}
    (ordered : VideoOrdered pipeline) :
    Derived (fun frame picture => ∃ wire,
      (isVideo frame = true ∧ wireVideo frame = some wire) ∧ Shows wire picture)
      pipeline.arrived pipeline.traffic.published := by
  have made := (decodes_shown pipeline.decodes ordered.shown).among ordered.decoded_among
  rw [ordered.published] at made
  exact ordered.derived.trans (made.fewer (List.sublist_append_left _ _))

theorem Decoding.busy (decoding : Decoding) :
    decoding.wires.length + decoding.failing + decoding.frames.length ≤ 1 ∧
      (decoding = .idle → decoding.wires.length + decoding.failing + decoding.frames.length = 0) := by
  cases decoding <;> simp [Decoding.wires, Decoding.failing, Decoding.frames]

theorem inFlight_bounded (pipeline : ReceiverPipeline) (accounted : Accounted pipeline) :
    pipeline.inFlight ≤ videoWireQ + videoDecodedQ + 2 := by
  obtain ⟨failed, sum, books⟩ := accounted.video.overwritten
  have slot := books.bounded
  rw [books.cap] at slot
  have room := accounted.ordered.room
  have one : max videoDecodedQ 1 = videoDecodedQ := rfl
  have pending : pipeline.reading.pending ≤ 1 := by cases pipeline.reading <;> decide
  obtain ⟨busy, idle⟩ := Decoding.busy pipeline.decoding
  have hand : pipeline.wire.taken.toList.length ≤ 1 := by
    cases pipeline.wire.taken <;> simp
  unfold inFlight
  rcases accounted.ordered.alone with none | rest
  · rw [none, Option.toList_none, List.length_nil]
    omega
  · have nothing := idle rest
    omega

theorem failures_counted (count : Nat) :
    (recordDropDecode^[count] 0).toNat = min count (2 ^ 64 - 1) := by
  induction count with
  | zero => rfl
  | succ count ih =>
      rw [Function.iterate_succ_apply']
      have next := DecodedVideoQueue.recordDropDecode_count 0 count _
        (by rw [Nat.zero_add]; exact ih)
      rw [next, Nat.zero_add]

theorem run_accounted (history : List PipelineStep) (pipeline : ReceiverPipeline)
    (ran : Runs.replay act begin history = some pipeline) : Accounted pipeline :=
  Runs.Invariant.run act begin accounted_kept history pipeline
    (Runs.throughout_true act begin history) ran

theorem Accounted.taken_derived {pipeline : ReceiverPipeline} (accounted : Accounted pipeline) :
    Derived (fun frame picture => ∃ wire,
      (isVideo frame = true ∧ wireVideo frame = some wire) ∧ Shows wire picture)
      pipeline.arrived pipeline.traffic.taken := by
  obtain ⟨_, _, books⟩ := accounted.video.overwritten
  exact accounted.ordered.published_derived.fewer books.ordered

theorem Accounted.documents_derived {pipeline : ReceiverPipeline} (accounted : Accounted pipeline) :
    Derived (fun frame document => isMetadata frame = true ∧ document = metadataFrame frame)
      pipeline.arrived pipeline.metadata.received :=
  accounted.others.metadata.fewer pipeline.metadata.received_prefix.sublist

def shortRun : List PipelineStep :=
  [.dispatch WireQueue.picture, .tryRecvVideo, .publish, .recordCodecTime,
    .decode (.ok ⟨1, 1, [0, 0, 0, 255]⟩), .capture, .countOff, .receive, .count,
    .dispatch WireQueue.picture]

/-- Sound that can be decoded goes into its channel unless that is full. -/
theorem audioFrame_offered (before after : ReceiverPipeline) (frame : AssembledFrame)
    (decoded : DecodedAudioFrame) (cap : before.audio.cap = audioQ)
    (made : decodeAudioFrame frame = some decoded)
    (acted : before.act (.audioFrame frame) = some after) :
    after.audio.accepted = before.audio.accepted ++ [decoded] ∨
      before.audio.items.length = audioQ ∧ after.audio = before.audio := by
  simp only [act, made, effect] at acted
  cases room : before.audio.hasRoom with
  | true =>
      have taken := acted.symm
      simp only [recordBytes, room, if_true, Option.some.injEq] at taken
      rw [taken]
      left
      rw [SyncChannel.trySend_accepted, if_pos room]
  | false =>
      have refused := acted.symm
      simp only [recordBytes, room, Bool.false_eq_true, if_false, Option.some.injEq] at refused
      rw [refused]
      exact .inr ⟨(before.audio.full_length room).trans cap, rfl⟩

theorem dispatch_offered (before after : ReceiverPipeline) (frame : AssembledFrame)
    (cap : before.metadata.cap = metadataQ) (document : isMetadata frame = true)
    (acted : before.act (.dispatch frame) = some after) :
    after.metadata.accepted = before.metadata.accepted ++ [metadataFrame frame] ∨
      before.metadata.items.length = metadataQ ∧ after.metadata = before.metadata := by
  obtain ⟨-, -, dispatched⟩ := act_dispatched before after frame acted
  have video : isVideo frame = false := by
    rw [isMetadata, Bool.and_eq_true, Bool.not_eq_true'] at document
    exact document.1
  cases dispatched with
  | refused kind _ =>
      rw [video] at kind
      cases kind
  | queued kind _ _ _ =>
      rw [video] at kind
      cases kind
  | metadata _ =>
      cases room : before.metadata.hasRoom with
      | false => exact .inr ⟨(before.metadata.full_length room).trans cap, dif_neg (by simp [room])⟩
      | true =>
          left
          change (before.metadata.trySend (metadataFrame frame)).accepted = _
          rw [SyncChannel.trySend_accepted, if_pos room]
  | ignored _ other =>
      rw [document] at other
      cases other

/-- Sound and documents reach the application in order and in full as long as their
channels have room; what sound does not is counted. -/
theorem side_channels_accounted (history : List PipelineStep) (pipeline : ReceiverPipeline)
    (ran : Runs.replay act begin history = some pipeline) :
    Derived (fun frame decoded => decodeAudioFrame frame = some decoded)
      pipeline.heard pipeline.audio.received ∧
    Derived (fun frame document => isMetadata frame = true ∧ document = metadataFrame frame)
      pipeline.arrived pipeline.metadata.received ∧
    (∃ refused, Counts pipeline.framesDroppedAudio refused ∧ pipeline.heard.length =
      pipeline.audio.received.length + pipeline.audio.items.length + refused) ∧
    pipeline.audio.items.length ≤ audioQ ∧ pipeline.metadata.items.length ≤ metadataQ ∧
    (∀ frame decoded after, pipeline.act (.audioFrame frame) = some after →
      decodeAudioFrame frame = some decoded →
      after.audio.accepted = pipeline.audio.accepted ++ [decoded] ∨
        pipeline.audio.items.length = audioQ ∧ after.audio = pipeline.audio) ∧
    (∀ frame after, pipeline.act (.dispatch frame) = some after → isMetadata frame = true →
      after.metadata.accepted = pipeline.metadata.accepted ++ [metadataFrame frame] ∨
        pipeline.metadata.items.length = metadataQ ∧ after.metadata = pipeline.metadata) ∧
    Counts pipeline.bytesReceived (wireBytes pipeline.arrived + wireBytes pipeline.heard) := by
  have accounted := run_accounted history pipeline ran
  obtain ⟨refused, total, counted⟩ := accounted.others.dropped
  rw [SyncChannel.accepted_length] at total
  have sounds := pipeline.audio.bounded
  have documents := pipeline.metadata.bounded
  rw [accounted.others.audioCap] at sounds
  rw [accounted.others.metadataCap] at documents
  exact ⟨accounted.others.audio.fewer pipeline.audio.received_prefix.sublist,
    accounted.documents_derived, ⟨refused, counted, total⟩, sounds, documents,
    fun frame decoded after acted made =>
      audioFrame_offered pipeline after frame decoded accounted.others.audioCap made acted,
    fun frame after acted document =>
      dispatch_offered pipeline after frame accounted.others.metadataCap document acted,
    accounted.others.bytes⟩

def emptyDocument : AssembledFrame where
  header := ⟨protocolVersion, .metadata, 0, 0, 0⟩
  video := none
  audio := none
  data := []
  metadata := []

def oneSample (sample : UInt8) : AssembledFrame where
  header := ⟨protocolVersion, .audio, 0, 0, 28⟩
  video := none
  audio := some ⟨.fpa1, 48000, 1, 1, 1, 0⟩
  data := [sample, 0, 0, 0]
  metadata := []

def sideRun : List PipelineStep :=
  [.tryRecvMetadata, .tryRecvAudio, .dispatch emptyDocument, .audioFrame (oneSample 2),
    .audioFrame (oneSample 1)]

theorem side_channels_accounted_both :
    ∃ pipeline, Runs.replay act begin sideRun = some pipeline ∧
      pipeline.metadata.received.length = 1 ∧ pipeline.audio.received.length = 1 ∧
      pipeline.audio.items.length = 1 ∧
      Derived (fun frame decoded => decodeAudioFrame frame = some decoded)
        pipeline.heard pipeline.audio.received := by
  have ran : Runs.replay act begin sideRun = some _ := rfl
  exact ⟨_, ran, rfl, rfl, rfl, (side_channels_accounted _ _ ran).1⟩

end ReceiverPipeline

end OpenMediaTransport
