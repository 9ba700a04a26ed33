import OpenMediaTransport.PeerWrites
import OpenMediaTransport.ReceiverPipeline
import OpenMediaTransport.SenderOrder
import OpenMediaTransport.VideoReader

/-!
From `Sender::broadcast` to the application at the other end: a sender's run, the stream
of one of its peers, the reader at the end of that stream, whose reads may cut it anywhere,
and the run of the session that the reader belongs to.

A frame may get lost in a queue on the way, or because the peer has not asked for it. What
is not lost arrives in order, once, and as itself.
-/

namespace OpenMediaTransport

open SenderTransport

def Greeting (delivery : Delivery) : Prop :=
  ∃ frame, Sendable frame ∧ frame.header.frameType = .metadata ∧ delivery.bytes = frame.toBytes

/-! The frames in a peer's stream. -/

def Spelled (delivery : Delivery) (frame : AssembledFrame) : Prop :=
  delivery.bytes = frame.toBytes

theorem spelled_bytes (stream : List Delivery) (frames : List AssembledFrame)
    (spelled : List.Forall₂ Spelled stream frames) :
    sent stream = frames.map AssembledFrame.toBytes := by
  induction spelled with
  | nil => rfl
  | cons head tail ih => exact congrArg₂ List.cons head ih

/-- Of each write everything came through, or nothing. -/
theorem untorn_delivered (stream : List Delivery) (whole : ¬ Torn stream) :
    ∃ landed, landed.Sublist stream ∧ delivered stream = (sent landed).flatten := by
  induction stream with
  | nil => exact ⟨[], .slnil, rfl⟩
  | cons first rest ih =>
      obtain ⟨landed, among, tail⟩ :=
        ih fun ⟨torn, member, cut⟩ => whole ⟨torn, List.mem_cons_of_mem first member, cut⟩
      have step : delivered (first :: rest) = first.delivered ++ delivered rest := rfl
      rw [step, tail]
      by_cases silent : first.delivered = []
      · exact ⟨landed, among.cons first, by rw [silent]; rfl⟩
      · have all : first.delivered = first.bytes := by
          by_contra part
          exact whole ⟨first, List.mem_cons_self, silent, part⟩
        exact ⟨first :: landed, among.cons_cons first, by rw [all]; rfl⟩

/-- A frame written for a peer, of the type that was asked for. -/
def WrittenFrame (wire : WireBytes) (frame : AssembledFrame) : Prop :=
  Sendable frame ∧ frame.header.frameType = wire.ft ∧ ∃ state, wire.bytesFor state = frame.toBytes

theorem written_frame (previewBitstreamLength : List UInt8 → Option Nat) (wire : WireBytes)
    (made : MadeOf previewBitstreamLength wire) (state : PeerState) :
    ∃ frame, WrittenFrame wire frame ∧ wire.bytesFor state = frame.toBytes := by
  obtain ⟨frame, sendable, rfl | rfl⟩ := made
  · obtain ⟨sent, fine, variant, bytes⟩ :=
      broadcast_variant previewBitstreamLength frame sendable state
    exact ⟨sent, ⟨fine, variant.kind, state, bytes⟩, bytes⟩
  · have bytes : (enqueuedWire frame).bytesFor state = frame.toBytes := by
      unfold WireBytes.bytesFor enqueuedWire
      split <;> rfl
    exact ⟨frame, ⟨sendable, rfl, state, bytes⟩, bytes⟩

theorem greeting_frames (greeting : List Delivery) (greeted : ∀ delivery ∈ greeting, Greeting delivery) :
    ∃ first : List AssembledFrame, List.Forall₂ Spelled greeting first ∧
      ∀ frame ∈ first, Sendable frame ∧ frame.header.frameType = .metadata := by
  induction greeting with
  | nil => exact ⟨[], .nil, fun _ none => absurd none List.not_mem_nil⟩
  | cons delivery others ih =>
      obtain ⟨frame, sendable, kind, bytes⟩ := greeted delivery List.mem_cons_self
      obtain ⟨first, spelled, known⟩ := ih fun other member =>
        greeted other (List.mem_cons_of_mem delivery member)
      exact ⟨frame :: first, .cons bytes spelled,
        List.forall_mem_cons.mpr ⟨⟨sendable, kind⟩, known⟩⟩

/-- The frames of a stream: at most a greeting, and behind it frames that were written. -/
theorem stream_frames (previewBitstreamLength : List UInt8 → Option Nat) (writes : List Write)
    (made : ∀ wire ∈ writes.map Write.wire, MadeOf previewBitstreamLength wire)
    (stream : List Delivery) (kept : StreamKept Greeting writes stream) (whole : ¬ Torn stream) :
    ∃ first rest : List AssembledFrame,
      delivered stream = ((first ++ rest).map AssembledFrame.toBytes).flatten ∧
      first.length ≤ 1 ∧ (∀ frame ∈ first, Sendable frame ∧ frame.header.frameType = .metadata) ∧
      Derived WrittenFrame (writes.map Write.wire) rest := by
  obtain ⟨greeting, rest, rfl, one, greeted, derived⟩ := kept
  obtain ⟨landed, among, bytes⟩ := untorn_delivered _ whole
  obtain ⟨ahead, behind, rfl, inside, within⟩ := List.sublist_append_iff.mp among
  obtain ⟨first, firstBytes, known⟩ := greeting_frames ahead fun delivery member =>
    greeted delivery (inside.subset member)
  obtain ⟨frames, origins, restBytes⟩ := (derived.fewer within).member.read
    (fun write frame => WrittenFrame write.wire frame) Spelled (by
      rintro write delivery ⟨⟨member, -⟩, state, -, same⟩
      obtain ⟨frame, written, read⟩ := written_frame previewBitstreamLength write.wire
        (made _ (List.mem_map_of_mem member)) state
      exact ⟨frame, written, same.trans read⟩)
  refine ⟨first, frames, ?_, ?_, known, (Derived.map_iff _ _ _).mpr origins⟩
  · rw [bytes, spelled_bytes _ _ (List.rel_append firstBytes restBytes)]
  · rw [← firstBytes.length_eq]
    exact Nat.le_trans inside.length_le one

/-! The reader at the other end. -/

/-- As long as nothing is dropped, the loop hands on the frames of the stream from the
front. -/
theorem loop_dispatches (turns : Nat) (frames : List AssembledFrame) (channel : Channel)
    (reader : List ReadResult) (sendable : ∀ frame ∈ frames, Sendable frame)
    (aligned : Aligned (frames.map AssembledFrame.toBytes) channel reader)
    (quiet : wireDrops (videoReaderLoop channel reader turns) = 0) :
    dispatched (videoReaderLoop channel reader turns) <+: frames := by
  induction turns generalizing frames channel reader with
  | zero => exact List.nil_prefix
  | succ turns ih =>
      have call := recv_step _ channel reader aligned
      generalize got : channel.recvFrame reader = result at call
      cases call with
      | frame first rest next reads split after shorter kept ends =>
          obtain ⟨frame, others, rfl, rfl, rfl⟩ := List.map_eq_cons_iff.mp split
          rw [(sendable frame List.mem_cons_self).read] at got
          rw [videoReaderLoop, turn_frame channel next reader reads frame got] at quiet ⊢
          exact List.cons_prefix_cons.mpr ⟨rfl, ih others next reads
            (fun other member => sendable other (List.mem_cons_of_mem frame member)) after quiet⟩
      | incomplete next reads after shorter kept ends =>
          rw [videoReaderLoop, turn_incomplete channel next reader reads got] at quiet ⊢
          exact ih frames next reads sendable after quiet
      | overflow next reads unfit =>
          -- The frames are all right, so that this is the only way to drop one.
          rw [videoReaderLoop, turn_protocol channel next reader reads _ got] at quiet
          cases quiet

/-! Which broadcast a frame is of. -/

/-- The written frames of a type but audio are of the broadcasts, in their order. -/
theorem frames_of_broadcasts (previewBitstreamLength : List UInt8 → Option Nat)
    (transport : SenderTransport) (straight : Straight previewBitstreamLength transport)
    (some : transport.control.peers ≠ []) (ft : FrameType) (kind : ft ≠ .audio)
    (frames : List AssembledFrame) (written : Derived WrittenFrame transport.writtenWires frames)
    (typed : ∀ frame ∈ frames, frame.header.frameType = ft) :
    Derived (fun frame sent => Sendable frame ∧ Variant frame sent) transport.broadcasts frames := by
  have ofKind := written.member.within (fun wire => wire.ft = ft) fun wire frame found => by
    obtain ⟨⟨-, member⟩, -, same, -⟩ := found
    exact decide_eq_true (same.symm.trans (typed frame member))
  have broadcast := (Derived.map_iff _ _ _).mp
    (ofKind.among (straight.written_in_order some ft kind))
  refine broadcast.member.imp fun frame sent found => ?_
  obtain ⟨⟨member, -⟩, -, sendable, -, state, bytes⟩ := found
  obtain ⟨other, fine, variant, same⟩ :=
    broadcast_variant previewBitstreamLength frame (straight.sendable frame member) state
  have equal : sent = other := sendable.same fine (bytes.symm.trans same)
  exact ⟨straight.sendable frame member, equal ▸ variant⟩

structure PictureOf (frame : AssembledFrame) (picture : DecodedVideoFrame) : Prop where
  video : ∃ video, frame.video = some video ∧ video.codec = .vmx1 ∧
    picture.frameRateN = video.frameRateN ∧ picture.frameRateD = max video.frameRateD 1 ∧
    picture.colorSpace = video.colorSpace
  timestamp : picture.timestamp = frame.header.timestamp
  frameMetadata : picture.frameMetadata = frameMeta frame

theorem wireVideo_picture (frame : AssembledFrame) (wire : WireVideo) (picture : DecodedVideoFrame)
    (made : wireVideo frame = some wire) (shows : ReceiverPipeline.Shows wire picture) :
    PictureOf frame picture := by
  unfold wireVideo at made
  split at made
  · cases made
  rename_i video present
  split at made
  · cases made
  rename_i vmx
  split at made
  · cases made
  split at made
  · cases made
  cases made
  exact ⟨⟨video, present, not_not.mp vmx, shows.frameRateN, shows.frameRateD, shows.colorSpace⟩,
    shows.timestamp, shows.frameMetadata⟩

theorem PictureOf.variant {frame sent : AssembledFrame} {picture : DecodedVideoFrame}
    (shown : PictureOf sent picture) (variant : Variant frame sent) : PictureOf frame picture := by
  rcases variant with rfl | ⟨video, previewLen, present, -, rfl⟩
  · exact shown
  · obtain ⟨⟨flagged, same, vmx, rateN, rateD, colors⟩, timestamp, metadata⟩ := shown
    cases same
    exact ⟨⟨video, present, vmx, rateN, rateD, colors⟩, timestamp, metadata⟩

theorem isVideo_kind {frame : AssembledFrame} (sendable : Sendable frame)
    (video : ReceiverPipeline.isVideo frame = true) : frame.header.frameType = .video := by
  rw [ReceiverPipeline.isVideo] at video
  rcases sendable.kind with kind | kind | kind
  · exact kind
  · rw [kind] at video
    exact absurd video (by decide)
  · rw [kind] at video
    exact absurd video (by decide)

theorem isMetadata_kind {frame : AssembledFrame} (sendable : Sendable frame)
    (document : ReceiverPipeline.isMetadata frame = true) :
    frame.header.frameType = .metadata := by
  rw [ReceiverPipeline.isMetadata, ReceiverPipeline.isVideo] at document
  rcases sendable.kind with kind | kind | kind
  · rw [kind] at document
    exact absurd document (by decide)
  · rw [kind] at document
    exact absurd document (by decide)
  · exact kind

/-- The sender makes the frames itself, and keeps within the limits on the wire. -/
def Makes : TransportStep → Prop
  | .broadcast frame _ => Built frame
  | .ingressCheck frame => Packed frame
  | .control (.addPeer (some frame) _) =>
      ∃ data, frame = metadataFrame 0 data ∧ data.length ≤ metadataFrameSize
  | _ => True

theorem makes_typed (step : TransportStep) (makes : Makes step) : Typed step := by
  cases step with
  | broadcast frame outcome => exact makes.sendable
  | ingressCheck frame => exact makes.sendable
  | _ => trivial

theorem makes_greets (step : TransportStep) (makes : Makes step) : Greets Greeting step := by
  cases step with
  | control step =>
      cases step with
      | addPeer info outcome =>
          cases info with
          | none => exact fun delivery none => absurd none List.not_mem_nil
          | some frame =>
              obtain ⟨data, rfl, fits⟩ := makes
              intro delivery member
              rw [List.mem_singleton.mp member]
              exact ⟨_, metadataFrame_sendable 0 data fits, rfl, rfl⟩
      | _ => trivial
  | _ => trivial

def SenderRun (documentParse : List Char → Except String Markup.XmlNode)
    (previewBitstreamLength : List UInt8 → Option Nat) (transport : SenderTransport) : Prop :=
  ∃ depth spawned history,
    Runs.replay (act documentParse previewBitstreamLength) (create depth spawned) history =
      some transport ∧ ∀ step ∈ history, Makes step

/-- The reads of a reader at the end of a peer's stream, in which no write was cut. -/
structure Carries (peer : Peer) (reader : List ReadResult) : Prop where
  whole : ¬ Torn peer.stream
  stream : streamOf reader = delivered peer.stream
  sound : ∀ read ∈ reader, SoundRead read

/-- What there is to read: at most a greeting, and behind it frames that were written. -/
theorem carried_frames (documentParse : List Char → Except String Markup.XmlNode)
    (previewBitstreamLength : List UInt8 → Option Nat) (transport : SenderTransport)
    (run : SenderRun documentParse previewBitstreamLength transport) (entry : Nat × Peer)
    (member : entry ∈ transport.control.peers) (reader : List ReadResult)
    (carries : Carries entry.2 reader) :
    Straight previewBitstreamLength transport ∧
    ∃ first rest : List AssembledFrame, first.length ≤ 1 ∧
      (∀ frame ∈ first, Sendable frame ∧ frame.header.frameType = .metadata) ∧
      Derived WrittenFrame transport.writtenWires rest ∧
      (∀ frame ∈ first ++ rest, Sendable frame) ∧
      Aligned ((first ++ rest).map AssembledFrame.toBytes) .new reader := by
  obtain ⟨depth, spawned, history, ran, makes⟩ := run
  have kept := run_kept documentParse Greeting depth spawned history transport
    (fun step member => makes_greets step (makes step member)) ran
  have straight := run_straight documentParse depth spawned history transport
    (fun step member => makes_typed step (makes step member)) ran
  obtain ⟨first, rest, bytes, one, known, written⟩ := stream_frames previewBitstreamLength
    transport.writes straight.written entry.2.stream (kept.streams entry member) carries.whole
  have sendable : ∀ frame ∈ first ++ rest, Sendable frame := by
    intro frame inside
    rcases List.mem_append.mp inside with greeting | later
    · exact (known frame greeting).1
    · obtain ⟨-, -, fine, -⟩ := written.source frame later
      exact fine
  refine ⟨straight, first, rest, one, known, written, sendable, ?_⟩
  refine aligned_start _ reader ?_ carries.sound (carries.stream.trans bytes)
  intro bytes member
  obtain ⟨frame, inside, rfl⟩ := List.mem_map.mp member
  exact (sendable frame inside).complete

/-- Both ends of a connection, and what has come over it: the reader has made some turns on
a peer's stream and has dropped nothing. -/
structure MediaPath (documentParse : List Char → Except String Markup.XmlNode)
    (previewBitstreamLength : List UInt8 → Option Nat) (transport : SenderTransport)
    (pipeline : ReceiverPipeline) : Prop where
  sent : SenderRun documentParse previewBitstreamLength transport
  carried : ∃ entry ∈ transport.control.peers, ∃ reader turns, Carries entry.2 reader ∧
    wireDrops (videoReaderLoop .new reader turns) = 0 ∧
      pipeline.arrived = dispatched (videoReaderLoop .new reader turns)
  received : ∃ history,
    Runs.replay ReceiverPipeline.act ReceiverPipeline.begin history = some pipeline

/-- Every picture that the application takes is of a broadcast, and every document but one
at the front is a broadcast document; neither are two of the same broadcast, nor are they
out of order. -/
theorem media_in_order (documentParse : List Char → Except String Markup.XmlNode)
    (previewBitstreamLength : List UInt8 → Option Nat) (transport : SenderTransport)
    (pipeline : ReceiverPipeline)
    (path : MediaPath documentParse previewBitstreamLength transport pipeline) :
    Derived PictureOf transport.broadcasts pipeline.traffic.taken ∧
      ∃ greeting documents, pipeline.metadata.received = greeting ++ documents ∧
        greeting.length ≤ 1 ∧
        Derived (fun frame document => frame.header.frameType = .metadata ∧
          document = ReceiverPipeline.metadataFrame frame) transport.broadcasts documents := by
  obtain ⟨entry, member, reader, turns, carries, quiet, arrived⟩ := path.carried
  obtain ⟨received, receivedRan⟩ := path.received
  have accounted := ReceiverPipeline.run_accounted received pipeline receivedRan
  have some : transport.control.peers ≠ [] := List.ne_nil_of_mem member
  obtain ⟨straight, first, rest, one, known, written, sendable, aligned⟩ :=
    carried_frames documentParse previewBitstreamLength transport path.sent entry member reader carries
  have front := loop_dispatches turns (first ++ rest) .new reader sendable aligned quiet
  rw [← arrived] at front
  constructor
  · -- The greeting is no picture.
    have shown := (accounted.taken_derived.among front.sublist).member.within
      (fun frame => frame.header.frameType = .video) fun frame picture found => by
        obtain ⟨⟨inside, -⟩, wire, ⟨video, -⟩, -⟩ := found
        exact decide_eq_true (isVideo_kind (sendable frame inside) video)
    have none : first.filter (fun frame => frame.header.frameType = .video) = [] := by
      refine List.filter_eq_nil_iff.mpr fun frame inside video => ?_
      rw [(known frame inside).2] at video
      exact absurd video (by decide)
    rw [List.filter_append, none, List.nil_append] at shown
    have origins := frames_of_broadcasts previewBitstreamLength transport straight some .video
      (by decide) _ (written.fewer List.filter_sublist) fun frame inside =>
        of_decide_eq_true (List.mem_filter.mp inside).2
    refine (origins.trans shown).imp fun frame picture found => ?_
    obtain ⟨sent, ⟨-, variant⟩, -, wire, ⟨-, made⟩, shows⟩ := found
    exact (wireVideo_picture sent wire picture made shows).variant variant
  · obtain ⟨greeting, documents, split, ahead, behind⟩ :=
      (accounted.documents_derived.among front.sublist).parts
    refine ⟨greeting, documents, split, Nat.le_trans ahead.length_le one, ?_⟩
    have read := behind.member.within (fun frame => frame.header.frameType = .metadata)
      fun frame document found => by
        obtain ⟨⟨inside, -⟩, kind, -⟩ := found
        exact decide_eq_true
          (isMetadata_kind (sendable frame (List.mem_append_right first inside)) kind)
    have origins := frames_of_broadcasts previewBitstreamLength transport straight some .metadata
      (by decide) _ (written.fewer List.filter_sublist) fun frame inside =>
        of_decide_eq_true (List.mem_filter.mp inside).2
    refine (origins.member.trans read).imp fun frame document found => ?_
    obtain ⟨sent, ⟨⟨-, inside⟩, sendable, variant⟩, -, -, same⟩ := found
    have kind : sent.header.frameType = .metadata := of_decide_eq_true (List.mem_filter.mp inside).2
    rcases variant with rfl | ⟨video, previewLen, present, -, rfl⟩
    · exact ⟨kind, same⟩
    · -- A document has no preview.
      have picture := sendable.picture video present
      rw [show frame.header.frameType = .metadata from kind] at picture
      exact absurd picture (by decide)

def codedPicture (timestamp : Int64) : MediaFrame :=
  { frameType := .video, timestamp, codec := Codec.vmx1.asI32, data := [7] }

def sentPicture (timestamp : Int64) : AssembledFrame := videoFrame timestamp (codedPicture timestamp)

theorem sentPicture_built (timestamp : Int64) : Built (sentPicture timestamp) := by
  have silent : isAudioFrame (codedPicture timestamp) = false := by
    change (FrameType.video.contains .audio && !FrameType.video.contains .video) = false
    decide
  have video : (codedPicture timestamp).frameType.contains .video = true := by
    change FrameType.video.contains .video = true
    decide
  refine .media (fun timestamp _ _ _ _ => timestamp) (fun timestamp _ _ _ _ => timestamp) 0
    (codedPicture timestamp) ?_ ⟨Nat.zero_le 65535, ?_⟩
  · rw [buildFrame, if_neg (ne_true_of_eq_false silent), if_pos video]
    rfl
  · change 33 ≤ maxPayloadFor .video
    decide

def twoPictures : List TransportStep :=
  [.write .video fun _ => .ok, .take .video, .broadcast (sentPicture 2) fun _ => .ok,
    .write .video fun _ => .ok, .take .video, .broadcast (sentPicture 1) fun _ => .ok,
    .forceSubscribe true false false, .control (.addPeer none .ok)]

def pictureShown (timestamp : Int64) : List PipelineStep :=
  [.tryRecvVideo, .publish, .recordCodecTime, .decode (.ok ⟨1, 1, [0, 0, 0, 255]⟩), .capture,
    .countOff, .receive, .count, .dispatch (sentPicture timestamp)]

def pictureReader : Peer where
  stream := [⟨(sentPicture 1).toBytes, (sentPicture 1).toBytes.length⟩,
    ⟨(sentPicture 2).toBytes, (sentPicture 2).toBytes.length⟩]
  state := { video := true }
  inbound := []

def pictureReads : List ReadResult :=
  [.data ((sentPicture 1).toBytes.take 20),
    .data ((sentPicture 1).toBytes.drop 20 ++ (sentPicture 2).toBytes.take 30),
    .data ((sentPicture 2).toBytes.drop 30)]

theorem pictureReader_whole : ¬ Torn pictureReader.stream := by
  rintro ⟨written, member, -, part⟩
  rcases List.mem_cons.mp member with rfl | last
  · exact part List.take_length
  · rw [List.mem_singleton.mp last] at part
    exact part List.take_length

theorem twoPictures_made : ∀ step ∈ twoPictures, Makes step := by
  intro step member
  simp only [twoPictures, List.mem_cons, List.not_mem_nil, or_false] at member
  rcases member with rfl | rfl | rfl | rfl | rfl | rfl | rfl | rfl
  · exact trivial
  · exact trivial
  · exact sentPicture_built 2
  · exact trivial
  · exact trivial
  · exact sentPicture_built 1
  · exact trivial
  · exact trivial

theorem pictures_read : videoReaderLoop .new pictureReads 3 =
    [.recordBytes 49, .dispatch (sentPicture 1), .recordBytes 49, .dispatch (sentPicture 2)] := by
  decide

theorem pictures_delivered : streamOf pictureReads = delivered pictureReader.stream := by
  decide

theorem pictureReads_sound : ∀ read ∈ pictureReads, SoundRead read := by
  intro read member
  simp only [pictureReads, List.mem_cons, List.not_mem_nil, or_false] at member
  rcases member with rfl | rfl | rfl
  · exact ⟨by decide, by decide⟩
  · exact ⟨by decide, by decide⟩
  · exact ⟨by decide, by decide⟩

theorem media_in_order_pictures :
    ∃ (transport : SenderTransport) (pipeline : ReceiverPipeline),
      transport.broadcasts = [sentPicture 1, sentPicture 2] ∧
      pipeline.traffic.taken.length = 2 ∧
      Derived PictureOf transport.broadcasts pipeline.traffic.taken := by
  have sent : Runs.replay (act Markup.readEmptyTag fun _ => none) (create 1 fun _ => true)
    twoPictures = some _ := rfl
  have received : Runs.replay ReceiverPipeline.act ReceiverPipeline.begin
    (pictureShown 2 ++ pictureShown 1) = some _ := rfl
  have quiet : wireDrops (videoReaderLoop .new pictureReads 3) = 0 := by
    rw [pictures_read]
    rfl
  have carried : [sentPicture 1, sentPicture 2] =
      dispatched (videoReaderLoop .new pictureReads 3) := by
    rw [pictures_read]
    rfl
  refine ⟨_, _, rfl, ?_, (media_in_order Markup.readEmptyTag (fun _ => none) _ _
    ⟨⟨1, fun _ => true, twoPictures, sent, twoPictures_made⟩,
      ⟨(1, pictureReader), ?_, pictureReads, 3,
        ⟨pictureReader_whole, pictures_delivered, pictureReads_sound⟩, quiet, carried⟩,
      ⟨pictureShown 2 ++ pictureShown 1, received⟩⟩).1⟩
  · rfl
  · exact List.mem_singleton.mpr rfl

end OpenMediaTransport
