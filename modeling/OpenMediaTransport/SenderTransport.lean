import OpenMediaTransport.Provenance
import OpenMediaTransport.Runs
import OpenMediaTransport.SaturatingCount
import OpenMediaTransport.SenderControl
import OpenMediaTransport.SyncChannel
import OpenMediaTransport.WireDepth

/-!
`Sender` of `send.rs` as a whole: its owner, the clones of its audio ingress, and the two
writer threads of `spawn_typed_writer` with their queues. Every `write_peers` call holds the
lock of the peer map, so that a run is a sequence of steps of these threads.

A call of `AudioIngress::send` looks at the flag in one step and offers its frame in
another. The frames come assembled; encoding them is not part of this.
-/

namespace OpenMediaTransport

inductive Media where
  | video
  | audio
  deriving DecidableEq

/-- What `Sender` uses of `Statistics`. -/
structure Statistics where
  bytesSent : Int64 := 0
  bytesSentSinceLast : Int64 := 0
  frames : Int64 := 0
  framesSinceLast : Int64 := 0
  framesDropped : Int64 := 0

namespace Statistics

def recordSent (stats : Statistics) (nbytes : Nat) : Statistics :=
  { stats with
    bytesSent := saturatingAddI64 stats.bytesSent nbytes
    bytesSentSinceLast := saturatingAddI64 stats.bytesSentSinceLast nbytes
    frames := saturatingAddI64 stats.frames 1
    framesSinceLast := saturatingAddI64 stats.framesSinceLast 1 }

def recordDropped (stats : Statistics) : Statistics :=
  { stats with framesDropped := saturatingAddI64 stats.framesDropped 1 }

end Statistics

/-- A queue with its writer thread, which has taken `hand` out and not written it yet.
Without a thread, where it could not be spawned, the queue takes nothing. Of the frames
offered, the turned away ones are in the statistics and the ignored ones are not. -/
structure SendQueue where
  channel : SyncChannel WireBytes
  spawned : Bool
  hand : Option WireBytes
  offered : List WireBytes
  turnedAway : Nat
  ignored : Nat

namespace SendQueue

def new (depth : Nat) (spawned : Bool) : SendQueue where
  channel := .new depth
  spawned := spawned
  hand := none
  offered := []
  turnedAway := 0
  ignored := 0

def takes (queue : SendQueue) : Bool := queue.spawned && queue.channel.hasRoom

def accept (queue : SendQueue) (wire : WireBytes) : SendQueue :=
  { queue with channel := queue.channel.trySend wire, offered := queue.offered ++ [wire] }

end SendQueue

/-- A call of `write_peers`, by a writer thread or by the caller itself. -/
structure Write where
  wire : WireBytes
  writer : Option Media

/-- `closed` once `close` has dropped the owner's ends of the queues; the ingress keeps its
own. `sent` and `dropped` are what the statistics were told. -/
structure SenderTransport where
  control : ControlledSender
  depth : Nat
  closed : Bool
  outbound : Media → SendQueue
  ingress : List AssembledFrame
  stats : Statistics
  broadcasts : List AssembledFrame
  writes : List Write
  sent : List Nat
  dropped : Nat

inductive TransportStep where
  | control (step : ControlStep)
  | broadcast (frame : AssembledFrame) (outcome : Nat → WriteOutcome)
  | ingressCheck (frame : AssembledFrame)
  | ingressOffer (index : Nat) (outcome : Nat → WriteOutcome)
  | take (media : Media)
  | write (media : Media) (outcome : Nat → WriteOutcome)
  | forceSubscribe (video audio metadata : Bool)
  | enableAudioOutput
  | forcePreview (preview : Bool)
  | close

namespace SenderTransport

/-- `create_with_config`; the writers are spawned or not. -/
def create (depth : Nat) (spawned : Media → Bool) : SenderTransport where
  control := .init
  depth := depth
  closed := false
  outbound := fun media => .new depth (spawned media)
  ingress := []
  stats := {}
  broadcasts := []
  writes := []
  sent := []
  dropped := 0

def setQueue (transport : SenderTransport) (media : Media) (queue : SendQueue) : SenderTransport :=
  { transport with outbound := Function.update transport.outbound media queue }

def writePeers (transport : SenderTransport) (wire : WireBytes) (writer : Option Media)
    (outcome : Nat → WriteOutcome) : SenderTransport :=
  { transport with
    control := { transport.control with
      peers := OpenMediaTransport.writePeers wire outcome transport.control.peers }
    writes := transport.writes ++ [⟨wire, writer⟩] }

def recordSent (transport : SenderTransport) (nbytes : Nat) : SenderTransport :=
  { transport with
    stats := transport.stats.recordSent nbytes, sent := transport.sent ++ [nbytes] }

def recordDropped (transport : SenderTransport) : SenderTransport :=
  { transport with
    stats := transport.stats.recordDropped, dropped := transport.dropped + 1 }

/-- Control-plane frames bypass the queues. -/
def isControl (ft : FrameType) : Bool :=
  ft.contains .metadata && !ft.contains .video && !ft.contains .audio

def mediaOf (ft : FrameType) : Media :=
  if ft.contains .audio && !ft.contains .video then .audio else .video

def mapPeers (change : PeerState → PeerState) (peers : List (Nat × Peer)) : List (Nat × Peer) :=
  peers.map fun entry => (entry.1, { entry.2 with state := change entry.2.state })

section Steps
variable (documentParse : List Char → Except String Markup.XmlNode)
variable (previewBitstreamLength : List UInt8 → Option Nat)

def broadcast (transport : SenderTransport) (frame : AssembledFrame)
    (outcome : Nat → WriteOutcome) : SenderTransport :=
  let wire := broadcastWire previewBitstreamLength frame
  let nbytes :=
    if transport.control.subscribed.preview then
      (wire.preview.map List.length).getD wire.full.length
    else wire.full.length
  let transport := { transport with broadcasts := transport.broadcasts ++ [frame] }
  if isControl wire.ft then (transport.writePeers wire none outcome).recordSent nbytes
  else
    let media := mediaOf wire.ft
    if transport.closed || transport.depth == 0 then
      (transport.writePeers wire none outcome).recordSent nbytes
    else
      let queue := transport.outbound media
      if queue.takes then (transport.setQueue media (queue.accept wire)).recordSent nbytes
      else
        (transport.setQueue media { queue with
          offered := queue.offered ++ [wire], turnedAway := queue.turnedAway + 1 }).recordDropped

def enqueueWire (transport : SenderTransport) (frame : AssembledFrame)
    (outcome : Nat → WriteOutcome) : SenderTransport :=
  let wire := enqueuedWire frame
  if transport.depth == 0 then transport.writePeers wire none outcome
  else
    let queue := transport.outbound .audio
    if queue.takes then transport.setQueue .audio (queue.accept wire)
    else transport.setQueue .audio { queue with
      offered := queue.offered ++ [wire], ignored := queue.ignored + 1 }

def forceSubscribe (control : ControlledSender) (video audio metadata : Bool) : ControlledSender :=
  { control with
    subscribed := { control.subscribed with video, audio, metadata }
    audioEnabled := audio
    peers := mapPeers (fun state => { state with video, audio, metadata }) control.peers }

/-- The peers that `enable_audio_output` turns to; all of them, if none is idle. -/
def marks (hasIdle : Bool) (state : PeerState) : Bool := !state.video || !hasIdle

def markAudio (hasIdle : Bool) (state : PeerState) : PeerState :=
  if marks hasIdle state then { state with audio := true } else state

def enableAudioOutput (control : ControlledSender) : ControlledSender :=
  if control.peers.isEmpty then control
  else
    let hasIdle := control.peers.any fun entry => !entry.2.state.video
    let marked := control.peers.any fun entry => marks hasIdle entry.2.state
    let peers := mapPeers (markAudio hasIdle) control.peers
    if marked then
      { control with
        peers, subscribed := { control.subscribed with audio := true }, audioEnabled := true }
    else { control with peers }

def forcePreview (control : ControlledSender) (preview : Bool) : ControlledSender :=
  { control with
    subscribed := { control.subscribed with preview }
    peers := mapPeers (fun state => { state with preview }) control.peers }

def close (transport : SenderTransport) : SenderTransport :=
  { transport with
    closed := true
    control := { transport.control with peers := [], subscribed := {}, audioEnabled := false } }

/-- The control plane's own steps, but for writes and for peers after `close`. -/
def ofOwner (transport : SenderTransport) : ControlStep → Bool
  | .write _ _ => false
  | .addPeer _ _ => !transport.closed
  | _ => true

/-- One step, if its thread is at it. The owner is one thread: nothing else of it goes on
between the two halves of a poll. -/
def act (transport : SenderTransport) : TransportStep → Option SenderTransport
  | .control step =>
      if transport.ofOwner step then
        (transport.control.act documentParse step).map fun control => { transport with control }
      else none
  | .broadcast frame outcome =>
      if transport.control.polling then none
      else some (broadcast previewBitstreamLength transport frame outcome)
  | .ingressCheck frame =>
      if transport.control.audioEnabled then
        some { transport with ingress := transport.ingress ++ [frame] }
      else some transport
  | .ingressOffer index outcome =>
      match transport.ingress[index]? with
      | none => none
      | some frame => some (enqueueWire
          { transport with ingress := transport.ingress.eraseIdx index } frame outcome)
  | .take media =>
      let queue := transport.outbound media
      match queue.hand, queue.spawned, queue.channel.items with
      | none, true, wire :: _ => some (transport.setQueue media { queue with
          hand := some wire, channel := queue.channel.tryRecv.2 })
      | _, _, _ => none
  | .write media outcome =>
      let queue := transport.outbound media
      match queue.hand with
      | none => none
      | some wire => some
          ((transport.setQueue media { queue with hand := none }).writePeers wire (some media)
            outcome)
  | .forceSubscribe video audio metadata =>
      if transport.control.polling then none
      else some { transport with control := forceSubscribe transport.control video audio metadata }
  | .enableAudioOutput =>
      if transport.control.polling then none
      else some { transport with control := enableAudioOutput transport.control }
  | .forcePreview preview =>
      if transport.control.polling then none
      else some { transport with control := forcePreview transport.control preview }
  | .close => if transport.control.polling then none else some transport.close
end Steps

/-! What the books say. -/

def writesBy (writes : List Write) (writer : Option Media) : List WireBytes :=
  (writes.filter fun write => write.writer = writer).map Write.wire

/-- A queue gives its writer what it has accepted, in order; every frame offered is
accepted, turned away or ignored. -/
structure QueueKept (depth : Nat) (writes : List Write) (media : Media) (queue : SendQueue) :
    Prop where
  cap : queue.channel.cap = depth
  order : queue.channel.accepted.Sublist queue.offered
  count : queue.offered.length = queue.channel.accepted.length + queue.turnedAway + queue.ignored
  written : queue.channel.received = writesBy writes (some media) ++ queue.hand.toList

/-- A frame is written by the caller itself, taken by its queue, or refused by a full one. -/
inductive Handed (direct : Prop) (media : Media) (wire : WireBytes)
    (before after : SenderTransport) : Prop where
  | written (now : direct) (wrote : after.writes = before.writes ++ [⟨wire, none⟩])
  | queued (took : (after.outbound media).channel.accepted =
      (before.outbound media).channel.accepted ++ [wire])
  | refused (full : (before.outbound media).channel.items.length = before.depth)

/-- Outside a poll the ingress is open where a peer is taken to want audio. -/
def Opened (control : ControlledSender) : Prop :=
  control.polling = false →
    (∃ entry ∈ control.peers, entry.2.state.audio = true) → control.audioEnabled = true

/-- A frame as a peer that wants it is sent it, for some state of the peer. -/
def WrittenAs (write : Write) (delivery : Delivery) : Prop :=
  ∃ state, peerWants state write.wire.ft = true ∧ delivery.bytes = write.wire.bytesFor state

/-- Behind what a peer is greeted with, it is sent frames that were written. -/
def StreamKept (greets : Delivery → Prop) (writes : List Write) (stream : List Delivery) : Prop :=
  ∃ greeting rest, stream = greeting ++ rest ∧ greeting.length ≤ 1 ∧
    (∀ delivery ∈ greeting, greets delivery) ∧ Derived WrittenAs writes rest

def Greets (greets : Delivery → Prop) : TransportStep → Prop
  | .control (.addPeer info outcome) =>
      ∀ delivery ∈ (acceptedPeer info outcome).stream, greets delivery
  | _ => True

structure Kept (previewBitstreamLength : List UInt8 → Option Nat) (greets : Delivery → Prop)
    (transport : SenderTransport) : Prop where
  queues : ∀ media,
    QueueKept transport.depth transport.writes media (transport.outbound media)
  broadcasts : (transport.outbound .video).offered.Sublist
    (transport.broadcasts.map (broadcastWire previewBitstreamLength))
  counted : (transport.outbound .video).ignored = 0
  each : transport.broadcasts.length = transport.sent.length + transport.dropped
  turnedAway : transport.dropped =
    (transport.outbound .video).turnedAway + (transport.outbound .audio).turnedAway
  frames : CountsI64 transport.stats.frames transport.sent.length
  bytesSent : CountsI64 transport.stats.bytesSent transport.sent.sum
  framesDropped : CountsI64 transport.stats.framesDropped transport.dropped
  enabled : transport.control.audioEnabled = transport.control.subscribed.audio
  streams : ∀ entry ∈ transport.control.peers, StreamKept greets transport.writes entry.2.stream

theorem writesBy_snoc (writes : List Write) (wire : WireBytes) (writer of : Option Media) :
    writesBy (writes ++ [⟨wire, writer⟩]) of =
      writesBy writes of ++ if writer = of then [wire] else [] := by
  by_cases same : writer = of <;> simp [writesBy, same]

theorem StreamKept.skip {greets : Delivery → Prop} {writes : List Write} {stream : List Delivery}
    (kept : StreamKept greets writes stream) (more : List Write) :
    StreamKept greets (writes ++ more) stream := by
  obtain ⟨greeting, rest, split, one, greeted, derived⟩ := kept
  exact ⟨greeting, rest, split, one, greeted, derived.skip more⟩

theorem streams_write (greets : Delivery → Prop) (writes : List Write) (wire : WireBytes)
    (writer : Option Media) (outcome : Nat → WriteOutcome) (peers : List (Nat × Peer))
    (streams : ∀ entry ∈ peers, StreamKept greets writes entry.2.stream) :
    ∀ entry ∈ OpenMediaTransport.writePeers wire outcome peers,
      StreamKept greets (writes ++ [⟨wire, writer⟩]) entry.2.stream := by
  intro entry member
  obtain ⟨before, listed, cases⟩ := writePeers_entry wire outcome peers entry.1 entry.2 member
  have kept := streams _ listed
  rcases cases with ⟨-, same⟩ | ⟨wants, -, written⟩
  · rw [same]
    exact kept.skip _
  · obtain ⟨greeting, rest, split, one, greeted, derived⟩ := kept
    rw [written]
    refine ⟨greeting, rest ++ [⟨wire.bytesFor before.state, (outcome entry.1).handed
      (wire.bytesFor before.state)⟩], ?_, one, greeted,
      derived.keep _ _ ⟨before.state, wants, rfl⟩⟩
    rw [Peer.writeAll, split, List.append_assoc]

/-- A write that takes nothing from a queue. -/
theorem Kept.callerWrite {previewBitstreamLength : List UInt8 → Option Nat}
    {greets : Delivery → Prop} {transport : SenderTransport}
    (kept : Kept previewBitstreamLength greets transport) (wire : WireBytes) (outcome : Nat → WriteOutcome) :
    Kept previewBitstreamLength greets (transport.writePeers wire none outcome) where
  queues media := by
    obtain ⟨cap, order, count, written⟩ := kept.queues media
    refine ⟨cap, order, count, written.trans ?_⟩
    change _ = writesBy (transport.writes ++ [⟨wire, none⟩]) (some media) ++ _
    rw [writesBy_snoc, if_neg (by simp), List.append_nil]
    rfl
  broadcasts := kept.broadcasts
  counted := kept.counted
  each := kept.each
  turnedAway := kept.turnedAway
  frames := kept.frames
  bytesSent := kept.bytesSent
  framesDropped := kept.framesDropped
  enabled := kept.enabled
  streams := streams_write greets transport.writes wire none outcome _ kept.streams

@[simp] theorem setQueue_same (transport : SenderTransport) (media : Media) (queue : SendQueue) :
    (transport.setQueue media queue).outbound media = queue := Function.update_self ..

theorem setQueue_other (transport : SenderTransport) (media other : Media) (queue : SendQueue)
    (apart : other ≠ media) :
    (transport.setQueue media queue).outbound other = transport.outbound other :=
  Function.update_of_ne apart ..

theorem setQueue_kept (transport : SenderTransport) (writes : List Write) (media : Media)
    (queue : SendQueue) (depth : Nat)
    (others : ∀ other, other ≠ media → QueueKept depth writes other (transport.outbound other))
    (this : QueueKept depth writes media queue) (other : Media) :
    QueueKept depth writes other ((transport.setQueue media queue).outbound other) := by
  by_cases same : other = media
  · subst same
    rw [setQueue_same]
    exact this
  · rw [setQueue_other _ _ _ _ same]
    exact others other same

theorem takes_room (queue : SendQueue) (takes : queue.takes = true) :
    queue.channel.hasRoom = true := (Bool.and_eq_true_iff.mp takes).2

theorem QueueKept.accept {depth : Nat} {writes : List Write} {media : Media} {queue : SendQueue}
    (kept : QueueKept depth writes media queue) (takes : queue.takes = true) (wire : WireBytes) :
    QueueKept depth writes media (queue.accept wire) := by
  have taken : (queue.channel.trySend wire).accepted = queue.channel.accepted ++ [wire] := by
    rw [SyncChannel.trySend_accepted, if_pos (takes_room queue takes)]
  refine ⟨(SyncChannel.trySend_cap _ _).trans kept.cap, ?_, ?_,
    (SyncChannel.trySend_received _ _).trans kept.written⟩
  · change (queue.channel.trySend wire).accepted.Sublist (queue.offered ++ [wire])
    rw [taken]
    exact kept.order.append (List.Sublist.refl [wire])
  · change (queue.offered ++ [wire]).length =
      (queue.channel.trySend wire).accepted.length + queue.turnedAway + queue.ignored
    rw [taken, List.length_append, List.length_append, kept.count]
    omega

theorem QueueKept.refuse {depth : Nat} {writes : List Write} {media : Media} {queue : SendQueue}
    (kept : QueueKept depth writes media queue) (wire : WireBytes) (turnedAway ignored : Nat)
    (one : turnedAway + ignored = 1) :
    QueueKept depth writes media { queue with
      offered := queue.offered ++ [wire]
      turnedAway := queue.turnedAway + turnedAway
      ignored := queue.ignored + ignored } := by
  refine ⟨kept.cap, kept.order.trans (List.sublist_append_left _ _), ?_, kept.written⟩
  change (queue.offered ++ [wire]).length = queue.channel.accepted.length +
    (queue.turnedAway + turnedAway) + (queue.ignored + ignored)
  rw [List.length_append, List.length_singleton, kept.count]
  omega

section Broadcast
variable {previewBitstreamLength : List UInt8 → Option Nat} {greets : Delivery → Prop}
variable {transport : SenderTransport}
variable (kept : Kept previewBitstreamLength greets transport) (frame : AssembledFrame)
include kept

theorem broadcast_direct (outcome : Nat → WriteOutcome) (wire : WireBytes) (nbytes : Nat) :
    Kept previewBitstreamLength greets
      (({ transport with broadcasts := transport.broadcasts ++ [frame] }.writePeers wire none
        outcome).recordSent nbytes) := by
  have written := kept.callerWrite wire outcome
  refine { written with
    broadcasts := ?_, each := ?_, frames := ?_, bytesSent := ?_ }
  · exact kept.broadcasts.trans ((List.sublist_append_left _ _).map _)
  · change (transport.broadcasts ++ [frame]).length =
      (transport.sent ++ [nbytes]).length + transport.dropped
    rw [List.length_append, List.length_append, kept.each, List.length_singleton,
      List.length_singleton]
    omega
  · change CountsI64 _ (transport.sent ++ [nbytes]).length
    rw [List.length_append, List.length_singleton]
    exact kept.frames.add 1
  · change CountsI64 _ (transport.sent ++ [nbytes]).sum
    rw [List.sum_append, List.sum_singleton]
    exact kept.bytesSent.add nbytes

theorem offered_broadcasts (media : Media) (queue : SendQueue)
    (more : queue.offered = (transport.outbound media).offered ++
      [broadcastWire previewBitstreamLength frame]) :
    ((transport.setQueue media queue).outbound .video).offered.Sublist
      ((transport.broadcasts ++ [frame]).map (broadcastWire previewBitstreamLength)) := by
  rw [List.map_append, List.map_singleton]
  cases media with
  | video =>
      rw [setQueue_same, more]
      exact kept.broadcasts.append (List.Sublist.refl _)
  | audio =>
      rw [setQueue_other transport .audio .video queue (by decide)]
      exact kept.broadcasts.trans (List.sublist_append_left _ _)

theorem broadcast_accepted (media : Media) (takes : (transport.outbound media).takes = true)
    (nbytes : Nat) :
    Kept previewBitstreamLength greets
      (({ transport with broadcasts := transport.broadcasts ++ [frame] }.setQueue media
        ((transport.outbound media).accept (broadcastWire previewBitstreamLength frame))).recordSent
          nbytes) := by
  refine { kept with
    queues := ?_, broadcasts := ?_, counted := ?_, each := ?_, turnedAway := ?_, frames := ?_
    bytesSent := ?_ }
  · exact setQueue_kept transport transport.writes media _ transport.depth
      (fun other _ => kept.queues other) ((kept.queues media).accept takes _)
  · exact offered_broadcasts kept frame media _ rfl
  · cases media with
    | video => exact kept.counted
    | audio => exact kept.counted
  · change (transport.broadcasts ++ [frame]).length =
      (transport.sent ++ [nbytes]).length + transport.dropped
    rw [List.length_append, List.length_append, kept.each, List.length_singleton,
      List.length_singleton]
    omega
  · cases media with
    | video => exact kept.turnedAway
    | audio => exact kept.turnedAway
  · change CountsI64 _ (transport.sent ++ [nbytes]).length
    rw [List.length_append, List.length_singleton]
    exact kept.frames.add 1
  · change CountsI64 _ (transport.sent ++ [nbytes]).sum
    rw [List.sum_append, List.sum_singleton]
    exact kept.bytesSent.add nbytes

theorem broadcast_refused (media : Media) :
    Kept previewBitstreamLength greets
      (({ transport with broadcasts := transport.broadcasts ++ [frame] }.setQueue media
        { transport.outbound media with
          offered := (transport.outbound media).offered ++
            [broadcastWire previewBitstreamLength frame]
          turnedAway := (transport.outbound media).turnedAway + 1 }).recordDropped) := by
  refine { kept with
    queues := ?_, broadcasts := ?_, counted := ?_, each := ?_, turnedAway := ?_
    framesDropped := kept.framesDropped.add 1 }
  · exact setQueue_kept transport transport.writes media _ transport.depth
      (fun other _ => kept.queues other) ((kept.queues media).refuse _ 1 0 rfl)
  · exact offered_broadcasts kept frame media _ rfl
  · cases media with
    | video => exact kept.counted
    | audio => exact kept.counted
  · change (transport.broadcasts ++ [frame]).length = transport.sent.length + (transport.dropped + 1)
    rw [List.length_append, List.length_singleton, kept.each, Nat.add_assoc]
  · have sum := kept.turnedAway
    cases media with
    | video =>
        change transport.dropped + 1 =
          (transport.outbound .video).turnedAway + 1 + (transport.outbound .audio).turnedAway
        omega
    | audio =>
        change transport.dropped + 1 =
          (transport.outbound .video).turnedAway + ((transport.outbound .audio).turnedAway + 1)
        omega

theorem broadcast_kept (outcome : Nat → WriteOutcome) :
    Kept previewBitstreamLength greets
      (broadcast previewBitstreamLength transport frame outcome) := by
  unfold broadcast
  dsimp only
  split
  · exact broadcast_direct kept frame outcome _ _
  split
  · exact broadcast_direct kept frame outcome _ _
  split
  · rename_i takes
    exact broadcast_accepted kept frame _ takes _
  · exact broadcast_refused kept frame _

theorem enqueue_kept (outcome : Nat → WriteOutcome) :
    Kept previewBitstreamLength greets (enqueueWire transport frame outcome) := by
  unfold enqueueWire
  dsimp only
  split
  · exact kept.callerWrite _ outcome
  split
  · rename_i takes
    exact { kept with
      queues := setQueue_kept transport transport.writes .audio _ transport.depth
        (fun other _ => kept.queues other) ((kept.queues .audio).accept takes _) }
  · exact { kept with
      queues := setQueue_kept transport transport.writes .audio _ transport.depth
        (fun other _ => kept.queues other) ((kept.queues .audio).refuse _ 0 1 rfl) }

end Broadcast

/-! The writer threads. -/

section Writers
variable {previewBitstreamLength : List UInt8 → Option Nat} {greets : Delivery → Prop}
variable {transport : SenderTransport}
variable (kept : Kept previewBitstreamLength greets transport) (media : Media) (wire : WireBytes)
include kept

theorem take_kept (rest : List WireBytes) (free : (transport.outbound media).hand = none)
    (waits : (transport.outbound media).channel.items = wire :: rest) :
    Kept previewBitstreamLength greets (transport.setQueue media { transport.outbound media with
      hand := some wire, channel := (transport.outbound media).channel.tryRecv.2 }) := by
  have this := kept.queues media
  have taken : QueueKept transport.depth transport.writes media { transport.outbound media with
      hand := some wire, channel := (transport.outbound media).channel.tryRecv.2 } := by
    refine ⟨this.cap, this.order, this.count, ?_⟩
    change (transport.outbound media).channel.received ++
      (transport.outbound media).channel.items.head?.toList = _
    rw [this.written, waits, free, Option.toList_none, List.append_nil]
    rfl
  refine { kept with
    queues := setQueue_kept transport transport.writes media _ transport.depth
      (fun other _ => kept.queues other) taken
    broadcasts := ?_, counted := ?_, turnedAway := ?_ }
  all_goals cases media
  case refine_1.video => exact kept.broadcasts
  case refine_1.audio => exact kept.broadcasts
  case refine_2.video => exact kept.counted
  case refine_2.audio => exact kept.counted
  case refine_3.video => exact kept.turnedAway
  case refine_3.audio => exact kept.turnedAway

theorem write_kept (outcome : Nat → WriteOutcome)
    (holds : (transport.outbound media).hand = some wire) :
    Kept previewBitstreamLength greets
      ((transport.setQueue media { transport.outbound media with hand := none }).writePeers wire
        (some media) outcome) := by
  have this := kept.queues media
  have after : QueueKept transport.depth (transport.writes ++ [⟨wire, some media⟩]) media
      { transport.outbound media with hand := none } := by
    refine ⟨this.cap, this.order, this.count, ?_⟩
    change (transport.outbound media).channel.received = _ ++ []
    rw [writesBy_snoc, if_pos rfl, this.written, holds, List.append_nil]
    rfl
  have others : ∀ other, other ≠ media →
      QueueKept transport.depth (transport.writes ++ [⟨wire, some media⟩]) other
        (transport.outbound other) := by
    intro other apart
    obtain ⟨cap, order, count, written⟩ := kept.queues other
    refine ⟨cap, order, count, ?_⟩
    rw [writesBy_snoc, if_neg (fun same => apart (Option.some.inj same).symm), List.append_nil]
    exact written
  refine { kept with
    queues := setQueue_kept transport _ media _ transport.depth others after
    broadcasts := ?_, counted := ?_, turnedAway := ?_
    streams := streams_write greets transport.writes wire (some media) outcome _ kept.streams }
  all_goals cases media
  case refine_1.video => exact kept.broadcasts
  case refine_1.audio => exact kept.broadcasts
  case refine_2.video => exact kept.counted
  case refine_2.audio => exact kept.counted
  case refine_3.video => exact kept.turnedAway
  case refine_3.audio => exact kept.turnedAway

end Writers

/-! The owner's other calls. -/

section Owner
variable (documentParse : List Char → Except String Markup.XmlNode)
variable {previewBitstreamLength : List UInt8 → Option Nat} {greets : Delivery → Prop}

theorem accepted_stream (writes : List Write) (info : Option AssembledFrame)
    (outcome : WriteOutcome)
    (greeted : ∀ delivery ∈ (acceptedPeer info outcome).stream, greets delivery) :
    StreamKept greets writes (acceptedPeer info outcome).stream := by
  refine ⟨(acceptedPeer info outcome).stream, [], (List.append_nil _).symm, ?_, greeted,
    .nil writes⟩
  cases info with
  | none => exact Nat.zero_le 1
  | some frame => exact Nat.le_refl 1

theorem polled_streams (writes : List Write) (reads : Nat → PeerRead) (peers : List (Nat × Peer))
    (streams : ∀ entry ∈ peers, StreamKept greets writes entry.2.stream) :
    ∀ entry ∈ pollPeers documentParse reads peers, StreamKept greets writes entry.2.stream := by
  rintro ⟨id, peer⟩ member
  obtain ⟨old, inside, -, polled⟩ := pollPeers_entry documentParse reads peers _ member
  have same : peer.stream = old.2.stream := by
    unfold pollPeer at polled
    split at polled <;> cases polled <;> rfl
  change StreamKept greets writes peer.stream
  rw [same]
  exact streams old inside

theorem mapped_streams (writes : List Write) (change : PeerState → PeerState)
    (peers : List (Nat × Peer))
    (streams : ∀ entry ∈ peers, StreamKept greets writes entry.2.stream) :
    ∀ entry ∈ mapPeers change peers, StreamKept greets writes entry.2.stream := by
  intro entry member
  obtain ⟨old, inside, rfl⟩ := List.mem_map.mp member
  exact streams old inside

theorem control_kept (transport : SenderTransport) (control : ControlledSender) (step : ControlStep)
    (kept : Kept previewBitstreamLength greets transport) (own : transport.ofOwner step = true)
    (greeted : Greets greets (.control step))
    (acted : transport.control.act documentParse step = some control) :
    Kept previewBitstreamLength greets { transport with control } := by
  cases step with
  | addPeer info outcome =>
      simp only [ControlledSender.act] at acted
      split at acted
      · cases acted
      · cases acted
        refine { kept with streams := fun entry member => ?_ }
        rcases List.mem_cons.mp member with rfl | old
        · exact accepted_stream transport.writes info outcome greeted
        · exact kept.streams entry old
  | setQuality quality =>
      simp only [ControlledSender.act] at acted
      split at acted
      · cases acted
      · cases acted
        exact { kept with }
  | pollReads reads =>
      simp only [ControlledSender.act] at acted
      split at acted
      · cases acted
      · cases acted
        exact { kept with
          streams := polled_streams documentParse transport.writes reads _ kept.streams }
  | recompute order =>
      simp only [ControlledSender.act] at acted
      split at acted
      · cases acted
        exact { kept with enabled := rfl }
      · cases acted
  | write wire outcome => cases own

theorem enableAudioOutput_kept (transport : SenderTransport)
    (kept : Kept previewBitstreamLength greets transport) :
    Kept previewBitstreamLength greets
      { transport with control := enableAudioOutput transport.control } := by
  unfold enableAudioOutput
  split
  · exact kept
  dsimp only
  have streams := fun hasIdle =>
    mapped_streams transport.writes (markAudio hasIdle) _ kept.streams
  split
  · exact { kept with enabled := rfl, streams := streams _ }
  · exact { kept with streams := streams _ }

theorem create_kept (depth : Nat) (spawned : Media → Bool) :
    Kept previewBitstreamLength greets (create depth spawned) where
  queues _ := ⟨rfl, List.Sublist.refl [], rfl, rfl⟩
  broadcasts := List.Sublist.refl []
  counted := rfl
  each := rfl
  turnedAway := rfl
  frames := .zero
  bytesSent := .zero
  framesDropped := .zero
  enabled := rfl
  streams := nofun

theorem kept_invariant (depth : Nat) (spawned : Media → Bool) :
    Runs.Invariant (act documentParse previewBitstreamLength) (create depth spawned)
      (fun _ step => Greets greets step) (Kept previewBitstreamLength greets) where
  start := create_kept depth spawned
  step before after step kept greeted acted := by
    cases step with
    | control step =>
        simp only [act] at acted
        split at acted
        · rename_i own
          obtain ⟨control, controlled, rfl⟩ := Option.map_eq_some_iff.mp acted
          exact control_kept documentParse before control step kept own greeted controlled
        · cases acted
    | broadcast frame outcome =>
        simp only [act] at acted
        split at acted
        · cases acted
        · cases acted
          exact broadcast_kept kept frame outcome
    | ingressCheck frame =>
        simp only [act] at acted
        split at acted
        · cases acted
          exact { kept with }
        · cases acted
          exact kept
    | ingressOffer index outcome =>
        simp only [act] at acted
        split at acted
        · cases acted
        · rename_i frame called
          cases acted
          have returned : Kept previewBitstreamLength greets
              { before with ingress := before.ingress.eraseIdx index } := { kept with }
          exact enqueue_kept returned frame outcome
    | take media =>
        simp only [act] at acted
        split at acted
        · rename_i wire rest free spawned waits
          cases acted
          exact take_kept kept media wire rest free waits
        · cases acted
    | write media outcome =>
        simp only [act] at acted
        split at acted
        · cases acted
        · rename_i wire holds
          cases acted
          exact write_kept kept media wire outcome holds
    | forceSubscribe video audio metadata =>
        simp only [act] at acted
        split at acted
        · cases acted
        · cases acted
          exact { kept with
            enabled := rfl
            streams := mapped_streams before.writes
              (fun state => { state with video, audio, metadata }) _ kept.streams }
    | enableAudioOutput =>
        simp only [act] at acted
        split at acted
        · cases acted
        · cases acted
          exact enableAudioOutput_kept before kept
    | forcePreview preview =>
        simp only [act] at acted
        split at acted
        · cases acted
        · cases acted
          exact { kept with
            enabled := kept.enabled
            streams := mapped_streams before.writes (fun state => { state with preview }) _
              kept.streams }
    | close =>
        simp only [act] at acted
        split at acted
        · cases acted
        · cases acted
          exact { kept with enabled := rfl, streams := nofun }

theorem run_kept (greets : Delivery → Prop) (depth : Nat) (spawned : Media → Bool)
    (history : List TransportStep) (transport : SenderTransport)
    (greeted : ∀ step ∈ history, Greets greets step)
    (ran : Runs.replay (act documentParse previewBitstreamLength) (create depth spawned) history =
      some transport) : Kept previewBitstreamLength greets transport :=
  Runs.Invariant.run _ _ (kept_invariant documentParse depth spawned) history transport
    (Runs.throughout_each _ _ _ history fun step member _ => greeted step member) ran

theorem greets_anything (step : TransportStep) : Greets (fun _ => True) step := by
  cases step with
  | control step => cases step <;> simp [Greets]
  | _ => trivial

theorem accept_took (queue : SendQueue) (takes : queue.takes = true) (wire : WireBytes) :
    (queue.accept wire).channel.accepted = queue.channel.accepted ++ [wire] :=
  (SyncChannel.trySend_accepted _ _).trans (if_pos (takes_room queue takes))

theorem refused_full (depth : Nat) (writes : List Write) (media : Media) (queue : SendQueue)
    (kept : QueueKept depth writes media queue) (spawned : queue.spawned = true)
    (refused : ¬queue.takes = true) : queue.channel.items.length = depth := by
  rw [SendQueue.takes, spawned, Bool.true_and, Bool.not_eq_true] at refused
  exact (SyncChannel.full_length _ refused).trans kept.cap

/-- With its writer at work, only a full queue turns a frame away. -/
theorem broadcast_handed (transport after : SenderTransport) (frame : AssembledFrame)
    (outcome : Nat → WriteOutcome) (kept : Kept previewBitstreamLength greets transport)
    (acted : transport.act documentParse previewBitstreamLength (.broadcast frame outcome) =
      some after)
    (spawned : (transport.outbound (mediaOf frame.header.frameType)).spawned = true) :
    Handed (isControl frame.header.frameType = true ∨ transport.closed = true ∨
        transport.depth = 0)
      (mediaOf frame.header.frameType) (broadcastWire previewBitstreamLength frame) transport
        after ∧
      (after.dropped ≠ transport.dropped →
        (transport.outbound (mediaOf frame.header.frameType)).channel.items.length =
          transport.depth) := by
  simp only [act] at acted
  split at acted
  · cases acted
  cases acted
  unfold broadcast
  dsimp only
  split
  · rename_i control
    exact ⟨.written (.inl control) rfl, fun more => absurd rfl more⟩
  split
  · rename_i direct
    have now : transport.closed = true ∨ transport.depth = 0 := by simpa using direct
    exact ⟨.written (.inr now) rfl, fun more => absurd rfl more⟩
  split
  · rename_i takes
    refine ⟨.queued ?_, fun more => absurd rfl more⟩
    refine (congrArg (fun queue => queue.channel.accepted) (setQueue_same _ _ _)).trans ?_
    exact accept_took _ takes _
  · rename_i refused
    have full := refused_full _ _ _ _ (kept.queues (mediaOf frame.header.frameType)) spawned refused
    exact ⟨.refused full, fun _ => full⟩

/-- And so it is where the ingress finds no room. -/
theorem offer_handed (transport after : SenderTransport) (index : Nat) (frame : AssembledFrame)
    (outcome : Nat → WriteOutcome) (kept : Kept previewBitstreamLength greets transport)
    (waits : transport.ingress[index]? = some frame)
    (acted : transport.act documentParse previewBitstreamLength (.ingressOffer index outcome) =
      some after)
    (spawned : (transport.outbound .audio).spawned = true) :
    Handed (transport.depth = 0) .audio (enqueuedWire frame) transport after := by
  simp only [act, waits, Option.some.injEq] at acted
  subst acted
  unfold enqueueWire
  dsimp only
  split
  · rename_i direct
    exact .written (by simpa using direct) rfl
  split
  · rename_i takes
    exact .queued (accept_took _ takes _)
  · rename_i refused
    exact .refused (refused_full _ _ _ _ (kept.queues .audio) spawned refused)

theorem Opened.written {control : ControlledSender} (opened : Opened control) (wire : WireBytes)
    (outcome : Nat → WriteOutcome) :
    Opened { control with peers := OpenMediaTransport.writePeers wire outcome control.peers } := by
  rintro outside ⟨⟨id, peer⟩, member, wants⟩
  obtain ⟨old, listed, -, state, -⟩ := writePeers_reading wire outcome control.peers _ member
  exact opened outside ⟨old, listed, by rw [state]; exact wants⟩

theorem broadcast_opened (transport : SenderTransport) (opened : Opened transport.control)
    (frame : AssembledFrame) (outcome : Nat → WriteOutcome) :
    Opened (transport.broadcast previewBitstreamLength frame outcome).control := by
  unfold broadcast
  dsimp only
  split
  · exact opened.written _ outcome
  split
  · exact opened.written _ outcome
  split
  · exact opened
  · exact opened

theorem enqueue_opened (transport : SenderTransport) (opened : Opened transport.control)
    (frame : AssembledFrame) (outcome : Nat → WriteOutcome) :
    Opened (transport.enqueueWire frame outcome).control := by
  unfold enqueueWire
  dsimp only
  split
  · exact opened.written _ outcome
  split
  · exact opened
  · exact opened

theorem control_opened (control after : ControlledSender) (step : ControlStep)
    (opened : Opened control) (acted : control.act documentParse step = some after) :
    Opened after := by
  cases step with
  | addPeer info outcome =>
      simp only [ControlledSender.act] at acted
      split at acted
      · cases acted
      · cases acted
        rintro outside ⟨entry, member, wants⟩
        rcases List.mem_cons.mp member with rfl | old
        · -- A new peer has asked for nothing.
          cases info <;> cases wants
        · exact opened outside ⟨entry, old, wants⟩
  | setQuality quality =>
      simp only [ControlledSender.act] at acted
      split at acted
      · cases acted
      · cases acted
        exact opened
  | pollReads reads =>
      simp only [ControlledSender.act] at acted
      split at acted
      · cases acted
      · cases acted
        intro outside
        cases outside
  | recompute order =>
      simp only [ControlledSender.act] at acted
      split at acted
      · rename_i ready
        cases acted
        intro _ some
        exact (joined_any control.peers order ready.2 PeerState.audio rfl fun _ _ => rfl).mpr some
      · cases acted
  | write wire outcome =>
      cases acted
      exact opened.written wire outcome

theorem enableAudioOutput_opened (control : ControlledSender) (opened : Opened control) :
    Opened (enableAudioOutput control) := by
  unfold enableAudioOutput
  split
  · exact opened
  dsimp only
  split
  · exact fun _ _ => rfl
  · rename_i unmarked
    rintro outside ⟨entry, member, wants⟩
    obtain ⟨old, inside, rfl⟩ := List.mem_map.mp member
    have others : marks (control.peers.any fun entry => !entry.2.state.video) old.2.state =
        false := by
      simpa using fun marked => unmarked (List.any_eq_true.mpr ⟨old, inside, marked⟩)
    refine opened outside ⟨old, inside, ?_⟩
    simpa [markAudio, others] using wants

theorem opened_invariant (depth : Nat) (spawned : Media → Bool) :
    Runs.Invariant (act documentParse previewBitstreamLength) (create depth spawned)
      (fun _ _ => True) (fun transport => Opened transport.control) where
  start := by
    rintro - ⟨entry, member, -⟩
    cases member
  step before after step opened _ acted := by
    cases step with
    | control step =>
        simp only [act] at acted
        split at acted
        · obtain ⟨control, controlled, rfl⟩ := Option.map_eq_some_iff.mp acted
          exact control_opened documentParse before.control control step opened controlled
        · cases acted
    | broadcast frame outcome =>
        simp only [act] at acted
        split at acted
        · cases acted
        · cases acted
          exact broadcast_opened before opened frame outcome
    | ingressCheck frame =>
        simp only [act] at acted
        split at acted
        · cases acted
          exact opened
        · cases acted
          exact opened
    | ingressOffer index outcome =>
        simp only [act] at acted
        split at acted
        · cases acted
        · cases acted
          exact enqueue_opened { before with ingress := before.ingress.eraseIdx index } opened _
            outcome
    | take media =>
        simp only [act] at acted
        split at acted
        · cases acted
          exact opened
        · cases acted
    | write media outcome =>
        simp only [act] at acted
        split at acted
        · cases acted
        · rename_i wire _
          cases acted
          exact opened.written wire outcome
    | forceSubscribe video audio metadata =>
        simp only [act] at acted
        split at acted
        · cases acted
        cases acted
        rintro - ⟨entry, member, wants⟩
        obtain ⟨old, -, rfl⟩ := List.mem_map.mp member
        exact wants
    | enableAudioOutput =>
        simp only [act] at acted
        split at acted
        · cases acted
        · cases acted
          exact enableAudioOutput_opened before.control opened
    | forcePreview preview =>
        simp only [act] at acted
        split at acted
        · cases acted
        cases acted
        rintro outside ⟨entry, member, wants⟩
        obtain ⟨old, inside, rfl⟩ := List.mem_map.mp member
        exact opened outside ⟨old, inside, wants⟩
    | close =>
        simp only [act] at acted
        split at acted
        · cases acted
        cases acted
        rintro - ⟨entry, member, -⟩
        cases member

/-- Behind its greeting every peer gets, of each queue, frames that were offered to it, in
their order and none twice, and of video frames that were broadcast; the ingress is open
while some peer is taken to want audio, and right after a poll only then. -/
theorem peer_media_ordered (depth : Nat) (spawned : Media → Bool)
    (history : List TransportStep) (transport : SenderTransport)
    (ran : Runs.replay (act documentParse previewBitstreamLength) (create depth spawned) history =
      some transport) :
    (∀ entry ∈ transport.control.peers, ∃ greeting rest origins,
      entry.2.stream = greeting ++ rest ∧ greeting.length ≤ 1 ∧
      origins.Sublist transport.writes ∧ List.Forall₂ WrittenAs origins rest ∧
      (∀ media, (writesBy origins (some media)).Sublist (transport.outbound media).offered) ∧
      (writesBy origins (some .video)).Sublist
        (transport.broadcasts.map (broadcastWire previewBitstreamLength))) ∧
    transport.control.audioEnabled = transport.control.subscribed.audio ∧
    (transport.control.polling = false →
      (∃ entry ∈ transport.control.peers, entry.2.state.audio = true) →
      transport.control.audioEnabled = true) ∧
    (∀ order after, transport.act documentParse previewBitstreamLength
        (.control (.recompute order)) = some after →
      (after.control.audioEnabled = true ↔
        ∃ entry ∈ after.control.peers, entry.2.state.audio = true)) := by
  have kept := run_kept documentParse (fun _ => True) depth spawned history transport
    (fun step _ => greets_anything step) ran
  have opened := Runs.Invariant.run _ _ (opened_invariant documentParse depth spawned) history
    transport (Runs.throughout_true _ _ history) ran
  refine ⟨fun entry member => ?_, kept.enabled, opened, fun order after acted => ?_⟩
  · obtain ⟨greeting, rest, split, one, -, origins, among, related⟩ := kept.streams entry member
    have through : ∀ media,
        (writesBy origins (some media)).Sublist (transport.outbound media).offered := by
      intro media
      obtain ⟨-, order, -, written⟩ := kept.queues media
      have picked : (writesBy origins (some media)).Sublist
          (writesBy transport.writes (some media)) := (among.filter _).map Write.wire
      have received : (writesBy transport.writes (some media)).Sublist
          (transport.outbound media).channel.received := by
        rw [written]
        exact List.sublist_append_left _ _
      exact ((picked.trans received).trans (SyncChannel.received_prefix _).sublist).trans order
    exact ⟨greeting, rest, origins, split, one, among, related, through,
      (through .video).trans kept.broadcasts⟩
  · obtain ⟨control, controlled, rfl⟩ := Option.map_eq_some_iff.mp acted
    simp only [ControlledSender.act] at controlled
    split at controlled
    · rename_i ready
      cases controlled
      exact joined_any transport.control.peers order ready.2 PeerState.audio rfl fun _ _ => rfl
    · cases controlled

end Owner

/-- Two pictures into a queue of one, with a peer that is taken to want them. -/
def fullRun : List TransportStep :=
  [.write .video fun _ => .ok, .broadcast WireQueue.picture fun _ => .ok, .take .video,
    .broadcast WireQueue.picture fun _ => .ok, .broadcast WireQueue.picture fun _ => .ok,
    .forceSubscribe true false false, .control (.addPeer none .ok)]

theorem peer_media_ordered_full :
    ∃ transport, Runs.replay (act Markup.readEmptyTag fun _ => none) (create 1 fun _ => true)
        fullRun = some transport ∧
      (∃ entry ∈ transport.control.peers, entry.2.stream.length = 1) ∧
      transport.control.audioEnabled = transport.control.subscribed.audio := by
  have ran : Runs.replay (act Markup.readEmptyTag fun _ => none) (create 1 fun _ => true)
      fullRun = some _ := rfl
  exact ⟨_, ran, ⟨_, List.mem_singleton.mpr rfl, rfl⟩,
    (peer_media_ordered Markup.readEmptyTag 1 _ fullRun _ ran).2.1⟩

end SenderTransport

end OpenMediaTransport
