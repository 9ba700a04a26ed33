import OpenMediaTransport.SendableFrames
import OpenMediaTransport.SenderTransport

/-!
Which of the broadcasts a sender has written, by type. Documents go past the queues, so
they and pictures change places; among themselves the pictures keep their order, and the
documents theirs, whatever the depth of the queues. Sound, which comes from the ingress as
well, keeps the order in which its queue was offered it.
-/

namespace OpenMediaTransport

/-- Taken by the queue and not written yet. -/
def SendQueue.ahead (queue : SendQueue) : List WireBytes :=
  queue.hand.toList ++ queue.channel.items

/-- The only type of frame that a queue takes, if frames have one type. -/
def Media.type : Media → FrameType
  | .video => .video
  | .audio => .audio

def ofType (ft : FrameType) (wires : List WireBytes) : List WireBytes :=
  wires.filter fun wire => wire.ft = ft

/-- What is written of a type, and then what is queued of it, is among what was given. -/
def InOrder (ft : FrameType) (written ahead given : List WireBytes) : Prop :=
  (ofType ft (written ++ ahead)).Sublist given

theorem ofType_append (ft : FrameType) (front back : List WireBytes) :
    ofType ft (front ++ back) = ofType ft front ++ ofType ft back := List.filter_append ..

theorem ofType_other (ft : FrameType) (wire : WireBytes) (other : wire.ft ≠ ft) :
    ofType ft [wire] = [] := List.filter_singleton .. |>.trans (by simp [other])

theorem ofType_none (ft : FrameType) (wires : List WireBytes)
    (other : ∀ wire ∈ wires, wire.ft ≠ ft) : ofType ft wires = [] :=
  List.filter_eq_nil_iff.mpr fun wire member same => other wire member (of_decide_eq_true same)

namespace InOrder
variable {ft : FrameType} {written ahead given : List WireBytes}
variable (ordered : InOrder ft written ahead given) (wire : WireBytes)
include ordered

/-- A frame that is dropped. -/
theorem pass : InOrder ft written ahead (given ++ [wire]) :=
  ordered.trans (List.sublist_append_left _ _)

/-- A frame of another type is written. -/
theorem aside (other : wire.ft ≠ ft) : InOrder ft (written ++ [wire]) ahead given := by
  have kept := ordered
  unfold InOrder at kept ⊢
  rw [ofType_append] at kept
  rwa [ofType_append, ofType_append, ofType_other ft wire other, List.append_nil]

/-- A frame that is written at once, when nothing of its type is queued. -/
theorem direct (clear : ofType wire.ft ahead = []) :
    InOrder ft (written ++ [wire]) ahead (given ++ [wire]) := by
  by_cases same : wire.ft = ft
  · subst same
    have kept := ordered
    unfold InOrder at kept ⊢
    rw [ofType_append] at kept
    rw [ofType_append, ofType_append]
    rw [clear, List.append_nil] at kept ⊢
    exact kept.append List.filter_sublist
  · exact (ordered.aside wire same).pass wire

/-- A frame that is queued. -/
theorem queue : InOrder ft written (ahead ++ [wire]) (given ++ [wire]) := by
  have kept := ordered
  unfold InOrder at kept ⊢
  rw [← List.append_assoc, ofType_append]
  exact kept.append List.filter_sublist

end InOrder

namespace SenderTransport

/-- The sender's owner and its ingress are given frames that can be sent, and the ingress
only sound. -/
def Typed : TransportStep → Prop
  | .broadcast frame _ => Sendable frame
  | .ingressCheck frame => Sendable frame ∧ frame.header.frameType = .audio
  | _ => True

section Wires
variable (previewBitstreamLength : List UInt8 → Option Nat)

/-- The wire bytes of some frame, by either way. -/
def MadeOf (wire : WireBytes) : Prop :=
  ∃ frame, Sendable frame ∧
    (wire = broadcastWire previewBitstreamLength frame ∨ wire = enqueuedWire frame)

def Proper (media : Media) (wire : WireBytes) : Prop :=
  wire.ft = media.type ∧ MadeOf previewBitstreamLength wire
end Wires

def writtenWires (transport : SenderTransport) : List WireBytes := transport.writes.map Write.wire

structure Straight (previewBitstreamLength : List UInt8 → Option Nat)
    (transport : SenderTransport) : Prop where
  sendable : ∀ frame ∈ transport.broadcasts, Sendable frame
  typed : ∀ media, ∀ wire ∈ (transport.outbound media).ahead,
    Proper previewBitstreamLength media wire
  ingress : ∀ frame ∈ transport.ingress, Sendable frame ∧ frame.header.frameType = .audio
  written : ∀ wire ∈ transport.writtenWires, MadeOf previewBitstreamLength wire
  direct : transport.depth = 0 → (transport.outbound .video).ahead = []
  order : transport.closed = false → ∀ ft, ft ≠ .audio → InOrder ft transport.writtenWires
    (transport.outbound .video).ahead
    (transport.broadcasts.map (broadcastWire previewBitstreamLength))
  sound : transport.closed = false → transport.depth ≠ 0 → InOrder .audio transport.writtenWires
    (transport.outbound .audio).ahead (transport.outbound .audio).offered
  gone : transport.closed = true → transport.control.peers = []

theorem writtenWires_snoc (transport : SenderTransport) (wire : WireBytes) (writer : Option Media)
    (outcome : Nat → WriteOutcome) :
    (transport.writePeers wire writer outcome).writtenWires = transport.writtenWires ++ [wire] :=
  List.map_append ..

theorem writePeers_gone (wire : WireBytes) (outcome : Nat → WriteOutcome)
    (peers : List (Nat × Peer)) (none : peers = []) :
    OpenMediaTransport.writePeers wire outcome peers = [] := by
  rw [none]
  rfl

theorem setQueue_typed {proper : Media → WireBytes → Prop} (transport : SenderTransport)
    (media : Media) (queue : SendQueue)
    (typed : ∀ media, ∀ wire ∈ (transport.outbound media).ahead, proper media wire)
    (this : ∀ wire ∈ queue.ahead, proper media wire) (other : Media) :
    ∀ wire ∈ ((transport.setQueue media queue).outbound other).ahead, proper other wire := by
  by_cases same : other = media
  · subst same
    rw [setQueue_same]
    exact this
  · rw [setQueue_other _ _ _ _ same]
    exact typed other

theorem accept_ahead (queue : SendQueue) (takes : queue.takes = true) (wire : WireBytes) :
    (queue.accept wire).ahead = queue.ahead ++ [wire] := by
  have room : (queue.channel.trySend wire).items = queue.channel.items ++ [wire] := by
    rw [SyncChannel.trySend, dif_pos (takes_room queue takes)]
  change queue.hand.toList ++ (queue.channel.trySend wire).items = _
  rw [room, ← List.append_assoc]
  rfl

theorem snoc_all {α : Type} {proper : α → Prop} {items : List α} {last : α}
    (all : ∀ item ∈ items, proper item) (this : proper last) :
    ∀ item ∈ items ++ [last], proper item := by
  intro other member
  rcases List.mem_append.mp member with old | new
  · exact all other old
  · rw [List.mem_singleton.mp new]
    exact this

section Steps
variable {previewBitstreamLength : List UInt8 → Option Nat}
variable {transport : SenderTransport}
variable (straight : Straight previewBitstreamLength transport)
include straight

theorem ahead_clear (wire : WireBytes)
    (past : isControl wire.ft = true ∨ transport.depth = 0) :
    ofType wire.ft (transport.outbound .video).ahead = [] := by
  rcases past with control | none
  · refine ofType_none _ _ fun queued member same => ?_
    rw [← same, (straight.typed .video queued member).1] at control
    exact absurd control (by decide)
  · rw [straight.direct none]
    rfl

theorem broadcast_straight (frame : AssembledFrame) (outcome : Nat → WriteOutcome)
    (sendable : Sendable frame) :
    Straight previewBitstreamLength
      (broadcast previewBitstreamLength transport frame outcome) := by
  have wireType : (broadcastWire previewBitstreamLength frame).ft = frame.header.frameType := rfl
  have direct : ∀ nbytes, (transport.closed = false →
      isControl (broadcastWire previewBitstreamLength frame).ft = true ∨ transport.depth = 0) →
      Straight previewBitstreamLength
        (({ transport with broadcasts := transport.broadcasts ++ [frame] }.writePeers
          (broadcastWire previewBitstreamLength frame) none outcome).recordSent nbytes) := by
    intro nbytes past
    refine { straight with
      sendable := snoc_all straight.sendable sendable
      written := ?_
      order := fun opened ft kind => ?_
      sound := fun opened some => ?_
      gone := fun closed => writePeers_gone _ _ _ (straight.gone closed) }
    · change ∀ wire ∈ (SenderTransport.writePeers _ _ none outcome).writtenWires, _
      rw [writtenWires_snoc]
      exact snoc_all straight.written ⟨frame, sendable, .inl rfl⟩
    · have kept := (straight.order opened ft kind).direct _ (ahead_clear straight _ (past opened))
      change InOrder ft ((transport.writes ++ [_]).map Write.wire) _
        ((transport.broadcasts ++ [frame]).map _)
      rw [List.map_append, List.map_append]
      exact kept
    · have control := (past opened).resolve_right some
      have apart : (broadcastWire previewBitstreamLength frame).ft ≠ .audio := fun audio => by
        rw [audio] at control
        exact absurd control (by decide)
      have kept := (straight.sound opened some).aside _ apart
      change InOrder .audio ((transport.writes ++ [_]).map Write.wire) _ _
      rw [List.map_append]
      exact kept
  unfold broadcast
  dsimp only
  split
  · rename_i control
    exact direct _ fun _ => .inl control
  split
  · rename_i past
    refine direct _ fun opened => .inr ?_
    simpa [opened] using past
  rename_i data open_
  have some : transport.depth ≠ 0 := fun none => open_ (by simp [none])
  -- What is no document is a picture or sound, and has its own queue.
  obtain ⟨media, own, same⟩ : ∃ media : Media,
      mediaOf (broadcastWire previewBitstreamLength frame).ft = media ∧
        (broadcastWire previewBitstreamLength frame).ft = media.type := by
    rw [wireType] at data ⊢
    rcases sendable.kind with video | audio | metadata
    · exact ⟨.video, by rw [video]; decide, video⟩
    · exact ⟨.audio, by rw [audio]; decide, audio⟩
    · rw [metadata] at data
      exact absurd (by decide) data
  rw [own]
  have passed := fun opened ft kind => (straight.order opened ft kind).pass
    (broadcastWire previewBitstreamLength frame)
  split
  · rename_i takes
    have grown := accept_ahead _ takes (broadcastWire previewBitstreamLength frame)
    refine { straight with
      sendable := snoc_all straight.sendable sendable
      typed := ?_, direct := fun none => absurd none some, order := ?_, sound := ?_ }
    · refine setQueue_typed transport media _ straight.typed ?_
      rw [grown]
      exact snoc_all (straight.typed media) ⟨same, frame, sendable, .inl rfl⟩
    · intro opened ft kind
      change InOrder ft transport.writtenWires _ ((transport.broadcasts ++ [frame]).map _)
      rw [List.map_append]
      cases media with
      | video =>
          have queued := (straight.order opened ft kind).queue
            (broadcastWire previewBitstreamLength frame)
          rw [← grown] at queued
          exact queued
      | audio => exact passed opened ft kind
    · intro opened some
      cases media with
      | video => exact straight.sound opened some
      | audio =>
          have queued := (straight.sound opened some).queue
            (broadcastWire previewBitstreamLength frame)
          rw [← grown] at queued
          exact queued
  · refine { straight with
      sendable := snoc_all straight.sendable sendable
      typed := ?_, direct := fun none => absurd none some, order := ?_, sound := ?_ }
    · exact setQueue_typed transport media _ straight.typed (straight.typed media)
    · intro opened ft kind
      change InOrder ft transport.writtenWires _ ((transport.broadcasts ++ [frame]).map _)
      rw [List.map_append]
      cases media with
      | video => exact passed opened ft kind
      | audio => exact passed opened ft kind
    · intro opened some
      cases media with
      | video => exact straight.sound opened some
      | audio => exact (straight.sound opened some).pass _

theorem enqueue_straight (frame : AssembledFrame) (outcome : Nat → WriteOutcome)
    (sendable : Sendable frame) (audio : frame.header.frameType = .audio) :
    Straight previewBitstreamLength (enqueueWire transport frame outcome) := by
  unfold enqueueWire
  dsimp only
  split
  · rename_i none
    refine { straight with
      written := ?_
      order := fun opened ft kind => ?_
      sound := fun _ some => absurd (beq_iff_eq.mp none) some
      gone := fun closed => writePeers_gone _ _ _ (straight.gone closed) }
    · rw [writtenWires_snoc]
      exact snoc_all straight.written ⟨frame, sendable, .inr rfl⟩
    have kept := (straight.order opened ft kind).aside (enqueuedWire frame)
      fun same => kind (same.symm.trans audio)
    rw [writtenWires_snoc]
    exact kept
  split
  · rename_i takes
    have grown := accept_ahead _ takes (enqueuedWire frame)
    refine { straight with
      typed := setQueue_typed transport .audio _ straight.typed ?_
      sound := fun opened some => ?_ }
    · rw [grown]
      exact snoc_all (straight.typed .audio) ⟨audio, frame, sendable, .inr rfl⟩
    · have queued := (straight.sound opened some).queue (enqueuedWire frame)
      rw [← grown] at queued
      exact queued
  · exact { straight with
      typed := setQueue_typed transport .audio _ straight.typed (straight.typed .audio)
      sound := fun opened some => (straight.sound opened some).pass _ }

theorem take_straight (media : Media) (wire : WireBytes) (rest : List WireBytes)
    (free : (transport.outbound media).hand = none)
    (waits : (transport.outbound media).channel.items = wire :: rest) :
    Straight previewBitstreamLength (transport.setQueue media { transport.outbound media with
      hand := some wire, channel := (transport.outbound media).channel.tryRecv.2 }) := by
  have same : ({ transport.outbound media with
      hand := some wire, channel := (transport.outbound media).channel.tryRecv.2 } :
        SendQueue).ahead = (transport.outbound media).ahead := by
    rw [SendQueue.ahead, SendQueue.ahead, free, waits]
    change [wire] ++ (transport.outbound media).channel.items.tail = _
    rw [waits]
    rfl
  refine { straight with typed := setQueue_typed transport media _ straight.typed ?_
                         direct := ?_, order := ?_, sound := ?_ }
  · rw [same]
    exact straight.typed media
  all_goals cases media
  case refine_2.video => rw [setQueue_same, same]; exact straight.direct
  case refine_2.audio => exact straight.direct
  case refine_3.video => rw [setQueue_same, same]; exact straight.order
  case refine_3.audio => exact straight.order
  case refine_4.video => exact straight.sound
  case refine_4.audio => rw [setQueue_same, same]; exact straight.sound

theorem write_straight (media : Media) (wire : WireBytes) (outcome : Nat → WriteOutcome)
    (holds : (transport.outbound media).hand = some wire) :
    Straight previewBitstreamLength
      ((transport.setQueue media { transport.outbound media with hand := none }).writePeers wire
        (some media) outcome) := by
  have split : (transport.outbound media).ahead =
      wire :: ({ transport.outbound media with hand := none } : SendQueue).ahead := by
    rw [SendQueue.ahead, holds]
    rfl
  have mine := straight.typed media wire (by rw [split]; exact List.mem_cons_self)
  refine { straight with
    typed := setQueue_typed transport media _ straight.typed fun other member =>
      straight.typed media other (by rw [split]; exact List.mem_cons_of_mem wire member)
    written := by rw [writtenWires_snoc]; exact snoc_all straight.written mine.2
    direct := ?_, order := ?_, sound := ?_
    gone := fun closed => writePeers_gone _ _ _ (straight.gone closed) }
  all_goals cases media
  case refine_1.video =>
    intro none
    have empty := straight.direct none
    rw [split] at empty
    cases empty
  case refine_1.audio => exact straight.direct
  case refine_2.video =>
    intro opened ft kind
    have kept := straight.order opened ft kind
    rw [split, InOrder, List.append_cons] at kept
    rw [writtenWires_snoc]
    exact kept
  case refine_2.audio =>
    intro opened ft kind
    rw [writtenWires_snoc]
    exact (straight.order opened ft kind).aside wire fun same => kind (same.symm.trans mine.1)
  case refine_3.video =>
    intro opened some
    rw [writtenWires_snoc]
    exact (straight.sound opened some).aside wire (by rw [mine.1]; decide)
  case refine_3.audio =>
    intro opened some
    have kept := straight.sound opened some
    rw [split, InOrder, List.append_cons] at kept
    rw [writtenWires_snoc]
    exact kept
end Steps

section Runs
variable (documentParse : List Char → Except String Markup.XmlNode)
variable {previewBitstreamLength : List UInt8 → Option Nat}

theorem control_gone (transport : SenderTransport) (control : ControlledSender)
    (step : ControlStep) (own : transport.ofOwner step = true)
    (acted : transport.control.act documentParse step = some control)
    (gone : transport.closed = true → transport.control.peers = [])
    (closed : transport.closed = true) : control.peers = [] := by
  have none := gone closed
  cases step with
  | addPeer info outcome =>
      rw [ofOwner, closed] at own
      cases own
  | setQuality quality =>
      simp only [ControlledSender.act] at acted
      split at acted
      · cases acted
      · cases acted
        exact none
  | pollReads reads =>
      simp only [ControlledSender.act] at acted
      split at acted
      · cases acted
      · cases acted
        change pollPeers documentParse reads transport.control.peers = []
        rw [none]
        rfl
  | recompute order =>
      simp only [ControlledSender.act] at acted
      split at acted
      · cases acted
        exact none
      · cases acted
  | write wire outcome => cases own

theorem mapPeers_gone (change : PeerState → PeerState) (peers : List (Nat × Peer))
    (none : peers = []) : mapPeers change peers = [] := by
  rw [none]
  rfl

theorem enableAudioOutput_gone (control : ControlledSender) (none : control.peers = []) :
    (enableAudioOutput control).peers = [] := by
  rw [enableAudioOutput, none]
  exact none

theorem straight_invariant (depth : Nat) (spawned : Media → Bool) :
    Runs.Invariant (act documentParse previewBitstreamLength) (create depth spawned)
      (fun _ step => Typed step) (Straight previewBitstreamLength) where
  start := {
    sendable := fun _ none => absurd none List.not_mem_nil
    typed := fun _ _ none => absurd none List.not_mem_nil
    ingress := fun _ none => absurd none List.not_mem_nil
    written := fun _ none => absurd none List.not_mem_nil
    direct := fun _ => rfl
    order := fun _ _ _ => List.Sublist.refl []
    sound := fun _ _ => List.Sublist.refl []
    gone := fun _ => rfl }
  step before after step straight typed acted := by
    cases step with
    | control step =>
        simp only [act] at acted
        split at acted
        · rename_i own
          obtain ⟨control, controlled, rfl⟩ := Option.map_eq_some_iff.mp acted
          exact { straight with
            gone := control_gone documentParse before control step own controlled straight.gone }
        · cases acted
    | broadcast frame outcome =>
        simp only [act] at acted
        split at acted
        · cases acted
        · cases acted
          exact broadcast_straight straight frame outcome typed
    | ingressCheck frame =>
        simp only [act] at acted
        split at acted
        · cases acted
          exact { straight with ingress := snoc_all straight.ingress typed }
        · cases acted
          exact straight
    | ingressOffer index outcome =>
        simp only [act] at acted
        split at acted
        · cases acted
        · rename_i frame called
          cases acted
          have returned : Straight previewBitstreamLength
              { before with ingress := before.ingress.eraseIdx index } :=
            { straight with
              ingress := fun other member => straight.ingress other (List.mem_of_mem_eraseIdx member) }
          obtain ⟨sendable, audio⟩ := straight.ingress frame (List.mem_of_getElem? called)
          exact enqueue_straight returned frame outcome sendable audio
    | take media =>
        simp only [act] at acted
        split at acted
        · rename_i wire rest free spawned waits
          cases acted
          exact take_straight straight media wire rest free waits
        · cases acted
    | write media outcome =>
        simp only [act] at acted
        split at acted
        · cases acted
        · rename_i wire holds
          cases acted
          exact write_straight straight media wire outcome holds
    | forceSubscribe video audio metadata =>
        simp only [act] at acted
        split at acted
        · cases acted
        · cases acted
          exact { straight with
            gone := fun closed => mapPeers_gone
              (fun state => { state with video, audio, metadata }) _ (straight.gone closed) }
    | enableAudioOutput =>
        simp only [act] at acted
        split at acted
        · cases acted
        · cases acted
          exact { straight with
            gone := fun closed => enableAudioOutput_gone _ (straight.gone closed) }
    | forcePreview preview =>
        simp only [act] at acted
        split at acted
        · cases acted
        · cases acted
          exact { straight with
            gone := fun closed => mapPeers_gone (fun state => { state with preview }) _
              (straight.gone closed) }
    | close =>
        simp only [act] at acted
        split at acted
        · cases acted
        · cases acted
          exact { straight with
            order := fun opened => absurd opened.symm Bool.false_ne_true
            sound := fun opened => absurd opened.symm Bool.false_ne_true
            gone := fun _ => rfl }

theorem run_straight (depth : Nat) (spawned : Media → Bool) (history : List TransportStep)
    (transport : SenderTransport) (typed : ∀ step ∈ history, Typed step)
    (ran : Runs.replay (act documentParse previewBitstreamLength) (create depth spawned) history =
      some transport) : Straight previewBitstreamLength transport :=
  Runs.Invariant.run _ _ (straight_invariant documentParse depth spawned) history transport
    (Runs.throughout_each _ _ _ history fun step member _ => typed step member) ran

theorem Straight.opened {transport : SenderTransport}
    (straight : Straight previewBitstreamLength transport)
    (some : transport.control.peers ≠ []) : transport.closed = false := by
  cases closed : transport.closed with
  | false => rfl
  | true => exact absurd (straight.gone closed) some

/-- While a sender has peers, what it has written of a type but audio is among its
broadcasts, in their order. -/
theorem Straight.written_in_order {transport : SenderTransport}
    (straight : Straight previewBitstreamLength transport)
    (some : transport.control.peers ≠ []) (ft : FrameType) (kind : ft ≠ .audio) :
    (ofType ft transport.writtenWires).Sublist
      (transport.broadcasts.map (broadcastWire previewBitstreamLength)) := by
  have ordered := straight.order (straight.opened some) ft kind
  rw [InOrder, ofType_append] at ordered
  exact (List.sublist_append_left _ _).trans ordered

/-- The sound that a queue has let through is among what it was offered. -/
theorem Straight.sound_in_order {transport : SenderTransport}
    (straight : Straight previewBitstreamLength transport)
    (some : transport.control.peers ≠ []) (queued : transport.depth ≠ 0) :
    (ofType .audio transport.writtenWires).Sublist (transport.outbound .audio).offered := by
  have ordered := straight.sound (straight.opened some) queued
  rw [InOrder, ofType_append] at ordered
  exact (List.sublist_append_left _ _).trans ordered
end Runs

end SenderTransport

end OpenMediaTransport
