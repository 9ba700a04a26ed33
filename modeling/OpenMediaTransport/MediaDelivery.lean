import OpenMediaTransport.Provenance
import OpenMediaTransport.SenderControl

/-!
Which peer is sent what. A peer's subscriptions are those of the documents that have
arrived from it, and `write_peers` goes by them: media reach a peer if and only if it has
asked for them, and in the variant it has asked for. This holds as long as the application
does not mark peers by itself (`force_subscribe`, `enable_audio_output`, `force_preview`).
-/

namespace OpenMediaTransport

open Framing

/-- Whether documents ask for frames of that type. -/
def asksFor (items : List Metadata) (ft : FrameType) : Bool :=
  if ft.contains .metadata && !ft.contains .video && !ft.contains .audio then true
  else if ft.contains .video then items.any asksVideo
  else if ft.contains .audio then items.any asksAudio
  else true

/-- The serialization that documents ask for. -/
def variantFor (items : List Metadata) (wire : WireBytes) : List UInt8 :=
  if wire.ft.contains .video && latest previewSetting false items then
    wire.preview.getD wire.full
  else wire.full

theorem peerWants_asksFor (items : List Metadata) (ft : FrameType) :
    peerWants (items.foldl applyItem {}) ft = asksFor items ft := by
  rw [applied_state]
  rfl

theorem bytesFor_variantFor (items : List Metadata) (wire : WireBytes) :
    wire.bytesFor (items.foldl applyItem {}) = variantFor items wire := by
  rw [applied_state]
  rfl

theorem asksFor_grows (items later : List Metadata) (ft : FrameType) (grown : items <+: later)
    (asks : asksFor items ft = true) : asksFor later ft = true := by
  obtain ⟨more, rfl⟩ := grown
  unfold asksFor at *
  rw [List.any_append, List.any_append]
  split_ifs at asks ⊢
  · rfl
  · rw [asks, Bool.true_or]
  · rw [asks, Bool.true_or]
  · rfl

theorem arrived_grows {α : Type} (frames : List (List α)) (count more : Nat) (grown : count ≤ more) :
    arrived frames count <+: arrived frames more := by
  induction frames generalizing count more with
  | nil => exact List.prefix_refl _
  | cons frame rest ih =>
      rw [arrived, arrived]
      by_cases long : frame.length ≤ count
      · rw [if_pos long, if_pos (Nat.le_trans long grown)]
        exact List.prefix_cons_inj frame |>.mpr (ih _ _ (Nat.sub_le_sub_right grown _))
      · rw [if_neg long]
        exact List.nil_prefix

section Documents
variable (documentParse : List Char → Except String Markup.XmlNode)
variable (sends : Nat → List (List UInt8))

theorem asked_grows (heard later : Nat → List UInt8) (id : Nat) (grown : heard id <+: later id) :
    asked documentParse sends heard id <+: asked documentParse sends later id := by
  obtain ⟨more, split⟩ := arrived_grows (sends id) _ _ grown.length_le
  unfold asked frameDocuments
  rw [← split, List.flatMap_append]
  exact List.prefix_append _ _

def wiresOf : List ControlStep → List WireBytes
  | [] => []
  | .write wire _ :: past => wiresOf past ++ [wire]
  | _ :: past => wiresOf past

theorem wiresOf_cons (step : ControlStep) (past : List ControlStep) :
    wiresOf (step :: past) = wiresOf past ++ wiresOf [step] := by
  cases step <;> simp [wiresOf]

/-- A frame that documents ask for, in one of its serializations. -/
def ServedAs (items : List Metadata) (wire : WireBytes) (delivery : Delivery) : Prop :=
  asksFor items wire.ft = true ∧ (delivery.bytes = wire.full ∨ wire.preview = some delivery.bytes)

/-- Behind its greeting the stream has only frames that were asked for, in order. -/
def Served (wires : List WireBytes) (items : List Metadata) (stream : List Delivery) : Prop :=
  ∃ greeting rest, stream = greeting ++ rest ∧ greeting.length ≤ 1 ∧
    Derived (ServedAs items) wires rest

theorem Served.later {wires : List WireBytes} {items later : List Metadata}
    {stream : List Delivery} (served : Served wires items stream) (more : List WireBytes)
    (grown : items <+: later) : Served (wires ++ more) later stream := by
  obtain ⟨greeting, rest, split, one, derived⟩ := served
  exact ⟨greeting, rest, split, one, (derived.skip more).imp fun wire _ as =>
    ⟨asksFor_grows items later wire.ft grown as.1, as.2⟩⟩

theorem variantFor_serialized (items : List Metadata) (wire : WireBytes) :
    variantFor items wire = wire.full ∨ wire.preview = some (variantFor items wire) := by
  unfold variantFor
  split
  · cases wire.preview with
    | none => exact .inl rfl
    | some bytes => exact .inr rfl
  · exact .inl rfl

theorem Served.write {wires : List WireBytes} {items : List Metadata} {peer : Peer}
    (served : Served wires items peer.stream) (state : peer.state = items.foldl applyItem {})
    (wire : WireBytes) (outcome : WriteOutcome) (wants : peerWants peer.state wire.ft = true) :
    Served (wires ++ [wire]) items (peer.writeAll (wire.bytesFor peer.state) outcome).stream := by
  obtain ⟨greeting, rest, split, one, derived⟩ := served
  rw [state, peerWants_asksFor] at wants
  rw [state, bytesFor_variantFor]
  refine ⟨greeting, rest ++ [⟨variantFor items wire, outcome.handed (variantFor items wire)⟩], ?_,
    one, derived.keep wire _ ⟨wants, variantFor_serialized items wire⟩⟩
  rw [Peer.writeAll, split, List.append_assoc]

theorem act_served (before after : ControlledSender) (heard : Nat → List UInt8)
    (step : ControlStep) (wires : List WireBytes)
    (states : ∀ entry ∈ before.peers,
      entry.2.state = (asked documentParse sends heard entry.1).foldl applyItem {})
    (acted : before.act documentParse step = some after)
    (served : ∀ entry ∈ before.peers,
      Served wires (asked documentParse sends heard entry.1) entry.2.stream) :
    ∀ entry ∈ after.peers, Served (wires ++ wiresOf [step])
      (asked documentParse sends (hear before heard step) entry.1) entry.2.stream := by
  have grown := fun id => asked_grows documentParse sends heard (hear before heard step) id
    (hear_grows before heard step id)
  cases step with
  | addPeer info outcome =>
      simp only [ControlledSender.act] at acted
      split at acted
      · cases acted
      cases acted
      intro entry member
      rcases List.mem_cons.mp member with rfl | old
      · refine ⟨(acceptedPeer info outcome).stream, [], (List.append_nil _).symm, ?_, .nil _⟩
        cases info with
        | none => exact Nat.zero_le 1
        | some frame => exact Nat.le_refl 1
      · exact (served entry old).later [] (grown entry.1)
  | setQuality quality =>
      simp only [ControlledSender.act] at acted
      split at acted
      · cases acted
      cases acted
      exact fun entry member => (served entry member).later [] (grown entry.1)
  | pollReads reads =>
      simp only [ControlledSender.act] at acted
      split at acted
      · cases acted
      cases acted
      rintro ⟨id, peer⟩ member
      obtain ⟨old, inside, rfl, polled⟩ := pollPeers_entry documentParse reads before.peers _ member
      have same : peer.stream = old.2.stream := by
        unfold pollPeer at polled
        split at polled <;> cases polled <;> rfl
      change Served _ _ peer.stream
      rw [same]
      exact (served old inside).later [] (grown old.1)
  | recompute order =>
      simp only [ControlledSender.act] at acted
      split at acted
      · cases acted
        exact fun entry member => (served entry member).later [] (grown entry.1)
      · cases acted
  | write wire outcome =>
      cases acted
      intro entry member
      obtain ⟨old, listed, cases⟩ := writePeers_entry wire outcome before.peers entry.1 entry.2 member
      have kept := served _ listed
      rcases cases with ⟨-, same⟩ | ⟨wants, -, written⟩
      · rw [same]
        exact kept.later [wire] (List.prefix_refl _)
      · rw [written]
        exact kept.write (states _ listed) wire (outcome entry.1) wants

variable (control : ∀ id, ∀ frame ∈ sends id, ControlFrame frame)
include control

theorem replay_served (history : List ControlStep) (sender : ControlledSender)
    (heard : Nat → List UInt8) (run : replayControl documentParse history = some (sender, heard))
    (fronts : ∀ id, heard id <+: (sends id).flatten) :
    ∀ entry ∈ sender.peers,
      Served (wiresOf history) (asked documentParse sends heard entry.1) entry.2.stream := by
  induction history generalizing sender heard with
  | nil =>
      cases run
      exact fun entry member => absurd member List.not_mem_nil
  | cons step past ih =>
      obtain ⟨⟨earlier, before⟩, ran, last⟩ := (Runs.replay_cons _ _ step past _).mp run
      obtain ⟨after, taken, same⟩ := Option.map_eq_some_iff.mp last
      cases same
      have front : ∀ id, before id <+: (sends id).flatten := fun id =>
        (hear_grows earlier before step id).trans (fronts id)
      have listening := replay_listening documentParse sends control past earlier before ran front
      have states := listening_states documentParse sends control earlier before front listening
      have next := act_served documentParse sends earlier sender before step (wiresOf past) states
        taken (ih earlier before ran front)
      rw [wiresOf_cons]
      exact next

end Documents

/-! A write reaches everyone who wants it. -/

section Writes
variable (wire : WireBytes) (outcome : Nat → WriteOutcome) (peers : List (Nat × Peer))

def passed (id : Nat) (peer : Peer) : Peer :=
  if peerWants peer.state wire.ft then peer.writeAll (wire.bytesFor peer.state) (outcome id)
  else peer

theorem writeLoop_passed (id : Nat) (peer : Peer) (member : (id, peer) ∈ peers) :
    (id, passed wire outcome id peer) ∈ (writeLoop wire outcome peers).1 := by
  induction peers with
  | nil => cases member
  | cons head rest ih =>
      obtain ⟨first, other⟩ := head
      rw [writeLoop]
      rcases List.mem_cons.mp member with same | later
      · cases same
        rw [passed]
        cases wants : peerWants peer.state wire.ft with
        | false => simp
        | true =>
            cases dead : (outcome id).fatal <;> simp
      · have inside := ih later
        cases wants : peerWants other.state wire.ft with
        | false => simp [inside]
        | true =>
            cases dead : (outcome first).fatal <;> simp [inside]

theorem writeLoop_dead (id : Nat) (dead : id ∈ (writeLoop wire outcome peers).2) :
    (outcome id).fatal = true := by
  induction peers with
  | nil => cases dead
  | cons head rest ih =>
      obtain ⟨first, other⟩ := head
      rw [writeLoop] at dead
      cases wants : peerWants other.state wire.ft with
      | false =>
          rw [wants] at dead
          exact ih dead
      | true =>
          cases fatal : (outcome first).fatal with
          | false =>
              simp only [wants, fatal, Bool.not_true, Bool.false_eq_true, if_false] at dead
              exact ih dead
          | true =>
              simp only [wants, fatal, Bool.not_true, Bool.false_eq_true, if_false,
                if_true] at dead
              rcases List.mem_cons.mp dead with rfl | later
              · exact fatal
              · exact ih later

theorem writePeers_stays (id : Nat) (peer : Peer) (member : (id, peer) ∈ peers)
    (alive : (outcome id).fatal = false) :
    (id, passed wire outcome id peer) ∈ writePeers wire outcome peers := by
  refine List.mem_filter.mpr ⟨writeLoop_passed wire outcome peers id peer member, ?_⟩
  have living : id ∉ (writeLoop wire outcome peers).2 := by
    intro dead
    rw [writeLoop_dead wire outcome peers id dead] at alive
    cases alive
  simpa using living

end Writes

/-- A peer whose state is that of these documents is handed a frame if they ask for it. -/
theorem writePeers_asked (items : List Metadata) (peers : List (Nat × Peer)) (wire : WireBytes)
    (outcome : Nat → WriteOutcome) (id : Nat) (peer : Peer) (member : (id, peer) ∈ peers)
    (state : peer.state = items.foldl applyItem {}) (alive : (outcome id).fatal = false) :
    (id, { peer with
      stream := peer.stream ++
        if asksFor items wire.ft then
          [⟨variantFor items wire, (outcome id).handed (variantFor items wire)⟩]
        else [] }) ∈ writePeers wire outcome peers := by
  have stays := writePeers_stays wire outcome peers id peer member alive
  rw [passed, state, peerWants_asksFor, bytesFor_variantFor] at stays
  cases wants : asksFor items wire.ft with
  | false =>
      rw [wants, if_neg Bool.false_ne_true] at stays
      rw [if_neg Bool.false_ne_true, List.append_nil]
      exact stays
  | true =>
      rw [wants, if_pos rfl] at stays
      exact stays

/-- Over a whole run a peer's stream holds, behind its greeting, only frames that it has
asked for, in the order in which they were written; and whoever has asked for a frame when
it is written gets it, in the variant asked for. -/
theorem media_delivered_iff_asked (documentParse : List Char → Except String Markup.XmlNode)
    (sends : Nat → List (List UInt8)) (control : ∀ id, ∀ frame ∈ sends id, ControlFrame frame)
    (history : List ControlStep) (sender : ControlledSender) (heard : Nat → List UInt8)
    (run : replayControl documentParse history = some (sender, heard))
    (fronts : ∀ id, heard id <+: (sends id).flatten) :
    (∀ entry ∈ sender.peers,
      Served (wiresOf history) (asked documentParse sends heard entry.1) entry.2.stream) ∧
    ∀ wire outcome, ∀ entry ∈ sender.peers, (outcome entry.1).fatal = false →
      let items := asked documentParse sends heard entry.1
      (entry.1, { entry.2 with
        stream := entry.2.stream ++
          if asksFor items wire.ft then
            [⟨variantFor items wire, (outcome entry.1).handed (variantFor items wire)⟩]
          else [] }) ∈ writePeers wire outcome sender.peers := by
  have listening := replay_listening documentParse sends control history sender heard run fronts
  have states := listening_states documentParse sends control sender heard fronts listening
  refine ⟨replay_served documentParse sends control history sender heard run fronts, ?_⟩
  intro wire outcome entry member alive
  exact writePeers_asked _ sender.peers wire outcome entry.1 entry.2 member (states entry member)
    alive

def servedRun : List ControlStep :=
  .write ⟨.video, [8, 9], some [8]⟩ (fun _ => .ok) ::
    .write ⟨.audio, [7], none⟩ (fun _ => .ok) :: polledRun

def servedSender : ControlledSender :=
  { polledTwice.joined with
    peers := writePeers ⟨.video, [8, 9], some [8]⟩ (fun _ => .ok)
      (writePeers ⟨.audio, [7], none⟩ (fun _ => .ok) polledTwice.joined.peers) }

theorem servedRun_replayed :
    replayControl Markup.readEmptyTag servedRun = some (servedSender, twiceHeard) := by
  have sound := (Runs.replay_cons (actHeard Markup.readEmptyTag) (.init, fun _ => [])
    (.write ⟨.audio, [7], none⟩ fun _ => .ok) polledRun _).mpr ⟨_, polledRun_replayed, rfl⟩
  exact (Runs.replay_cons _ _ _ _ _).mpr ⟨_, sound, rfl⟩

theorem media_delivered_iff_asked_served :
    (servedSender.peers.map fun entry => (entry.1, entry.2.stream)) =
        [(2, [⟨[8, 9], 2⟩]), (1, [⟨[7], 1⟩])] ∧
      (∀ entry ∈ servedSender.peers, Served (wiresOf servedRun)
        (asked Markup.readEmptyTag peerSends twiceHeard entry.1) entry.2.stream) ∧
      ∀ wire, ∀ entry ∈ servedSender.peers,
        let items := asked Markup.readEmptyTag peerSends twiceHeard entry.1
        (entry.1, { entry.2 with
          stream := entry.2.stream ++
            if asksFor items wire.ft then
              [⟨variantFor items wire, (variantFor items wire).length⟩]
            else [] }) ∈ writePeers wire (fun _ => .ok) servedSender.peers := by
  obtain ⟨served, handed⟩ := media_delivered_iff_asked Markup.readEmptyTag peerSends
    peerSends_control servedRun servedSender twiceHeard servedRun_replayed twiceHeard_front
  exact ⟨by decide +kernel, served, fun wire entry member =>
    handed wire (fun _ => .ok) entry member rfl⟩

end OpenMediaTransport
