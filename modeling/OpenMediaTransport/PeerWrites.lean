import OpenMediaTransport.SenderPeers

/-!
What a peer of the sender receives over a whole run. Writers of all three kinds
take the same lock, so a run is a sequence of `write_peers` calls with peers
joining, leaving and changing their subscriptions in between.

A write that fails softly may have handed over part of its frame, and `write_peers`
goes on using the peer; so does `add_peer`, however the greeting's write has ended. As
long as nothing more is handed to such a peer, the stream of every peer in the map is
a sequence of whole frames with at most the last one cut short. A peer whose write
failed otherwise may have got part of a frame too, but leaves the map.
-/

namespace OpenMediaTransport

def sent (stream : List Delivery) : List (List UInt8) := stream.map Delivery.bytes

def delivered (stream : List Delivery) : List UInt8 := (stream.map Delivery.delivered).flatten

/-- Part of the frame went out, and part did not. -/
def Delivery.Cut (written : Delivery) : Prop :=
  written.delivered ≠ [] ∧ written.delivered ≠ written.bytes

def Torn (stream : List Delivery) : Prop := ∃ written ∈ stream, written.Cut

/-- Whole frames in the order they were sent, the last one possibly truncated. -/
def WholeThenCut (sent : List (List UInt8)) (delivered : List UInt8) : Prop :=
  ∃ whole cut, delivered = whole.flatten ++ cut ∧
    ((cut = [] ∧ whole.Sublist sent) ∨ ∃ last, cut <+: last ∧ (whole ++ [last]).Sublist sent)

/-- Nothing is delivered after a cut write. -/
def Orderly : List Delivery → Prop
  | [] => True
  | written :: rest =>
      (written.Cut → ∀ later ∈ rest, later.delivered = []) ∧ Orderly rest

theorem silent_delivered (stream : List Delivery)
    (silent : ∀ written ∈ stream, written.delivered = []) : delivered stream = [] := by
  unfold delivered
  apply List.flatten_eq_nil_iff.mpr
  intro bytes member
  obtain ⟨written, listed, rfl⟩ := List.mem_map.mp member
  exact silent written listed

theorem orderly_whole (stream : List Delivery) (orderly : Orderly stream) :
    WholeThenCut (sent stream) (delivered stream) := by
  induction stream with
  | nil => exact ⟨[], [], rfl, Or.inl ⟨rfl, List.Sublist.refl []⟩⟩
  | cons written rest ih =>
      obtain ⟨cutLast, tail⟩ := orderly
      have step : delivered (written :: rest) = written.delivered ++ delivered rest := rfl
      by_cases silent : written.delivered = []
      · rw [step, silent]
        obtain ⟨whole, cut, split, shape⟩ := ih tail
        refine ⟨whole, cut, split, ?_⟩
        rcases shape with ⟨none, listed⟩ | ⟨last, front, listed⟩
        · exact Or.inl ⟨none, listed.cons _⟩
        · exact Or.inr ⟨last, front, listed.cons _⟩
      by_cases complete : written.delivered = written.bytes
      · rw [step, complete]
        obtain ⟨whole, cut, split, shape⟩ := ih tail
        refine ⟨written.bytes :: whole, cut, by rw [split, List.flatten_cons, List.append_assoc], ?_⟩
        rcases shape with ⟨none, listed⟩ | ⟨last, front, listed⟩
        · exact Or.inl ⟨none, listed.cons_cons _⟩
        · exact Or.inr ⟨last, front, listed.cons_cons _⟩
      · have quiet := silent_delivered rest (cutLast ⟨silent, complete⟩)
        rw [step, quiet, List.append_nil]
        refine ⟨[], written.delivered, rfl, Or.inr ⟨written.bytes, List.take_prefix _ _, ?_⟩⟩
        exact List.singleton_sublist.mpr List.mem_cons_self

theorem orderly_write (stream : List Delivery) (written : Delivery) :
    Orderly (stream ++ [written]) ↔
      Orderly stream ∧ (Torn stream → written.delivered = []) := by
  induction stream with
  | nil =>
      simp [Orderly, Torn]
  | cons first rest ih =>
      rw [List.cons_append, Orderly, Orderly, ih]
      constructor
      · rintro ⟨cutLast, tail, quiet⟩
        refine ⟨⟨fun cut later member => cutLast cut later (List.mem_append_left _ member), tail⟩, ?_⟩
        rintro ⟨torn, member, cut⟩
        rcases List.mem_cons.mp member with rfl | later
        · exact cutLast cut written (List.mem_append_right _ List.mem_cons_self)
        · exact quiet ⟨torn, later, cut⟩
      · rintro ⟨⟨cutLast, tail⟩, quiet⟩
        refine ⟨?_, tail, fun ⟨torn, member, cut⟩ => quiet ⟨torn, List.mem_cons_of_mem _ member, cut⟩⟩
        intro cut later member
        rcases List.mem_append.mp member with inside | last
        · exact cutLast cut later inside
        · rw [List.mem_singleton.mp last]
          exact quiet ⟨first, List.mem_cons_self, cut⟩

/-! Runs of the peer map. -/

inductive PeerStep where
  | accept (id : Nat) (info : Option AssembledFrame) (outcome : WriteOutcome)
  | control (id : Nat) (state : PeerState) (inbound : List UInt8)
  | remove (id : Nat)
  | broadcast (frame : AssembledFrame) (outcome : Nat → WriteOutcome)
  | enqueued (frame : AssembledFrame) (outcome : Nat → WriteOutcome)

/-- Part of the bytes were handed over, and part not. -/
def WriteOutcome.parts (bytes : List UInt8) (outcome : WriteOutcome) : Bool :=
  0 < outcome.handed bytes && outcome.handed bytes < bytes.length

section Runs
variable (previewBitstreamLength : List UInt8 → Option Nat)

/-- A new peer: `add_peer` ignores how the write of the sender's info ended. -/
def acceptedPeer (info : Option AssembledFrame) (outcome : WriteOutcome) : Peer :=
  match info with
  | none => ⟨[], {}, []⟩
  | some frame => Peer.writeAll ⟨[], {}, []⟩ frame.toBytes outcome

def peerStep (peers : List (Nat × Peer)) : PeerStep → List (Nat × Peer)
  | .accept id info outcome =>
      (id, acceptedPeer info outcome) :: peers.filter fun entry => entry.1 != id
  | .control id state inbound =>
      peers.map fun entry =>
        if entry.1 = id then (entry.1, { entry.2 with state, inbound }) else entry
  | .remove id => peers.filter fun entry => entry.1 != id
  | .broadcast frame outcome =>
      writePeers (broadcastWire previewBitstreamLength frame) outcome peers
  | .enqueued frame outcome => writePeers (enqueuedWire frame) outcome peers

def peerRun (peers : List (Nat × Peer)) : List PeerStep → List (Nat × Peer)
  | [] => peers
  | step :: rest => peerRun (peerStep previewBitstreamLength peers step) rest

/-- The peers that a write keeps, by its outcomes, although it has handed them only part of
their bytes. -/
def cutShort (peers : List (Nat × Peer)) (wire : WireBytes) (outcome : Nat → WriteOutcome) :
    List Nat :=
  (peers.filter fun entry => peerWants entry.2.state wire.ft && !(outcome entry.1).fatal &&
    (outcome entry.1).parts (wire.bytesFor entry.2.state)).map Prod.fst

/-- Who has been cut short since it was accepted. -/
def stall (peers : List (Nat × Peer)) (stalled : List Nat) : PeerStep → List Nat
  | .accept id info outcome =>
      (if info.any fun frame => outcome.parts frame.toBytes then [id] else []) ++
        stalled.filter (· != id)
  | .broadcast frame outcome =>
      cutShort peers (broadcastWire previewBitstreamLength frame) outcome ++ stalled
  | .enqueued frame outcome => cutShort peers (enqueuedWire frame) outcome ++ stalled
  | .control _ _ _ => stalled
  | .remove _ => stalled

/-- To a peer that was cut short, no write that keeps it hands anything more. -/
def SafeWrite (stalled : List Nat) (peers : List (Nat × Peer)) (wire : WireBytes)
    (outcome : Nat → WriteOutcome) : Prop :=
  ∀ id peer, (id, peer) ∈ peers → peerWants peer.state wire.ft = true → id ∈ stalled →
    (outcome id).fatal = false → (outcome id).handed (wire.bytesFor peer.state) = 0

def SafeStep (stalled : List Nat) (peers : List (Nat × Peer)) : PeerStep → Prop
  | .broadcast frame outcome =>
      SafeWrite stalled peers (broadcastWire previewBitstreamLength frame) outcome
  | .enqueued frame outcome => SafeWrite stalled peers (enqueuedWire frame) outcome
  | _ => True

def SafeRun (stalled : List Nat) (peers : List (Nat × Peer)) : List PeerStep → Prop
  | [] => True
  | step :: rest =>
      SafeStep previewBitstreamLength stalled peers step ∧
        SafeRun (stall previewBitstreamLength peers stalled step)
          (peerStep previewBitstreamLength peers step) rest

/-- A peer's stream is orderly and holds only serialized frames. -/
def GoodPeer (peer : Peer) : Prop :=
  Orderly peer.stream ∧ ∀ bytes ∈ sent peer.stream, ∃ frame : AssembledFrame, bytes = frame.toBytes

/-- All streams are, and those with a cut are of peers that were cut short. -/
def GoodPeers (stalled : List Nat) (peers : List (Nat × Peer)) : Prop :=
  ∀ entry ∈ peers, GoodPeer entry.2 ∧ (Torn entry.2.stream → entry.1 ∈ stalled)

theorem good_write (peer : Peer) (frame : AssembledFrame) (outcome : WriteOutcome)
    (good : GoodPeer peer) (quiet : Torn peer.stream → outcome.handed frame.toBytes = 0) :
    GoodPeer (peer.writeAll frame.toBytes outcome) := by
  constructor
  · apply (orderly_write peer.stream _).mpr
    refine ⟨good.1, ?_⟩
    intro torn
    rw [Delivery.delivered, quiet torn, List.take_zero]
  · intro bytes member
    rw [sent, Peer.writeAll, List.map_append] at member
    rcases List.mem_append.mp member with before | last
    · exact good.2 bytes before
    · exact ⟨frame, List.mem_singleton.mp last⟩

theorem torn_write (peer : Peer) (bytes : List UInt8) (outcome : WriteOutcome)
    (torn : Torn (peer.writeAll bytes outcome).stream) :
    Torn peer.stream ∨ outcome.parts bytes = true := by
  obtain ⟨written, member, cut⟩ := torn
  rcases List.mem_append.mp member with before | last
  · exact .inl ⟨written, before, cut⟩
  · cases List.mem_singleton.mp last
    refine .inr (Bool.and_eq_true_iff.mpr ⟨decide_eq_true ?_, decide_eq_true ?_⟩)
    · refine Nat.pos_of_ne_zero fun none => cut.1 ?_
      rw [Delivery.delivered, none, List.take_zero]
    · exact Nat.lt_of_not_le fun all => cut.2 (List.take_of_length_le all)

theorem good_writePeers (stalled : List Nat) (peers : List (Nat × Peer)) (wire : WireBytes)
    (outcome : Nat → WriteOutcome)
    (serialized : ∀ state, ∃ frame : AssembledFrame, wire.bytesFor state = frame.toBytes)
    (safe : SafeWrite stalled peers wire outcome) (good : GoodPeers stalled peers) :
    GoodPeers (cutShort peers wire outcome ++ stalled) (writePeers wire outcome peers) := by
  rintro ⟨id, after⟩ member
  -- A peer whose write was fatal is not among them, whatever it was handed.
  obtain ⟨before, listed, passed | ⟨wants, alive, written⟩⟩ :=
    writePeers_entry wire outcome peers id after member
  · rw [passed.2]
    obtain ⟨orderly, known⟩ := good (id, before) listed
    exact ⟨orderly, fun torn => List.mem_append_right _ (known torn)⟩
  · obtain ⟨orderly, known⟩ := good (id, before) listed
    obtain ⟨frame, same⟩ := serialized before.state
    have quiet (torn : Torn before.stream) := safe id before listed wants (known torn) alive
    rw [written]
    constructor
    · rw [same] at quiet ⊢
      exact good_write before frame (outcome id) orderly quiet
    · intro torn
      rcases torn_write before _ (outcome id) torn with earlier | parts
      · exact List.mem_append_right _ (known earlier)
      · refine List.mem_append_left _ (List.mem_map.mpr ⟨(id, before), ?_, rfl⟩)
        refine List.mem_filter.mpr ⟨listed, ?_⟩
        rw [wants, alive, parts]
        rfl

theorem good_accepted (info : Option AssembledFrame) (outcome : WriteOutcome) :
    GoodPeer (acceptedPeer info outcome) ∧ (Torn (acceptedPeer info outcome).stream →
      info.any (fun frame => outcome.parts frame.toBytes) = true) := by
  have fresh : GoodPeer ⟨[], {}, []⟩ := ⟨trivial, fun _ member => absurd member List.not_mem_nil⟩
  have whole : ¬ Torn [] := fun ⟨_, member, _⟩ => absurd member List.not_mem_nil
  cases info with
  | none => exact ⟨fresh, fun torn => absurd torn whole⟩
  | some frame =>
      exact ⟨good_write _ frame outcome fresh fun torn => absurd torn whole,
        fun torn => (torn_write _ _ outcome torn).resolve_left whole⟩

theorem good_step (stalled : List Nat) (peers : List (Nat × Peer)) (step : PeerStep)
    (safe : SafeStep previewBitstreamLength stalled peers step) (good : GoodPeers stalled peers) :
    GoodPeers (stall previewBitstreamLength peers stalled step)
      (peerStep previewBitstreamLength peers step) := by
  cases step with
  | accept id info outcome =>
      intro entry member
      rcases List.mem_cons.mp member with rfl | other
      · obtain ⟨orderly, known⟩ := good_accepted info outcome
        refine ⟨orderly, fun torn => List.mem_append_left _ ?_⟩
        rw [if_pos (known torn)]
        exact List.mem_singleton.mpr rfl
      · obtain ⟨listed, apart⟩ := List.mem_filter.mp other
        obtain ⟨orderly, known⟩ := good entry listed
        exact ⟨orderly, fun torn =>
          List.mem_append_right _ (List.mem_filter.mpr ⟨known torn, apart⟩)⟩
  | control id state inbound =>
      intro entry member
      obtain ⟨before, listed, rfl⟩ := List.mem_map.mp member
      dsimp only
      split
      · exact good before listed
      · exact good before listed
  | remove id =>
      intro entry member
      exact good entry (List.mem_filter.mp member).1
  | broadcast frame outcome =>
      exact good_writePeers stalled peers _ outcome
        (broadcast_serialized previewBitstreamLength frame) safe good
  | enqueued frame outcome =>
      exact good_writePeers stalled peers _ outcome (enqueued_serialized frame) safe good

theorem good_run (steps : List PeerStep) (stalled : List Nat) (peers : List (Nat × Peer))
    (safe : SafeRun previewBitstreamLength stalled peers steps) (good : GoodPeers stalled peers) :
    ∀ entry ∈ peerRun previewBitstreamLength peers steps, GoodPeer entry.2 := by
  induction steps generalizing stalled peers with
  | nil => exact fun entry member => (good entry member).1
  | cons step rest ih =>
      exact ih _ _ safe.2 (good_step previewBitstreamLength stalled peers step safe.1 good)

/-- In every run in which no peer is handed anything more once a write that kept it has handed
it only part of a frame, each peer still in the map has received whole serialized frames, the
last one possibly truncated. -/
theorem peer_streams_whole (steps : List PeerStep)
    (safe : SafeRun previewBitstreamLength [] [] steps) :
    ∀ entry ∈ peerRun previewBitstreamLength [] steps,
      WholeThenCut (sent entry.2.stream) (delivered entry.2.stream) ∧
        ∀ bytes ∈ sent entry.2.stream, ∃ frame : AssembledFrame, bytes = frame.toBytes := by
  intro entry member
  have good := good_run previewBitstreamLength steps [] [] safe
    (fun _ none => absurd none List.not_mem_nil) entry member
  exact ⟨orderly_whole entry.2.stream good.1, good.2⟩
end Runs

def emptyMetadataFrame : AssembledFrame := ⟨⟨1, .metadata, 0, 0, 0⟩, none, none, [], []⟩

def timeoutSteps : List PeerStep :=
  [.accept 1 none .ok, .accept 2 none .ok, .enqueued emptyMetadataFrame fun _ => .ok,
    .enqueued emptyMetadataFrame fun id =>
      if id = 1 then .failed .timedOut 3 else .failed .other 5,
    .accept 2 none .ok,
    .enqueued emptyMetadataFrame fun id => if id = 1 then .failed .wouldBlock 0 else .ok]

theorem timeoutSteps_safe : SafeRun (fun _ => none) [] [] timeoutSteps := by
  refine ⟨trivial, trivial, ?_, ?_, trivial, ?_, trivial⟩
  · exact fun id peer _ _ cut _ => absurd cut List.not_mem_nil
  · exact fun id peer _ _ cut _ => absurd cut List.not_mem_nil
  · intro id peer member _ cut _
    have first : id = 1 := List.mem_singleton.mp cut
    rw [first]
    rfl

theorem peer_streams_whole_timeout :
    (peerRun (fun _ => none) [] timeoutSteps).map (fun entry => sent entry.2.stream) =
        [[emptyMetadataFrame.toBytes], List.replicate 3 emptyMetadataFrame.toBytes] ∧
      ∀ entry ∈ peerRun (fun _ => none) [] timeoutSteps,
        WholeThenCut (sent entry.2.stream) (delivered entry.2.stream) ∧
          ∀ bytes ∈ sent entry.2.stream, ∃ frame : AssembledFrame, bytes = frame.toBytes :=
  ⟨rfl, peer_streams_whole _ timeoutSteps timeoutSteps_safe⟩

def tornSteps : List PeerStep :=
  [.accept 1 none .ok, .enqueued emptyMetadataFrame fun _ => .failed .timedOut 1,
    .enqueued emptyMetadataFrame fun _ => .ok]

theorem torn_stream : ∃ entry ∈ peerRun (fun _ => none) [] tornSteps,
    ¬ WholeThenCut (sent entry.2.stream) (delivered entry.2.stream) := by
  refine ⟨_, List.mem_cons_self, ?_⟩
  change ¬ WholeThenCut [emptyMetadataFrame.toBytes, emptyMetadataFrame.toBytes]
    (1 :: emptyMetadataFrame.toBytes)
  rintro ⟨whole, cut, split, shape⟩
  -- One byte of the first frame has gone out, and then the whole second one.
  have same : ∀ frame ∈ [emptyMetadataFrame.toBytes, emptyMetadataFrame.toBytes],
      frame = emptyMetadataFrame.toBytes := by simp
  have listed : ∀ frame ∈ whole, frame = emptyMetadataFrame.toBytes := by
    intro frame member
    rcases shape with ⟨_, below⟩ | ⟨last, _, below⟩
    · exact same frame (below.subset member)
    · exact same frame (below.subset (List.mem_append_left _ member))
  cases whole with
  | nil =>
      rcases shape with ⟨rfl, _⟩ | ⟨last, front, below⟩
      · cases split
      · have size := front.length_le
        rw [same last (below.subset (List.mem_append_right _ List.mem_cons_self))] at size
        rw [List.flatten_nil, List.nil_append] at split
        rw [← split] at size
        revert size
        decide
  | cons first rest =>
      rw [listed first List.mem_cons_self, List.flatten_cons, List.append_assoc] at split
      have front := congrArg (List.take 16) split
      rw [List.take_left' (by decide)] at front
      revert front
      decide

end OpenMediaTransport
