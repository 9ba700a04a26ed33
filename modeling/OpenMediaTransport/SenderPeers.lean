import OpenMediaTransport.FrameRoundTrip

/-!
The peer map of `send.rs` and `write_peers`. A peer's TCP stream is the record
of the writes made to it: what was to be sent and how many bytes the socket had
taken when the call returned. `std` promises nothing about that number after an
error, so a failed write may have taken any front of its buffer.

The timeouts decide only when a write fails, and the map's iteration order does
not matter to a peer; neither is modelled. `vmx::preview_bitstream_length` is a
parameter.
-/

namespace OpenMediaTransport

structure PeerState where
  video : Bool := false
  audio : Bool := false
  metadata : Bool := false
  preview : Bool := false
  quality : Quality := .default
  tally : Tally := {}
  deriving DecidableEq, Repr

/-- One `write_all`: its buffer, and how much of it the socket took. -/
structure Delivery where
  bytes : List UInt8
  handed : Nat
  deriving DecidableEq

def Delivery.delivered (written : Delivery) : List UInt8 := written.bytes.take written.handed

structure Peer where
  stream : List Delivery
  state : PeerState
  inbound : List UInt8
  deriving DecidableEq

/-- How `write_all` comes back. -/
inductive WriteOutcome where
  | ok
  | failed (kind : ErrorKind) (handed : Nat)
  deriving DecidableEq

def WriteOutcome.handed (bytes : List UInt8) : WriteOutcome → Nat
  | .ok => bytes.length
  | .failed _ handed => handed

/-- `TimedOut`, `WouldBlock` and `Interrupted` leave the peer in the map. -/
def WriteOutcome.fatal : WriteOutcome → Bool
  | .ok => false
  | .failed .timedOut _ => false
  | .failed .wouldBlock _ => false
  | .failed .interrupted _ => false
  | .failed .other _ => true

def Peer.writeAll (peer : Peer) (bytes : List UInt8) (outcome : WriteOutcome) : Peer :=
  { peer with stream := peer.stream ++ [⟨bytes, outcome.handed bytes⟩] }

structure WireBytes where
  ft : FrameType
  full : List UInt8
  preview : Option (List UInt8)

def peerWants (state : PeerState) (ft : FrameType) : Bool :=
  if ft.contains .metadata && !ft.contains .video && !ft.contains .audio then true
  else if ft.contains .video then state.video
  else if ft.contains .audio then state.audio
  else true

def WireBytes.bytesFor (wire : WireBytes) (state : PeerState) : List UInt8 :=
  if wire.ft.contains .video && state.preview then wire.preview.getD wire.full else wire.full

/-- The pass over the map: the peers after their writes, and the dead among them. -/
def writeLoop (wire : WireBytes) (outcome : Nat → WriteOutcome) :
    List (Nat × Peer) → List (Nat × Peer) × List Nat
  | [] => ([], [])
  | (id, peer) :: rest =>
      let tail := writeLoop wire outcome rest
      if !peerWants peer.state wire.ft then ((id, peer) :: tail.1, tail.2)
      else
        let written := peer.writeAll (wire.bytesFor peer.state) (outcome id)
        if (outcome id).fatal then ((id, written) :: tail.1, id :: tail.2)
        else ((id, written) :: tail.1, tail.2)

def writePeers (wire : WireBytes) (outcome : Nat → WriteOutcome) (peers : List (Nat × Peer)) :
    List (Nat × Peer) :=
  let looped := writeLoop wire outcome peers
  looped.1.filter fun entry => !looped.2.contains entry.1

section Preview
variable (previewBitstreamLength : List UInt8 → Option Nat)

def previewVideoBytes (frame : AssembledFrame) : Option (List UInt8) :=
  match frame.video with
  | none => none
  | some video =>
      if video.codec ≠ .vmx1 then none
      else match previewBitstreamLength frame.data with
        | none => none
        | some previewLen =>
            if previewLen = 0 ∨ frame.data.length < previewLen then none
            else
              let video := { video with flags := ⟨video.flags.bits ||| VideoFlags.preview.bits⟩ }
              let header := { frame.header with
                dataLength := .ofNat (videoExtHeaderSize + previewLen + frame.metadata.length) }
              some (header.toBytes ++ (video.toBytes ++
                (frame.data.take previewLen ++ frame.metadata)))

def broadcastWire (frame : AssembledFrame) : WireBytes where
  ft := frame.header.frameType
  full := frame.toBytes
  preview :=
    if frame.header.frameType.contains .video then previewVideoBytes previewBitstreamLength frame
    else none

def enqueuedWire (frame : AssembledFrame) : WireBytes where
  ft := frame.header.frameType
  full := frame.toBytes
  preview := none

/-- The frame whose serialization the preview variant is. -/
def previewFrame (frame : AssembledFrame) (video : VideoHeader) (previewLen : Nat) :
    AssembledFrame where
  header := { frame.header with
    dataLength := .ofNat (videoExtHeaderSize + previewLen + frame.metadata.length) }
  video := some { video with flags := ⟨video.flags.bits ||| VideoFlags.preview.bits⟩ }
  audio := none
  data := frame.data.take previewLen
  metadata := frame.metadata

theorem preview_serialized (frame : AssembledFrame) (bytes : List UInt8)
    (built : previewVideoBytes previewBitstreamLength frame = some bytes) :
    ∃ video previewLen, frame.video = some video ∧ video.codec = .vmx1 ∧
      previewBitstreamLength frame.data = some previewLen ∧ 0 < previewLen ∧
      previewLen ≤ frame.data.length ∧ bytes = (previewFrame frame video previewLen).toBytes := by
  unfold previewVideoBytes at built
  split at built
  · cases built
  rename_i video present
  split at built
  · cases built
  rename_i vmx1
  split at built
  · cases built
  rename_i previewLen known
  split at built
  · cases built
  rename_i inside
  cases built
  refine ⟨video, previewLen, present, by simpa using vmx1, known, by omega, by omega, ?_⟩
  rw [AssembledFrame.toBytes, AssembledFrame.extBytes]
  simp only [previewFrame, Option.map_some, Option.map_none, Option.getD_some, Option.getD_none,
    List.append_nil]

theorem broadcast_serialized (frame : AssembledFrame) (state : PeerState) :
    ∃ sent : AssembledFrame,
      (broadcastWire previewBitstreamLength frame).bytesFor state = sent.toBytes := by
  unfold WireBytes.bytesFor broadcastWire
  dsimp only
  split
  · rename_i asked
    rw [if_pos (Bool.and_eq_true_iff.mp asked).1]
    cases built : previewVideoBytes previewBitstreamLength frame with
    | none => exact ⟨frame, rfl⟩
    | some bytes =>
        obtain ⟨video, previewLen, _, _, _, _, _, same⟩ :=
          preview_serialized previewBitstreamLength frame bytes built
        exact ⟨previewFrame frame video previewLen, same⟩
  · exact ⟨frame, rfl⟩

theorem enqueued_serialized (frame : AssembledFrame) (state : PeerState) :
    ∃ sent : AssembledFrame, (enqueuedWire frame).bytesFor state = sent.toBytes := by
  refine ⟨frame, ?_⟩
  unfold WireBytes.bytesFor enqueuedWire
  split <;> rfl
end Preview

theorem writeLoop_entry (wire : WireBytes) (outcome : Nat → WriteOutcome)
    (peers : List (Nat × Peer)) (id : Nat) (after : Peer)
    (member : (id, after) ∈ (writeLoop wire outcome peers).1)
    (alive : id ∉ (writeLoop wire outcome peers).2) :
    ∃ before : Peer, (id, before) ∈ peers ∧
      ((peerWants before.state wire.ft = false ∧ after = before) ∨
        (peerWants before.state wire.ft = true ∧ (outcome id).fatal = false ∧
          after = before.writeAll (wire.bytesFor before.state) (outcome id))) := by
  induction peers with
  | nil => cases member
  | cons head rest ih =>
      obtain ⟨first, peer⟩ := head
      rw [writeLoop] at member alive
      cases wants : peerWants peer.state wire.ft with
      | false =>
          simp only [wants, Bool.not_false, if_pos] at member alive
          rcases List.mem_cons.mp member with same | later
          · cases same
            exact ⟨_, List.mem_cons_self, Or.inl ⟨wants, rfl⟩⟩
          · obtain ⟨before, listed, step⟩ := ih later alive
            exact ⟨before, List.mem_cons_of_mem _ listed, step⟩
      | true =>
          simp only [wants, Bool.not_true, Bool.false_eq_true, if_false] at member alive
          cases dead : (outcome first).fatal with
          | true =>
              simp only [dead, if_true] at member alive
              rcases List.mem_cons.mp member with same | later
              · cases same
                exact absurd List.mem_cons_self alive
              · obtain ⟨before, listed, step⟩ :=
                  ih later (fun member => alive (List.mem_cons_of_mem _ member))
                exact ⟨before, List.mem_cons_of_mem _ listed, step⟩
          | false =>
              simp only [dead, Bool.false_eq_true, if_false] at member alive
              rcases List.mem_cons.mp member with same | later
              · cases same
                exact ⟨_, List.mem_cons_self, Or.inr ⟨wants, dead, rfl⟩⟩
              · obtain ⟨before, listed, step⟩ := ih later alive
                exact ⟨before, List.mem_cons_of_mem _ listed, step⟩

/-- Where a peer still in the map comes from: it was there before, and was
passed over or written to without a fatal error. -/
theorem writePeers_entry (wire : WireBytes) (outcome : Nat → WriteOutcome)
    (peers : List (Nat × Peer)) (id : Nat) (after : Peer)
    (member : (id, after) ∈ writePeers wire outcome peers) :
    ∃ before : Peer, (id, before) ∈ peers ∧
      ((peerWants before.state wire.ft = false ∧ after = before) ∨
        (peerWants before.state wire.ft = true ∧ (outcome id).fatal = false ∧
          after = before.writeAll (wire.bytesFor before.state) (outcome id))) := by
  obtain ⟨listed, alive⟩ := List.mem_filter.mp member
  exact writeLoop_entry wire outcome peers id after listed (by simpa using alive)

end OpenMediaTransport
