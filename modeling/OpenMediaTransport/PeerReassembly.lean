import OpenMediaTransport.PeerControl

/-!
`ingest_peer_bytes` over a whole connection, for frames of every type. The cap is
tested before the frames in the buffer are taken out, so that what counts is the rest of
an unfinished frame and one read behind it.
-/

namespace OpenMediaTransport

open Framing Markup

/-- A well-formed frame on the wire: the parser takes its bytes, and takes all of them. -/
structure WireFrame where
  bytes : List UInt8
  frame : AssembledFrame
  parses : AssembledFrame.fromBytes bytes = .ok frame
  exact : bytes.length = headerSize + frame.header.dataLength.toNatClampNeg

namespace WireFrame

def ofFormed (frame : AssembledFrame) (formed : frame.WellFormed) : WireFrame where
  bytes := frame.toBytes
  frame := frame
  parses := by
    have back := AssembledFrame.fromBytes_written frame [] formed
    rwa [List.append_nil] at back
  exact := by
    rw [AssembledFrame.toBytes, List.length_append, FrameHeader.toBytes_length, formed.size]

/-- The XML of a frame: its data if it is a METADATA frame, else its metadata. -/
def xml (wire : WireFrame) : Option (List Char) :=
  (if wire.frame.header.frameType.contains .metadata then decodeMetadataXml wire.frame.data
    else decodeMetadataXml wire.frame.metadata).toOption

variable (wire : WireFrame)

theorem whole : Whole peerDecoder wire.bytes wire.bytes := by
  obtain ⟨bytes, frame, parses, exact⟩ := wire
  have formed := (AssembledFrame.fromBytes_accepted bytes frame parses).1
  have known : peerTotal bytes = some bytes.length := by
    unfold AssembledFrame.fromBytes at parses
    rw [peerTotal]
    cases read : FrameHeader.fromBytes bytes with
    | error error =>
        rw [read] at parses
        cases parses
    | ok header =>
        rw [read] at parses
        dsimp only at parses ⊢
        split at parses
        · cases parses
        rename_i positive
        split at parses
        · cases parses
        have same := (AssembledFrame.ofBody_accepted _ _ _ parses).1
        rw [if_neg positive, exact, same]
  change inspectPeer bytes = _
  rw [inspectPeer, if_neg (by omega), known]
  dsimp only
  rw [if_neg (Nat.lt_irrefl _), List.take_length]

theorem ingested {σ : Type} (apply : σ → List Char → σ) (state : σ) :
    ingestFrame apply state wire.bytes = (wire.xml.map (apply state)).getD state := by
  rw [ingestFrame, wire.parses, xml]
  dsimp only
  cases (if wire.frame.header.frameType.contains .metadata then decodeMetadataXml wire.frame.data
    else decodeMetadataXml wire.frame.metadata) with
  | ok text => rfl
  | error _ => rfl

end WireFrame

theorem ingestLog_texts {σ : Type} (apply : σ → List Char → σ) (state : σ)
    (frames : List WireFrame) :
    ingestLog apply state ((frames.map WireFrame.bytes).map .item) =
      (frames.filterMap WireFrame.xml).foldl apply state := by
  induction frames generalizing state with
  | nil => rfl
  | cons wire rest ih =>
      rw [List.map_cons, List.map_cons, ingestLog, ih, wire.ingested]
      cases text : wire.xml with
      | none => rw [List.filterMap_cons_none text]; rfl
      | some xml => rw [List.filterMap_cons_some text]; rfl

/-- Every frame's XML is applied once and in order, and nothing stays in the buffer. -/
theorem reassembly_complete (documentParse : List Char → Except String XmlNode)
    (frames : List WireFrame)
    (small : ∀ wire ∈ frames, wire.bytes.length ≤ peerInboundCap - 8191)
    (reads : List (List UInt8)) (cut : reads.flatten = (frames.map WireFrame.bytes).flatten)
    (sized : ∀ data ∈ reads, 1 ≤ data.length ∧ data.length ≤ 8192) (state : PeerState) :
    ingestReads (applyMetadata documentParse) state [] reads =
      ((frames.filterMap WireFrame.xml).foldl (applyMetadata documentParse) state, []) := by
  have control : ∀ bytes ∈ frames.map WireFrame.bytes, ControlFrame bytes := by
    intro bytes member
    obtain ⟨wire, inside, rfl⟩ := List.mem_map.mp member
    exact ⟨wire.whole, small wire inside⟩
  have nothing := drain_wait peerDecoder [] rfl
  have read := ingestReads_control (applyMetadata documentParse) (frames.map WireFrame.bytes) control
    state reads [] [] (by rw [List.nil_append, List.append_nil, cut])
    (fun data member => (sized data member).2)
  have items := drain_frames peerDecoder (frames.map WireFrame.bytes) []
    (fun bytes inside => (control bytes inside).whole) rfl
  rw [List.append_nil] at items
  rw [nothing, List.nil_append, cut, items, ingestLog_texts] at read
  exact read

def tallyFrame : AssembledFrame where
  header := ⟨protocolVersion, .metadata, 0, 0, .ofNat (Utf8.encode tallyPreview).length⟩
  video := none
  audio := none
  data := Utf8.encode tallyPreview
  metadata := []

theorem tallyFrame_formed : tallyFrame.WellFormed := by
  constructor <;> decide

theorem reassembly_complete_split :
    ingestReads (applyMetadata fun _ => .error "") {} []
        [tallyFrame.toBytes.take 8, tallyFrame.toBytes.drop 8] = ({ tally := ⟨1, 0⟩ }, []) :=
  (reassembly_complete (fun _ => .error "") [.ofFormed tallyFrame tallyFrame_formed]
    (by decide +kernel) _ (by decide +kernel) (by decide +kernel) {}).trans (by decide +kernel)

end OpenMediaTransport
