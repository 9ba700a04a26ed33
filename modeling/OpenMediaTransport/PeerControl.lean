import OpenMediaTransport.MetadataAgreement
import OpenMediaTransport.MetadataXml
import OpenMediaTransport.SenderPeers

/-!
The control input of one peer. Frames up to a certain size never run into the cap
of the input buffer, so that the state of the peer is that of the frames that have
arrived, however they were cut into reads. A subscription once asked for stays; of
a setting the latest counts.
-/

namespace OpenMediaTransport

open Framing Markup

section Apply
variable (documentParse : List Char → Except String XmlNode)

/-- One arm of the loop in `apply_metadata`. -/
def applyItem (state : PeerState) : Metadata → PeerState
  | .subscribe video audio metadata =>
      { state with
        video := if video then true else state.video
        audio := if audio then true else state.audio
        metadata := if metadata then true else state.metadata }
  | .settings preview quality =>
      { state with
        preview := preview.getD state.preview
        quality := quality.getD state.quality }
  | .tally tally => { state with tally }
  | _ => state

def applyMetadata (state : PeerState) (xml : List Char) : PeerState :=
  (parseMetadata documentParse xml).foldl applyItem state

def frameDocuments (frames : List (List UInt8)) : List Metadata :=
  frames.flatMap fun frame =>
    (ingestFrame recordXml [] frame).flatMap (parseMetadata documentParse)

theorem ingestFrame_texts {σ : Type} (apply : σ → List Char → σ) (state : σ)
    (frame : List UInt8) :
    ingestFrame apply state frame = (ingestFrame recordXml [] frame).foldl apply state := by
  unfold ingestFrame
  cases AssembledFrame.fromBytes frame with
  | error _ => rfl
  | ok parsed =>
      dsimp only
      split <;> rfl

theorem ingestLog_documents (state : PeerState) (frames : List (List UInt8)) :
    ingestLog (applyMetadata documentParse) state (frames.map .item) =
      (frameDocuments documentParse frames).foldl applyItem state := by
  induction frames generalizing state with
  | nil => rfl
  | cons frame rest ih =>
      have split : frameDocuments documentParse (frame :: rest) =
          (ingestFrame recordXml [] frame).flatMap (parseMetadata documentParse) ++
            frameDocuments documentParse rest := List.flatMap_cons
      rw [List.map_cons, ingestLog, ih, ingestFrame_texts, split, List.foldl_append,
        List.foldl_flatMap]
      rfl
end Apply

/-! What a sequence of documents has asked for. -/

def asksVideo : Metadata → Bool
  | .subscribe video _ _ => video
  | _ => false

def asksAudio : Metadata → Bool
  | .subscribe _ audio _ => audio
  | _ => false

def asksMetadata : Metadata → Bool
  | .subscribe _ _ metadata => metadata
  | _ => false

def previewSetting : Metadata → Option Bool
  | .settings preview _ => preview
  | _ => none

def qualitySetting : Metadata → Option Quality
  | .settings _ quality => quality
  | _ => none

def tallySetting : Metadata → Option Tally
  | .tally tally => some tally
  | _ => none

/-- The last setting there is, if there is one. -/
def latest {α : Type} (setting : Metadata → Option α) (default : α) (items : List Metadata) : α :=
  (items.filterMap setting).getLast?.getD default

theorem foldl_sticky (field : PeerState → Bool) (asks : Metadata → Bool)
    (step : ∀ state item, field (applyItem state item) = (field state || asks item))
    (items : List Metadata) (state : PeerState) :
    field (items.foldl applyItem state) = (field state || items.any asks) := by
  induction items generalizing state with
  | nil => exact (Bool.or_false _).symm
  | cons item rest ih => rw [List.foldl_cons, ih, step, List.any_cons, Bool.or_assoc]

theorem latest_cons {α : Type} (setting : Metadata → Option α) (default : α) (item : Metadata)
    (rest : List Metadata) :
    latest setting default (item :: rest) =
      latest setting ((setting item).getD default) rest := by
  unfold latest
  cases shape : setting item with
  | none => rw [List.filterMap_cons_none shape, Option.getD_none]
  | some value =>
      rw [List.filterMap_cons_some shape, List.getLast?_cons, Option.getD_some, Option.getD_some]

theorem foldl_latest {α : Type} (field : PeerState → α) (setting : Metadata → Option α)
    (step : ∀ state item, field (applyItem state item) = (setting item).getD (field state))
    (items : List Metadata) (state : PeerState) :
    field (items.foldl applyItem state) = latest setting (field state) items := by
  induction items generalizing state with
  | nil => rfl
  | cons item rest ih => rw [List.foldl_cons, ih, step, latest_cons]

/-- The state that a sequence of documents leads to, field by field. -/
theorem applied_state (items : List Metadata) :
    items.foldl applyItem {} =
      { video := items.any asksVideo
        audio := items.any asksAudio
        metadata := items.any asksMetadata
        preview := latest previewSetting false items
        quality := latest qualitySetting .default items
        tally := latest tallySetting {} items } := by
  have video := foldl_sticky PeerState.video asksVideo
    (fun state item => by cases item <;> simp [applyItem, asksVideo, Bool.or_comm]) items {}
  have audio := foldl_sticky PeerState.audio asksAudio
    (fun state item => by cases item <;> simp [applyItem, asksAudio, Bool.or_comm]) items {}
  have metadata := foldl_sticky PeerState.metadata asksMetadata
    (fun state item => by cases item <;> simp [applyItem, asksMetadata, Bool.or_comm]) items {}
  have preview := foldl_latest PeerState.preview previewSetting
    (fun state item => by cases item <;> rfl) items {}
  have quality := foldl_latest PeerState.quality qualitySetting
    (fun state item => by cases item <;> rfl) items {}
  have tally := foldl_latest PeerState.tally tallySetting
    (fun state item => by cases item <;> rfl) items {}
  cases reached : items.foldl applyItem {} with
  | mk =>
      rw [reached] at video audio metadata preview quality tally
      rw [PeerState.mk.injEq]
      exact ⟨video, audio, metadata, preview, quality, tally⟩

/-! Reading. -/

/-- The buffer of one `read` in `poll_peer_metadata`. -/
def peerReadSize : Nat := 8192

/-- The largest frame that never runs into the cap: the cap less what one read may add
to an unfinished frame. -/
def controlFrameMax : Nat := 57345

/-- A frame the input loop follows, and small enough for its buffer. -/
structure ControlFrame (frame : List UInt8) : Prop where
  whole : Whole peerDecoder frame frame
  small : frame.length ≤ controlFrameMax

section Reading
variable {σ : Type} (apply : σ → List Char → σ)

/-- What was read so far fixes the state and the buffer; one more read keeps it so. -/
theorem ingestPeerBytes_control (frames : List (List UInt8))
    (control : ∀ frame ∈ frames, ControlFrame frame) (state : σ) (read data unread : List UInt8)
    (aligned : read ++ data ++ unread = frames.flatten) (short : data.length ≤ peerReadSize) :
    ingestPeerBytes apply (ingestLog apply state (drain peerDecoder read).1)
        (drain peerDecoder read).2 data =
      (ingestLog apply state (drain peerDecoder (read ++ data)).1,
        (drain peerDecoder (read ++ data)).2) := by
  have whole : ∀ frame ∈ frames, Whole peerDecoder frame frame := fun frame member =>
    (control frame member).whole
  rw [List.append_assoc] at aligned
  obtain ⟨items, left⟩ := drain_arrived peerDecoder frames whole read (data ++ unread) aligned
  have bound : (drain peerDecoder read).2.length < controlFrameMax := by
    rcases left with empty | ⟨missing, proper, inside⟩
    · rw [empty]
      decide
    · have small := (control _ inside).small
      have positive := List.length_pos_of_ne_nil proper
      rw [List.length_append] at small
      omega
  have clean : Unbroken (drain peerDecoder read).1 := by
    rw [items]
    intro error member
    obtain ⟨_, _, same⟩ := List.mem_map.mp member
    cases same
  have room : ¬ peerInboundCap < ((drain peerDecoder read).2 ++ data).length := by
    unfold controlFrameMax at bound
    unfold peerReadSize at short
    rw [List.length_append, peerInboundCap]
    omega
  rw [ingestPeerBytes, if_neg room, ingestLoop_drain, ← ingestLog_append,
    (drain_append peerDecoder read data).1 clean]

/-- However the frames are cut into reads, each that has arrived is applied once. -/
theorem ingestReads_control (frames : List (List UInt8))
    (control : ∀ frame ∈ frames, ControlFrame frame) (state : σ) (reads : List (List UInt8))
    (read unread : List UInt8) (aligned : read ++ reads.flatten ++ unread = frames.flatten)
    (short : ∀ data ∈ reads, data.length ≤ peerReadSize) :
    ingestReads apply (ingestLog apply state (drain peerDecoder read).1)
        (drain peerDecoder read).2 reads =
      (ingestLog apply state (drain peerDecoder (read ++ reads.flatten)).1,
        (drain peerDecoder (read ++ reads.flatten)).2) := by
  induction reads generalizing read with
  | nil => rw [List.flatten_nil, List.append_nil]; rfl
  | cons data rest ih =>
      rw [List.flatten_cons] at aligned ⊢
      have next := ingestPeerBytes_control apply frames control state read data
        (rest.flatten ++ unread) (by simpa using aligned) (short data List.mem_cons_self)
      rw [ingestReads, next]
      dsimp only
      rw [ih (read ++ data) (by simpa using aligned)
        (fun other member => short other (List.mem_cons_of_mem data member)), List.append_assoc]
end Reading

end OpenMediaTransport
