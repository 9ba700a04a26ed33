import OpenMediaTransport.Framing
import OpenMediaTransport.FrameRoundTrip
import OpenMediaTransport.Utf8

/-!
Metadata text out of frames, and the sender's side of reassembly. A string is
its characters; `decode_metadata_xml` takes the bytes before the first zero.

`ingest_peer_bytes` keeps its own buffer with its own rules: any header with a
non-negative length is followed, a bad body is skipped, and a buffer above the
cap is thrown away whole. What it does with each XML text is a parameter, so
that one definition gives both the peer's state and the texts it was fed.
-/

namespace OpenMediaTransport

open Framing

/-- Decode UTF-8 metadata to a string (trailing NUL stripped if present). -/
def decodeMetadataXml (bytes : List UInt8) : Except OmtError (List Char) :=
  match Utf8.decode (bytes.takeWhile (· != 0)) with
  | .ok text => .ok text
  | .error error => .error (.protocol (.invalidMetadataUtf8 error.validUpTo error.errorLen))

def metadataXmlFromFrame (frame : AssembledFrame) : Except OmtError (List Char) :=
  if !frame.metadata.isEmpty then decodeMetadataXml frame.metadata
  else decodeMetadataXml frame.data

/-- A text without NUL reads back, terminated or not. -/
theorem decodeMetadataXml_text (text : List Char) (clean : Char.ofNat 0 ∉ text) :
    decodeMetadataXml (Utf8.encode text) = .ok text ∧
      decodeMetadataXml (Utf8.encode text ++ [0]) = .ok text := by
  have keep (tail : List UInt8) : (Utf8.encode text ++ tail).takeWhile (· != 0) =
      Utf8.encode text ++ tail.takeWhile (· != 0) := by
    apply List.takeWhile_append_of_pos
    intro byte member
    exact bne_iff_ne.mpr (fun zero => Utf8.zero_not_encoded text clean (zero ▸ member))
  have bare := keep []
  have terminated := keep [0]
  rw [List.append_nil, List.takeWhile_nil, List.append_nil] at bare
  rw [List.takeWhile_cons_of_neg (by decide), List.append_nil] at terminated
  constructor
  · rw [decodeMetadataXml, bare, Utf8.decode_encode]
  · rw [decodeMetadataXml, terminated, Utf8.decode_encode]

/-! `ingest_peer_bytes`. -/

def peerInboundCap : Nat := 64 * 1024

section Ingest
variable {σ : Type} (apply : σ → List Char → σ)

/-- One complete frame: the XML of its data or of its metadata, if it has any. -/
def ingestFrame (state : σ) (frameBytes : List UInt8) : σ :=
  match AssembledFrame.fromBytes frameBytes with
  | .error _ => state
  | .ok frame =>
      let xml := if frame.header.frameType.contains .metadata then decodeMetadataXml frame.data
        else decodeMetadataXml frame.metadata
      match xml with
      | .ok xml => apply state xml
      | .error _ => state

/-- The loop over the buffer: the state reached and what stays buffered. -/
def ingestLoop (state : σ) (inbound : List UInt8) : σ × List UInt8 :=
  if _short : inbound.length < headerSize then (state, inbound)
  else match FrameHeader.fromBytes inbound with
    | .error _ => (state, [])
    | .ok header =>
        if header.dataLength < 0 then (state, [])
        else
          let total := headerSize + header.dataLength.toNatClampNeg
          if inbound.length < total then (state, inbound)
          else ingestLoop (ingestFrame apply state (inbound.take total)) (inbound.drop total)
termination_by inbound.length
decreasing_by
  simp only [List.length_drop, headerSize] at *
  omega

def ingestPeerBytes (state : σ) (inbound data : List UInt8) : σ × List UInt8 :=
  if peerInboundCap < (inbound ++ data).length then (state, [])
  else ingestLoop apply state (inbound ++ data)

def ingestReads (state : σ) (inbound : List UInt8) : List (List UInt8) → σ × List UInt8
  | [] => (state, inbound)
  | data :: rest =>
      let next := ingestPeerBytes apply state inbound data
      ingestReads next.1 next.2 rest
end Ingest

/-! The loop is a stream decoder of its own. -/

/-- The length of the frame in front, or the reason to give up on the buffer. -/
def peerTotal (inbound : List UInt8) : Option Nat :=
  match FrameHeader.fromBytes inbound with
  | .error _ => none
  | .ok header =>
      if header.dataLength < 0 then none
      else some (headerSize + header.dataLength.toNatClampNeg)

def inspectPeer (inbound : List UInt8) : Verdict (List UInt8) Unit :=
  if inbound.length < headerSize then .wait
  else match peerTotal inbound with
    | none => .halt ()
    | some total => if inbound.length < total then .wait else .item (inbound.take total) total

theorem peerTotal_append (inbound more : List UInt8) (long : headerSize ≤ inbound.length) :
    peerTotal (inbound ++ more) = peerTotal inbound := by
  rw [peerTotal, FrameHeader.fromBytes_append inbound more long, peerTotal]

theorem peerTotal_positive (inbound : List UInt8) (total : Nat)
    (known : peerTotal inbound = some total) : headerSize ≤ total := by
  unfold peerTotal at known
  split at known
  · cases known
  split at known
  · cases known
  · cases known
    exact Nat.le_add_right _ _

theorem inspectPeer_item (inbound out : List UInt8) (width : Nat)
    (seen : inspectPeer inbound = .item out width) :
    headerSize ≤ inbound.length ∧ peerTotal inbound = some width ∧ width ≤ inbound.length ∧
      out = inbound.take width := by
  unfold inspectPeer at seen
  split at seen
  · cases seen
  rename_i long
  split at seen
  · cases seen
  rename_i total known
  split at seen
  · cases seen
  rename_i enough
  cases seen
  exact ⟨Nat.not_lt.mp long, known, Nat.not_lt.mp enough, rfl⟩

theorem inspectPeer_halt (inbound : List UInt8) (error : Unit)
    (seen : inspectPeer inbound = .halt error) :
    headerSize ≤ inbound.length ∧ peerTotal inbound = none := by
  unfold inspectPeer at seen
  split at seen
  · cases seen
  rename_i long
  split at seen
  · rename_i refused
    exact ⟨Nat.not_lt.mp long, refused⟩
  · split at seen <;> cases seen

def peerDecoder : Decoder UInt8 (List UInt8) Unit where
  inspect := inspectPeer
  empty_waits := rfl
  item_width := by
    intro inbound out width seen
    obtain ⟨_, known, enough, _⟩ := inspectPeer_item inbound out width seen
    have header := peerTotal_positive inbound width known
    exact ⟨Nat.lt_of_lt_of_le (by decide) header, enough⟩
  item_stable := by
    intro inbound more out width seen
    obtain ⟨long, known, enough, rfl⟩ := inspectPeer_item inbound out width seen
    have grown : inbound.length ≤ (inbound ++ more).length := by simp
    rw [inspectPeer, if_neg (by omega), peerTotal_append inbound more long, known]
    dsimp only
    rw [if_neg (by omega), List.take_append_of_le_length enough]
  halt_stable := by
    intro inbound more error seen
    obtain ⟨long, refused⟩ := inspectPeer_halt inbound error seen
    have grown : inbound.length ≤ (inbound ++ more).length := by simp
    rw [inspectPeer, if_neg (by omega), peerTotal_append inbound more long, refused]

section Ingest
variable {σ : Type} (apply : σ → List Char → σ)

def ingestLog (state : σ) : List (Event (List UInt8) Unit) → σ
  | [] => state
  | .item frameBytes :: rest => ingestLog (ingestFrame apply state frameBytes) rest
  | .halt _ :: rest => ingestLog state rest

theorem ingestLog_append (state : σ) (front back : List (Event (List UInt8) Unit)) :
    ingestLog apply state (front ++ back) = ingestLog apply (ingestLog apply state front) back := by
  induction front generalizing state with
  | nil => rfl
  | cons event rest ih =>
      cases event with
      | item frameBytes => exact ih (ingestFrame apply state frameBytes)
      | halt _ => exact ih state

theorem ingestLoop_verdict (state : σ) (inbound : List UInt8) :
    ingestLoop apply state inbound =
      match inspectPeer inbound with
      | .wait => (state, inbound)
      | .item out width => ingestLoop apply (ingestFrame apply state out) (inbound.drop width)
      | .halt _ => (state, []) := by
  rw [ingestLoop, inspectPeer, peerTotal]
  split
  · rfl
  cases FrameHeader.fromBytes inbound with
  | error error => rfl
  | ok header =>
      dsimp only
      split
      · rfl
      dsimp only
      split <;> rfl

theorem ingestLoop_drain (state : σ) (inbound : List UInt8) :
    ingestLoop apply state inbound =
      (ingestLog apply state (drain peerDecoder inbound).1, (drain peerDecoder inbound).2) := by
  fun_induction drain peerDecoder inbound generalizing state with
  | case1 inbound seen =>
      change inspectPeer inbound = _ at seen
      rw [ingestLoop_verdict, seen]
      rfl
  | case2 inbound out width seen tail ih =>
      change inspectPeer inbound = _ at seen
      rw [ingestLoop_verdict, seen]
      exact ih _
  | case3 inbound err seen =>
      change inspectPeer inbound = _ at seen
      rw [ingestLoop_verdict, seen]
      rfl

/-- As long as the stream stays within the cap, the cap never matters. -/
theorem ingestReads_feed (reads : List (List UInt8)) (state : σ) (inbound : List UInt8)
    (fits : inbound.length + reads.flatten.length ≤ peerInboundCap) :
    ingestReads apply state inbound reads =
      (ingestLog apply state (feed peerDecoder inbound reads).1,
        (feed peerDecoder inbound reads).2) := by
  induction reads generalizing state inbound with
  | nil => rfl
  | cons data rest ih =>
      rw [List.flatten_cons, List.length_append] at fits
      have room : ¬ peerInboundCap < (inbound ++ data).length := by
        rw [List.length_append]
        omega
      -- What the loop leaves is no longer than what it was given.
      have left := drain_shorter peerDecoder (inbound ++ data)
      rw [List.length_append] at left
      rw [ingestReads, ingestPeerBytes, if_neg room, ingestLoop_drain]
      dsimp only
      rw [ih _ _ (by omega), feed]
      dsimp only
      rw [ingestLog_append]
end Ingest

end OpenMediaTransport
