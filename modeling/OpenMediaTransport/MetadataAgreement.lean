import OpenMediaTransport.FrameDispatch

/-!
The three readers of a metadata frame: the receiver's dispatch, the sender's
control input and the discovery server. Two of them stop at the terminating
zero byte; the dispatch keeps it as a character of the XML.
-/

namespace OpenMediaTransport

open Framing

def recordXml (log : List (List Char)) (xml : List Char) : List (List Char) := log ++ [xml]

structure SameXml (frame : AssembledFrame) (text : List Char) : Prop where
  dispatched : ∀ decodeAudioHere videoTx audioTx,
    deliveredXml (dispatchAvFrame frame decodeAudioHere videoTx .ok audioTx) = [text]
  ingested : (ingestPeerBytes recordXml [] [] frame.toBytes).1 = [text]
  read : metadataXmlFromFrame frame = .ok text

/-- A metadata frame whose data is `text`, with or without a zero byte after it. -/
structure MetadataText (frame : AssembledFrame) (text : List Char) (terminated : Bool) : Prop where
  formed : frame.WellFormed
  type : frame.header.frameType = .metadata
  bare : frame.header.metadataLength = 0
  clean : Char.ofNat 0 ∉ text
  data : frame.data = Utf8.encode text ++ if terminated then [0] else []

section Consumers
variable (frame : AssembledFrame) (text : List Char) (terminated : Bool)
variable (carries : MetadataText frame text terminated)
include carries

theorem carries_no_metadata : frame.metadata = [] := by
  have size := carries.formed.metadata
  rw [carries.bare] at size
  exact List.length_eq_zero_iff.mp size.symm

theorem carried_decodes : decodeMetadataXml frame.data = .ok text := by
  have both := decodeMetadataXml_text text carries.clean
  rw [carries.data]
  cases terminated with
  | true => exact both.2
  | false => rw [if_neg Bool.false_ne_true, List.append_nil]; exact both.1

theorem carried_read : metadataXmlFromFrame frame = .ok text := by
  rw [metadataXmlFromFrame, carries_no_metadata frame text terminated carries]
  exact carried_decodes frame text terminated carries

/-- The dispatch hands on the whole data, the terminator included. -/
theorem carried_dispatched (decodeAudioHere : Bool) (videoTx audioTx : TrySend) :
    deliveredXml (dispatchAvFrame frame decodeAudioHere videoTx .ok audioTx) =
      [text ++ if terminated then [Char.ofNat 0] else []] := by
  have flags : FrameType.metadata.contains .video = false ∧
      FrameType.metadata.contains .audio = false ∧
      FrameType.metadata.contains .metadata = true := by decide
  have silent : frameMeta frame = none := by
    rw [frameMeta, carries_no_metadata frame text terminated carries]
    rfl
  have whole : frame.data = Utf8.encode (text ++ if terminated then [Char.ofNat 0] else []) := by
    rw [Utf8.encode_append, carries.data]
    cases terminated <;> rfl
  have lossy := Utf8.decodeLossy_encode (text ++ if terminated then [Char.ofNat 0] else [])
  rw [← whole] at lossy
  have xml : (if frame.data.isEmpty then [] else Utf8.decodeLossy frame.data) =
      text ++ if terminated then [Char.ofNat 0] else [] := by
    split
    · rename_i empty
      rw [List.isEmpty_iff.mp empty, Utf8.decodeLossy] at lossy
      exact lossy
    · exact lossy
  rw [dispatchAvFrame, carries.type, flags.1, flags.2.1, flags.2.2, silent]
  simp only [Bool.false_and, Bool.false_eq_true, if_false, if_true, Option.getD_none, deliveredXml,
    xml]

theorem carried_whole : Whole peerDecoder frame.toBytes frame.toBytes := by
  have size := carries.formed.size
  have total : frame.toBytes.length = headerSize + frame.header.dataLength.toNatClampNeg := by
    rw [AssembledFrame.toBytes, List.length_append, FrameHeader.toBytes_length, size]
  have known : peerTotal frame.toBytes = some frame.toBytes.length := by
    rw [peerTotal, total, AssembledFrame.toBytes,
      FrameHeader.read_written _ _ carries.formed.version]
    dsimp only
    rw [if_neg carries.formed.nonnegative]
  change inspectPeer frame.toBytes = _
  rw [inspectPeer, if_neg (by omega), known]
  dsimp only
  rw [if_neg (Nat.lt_irrefl _), List.take_length]

theorem carried_applied : ingestFrame recordXml [] frame.toBytes = [text] := by
  have back := AssembledFrame.fromBytes_written frame [] carries.formed
  have isMetadata : FrameType.metadata.contains .metadata = true := by decide
  rw [List.append_nil] at back
  rw [ingestFrame, back]
  dsimp only
  rw [carries.type, if_pos isMetadata, carried_decodes frame text terminated carries]
  rfl

theorem carried_ingested (reads : List (List UInt8)) (cut : reads.flatten = frame.toBytes)
    (fits : frame.toBytes.length ≤ peerInboundCap) :
    ingestReads recordXml [] [] reads = ([text], []) := by
  have whole := carried_whole frame text terminated carries
  have items := drain_frames peerDecoder [frame.toBytes] []
    (fun bytes member => by rw [List.mem_singleton.mp member]; exact whole) rfl
  rw [List.flatten_singleton, List.append_nil, List.map_singleton] at items
  have stream := (feed_stream peerDecoder reads [] rfl).2
  rw [List.nil_append, cut, items] at stream
  rw [ingestReads_feed recordXml reads [] [] (by rw [cut]; simpa using fits),
    stream (by
      intro error member
      cases List.mem_singleton.mp member)]
  rw [ingestLog, ingestLog, carried_applied frame text terminated carries]

end Consumers

/-- The three consumers read the same XML from a metadata frame if and only if
its text is not terminated and the frame fits the sender's input buffer. -/
theorem metadata_xml_agrees_iff (frame : AssembledFrame) (text : List Char) (terminated : Bool)
    (carries : MetadataText frame text terminated) :
    (SameXml frame text ↔ terminated = false ∧ frame.toBytes.length ≤ peerInboundCap) ∧
      (frame.toBytes.length ≤ peerInboundCap → ∀ reads : List (List UInt8),
        reads.flatten = frame.toBytes → ingestReads recordXml [] [] reads = ([text], [])) := by
  have once (fits : frame.toBytes.length ≤ peerInboundCap) :
      (ingestPeerBytes recordXml [] [] frame.toBytes).1 = [text] := by
    have reads := carried_ingested frame text terminated carries [frame.toBytes] (by simp) fits
    exact congrArg Prod.fst reads
  refine ⟨⟨?_, ?_⟩, fun fits reads cut =>
    carried_ingested frame text terminated carries reads cut fits⟩
  · rintro ⟨dispatched, ingested, _⟩
    constructor
    · have delivered := dispatched false .ok .ok
      rw [carried_dispatched frame text terminated carries] at delivered
      cases terminated with
      | true => simp at delivered
      | false => rfl
    · by_contra beyond
      rw [ingestPeerBytes, List.nil_append, if_pos (Nat.not_le.mp beyond)] at ingested
      cases ingested
  · rintro ⟨rfl, fits⟩
    refine ⟨?_, once fits, carried_read frame text false carries⟩
    intro decodeAudioHere videoTx audioTx
    rw [carried_dispatched frame text false carries]
    simp

def sampleXml : List Char := ['<', 'a', '/', '>']

def bareSample : AssembledFrame :=
  ⟨⟨1, .metadata, 7, 0, 4⟩, none, none, Utf8.encode sampleXml, []⟩

def terminatedSample : AssembledFrame :=
  ⟨⟨1, .metadata, 7, 0, 5⟩, none, none, Utf8.encode sampleXml ++ [0], []⟩

theorem bareSample_carries : MetadataText bareSample sampleXml false :=
  ⟨⟨rfl, rfl, by decide, by decide, by decide⟩, rfl, rfl, by decide, rfl⟩

theorem terminatedSample_carries : MetadataText terminatedSample sampleXml true :=
  ⟨⟨rfl, rfl, by decide, by decide, by decide⟩, rfl, rfl, by decide, rfl⟩

theorem metadata_xml_agrees_iff_bare : SameXml bareSample sampleXml :=
  (metadata_xml_agrees_iff bareSample sampleXml false bareSample_carries).1.mpr
    ⟨rfl, by decide⟩

/-- The null-terminated form of the protocol, in a frame of 21 bytes. -/
theorem terminated_xml_differs :
    MetadataText terminatedSample sampleXml true ∧
      terminatedSample.toBytes.length ≤ peerInboundCap ∧ ¬ SameXml terminatedSample sampleXml := by
  refine ⟨terminatedSample_carries, by decide, ?_⟩
  intro same
  have delivered := same.dispatched false .ok .ok
  rw [carried_dispatched terminatedSample sampleXml true terminatedSample_carries] at delivered
  revert delivered
  decide

end OpenMediaTransport
