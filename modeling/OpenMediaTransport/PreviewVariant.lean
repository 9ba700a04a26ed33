import OpenMediaTransport.SenderPeers

/-!
What a peer in preview mode receives. `preview_video_bytes` writes the frame by itself,
beside `AssembledFrame::to_bytes`; a reader finds in it the same frame with less data.
-/

namespace OpenMediaTransport

open AssembledFrame

theorem VideoFlags.contains_preview (bits : Int32) :
    VideoFlags.contains ⟨bits ||| VideoFlags.preview.bits⟩ .preview = true := by
  rw [VideoFlags.contains, beq_iff_eq]
  apply Int32.toBitVec_inj.mp
  simp only [Int32.toBitVec_and, Int32.toBitVec_or]
  ext index bound
  simp only [BitVec.getElem_and, BitVec.getElem_or]
  cases VideoFlags.preview.bits.toBitVec[index] <;> simp

section Variant
variable (frame : AssembledFrame) (video : VideoHeader) (previewLen : Nat)

theorem previewFrame_length (formed : WellFormed frame) (present : frame.video = some video)
    (inside : previewLen ≤ frame.data.length) :
    (previewFrame frame video previewLen).header.dataLength.toInt =
      (videoExtHeaderSize + previewLen + frame.metadata.length : Nat) := by
  have body := formed.body
  have bound := frame.header.dataLength.toInt_lt
  have ext : videoExtHeaderSize ≤ frame.extBytes.length := by
    simp [extBytes, present]
  exact Int32.toInt_ofNat_of_lt (by omega)

theorem previewFrame_formed (formed : WellFormed frame) (present : frame.video = some video)
    (inside : previewLen ≤ frame.data.length) :
    WellFormed (previewFrame frame video previewLen) where
  version := formed.version
  metadata := formed.metadata
  body := by
    rw [previewFrame_length frame video previewLen formed present inside]
    simp only [previewFrame, extBytes, Option.map_some, Option.map_none, Option.getD_some,
      Option.getD_none, List.append_nil, VideoHeader.toBytes_length, List.length_take]
    omega
  video := by
    have isVideo := formed.video
    rw [present] at isVideo
    exact isVideo
  audio := by
    have isVideo := formed.video
    rw [present, Option.isSome_some] at isVideo
    simp [previewFrame, ← isVideo]

theorem previewFrame_shorter (present : frame.video = some video) :
    (previewFrame frame video previewLen).toBytes.length ≤ frame.toBytes.length := by
  simp only [previewFrame, toBytes, extBytes, present, Option.map_some, Option.map_none,
    Option.getD_some, Option.getD_none, List.length_append, FrameHeader.toBytes_length,
    VideoHeader.toBytes_length, List.length_take, List.length_nil]
  omega
end Variant

/-- Whatever prefix the codec reports, the variant decodes to the frame itself up to the
flag, the data and their length. -/
theorem preview_variant_decodes (previewBitstreamLength : List UInt8 → Option Nat)
    (frame : AssembledFrame) (formed : WellFormed frame) (bytes : List UInt8)
    (built : previewVideoBytes previewBitstreamLength frame = some bytes) :
    ∃ (video : VideoHeader) (previewLen : Nat) (decoded : AssembledFrame),
      frame.video = some video ∧ fromBytes bytes = .ok decoded ∧
      decoded =
        { frame with
          header := { frame.header with dataLength := decoded.header.dataLength }
          video := some { video with flags := ⟨video.flags.bits ||| VideoFlags.preview.bits⟩ }
          data := frame.data.take previewLen } ∧
      VideoFlags.contains ⟨video.flags.bits ||| VideoFlags.preview.bits⟩ .preview = true ∧
      0 < previewLen ∧ previewLen ≤ frame.data.length ∧
      decoded.header.dataLength.toInt =
        (videoExtHeaderSize + decoded.data.length + decoded.metadata.length : Nat) ∧
      bytes.length ≤ frame.toBytes.length := by
  obtain ⟨video, previewLen, present, -, -, positive, inside, rfl⟩ :=
    preview_serialized previewBitstreamLength frame bytes built
  have silent : frame.audio = none := by
    have isAudio := formed.audio
    have isVideo := formed.video
    rw [present, Option.isSome_some] at isVideo
    simpa [← isVideo] using isAudio
  have decoded := fromBytes_written (previewFrame frame video previewLen) []
    (previewFrame_formed frame video previewLen formed present inside)
  rw [List.append_nil] at decoded
  refine ⟨video, previewLen, previewFrame frame video previewLen, present, decoded, ?_,
    VideoFlags.contains_preview video.flags.bits, positive, inside, ?_,
    previewFrame_shorter frame video previewLen present⟩
  · rw [previewFrame, silent]
  · rw [previewFrame_length frame video previewLen formed present inside]
    simp [previewFrame, Nat.min_eq_left inside]

def vmxSample : AssembledFrame where
  header := ⟨protocolVersion, .video, 1, 2, 38⟩
  video := some ⟨.vmx1, 64, 64, 60, 1, 0x3F800000, .none, .bt709⟩
  audio := none
  data := [1, 2, 3, 4]
  metadata := [60, 0]

theorem preview_variant_decodes_short :
    ∃ bytes, previewVideoBytes (fun _ => some 3) vmxSample = some bytes ∧
      bytes.length ≤ vmxSample.toBytes.length ∧
      ∃ decoded, fromBytes bytes = .ok decoded ∧ decoded.header.timestamp = 1 := by
  refine ⟨_, rfl, ?_⟩
  obtain ⟨video, previewLen, decoded, -, read, same, -, -, -, -, shorter⟩ :=
    preview_variant_decodes (fun _ => some 3) vmxSample ⟨rfl, rfl, by decide, rfl, rfl⟩ _ rfl
  exact ⟨shorter, decoded, read, by rw [same]; rfl⟩

end OpenMediaTransport
