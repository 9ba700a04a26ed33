import OpenMediaTransport.PlanarBijection

/-!
How many bytes of samples a received audio frame becomes. A channel that sounds ties the
sample count to the payload, and the payload is small; a frame in which every channel is
silent has no payload, and its header alone says how much is allocated.
-/

namespace OpenMediaTransport

open CheckedMemory LittleEndian

theorem countOnes_pos (mask : UInt32) (some : mask ≠ 0) : 1 ≤ countOnes mask := by
  by_contra none
  have clear : countOnes mask = 0 := by omega
  refine some (mask_bits mask 0 fun index small => ?_)
  rw [channelActive_zero index small]
  exact eq_false_of_ne_true (List.countP_eq_zero.mp clear index (List.mem_range.mpr small))

theorem decodeAudioFrame_some (frame : AssembledFrame) (header : AudioHeader)
    (decoded : DecodedAudioFrame) (extended : frame.audio = some header)
    (accepted : decodeAudioFrame frame = some decoded) :
    PlanarAccepted frame.data header.channels.toNatClampNeg header.samplesPerChannel.toNatClampNeg
        header.activeChannels ∧
      frame.data.length ≤ audioMaxSize ∧
      decoded.pcmPlanarF32 = unpackChannels frame.data
        (header.samplesPerChannel.toNatClampNeg * audioSampleSize) header.activeChannels 0 0
        header.channels.toNatClampNeg := by
  unfold decodeAudioFrame at accepted
  rw [extended] at accepted
  dsimp only at accepted
  split at accepted
  · cases accepted
  split at accepted
  · cases accepted
  rename_i small
  rw [decodePlanarInto_refusal] at accepted
  cases refused : planarRefusal frame.data header.channels.toNatClampNeg
      header.samplesPerChannel.toNatClampNeg header.activeChannels with
  | some error =>
      rw [refused] at accepted
      cases accepted
  | none =>
      rw [refused] at accepted
      cases accepted
      exact ⟨(planarRefusal_none ..).mp refused, Nat.not_lt.mp small, rfl⟩

theorem decodeAudioFrame_allocates (data scratch : List UInt8) (channels samples : Int32)
    (mask : UInt32) :
    decodePlanarIntoOut data channels.toNatClampNeg samples.toNatClampNeg mask scratch =
      match decodePlanarInto data channels.toNatClampNeg samples.toNatClampNeg mask with
      | .ok pcm => .ok (.ok (), pcm)
      | .error error => .ok (.error error, scratch) := by
  by_cases few : channels.toNatClampNeg ≤ 32
  · refine decodePlanarIntoOut_value _ _ _ _ _ ?_
    have narrow : samples.toNatClampNeg < 2 ^ 31 := by
      have bound := samples.toInt_lt
      rw [Int32.toNatClampNeg]
      omega
    have product := Nat.mul_le_mul_right samples.toNatClampNeg few
    unfold audioSampleSize isizeMax
    omega
  · rw [decodePlanarIntoOut_refusal, decodePlanarInto_refusal]
    have refused : planarRefusal data channels.toNatClampNeg samples.toNatClampNeg mask =
        some (.invalidArgument "FPA1 channel count must be 1..=32") := if_pos (by omega)
    rw [refused]

/-- An audio frame, whatever stream has delivered it, stays within the limit if a channel
sounds, or if its header asks for no more. -/
theorem audio_expansion_iff (frame : AssembledFrame) (header : AudioHeader)
    (decoded : DecodedAudioFrame)
    (extended : frame.audio = some header) (accepted : decodeAudioFrame frame = some decoded) :
    decoded.pcmPlanarF32.length ≤ 32 * audioMaxSize ↔
      header.activeChannels ≠ 0 ∨
        header.channels.toNatClampNeg * header.samplesPerChannel.toNatClampNeg ≤ 2 ^ 23 := by
  obtain ⟨fits, small, pcm⟩ := decodeAudioFrame_some frame header decoded extended accepted
  have length : decoded.pcmPlanarF32.length = header.channels.toNatClampNeg *
      header.samplesPerChannel.toNatClampNeg * audioSampleSize := by
    rw [pcm]
    exact (unpackChannels_planes _ _ _ _ fits).length
  have limit : 32 * audioMaxSize = 2 ^ 23 * audioSampleSize := by decide
  rw [length, limit]
  constructor
  · intro bounded
    exact .inr (Nat.le_of_mul_le_mul_right bounded (by decide))
  · rintro (sounds | modest)
    · have ones := Nat.mul_le_mul_right
        (header.samplesPerChannel.toNatClampNeg * audioSampleSize)
        (countOnes_pos header.activeChannels sounds)
      have channels := Nat.mul_le_mul_right
        (header.samplesPerChannel.toNatClampNeg * audioSampleSize) fits.few
      have payload := fits.enough
      rw [Nat.mul_assoc] at payload ⊢
      omega
    · exact Nat.mul_le_mul_right _ modest

def monoAudio : MediaFrame :=
  { frameType := .audio, timestamp := 0, sampleRate := 48000, channels := 1, samplesPerChannel := 1
    data := [0, 0, 128, 63] }

theorem audio_expansion_iff_mono :
    [0, 0, 128, 63].length ≤ 32 * audioMaxSize ↔ (1 : UInt32) ≠ 0 ∨ 1 * 1 ≤ 2 ^ 23 :=
  audio_expansion_iff (audioFrame 0 monoAudio [0, 0, 128, 63] 1) ⟨.fpa1, 48000, 1, 1, 1, 0⟩
    ⟨0, 48000, 1, 1, 1, [0, 0, 128, 63], none⟩ rfl rfl

/-- Thirty-two silent channels of the longest 32-bit sample count. -/
def silentAudio : MediaFrame :=
  { frameType := .audio, timestamp := 0, sampleRate := 48000, channels := 32
    samplesPerChannel := 2147483647, data := [] }

/-- Forty bytes become more than 270 GB. -/
theorem silence_expands :
    (audioFrame 0 silentAudio [] 0).toBytes.length = 40 ∧
      (Channel.new.pushBytes (audioFrame 0 silentAudio [] 0).toBytes).tryPopFrame =
        (.ok (some (audioFrame 0 silentAudio [] 0)), .new) ∧
      ∃ decoded, decodeAudioFrame (audioFrame 0 silentAudio [] 0) = some decoded ∧
        decoded.pcmPlanarF32.length = 274877906816 ∧ 32 * audioMaxSize < 274877906816 := by
  refine ⟨by decide, audioFrame_pops 0 silentAudio [] 0 (by decide) (by decide), ?_⟩
  have fits : PlanarAccepted [] 32 2147483647 0 :=
    ⟨by decide, by decide, by decide, by decide, by decide⟩
  have value := decodePlanarInto_refusal [] 32 2147483647 0
  rw [(planarRefusal_none ..).mpr fits] at value
  have counts : silentAudio.channels.toNatClampNeg = 32 ∧
      silentAudio.samplesPerChannel.toNatClampNeg = 2147483647 := by decide
  unfold decodeAudioFrame audioFrame
  dsimp only
  rw [if_neg (by decide), if_neg (by decide), counts.1, counts.2, value]
  exact ⟨_, rfl, (unpackChannels_planes _ _ _ _ fits).length, by decide⟩

end OpenMediaTransport
