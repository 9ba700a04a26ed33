import OpenMediaTransport.PlanarAudio

/-!
Packing planes and unpacking them. The mask has a bit for each channel that is not
silent, in the order in which the planes stand in the payload; a silent channel's
samples are zero bits, which is what the decoder puts in its place.
-/

namespace OpenMediaTransport

open LittleEndian

/-! Mask bits. -/

theorem shifted_one (index : Nat) (small : index < 32) :
    (1 <<< UInt32.ofNat index : UInt32).toBitVec = BitVec.twoPow 32 index := by
  simp [BitVec.twoPow, Nat.mod_eq_of_lt small]

theorem channelActive_bit (mask : UInt32) (index : Nat) (small : index < 32) :
    channelActive mask index = mask.toBitVec.getLsbD index := by
  have some : BitVec.twoPow 32 index ≠ 0#32 := by
    intro zero
    have bit := congrArg (·.getLsbD index) zero
    simp [small] at bit
  unfold channelActive
  rw [Bool.eq_iff_iff, beq_iff_eq, ← UInt32.toBitVec_inj, UInt32.toBitVec_and,
    shifted_one index small, BitVec.and_twoPow]
  cases mask.toBitVec.getLsbD index with
  | true => simp
  | false => simp [some.symm]

theorem channelActive_or (left right : UInt32) (index : Nat) (small : index < 32) :
    channelActive (left ||| right) index =
      (channelActive left index || channelActive right index) := by
  rw [channelActive_bit _ _ small, channelActive_bit _ _ small, channelActive_bit _ _ small,
    UInt32.toBitVec_or, BitVec.getLsbD_or]

theorem channelActive_one (place index : Nat) (placed : place < 32) (small : index < 32) :
    channelActive (1 <<< UInt32.ofNat place) index = decide (place = index) := by
  rw [channelActive_bit _ _ small, shifted_one place placed, BitVec.getLsbD_twoPow]
  simp [placed]

theorem channelActive_zero (index : Nat) (small : index < 32) : channelActive 0 index = false := by
  rw [channelActive_bit _ _ small]
  simp

theorem packChannels_active (channels : List (List UInt32)) (index place : Nat)
    (room : index + channels.length ≤ 32) (small : place < 32) :
    channelActive (packChannels index channels).2 place =
      (decide (index ≤ place) &&
        (channels[place - index]?).any fun channel => !channelIsSilent channel) := by
  induction channels generalizing index with
  | nil => simp [packChannels, channelActive_zero place small]
  | cons channel rest ih =>
      rw [List.length_cons] at room
      have later := ih (index + 1) (by omega)
      rw [packChannels]
      -- The front channel's bit is the one at `index`; the others are set by the rest.
      rcases Nat.lt_trichotomy place index with before | rfl | behind
      · have none : decide (index ≤ place) = false := decide_eq_false (by omega)
        have tail : channelActive (packChannels (index + 1) rest).2 place = false := by
          rw [later, decide_eq_false (by omega), Bool.false_and]
        have own : channelActive (1 <<< UInt32.ofNat index) place = false := by
          rw [channelActive_one index place (by omega) small]
          exact decide_eq_false (by omega)
        rw [none, Bool.false_and]
        split
        · exact tail
        · rw [channelActive_or _ _ _ small, own, tail]
          rfl
      · have tail : channelActive (packChannels (place + 1) rest).2 place = false := by
          rw [later, decide_eq_false (by omega), Bool.false_and]
        rw [decide_eq_true (Nat.le_refl place), Bool.true_and, Nat.sub_self,
          List.getElem?_cons_zero, Option.any_some]
        split
        · rename_i silent
          rw [tail, silent]
          rfl
        · rename_i sounding
          rw [channelActive_or _ _ _ small, channelActive_one place place small small,
            decide_eq_true rfl, eq_false_of_ne_true sounding]
          rfl
      · have shift : place - index = (place - (index + 1)) + 1 := by omega
        have own : channelActive (1 <<< UInt32.ofNat index) place = false := by
          rw [channelActive_one index place (by omega) small]
          exact decide_eq_false (by omega)
        rw [decide_eq_true (show index ≤ place by omega), Bool.true_and, shift,
          List.getElem?_cons_succ]
        rw [decide_eq_true (show index + 1 ≤ place by omega), Bool.true_and] at later
        split
        · exact later
        · rw [channelActive_or _ _ _ small, own, later]
          rfl

/-- The mask's bits from a channel on are those of the channels. -/
def Marks (mask : UInt32) : Nat → List (List UInt32) → Prop
  | _, [] => True
  | index, channel :: rest =>
      channelActive mask index = !channelIsSilent channel ∧ Marks mask (index + 1) rest

theorem marks_of_bits (mask : UInt32) (channels : List (List UInt32)) (index : Nat)
    (bits : ∀ place, (inside : place < channels.length) →
      channelActive mask (index + place) = !channelIsSilent channels[place]) :
    Marks mask index channels := by
  induction channels generalizing index with
  | nil => trivial
  | cons channel rest ih =>
      refine ⟨bits 0 (Nat.zero_lt_succ _), ih (index + 1) fun place inside => ?_⟩
      have later := bits (place + 1) (Nat.succ_lt_succ inside)
      rw [← Nat.add_assoc, Nat.add_right_comm] at later
      exact later

theorem packChannels_marks (channels : List (List UInt32)) (room : channels.length ≤ 32) :
    Marks (packChannels 0 channels).2 0 channels := by
  refine marks_of_bits _ channels 0 fun place inside => ?_
  rw [Nat.zero_add, packChannels_active channels 0 place (by omega) (by omega), Nat.sub_zero,
    List.getElem?_eq_getElem inside]
  simp

/-! Payload. -/

def soundingChannels (channels : List (List UInt32)) : Nat :=
  channels.countP fun channel => !channelIsSilent channel

theorem packChannels_payload (channels : List (List UInt32)) (samples index : Nat)
    (planar : ∀ channel ∈ channels, channel.length = samples) :
    (packChannels index channels).1.length = soundingChannels channels * (samples * 4) := by
  induction channels generalizing index with
  | nil => simp [packChannels, soundingChannels]
  | cons channel rest ih =>
      have tail := ih (index + 1) fun other member => planar other (List.mem_cons_of_mem _ member)
      have width := planar channel List.mem_cons_self
      rw [packChannels, soundingChannels, List.countP_cons]
      by_cases silent : channelIsSilent channel = true
      · rw [if_pos silent, tail, silent]
        rfl
      · rw [if_neg silent, List.length_append, channel_bytes_length, width, tail,
          eq_false_of_ne_true silent]
        simp only [soundingChannels, Bool.not_false, if_true]
        rw [Nat.succ_mul, Nat.add_comm]

theorem countP_range_getElem (channels : List (List UInt32)) (limit : Nat)
    (room : channels.length ≤ limit) :
    (List.range limit).countP (fun place =>
        (channels[place]?).any fun channel => !channelIsSilent channel) =
      soundingChannels channels := by
  induction channels generalizing limit with
  | nil => simp [soundingChannels]
  | cons channel rest ih =>
      obtain ⟨limit, rfl⟩ : ∃ less, limit = less + 1 :=
        ⟨limit - 1, by rw [List.length_cons] at room; omega⟩
      have later := ih limit (Nat.le_of_succ_le_succ room)
      rw [List.range_succ_eq_map, List.countP_cons, List.countP_map, soundingChannels,
        List.countP_cons, ← soundingChannels, ← later]
      rfl

theorem packChannels_ones (channels : List (List UInt32)) (room : channels.length ≤ 32) :
    countOnes (packChannels 0 channels).2 = soundingChannels channels := by
  rw [countOnes, ← countP_range_getElem channels 32 room]
  refine List.countP_congr fun place member => ?_
  rw [packChannels_active channels 0 place (by omega) (List.mem_range.mp member)]
  simp

theorem silent_bytes (channel : List UInt32) (silent : channelIsSilent channel = true) :
    channel.flatMap u32Bytes = List.replicate (channel.length * 4) 0 := by
  induction channel with
  | nil => rfl
  | cons sample rest ih =>
      obtain ⟨zero, later⟩ := Bool.and_eq_true_iff.mp silent
      have four : u32Bytes 0 = List.replicate 4 0 := by decide
      rw [List.flatMap_cons, beq_iff_eq.mp zero, ih later, four, List.replicate_append_replicate,
        List.length_cons]
      congr 1
      omega

theorem unpackChannels_packed (channels : List (List UInt32)) (samples index : Nat)
    (mask : UInt32) (front back : List UInt8)
    (planar : ∀ channel ∈ channels, channel.length = samples) (marks : Marks mask index channels) :
    unpackChannels (front ++ ((packChannels index channels).1 ++ back)) (samples * 4) mask
        front.length index channels.length =
      channels.flatMap (List.flatMap u32Bytes) := by
  induction channels generalizing index front with
  | nil => rfl
  | cons channel rest ih =>
      obtain ⟨own, later⟩ := marks
      have planes : ∀ other ∈ rest, other.length = samples :=
        fun other member => planar other (List.mem_cons_of_mem _ member)
      have width : (channel.flatMap u32Bytes).length = samples * 4 := by
        rw [channel_bytes_length, planar channel List.mem_cons_self]
      rw [List.length_cons, unpackChannels, packChannels, List.flatMap_cons, own]
      by_cases silent : channelIsSilent channel = true
      · rw [if_pos silent, silent, if_neg (by decide), ih (index + 1) front planes later,
          silent_bytes channel silent, planar channel List.mem_cons_self]
      · rw [if_neg silent, eq_false_of_ne_true silent, Bool.not_false, if_pos rfl]
        have plane : slice (front ++ ((channel.flatMap u32Bytes ++
              (packChannels (index + 1) rest).1) ++ back)) front.length
              (front.length + samples * 4) = channel.flatMap u32Bytes := by
          rw [slice_skip front _ _ _ (Nat.le_refl _), Nat.sub_self, Nat.add_sub_cancel_left,
            List.append_assoc, slice_head _ _ _ width]
        have tail := ih (index + 1) (front ++ channel.flatMap u32Bytes) planes later
        rw [List.length_append, width, List.append_assoc, ← List.append_assoc
          (channel.flatMap u32Bytes)] at tail
        rw [plane, tail]

theorem decodePlanarInto_packed (channels : List (List UInt32)) (samples : Nat)
    (packed : List UInt8 × UInt32) (some : channels ≠ [])
    (planar : ∀ channel ∈ channels, channel.length = samples)
    (fits : channels.length * samples * audioSampleSize < 2 ^ 64)
    (encoded : encodePlanar channels = .ok packed) :
    decodePlanarInto packed.1 channels.length samples packed.2 =
      .ok (channels.flatMap (List.flatMap u32Bytes)) := by
  obtain ⟨first, rest, rfl⟩ := List.exists_cons_of_ne_nil some
  unfold encodePlanar at encoded
  dsimp only at encoded
  split at encoded
  · cases encoded
  rename_i room
  split at encoded
  · cases encoded
  cases encoded
  have few : (first :: rest).length ≤ 32 := Nat.not_lt.mp room
  have payload := packChannels_payload (first :: rest) samples 0 planar
  have sounding : soundingChannels (first :: rest) ≤ (first :: rest).length := List.countP_le_length
  have multiplied (count : Nat) (below : count ≤ (first :: rest).length) :
      (checkedMul count samples).bind (checkedMul · audioSampleSize) = Option.some (count * samples * 4) := by
    have once : count * samples ≤ (first :: rest).length * samples :=
      Nat.mul_le_mul_right samples below
    unfold audioSampleSize at fits
    unfold checkedMul audioSampleSize
    rw [if_pos (by omega), Option.bind_some, if_pos (by omega)]
  have unpacked := unpackChannels_packed (first :: rest) samples 0 _ [] [] planar
    (packChannels_marks _ few)
  rw [List.nil_append, List.append_nil] at unpacked
  unfold decodePlanarInto
  rw [if_neg (by rw [List.length_cons] at few ⊢; omega), packChannels_ones _ few,
    multiplied _ sounding, multiplied _ (Nat.le_refl _)]
  dsimp only
  rw [if_neg (by rw [payload, Nat.mul_assoc]; exact Nat.lt_irrefl _)]
  exact congrArg Except.ok unpacked

end OpenMediaTransport
