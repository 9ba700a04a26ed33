import OpenMediaTransport.AudioTransport
import OpenMediaTransport.PlanarDecode

/-!
`decode_planar` and the encoder undo each other. One way they do for all channels whose
planes the machine can hold; the other way for payloads as the encoder writes them: as
long as the mask says, with no bit beyond the channels and no plane that could have been
left out.
-/

namespace OpenMediaTransport

open CheckedMemory LittleEndian

def decodePlanar (data : List UInt8) (channels samplesPerChannel : Nat) (activeChannels : UInt32) :
    Except Fault (Except OmtError (List (List UInt32))) := do
  let (result, flat) ← decodePlanarIntoOut data channels samplesPerChannel activeChannels []
  match result with
  | .error error => return .error error
  | .ok () =>
      let planes ← (List.range channels).mapM fun index => do
        let base ← mul (← mul index samplesPerChannel) audioSampleSize
        (List.range samplesPerChannel).mapM fun s => do
          let o ← add base (← mul s 4)
          return u32Of (← readRange flat o (← add o 4))
      return .ok planes

theorem decodePlanar_ok (data flat : List UInt8) (channels samples : Nat) (mask : UInt32)
    (filled : decodePlanarIntoOut data channels samples mask [] = .ok (.ok (), flat))
    (length : flat.length = channels * samples * 4) (fits : channels * samples * 4 < 2 ^ 64) :
    decodePlanar data channels samples mask = .ok (.ok (planesOf flat channels samples)) := by
  unfold decodePlanar planesOf
  rw [filled]
  dsimp only [bind, Except.bind]
  rw [mapM_each (List.range channels) _ (fun ch => (List.range samples).map fun s =>
    u32Of (slice flat (ch * samples * 4 + s * 4) (ch * samples * 4 + s * 4 + 4)))]
  · rfl
  intro ch member
  have below : (ch + 1) * samples ≤ channels * samples :=
    Nat.mul_le_mul_right samples (List.mem_range.mp member)
  rw [Nat.succ_mul] at below
  rw [mul_fits ch samples (by omega)]
  dsimp only
  rw [audioSampleSize, mul_fits _ 4 (by omega)]
  refine mapM_each _ _ _ fun s inside => ?_
  have early := List.mem_range.mp inside
  rw [mul_fits s 4 (by omega)]
  dsimp only
  rw [add_fits _ _ (by omega)]
  dsimp only
  rw [add_fits _ _ (by omega)]
  dsimp only
  rw [readRange_inside _ _ _ (by omega) (by omega)]
  rfl

theorem decodePlanar_some (data : List UInt8) (channels samples : Nat) (mask : UInt32)
    (planes : List (List UInt32))
    (decoded : decodePlanar data channels samples mask = .ok (.ok planes)) :
    PlanarAccepted data channels samples mask ∧
      planes = planesOf (unpackChannels data (samples * audioSampleSize) mask 0 0 channels) channels
        samples := by
  by_cases accepted : PlanarAccepted data channels samples mask
  · refine ⟨accepted, ?_⟩
    have ran := decodePlanarIntoOut_accepted data channels samples mask [] accepted
    by_cases small : channels * samples * audioSampleSize ≤ isizeMax
    · rw [if_pos small] at ran
      rw [decodePlanar_ok data _ channels samples mask ran
        (unpackChannels_planes data channels samples mask accepted).length accepted.planes] at decoded
      exact (Except.ok.inj (Except.ok.inj decoded)).symm
    · rw [if_neg small] at ran
      unfold decodePlanar at decoded
      rw [ran] at decoded
      cases decoded
  · obtain ⟨error, refused⟩ :=
      Option.ne_none_iff_exists'.mp fun passed => accepted ((planarRefusal_none ..).mp passed)
    have ran := decodePlanarIntoOut_refusal data channels samples mask []
    rw [refused] at ran
    unfold decodePlanar at decoded
    rw [ran] at decoded
    cases decoded

/-! Samples are their bytes. -/

theorem samples_bytes_inj (left right : List UInt32) (same : left.length = right.length)
    (bytes : left.flatMap u32Bytes = right.flatMap u32Bytes) : left = right := by
  induction left generalizing right with
  | nil => exact (List.eq_nil_of_length_eq_zero same.symm).symm
  | cons sample rest ih =>
      cases right with
      | nil => cases same
      | cons other others =>
          rw [List.flatMap_cons, List.flatMap_cons] at bytes
          obtain ⟨head, tail⟩ := List.append_inj bytes (by rw [u32_length, u32_length])
          have samples := congrArg u32Of head
          rw [u32_read, u32_read] at samples
          rw [samples, ih others (Nat.succ.inj same) tail]

theorem planes_bytes_inj (left right : List (List UInt32)) (samples : Nat)
    (same : left.length = right.length) (planarLeft : ∀ plane ∈ left, plane.length = samples)
    (planarRight : ∀ plane ∈ right, plane.length = samples)
    (bytes : left.flatMap (List.flatMap u32Bytes) = right.flatMap (List.flatMap u32Bytes)) :
    left = right := by
  induction left generalizing right with
  | nil => exact (List.eq_nil_of_length_eq_zero same.symm).symm
  | cons plane rest ih =>
      cases right with
      | nil => cases same
      | cons other others =>
          have widths : plane.length = other.length := by
            rw [planarLeft plane List.mem_cons_self, planarRight other List.mem_cons_self]
          rw [List.flatMap_cons, List.flatMap_cons] at bytes
          obtain ⟨head, tail⟩ := List.append_inj bytes
            (by rw [channel_bytes_length, channel_bytes_length, widths])
          rw [samples_bytes_inj plane other widths head,
            ih others (Nat.succ.inj same)
              (fun further member => planarLeft further (List.mem_cons_of_mem _ member))
              (fun further member => planarRight further (List.mem_cons_of_mem _ member)) tail]

theorem planesOf_length (data : List UInt8) (channels samples : Nat) :
    (planesOf data channels samples).length = channels := by
  rw [planesOf, List.length_map, List.length_range]

theorem planes_bytes_length (channels : List (List UInt32)) (samples : Nat)
    (planar : ∀ channel ∈ channels, channel.length = samples) :
    (channels.flatMap (List.flatMap u32Bytes)).length = channels.length * samples * 4 := by
  induction channels with
  | nil => rw [List.length_nil, Nat.zero_mul]; rfl
  | cons channel rest ih =>
      rw [List.flatMap_cons, List.length_append, channel_bytes_length,
        planar channel List.mem_cons_self,
        ih fun other member => planar other (List.mem_cons_of_mem _ member), List.length_cons,
        Nat.succ_mul, Nat.add_mul, Nat.add_comm]

theorem plane_bytes (planes : List (List UInt32)) (samples place : Nat)
    (below : place < planes.length) (planar : ∀ plane ∈ planes, plane.length = samples) :
    planes[place].flatMap u32Bytes =
      slice (planes.flatMap (List.flatMap u32Bytes)) (place * (samples * 4))
        ((place + 1) * (samples * 4)) := by
  induction planes generalizing place with
  | nil => exact absurd below (Nat.not_lt_zero place)
  | cons plane rest ih =>
      have width : (plane.flatMap u32Bytes).length = samples * 4 := by
        rw [channel_bytes_length, planar plane List.mem_cons_self]
      rw [List.flatMap_cons]
      cases place with
      | zero =>
          rw [Nat.zero_mul, Nat.zero_add, Nat.one_mul, slice_head _ _ _ width]
          rfl
      | succ place =>
          have later := ih place (Nat.lt_of_succ_lt_succ below)
            fun other member => planar other (List.mem_cons_of_mem _ member)
          rw [slice_skip _ _ _ _ (by rw [width, Nat.succ_mul]; exact Nat.le_add_left _ _), width,
            Nat.succ_mul place, Nat.succ_mul (place + 1), Nat.add_sub_cancel, Nat.add_sub_cancel]
          exact later

/-- Channels written as bytes and read as planes are the same channels. -/
theorem planesOf_written (channels : List (List UInt32)) (samples : Nat)
    (planar : ∀ channel ∈ channels, channel.length = samples) :
    planesOf (channels.flatMap (List.flatMap u32Bytes)) channels.length samples = channels := by
  have length := planes_bytes_length channels samples planar
  refine planes_bytes_inj _ _ samples (planesOf_length ..)
    (planesOf_planar _ _ samples) planar ?_
  rw [planesOf_bytes _ _ _ (Nat.le_of_eq length.symm), ← length, List.take_length]

/-! What was packed is unpacked. -/

structure EqualChannels (channels : List (List UInt32)) (samples : Nat) : Prop where
  some : 1 ≤ channels.length
  few : channels.length ≤ 32
  planar : ∀ channel ∈ channels, channel.length = samples

theorem EqualChannels.encodes (channels : List (List UInt32)) (samples : Nat)
    (equal : EqualChannels channels samples) :
    encodePlanar channels = .ok (packChannels 0 channels) := by
  obtain ⟨some, few, planar⟩ := equal
  obtain ⟨first, rest, rfl⟩ := List.exists_cons_of_ne_nil (List.ne_nil_of_length_pos some)
  have same : ((first :: rest).any fun channel => channel.length != first.length) = false := by
    refine List.any_eq_false.mpr fun channel member => ?_
    rw [planar channel member, planar first List.mem_cons_self]
    simp
  unfold encodePlanar
  dsimp only
  rw [if_neg (Nat.not_lt.mpr few), same, if_neg Bool.false_ne_true]

theorem decodePlanar_packed (channels : List (List UInt32)) (samples : Nat)
    (equal : EqualChannels channels samples)
    (small : channels.length * samples * audioSampleSize ≤ isizeMax) :
    decodePlanar (packChannels 0 channels).1 channels.length samples (packChannels 0 channels).2 =
      .ok (.ok channels) := by
  have fits : channels.length * samples * audioSampleSize < 2 ^ 64 :=
    Nat.lt_of_le_of_lt small (by decide)
  have value := decodePlanarInto_packed channels samples (packChannels 0 channels)
    (List.ne_nil_of_length_pos equal.some) equal.planar fits (equal.encodes channels samples)
  have filled := decodePlanarIntoOut_value (packChannels 0 channels).1 channels.length samples
    (packChannels 0 channels).2 [] small
  rw [value] at filled
  rw [decodePlanar_ok _ _ _ _ _ filled (planes_bytes_length channels samples equal.planar) fits,
    planesOf_written channels samples equal.planar]

/-! What was unpacked is packed. -/

theorem mask_bits (left right : UInt32)
    (same : ∀ index < 32, channelActive left index = channelActive right index) : left = right := by
  rw [← UInt32.toBitVec_inj]
  refine BitVec.eq_of_getLsbD_eq fun index small => ?_
  rw [← channelActive_bit left index small, ← channelActive_bit right index small]
  exact same index small

/-- A payload as the encoder would write it. -/
structure Canonical (data : List UInt8) (planes : List (List UInt32)) (channels samples : Nat)
    (mask : UInt32) : Prop where
  exact : data.length = countOnes mask * samples * 4
  inside : ∀ index, channels ≤ index → index < 32 → channelActive mask index = false
  sounding : ∀ index plane, planes[index]? = some plane → channelActive mask index = true →
    channelIsSilent plane = false

theorem planeRank_all (mask : UInt32) (channels : Nat) (few : channels ≤ 32)
    (inside : ∀ index, channels ≤ index → index < 32 → channelActive mask index = false) :
    planeRank mask channels = countOnes mask := by
  have beyond : (List.range' channels (32 - channels)).countP (channelActive mask) = 0 := by
    refine List.countP_eq_zero.mpr fun index member => ?_
    obtain ⟨above, below⟩ := List.mem_range'_1.mp member
    rw [inside index above (by omega)]
    exact Bool.false_ne_true
  have split : List.range 32 = List.range channels ++ List.range' channels (32 - channels) := by
    have joined := List.range'_append_1 (s := 0) (m := channels) (n := 32 - channels)
    rw [Nat.zero_add, Nat.add_sub_cancel' few] at joined
    rw [List.range_eq_range', List.range_eq_range', joined]
  rw [countOnes, planeRank, split, List.countP_append, beyond, Nat.add_zero]

theorem silent_of_zeros (channel : List UInt32)
    (zeros : channel.flatMap u32Bytes = List.replicate (channel.length * 4) 0) :
    channelIsSilent channel = true := by
  have silent : channelIsSilent (List.replicate channel.length 0) = true := by
    rw [channelIsSilent, List.all_replicate]
    split <;> rfl
  have same := silent_bytes _ silent
  rw [List.length_replicate, ← zeros] at same
  rwa [samples_bytes_inj channel _ (List.length_replicate ..).symm same.symm]

/-- Planes that were unpacked and whose bits say which of them sound give their blocks back. -/
theorem packChannels_unpacked (data : List UInt8) (samples : Nat) (mask : UInt32)
    (planes : List (List UInt32)) (index offset : Nat)
    (planar : ∀ plane ∈ planes, plane.length = samples)
    (marks : Marks mask index planes)
    (enough : offset + onesFrom mask index planes.length * (samples * 4) ≤ data.length)
    (unpacked : planes.flatMap (List.flatMap u32Bytes) =
      unpackChannels data (samples * 4) mask offset index planes.length) :
    (packChannels index planes).1 =
      slice data offset (offset + onesFrom mask index planes.length * (samples * 4)) := by
  induction planes generalizing index offset with
  | nil =>
      have none : onesFrom mask index 0 = 0 := rfl
      rw [List.length_nil, none, Nat.zero_mul, Nat.add_zero, slice, Nat.sub_self]
      rfl
  | cons plane rest ih =>
      obtain ⟨own, later⟩ := marks
      have planes : ∀ other ∈ rest, other.length = samples :=
        fun other member => planar other (List.mem_cons_of_mem _ member)
      have width : (plane.flatMap u32Bytes).length = samples * 4 := by
        rw [channel_bytes_length, planar plane List.mem_cons_self]
      rw [List.length_cons, onesFrom_succ, own] at enough ⊢
      rw [List.length_cons, unpackChannels, List.flatMap_cons, own] at unpacked
      rw [packChannels]
      by_cases silent : channelIsSilent plane = true
      · rw [silent, Bool.not_true, if_neg Bool.false_ne_true] at unpacked enough ⊢
        obtain ⟨_, tail⟩ := List.append_inj unpacked (by rw [width, List.length_replicate])
        exact ih (index + 1) offset planes later enough tail
      · rw [eq_false_of_ne_true silent, Bool.not_false, if_pos rfl] at unpacked enough ⊢
        rw [Nat.succ_mul] at enough ⊢
        have read : (slice data offset (offset + samples * 4)).length = samples * 4 := by
          rw [slice_length _ _ _ (by omega), Nat.add_sub_cancel_left]
        obtain ⟨head, tail⟩ := List.append_inj unpacked (by rw [width, read])
        have blocks := ih (index + 1) (offset + samples * 4) planes later (by omega) tail
        rw [if_neg Bool.false_ne_true, blocks, head,
          slice_join data _ _ _ (Nat.le_add_right _ _) (Nat.le_add_right _ _), Nat.add_assoc,
          Nat.add_comm (samples * 4)]

theorem encodePlanar_unpacked (data : List UInt8) (channels samples : Nat) (mask : UInt32)
    (planes : List (List UInt32))
    (decoded : decodePlanar data channels samples mask = .ok (.ok planes))
    (canonical : Canonical data planes channels samples mask) :
    encodePlanar planes = .ok (data, mask) := by
  obtain ⟨accepted, made⟩ := decodePlanar_some data channels samples mask planes decoded
  obtain ⟨exact, inside, sounding⟩ := canonical
  have blocks := unpackChannels_planes data channels samples mask accepted
  have count : planes.length = channels := by rw [made, planesOf_length]
  have planar : ∀ plane ∈ planes, plane.length = samples := by
    rw [made]
    exact planesOf_planar _ channels samples
  have bytes : planes.flatMap (List.flatMap u32Bytes) =
      unpackChannels data (samples * 4) mask 0 0 channels := by
    rw [made, planesOf_bytes _ _ _ (Nat.le_of_eq blocks.length.symm)]
    exact List.take_of_length_le (Nat.le_of_eq blocks.length)
  have equal : EqualChannels planes samples :=
    ⟨by rw [count]; exact accepted.some, by rw [count]; exact accepted.few, planar⟩
  -- A plane whose bit is clear was filled with zeros, and one whose bit is set sounds.
  have bits : ∀ place, (below : place < planes.length) →
      channelActive mask (0 + place) = !channelIsSilent planes[place] := by
    intro place below
    have found : planes[place]? = some planes[place] := List.getElem?_eq_getElem below
    have width : planes[place].length = samples := planar _ (List.getElem_mem below)
    rw [Nat.zero_add]
    cases active : channelActive mask place with
    | true => rw [sounding place _ found active, Bool.not_false]
    | false =>
        have zeros := blocks.plane place (by omega)
        rw [active, if_neg Bool.false_ne_true] at zeros
        have own : planes[place].flatMap u32Bytes = List.replicate (planes[place].length * 4) 0 := by
          rw [width]
          have block := plane_bytes planes samples place below planar
          rw [bytes] at block
          exact block.trans zeros
        rw [silent_of_zeros _ own, Bool.not_true]
  have marks := marks_of_bits mask planes 0 bits
  have ones : onesFrom mask 0 planes.length = countOnes mask := by
    rw [onesFrom_zero, count, planeRank_all mask channels accepted.few inside]
  have payload := packChannels_unpacked data samples mask planes 0 0 planar marks
    (by rw [ones, Nat.zero_add, exact, Nat.mul_assoc]) (by rw [count]; exact bytes)
  rw [ones, Nat.zero_add, ← Nat.mul_assoc, ← exact, slice_front, List.take_length] at payload
  have same : (packChannels 0 planes).2 = mask := by
    refine mask_bits _ _ fun index small => ?_
    rw [packChannels_active planes 0 index (by rw [Nat.zero_add]; exact equal.few) small,
      decide_eq_true (Nat.zero_le index), Bool.true_and, Nat.sub_zero]
    by_cases below : index < planes.length
    · have bit := bits index below
      rw [Nat.zero_add] at bit
      rw [List.getElem?_eq_getElem below, Option.any_some, bit]
    · rw [List.getElem?_eq_none (Nat.not_lt.mp below), inside index (by omega) small]
      rfl
  rw [equal.encodes planes samples, ← payload, ← same]

/-! Both ways. -/

/-- Channels come back as they were packed, and canonical payloads as they were unpacked. -/
theorem planar_bijection :
    (∀ channels samples, EqualChannels channels samples →
        channels.length * samples * audioSampleSize ≤ isizeMax →
        ∃ packed, encodePlanar channels = .ok packed ∧
          decodePlanar packed.1 channels.length samples packed.2 = .ok (.ok channels)) ∧
      ∀ data channels samples mask planes,
        decodePlanar data channels samples mask = .ok (.ok planes) →
        Canonical data planes channels samples mask →
        encodePlanar planes = .ok (data, mask) := by
  refine ⟨fun channels samples equal small => ?_, encodePlanar_unpacked⟩
  exact ⟨_, equal.encodes channels samples, decodePlanar_packed channels samples equal small⟩

theorem planar_bijection_stereo :
    (∃ packed, encodePlanar [[0, 0], [0x80000000, 0x7fc00001]] = .ok packed ∧
        decodePlanar packed.1 2 2 packed.2 = .ok (.ok [[0, 0], [0x80000000, 0x7fc00001]])) ∧
      encodePlanar [[0, 0], [0x80000000, 0x7fc00001]] = .ok ([0, 0, 0, 128, 1, 0, 192, 127], 2) := by
  refine ⟨planar_bijection.1 [[0, 0], [0x80000000, 0x7fc00001]] 2 ⟨by decide, by decide, by decide⟩
    (by decide), ?_⟩
  refine planar_bijection.2 [0, 0, 0, 128, 1, 0, 192, 127] 2 2 2 _ (by decide +kernel)
    ⟨by decide, by decide, ?_⟩
  intro index plane found active
  match index, found with
  | 0, _ => exact absurd active (by decide)
  | 1, rfl => decide
  | _ + 2, other => cases other

theorem packChannels_silent (count samples index : Nat) :
    packChannels index (List.replicate count (List.replicate samples 0)) = ([], 0) := by
  have silent : channelIsSilent (List.replicate samples 0) = true := by
    rw [channelIsSilent, List.all_replicate]
    split <;> rfl
  induction count generalizing index with
  | zero => rfl
  | succ count ih => rw [List.replicate_succ, packChannels, if_pos silent, ih]

/-- Thirty-two times one slice of 2^58 zeros: the encoder takes it, and the decoder's size
check refuses what it made. -/
theorem wide_silence_refused :
    EqualChannels (List.replicate 32 (List.replicate (2 ^ 58) 0)) (2 ^ 58) ∧
      encodePlanar (List.replicate 32 (List.replicate (2 ^ 58) 0)) = .ok ([], 0) ∧
      decodePlanar [] 32 (2 ^ 58) 0 = .ok (.error (.invalidArgument "FPA1 size overflow")) := by
  have equal : EqualChannels (List.replicate 32 (List.replicate (2 ^ 58) 0)) (2 ^ 58) := by
    refine ⟨?_, ?_, fun channel member => ?_⟩
    · rw [List.length_replicate]
      decide
    · rw [List.length_replicate]
    · rw [List.eq_of_mem_replicate member, List.length_replicate]
  refine ⟨equal, ?_, by decide +kernel⟩
  rw [equal.encodes, packChannels_silent]

end OpenMediaTransport
