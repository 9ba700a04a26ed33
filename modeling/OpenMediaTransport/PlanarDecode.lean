import OpenMediaTransport.CheckedMemory
import OpenMediaTransport.PlanarRoundTrip

/-!
`decode_planar_into` with its output buffer, step by step: every product, sum, shift
and range is checked. The payload's length is compared with the number of bits of the
whole mask, the running offset counts only the bits below the channel, so that it never
runs past what was compared. An accepted call that asks for more bytes than a vector
can have ends the thread.
-/

namespace OpenMediaTransport

open CheckedMemory LittleEndian

def copyPlanes (data : List UInt8) (samplesPerChannel : Nat) (activeChannels : UInt32)
    (index offset : Nat) (out : List UInt8) : Nat → Except Fault (List UInt8)
  | 0 => .ok out
  | count + 1 => do
      let flag ← bitAt index
      let planeOff ← mul (← mul index samplesPerChannel) audioSampleSize
      if activeChannels &&& flag == flag then
        let bytes ← mul samplesPerChannel audioSampleSize
        let stop ← add planeOff bytes
        let finish ← add offset bytes
        let out ← copyRange out planeOff stop (← readRange data offset finish)
        copyPlanes data samplesPerChannel activeChannels (index + 1) finish out count
      else
        copyPlanes data samplesPerChannel activeChannels (index + 1) offset out count

/-- `decode_planar_into`: the result, and `out` after the call. -/
def decodePlanarIntoOut (data : List UInt8) (channels samplesPerChannel : Nat)
    (activeChannels : UInt32) (out : List UInt8) :
    Except Fault (Except OmtError Unit × List UInt8) :=
  if channels = 0 ∨ 32 < channels then
    .ok (.error (.invalidArgument "FPA1 channel count must be 1..=32"), out)
  else
    match (checkedMul (countOnes activeChannels) samplesPerChannel).bind
        (checkedMul · audioSampleSize) with
    | none => .ok (.error (.invalidArgument "FPA1 size overflow"), out)
    | some expected =>
        if data.length < expected then .ok (.error (.protocol .fpa1PayloadTooShort), out)
        else
          match (checkedMul channels samplesPerChannel).bind (checkedMul · audioSampleSize) with
          | none => .ok (.error (.invalidArgument "FPA1 size overflow"), out)
          | some need => do
              let out ← filled need 0
              return (.ok (), ← copyPlanes data samplesPerChannel activeChannels 0 0 out channels)

/-! The running offset. -/

/-- The mask's bits at `count` places from `index` on. -/
def onesFrom (mask : UInt32) (index count : Nat) : Nat :=
  (List.range' index count).countP (channelActive mask)

theorem onesFrom_succ (mask : UInt32) (index count : Nat) :
    onesFrom mask index (count + 1) =
      onesFrom mask (index + 1) count + if channelActive mask index then 1 else 0 := by
  rw [onesFrom, List.range'_succ, List.countP_cons, onesFrom]

/-- The number of bits below a channel. -/
def planeRank (mask : UInt32) (index : Nat) : Nat :=
  (List.range index).countP (channelActive mask)

theorem onesFrom_zero (mask : UInt32) (count : Nat) : onesFrom mask 0 count = planeRank mask count := by
  rw [onesFrom, planeRank, List.range_eq_range']

theorem planeRank_ones (mask : UInt32) (count : Nat) (few : count ≤ 32) :
    planeRank mask count ≤ countOnes mask := by
  have front : List.range count <+: List.range 32 := by
    rw [← Nat.add_sub_cancel' few, List.range_add]
    exact List.prefix_append _ _
  exact front.sublist.countP_le

/-- The plane of a channel whose block, if it has one, starts at `offset`. -/
def planeFrom (data : List UInt8) (bytes : Nat) (mask : UInt32) (offset index : Nat) : List UInt8 :=
  if channelActive mask index then slice data offset (offset + bytes) else List.replicate bytes 0

def offsetPast (bytes : Nat) (mask : UInt32) (offset index : Nat) : Nat :=
  if channelActive mask index then offset + bytes else offset

theorem unpackChannels_succ (data : List UInt8) (bytes : Nat) (mask : UInt32)
    (offset index count : Nat) :
    unpackChannels data bytes mask offset index (count + 1) =
      planeFrom data bytes mask offset index ++
        unpackChannels data bytes mask (offsetPast bytes mask offset index) (index + 1) count := by
  rw [unpackChannels, planeFrom, offsetPast]
  split <;> rfl

theorem offsetPast_ones (bytes : Nat) (mask : UInt32) (offset index count : Nat) :
    offsetPast bytes mask offset index + onesFrom mask (index + 1) count * bytes =
      offset + onesFrom mask index (count + 1) * bytes := by
  rw [onesFrom_succ, offsetPast]
  split
  · rw [Nat.succ_mul]
    omega
  · rfl

theorem planeFrom_length (data : List UInt8) (bytes : Nat) (mask : UInt32)
    (offset index count : Nat)
    (enough : offset + onesFrom mask index (count + 1) * bytes ≤ data.length) :
    (planeFrom data bytes mask offset index).length = bytes := by
  rw [← offsetPast_ones, offsetPast] at enough
  unfold planeFrom
  by_cases active : channelActive mask index = true
  · rw [if_pos active] at enough ⊢
    rw [slice_length _ _ _ (by omega), Nat.add_sub_cancel_left]
  · rw [if_neg active, List.length_replicate]

/-- A turn fills the next plane of what is still zeros, from where the offset stands. -/
theorem copyPlanes_step (data : List UInt8) (samples : Nat) (mask : UInt32)
    (count index offset : Nat) (front : List UInt8) (room : index + (count + 1) ≤ 32)
    (placed : front.length = index * (samples * audioSampleSize))
    (enough : offset + onesFrom mask index (count + 1) * (samples * audioSampleSize) ≤ data.length)
    (counted : offset + onesFrom mask index (count + 1) * (samples * audioSampleSize) < 2 ^ 64)
    (fits : (index + (count + 1)) * (samples * audioSampleSize) < 2 ^ 64) :
    copyPlanes data samples mask index offset
        (front ++ List.replicate ((count + 1) * (samples * audioSampleSize)) 0) (count + 1) =
      copyPlanes data samples mask (index + 1)
        (offsetPast (samples * audioSampleSize) mask offset index)
        (front ++ planeFrom data (samples * audioSampleSize) mask offset index ++
          List.replicate (count * (samples * audioSampleSize)) 0) count := by
  have read := planeFrom_length data _ mask offset index count enough
  rw [← offsetPast_ones] at enough counted
  have scaled : index * samples * audioSampleSize = index * (samples * audioSampleSize) :=
    Nat.mul_assoc ..
  have planes : (index + (count + 1)) * (samples * audioSampleSize) =
      index * (samples * audioSampleSize) + samples * audioSampleSize +
        count * (samples * audioSampleSize) := by
    rw [Nat.add_mul, Nat.succ_mul]
    omega
  have zeros : List.replicate ((count + 1) * (samples * audioSampleSize)) (0 : UInt8) =
      List.replicate (samples * audioSampleSize) 0 ++
        List.replicate (count * (samples * audioSampleSize)) 0 := by
    rw [List.replicate_append_replicate, Nat.succ_mul, Nat.add_comm]
  have product : index * samples < 2 ^ 64 := by
    refine Nat.lt_of_le_of_lt (Nat.le_mul_of_pos_right (index * samples)
      (by decide : 0 < audioSampleSize)) ?_
    omega
  rw [copyPlanes, bitAt_fits index (by omega), zeros]
  dsimp only [bind, Except.bind]
  rw [mul_fits index samples product]
  dsimp only
  rw [mul_fits _ _ (by omega), scaled]
  dsimp only
  unfold planeFrom at read ⊢
  unfold offsetPast at enough counted ⊢
  by_cases active : channelActive mask index = true
  · have same : (mask &&& 1 <<< UInt32.ofNat index == 1 <<< UInt32.ofNat index) = true := active
    rw [if_pos active] at enough counted read
    rw [if_pos same, if_pos active, if_pos active, mul_fits _ _ (by omega)]
    dsimp only
    rw [add_fits _ _ (by omega), add_fits offset _ (by omega)]
    dsimp only
    rw [readRange_inside _ _ _ (Nat.le_add_right _ _) (by omega)]
    dsimp only
    rw [copyRange_between front (List.replicate (samples * audioSampleSize) 0) _ _ _ _
      placed.symm (by rw [List.length_replicate, placed]) (by rw [List.length_replicate, read]),
      List.append_assoc]
  · -- The zeros that are there already are the plane.
    have same : ¬ (mask &&& 1 <<< UInt32.ofNat index == 1 <<< UInt32.ofNat index) = true := active
    rw [if_neg same, if_neg active, if_neg active, List.append_assoc]

theorem copyPlanes_unpacks (data : List UInt8) (samples : Nat) (mask : UInt32)
    (count index offset : Nat) (front : List UInt8) (room : index + count ≤ 32)
    (placed : front.length = index * (samples * audioSampleSize))
    (enough : offset + onesFrom mask index count * (samples * audioSampleSize) ≤ data.length)
    (counted : offset + onesFrom mask index count * (samples * audioSampleSize) < 2 ^ 64)
    (fits : (index + count) * (samples * audioSampleSize) < 2 ^ 64) :
    copyPlanes data samples mask index offset
        (front ++ List.replicate (count * (samples * audioSampleSize)) 0) count =
      .ok (front ++ unpackChannels data (samples * audioSampleSize) mask offset index count) := by
  induction count generalizing index offset front with
  | zero => rw [Nat.zero_mul]; rfl
  | succ count ih =>
      have plane := planeFrom_length data _ mask offset index count enough
      have past := offsetPast_ones (samples * audioSampleSize) mask offset index count
      have later : index + 1 + count = index + (count + 1) := by omega
      have filled : (front ++ planeFrom data (samples * audioSampleSize) mask offset index).length =
          (index + 1) * (samples * audioSampleSize) := by
        rw [List.length_append, plane, placed, Nat.succ_mul]
      rw [copyPlanes_step data samples mask count index offset front room placed enough counted fits,
        ih (index + 1) _ _ (by omega) filled (by rw [past]; exact enough)
          (by rw [past]; exact counted) (by rw [later]; exact fits),
        unpackChannels_succ, List.append_assoc]

/-! The call. -/

theorem checkedMul_twice (count samples : Nat) :
    (checkedMul count samples).bind (checkedMul · audioSampleSize) =
      if count * samples * audioSampleSize < 2 ^ 64 then some (count * samples * audioSampleSize)
      else none := by
  have once : count * samples ≤ count * samples * audioSampleSize :=
    Nat.le_mul_of_pos_right _ (by decide)
  unfold checkedMul
  by_cases fits : count * samples < 2 ^ 64
  · rw [if_pos fits, Option.bind_some]
  · rw [if_neg fits, if_neg (by omega)]
    rfl

/-- What a call must satisfy to be answered with `Ok`. -/
structure PlanarAccepted (data : List UInt8) (channels samples : Nat) (mask : UInt32) : Prop where
  some : 1 ≤ channels
  few : channels ≤ 32
  payload : countOnes mask * samples * audioSampleSize < 2 ^ 64
  planes : channels * samples * audioSampleSize < 2 ^ 64
  enough : countOnes mask * samples * audioSampleSize ≤ data.length

/-- The four checks in front, in the order in which either call makes them. -/
def planarRefusal (data : List UInt8) (channels samples : Nat) (mask : UInt32) : Option OmtError :=
  if channels = 0 ∨ 32 < channels then
    some (.invalidArgument "FPA1 channel count must be 1..=32")
  else if 2 ^ 64 ≤ countOnes mask * samples * audioSampleSize then
    some (.invalidArgument "FPA1 size overflow")
  else if data.length < countOnes mask * samples * audioSampleSize then
    some (.protocol .fpa1PayloadTooShort)
  else if 2 ^ 64 ≤ channels * samples * audioSampleSize then
    some (.invalidArgument "FPA1 size overflow")
  else none

theorem planarRefusal_none (data : List UInt8) (channels samples : Nat) (mask : UInt32) :
    planarRefusal data channels samples mask = none ↔ PlanarAccepted data channels samples mask := by
  unfold planarRefusal
  constructor
  · intro passed
    split at passed
    · cases passed
    split at passed
    · cases passed
    split at passed
    · cases passed
    split at passed
    · cases passed
    · constructor <;> omega
  · rintro ⟨some, few, payload, planes, enough⟩
    rw [if_neg (by omega), if_neg (by omega), if_neg (by omega), if_neg (by omega)]

/-- Whatever a version of the call does with its refusals and with the planes' size. -/
theorem planar_branches {β : Type} (refuse : OmtError → β) (proceed : Nat → β) (data : List UInt8)
    (channels samples : Nat) (mask : UInt32) :
    (if channels = 0 ∨ 32 < channels then
        refuse (.invalidArgument "FPA1 channel count must be 1..=32")
      else
        match (checkedMul (countOnes mask) samples).bind (checkedMul · audioSampleSize) with
        | none => refuse (.invalidArgument "FPA1 size overflow")
        | some expected =>
            if data.length < expected then refuse (.protocol .fpa1PayloadTooShort)
            else
              match (checkedMul channels samples).bind (checkedMul · audioSampleSize) with
              | none => refuse (.invalidArgument "FPA1 size overflow")
              | some need => proceed need) =
      match planarRefusal data channels samples mask with
      | some error => refuse error
      | none => proceed (channels * samples * audioSampleSize) := by
  unfold planarRefusal
  rw [checkedMul_twice, checkedMul_twice]
  by_cases counted : channels = 0 ∨ 32 < channels
  · rw [if_pos counted, if_pos counted]
  rw [if_neg counted, if_neg counted]
  by_cases payload : countOnes mask * samples * audioSampleSize < 2 ^ 64
  · rw [if_pos payload, if_neg (Nat.not_le.mpr payload)]
    dsimp only
    by_cases short : data.length < countOnes mask * samples * audioSampleSize
    · rw [if_pos short, if_pos short]
    rw [if_neg short, if_neg short]
    by_cases planes : channels * samples * audioSampleSize < 2 ^ 64
    · rw [if_pos planes, if_neg (Nat.not_le.mpr planes)]
    · rw [if_neg planes, if_pos (Nat.not_lt.mp planes)]
  · rw [if_neg payload, if_pos (Nat.not_lt.mp payload)]

theorem decodePlanarInto_refusal (data : List UInt8) (channels samples : Nat) (mask : UInt32) :
    decodePlanarInto data channels samples mask =
      match planarRefusal data channels samples mask with
      | some error => .error error
      | none => .ok (unpackChannels data (samples * audioSampleSize) mask 0 0 channels) := by
  unfold decodePlanarInto
  exact planar_branches Except.error
    (fun _ => Except.ok (unpackChannels data (samples * audioSampleSize) mask 0 0 channels))
    data channels samples mask

theorem decodePlanarIntoOut_refusal (data : List UInt8) (channels samples : Nat) (mask : UInt32)
    (out : List UInt8) :
    decodePlanarIntoOut data channels samples mask out =
      match planarRefusal data channels samples mask with
      | some error => .ok (.error error, out)
      | none => do
          let zeros ← filled (channels * samples * audioSampleSize) 0
          return (.ok (), ← copyPlanes data samples mask 0 0 zeros channels) := by
  unfold decodePlanarIntoOut
  exact planar_branches
    (fun error => (Except.ok (Except.error error, out) : Except Fault (Except OmtError Unit × List UInt8)))
    (fun need => do
      let zeros ← filled need 0
      return (Except.ok (), ← copyPlanes data samples mask 0 0 zeros channels))
    data channels samples mask

theorem decodePlanarIntoOut_accepted (data : List UInt8) (channels samples : Nat) (mask : UInt32)
    (out : List UInt8) (accepted : PlanarAccepted data channels samples mask) :
    decodePlanarIntoOut data channels samples mask out =
      if channels * samples * audioSampleSize ≤ isizeMax then
        .ok (.ok (), unpackChannels data (samples * audioSampleSize) mask 0 0 channels)
      else .error .capacityOverflow := by
  rw [decodePlanarIntoOut_refusal, (planarRefusal_none ..).mpr accepted]
  obtain ⟨some, few, payload, planes, enough⟩ := accepted
  dsimp only
  by_cases fits : channels * samples * audioSampleSize ≤ isizeMax
  · rw [filled_fits _ _ fits, if_pos fits]
    dsimp only [bind, Except.bind]
    have ones : planeRank mask channels * (samples * audioSampleSize) ≤
        countOnes mask * (samples * audioSampleSize) :=
      Nat.mul_le_mul_right _ (planeRank_ones mask channels few)
    rw [Nat.mul_assoc] at payload planes enough ⊢
    have copied := copyPlanes_unpacks data samples mask channels 0 0 [] (by omega) (by simp)
      (by rw [onesFrom_zero]; omega) (by rw [onesFrom_zero]; omega)
      (by rw [Nat.zero_add]; exact planes)
    rw [List.nil_append, List.nil_append] at copied
    rw [copied]
    rfl
  · rw [filled, if_neg fits, if_neg fits]
    rfl

/-- The planes of the output: the payload's blocks in the order of the mask's bits, and
zeros for the other channels. -/
structure HasPlanes (data out : List UInt8) (channels samples : Nat) (mask : UInt32) : Prop where
  length : out.length = channels * samples * audioSampleSize
  plane : ∀ index < channels,
    slice out (index * (samples * audioSampleSize)) ((index + 1) * (samples * audioSampleSize)) =
      if channelActive mask index then
        slice data (planeRank mask index * (samples * audioSampleSize))
          ((planeRank mask index + 1) * (samples * audioSampleSize))
      else List.replicate (samples * audioSampleSize) 0

theorem unpackChannels_length (data : List UInt8) (bytes : Nat) (mask : UInt32)
    (offset index count : Nat)
    (enough : offset + onesFrom mask index count * bytes ≤ data.length) :
    (unpackChannels data bytes mask offset index count).length = count * bytes := by
  induction count generalizing offset index with
  | zero => exact (Nat.zero_mul bytes).symm
  | succ count ih =>
      have later := ih (offsetPast bytes mask offset index) (index + 1)
        (by rw [offsetPast_ones]; exact enough)
      rw [unpackChannels_succ, List.length_append, planeFrom_length _ _ _ _ _ count enough, later,
        Nat.succ_mul, Nat.add_comm]

theorem unpackChannels_plane (data : List UInt8) (bytes : Nat) (mask : UInt32)
    (offset index count place : Nat) (inside : place < count)
    (enough : offset + onesFrom mask index count * bytes ≤ data.length) :
    slice (unpackChannels data bytes mask offset index count) (place * bytes)
        ((place + 1) * bytes) =
      planeFrom data bytes mask (offset + onesFrom mask index place * bytes) (index + place) := by
  induction count generalizing offset index place with
  | zero => exact absurd inside (Nat.not_lt_zero place)
  | succ count ih =>
      have read := planeFrom_length data bytes mask offset index count enough
      rw [unpackChannels_succ]
      cases place with
      | zero =>
          have none : onesFrom mask index 0 = 0 := rfl
          rw [none, Nat.zero_mul, Nat.zero_add, Nat.one_mul, slice_head _ _ _ read, Nat.add_zero,
            Nat.add_zero]
      | succ place =>
          have past : (place + 1) * bytes = place * bytes + bytes := Nat.succ_mul ..
          have later := ih (offsetPast bytes mask offset index) (index + 1) place
            (Nat.lt_of_succ_lt_succ inside) (by rw [offsetPast_ones]; exact enough)
          rw [slice_skip _ _ _ _ (by rw [read]; omega), read, past, Nat.succ_mul (place + 1),
            Nat.add_sub_cancel, Nat.add_sub_cancel, later, offsetPast_ones, Nat.add_assoc index,
            Nat.add_comm 1 place]

theorem unpackChannels_planes (data : List UInt8) (channels samples : Nat) (mask : UInt32)
    (accepted : PlanarAccepted data channels samples mask) :
    HasPlanes data (unpackChannels data (samples * audioSampleSize) mask 0 0 channels) channels
      samples mask := by
  have ones : planeRank mask channels * (samples * audioSampleSize) ≤
      countOnes mask * (samples * audioSampleSize) :=
    Nat.mul_le_mul_right _ (planeRank_ones mask channels accepted.few)
  have whole := accepted.enough
  rw [Nat.mul_assoc] at whole
  have enough : 0 + onesFrom mask 0 channels * (samples * audioSampleSize) ≤ data.length := by
    rw [onesFrom_zero]
    omega
  constructor
  · rw [unpackChannels_length _ _ _ _ _ _ enough, Nat.mul_assoc]
  · intro index inside
    rw [unpackChannels_plane data _ mask 0 0 channels index inside enough, planeFrom, Nat.zero_add,
      Nat.zero_add, onesFrom_zero, Nat.succ_mul]

/-- No step goes out of range; a refused call leaves `out` alone; the calls with sizes
that fit and enough data are the accepted ones, and they fill the planes. -/
def TotalAndAtomic (data : List UInt8) (channels samples : Nat) (mask : UInt32)
    (out : List UInt8) : Prop :=
  ∃ result after, decodePlanarIntoOut data channels samples mask out = .ok (result, after) ∧
    (result ≠ .ok () → after = out) ∧
    (result = .ok () ↔ PlanarAccepted data channels samples mask) ∧
    (result = .ok () → HasPlanes data after channels samples mask)

/-- The allocation is the only step that can fail. -/
theorem decode_total_iff (data : List UInt8) (channels samples : Nat) (mask : UInt32)
    (out : List UInt8) :
    TotalAndAtomic data channels samples mask out ↔
      (PlanarAccepted data channels samples mask →
        channels * samples * audioSampleSize ≤ isizeMax) := by
  by_cases accepted : PlanarAccepted data channels samples mask
  · have ran := decodePlanarIntoOut_accepted data channels samples mask out accepted
    constructor
    · rintro ⟨result, after, done, _⟩ _
      by_contra large
      rw [if_neg large, done] at ran
      cases ran
    · intro small
      rw [if_pos (small accepted)] at ran
      exact ⟨.ok (), _, ran, fun other => absurd rfl other, ⟨fun _ => accepted, fun _ => rfl⟩,
        fun _ => unpackChannels_planes data channels samples mask accepted⟩
  · obtain ⟨error, refused⟩ :=
      Option.ne_none_iff_exists'.mp fun passed => accepted ((planarRefusal_none ..).mp passed)
    have ran := decodePlanarIntoOut_refusal data channels samples mask out
    rw [refused] at ran
    refine ⟨fun _ given => absurd given accepted, fun _ => ⟨.error error, out, ran, fun _ => rfl,
      ⟨?_, fun given => absurd given accepted⟩, ?_⟩⟩
    · intro same
      cases same
    · intro same
      cases same

/-- Thirty-two silent channels of 2^56 samples: the size fits in a word, but no vector
can have that many bytes. -/
theorem silent_planes_fault :
    decodePlanarIntoOut [] 32 (2 ^ 56) 0 [] = .error .capacityOverflow ∧
      ¬ TotalAndAtomic [] 32 (2 ^ 56) 0 [] := by
  have ran : decodePlanarIntoOut [] 32 (2 ^ 56) 0 [] = .error .capacityOverflow := by decide +kernel
  refine ⟨ran, ?_⟩
  rintro ⟨result, after, done, _⟩
  rw [ran] at done
  cases done

/-- The call with its buffer answers what the value says, as long as the planes can be
allocated. -/
theorem decodePlanarIntoOut_value (data : List UInt8) (channels samples : Nat) (mask : UInt32)
    (out : List UInt8) (small : channels * samples * audioSampleSize ≤ isizeMax) :
    decodePlanarIntoOut data channels samples mask out =
      match decodePlanarInto data channels samples mask with
      | .ok pcm => .ok (.ok (), pcm)
      | .error error => .ok (.error error, out) := by
  rw [decodePlanarInto_refusal]
  cases refused : planarRefusal data channels samples mask with
  | some error => rw [decodePlanarIntoOut_refusal, refused]
  | none =>
      have accepted := (planarRefusal_none ..).mp refused
      rw [decodePlanarIntoOut_accepted data channels samples mask out accepted, if_pos small]

end OpenMediaTransport
