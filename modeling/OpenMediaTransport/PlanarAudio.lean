import OpenMediaTransport.LittleEndian
import OpenMediaTransport.WireTypes

/-!
`codec/fpa1.rs`. A sample is the 32 bits of its `f32`; a channel whose samples
are all positive zero is left out and its mask bit stays clear. The decoder
fills adjoining planes of one output buffer, which is their concatenation here,
and `usize` is 64 bits wide.
-/

namespace OpenMediaTransport

open LittleEndian

def channelIsSilent (samples : List UInt32) : Bool := samples.all (· == 0)

def packChannels (index : Nat) : List (List UInt32) → List UInt8 × UInt32
  | [] => ([], 0)
  | channel :: rest =>
      let tail := packChannels (index + 1) rest
      if channelIsSilent channel then tail
      else (channel.flatMap u32Bytes ++ tail.1, (1 <<< UInt32.ofNat index) ||| tail.2)

def encodePlanar (channels : List (List UInt32)) : Except OmtError (List UInt8 × UInt32) :=
  match channels with
  | [] => .error (.invalidArgument "FPA1 requires at least one channel")
  | first :: _ =>
      if 32 < channels.length then
        .error (.invalidArgument "FPA1 supports at most 32 channels")
      else if channels.any (fun channel => channel.length != first.length) then
        .error (.invalidArgument "all FPA1 channels must have the same sample count")
      else .ok (packChannels 0 channels)

def audioSampleSize : Nat := 4

def checkedMul (left right : Nat) : Option Nat :=
  if left * right < 2 ^ 64 then some (left * right) else none

def channelActive (activeChannels : UInt32) (index : Nat) : Bool :=
  activeChannels &&& (1 <<< UInt32.ofNat index) == 1 <<< UInt32.ofNat index

def countOnes (mask : UInt32) : Nat := (List.range 32).countP (channelActive mask)

def unpackChannels (data : List UInt8) (bytes : Nat) (activeChannels : UInt32)
    (offset index : Nat) : Nat → List UInt8
  | 0 => []
  | count + 1 =>
      if channelActive activeChannels index then
        slice data offset (offset + bytes) ++
          unpackChannels data bytes activeChannels (offset + bytes) (index + 1) count
      else
        List.replicate bytes 0 ++
          unpackChannels data bytes activeChannels offset (index + 1) count

def decodePlanarInto (data : List UInt8) (channels samplesPerChannel : Nat)
    (activeChannels : UInt32) : Except OmtError (List UInt8) :=
  if channels = 0 ∨ 32 < channels then
    .error (.invalidArgument "FPA1 channel count must be 1..=32")
  else
    match (checkedMul (countOnes activeChannels) samplesPerChannel).bind
        (checkedMul · audioSampleSize) with
    | none => .error (.invalidArgument "FPA1 size overflow")
    | some expected =>
        if data.length < expected then .error (.protocol .fpa1PayloadTooShort)
        else
          match (checkedMul channels samplesPerChannel).bind (checkedMul · audioSampleSize) with
          | none => .error (.invalidArgument "FPA1 size overflow")
          | some _ =>
              .ok (unpackChannels data (samplesPerChannel * audioSampleSize) activeChannels 0 0
                channels)

theorem channel_bytes_length (samples : List UInt32) :
    (samples.flatMap u32Bytes).length = samples.length * 4 := by
  induction samples with
  | nil => rfl
  | cons sample rest ih =>
      rw [List.flatMap_cons, List.length_append, ih, u32_length, List.length_cons]
      omega

theorem packChannels_length (channels : List (List UInt32)) (samples index : Nat)
    (planar : ∀ channel ∈ channels, channel.length = samples) :
    (packChannels index channels).1.length ≤ channels.length * (samples * 4) := by
  induction channels generalizing index with
  | nil => exact Nat.zero_le _
  | cons channel rest ih =>
      have tail := ih (index + 1) (fun other member => planar other (List.mem_cons_of_mem _ member))
      have width := planar channel List.mem_cons_self
      rw [packChannels, List.length_cons, Nat.succ_mul]
      by_cases silent : channelIsSilent channel = true
      · rw [if_pos silent]
        exact Nat.le_add_right_of_le tail
      · rw [if_neg silent, List.length_append, channel_bytes_length, width]
        omega

theorem encodePlanar_length (channels : List (List UInt32)) (samples : Nat)
    (packed : List UInt8 × UInt32) (planar : ∀ channel ∈ channels, channel.length = samples)
    (ok : encodePlanar channels = .ok packed) :
    packed.1.length ≤ channels.length * (samples * 4) := by
  unfold encodePlanar at ok
  split at ok
  · cases ok
  split at ok
  · cases ok
  split at ok
  · cases ok
  · cases ok
    exact packChannels_length _ samples 0 planar

end OpenMediaTransport
