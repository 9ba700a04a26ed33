import Mathlib.Algebra.Ring.Int.Defs
import Mathlib.Algebra.Ring.Nat
import Mathlib.Data.Nat.Basic

/-!
Fixed-width little-endian numbers as byte lists. `digits` is the writer and
`number` the reader; the sized wrappers below them follow `to_le_bytes` and
`from_le_bytes` of the integer types a wire format uses. A reader is total:
it takes whatever bytes it is given, and only the round trips ask for the
exact width.
-/

namespace OpenMediaTransport.LittleEndian

def digits : Nat → Nat → List UInt8
  | 0, _ => []
  | width + 1, value => UInt8.ofNat (value % 256) :: digits width (value / 256)

def number : List UInt8 → Nat
  | [] => 0
  | byte :: rest => byte.toNat + 256 * number rest

@[simp] theorem digits_length (width value : Nat) : (digits width value).length = width := by
  induction width generalizing value with
  | zero => rfl
  | succ width ih => simp [digits, ih]

theorem number_bound (bytes : List UInt8) : number bytes < 256 ^ bytes.length := by
  induction bytes with
  | nil => simp [number]
  | cons byte rest ih =>
      have small := byte.toNat_lt
      simp only [number, List.length_cons, Nat.pow_succ]
      omega

theorem number_digits (width value : Nat) (fits : value < 256 ^ width) :
    number (digits width value) = value := by
  induction width generalizing value with
  | zero => simp only [Nat.pow_zero] at fits; simp only [digits, number]; omega
  | succ width ih =>
      have quotient : value / 256 < 256 ^ width := by
        rw [Nat.pow_succ] at fits
        exact Nat.div_lt_of_lt_mul (by omega)
      have low : (UInt8.ofNat (value % 256)).toNat = value % 256 :=
        UInt8.toNat_ofNat_of_lt' (Nat.mod_lt _ (by decide))
      rw [digits, number, ih _ quotient, low]
      omega

theorem digits_number (bytes : List UInt8) : digits bytes.length (number bytes) = bytes := by
  induction bytes with
  | nil => rfl
  | cons byte rest ih =>
      have small := byte.toNat_lt
      have high : (byte.toNat + 256 * number rest) / 256 = number rest := by omega
      have low : (byte.toNat + 256 * number rest) % 256 = byte.toNat := by omega
      simp only [number, List.length_cons, digits, high, low, ih, UInt8.ofNat_toNat]

/-! Sized integers. Signed values travel as the unsigned value of the same bits. -/

def u16Bytes (value : UInt16) : List UInt8 := digits 2 value.toNat
def u32Bytes (value : UInt32) : List UInt8 := digits 4 value.toNat
def i32Bytes (value : Int32) : List UInt8 := u32Bytes value.toUInt32
def i64Bytes (value : Int64) : List UInt8 := digits 8 value.toUInt64.toNat

def u16Of (bytes : List UInt8) : UInt16 := UInt16.ofNat (number bytes)
def u32Of (bytes : List UInt8) : UInt32 := UInt32.ofNat (number bytes)
def i32Of (bytes : List UInt8) : Int32 := (u32Of bytes).toInt32
def i64Of (bytes : List UInt8) : Int64 := (UInt64.ofNat (number bytes)).toInt64

@[simp] theorem u16_length (value : UInt16) : (u16Bytes value).length = 2 := digits_length _ _
@[simp] theorem u32_length (value : UInt32) : (u32Bytes value).length = 4 := digits_length _ _
@[simp] theorem i32_length (value : Int32) : (i32Bytes value).length = 4 := digits_length _ _
@[simp] theorem i64_length (value : Int64) : (i64Bytes value).length = 8 := digits_length _ _

@[simp] theorem u16_read (value : UInt16) : u16Of (u16Bytes value) = value := by
  rw [u16Of, u16Bytes, number_digits _ _ value.toNat_lt]
  exact UInt16.ofNat_toNat

@[simp] theorem u32_read (value : UInt32) : u32Of (u32Bytes value) = value := by
  rw [u32Of, u32Bytes, number_digits _ _ value.toNat_lt]
  exact UInt32.ofNat_toNat

@[simp] theorem i32_read (value : Int32) : i32Of (i32Bytes value) = value := by
  rw [i32Of, i32Bytes, u32_read]
  exact Int32.toInt32_toUInt32 value

@[simp] theorem i64_read (value : Int64) : i64Of (i64Bytes value) = value := by
  rw [i64Of, i64Bytes, number_digits _ _ value.toUInt64.toNat_lt, UInt64.ofNat_toNat]
  exact Int64.toInt64_toUInt64 value

theorem u16_write (bytes : List UInt8) (width : bytes.length = 2) :
    u16Bytes (u16Of bytes) = bytes := by
  have bound : number bytes < 2 ^ 16 := by simpa [width] using number_bound bytes
  rw [u16Bytes, u16Of, UInt16.toNat_ofNat_of_lt' bound, ← width]
  exact digits_number bytes

theorem u32_write (bytes : List UInt8) (width : bytes.length = 4) :
    u32Bytes (u32Of bytes) = bytes := by
  have bound : number bytes < 2 ^ 32 := by simpa [width] using number_bound bytes
  rw [u32Bytes, u32Of, UInt32.toNat_ofNat_of_lt' bound, ← width]
  exact digits_number bytes

theorem i32_write (bytes : List UInt8) (width : bytes.length = 4) :
    i32Bytes (i32Of bytes) = bytes := by
  rw [i32Bytes, i32Of, UInt32.toUInt32_toInt32]
  exact u32_write bytes width

theorem i64_write (bytes : List UInt8) (width : bytes.length = 8) :
    i64Bytes (i64Of bytes) = bytes := by
  have bound : number bytes < 2 ^ 64 := by simpa [width] using number_bound bytes
  rw [i64Bytes, i64Of, UInt64.toUInt64_toInt64, UInt64.toNat_ofNat_of_lt' bound, ← width]
  exact digits_number bytes

/-! Byte ranges, `bytes[start..stop]` of a buffer known to be long enough. -/
section Ranges
variable {α : Type}

def slice (buffer : List α) (start stop : Nat) : List α := (buffer.drop start).take (stop - start)

theorem slice_length (buffer : List α) (start stop : Nat) (inside : stop ≤ buffer.length) :
    (slice buffer start stop).length = stop - start := by
  simp only [slice, List.length_take, List.length_drop]
  omega

theorem slice_head (front rest : List α) (stop : Nat) (closes : front.length = stop) :
    slice (front ++ rest) 0 stop = front := by
  simp [slice, ← closes]

/-- A range beyond the front part is a range of the rest. -/
theorem slice_skip (front rest : List α) (start stop : Nat) (past : front.length ≤ start) :
    slice (front ++ rest) start stop = slice rest (start - front.length) (stop - front.length) := by
  have opens : (front ++ rest).drop start = rest.drop (start - front.length) := by
    rw [List.drop_append, List.drop_eq_nil_of_le past, List.nil_append]
  have width : stop - front.length - (start - front.length) = stop - start := by omega
  rw [slice, slice, opens, width]

theorem slice_cons (first : α) (rest : List α) (start stop : Nat) (past : 0 < start) :
    slice (first :: rest) start stop = slice rest (start - 1) (stop - 1) :=
  slice_skip [first] rest start stop past

theorem slice_join (buffer : List α) (start middle stop : Nat)
    (lower : start ≤ middle) (upper : middle ≤ stop) :
    slice buffer start middle ++ slice buffer middle stop = slice buffer start stop := by
  have shift : buffer.drop middle = (buffer.drop start).drop (middle - start) := by
    rw [List.drop_drop]
    congr 1
    omega
  have width : stop - start = (middle - start) + (stop - middle) := by omega
  rw [slice, slice, slice, shift, width, List.take_add]

theorem slice_chunks (buffer : List α) (base width count : Nat) :
    (List.range count).flatMap (fun place =>
        slice buffer (base + place * width) (base + place * width + width)) =
      slice buffer base (base + count * width) := by
  induction count with
  | zero => simp [slice]
  | succ count ih =>
      rw [List.range_succ, List.flatMap_append, ih, List.flatMap_singleton, Nat.succ_mul,
        ← Nat.add_assoc]
      exact slice_join buffer base _ _ (Nat.le_add_right _ _) (Nat.le_add_right _ _)

theorem slice_front (buffer : List α) (stop : Nat) : slice buffer 0 stop = buffer.take stop := by
  simp [slice]

/-- A range that ends inside the front part does not see what is appended. -/
theorem slice_append (buffer more : List α) (start stop : Nat) (inside : stop ≤ buffer.length) :
    slice (buffer ++ more) start stop = slice buffer start stop := by
  by_cases order : start ≤ stop
  · rw [slice, slice, List.drop_append_of_le_length (by omega), List.take_append_of_le_length]
    simp only [List.length_drop]
    omega
  · have empty : stop - start = 0 := by omega
    simp [slice, empty]
end Ranges

end OpenMediaTransport.LittleEndian
