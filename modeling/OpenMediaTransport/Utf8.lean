import Mathlib.Data.List.Basic

/-!
UTF-8 on lists. A text is its list of characters and its encoding the bytes of
each character in turn. Decoding takes the character at the front, or reports
how many bytes cannot begin one: the longest front of a well-formed sequence,
or a single byte. The strict decoder stops there with the position, the lossy
one puts U+FFFD in their place.
-/

namespace OpenMediaTransport.Utf8

def encode (text : List Char) : List UInt8 := text.flatMap String.utf8EncodeChar

def first? (bytes : List UInt8) : Option Char := bytes.toByteArray.utf8DecodeChar? 0

/-- The length of the sequences a lead byte begins; 0 for a byte that begins none. -/
def sequenceWidth (lead : UInt8) : Nat :=
  if lead < 0x80 then 1
  else if lead < 0xC2 then 0
  else if lead < 0xE0 then 2
  else if lead < 0xF0 then 3
  else if lead < 0xF5 then 4
  else 0

def isContinuation (byte : UInt8) : Bool := 0x80 ≤ byte && byte ≤ 0xBF

/-- Whether a second byte can follow the lead byte: overlong forms, surrogates
and values past U+10FFFF are excluded here. -/
def continues (lead second : UInt8) : Bool :=
  if lead = 0xE0 then 0xA0 ≤ second && second ≤ 0xBF
  else if lead = 0xED then 0x80 ≤ second && second ≤ 0x9F
  else if lead = 0xF0 then 0x90 ≤ second && second ≤ 0xBF
  else if lead = 0xF4 then 0x80 ≤ second && second ≤ 0x8F
  else isContinuation second

/-- The bytes that go together at the front of an ill-formed input, and whether
the input merely ended too early. -/
def illFormed : List UInt8 → Nat × Bool
  | [] => (0, false)
  | [lead] => (1, 2 ≤ sequenceWidth lead)
  | lead :: second :: rest =>
      if sequenceWidth lead < 3 || !continues lead second then (1, false)
      else match rest with
        | [] => (2, true)
        | third :: tail =>
            if sequenceWidth lead < 4 || !isContinuation third then (2, false)
            else (3, tail.isEmpty)

theorem illFormed_positive (lead : UInt8) (rest : List UInt8) : 0 < (illFormed (lead :: rest)).1 := by
  unfold illFormed
  split <;> rename_i same
  · cases same
  · exact Nat.one_pos
  · split
    · exact Nat.one_pos
    · split
      · exact Nat.two_pos
      · split
        · exact Nat.two_pos
        · exact Nat.succ_pos 2

/-- Where strict decoding stops: `errorLen` is absent when the input ended in
the middle of a sequence. -/
structure DecodeError where
  validUpTo : Nat
  errorLen : Option Nat
  deriving DecidableEq, Repr

def decodeFrom (position : Nat) (bytes : List UInt8) : Except DecodeError (List Char) :=
  match bytes with
  | [] => .ok []
  | lead :: rest =>
      match first? (lead :: rest) with
      | some char =>
          match decodeFrom (position + char.utf8Size) ((lead :: rest).drop char.utf8Size) with
          | .ok tail => .ok (char :: tail)
          | .error error => .error error
      | none =>
          let bad := illFormed (lead :: rest)
          .error ⟨position, if bad.2 then none else some bad.1⟩
termination_by bytes.length
decreasing_by
  have positive := char.utf8Size_pos
  simp only [List.length_drop, List.length_cons]
  omega

def decode (bytes : List UInt8) : Except DecodeError (List Char) := decodeFrom 0 bytes

def decodeLossy (bytes : List UInt8) : List Char :=
  match bytes with
  | [] => []
  | lead :: rest =>
      match first? (lead :: rest) with
      | some char => char :: decodeLossy ((lead :: rest).drop char.utf8Size)
      | none => Char.ofNat 0xFFFD :: decodeLossy ((lead :: rest).drop (illFormed (lead :: rest)).1)
termination_by bytes.length
decreasing_by
  · have positive := char.utf8Size_pos
    simp only [List.length_drop, List.length_cons]
    omega
  · have positive := illFormed_positive lead rest
    simp only [List.length_drop, List.length_cons]
    omega

@[simp] theorem encode_nil : encode [] = [] := rfl

@[simp] theorem encode_cons (char : Char) (text : List Char) :
    encode (char :: text) = String.utf8EncodeChar char ++ encode text := rfl

theorem encode_append (text more : List Char) : encode (text ++ more) = encode text ++ encode more := by
  unfold encode
  exact List.flatMap_append

theorem first_encode (char : Char) (rest : List UInt8) :
    first? (String.utf8EncodeChar char ++ rest) = some char := by
  unfold first?
  rw [List.toByteArray_append]
  exact ByteArray.utf8DecodeChar?_utf8EncodeChar_append

theorem drop_encode (char : Char) (rest : List UInt8) :
    (String.utf8EncodeChar char ++ rest).drop char.utf8Size = rest := by
  rw [← String.length_utf8EncodeChar, List.drop_left]

theorem encode_nonempty (char : Char) (rest : List UInt8) :
    ∃ lead tail, String.utf8EncodeChar char ++ rest = lead :: tail := by
  have size := String.length_utf8EncodeChar char
  have positive := char.utf8Size_pos
  cases bytes : String.utf8EncodeChar char with
  | nil => rw [bytes, List.length_nil] at size; omega
  | cons lead tail => exact ⟨lead, tail ++ rest, rfl⟩

theorem decodeFrom_encode (text : List Char) (position : Nat) :
    decodeFrom position (encode text) = .ok text := by
  induction text generalizing position with
  | nil => rw [encode_nil, decodeFrom]
  | cons char rest ih =>
      obtain ⟨lead, tail, shape⟩ := encode_nonempty char (encode rest)
      have front := first_encode char (encode rest)
      have back := drop_encode char (encode rest)
      rw [shape] at front back
      rw [encode_cons, shape, decodeFrom, front]
      dsimp only
      rw [back, ih]

theorem decode_encode (text : List Char) : decode (encode text) = .ok text :=
  decodeFrom_encode text 0

theorem decodeLossy_encode (text : List Char) : decodeLossy (encode text) = text := by
  induction text with
  | nil => rw [encode_nil, decodeLossy]
  | cons char rest ih =>
      obtain ⟨lead, tail, shape⟩ := encode_nonempty char (encode rest)
      have front := first_encode char (encode rest)
      have back := drop_encode char (encode rest)
      rw [shape] at front back
      rw [encode_cons, shape, decodeLossy, front]
      dsimp only
      rw [back, ih]

/-! The zero byte encodes the zero character and appears nowhere else. -/

theorem lead_bit (byte mark : UInt8) (high : 128 ≤ mark.toNat) : 0 ≠ byte ||| mark := by
  intro zero
  have bits := congrArg UInt8.toNat zero
  rw [UInt8.toNat_or] at bits
  have bound : mark.toNat ≤ byte.toNat ||| mark.toNat := Nat.right_le_or
  simp only [UInt8.toNat_zero] at bits
  omega

theorem zero_encodes (char : Char) (zero : 0 ∈ String.utf8EncodeChar char) :
    char = Char.ofNat 0 := by
  rcases char.utf8Size_eq with one | two | three | four
  · rw [String.utf8EncodeChar_eq_singleton one] at zero
    have small := Char.utf8Size_eq_one_iff.mp one
    have value := congrArg UInt8.toNat (List.mem_singleton.mp zero)
    rw [UInt32.le_iff_toNat_le] at small
    simp only [UInt32.toNat_toUInt8, UInt8.toNat_zero, UInt32.reduceToNat] at value small
    apply Char.ext
    apply UInt32.toNat_inj.mp
    change char.val.toNat = 0
    omega
  · rw [String.utf8EncodeChar_eq_cons_cons two] at zero
    simp [lead_bit] at zero
  · rw [String.utf8EncodeChar_eq_cons_cons_cons three] at zero
    simp [lead_bit] at zero
  · rw [String.utf8EncodeChar_eq_cons_cons_cons_cons four] at zero
    simp [lead_bit] at zero

theorem zero_not_encoded (text : List Char) (clean : Char.ofNat 0 ∉ text) : 0 ∉ encode text := by
  intro zero
  obtain ⟨char, member, bytes⟩ := List.mem_flatMap.mp zero
  rw [zero_encodes char bytes] at member
  exact clean member

end OpenMediaTransport.Utf8
