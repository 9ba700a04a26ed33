/-!
The wire enumerations, bit sets and size limits of `types.rs`, and the errors of
`error.rs` that the modelled code raises. Protocol errors keep their data and
render to the source's text in `ProtocolError.message`.
-/

namespace OpenMediaTransport

structure FrameType where
  bits : UInt8
  deriving DecidableEq, Repr

namespace FrameType

def none : FrameType := ⟨0⟩
def metadata : FrameType := ⟨1⟩
def video : FrameType := ⟨2⟩
def audio : FrameType := ⟨4⟩

def contains (self other : FrameType) : Bool := (self.bits &&& other.bits) == other.bits

end FrameType

structure VideoFlags where
  bits : Int32
  deriving DecidableEq, Repr

namespace VideoFlags

def none : VideoFlags := ⟨0⟩
def alpha : VideoFlags := ⟨2⟩
def preview : VideoFlags := ⟨8⟩
def highBitDepth : VideoFlags := ⟨16⟩

def contains (self other : VideoFlags) : Bool := (self.bits &&& other.bits) == other.bits

end VideoFlags

inductive Codec where
  | vmx1 | fpa1 | uyvy | yuy2 | bgra | nv12 | yv12 | uyva | p216 | pa16
  deriving DecidableEq, Repr

namespace Codec

def asI32 : Codec → Int32
  | .vmx1 => 0x31584D56
  | .fpa1 => 0x31415046
  | .uyvy => 0x59565955
  | .yuy2 => 0x32595559
  | .bgra => 0x41524742
  | .nv12 => 0x3231564E
  | .yv12 => 0x32315659
  | .uyva => 0x41565955
  | .p216 => 0x36313250
  | .pa16 => 0x36314150

def fromI32 (raw : Int32) : Option Codec :=
  if raw = asI32 .vmx1 then some .vmx1
  else if raw = asI32 .fpa1 then some .fpa1
  else if raw = asI32 .uyvy then some .uyvy
  else if raw = asI32 .yuy2 then some .yuy2
  else if raw = asI32 .bgra then some .bgra
  else if raw = asI32 .nv12 then some .nv12
  else if raw = asI32 .yv12 then some .yv12
  else if raw = asI32 .uyva then some .uyva
  else if raw = asI32 .p216 then some .p216
  else if raw = asI32 .pa16 then some .pa16
  else none

@[simp] theorem fromI32_asI32 (codec : Codec) : fromI32 codec.asI32 = some codec := by
  cases codec <;> decide

theorem asI32_of_fromI32 (raw : Int32) (codec : Codec) (known : fromI32 raw = some codec) :
    codec.asI32 = raw := by
  have test (first : Codec) (later : Option Codec)
      (rest : later = some codec → codec.asI32 = raw)
      (taken : (if raw = first.asI32 then some first else later) = some codec) :
      codec.asI32 = raw := by
    by_cases same : raw = first.asI32
    · rw [if_pos same] at taken
      cases taken
      exact same.symm
    · rw [if_neg same] at taken
      exact rest taken
  have unknown (absent : (Option.none : Option Codec) = some codec) : codec.asI32 = raw := by
    cases absent
  -- The tests of `from_i32`, in its order.
  exact test .vmx1 _ (test .fpa1 _ (test .uyvy _ (test .yuy2 _ (test .bgra _ (test .nv12 _
    (test .yv12 _ (test .uyva _ (test .p216 _ (test .pa16 _ unknown))))))))) known

end Codec

inductive ColorSpace where
  | undefined | bt601 | bt709
  deriving DecidableEq, Repr

namespace ColorSpace

def code : ColorSpace → Int32
  | .undefined => 0
  | .bt601 => 601
  | .bt709 => 709

/-- The decoder's `match cs`: an unknown code reads as `Undefined`. -/
def ofCode (raw : Int32) : ColorSpace :=
  if raw = 601 then .bt601 else if raw = 709 then .bt709 else .undefined

@[simp] theorem ofCode_code (space : ColorSpace) : ofCode space.code = space := by
  cases space <;> decide

end ColorSpace

inductive Quality where
  | default | low | medium | high
  deriving DecidableEq, Repr

structure Tally where
  preview : Int32 := 0
  program : Int32 := 0
  deriving DecidableEq, Repr

/-! Size limits of `types.rs`. -/

def networkReceiveMaxTransfer : Nat := 128 * 1024
def videoMaxSize : Nat := 10485760
def audioMaxSize : Nat := 1048576
def metadataFrameSize : Nat := 65536
def maxInstanceNameLength : Nat := 63

/-- `std::io::ErrorKind`, as far as the code tells kinds apart. -/
inductive ErrorKind where
  | wouldBlock | timedOut | interrupted | other
  deriving DecidableEq, Repr

inductive ProtocolError where
  | headerTooShort
  | unsupportedVersion (version : UInt8)
  | videoHeaderTooShort
  | unknownVideoCodec (raw : Int32)
  | audioHeaderTooShort
  | unknownAudioCodec (raw : Int32)
  | negativeDataLength
  | frameTruncated
  | metadataLongerThanBody
  | missingVideoHeader
  | missingAudioHeader
  | dataLengthExceedsMax (length max : Nat)
  | invalidFrameType (bits : UInt8)
  | reassemblyOverflow
  | invalidMetadataUtf8 (validUpTo : Nat) (errorLen : Option Nat)
  | invalidMetadataXml (reason : String)
  | fpa1PayloadTooShort
  deriving DecidableEq, Repr

/-- `{:#x}` of an `i32` prints its two's complement bits. -/
def hexOf (raw : Int32) : String := "0x" ++ String.ofList (Nat.toDigits 16 raw.toUInt32.toNat)

def ProtocolError.message : ProtocolError → String
  | .headerTooShort => "frame header too short"
  | .unsupportedVersion version => s!"unsupported protocol version {version}"
  | .videoHeaderTooShort => "video header too short"
  | .unknownVideoCodec raw => s!"unknown video codec {hexOf raw}"
  | .audioHeaderTooShort => "audio header too short"
  | .unknownAudioCodec raw => s!"unknown audio codec {hexOf raw}"
  | .negativeDataLength => "negative data_length"
  | .frameTruncated => "frame truncated"
  | .metadataLongerThanBody => "metadata longer than body"
  | .missingVideoHeader => "missing video extended header"
  | .missingAudioHeader => "missing audio extended header"
  | .dataLengthExceedsMax length max => s!"data_length {length} exceeds max {max}"
  | .invalidFrameType bits => s!"invalid frame type {bits}"
  | .reassemblyOverflow => "reassembly buffer overflow"
  | .invalidMetadataUtf8 validUpTo (some errorLen) =>
      s!"invalid metadata utf-8: invalid utf-8 sequence of {errorLen} bytes from index {validUpTo}"
  | .invalidMetadataUtf8 validUpTo none =>
      s!"invalid metadata utf-8: incomplete utf-8 byte sequence from index {validUpTo}"
  | .invalidMetadataXml reason => "invalid metadata XML: " ++ reason
  | .fpa1PayloadTooShort => "FPA1 payload too short"

inductive OmtError where
  | invalidArgument (message : String)
  | network (message : String)
  | protocol (error : ProtocolError)
  | io (kind : ErrorKind) (message : String)
  deriving DecidableEq, Repr

def OmtError.message : OmtError → String
  | .invalidArgument message => "invalid argument: " ++ message
  | .network message => "network error: " ++ message
  | .protocol error => "protocol error: " ++ error.message
  | .io _ message => "I/O error: " ++ message

end OpenMediaTransport
