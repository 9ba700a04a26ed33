import OpenMediaTransport.SenderAssembly

/-!
`VideoEncoder::encode_raw` of `send_video.rs`, up to the call of the VMX encoder. The codec
is one of another crate and enters as an abstract type with its operations. `usize` is 64
bits wide; a stride times a height, each an `i32`, is far from its end.
-/

namespace OpenMediaTransport

/-- A frame with the row stride in bytes, which only raw video encoding reads. -/
structure RawFrame extends MediaFrame where
  stride : Int32 := 0

/-- The errors of `encode_raw`; `ε` is the codec's. -/
inductive EncodeError (ε : Type) where
  | invalidArgument (message : String)
  | vmx (error : ε)
  | notImplemented (what : String)

inductive VmxProfile where
  | default | omtLq | omtSq | omtHq
  deriving DecidableEq

inductive VmxColorSpace where
  | undefined | bt601 | bt709
  deriving DecidableEq

structure VmxConfig where
  width : Int32
  height : Int32
  profile : VmxProfile
  colorSpace : VmxColorSpace

/-- What `ensure_codec` uses of a codec. -/
structure VmxLibrary (V Q ε : Type) where
  new : VmxConfig → Except ε V
  quality : V → Q
  setQuality : V → Q → V

/-- Without the buffers of `save_bitstream`. -/
structure VideoEncoder (V : Type) where
  codec : Option V
  width : Int32
  height : Int32
  profile : VmxProfile
  colorSpace : VmxColorSpace

inductive PackedCall where
  | encodeUyvy | encodeYuy2 | encodeBgra | encodeBgrx
  deriving DecidableEq

/-- The call that `encode_raw` makes, with the planes and strides that it passes on. -/
inductive EncodeCall where
  | packed (function : PackedCall) (data : List UInt8) (stride : Nat)
  | nv12 (y : List UInt8) (yStride : Nat) (uv : List UInt8) (uvStride : Nat)
  | yv12 (y : List UInt8) (yStride : Nat) (u : List UInt8) (uStride : Nat) (v : List UInt8)
      (vStride : Nat)
  deriving DecidableEq

namespace VideoEncoder

def new {V : Type} : VideoEncoder V :=
  { codec := none, width := 0, height := 0, profile := .default, colorSpace := .undefined }

def vmxProfile : Quality → VmxProfile
  | .low => .omtLq
  | .medium => .omtSq
  | .high => .omtHq
  | .default => .default

def mapColorSpace : ColorSpace → VmxColorSpace
  | .undefined => .undefined
  | .bt601 => .bt601
  | .bt709 => .bt709

def saturatingMulI32 (left right : Int32) : Int32 :=
  let product := left.toInt * right.toInt
  if product < Int32.minValue.toInt then Int32.minValue
  else if Int32.maxValue.toInt < product then Int32.maxValue
  else left * right

def asUsize (value : Int32) : Nat := (value.toInt % 2 ^ 64).toNat

section Encode
variable {V Q ε : Type}

def effectiveStride (codec : Codec) (width stride : Int32) : Except (EncodeError ε) Nat :=
  let packed := match codec with
    | .uyvy | .yuy2 => saturatingMulI32 width 2
    | .bgra => saturatingMulI32 width 4
    | _ => width
  let stride := if stride ≤ 0 then packed else stride
  if stride < width then
    .error (.invalidArgument ("stride " ++ toString stride.toInt ++ " is smaller than width " ++
      toString width.toInt))
  else .ok (asUsize stride)

def requireLen (data : List UInt8) (need : Nat) (label : String) : Except (EncodeError ε) Unit :=
  if data.length < need then
    .error (.invalidArgument (label ++ " frame data too short: need " ++ toString need ++ ", have " ++
      toString data.length))
  else .ok ()

/-- A codec is kept as long as it fits; the next one takes over its quality. -/
def ensureCodec (vmx : VmxLibrary V Q ε) (encoder : VideoEncoder V) (width height : Int32)
    (profile : VmxProfile) (colorSpace : VmxColorSpace) : Except (EncodeError ε) (VideoEncoder V) :=
  let recreate := encoder.codec.isNone || encoder.width != width || encoder.height != height ||
    encoder.profile != profile || encoder.colorSpace != colorSpace
  if !recreate then .ok encoder
  else
    match vmx.new { width, height, profile, colorSpace } with
    | .error error => .error (.vmx error)
    | .ok made =>
        let codec := match encoder.codec with
          | some previous => vmx.setQuality made (vmx.quality previous)
          | none => made
        .ok { codec := some codec, width, height, profile, colorSpace }

/-- The `match codec` of `encode_raw`. -/
def encodeCall (codec : Codec) (frame : RawFrame) (stride : Nat) :
    Except (EncodeError ε) EncodeCall :=
  let height := asUsize frame.height
  match codec with
  | .uyvy => do
      requireLen frame.data (stride * height) "UYVY"
      .ok (.packed .encodeUyvy frame.data stride)
  | .yuy2 => do
      requireLen frame.data (stride * height) "YUY2"
      .ok (.packed .encodeYuy2 frame.data stride)
  | .bgra => do
      requireLen frame.data (stride * height) "BGRA"
      if frame.flags.contains .alpha then .ok (.packed .encodeBgra frame.data stride)
      else .ok (.packed .encodeBgrx frame.data stride)
  | .nv12 => do
      let ySize := stride * height
      requireLen frame.data (ySize + stride * ((height + 1) / 2)) "NV12"
      .ok (.nv12 (frame.data.take ySize) stride (frame.data.drop ySize) stride)
  | .yv12 => do
      let halfStride := stride / 2
      let halfH := height / 2
      let ySize := stride * height
      let uvSize := halfStride * halfH
      requireLen frame.data (ySize + uvSize * 2) "YV12"
      let plane (start stop : Nat) := (frame.data.take stop).drop start
      .ok (.yv12 (plane 0 ySize) stride (plane (ySize + uvSize) (ySize + uvSize * 2)) halfStride
        (plane ySize (ySize + uvSize)) halfStride)
  | .vmx1 => .error (.invalidArgument "VMX1 frames are passed through without encoding")
  | .uyva => .error (.notImplemented "UYVA encode")
  | .p216 => .error (.notImplemented "P216 encode")
  | .pa16 => .error (.notImplemented "PA16 encode")
  | .fpa1 => .error (.invalidArgument "FPA1 is an audio codec")

/-- The encoder after it, and the call that is reached. -/
def encodeRaw (vmx : VmxLibrary V Q ε) (encoder : VideoEncoder V) (frame : RawFrame)
    (quality : Quality) : VideoEncoder V × Except (EncodeError ε) EncodeCall :=
  match Codec.fromI32 frame.codec with
  | none =>
      (encoder, .error (.invalidArgument
        ("unsupported video codec " ++ toString frame.codec.toInt)))
  | some codec =>
      if frame.width < 16 || frame.height < 16 then
        (encoder, .error (.invalidArgument ("video frame too small: " ++
          toString frame.width.toInt ++ "x" ++ toString frame.height.toInt)))
      else if frame.data.isEmpty then
        (encoder, .error (.invalidArgument "video frame data is empty"))
      else
        match effectiveStride codec frame.width frame.stride with
        | .error error => (encoder, .error error)
        | .ok stride =>
            match ensureCodec vmx encoder frame.width frame.height (vmxProfile quality)
              (mapColorSpace frame.colorSpace) with
            | .error error => (encoder, .error error)
            | .ok encoder => (encoder, encodeCall codec frame stride)

def pixelBytes : Codec → Option Nat
  | .uyvy | .yuy2 => some 2
  | .bgra => some 4
  | _ => none

theorem saturatingMulI32_exact (left right : Int32) (positive : 0 ≤ left.toInt * right.toInt) :
    (saturatingMulI32 left right).toInt = min (left.toInt * right.toInt) (2 ^ 31 - 1) := by
  have above : ¬left.toInt * right.toInt < Int32.minValue.toInt := by
    rw [Int32.toInt_minValue]
    omega
  rw [saturatingMulI32, if_neg above]
  split
  · rename_i large
    rw [Int32.toInt_maxValue] at large ⊢
    omega
  · rename_i small
    rw [Int32.toInt_maxValue] at small
    rw [Int32.toInt_mul, Int.bmod_eq_of_le (by omega) (by omega)]
    omega

theorem asUsize_positive (value : Int32) (positive : 0 ≤ value.toInt) :
    asUsize value = value.toInt.toNat := by
  have bound := value.toInt_lt
  rw [asUsize, Int.emod_eq_of_lt positive (by omega)]

theorem checked_stride (used width : Int32) (bytes : Nat)
    (accepted : (if used < width then
        .error (.invalidArgument ("stride " ++ toString used.toInt ++ " is smaller than width " ++
          toString width.toInt))
      else .ok (asUsize used) : Except (EncodeError ε) Nat) = .ok bytes) :
    ¬used < width ∧ bytes = asUsize used := by
  split at accepted
  · cases accepted
  · rename_i enough
    exact ⟨enough, (Except.ok.inj accepted).symm⟩

/-- The stride that is passed on: the frame's own, or by default the packed row as far as
an `i32` goes. -/
theorem effectiveStride_packed (codec : Codec) (pixel : Nat) (format : pixelBytes codec = some pixel)
    (width stride : Int32) (wide : 16 ≤ width.toInt) (bytes : Nat)
    (accepted : effectiveStride (ε := ε) codec width stride = .ok bytes) :
    (bytes : Int) =
      if stride.toInt ≤ 0 then min (width.toInt * pixel) (2 ^ 31 - 1) else stride.toInt := by
  have two : (2 : Int32).toInt = 2 := by decide
  have four : (4 : Int32).toInt = 4 := by decide
  have packed : ∃ row used : Int32, row.toInt = min (width.toInt * pixel) (2 ^ 31 - 1) ∧
      used = (if stride ≤ 0 then row else stride) ∧ ¬used < width ∧ bytes = asUsize used := by
    cases codec with
    | uyvy =>
        cases format
        exact ⟨_, _, by rw [saturatingMulI32_exact _ _ (by rw [two]; omega), two]; rfl, rfl,
          checked_stride _ width bytes accepted⟩
    | yuy2 =>
        cases format
        exact ⟨_, _, by rw [saturatingMulI32_exact _ _ (by rw [two]; omega), two]; rfl, rfl,
          checked_stride _ width bytes accepted⟩
    | bgra =>
        cases format
        exact ⟨_, _, by rw [saturatingMulI32_exact _ _ (by rw [four]; omega), four]; rfl, rfl,
          checked_stride _ width bytes accepted⟩
    | _ => cases format
  obtain ⟨row, used, exactly, chosen, enough, made⟩ := packed
  rw [Int32.lt_iff_toInt_lt] at enough
  have sign : stride ≤ 0 ↔ stride.toInt ≤ 0 := Int32.le_iff_toInt_le
  rw [made, asUsize_positive used (by omega), Int.toNat_of_nonneg (by omega), chosen]
  by_cases given : stride ≤ 0
  · rw [if_pos given, if_pos (sign.mp given), exactly]
  · rw [if_neg given, if_neg (fun low => given (sign.mpr low))]

theorem requireLen_enough (data : List UInt8) (need : Nat) (label : String)
    (passed : requireLen (ε := ε) data need label = .ok ()) : need ≤ data.length := by
  rw [requireLen] at passed
  split at passed
  · cases passed
  · omega

theorem behind_requireLen (data : List UInt8) (need : Nat) (label : String)
    (next : Except (EncodeError ε) EncodeCall) (call : EncodeCall)
    (reached : (do requireLen data need label; next) = .ok call) :
    need ≤ data.length ∧ next = .ok call := by
  cases checked : requireLen (ε := ε) data need label with
  | error error =>
      rw [checked] at reached
      cases reached
  | ok _ =>
      rw [checked] at reached
      exact ⟨requireLen_enough data need label checked, reached⟩

theorem encodeCall_packed (codec : Codec) (pixel : Nat) (format : pixelBytes codec = some pixel)
    (frame : RawFrame) (stride : Nat) (call : EncodeCall)
    (reached : encodeCall (ε := ε) codec frame stride = .ok call) :
    (∃ function, call = .packed function frame.data stride) ∧
      stride * asUsize frame.height ≤ frame.data.length := by
  cases codec with
  | uyvy =>
      obtain ⟨enough, handed⟩ := behind_requireLen frame.data _ "UYVY" _ call reached
      exact ⟨⟨_, (Except.ok.inj handed).symm⟩, enough⟩
  | yuy2 =>
      obtain ⟨enough, handed⟩ := behind_requireLen frame.data _ "YUY2" _ call reached
      exact ⟨⟨_, (Except.ok.inj handed).symm⟩, enough⟩
  | bgra =>
      obtain ⟨enough, handed⟩ := behind_requireLen frame.data _ "BGRA" _ call reached
      split at handed
      · exact ⟨⟨_, (Except.ok.inj handed).symm⟩, enough⟩
      · exact ⟨⟨_, (Except.ok.inj handed).symm⟩, enough⟩
  | _ => cases format

/-- Behind its checks `encode_raw` hands on a frame of at least 16 by 16 pixels. -/
theorem encodeRaw_reached (vmx : VmxLibrary V Q ε) (encoder : VideoEncoder V) (frame : RawFrame)
    (quality : Quality) (codec : Codec) (known : Codec.fromI32 frame.codec = some codec)
    (call : EncodeCall) (reached : (encodeRaw vmx encoder frame quality).2 = .ok call) :
    16 ≤ frame.width.toInt ∧ 16 ≤ frame.height.toInt ∧
      ∃ stride, effectiveStride (ε := ε) codec frame.width frame.stride = .ok stride ∧
        encodeCall (ε := ε) codec frame stride = .ok call := by
  unfold encodeRaw at reached
  simp only [known] at reached
  split at reached
  · cases reached
  · rename_i large
    split at reached
    · cases reached
    · split at reached
      · cases reached
      · rename_i stride computed
        split at reached
        · cases reached
        · simp only [Bool.or_eq_true, decide_eq_true_eq, not_or, Int32.lt_iff_toInt_lt] at large
          have sixteen : (16 : Int32).toInt = 16 := by decide
          exact ⟨by omega, by omega, stride, computed, reached⟩

theorem encodeRaw_accepts (vmx : VmxLibrary V Q ε) (frame : RawFrame) (quality : Quality)
    (codec : Codec) (known : Codec.fromI32 frame.codec = some codec)
    (large : (frame.width < 16 || frame.height < 16) = false) (filled : frame.data.isEmpty = false)
    (stride : Nat)
    (computed : effectiveStride (ε := ε) codec frame.width frame.stride = .ok stride) (made : V)
    (fresh : vmx.new
      { width := frame.width, height := frame.height, profile := vmxProfile quality
        colorSpace := mapColorSpace frame.colorSpace } = .ok made) :
    (encodeRaw vmx new frame quality).2 = encodeCall codec frame stride := by
  have ensured : ensureCodec vmx new frame.width frame.height (vmxProfile quality)
      (mapColorSpace frame.colorSpace) =
        .ok { codec := some made, width := frame.width, height := frame.height
              profile := vmxProfile quality, colorSpace := mapColorSpace frame.colorSpace } := by
    simp [ensureCodec, new, fresh]
  simp only [encodeRaw, known, large, filled, computed, ensured, Bool.false_eq_true, if_false]

/-- For a frame of a packed format the rows that the encoder is to read lie apart and inside
the data exactly if the packed row fits the frame's stride or, by default, an `i32`. -/
theorem packed_rows_covered (vmx : VmxLibrary V Q ε) (encoder : VideoEncoder V) (frame : RawFrame)
    (quality : Quality) (codec : Codec) (pixel : Nat)
    (known : Codec.fromI32 frame.codec = some codec) (format : pixelBytes codec = some pixel)
    (call : EncodeCall) (reached : (encodeRaw vmx encoder frame quality).2 = .ok call) :
    ∃ function stride, call = .packed function frame.data stride ∧
      let row := frame.width.toInt * pixel
      ((row ≤ stride ∧ (frame.height.toInt - 1) * stride + row ≤ frame.data.length) ↔
        (frame.stride.toInt ≤ 0 ∧ row < 2 ^ 31) ∨
          (0 < frame.stride.toInt ∧ row ≤ frame.stride.toInt)) := by
  obtain ⟨wide, high, stride, computed, called⟩ :=
    encodeRaw_reached vmx encoder frame quality codec known call reached
  obtain ⟨⟨function, made⟩, enough⟩ := encodeCall_packed codec pixel format frame stride call called
  have passed := effectiveStride_packed codec pixel format frame.width frame.stride wide stride computed
  refine ⟨function, stride, made, ?_⟩
  intro row
  -- The code compares the length with all rows at full stride, the last one too.
  have inside : row ≤ stride →
      (frame.height.toInt - 1) * stride + row ≤ frame.data.length := by
    intro fits
    rw [asUsize_positive frame.height (by omega)] at enough
    have whole : (stride : Int) * frame.height.toInt ≤ frame.data.length := by
      have lifted := Int.ofNat_le.mpr enough
      rwa [Int.natCast_mul, Int.toNat_of_nonneg (by omega)] at lifted
    have split : (stride : Int) * frame.height.toInt =
        (frame.height.toInt - 1) * stride + stride := by
      rw [Int.sub_mul, Int.one_mul, Int.mul_comm]
      omega
    omega
  constructor
  · rintro ⟨fits, -⟩
    rw [passed] at fits
    split at fits
    · exact Or.inl ⟨by assumption, by omega⟩
    · exact Or.inr ⟨by omega, fits⟩
  · intro room
    have fits : row ≤ stride := by
      rw [passed]
      split
      · omega
      · omega
    exact ⟨fits, inside fits⟩
end Encode

def plainVmx : VmxLibrary Unit Unit Unit :=
  { new := fun _ => .ok (), quality := id, setQuality := fun codec _ => codec }

def greyFrame (stride : Int32) (bytes : Nat) : RawFrame :=
  { frameType := .video, codec := Codec.asI32 .uyvy, width := 16, height := 16, stride
    data := List.replicate bytes 128 }

theorem greyFrame_reached (stride : Int32) (bytes : Nat) (wide : 16 ≤ stride.toInt)
    (enough : stride.toInt.toNat * 16 ≤ bytes) :
    (encodeRaw plainVmx new (greyFrame stride bytes) .medium).2 =
      .ok (.packed .encodeUyvy (greyFrame stride bytes).data stride.toInt.toNat) := by
  have positive : ¬stride ≤ 0 := by
    rw [Int32.le_iff_toInt_le, Int32.toInt_zero]
    omega
  have accepted : ¬stride < 16 := by
    rw [Int32.lt_iff_toInt_lt, show (16 : Int32).toInt = 16 by decide]
    omega
  have computed : effectiveStride (ε := Unit) .uyvy 16 stride = .ok stride.toInt.toNat := by
    dsimp only [effectiveStride]
    rw [if_neg positive, if_neg accepted, asUsize_positive stride (by omega)]
  have filled : (List.replicate bytes (128 : UInt8)).isEmpty = false := by
    cases bytes with
    | zero => omega
    | succ more => rfl
  have height : asUsize 16 = 16 := by decide
  rw [encodeRaw_accepts plainVmx (greyFrame stride bytes) .medium .uyvy
    (Codec.fromI32_asI32 .uyvy) (by rfl) filled stride.toInt.toNat computed () rfl]
  have checked : requireLen (ε := Unit) (greyFrame stride bytes).data
      (stride.toInt.toNat * asUsize 16) "UYVY" = .ok () := by
    unfold requireLen greyFrame
    rw [height, List.length_replicate, if_neg (Nat.not_lt.mpr enough)]
  rw [encodeCall]
  exact congrArg (· >>= fun _ => _) checked

theorem packed_rows_covered_grey :
    ∃ function stride, (encodeRaw plainVmx new (greyFrame 32 512) .medium).2 =
        .ok (.packed function (greyFrame 32 512).data stride) ∧
      (32 : Int) ≤ stride ∧ (16 - 1 : Int) * stride + 32 ≤ (greyFrame 32 512).data.length := by
  have reached : (encodeRaw plainVmx new (greyFrame 32 512) .medium).2 =
      .ok (.packed .encodeUyvy (greyFrame 32 512).data 32) :=
    greyFrame_reached 32 512 (by decide) (by decide)
  obtain ⟨function, stride, called, covered⟩ :=
    packed_rows_covered plainVmx new (greyFrame 32 512) .medium .uyvy 2 (by decide) rfl _ reached
  rw [called] at reached
  exact ⟨function, stride, reached, covered.mpr (Or.inr ⟨by decide, by decide⟩)⟩

/-- A stride of 16 bytes for rows of 16 pixels is accepted; the rows take 32 bytes. -/
theorem overlapping_rows_accepted :
    (encodeRaw plainVmx new (greyFrame 16 256) .medium).2 =
        .ok (.packed .encodeUyvy (greyFrame 16 256).data 16) ∧
      ¬((greyFrame 16 256).width.toInt * 2 ≤ 16 ∧
        ((greyFrame 16 256).height.toInt - 1) * 16 + (greyFrame 16 256).width.toInt * 2 ≤
          (greyFrame 16 256).data.length) :=
  ⟨greyFrame_reached 16 256 (by decide) (by decide), fun covered => absurd covered.1 (by decide)⟩

end VideoEncoder

end OpenMediaTransport
