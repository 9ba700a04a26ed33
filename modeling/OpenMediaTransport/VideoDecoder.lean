import OpenMediaTransport.ReceiverPipeline
import OpenMediaTransport.VideoEncoder

/-!
`decode_vmx_bgra` of `receive.rs` with the codec and the buffer that `video_decode_loop` keeps
from frame to frame. The codec is one of another crate and enters as an abstract type with its
operations. A kept codec is given the next frame if the sizes agree, a new one is made
otherwise, and after an error none is kept. What comes of it is what a codec of its own for
each frame would show, as the other modules have it.
-/

namespace OpenMediaTransport

/-- What a call of the codec comes to under `catch_unwind`. -/
inductive CodecAnswer (ε α : Type) where
  | ok (value : α)
  | error (error : ε)
  | panicked

inductive VmxDecodeError (ε : Type) where
  | codec (message : String)
  | vmx (error : ε)

/-- The operations of a codec that a receiver uses; a decode is given its buffer and stride. -/
structure VmxDecoder (V ε : Type) where
  minWidth : Int32
  minHeight : Int32
  new : VmxConfig → CodecAnswer ε V
  size : V → Int32 × Int32
  setColorSpace : V → VmxColorSpace → V
  loadFrom : V → List UInt8 → V × CodecAnswer ε Unit
  previewSize : V → Int32 × Int32
  decodeBgra : V → List UInt8 → Nat → V × List UInt8 × CodecAnswer ε Unit
  decodePreviewBgra : V → List UInt8 → Nat → V × List UInt8 × CodecAnswer ε Unit

structure DecoderState (V : Type) where
  cached : Option V
  decodeBuf : List UInt8

namespace VmxDecoder
variable {V ε : Type} (vmx : VmxDecoder V ε)

def decodeInto (preview : Bool) : V → List UInt8 → Nat → V × List UInt8 × CodecAnswer ε Unit :=
  if preview then vmx.decodePreviewBgra else vmx.decodeBgra

/-- `Vec::resize` with zeros. -/
def resizeBuf (buf : List UInt8) (need : Nat) : List UInt8 :=
  buf.take need ++ List.replicate (need - buf.length) 0

def mapVmxColorSpace : ColorSpace → VmxColorSpace
  | .bt601 => .bt601
  | .bt709 => .bt709
  | .undefined => .undefined

def configFor (wire : WireVideo) : VmxConfig where
  width := wire.width
  height := wire.height
  profile := .omtSq
  colorSpace := mapVmxColorSpace wire.colorSpace

def prepare (cached : Option V) (config : VmxConfig) : CodecAnswer ε V :=
  match cached with
  | none => vmx.new config
  | some codec =>
      if vmx.size codec = (config.width, config.height) then
        .ok (vmx.setColorSpace codec config.colorSpace)
      else vmx.new config

def outSize (codec : V) (wire : WireVideo) : UInt32 × UInt32 :=
  let size := if wire.preview then vmx.previewSize codec else (wire.width, wire.height)
  (size.1.toUInt32, size.2.toUInt32)

/-- The frame with these pixels; the stride's low 32 bits are kept. -/
def shown (wire : WireVideo) (size : UInt32 × UInt32) (pixels : List UInt8) : DecodedVideoFrame where
  width := size.1
  height := size.2
  stride := size.1 * 4
  timestamp := wire.timestamp
  frameRateN := wire.frameRateN
  frameRateD := wire.frameRateD
  colorSpace := wire.colorSpace
  pixels := pixels
  frameMetadata := wire.metadata

def decodeLoaded (state : DecoderState V) (codec : V) (wire : WireVideo) :
    DecoderState V × CodecAnswer ε DecodedVideoFrame :=
  let size := vmx.outSize codec wire
  let stride := size.1.toNat * 4
  let buf := resizeBuf state.decodeBuf (stride * size.2.toNat)
  let decoded := vmx.decodeInto wire.preview codec buf stride
  let state := { cached := some decoded.1, decodeBuf := decoded.2.1 }
  match decoded.2.2 with
  | .ok () => (state, .ok (shown wire size decoded.2.1))
  | .error error => (state, .error error)
  | .panicked => (state, .panicked)

/-- What is done under `catch_unwind`. -/
def decodeUnwinding (state : DecoderState V) (wire : WireVideo) :
    DecoderState V × CodecAnswer ε DecodedVideoFrame :=
  match vmx.prepare state.cached (configFor wire) with
  | .error error => (state, .error error)
  | .panicked => (state, .panicked)
  | .ok codec =>
      let loaded := vmx.loadFrom codec wire.payload
      let state := { state with cached := some loaded.1 }
      match loaded.2 with
      | .ok () => vmx.decodeLoaded state loaded.1 wire
      | .error error => (state, .error error)
      | .panicked => (state, .panicked)

/-- `decode_vmx_bgra`. -/
def decodeCached (state : DecoderState V) (wire : WireVideo) :
    DecoderState V × Except (VmxDecodeError ε) DecodedVideoFrame :=
  if wire.width < vmx.minWidth || wire.height < vmx.minHeight then
    (state, .error (.codec "VMX dimensions below minimum"))
  else
    match vmx.decodeUnwinding state wire with
    | (state, .ok frame) => (state, .ok frame)
    | (state, .error error) => (state, .error (.vmx error))
    | (state, .panicked) => ({ state with cached := none }, .error (.codec "VMX decode panicked"))

def decodeLoop (state : DecoderState V) :
    List WireVideo → List (Except (VmxDecodeError ε) DecodedVideoFrame)
  | [] => []
  | wire :: later =>
      match vmx.decodeCached state wire with
      | (state, .ok frame) => .ok frame :: decodeLoop state later
      | (state, .error error) => .error error :: decodeLoop { state with cached := none } later

/-- With a codec and a buffer of its own. -/
def decodeFresh (wire : WireVideo) : Except (VmxDecodeError ε) DecodedVideoFrame :=
  (vmx.decodeCached ⟨none, []⟩ wire).2

/-- What `decodeVmxBgra` asks for, of a codec for the one frame; errors get their names. -/
def freshPicture (named : VmxDecodeError ε → OmtError) : VmxDecode :=
  fun width height colorSpace preview payload =>
    match vmx.decodeFresh
        { timestamp := 0, width, height, frameRateN := 0, frameRateD := 0, colorSpace, preview
          payload, metadata := none } with
    | .ok frame => .ok { width := frame.width, height := frame.height, pixels := frame.pixels }
    | .error error => .error (named error)

/-- The same answer, and if it is `Ok` the same picture. -/
def SamePicture (left right : V × List UInt8 × CodecAnswer ε Unit) : Prop :=
  left.2.2 = right.2.2 ∧ (left.2.2 = .ok () → left.2.1 = right.2.1)

/-- A codec whose frames do not refer to each other: what is decoded depends on what the codec
is for and on the payload, and all of the buffer is written. Whether one can be made does not
depend on the colours. -/
structure Intra (configOf : V → VmxConfig) : Prop where
  made : ∀ config codec, vmx.new config = .ok codec → configOf codec = config
  remade : ∀ config colorSpace codec, vmx.new config = .ok codec →
    ∃ other, vmx.new { config with colorSpace } = .ok other
  sized : ∀ codec, vmx.size codec = ((configOf codec).width, (configOf codec).height)
  recolored : ∀ codec colorSpace,
    configOf (vmx.setColorSpace codec colorSpace) = { configOf codec with colorSpace }
  loaded : ∀ codec payload, configOf (vmx.loadFrom codec payload).1 = configOf codec
  decoded : ∀ preview codec buf stride,
    configOf (vmx.decodeInto preview codec buf stride).1 = configOf codec
  alike : ∀ left right payload, configOf left = configOf right →
    (vmx.loadFrom left payload).2 = (vmx.loadFrom right payload).2 ∧
      ((vmx.loadFrom left payload).2 = .ok () →
        vmx.previewSize (vmx.loadFrom left payload).1 =
            vmx.previewSize (vmx.loadFrom right payload).1 ∧
          ∀ preview stride buf other, buf.length = other.length →
            SamePicture (vmx.decodeInto preview (vmx.loadFrom left payload).1 buf stride)
              (vmx.decodeInto preview (vmx.loadFrom right payload).1 other stride))

/-- A kept codec has the receiver's profile, and one like it can be made. -/
def Sound (configOf : V → VmxConfig) (state : DecoderState V) : Prop :=
  ∀ codec, state.cached = some codec → (configOf codec).profile = .omtSq ∧
    ∃ made, vmx.new (configOf codec) = .ok made

theorem resizeBuf_length (buf : List UInt8) (need : Nat) : (resizeBuf buf need).length = need := by
  rw [resizeBuf, List.length_append, List.length_take, List.length_replicate]
  omega

theorem fresh_picture (named : VmxDecodeError ε → OmtError) (wire : WireVideo) :
    (vmx.decodeFresh wire).mapError named = decodeVmxBgra (vmx.freshPicture named) wire := by
  obtain ⟨timestamp, width, height, frameRateN, frameRateD, colorSpace, preview, payload,
    metadata⟩ := wire
  unfold decodeVmxBgra freshPicture decodeFresh decodeCached
  dsimp only
  split
  · rfl
  · unfold decodeUnwinding configFor
    cases vmx.prepare none
        { width, height, profile := .omtSq, colorSpace := mapVmxColorSpace colorSpace } with
    | error error => rfl
    | panicked => rfl
    | ok codec =>
        dsimp only
        cases (vmx.loadFrom codec payload).2 with
        | error error => rfl
        | panicked => rfl
        | ok _ =>
            unfold decodeLoaded outSize shown
            dsimp only
            generalize (if preview = true then vmx.previewSize (vmx.loadFrom codec payload).1
              else (width, height)) = size
            rcases vmx.decodeInto preview (vmx.loadFrom codec payload).1
              (resizeBuf [] (size.1.toUInt32.toNat * 4 * size.2.toUInt32.toNat))
              (size.1.toUInt32.toNat * 4) with ⟨_, _, _ | _ | _⟩
            · rfl
            · rfl
            · rfl

section Proofs
variable {vmx : VmxDecoder V ε} {configOf : V → VmxConfig} (intra : Intra vmx configOf)
include intra

/-- The codec is for the frame, whether it was kept or made, and so is one that would be made
afresh; or neither is to be had. -/
theorem prepare_cases (state : DecoderState V) (sound : Sound vmx configOf state)
    (wire : WireVideo) :
    (∃ codec made, vmx.prepare state.cached (configFor wire) = .ok codec ∧
      vmx.new (configFor wire) = .ok made ∧ configOf codec = configFor wire ∧
      configOf made = configFor wire) ∨
    vmx.prepare state.cached (configFor wire) = vmx.new (configFor wire) ∧
      ∀ codec, vmx.new (configFor wire) ≠ .ok codec := by
  have fresh (same : vmx.prepare state.cached (configFor wire) = vmx.new (configFor wire)) :
      (∃ codec made, vmx.prepare state.cached (configFor wire) = .ok codec ∧
        vmx.new (configFor wire) = .ok made ∧ configOf codec = configFor wire ∧
        configOf made = configFor wire) ∨
      vmx.prepare state.cached (configFor wire) = vmx.new (configFor wire) ∧
        ∀ codec, vmx.new (configFor wire) ≠ .ok codec := by
    by_cases found : ∃ codec, vmx.new (configFor wire) = .ok codec
    · obtain ⟨codec, new⟩ := found
      have is := intra.made _ codec new
      exact .inl ⟨codec, codec, same.trans new, new, is, is⟩
    · exact .inr ⟨same, fun codec new => found ⟨codec, new⟩⟩
  cases cached : state.cached with
  | none =>
      rw [cached] at fresh
      exact fresh rfl
  | some codec =>
      by_cases size : vmx.size codec = (wire.width, wire.height)
      · obtain ⟨profile, made, new⟩ := sound codec cached
        have config : { configOf codec with
            colorSpace := (configFor wire).colorSpace } = configFor wire := by
          have agree := (intra.sized codec).symm.trans size
          obtain ⟨width, height⟩ := Prod.mk.inj agree
          exact VmxConfig.mk.injEq .. ▸ ⟨width, height, profile, rfl⟩
        obtain ⟨other, remade⟩ := intra.remade _ (configFor wire).colorSpace made new
        rw [config] at remade
        exact .inl ⟨_, other, if_pos size, remade, (intra.recolored codec _).trans config,
          intra.made _ other remade⟩
      · rw [cached] at fresh
        exact fresh (if_neg size)

theorem decodeLoaded_alike (state other : DecoderState V) (left right : V) (wire : WireVideo)
    (same : configOf left = configOf right)
    (loaded : (vmx.loadFrom left wire.payload).2 = .ok ()) :
    (vmx.decodeLoaded state (vmx.loadFrom left wire.payload).1 wire).2 =
      (vmx.decodeLoaded other (vmx.loadFrom right wire.payload).1 wire).2 := by
  obtain ⟨preview, decodes⟩ := (intra.alike left right wire.payload same).2 loaded
  have size : vmx.outSize (vmx.loadFrom left wire.payload).1 wire =
      vmx.outSize (vmx.loadFrom right wire.payload).1 wire := by
    unfold outSize
    rw [preview]
  unfold decodeLoaded
  rw [size]
  generalize vmx.outSize (vmx.loadFrom right wire.payload).1 wire = out
  obtain ⟨answer, picture⟩ := decodes wire.preview (out.1.toNat * 4)
    (resizeBuf state.decodeBuf (out.1.toNat * 4 * out.2.toNat))
    (resizeBuf other.decodeBuf (out.1.toNat * 4 * out.2.toNat))
    (by rw [resizeBuf_length, resizeBuf_length])
  dsimp only
  cases reached : (vmx.decodeInto wire.preview (vmx.loadFrom left wire.payload).1
      (resizeBuf state.decodeBuf (out.1.toNat * 4 * out.2.toNat)) (out.1.toNat * 4)).2.2 with
  | ok _ =>
      rw [← answer, reached]
      exact congrArg (fun pixels => CodecAnswer.ok (shown wire out pixels)) (picture reached)
  | error error => rw [← answer, reached]
  | panicked => rw [← answer, reached]

theorem decodeLoaded_cached (state : DecoderState V) (codec : V) (wire : WireVideo) :
    ∃ kept, (vmx.decodeLoaded state codec wire).1.cached = some kept ∧
      configOf kept = configOf codec := by
  unfold decodeLoaded
  dsimp only
  split
  · exact ⟨_, rfl, intra.decoded _ _ _ _⟩
  · exact ⟨_, rfl, intra.decoded _ _ _ _⟩
  · exact ⟨_, rfl, intra.decoded _ _ _ _⟩

theorem decodeUnwinding_alike (state : DecoderState V) (sound : Sound vmx configOf state)
    (wire : WireVideo) :
    (vmx.decodeUnwinding state wire).2 = (vmx.decodeUnwinding ⟨none, []⟩ wire).2 ∧
      Sound vmx configOf (vmx.decodeUnwinding state wire).1 := by
  have unprepared : vmx.prepare none (configFor wire) = vmx.new (configFor wire) := rfl
  unfold decodeUnwinding
  rcases prepare_cases intra state sound wire with ⟨codec, made, prepared, new, is, would⟩ | ⟨same, none⟩
  · have fits : ∀ kept, configOf kept = configFor wire →
        (configOf kept).profile = .omtSq ∧ ∃ made, vmx.new (configOf kept) = .ok made :=
      fun kept config => ⟨by rw [config]; rfl, made, by rw [config]; exact new⟩
    have loads := (intra.alike codec made wire.payload (is.trans would.symm)).1
    have loaded := (intra.loaded codec wire.payload).trans is
    rw [prepared, unprepared, new]
    dsimp only
    rw [← loads]
    split
    · rename_i accepted
      refine ⟨decodeLoaded_alike intra _ _ codec made wire (is.trans would.symm) accepted, ?_⟩
      intro kept found
      obtain ⟨last, cached, config⟩ := decodeLoaded_cached intra
        { state with cached := some (vmx.loadFrom codec wire.payload).1 }
        (vmx.loadFrom codec wire.payload).1 wire
      cases cached.symm.trans found
      exact fits kept (config.trans loaded)
    · refine ⟨rfl, fun kept found => ?_⟩
      cases found
      exact fits _ loaded
    · refine ⟨rfl, fun kept found => ?_⟩
      cases found
      exact fits _ loaded
  · rw [same, unprepared]
    cases new : vmx.new (configFor wire) with
    | ok codec => exact absurd new (none codec)
    | error error => exact ⟨rfl, sound⟩
    | panicked => exact ⟨rfl, sound⟩

theorem decodeCached_fresh (state : DecoderState V) (sound : Sound vmx configOf state)
    (wire : WireVideo) :
    (vmx.decodeCached state wire).2 = vmx.decodeFresh wire ∧
      Sound vmx configOf (vmx.decodeCached state wire).1 := by
  obtain ⟨same, kept⟩ := decodeUnwinding_alike intra state sound wire
  unfold decodeFresh decodeCached
  split
  · exact ⟨rfl, sound⟩
  · generalize vmx.decodeUnwinding state wire = mine at same kept
    generalize vmx.decodeUnwinding ⟨none, []⟩ wire = other at same
    obtain ⟨state, answer⟩ := mine
    obtain ⟨_, answer⟩ := other
    cases same
    cases answer with
    | ok frame => exact ⟨rfl, kept⟩
    | error error => exact ⟨rfl, kept⟩
    | panicked => exact ⟨rfl, fun codec found => by cases found⟩

/-- An error leaves no codec, and so nothing to be unsound. -/
theorem decodeLoop_fresh (wires : List WireVideo) (state : DecoderState V)
    (sound : Sound vmx configOf state) :
    vmx.decodeLoop state wires = wires.map vmx.decodeFresh := by
  induction wires generalizing state with
  | nil => rfl
  | cons wire later next =>
      obtain ⟨same, kept⟩ := decodeCached_fresh intra state sound wire
      unfold decodeLoop
      rw [List.map_cons, ← same]
      generalize vmx.decodeCached state wire = answered at kept
      obtain ⟨state, answer⟩ := answered
      cases answer with
      | ok frame => exact congrArg (Except.ok frame :: ·) (next state kept)
      | error error =>
          exact congrArg (Except.error error :: ·)
            (next _ fun codec found => absurd found.symm (Option.some_ne_none codec))

end Proofs

/-- Keeping the codec and the buffer is not to be seen: frame for frame the decoder thread comes
to what `decodeVmxBgra` makes of a function of the size, the colours, the preview flag and the
payload. -/
theorem kept_codec_unseen (intra : Intra vmx configOf) (named : VmxDecodeError ε → OmtError)
    (wires : List WireVideo) :
    (vmx.decodeLoop ⟨none, []⟩ wires).map (Except.mapError named) =
      wires.map (decodeVmxBgra (vmx.freshPicture named)) := by
  have sound : Sound vmx configOf ⟨none, []⟩ :=
    fun codec found => absurd found.symm (Option.some_ne_none codec)
  rw [decodeLoop_fresh intra wires _ sound, List.map_map]
  exact List.map_congr_left fun wire _ => vmx.fresh_picture named wire

/-- Its codec fills the picture with the first byte of the payload. -/
def flatVmx : VmxDecoder (VmxConfig × List UInt8) String where
  minWidth := 16
  minHeight := 16
  new := fun config => .ok (config, [])
  size := fun codec => (codec.1.width, codec.1.height)
  setColorSpace := fun codec colorSpace => ({ codec.1 with colorSpace }, codec.2)
  loadFrom := fun codec payload =>
    match payload with
    | [] => (codec, .error "no data")
    | _ :: _ => ((codec.1, payload), .ok ())
  previewSize := fun codec => (codec.1.width / 8, codec.1.height / 8)
  decodeBgra := fun codec buf _ => (codec, List.replicate buf.length (codec.2.headD 0), .ok ())
  decodePreviewBgra := fun codec buf _ =>
    (codec, List.replicate buf.length (codec.2.headD 0), .ok ())

theorem flatVmx_intra : Intra flatVmx Prod.fst where
  made := fun config codec new => by
    cases new
    rfl
  remade := fun config colorSpace _ _ => ⟨({ config with colorSpace }, []), rfl⟩
  sized := fun _ => rfl
  recolored := fun _ _ => rfl
  loaded := fun codec payload => by cases payload <;> rfl
  decoded := fun preview codec buf stride => by cases preview <;> rfl
  alike := fun left right payload same => by
    cases payload with
    | nil => exact ⟨rfl, fun accepted => by cases accepted⟩
    | cons byte rest =>
        refine ⟨rfl, fun _ => ⟨congrArg (fun config => (config.width / 8, config.height / 8)) same,
          fun preview stride buf other long => ?_⟩⟩
        have filled : List.replicate buf.length byte = List.replicate other.length byte := by
          rw [long]
        cases preview with
        | false => exact ⟨rfl, fun _ => filled⟩
        | true => exact ⟨rfl, fun _ => filled⟩

def flatFrame (size : Int32) (preview : Bool) (payload : List UInt8) : WireVideo where
  timestamp := 0
  width := size
  height := size
  frameRateN := 30
  frameRateD := 1
  colorSpace := .bt709
  preview := preview
  payload := payload
  metadata := none

theorem kept_codec_unseen_flat :
    (flatVmx.decodeLoop ⟨none, []⟩ [flatFrame 16 false [1], flatFrame 16 true [2],
        flatFrame 16 false [], flatFrame 16 false [3], flatFrame 32 false [4]]).map
        (Except.mapError fun _ => OmtError.network "decode") =
      [flatFrame 16 false [1], flatFrame 16 true [2], flatFrame 16 false [],
        flatFrame 16 false [3], flatFrame 32 false [4]].map
        (decodeVmxBgra (flatVmx.freshPicture fun _ => OmtError.network "decode")) :=
  kept_codec_unseen flatVmx flatVmx_intra _ _

end VmxDecoder

end OpenMediaTransport
