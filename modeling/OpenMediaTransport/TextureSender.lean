import OpenMediaTransport.Provenance
import OpenMediaTransport.Runs
import OpenMediaTransport.VideoEncoder

/-!
How a sender makes bitstreams of frames and of textures: `send_video`, `send_video_texture`
and what is behind them in `send.rs` and `send_video.rs`. A texture is encoded at once, or
with `gpu_pipeline` submitted and finished by the next call. The codec is one of another
crate and enters as an abstract type with its operations; `save_to` stands for the whole of
`save_bitstream`. A run ends with frames that are handed to `build_frame` and `broadcast`,
neither of which turns a video frame down.
-/

namespace OpenMediaTransport

structure VideoTextureMeta where
  width : UInt32 := 0
  height : UInt32 := 0
  timestamp : Int64 := -1
  frameRateN : Int32 := 60
  frameRateD : Int32 := 1
  colorSpace : ColorSpace := .undefined
  flags : VideoFlags := .none
  frameMetadata : Option (List Char) := none

/-- The operations of a codec that a sender uses; `T` is a texture. -/
structure VmxEncoder (V Q T ε : Type) extends VmxLibrary V Q ε where
  encode : V → EncodeCall → V × Except ε Unit
  encodeFromTexture : V → T → V × Except ε Unit
  encodeFromTextureOpaque : V → T → V × Except ε Unit
  encodeFromTextureSubmit : V → T → Bool → V × Except ε Unit
  encodeSubmittedFinish : V → V × Except ε Unit
  saveTo : V → V × Except ε (List UInt8)

inductive VideoSource (T : Type) where
  | raw (frame : RawFrame)
  | texture (texture : T) (info : VideoTextureMeta)

/-- `sources` are those that a call went on to encode, and `handed` the frames that were
made of them; `failed` counts the sources that an error put an end to. -/
structure TextureSender (V T : Type) where
  encoder : VideoEncoder V
  gpuPipeline : Bool
  pendingGpu : Option VideoTextureMeta
  sources : List (VideoSource T)
  handed : List MediaFrame
  failed : Nat

inductive TextureStep (T : Type) where
  | sendVideo (subscribed : Bool) (quality : Quality) (frame : RawFrame)
  | sendVideoTexture (subscribed : Bool) (quality : Quality) (width height : UInt32) (texture : T)
      (info : VideoTextureMeta)
  | setGpuEncodePipeline (enabled : Bool)
  | flushGpuEncode

/-- A sender after a call, and what the call returns. -/
abbrev VideoReply (V T ε : Type) := TextureSender V T × Except (EncodeError ε) Unit

namespace TextureSender
variable {V Q T ε : Type}

def create : TextureSender V T where
  encoder := .new
  gpuPipeline := false
  pendingGpu := none
  sources := []
  handed := []
  failed := 0

def withCodec (sender : TextureSender V T) (codec : V) : TextureSender V T :=
  { sender with encoder := { sender.encoder with codec := some codec } }

def takeOn (sender : TextureSender V T) (source : VideoSource T) : TextureSender V T :=
  { sender with sources := sender.sources ++ [source] }

def hand (sender : TextureSender V T) (frame : MediaFrame) : TextureSender V T :=
  { sender with handed := sender.handed ++ [frame] }

def fail (sender : TextureSender V T) (error : EncodeError ε) : VideoReply V T ε :=
  ({ sender with failed := sender.failed + 1 }, .error error)

/-- `expect`; `ensureCodec_some` has that it is never asked for. -/
def noCodec : EncodeError ε := .invalidArgument "codec after ensure"

def alpha (info : VideoTextureMeta) : Bool := info.flags.contains .alpha

def encodedFrame (frame : RawFrame) (bitstream : List UInt8) : MediaFrame :=
  { frame.toMediaFrame with data := bitstream, codec := Codec.vmx1.asI32 }

section Calls
variable (vmx : VmxEncoder V Q T ε) (aspectOf : UInt32 → UInt32 → UInt32)

/-- The frame of `send_encoded_texture`; `aspectOf` divides as `f32` does. -/
def textureFrame (info : VideoTextureMeta) (bitstream : List UInt8) : MediaFrame :=
  { frameType := .video, timestamp := info.timestamp, codec := Codec.vmx1.asI32
    width := info.width.toInt32, height := info.height.toInt32, flags := info.flags
    frameRateN := info.frameRateN, frameRateD := info.frameRateD
    aspectRatio := if info.height = 0 then 0x3F800000 else aspectOf info.width info.height
    colorSpace := info.colorSpace, data := bitstream, frameMetadata := info.frameMetadata }

/-- Behind an operation of the codec, `save_bitstream` and what is made of the bitstream. -/
def saveAndHand (sender : TextureSender V T) (encoded : V × Except ε Unit)
    (frameOf : List UInt8 → MediaFrame) : VideoReply V T ε :=
  match encoded.2 with
  | .error error => (sender.withCodec encoded.1).fail (.vmx error)
  | .ok () =>
      let saved := vmx.saveTo encoded.1
      match saved.2 with
      | .error error => (sender.withCodec saved.1).fail (.vmx error)
      | .ok bitstream => ((sender.withCodec saved.1).hand (frameOf bitstream), .ok ())

def ensureTexture (encoder : VideoEncoder V) (info : VideoTextureMeta) (quality : Quality) :
    Except (EncodeError ε) (VideoEncoder V) :=
  VideoEncoder.ensureCodec vmx.toVmxLibrary encoder info.width.toInt32 info.height.toInt32
    (VideoEncoder.vmxProfile quality) (VideoEncoder.mapColorSpace info.colorSpace)

def encodeTexture (sender : TextureSender V T) (quality : Quality) (texture : T)
    (info : VideoTextureMeta) : VideoReply V T ε :=
  match ensureTexture vmx sender.encoder info quality with
  | .error error => sender.fail error
  | .ok encoder =>
      let sender := { sender with encoder }
      match encoder.codec with
      | none => sender.fail noCodec
      | some codec => sender.saveAndHand vmx
          (if alpha info then vmx.encodeFromTexture codec texture
            else vmx.encodeFromTextureOpaque codec texture) (textureFrame aspectOf info)

/-- `submit_from_texture`, after which the frame is pending. -/
def submitTexture (sender : TextureSender V T) (quality : Quality) (texture : T)
    (info : VideoTextureMeta) : VideoReply V T ε :=
  match ensureTexture vmx sender.encoder info quality with
  | .error error => sender.fail error
  | .ok encoder =>
      let sender := { sender with encoder }
      match encoder.codec with
      | none => sender.fail noCodec
      | some codec =>
          let submitted := vmx.encodeFromTextureSubmit codec texture (alpha info)
          match submitted.2 with
          | .error error => (sender.withCodec submitted.1).fail (.vmx error)
          | .ok () => ({ sender.withCodec submitted.1 with pendingGpu := some info }, .ok ())

def finishPendingGpu (sender : TextureSender V T) : VideoReply V T ε :=
  match sender.pendingGpu with
  | none => (sender, .ok ())
  | some info =>
      let sender := { sender with pendingGpu := none }
      match sender.encoder.codec with
      | none => sender.fail (.invalidArgument "GPU encode is not in progress")
      | some codec =>
          sender.saveAndHand vmx (vmx.encodeSubmittedFinish codec) (textureFrame aspectOf info)

def sendVideo (sender : TextureSender V T) (subscribed : Bool) (quality : Quality)
    (frame : RawFrame) : VideoReply V T ε :=
  if !subscribed then (sender, .ok ())
  else if Codec.fromI32 frame.codec = some .vmx1 then
    ((sender.takeOn (.raw frame)).hand frame.toMediaFrame, .ok ())
  else
    let sender := sender.takeOn (.raw frame)
    match VideoEncoder.encodeRaw vmx.toVmxLibrary sender.encoder frame quality with
    | (encoder, .error error) => { sender with encoder }.fail error
    | (encoder, .ok call) =>
        let sender := { sender with encoder }
        match encoder.codec with
        | none => sender.fail noCodec
        | some codec => sender.saveAndHand vmx (vmx.encode codec call) (encodedFrame frame)

def sizeText (width height : UInt32) : String :=
  toString width.toNat ++ "x" ++ toString height.toNat

/-- With the pipeline, what fails of the frame before is the end of this one as well. -/
def sendVideoTexture (sender : TextureSender V T) (subscribed : Bool) (quality : Quality)
    (width height : UInt32) (texture : T) (info : VideoTextureMeta) : VideoReply V T ε :=
  if !subscribed then (sender, .ok ())
  else if width != info.width || height != info.height then
    (sender, .error (.invalidArgument ("texture size " ++ sizeText width height ++ " != meta " ++
      sizeText info.width info.height)))
  else if info.width < 16 || info.height < 16 then
    (sender, .error (.invalidArgument ("video frame too small: " ++
      sizeText info.width info.height)))
  else if sender.gpuPipeline then
    match sender.finishPendingGpu vmx aspectOf with
    | (sender, .error error) => (sender.takeOn (.texture texture info)).fail error
    | (sender, .ok ()) =>
        (sender.takeOn (.texture texture info)).submitTexture vmx quality texture info
  else (sender.takeOn (.texture texture info)).encodeTexture vmx aspectOf quality texture info

def call (sender : TextureSender V T) : TextureStep T → VideoReply V T ε
  | .sendVideo subscribed quality frame => sender.sendVideo vmx subscribed quality frame
  | .sendVideoTexture subscribed quality width height texture info =>
      sender.sendVideoTexture vmx aspectOf subscribed quality width height texture info
  | .setGpuEncodePipeline enabled => ({ sender with gpuPipeline := enabled }, .ok ())
  | .flushGpuEncode => sender.finishPendingGpu vmx aspectOf

def act (sender : TextureSender V T) (step : TextureStep T) : Option (TextureSender V T) :=
  some (sender.call vmx aspectOf step).1

/-- The frame is made of that source and of no other: of a texture that is submitted, the
codec that has it finishes it next. -/
inductive Encoded : VideoSource T → MediaFrame → Prop
  | passed (frame : RawFrame) (vmx1 : Codec.fromI32 frame.codec = some .vmx1) :
      Encoded (.raw frame) frame.toMediaFrame
  | raw (frame : RawFrame) (quality : Quality) (before after : VideoEncoder V) (call : EncodeCall)
      (planned : VideoEncoder.encodeRaw vmx.toVmxLibrary before frame quality = (after, .ok call))
      (codec : V) (here : after.codec = some codec) (bitstream : List UInt8)
      (encodes : (vmx.encode codec call).2 = .ok ())
      (saves : (vmx.saveTo (vmx.encode codec call).1).2 = .ok bitstream) :
      Encoded (.raw frame) (encodedFrame frame bitstream)
  | direct (texture : T) (info : VideoTextureMeta) (encoded : V × Except ε Unit) (codec : V)
      (how : encoded = if alpha info then vmx.encodeFromTexture codec texture
        else vmx.encodeFromTextureOpaque codec texture)
      (bitstream : List UInt8) (encodes : encoded.2 = .ok ())
      (saves : (vmx.saveTo encoded.1).2 = .ok bitstream) :
      Encoded (.texture texture info) (textureFrame aspectOf info bitstream)
  | pipelined (texture : T) (info : VideoTextureMeta) (codec submitted : V)
      (submits : vmx.encodeFromTextureSubmit codec texture (alpha info) = (submitted, .ok ()))
      (bitstream : List UInt8) (finishes : (vmx.encodeSubmittedFinish submitted).2 = .ok ())
      (saves : (vmx.saveTo (vmx.encodeSubmittedFinish submitted).1).2 = .ok bitstream) :
      Encoded (.texture texture info) (textureFrame aspectOf info bitstream)

/-- No other video is sent while a texture is pending. -/
def Undisturbed (sender : TextureSender V T) : TextureStep T → Prop
  | .sendVideo subscribed _ _ => subscribed = true → sender.pendingGpu = none
  | .sendVideoTexture _ _ _ _ _ _ => sender.gpuPipeline = true ∨ sender.pendingGpu = none
  | _ => True

/-- A source comes to its end: by an error, or with a frame that is handed on. -/
structure Ends (made : MediaFrame → Prop) (before after : TextureSender V T) : Prop where
  sources : after.sources = before.sources
  pendingGpu : after.pendingGpu = before.pendingGpu
  result : (after.handed = before.handed ∧ after.failed = before.failed + 1) ∨
    ∃ frame, made frame ∧ after.handed = before.handed ++ [frame] ∧ after.failed = before.failed

/-- The source that the codec has been given last. -/
inductive Pending : TextureSender V T → List (VideoSource T) → Prop
  | none (sender : TextureSender V T) (free : sender.pendingGpu = none) : Pending sender []
  | some (sender : TextureSender V T) (texture : T) (info : VideoTextureMeta)
      (waits : sender.pendingGpu = some info) (codec submitted : V)
      (submits : vmx.encodeFromTextureSubmit codec texture (alpha info) = (submitted, .ok ()))
      (here : sender.encoder.codec = some submitted) : Pending sender [.texture texture info]

/-- All but a pending one, the sources have come to their end in turn. -/
def InOrder (sender : TextureSender V T) : Prop :=
  ∃ past pending, sender.sources = past ++ pending ∧ Pending vmx sender pending ∧
    Derived (Encoded vmx aspectOf) past sender.handed

def waiting (sender : TextureSender V T) : Nat := if sender.pendingGpu.isSome then 1 else 0

/-- Each source that was gone on with is handed on, failed or pending. -/
def Counted (sender : TextureSender V T) : Prop :=
  sender.sources.length = sender.handed.length + sender.failed + sender.waiting

end Calls

/-! What a call does with a source. -/
section Ends
variable {made weaker : MediaFrame → Prop} {before after : TextureSender V T}

theorem Ends.imp (ends : Ends made before after) (follows : ∀ frame, made frame → weaker frame) :
    Ends weaker before after := by
  obtain ⟨sources, pendingGpu, failed | ⟨frame, comes, handed, failed⟩⟩ := ends
  · exact ⟨sources, pendingGpu, .inl failed⟩
  · exact ⟨sources, pendingGpu, .inr ⟨frame, follows frame comes, handed, failed⟩⟩

theorem Ends.length (ends : Ends made before after) :
    after.handed.length + after.failed = before.handed.length + before.failed + 1 := by
  obtain ⟨-, -, ⟨handed, failed⟩ | ⟨frame, -, handed, failed⟩⟩ := ends
  · rw [handed, failed]
    omega
  · rw [handed, failed, List.length_append, List.length_singleton]
    omega

theorem Ends.waiting (ends : Ends made before after) : after.waiting = before.waiting := by
  rw [TextureSender.waiting, TextureSender.waiting, ends.pendingGpu]

theorem Ends.withEncoder {encoder : VideoEncoder V} {after : TextureSender V T}
    (ends : Ends made { before with encoder } after) : Ends made before after :=
  ⟨ends.sources, ends.pendingGpu, ends.result⟩

theorem Ends.derived {relation : VideoSource T → MediaFrame → Prop} {past : List (VideoSource T)}
    {source : VideoSource T} (ends : Ends (relation source) before after)
    (derived : Derived relation past before.handed) :
    Derived relation (past ++ [source]) after.handed := by
  obtain ⟨-, -, ⟨handed, -⟩ | ⟨frame, comes, handed, -⟩⟩ := ends
  · rw [handed]
    exact derived.skip [source]
  · rw [handed]
    exact derived.keep source frame comes

theorem fail_ends (sender : TextureSender V T) (error : EncodeError ε) :
    Ends made sender (sender.fail error).1 :=
  ⟨rfl, rfl, .inl ⟨rfl, rfl⟩⟩

theorem saveAndHand_ends (vmx : VmxEncoder V Q T ε) (sender : TextureSender V T)
    (encoded : V × Except ε Unit) (frameOf : List UInt8 → MediaFrame) :
    Ends (fun frame => ∃ bitstream, encoded.2 = .ok () ∧
        (vmx.saveTo encoded.1).2 = .ok bitstream ∧ frame = frameOf bitstream)
      sender (sender.saveAndHand vmx encoded frameOf).1 := by
  unfold saveAndHand
  split
  · exact ⟨rfl, rfl, .inl ⟨rfl, rfl⟩⟩
  · rename_i encodes
    dsimp only
    split
    · exact ⟨rfl, rfl, .inl ⟨rfl, rfl⟩⟩
    · rename_i bitstream saves
      exact ⟨rfl, rfl, .inr ⟨_, ⟨bitstream, encodes, saves, rfl⟩, rfl, rfl⟩⟩

end Ends

/-! The `expect`s behind `ensure_codec`. -/
section Ensured
variable (vmx : VmxEncoder V Q T ε)

theorem ensureCodec_some (encoder ensured : VideoEncoder V) (width height : Int32)
    (profile : VmxProfile) (colorSpace : VmxColorSpace)
    (done : VideoEncoder.ensureCodec vmx.toVmxLibrary encoder width height profile colorSpace =
      .ok ensured) : ∃ codec, ensured.codec = some codec := by
  simp only [VideoEncoder.ensureCodec] at done
  split at done
  · rename_i kept
    cases done
    cases here : encoder.codec with
    | none => simp [here] at kept
    | some codec => exact ⟨codec, rfl⟩
  · split at done
    · cases done
    · cases done
      exact ⟨_, rfl⟩

theorem encodeRaw_some (before after : VideoEncoder V) (frame : RawFrame) (quality : Quality)
    (call : EncodeCall)
    (planned : VideoEncoder.encodeRaw vmx.toVmxLibrary before frame quality = (after, .ok call)) :
    ∃ codec, after.codec = some codec := by
  unfold VideoEncoder.encodeRaw at planned
  split at planned
  · cases planned
  · split at planned
    · cases planned
    · split at planned
      · cases planned
      · split at planned
        · cases planned
        · split at planned
          · cases planned
          · rename_i done
            obtain ⟨rfl, -⟩ := Prod.mk.inj planned
            exact ensureCodec_some vmx before _ _ _ _ _ done

end Ensured

/-! What becomes of a source in each of the calls. -/
section Outcomes
variable (vmx : VmxEncoder V Q T ε) (aspectOf : UInt32 → UInt32 → UInt32)

theorem encodeTexture_ends (sender : TextureSender V T) (quality : Quality) (texture : T)
    (info : VideoTextureMeta) :
    Ends (Encoded vmx aspectOf (.texture texture info)) sender
      (sender.encodeTexture vmx aspectOf quality texture info).1 := by
  unfold encodeTexture
  split
  · exact fail_ends sender _
  · rename_i encoder ensured
    obtain ⟨codec, here⟩ := ensureCodec_some vmx _ _ _ _ _ _ ensured
    simp only [here]
    have ends := (saveAndHand_ends vmx { sender with encoder }
      (if alpha info then vmx.encodeFromTexture codec texture
        else vmx.encodeFromTextureOpaque codec texture) (textureFrame aspectOf info)).withEncoder
    refine ends.imp ?_
    rintro frame ⟨bitstream, encodes, saves, rfl⟩
    exact .direct texture info _ codec rfl bitstream encodes saves

theorem sendVideo_cases (sender : TextureSender V T) (subscribed : Bool) (quality : Quality)
    (frame : RawFrame) :
    (sender.sendVideo vmx subscribed quality frame).1 = sender ∨
      subscribed = true ∧ Ends (Encoded vmx aspectOf (.raw frame)) (sender.takeOn (.raw frame))
        (sender.sendVideo vmx subscribed quality frame).1 := by
  unfold sendVideo
  cases subscribed with
  | false => exact .inl rfl
  | true =>
      refine .inr ⟨rfl, ?_⟩
      simp only [Bool.not_true, Bool.false_eq_true, if_false]
      split
      · rename_i vmx1
        exact ⟨rfl, rfl, .inr ⟨_, .passed frame vmx1, rfl, rfl⟩⟩
      · split
        · exact ⟨rfl, rfl, .inl ⟨rfl, rfl⟩⟩
        · rename_i encoder call planned
          obtain ⟨codec, here⟩ := encodeRaw_some vmx _ _ _ _ _ planned
          simp only [here]
          have ends := (saveAndHand_ends vmx { sender.takeOn (.raw frame) with encoder }
            (vmx.encode codec call) (encodedFrame frame)).withEncoder
          refine ends.imp ?_
          rintro result ⟨bitstream, encodes, saves, rfl⟩
          exact .raw frame quality _ encoder call planned codec here bitstream encodes saves

theorem submitTexture_cases (sender : TextureSender V T) (quality : Quality) (texture : T)
    (info : VideoTextureMeta) :
    Ends (fun _ => False) sender (sender.submitTexture vmx quality texture info).1 ∨
      ∃ codec submitted encoder,
        vmx.encodeFromTextureSubmit codec texture (alpha info) = (submitted, .ok ()) ∧
        encoder.codec = some submitted ∧
        (sender.submitTexture vmx quality texture info).1 =
          { sender with encoder, pendingGpu := some info } := by
  unfold submitTexture
  split
  · exact .inl (fail_ends sender _)
  · rename_i encoder ensured
    obtain ⟨codec, here⟩ := ensureCodec_some vmx _ _ _ _ _ _ ensured
    simp only [here]
    split
    · exact .inl ⟨rfl, rfl, .inl ⟨rfl, rfl⟩⟩
    · rename_i submits
      exact .inr ⟨codec, _, _, Prod.ext rfl submits, rfl, rfl⟩

theorem finishPendingGpu_ends (sender : TextureSender V T) (info : VideoTextureMeta)
    (waits : sender.pendingGpu = some info) :
    Ends (fun frame => ∃ codec bitstream, sender.encoder.codec = some codec ∧
        (vmx.encodeSubmittedFinish codec).2 = .ok () ∧
        (vmx.saveTo (vmx.encodeSubmittedFinish codec).1).2 = .ok bitstream ∧
        frame = textureFrame aspectOf info bitstream)
      { sender with pendingGpu := none } (sender.finishPendingGpu vmx aspectOf).1 := by
  simp only [finishPendingGpu, waits]
  split
  · exact fail_ends _ _
  · rename_i codec here
    refine (saveAndHand_ends vmx _ _ _).imp ?_
    rintro frame ⟨bitstream, finishes, saves, rfl⟩
    exact ⟨codec, bitstream, here, finishes, saves, rfl⟩

theorem finishPendingGpu_none (sender : TextureSender V T) :
    (sender.finishPendingGpu vmx aspectOf).1.pendingGpu = none := by
  cases waits : sender.pendingGpu with
  | none => simp only [finishPendingGpu, waits]
  | some info => exact (finishPendingGpu_ends vmx aspectOf sender info waits).pendingGpu

end Outcomes

/-! The order and the count over a run. -/
section Run
variable (vmx : VmxEncoder V Q T ε) (aspectOf : UInt32 → UInt32 → UInt32)
variable {vmx aspectOf} {sender after : TextureSender V T}

theorem InOrder.derived (inOrder : InOrder vmx aspectOf sender) (free : sender.pendingGpu = none) :
    Derived (Encoded vmx aspectOf) sender.sources sender.handed := by
  obtain ⟨past, pending, split, waits, derived⟩ := inOrder
  cases waits with
  | none _ =>
      rw [split, List.append_nil]
      exact derived
  | some texture info here =>
      rw [free] at here
      cases here

theorem inOrder_free (free : sender.pendingGpu = none)
    (derived : Derived (Encoded vmx aspectOf) sender.sources sender.handed) :
    InOrder vmx aspectOf sender :=
  ⟨sender.sources, [], (List.append_nil _).symm, .none sender free, derived⟩

/-- A source that is taken on and comes to its end, with nothing pending. -/
theorem InOrder.settle (inOrder : InOrder vmx aspectOf sender) (free : sender.pendingGpu = none)
    (source : VideoSource T) (ends : Ends (Encoded vmx aspectOf source) (sender.takeOn source) after) :
    InOrder vmx aspectOf after := by
  refine inOrder_free (ends.pendingGpu.trans free) ?_
  rw [ends.sources]
  exact ends.derived (inOrder.derived free)

theorem InOrder.finish (inOrder : InOrder vmx aspectOf sender) :
    InOrder vmx aspectOf (sender.finishPendingGpu vmx aspectOf).1 := by
  obtain ⟨past, pending, split, waits, derived⟩ := inOrder
  cases waits with
  | none free =>
      simp only [finishPendingGpu, free]
      exact ⟨past, [], split, .none sender free, derived⟩
  | some texture info here codec submitted submits holds =>
      have ends := finishPendingGpu_ends vmx aspectOf sender info here
      refine inOrder_free ends.pendingGpu ?_
      rw [ends.sources, split]
      refine (ends.imp ?_).derived derived
      rintro frame ⟨other, bitstream, found, finishes, saves, rfl⟩
      -- What the codec holds is what the texture has been submitted to.
      rw [holds] at found
      cases found
      exact .pipelined texture info codec submitted submits bitstream finishes saves

theorem InOrder.submit (inOrder : InOrder vmx aspectOf sender) (free : sender.pendingGpu = none)
    (quality : Quality) (texture : T) (info : VideoTextureMeta) :
    InOrder vmx aspectOf
      ((sender.takeOn (.texture texture info)).submitTexture vmx quality texture info).1 := by
  obtain ends | ⟨codec, submitted, encoder, submits, here, reached⟩ :=
    submitTexture_cases vmx (sender.takeOn (.texture texture info)) quality texture info
  · exact inOrder.settle free _ (ends.imp fun _ => False.elim)
  · rw [reached]
    exact ⟨sender.sources, [.texture texture info], rfl,
      .some _ texture info rfl codec submitted submits here, inOrder.derived free⟩

theorem call_inOrder (step : TextureStep T) (undisturbed : Undisturbed sender step)
    (inOrder : InOrder vmx aspectOf sender) :
    InOrder vmx aspectOf (sender.call vmx aspectOf step).1 := by
  cases step with
  | sendVideo subscribed quality frame =>
      obtain same | ⟨wanted, ends⟩ := sendVideo_cases vmx aspectOf sender subscribed quality frame
      · exact same.symm ▸ inOrder
      · exact inOrder.settle (undisturbed wanted) _ ends
  | sendVideoTexture subscribed quality width height texture info =>
      simp only [call, sendVideoTexture]
      split
      · exact inOrder
      split
      · exact inOrder
      split
      · exact inOrder
      split
      · have finished := inOrder.finish
        have free := finishPendingGpu_none vmx aspectOf sender
        split
        · rename_i reached
          rw [reached] at finished free
          exact finished.settle free (.texture texture info) (fail_ends _ _)
        · rename_i reached
          rw [reached] at finished free
          exact finished.submit free quality texture info
      · rename_i direct
        exact inOrder.settle (undisturbed.resolve_left direct) _
          (encodeTexture_ends vmx aspectOf _ quality texture info)
  | setGpuEncodePipeline enabled =>
      obtain ⟨past, pending, split, waits, derived⟩ := inOrder
      refine ⟨past, pending, split, ?_, derived⟩
      cases waits with
      | none free => exact .none _ free
      | some texture info here codec submitted submits holds =>
          exact .some _ texture info here codec submitted submits holds
  | flushGpuEncode => exact inOrder.finish

theorem Ends.counted {made : MediaFrame → Prop} {source : VideoSource T}
    (ends : Ends made (sender.takeOn source) after) (counted : sender.Counted) : after.Counted := by
  have taken : after.sources.length = sender.sources.length + 1 := by
    rw [ends.sources, takeOn, List.length_append, List.length_singleton]
  have length : after.handed.length + after.failed = sender.handed.length + sender.failed + 1 :=
    ends.length
  have waiting : after.waiting = sender.waiting := ends.waiting
  unfold Counted at counted ⊢
  omega

theorem finish_counted (counted : sender.Counted) :
    (sender.finishPendingGpu vmx aspectOf).1.Counted := by
  cases waits : sender.pendingGpu with
  | none =>
      simp only [finishPendingGpu, waits]
      exact counted
  | some info =>
      have ends := finishPendingGpu_ends vmx aspectOf sender info waits
      have sources := congrArg List.length ends.sources
      have length : _ = sender.handed.length + sender.failed + 1 := ends.length
      have before : sender.waiting = 1 := by simp [waiting, waits]
      have none : _ = 0 := ends.waiting
      unfold Counted at counted ⊢
      rw [sources, length, none]
      exact before ▸ counted

theorem submit_counted (counted : sender.Counted) (free : sender.pendingGpu = none)
    (quality : Quality) (texture : T) (info : VideoTextureMeta) :
    ((sender.takeOn (.texture texture info)).submitTexture vmx quality texture info).1.Counted := by
  obtain ends | ⟨codec, submitted, encoder, -, -, reached⟩ :=
    submitTexture_cases vmx (sender.takeOn (.texture texture info)) quality texture info
  · exact ends.counted counted
  · have none : sender.waiting = 0 := by simp [waiting, free]
    rw [reached]
    unfold Counted at counted ⊢
    rw [none] at counted
    simp [waiting, takeOn, counted]

theorem call_counted (step : TextureStep T) (counted : sender.Counted) :
    (sender.call vmx aspectOf step).1.Counted := by
  cases step with
  | sendVideo subscribed quality frame =>
      obtain same | ⟨-, ends⟩ := sendVideo_cases vmx aspectOf sender subscribed quality frame
      · exact same.symm ▸ counted
      · exact ends.counted counted
  | sendVideoTexture subscribed quality width height texture info =>
      simp only [call, sendVideoTexture]
      split
      · exact counted
      split
      · exact counted
      split
      · exact counted
      split
      · have finished : (sender.finishPendingGpu vmx aspectOf).1.Counted := finish_counted counted
        have free := finishPendingGpu_none vmx aspectOf sender
        split
        · rename_i reached
          rw [reached] at finished
          exact (fail_ends _ _ : Ends (fun _ => False) _ _).counted finished
        · rename_i reached
          rw [reached] at finished free
          exact submit_counted finished free quality texture info
      · exact (encodeTexture_ends vmx aspectOf _ quality texture info).counted counted
  | setGpuEncodePipeline enabled => exact counted
  | flushGpuEncode => exact finish_counted counted

variable (vmx aspectOf)

theorem counted_invariant :
    Runs.Invariant (act vmx aspectOf) create (fun _ _ => True) Counted where
  start := rfl
  step before _ step counted _ taken := by
    cases taken
    exact call_counted step counted

theorem inOrder_invariant :
    Runs.Invariant (act vmx aspectOf) create Undisturbed (InOrder vmx aspectOf) where
  start := ⟨[], [], rfl, .none _ rfl, .nil []⟩
  step before _ step inOrder undisturbed taken := by
    cases taken
    exact call_inOrder step undisturbed inOrder

end Run
end TextureSender

section
variable {V Q T ε : Type}

end

def echoVmx : VmxEncoder (List UInt8) Unit UInt8 Unit where
  new _ := .ok []
  quality _ := ()
  setQuality codec _ := codec
  encode codec _ := (codec, .ok ())
  encodeFromTexture _ texture := ([texture], .ok ())
  encodeFromTextureOpaque _ texture := ([texture], .ok ())
  encodeFromTextureSubmit _ texture _ := ([texture], .ok ())
  encodeSubmittedFinish codec := (codec, .ok ())
  saveTo codec := (codec, .ok codec)

def sendTexture (texture : UInt8) : TextureStep UInt8 :=
  .sendVideoTexture true .medium 16 16 texture { width := 16, height := 16 }

def pipelinedTextures : List (TextureStep UInt8) :=
  [.flushGpuEncode, sendTexture 2, sendTexture 1, .setGpuEncodePipeline true]

end OpenMediaTransport
