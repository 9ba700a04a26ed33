import OpenMediaTransport.PeerInbound
import OpenMediaTransport.PlanarAudio

/-!
`dispatch_av_frame` of `receive.rs`: where a received frame goes. The answer of
each bounded channel to `try_send` is an input; the effects are what the
receiver keeps. Pooled buffers and the time of queueing are left out.
-/

namespace OpenMediaTransport

inductive TrySend where
  | ok | full | disconnected
  deriving DecidableEq

structure WireVideo where
  timestamp : Int64
  width : Int32
  height : Int32
  frameRateN : Int32
  frameRateD : Int32
  colorSpace : ColorSpace
  preview : Bool
  payload : List UInt8
  metadata : Option (List Char)

structure MetadataFrame where
  timestamp : Int64
  xml : List Char
  deriving DecidableEq

structure DecodedAudioFrame where
  timestamp : Int64
  sampleRate : Int32
  channels : Int32
  samplesPerChannel : Int32
  activeChannels : UInt32
  pcmPlanarF32 : List UInt8
  frameMetadata : Option (List Char)

inductive DispatchEffect where
  | dropWire
  | dropAudio
  | video (wire : WireVideo)
  | audio (decoded : DecodedAudioFrame)
  | metadata (frame : MetadataFrame)

/-- Per-frame metadata as text, if there is any and it decodes. -/
def frameMeta (frame : AssembledFrame) : Option (List Char) :=
  if frame.metadata.isEmpty then none
  else match decodeMetadataXml frame.metadata with
    | .ok text => some text
    | .error _ => none

def decodeAudioFrame (frame : AssembledFrame) : Option DecodedAudioFrame :=
  match frame.audio with
  | none => none
  | some a =>
      if a.codec ≠ .fpa1 then none
      else if audioMaxSize < frame.data.length then none
      else
        match decodePlanarInto frame.data a.channels.toNatClampNeg
            a.samplesPerChannel.toNatClampNeg a.activeChannels with
        | .error _ => none
        | .ok pcm => some {
            timestamp := frame.header.timestamp
            sampleRate := a.sampleRate
            channels := a.channels
            samplesPerChannel := a.samplesPerChannel
            activeChannels := a.activeChannels
            pcmPlanarF32 := pcm
            frameMetadata := none }

/-- The wire video of a frame the receiver can decode: VMX1, without alpha or
high bit depth, not above the size limit. -/
def wireVideo (frame : AssembledFrame) : Option WireVideo :=
  match frame.video with
  | none => none
  | some v =>
      if v.codec ≠ .vmx1 then none
      else if v.flags.contains .alpha || v.flags.contains .highBitDepth then none
      else if videoMaxSize < frame.data.length then none
      else some {
        timestamp := frame.header.timestamp
        width := v.width
        height := v.height
        frameRateN := v.frameRateN
        frameRateD := max v.frameRateD 1
        colorSpace := v.colorSpace
        preview := v.flags.contains .preview
        payload := frame.data
        metadata := frameMeta frame }

def dispatchAvFrame (frame : AssembledFrame) (decodeAudioHere : Bool)
    (videoTx metadataTx audioTx : TrySend) : List DispatchEffect :=
  if frame.header.frameType.contains .video then
    match wireVideo frame with
    | none => [.dropWire]
    | some wire =>
        match videoTx with
        | .ok => [.video wire]
        | .full => [.dropWire]
        | .disconnected => []
  else if frame.header.frameType.contains .audio && decodeAudioHere then
    match decodeAudioFrame frame with
    | none => [.dropAudio]
    | some decoded =>
        match audioTx with
        | .ok => [.audio decoded]
        | .full => [.dropAudio]
        | .disconnected => []
  else if frame.header.frameType.contains .metadata then
    let xml := (frameMeta frame).getD
      (if frame.data.isEmpty then [] else Utf8.decodeLossy frame.data)
    match metadataTx with
    | .ok => [.metadata ⟨frame.header.timestamp, xml⟩]
    | .full => []
    | .disconnected => []
  else []

/-- The XML texts handed to the application. -/
def deliveredXml : List DispatchEffect → List (List Char)
  | [] => []
  | .metadata frame :: rest => frame.xml :: deliveredXml rest
  | _ :: rest => deliveredXml rest

end OpenMediaTransport
