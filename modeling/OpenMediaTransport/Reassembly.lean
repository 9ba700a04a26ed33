import OpenMediaTransport.Framing
import OpenMediaTransport.FrameRoundTrip

/-!
`transport/channel.rs`, the part that does not read: `push_bytes` and
`try_pop_frame`. A bad header throws the whole buffer away; a bad body costs the
frame it belongs to; an unfinished frame waits. The three answers are the three
verdicts of a stream decoder, which carries the independence of read boundaries.
-/

namespace OpenMediaTransport

open Framing

def maxPayloadFor (frameType : FrameType) : Nat :=
  if frameType.contains .video then videoMaxSize
  else if frameType.contains .audio then audioMaxSize
  else metadataFrameSize

def isValidFrameType (frameType : FrameType) : Bool :=
  frameType.bits != 0 &&
    (frameType.bits &&& ~~~(FrameType.video.bits ||| FrameType.audio.bits |||
      FrameType.metadata.bits)) == 0

/-- The reassembly half of `Channel`; the frame-type hint decides nothing. -/
structure Channel where
  buf : List UInt8
  deriving DecidableEq, Repr

namespace Channel

def new : Channel := ⟨[]⟩

def clear (_self : Channel) : Channel := ⟨[]⟩

def pushBytes (self : Channel) (data : List UInt8) : Channel := ⟨self.buf ++ data⟩

def tryPopFrame (self : Channel) : Except OmtError (Option AssembledFrame) × Channel :=
  if self.buf.length < headerSize then (.ok none, self)
  else match FrameHeader.fromBytes self.buf with
    | .error error => (.error error, self.clear)
    | .ok header =>
        if header.dataLength < 0 then (.error (.protocol .negativeDataLength), self.clear)
        else
          let dataLen := header.dataLength.toNatClampNeg
          let max := maxPayloadFor header.frameType
          if max < dataLen then
            (.error (.protocol (.dataLengthExceedsMax dataLen max)), self.clear)
          else if !isValidFrameType header.frameType then
            (.error (.protocol (.invalidFrameType header.frameType.bits)), self.clear)
          else
            let total := headerSize + dataLen
            if self.buf.length < total then (.ok none, self)
            else ((AssembledFrame.fromBytes (self.buf.take total)).map some,
              ⟨self.buf.drop total⟩)

end Channel

/-- The header checks of `try_pop_frame`: the frame's total length, or why the
buffer is cleared. -/
def admitHeader (buf : List UInt8) : Except OmtError Nat :=
  match FrameHeader.fromBytes buf with
  | .error error => .error error
  | .ok header =>
      if header.dataLength < 0 then .error (.protocol .negativeDataLength)
      else if maxPayloadFor header.frameType < header.dataLength.toNatClampNeg then
        .error (.protocol (.dataLengthExceedsMax header.dataLength.toNatClampNeg
          (maxPayloadFor header.frameType)))
      else if !isValidFrameType header.frameType then
        .error (.protocol (.invalidFrameType header.frameType.bits))
      else .ok (headerSize + header.dataLength.toNatClampNeg)

def inspectFrame (buf : List UInt8) : Verdict (Except OmtError AssembledFrame) OmtError :=
  if buf.length < headerSize then .wait
  else match admitHeader buf with
    | .error error => .halt error
    | .ok total =>
        if buf.length < total then .wait
        else .item (AssembledFrame.fromBytes (buf.take total)) total

theorem admit_append (buf more : List UInt8) (long : headerSize ≤ buf.length) :
    admitHeader (buf ++ more) = admitHeader buf := by
  rw [admitHeader, FrameHeader.fromBytes_append buf more long, admitHeader]

theorem admit_total (buf : List UInt8) (total : Nat) (ok : admitHeader buf = .ok total) :
    ∃ header, FrameHeader.fromBytes buf = .ok header ∧ ¬ header.dataLength < 0 ∧
      header.dataLength.toNatClampNeg ≤ maxPayloadFor header.frameType ∧
      isValidFrameType header.frameType = true ∧
      total = headerSize + header.dataLength.toNatClampNeg := by
  unfold admitHeader at ok
  split at ok
  · cases ok
  rename_i header read
  split at ok
  · cases ok
  split at ok
  · cases ok
  split at ok
  · cases ok
  rename_i positive fits valid
  cases ok
  exact ⟨header, read, positive, by omega, by simpa using valid, rfl⟩

theorem inspect_item (buf : List UInt8) (out : Except OmtError AssembledFrame) (width : Nat)
    (seen : inspectFrame buf = .item out width) :
    headerSize ≤ buf.length ∧ admitHeader buf = .ok width ∧ width ≤ buf.length ∧
      out = AssembledFrame.fromBytes (buf.take width) := by
  unfold inspectFrame at seen
  split at seen
  · cases seen
  rename_i long
  split at seen
  · cases seen
  rename_i total admitted
  split at seen
  · cases seen
  rename_i enough
  cases seen
  exact ⟨Nat.not_lt.mp long, admitted, Nat.not_lt.mp enough, rfl⟩

theorem inspect_halt (buf : List UInt8) (error : OmtError)
    (seen : inspectFrame buf = .halt error) :
    headerSize ≤ buf.length ∧ admitHeader buf = .error error := by
  unfold inspectFrame at seen
  split at seen
  · cases seen
  rename_i long
  split at seen
  · rename_i refused
    cases seen
    exact ⟨Nat.not_lt.mp long, refused⟩
  · split at seen <;> cases seen

theorem inspect_width (buf : List UInt8) (out : Except OmtError AssembledFrame) (width : Nat)
    (seen : inspectFrame buf = .item out width) : 0 < width ∧ width ≤ buf.length := by
  obtain ⟨_, admitted, enough, _⟩ := inspect_item buf out width seen
  obtain ⟨header, _, _, _, _, same⟩ := admit_total buf width admitted
  refine ⟨?_, enough⟩
  rw [same]
  exact Nat.add_pos_left (by decide) _

theorem inspect_item_stable (buf more : List UInt8) (out : Except OmtError AssembledFrame)
    (width : Nat) (seen : inspectFrame buf = .item out width) :
    inspectFrame (buf ++ more) = .item out width := by
  obtain ⟨long, admitted, enough, rfl⟩ := inspect_item buf out width seen
  have grown : buf.length ≤ (buf ++ more).length := by simp
  rw [inspectFrame, if_neg (by omega), admit_append buf more long, admitted]
  dsimp only
  rw [if_neg (by omega), List.take_append_of_le_length enough]

theorem inspect_halt_stable (buf more : List UInt8) (error : OmtError)
    (seen : inspectFrame buf = .halt error) : inspectFrame (buf ++ more) = .halt error := by
  obtain ⟨long, refused⟩ := inspect_halt buf error seen
  have grown : buf.length ≤ (buf ++ more).length := by simp
  rw [inspectFrame, if_neg (by omega), admit_append buf more long, refused]

/-- The decoder of the wire: `inspectFrame` repeats itself on longer buffers. -/
def frameDecoder : Decoder UInt8 (Except OmtError AssembledFrame) OmtError where
  inspect := inspectFrame
  empty_waits := rfl
  item_width := inspect_width
  item_stable := inspect_item_stable
  halt_stable := inspect_halt_stable

namespace Channel

/-- One call, said through the decoder's verdict. -/
theorem pop_verdict (self : Channel) :
    self.tryPopFrame =
      match inspectFrame self.buf with
      | .wait => (.ok none, self)
      | .item out width => (out.map some, ⟨self.buf.drop width⟩)
      | .halt error => (.error error, self.clear) := by
  unfold tryPopFrame inspectFrame admitHeader
  split
  · rfl
  cases FrameHeader.fromBytes self.buf with
  | error error => rfl
  | ok header =>
      dsimp only
      split
      · rfl
      split
      · rfl
      split
      · rfl
      dsimp only
      split <;> rfl

theorem pop_waits (self : Channel) (seen : inspectFrame self.buf = .wait) :
    self.tryPopFrame = (.ok none, self) := by
  rw [pop_verdict, seen]

theorem pop_item (self : Channel) (out : Except OmtError AssembledFrame) (width : Nat)
    (seen : inspectFrame self.buf = .item out width) :
    self.tryPopFrame = (out.map some, ⟨self.buf.drop width⟩) := by
  rw [pop_verdict, seen]

theorem pop_halt (self : Channel) (error : OmtError) (seen : inspectFrame self.buf = .halt error) :
    self.tryPopFrame = (.error error, .new) := by
  rw [pop_verdict, seen]
  rfl

end Channel

end OpenMediaTransport
