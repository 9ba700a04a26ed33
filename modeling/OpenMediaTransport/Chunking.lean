import OpenMediaTransport.Reassembly

/-!
A channel fed in pieces. `popAll` is the caller's loop around `try_pop_frame`,
and `feedChannel` runs it after every `push_bytes`. Both are the stream
decoder's drain and feed with its events read as results, so a frame is
reported the same way however the reads were cut.
-/

namespace OpenMediaTransport

open Framing LittleEndian

/-- The errors `try_pop_frame` raises about a header; it clears the buffer
with them. -/
def OmtError.headerLevel : OmtError → Bool
  | .protocol (.unsupportedVersion _) => true
  | .protocol .negativeDataLength => true
  | .protocol (.dataLengthExceedsMax _ _) => true
  | .protocol (.invalidFrameType _) => true
  | _ => false

def headerError : Except OmtError AssembledFrame → Bool
  | .error error => error.headerLevel
  | .ok _ => false

/-- A log of results up to and including the first header-level error. -/
def untilHeaderError : List (Except OmtError AssembledFrame) → List (Except OmtError AssembledFrame)
  | [] => []
  | result :: rest => if headerError result then [result] else result :: untilHeaderError rest

/-- A frame with a valid header and all of its bytes, whatever its body. -/
def CompleteFrame (frame : List UInt8) : Prop :=
  ∃ header, FrameHeader.fromBytes frame = .ok header ∧ ¬ header.dataLength < 0 ∧
    header.dataLength.toNatClampNeg ≤ maxPayloadFor header.frameType ∧
    isValidFrameType header.frameType = true ∧
    frame.length = headerSize + header.dataLength.toNatClampNeg

theorem complete_admitted (frame : List UInt8) (complete : CompleteFrame frame) :
    admitHeader frame = .ok frame.length := by
  obtain ⟨header, read, positive, fits, valid, whole⟩ := complete
  rw [admitHeader, read]
  dsimp only
  rw [if_neg positive, if_neg (Nat.not_lt.mpr fits), valid, whole]
  rfl

theorem complete_long (frame : List UInt8) (complete : CompleteFrame frame) :
    headerSize ≤ frame.length := by
  obtain ⟨header, _, _, _, _, whole⟩ := complete
  rw [whole]
  exact Nat.le_add_right _ _

theorem complete_whole (frame : List UInt8) (complete : CompleteFrame frame) :
    Whole frameDecoder frame (AssembledFrame.fromBytes frame) := by
  change inspectFrame frame = _
  rw [inspectFrame, if_neg (Nat.not_lt.mpr (complete_long frame complete)),
    complete_admitted frame complete]
  dsimp only
  rw [if_neg (Nat.lt_irrefl _), List.take_length]

theorem written_complete (frame : AssembledFrame) (formed : frame.WellFormed)
    (fits : frame.header.dataLength.toNatClampNeg ≤ maxPayloadFor frame.header.frameType)
    (valid : isValidFrameType frame.header.frameType = true) : CompleteFrame frame.toBytes := by
  refine ⟨frame.header, FrameHeader.read_written _ _ formed.version, formed.nonnegative, fits,
    valid, ?_⟩
  rw [formed.size, AssembledFrame.toBytes, List.length_append, FrameHeader.toBytes_length]

/-! A body error is never header-level, a header error always is: an observer
can tell from the result alone whether the buffer was thrown away. -/

def BodyError (error : OmtError) : Prop :=
  ∃ reason, error = .protocol reason ∧ error.headerLevel = false

theorem video_error (buf : List UInt8) (error : OmtError)
    (failed : VideoHeader.fromBytes buf = .error error) : BodyError error := by
  unfold VideoHeader.fromBytes at failed
  split at failed
  · cases failed
    exact ⟨_, rfl, rfl⟩
  dsimp only at failed
  split at failed
  · cases failed
    exact ⟨_, rfl, rfl⟩
  · cases failed

theorem audio_error (buf : List UInt8) (error : OmtError)
    (failed : AudioHeader.fromBytes buf = .error error) : BodyError error := by
  unfold AudioHeader.fromBytes at failed
  split at failed
  · cases failed
    exact ⟨_, rfl, rfl⟩
  dsimp only at failed
  split at failed
  · cases failed
    exact ⟨_, rfl, rfl⟩
  · cases failed

theorem split_error (frameType : FrameType) (extAndData : List UInt8) (error : OmtError)
    (failed : AssembledFrame.splitExt frameType extAndData = .error error) : BodyError error := by
  unfold AssembledFrame.splitExt at failed
  by_cases video : frameType.contains .video = true
  · rw [if_pos video] at failed
    split at failed
    · cases failed
      exact ⟨_, rfl, rfl⟩
    split at failed
    · rename_i rejected
      cases failed
      exact video_error _ _ rejected
    · cases failed
  rw [if_neg video] at failed
  by_cases audio : frameType.contains .audio = true
  · rw [if_pos audio] at failed
    split at failed
    · cases failed
      exact ⟨_, rfl, rfl⟩
    split at failed
    · rename_i rejected
      cases failed
      exact audio_error _ _ rejected
    · cases failed
  · rw [if_neg audio] at failed
    cases failed

theorem body_error (header : FrameHeader) (body : List UInt8) (error : OmtError)
    (failed : AssembledFrame.ofBody header body = .error error) : BodyError error := by
  unfold AssembledFrame.ofBody at failed
  dsimp only at failed
  split at failed
  · cases failed
    exact ⟨_, rfl, rfl⟩
  split at failed
  · rename_i rejected
    cases failed
    exact split_error _ _ _ rejected
  · cases failed

theorem admitted_body (buf : List UInt8) (total : Nat) (admitted : admitHeader buf = .ok total)
    (enough : total ≤ buf.length) :
    ∃ header, AssembledFrame.fromBytes (buf.take total) =
      AssembledFrame.ofBody header (slice buf headerSize total) := by
  obtain ⟨header, read, positive, _, _, whole⟩ := admit_total buf total admitted
  have long : headerSize ≤ (buf.take total).length := by
    rw [List.length_take, Nat.min_eq_left enough, whole]
    exact Nat.le_add_right _ _
  have same : FrameHeader.fromBytes (buf.take total) = .ok header := by
    rw [← read, ← FrameHeader.fromBytes_append _ (buf.drop total) long, List.take_append_drop]
  refine ⟨header, ?_⟩
  rw [AssembledFrame.fromBytes, same]
  dsimp only
  rw [if_neg positive, ← whole, List.length_take, Nat.min_eq_left enough,
    if_neg (Nat.lt_irrefl _), slice, slice, List.drop_take, List.take_take, Nat.min_self]

theorem complete_rejected (frame : List UInt8) (error : OmtError) (complete : CompleteFrame frame)
    (rejected : AssembledFrame.fromBytes frame = .error error) : BodyError error := by
  obtain ⟨header, body⟩ := admitted_body frame _ (complete_admitted frame complete) (Nat.le_refl _)
  rw [List.take_length, rejected] at body
  exact body_error header _ error body.symm

theorem item_not_headerError (buf : List UInt8) (out : Except OmtError AssembledFrame)
    (width : Nat) (seen : frameDecoder.inspect buf = .item out width) :
    headerError out = false := by
  obtain ⟨_, admitted, enough, rfl⟩ := inspect_item buf out width seen
  obtain ⟨header, body⟩ := admitted_body buf width admitted enough
  rw [body]
  cases result : AssembledFrame.ofBody header (slice buf headerSize width) with
  | ok frame => rfl
  | error error =>
      obtain ⟨_, _, quiet⟩ := body_error header _ error result
      exact quiet

theorem halt_headerLevel (buf : List UInt8) (error : OmtError)
    (seen : frameDecoder.inspect buf = .halt error) : error.headerLevel = true := by
  obtain ⟨long, refused⟩ := inspect_halt buf error seen
  unfold admitHeader FrameHeader.fromBytes at refused
  -- The header is all there, so what is left to refuse is its version or one of the three checks.
  rw [if_neg (Nat.not_lt.mpr long)] at refused
  dsimp only at refused
  split at refused
  · rename_i rejected
    split at rejected
    · cases rejected; cases refused; rfl
    · cases rejected
  split at refused
  · cases refused; rfl
  split at refused
  · cases refused; rfl
  split at refused
  · cases refused; rfl
  · cases refused

namespace Channel

theorem pop_shrinks (self : Channel) (busy : self.tryPopFrame.1 ≠ .ok none) :
    self.tryPopFrame.2.buf.length < self.buf.length := by
  rw [pop_verdict] at busy ⊢
  cases seen : inspectFrame self.buf with
  | wait => rw [seen] at busy; exact absurd rfl busy
  | item out width =>
      have bound := frameDecoder.item_width self.buf out width seen
      simp only [List.length_drop]
      omega
  | halt error =>
      -- An empty buffer waits, so there was something to clear.
      cases empty : self.buf with
      | nil => rw [empty] at seen; cases seen
      | cons byte rest => exact Nat.succ_pos _

def popAll (self : Channel) : List (Except OmtError AssembledFrame) × Channel :=
  match _result : self.tryPopFrame.1 with
  | .ok none => ([], self.tryPopFrame.2)
  | .ok (some frame) =>
      let tail := self.tryPopFrame.2.popAll
      (.ok frame :: tail.1, tail.2)
  | .error error =>
      let tail := self.tryPopFrame.2.popAll
      (.error error :: tail.1, tail.2)
termination_by self.buf.length
decreasing_by
  · exact self.pop_shrinks (by rw [_result]; simp)
  · exact self.pop_shrinks (by rw [_result]; simp)

def feedChannel (self : Channel) :
    List (List UInt8) → List (Except OmtError AssembledFrame) × Channel
  | [] => ([], self)
  | chunk :: rest =>
      let head := (self.pushBytes chunk).popAll
      let tail := head.2.feedChannel rest
      (head.1 ++ tail.1, tail.2)

end Channel

/-- What the caller sees of a decoder event. -/
def report : Event (Except OmtError AssembledFrame) OmtError → Except OmtError AssembledFrame
  | .item out => out
  | .halt error => .error error

namespace Channel

theorem popAll_waits (self : Channel) (seen : inspectFrame self.buf = .wait) :
    self.popAll = ([], self) := by
  rw [popAll, self.pop_waits seen]

theorem popAll_item (self : Channel) (out : Except OmtError AssembledFrame) (width : Nat)
    (seen : inspectFrame self.buf = .item out width) :
    self.popAll = (out :: (popAll ⟨self.buf.drop width⟩).1, (popAll ⟨self.buf.drop width⟩).2) := by
  rw [popAll, self.pop_item out width seen]
  cases out <;> rfl

theorem popAll_halt (self : Channel) (error : OmtError)
    (seen : inspectFrame self.buf = .halt error) : self.popAll = ([.error error], .new) := by
  rw [popAll, self.pop_halt error seen]
  dsimp only
  -- The next call finds the buffer cleared.
  rw [popAll_waits .new rfl]

/-- The caller's loop is the decoder's drain. -/
theorem popAll_drain (buf : List UInt8) :
    popAll ⟨buf⟩ = ((drain frameDecoder buf).1.map report, ⟨(drain frameDecoder buf).2⟩) := by
  fun_induction drain frameDecoder buf with
  | case1 buf seen => exact popAll_waits ⟨buf⟩ seen
  | case2 buf out width seen tail ih =>
      rw [popAll_item ⟨buf⟩ out width seen, ih]
      rfl
  | case3 buf error seen => exact popAll_halt ⟨buf⟩ error seen

theorem feedChannel_feed (chunks : List (List UInt8)) (buf : List UInt8) :
    feedChannel ⟨buf⟩ chunks =
      ((feed frameDecoder buf chunks).1.map report, ⟨(feed frameDecoder buf chunks).2⟩) := by
  induction chunks generalizing buf with
  | nil => rfl
  | cons chunk rest ih =>
      have first : (pushBytes ⟨buf⟩ chunk).popAll = _ := popAll_drain (buf ++ chunk)
      rw [feedChannel, first, feed]
      dsimp only
      rw [ih, List.map_append]

end Channel

/-- Events whose halts are header-level and whose items are not. -/
def Marked (event : Event (Except OmtError AssembledFrame) OmtError) : Prop :=
  headerError (report event) = true ↔ ∃ error, event = .halt error

theorem feed_marked (chunks : List (List UInt8)) (buf : List UInt8) :
    ∀ event ∈ (feed frameDecoder buf chunks).1, Marked event := by
  apply feed_events frameDecoder Marked chunks buf
  · intro front out width seen
    rw [Marked, report, item_not_headerError front out width seen]
    simp
  · intro front error seen
    exact ⟨fun _ => ⟨error, rfl⟩, fun _ => halt_headerLevel front error seen⟩

theorem untilHeaderError_report (log : List (Event (Except OmtError AssembledFrame) OmtError))
    (marked : ∀ event ∈ log, Marked event) :
    untilHeaderError (log.map report) = (untilHalt log).map report := by
  induction log with
  | nil => rfl
  | cons event rest ih =>
      have here := marked event List.mem_cons_self
      have tail := ih (fun other member => marked other (List.mem_cons_of_mem event member))
      rw [List.map_cons, untilHeaderError]
      cases event with
      | item out =>
          -- Body errors do not end the log.
          have quiet : ¬ headerError (report (.item out)) = true := by
            intro loud
            obtain ⟨_, same⟩ := here.mp loud
            cases same
          rw [if_neg quiet, tail]
          rfl
      | halt error =>
          rw [if_pos (here.mpr ⟨error, rfl⟩)]
          rfl

theorem unbroken_of_quiet (log : List (Event (Except OmtError AssembledFrame) OmtError))
    (marked : ∀ event ∈ log, Marked event)
    (quiet : ∀ result ∈ log.map report, headerError result = false) : Unbroken log := by
  intro error member
  have loud := (marked _ member).mpr ⟨error, rfl⟩
  rw [quiet _ (List.mem_map_of_mem member)] at loud
  cases loud

theorem feedChannel_complete (frames chunks : List (List UInt8))
    (complete : ∀ frame ∈ frames, CompleteFrame frame)
    (cut : chunks.flatten = frames.flatten) :
    Channel.new.feedChannel chunks = (frames.map AssembledFrame.fromBytes, .new) := by
  have stream := (feed_stream frameDecoder chunks [] rfl).2
  have items := drain_whole frameDecoder
    (frames.map fun frame => (frame, AssembledFrame.fromBytes frame)) []
    (by
      intro pair member
      obtain ⟨frame, listed, rfl⟩ := List.mem_map.mp member
      exact complete_whole frame (complete frame listed))
    rfl
  have names : (frames.map fun frame => (frame, AssembledFrame.fromBytes frame)).map Prod.fst =
      frames := by simp [Function.comp_def]
  rw [names, List.append_nil] at items
  rw [List.nil_append, cut, items] at stream
  rw [Channel.new, Channel.feedChannel_feed, stream (by
    intro error member
    obtain ⟨_, _, same⟩ := List.mem_map.mp member
    cases same)]
  simp [report, Function.comp_def]

/-- Reassembly does not depend on where the stream was cut: the results agree
as far as the first header-level error, and with the buffer altogether where
there is none. Frames with valid headers each give exactly one result, and a
rejected body costs the bytes of its own frame. -/
theorem chunking_independent (chunks others : List (List UInt8))
    (same : chunks.flatten = others.flatten) :
    untilHeaderError (Channel.new.feedChannel chunks).1 =
        untilHeaderError (Channel.new.feedChannel others).1 ∧
      ((∀ result ∈ (Channel.new.feedChannel chunks).1, headerError result = false) →
        Channel.new.feedChannel chunks = Channel.new.feedChannel others) ∧
      (∀ frames : List (List UInt8), (∀ frame ∈ frames, CompleteFrame frame) →
        chunks.flatten = frames.flatten →
        Channel.new.feedChannel chunks = (frames.map AssembledFrame.fromBytes, .new)) ∧
      (∀ frame error rest, CompleteFrame frame → AssembledFrame.fromBytes frame = .error error →
        Channel.tryPopFrame ⟨frame ++ rest⟩ = (.error error, ⟨rest⟩)) := by
  have cuts := feed_chunking frameDecoder chunks others [] rfl same
  have left : Channel.new.feedChannel chunks = _ := Channel.feedChannel_feed chunks []
  have right : Channel.new.feedChannel others = _ := Channel.feedChannel_feed others []
  refine ⟨?_, ?_, ?_, ?_⟩
  · rw [left, right, untilHeaderError_report _ (feed_marked chunks []),
      untilHeaderError_report _ (feed_marked others []), cuts.1]
  · intro quiet
    rw [left] at quiet ⊢
    rw [right, cuts.2 (unbroken_of_quiet _ (feed_marked chunks []) quiet)]
  · intro frames complete cut
    exact feedChannel_complete frames chunks complete cut
  · intro frame error rest complete rejected
    have seen := whole_first frameDecoder frame rest _ (complete_whole frame complete)
    change inspectFrame (frame ++ rest) = _ at seen
    rw [Channel.pop_item _ _ _ seen, rejected, List.drop_left]
    rfl

theorem chunking_independent_metadata :
    Channel.new.feedChannel
        [[1, 1, 0, 0, 0], [0, 0, 0, 0, 0, 9, 0, 2, 0, 0, 0, 60, 62, 1, 1, 0],
          [0, 0, 0, 0, 0, 0, 0, 0, 0, 0, 0, 0, 0]] =
      ([.error (.protocol .metadataLongerThanBody),
        .ok ⟨⟨1, .metadata, 0, 0, 0⟩, none, none, [], []⟩], .new) :=
  (chunking_independent
    [[1, 1, 0, 0, 0], [0, 0, 0, 0, 0, 9, 0, 2, 0, 0, 0, 60, 62, 1, 1, 0],
      [0, 0, 0, 0, 0, 0, 0, 0, 0, 0, 0, 0, 0]]
    [[1, 1, 0, 0, 0, 0, 0, 0, 0, 0, 9, 0, 2, 0, 0, 0, 60, 62],
      [1, 1, 0, 0, 0, 0, 0, 0, 0, 0, 0, 0, 0, 0, 0, 0]] (by decide)).2.2.1
    [[1, 1, 0, 0, 0, 0, 0, 0, 0, 0, 9, 0, 2, 0, 0, 0, 60, 62],
      [1, 1, 0, 0, 0, 0, 0, 0, 0, 0, 0, 0, 0, 0, 0, 0]]
    (by
      intro frame member
      rcases List.mem_cons.mp member with rfl | last
      · exact ⟨⟨1, .metadata, 0, 9, 2⟩, by decide⟩
      · rw [List.mem_singleton.mp last]
        exact ⟨⟨1, .metadata, 0, 0, 0⟩, by decide⟩)
    (by decide)

end OpenMediaTransport
