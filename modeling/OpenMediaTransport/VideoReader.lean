import OpenMediaTransport.ChannelReceive

/-!
`video_reader_loop` of `receive.rs`. A protocol error makes the loop clear the
channel on top of what the channel itself has already dropped. For a rejected
body the channel has dropped just the frame, so the loop throws away whatever
arrived behind it in the same read. Writing back pending metadata and setting
the read timeout touch neither the channel nor the reader and are left out.
-/

namespace OpenMediaTransport

/-- What a turn of the loop does outside the channel. -/
inductive ReaderEffect where
  | recordBytes (count : Nat)
  | dispatch (frame : AssembledFrame)
  | setError (text : String)
  | recordDropWire
  deriving DecidableEq

structure ReaderTurn where
  effects : List ReaderEffect
  goesOn : Bool
  channel : Channel
  reader : List ReadResult
  deriving DecidableEq

def readerTurn (channel : Channel) (reader : List ReadResult) : ReaderTurn :=
  match channel.recvFrameInto networkReceiveMaxTransfer reader with
  | (.ok (some frame), channel, reader) =>
      ⟨[.recordBytes (frame.header.dataLength.toNatClampNeg + 16), .dispatch frame], true,
        channel, reader⟩
  | (.ok none, channel, reader) => ⟨[], false, channel, reader⟩
  | (.error (.io .timedOut _), channel, reader) => ⟨[], true, channel, reader⟩
  | (.error (.io .wouldBlock _), channel, reader) => ⟨[], true, channel, reader⟩
  | (.error (.protocol reason), channel, reader) =>
      ⟨[.setError ("protocol: " ++ reason.message), .recordDropWire], true,
        channel.clear, reader⟩
  | (.error error, channel, reader) =>
      ⟨[.setError ("video I/O: " ++ error.message)], false, channel, reader⟩

/-- The loop until `stop` is seen at the head of turn `turns + 1`. -/
def videoReaderLoop (channel : Channel) (reader : List ReadResult) : Nat → List ReaderEffect
  | 0 => []
  | turns + 1 =>
      let turn := readerTurn channel reader
      if turn.goesOn then turn.effects ++ videoReaderLoop turn.channel turn.reader turns
      else turn.effects

def bytesAhead (channel : Channel) (reader : List ReadResult) : Nat :=
  channel.buf.length + (streamOf reader).length

/-- The loop's effects, each with the bytes still ahead after its turn. -/
def readerLog (channel : Channel) (reader : List ReadResult) : Nat → List (ReaderEffect × Nat)
  | 0 => []
  | turns + 1 =>
      let turn := readerTurn channel reader
      let effects := turn.effects.map fun effect => (effect, bytesAhead turn.channel turn.reader)
      if turn.goesOn then effects ++ readerLog turn.channel turn.reader turns
      else effects

theorem readerLog_effects (channel : Channel) (reader : List ReadResult) (turns : Nat) :
    (readerLog channel reader turns).map Prod.fst = videoReaderLoop channel reader turns := by
  induction turns generalizing channel reader with
  | zero => rfl
  | succ turns ih =>
      rw [readerLog, videoReaderLoop]
      cases (readerTurn channel reader).goesOn with
      | true => simp [ih, Function.comp_def]
      | false => simp [Function.comp_def]

/-- What one frame should cause: its dispatch, or one wire drop. -/
def frameEffects (frame : List UInt8) : List ReaderEffect :=
  match AssembledFrame.fromBytes frame with
  | .ok decoded =>
      [.recordBytes (decoded.header.dataLength.toNatClampNeg + 16), .dispatch decoded]
  | .error (.protocol reason) => [.setError ("protocol: " ++ reason.message), .recordDropWire]
  | .error _ => []

/-- Every frame in its place: its own effects, with the frames behind it still
ahead. -/
def expectedLog : List (List UInt8) → List (ReaderEffect × Nat)
  | [] => []
  | frame :: rest =>
      ((frameEffects frame).map fun effect => (effect, rest.flatten.length)) ++ expectedLog rest

def Rejected (frame : List UInt8) : Prop := ∃ error, AssembledFrame.fromBytes frame = .error error

/-- Every rejected frame is the last thing in the read that completes it. -/
def CutAfterRejected (reader : List ReadResult) : List (List UInt8) → Prop
  | [] => True
  | frame :: rest =>
      (Rejected frame → ReadEndsAt reader rest.flatten.length) ∧ CutAfterRejected reader rest

theorem cut_congr (frames : List (List UInt8)) (reader reads : List ReadResult)
    (same : ∀ ahead ≤ frames.tail.flatten.length,
      ReadEndsAt reader ahead ↔ ReadEndsAt reads ahead) :
    CutAfterRejected reader frames ↔ CutAfterRejected reads frames := by
  induction frames with
  | nil => rfl
  | cons frame rest ih =>
      have shorter : rest.tail.flatten.length ≤ rest.flatten.length := by
        cases rest with
        | nil => exact Nat.le_refl _
        | cons next others =>
            rw [List.tail_cons, List.flatten_cons, List.length_append]
            exact Nat.le_add_left _ _
      have tail := ih (fun ahead bound => same ahead (Nat.le_trans bound shorter))
      rw [CutAfterRejected, CutAfterRejected, tail, same rest.flatten.length (Nat.le_refl _)]

/-! One turn, by what the call returned. -/

theorem turn_frame (channel next : Channel) (reader reads : List ReadResult)
    (frame : AssembledFrame) (got : channel.recvFrame reader = (.ok (some frame), next, reads)) :
    readerTurn channel reader =
      ⟨[.recordBytes (frame.header.dataLength.toNatClampNeg + 16), .dispatch frame], true,
        next, reads⟩ := by
  rw [Channel.recvFrame] at got
  rw [readerTurn, got]

theorem turn_incomplete (channel next : Channel) (reader reads : List ReadResult)
    (got : channel.recvFrame reader = (.error incompleteFrame, next, reads)) :
    readerTurn channel reader = ⟨[], true, next, reads⟩ := by
  rw [Channel.recvFrame] at got
  rw [readerTurn, got]
  rfl

theorem turn_protocol (channel next : Channel) (reader reads : List ReadResult)
    (reason : ProtocolError)
    (got : channel.recvFrame reader = (.error (.protocol reason), next, reads)) :
    readerTurn channel reader =
      ⟨[.setError ("protocol: " ++ reason.message), .recordDropWire], true, .new, reads⟩ := by
  rw [Channel.recvFrame] at got
  rw [readerTurn, got]
  rfl

theorem aligned_ahead (frames : List (List UInt8)) (channel : Channel) (reader : List ReadResult)
    (aligned : Aligned frames channel reader) :
    bytesAhead channel reader = frames.flatten.length := by
  rw [← aligned.stream, List.length_append, bytesAhead]

theorem drop_alone (rest : List (List UInt8)) (next : Channel) (reads : List ReadResult)
    (after : Aligned rest next reads) :
    ReadEndsAt reads rest.flatten.length ↔ next = .new := by
  have total := aligned_ahead rest next reads after
  constructor
  · rintro ⟨back, tail, size⟩
    -- That many bytes are still to be read, so none of them is in the buffer.
    have bound := streamOf_suffix back reads tail
    have empty : next.buf = [] := List.length_eq_zero_iff.mp (by rw [bytesAhead] at total; omega)
    exact congrArg Channel.mk empty
  · rintro rfl
    refine ⟨reads, List.suffix_refl reads, ?_⟩
    simpa [bytesAhead, Channel.new] using total

theorem rejected_turn (first : List UInt8) (rest : List (List UInt8))
    (channel next : Channel) (reader reads : List ReadResult) (reason : ProtocolError)
    (turns : Nat) (after : Aligned rest next reads)
    (rejected : AssembledFrame.fromBytes first = .error (.protocol reason))
    (got : channel.recvFrame reader = (.error (.protocol reason), next, reads)) :
    readerLog channel reader (turns + 1) = expectedLog (first :: rest) ↔
      next = .new ∧ readerLog next reads turns = expectedLog rest := by
  have total := aligned_ahead rest next reads after
  rw [readerLog, turn_protocol channel next reader reads reason got, expectedLog, frameEffects,
    rejected]
  simp only [List.map_cons, List.map_nil, List.cons_append, List.nil_append, if_pos,
    List.cons.injEq, Prod.mk.injEq, true_and]
  constructor
  · rintro ⟨size, _, tail⟩
    -- The log counts the bytes ahead after the clear; the channel had not dropped them.
    have empty : next.buf = [] := by
      apply List.length_eq_zero_iff.mp
      simp only [bytesAhead, Channel.new, List.length_nil] at size total
      omega
    have fresh : next = .new := congrArg Channel.mk empty
    exact ⟨fresh, by rwa [fresh]⟩
  · rintro ⟨rfl, tail⟩
    exact ⟨total, total, tail⟩

/-- With no read past the reassembly cap, every frame has its own effects and
nothing else is lost if and only if the stream is cut after every rejected
frame. -/
theorem log_iff_cut (turns : Nat) (frames : List (List UInt8)) (channel : Channel)
    (reader : List ReadResult) (aligned : Aligned frames channel reader)
    (fits : ReadsFit frames channel.buf.length reader)
    (enough : frames.length + reader.length ≤ turns) :
    readerLog channel reader turns = expectedLog frames ↔ CutAfterRejected reader frames := by
  induction turns generalizing frames channel reader with
  | zero =>
      have none : frames = [] := List.length_eq_zero_iff.mp (by omega)
      subst none
      exact iff_of_true rfl trivial
  | succ turns ih =>
      have call := recv_step frames channel reader aligned
      generalize got : channel.recvFrame reader = result at call
      cases call with
      | frame first rest next reads split after shorter kept ends =>
          subst split
          rw [List.length_cons] at enough
          have next_iff := ih rest next reads after (kept.mp fits) (by omega)
          rw [cut_congr (first :: rest) reader reads ends, CutAfterRejected]
          cases decoded : AssembledFrame.fromBytes first with
          | ok frame =>
              -- A valid frame puts no condition on the reads.
              rw [decoded] at got
              have accepted : ¬ Rejected first := by
                rintro ⟨error, failed⟩
                rw [decoded] at failed
                cases failed
              rw [readerLog, turn_frame channel next reader reads frame got, expectedLog,
                frameEffects, decoded]
              simp only [aligned_ahead rest next reads after, if_pos, List.append_cancel_left_eq,
                next_iff, accepted, false_implies, true_and]
          | error error =>
              obtain ⟨reason, rfl, _⟩ :=
                complete_rejected first error (aligned.complete first List.mem_cons_self) decoded
              rw [decoded] at got
              have refused : Rejected first := ⟨_, decoded⟩
              rw [rejected_turn first rest channel next reader reads reason turns after decoded got,
                next_iff, ← drop_alone rest next reads after]
              simp only [refused, true_implies]
      | incomplete next reads after shorter kept ends =>
          -- A turn without effects; it used up a read unless there was none.
          rw [cut_congr frames reader reads ends, readerLog,
            turn_incomplete channel next reader reads got]
          rcases shorter with shorter | ⟨rfl, rfl⟩
          · exact ih frames next reads after (kept.mp fits) (by omega)
          · exact ih [] next [] after (kept.mp fits) (Nat.zero_le _)
      | overflow next reads unfit => exact absurd fits unfit

/-! What a receiver sees of the log: the frames handed on, and the count of
wire drops. -/

def dispatched : List ReaderEffect → List AssembledFrame
  | [] => []
  | .dispatch frame :: rest => frame :: dispatched rest
  | _ :: rest => dispatched rest

def wireDrops : List ReaderEffect → Nat
  | [] => 0
  | .recordDropWire :: rest => wireDrops rest + 1
  | _ :: rest => wireDrops rest

def validFrames : List (List UInt8) → List AssembledFrame
  | [] => []
  | frame :: rest =>
      match AssembledFrame.fromBytes frame with
      | .ok decoded => decoded :: validFrames rest
      | .error _ => validFrames rest

def rejectedFrames : List (List UInt8) → Nat
  | [] => 0
  | frame :: rest =>
      match AssembledFrame.fromBytes frame with
      | .ok _ => rejectedFrames rest
      | .error _ => rejectedFrames rest + 1

theorem expected_seen (frames : List (List UInt8))
    (complete : ∀ frame ∈ frames, CompleteFrame frame) :
    dispatched ((expectedLog frames).map Prod.fst) = validFrames frames ∧
      wireDrops ((expectedLog frames).map Prod.fst) = rejectedFrames frames := by
  induction frames with
  | nil => exact ⟨rfl, rfl⟩
  | cons frame rest ih =>
      obtain ⟨handed, dropped⟩ :=
        ih (fun other member => complete other (List.mem_cons_of_mem frame member))
      rw [expectedLog, frameEffects, validFrames, rejectedFrames]
      cases decoded : AssembledFrame.fromBytes frame with
      | ok f => exact ⟨congrArg (List.cons f) handed, dropped⟩
      | error error =>
          obtain ⟨reason, rfl, _⟩ :=
            complete_rejected frame error (complete frame List.mem_cons_self) decoded
          exact ⟨handed, congrArg (· + 1) dropped⟩

/-- The reader loop on a stream of frames with valid headers, read without
passing the reassembly cap: each frame is dispatched or dropped by itself if
and only if the reads cut the stream after every rejected frame, and then every
valid frame is dispatched, in order, with one wire drop for each rejected one. -/
theorem one_drop_each_iff_cut (frames : List (List UInt8)) (reader : List ReadResult)
    (complete : ∀ frame ∈ frames, CompleteFrame frame) (sound : ∀ read ∈ reader, SoundRead read)
    (stream : streamOf reader = frames.flatten) (fits : ReadsFit frames 0 reader) :
    ((∀ turns, frames.length + reader.length ≤ turns →
        readerLog .new reader turns = expectedLog frames) ↔ CutAfterRejected reader frames) ∧
      (CutAfterRejected reader frames → ∀ turns, frames.length + reader.length ≤ turns →
        dispatched (videoReaderLoop .new reader turns) = validFrames frames ∧
          wireDrops (videoReaderLoop .new reader turns) = rejectedFrames frames) := by
  have aligned := aligned_start frames reader complete sound stream
  refine ⟨⟨?_, ?_⟩, ?_⟩
  · intro each
    exact (log_iff_cut _ frames .new reader aligned fits (Nat.le_refl _)).mp
      (each _ (Nat.le_refl _))
  · intro cut turns enough
    exact (log_iff_cut turns frames .new reader aligned fits enough).mpr cut
  · intro cut turns enough
    have log := (log_iff_cut turns frames .new reader aligned fits enough).mpr cut
    rw [← readerLog_effects, log]
    exact expected_seen frames complete

def overlongMetadata : List UInt8 := [1, 1, 0, 0, 0, 0, 0, 0, 0, 0, 9, 0, 2, 0, 0, 0, 60, 62]

def emptyMetadata : List UInt8 := [1, 1, 0, 0, 0, 0, 0, 0, 0, 0, 0, 0, 0, 0, 0, 0]

theorem sample_complete : ∀ frame ∈ [overlongMetadata, emptyMetadata], CompleteFrame frame := by
  intro frame member
  rcases List.mem_cons.mp member with rfl | last
  · exact ⟨⟨1, .metadata, 0, 9, 2⟩, by decide⟩
  · rw [List.mem_singleton.mp last]
    exact ⟨⟨1, .metadata, 0, 0, 0⟩, by decide⟩

theorem one_drop_each_iff_cut_apart :
    dispatched (videoReaderLoop .new [.data overlongMetadata, .data emptyMetadata] 4) =
        [⟨⟨1, .metadata, 0, 0, 0⟩, none, none, [], []⟩] ∧
      wireDrops (videoReaderLoop .new [.data overlongMetadata, .data emptyMetadata] 4) = 1 :=
  (one_drop_each_iff_cut [overlongMetadata, emptyMetadata]
    [.data overlongMetadata, .data emptyMetadata] sample_complete
    (by simp [SoundRead, overlongMetadata, emptyMetadata, networkReceiveMaxTransfer])
    (by decide) ⟨⟨0, by decide, by decide⟩, ⟨1, by decide, by decide⟩, trivial⟩).2
    ⟨fun _ => ⟨[.data emptyMetadata], ⟨[_], rfl⟩, rfl⟩,
      fun _ => ⟨[], ⟨[_, _], rfl⟩, rfl⟩, trivial⟩ 4 (by decide)

theorem idle_loop (turns : Nat) : videoReaderLoop .new [] turns = [] := by
  induction turns with
  | zero => rfl
  | succ turns ih =>
      have turn : readerTurn .new [] = ⟨[], true, .new, []⟩ := by decide
      rw [videoReaderLoop, turn]
      exact ih

/-- Both frames in one read: the valid one is never dispatched. -/
theorem one_drop_loses_next :
    (∀ frame ∈ [overlongMetadata, emptyMetadata], CompleteFrame frame) ∧
      (∀ read ∈ [.data (overlongMetadata ++ emptyMetadata)], SoundRead read) ∧
      streamOf [.data (overlongMetadata ++ emptyMetadata)] =
        ([overlongMetadata, emptyMetadata] : List (List UInt8)).flatten ∧
      ReadsFit [overlongMetadata, emptyMetadata] 0
        [.data (overlongMetadata ++ emptyMetadata)] ∧
      validFrames [overlongMetadata, emptyMetadata] =
        [⟨⟨1, .metadata, 0, 0, 0⟩, none, none, [], []⟩] ∧
      ∀ turns, dispatched (videoReaderLoop .new
        [.data (overlongMetadata ++ emptyMetadata)] turns) = [] := by
  refine ⟨sample_complete, ?_, by decide, ⟨⟨0, by decide, by decide⟩, trivial⟩, by decide, ?_⟩
  · simp [SoundRead, overlongMetadata, emptyMetadata, networkReceiveMaxTransfer]
  · intro turns
    cases turns with
    | zero => rfl
    | succ turns =>
        have turn : readerTurn .new [.data (overlongMetadata ++ emptyMetadata)] =
            ⟨[.setError "protocol: metadata longer than body", .recordDropWire], true, .new, []⟩ :=
          rfl
        rw [videoReaderLoop, turn]
        simp only [if_pos, idle_loop]
        rfl

end OpenMediaTransport
