import OpenMediaTransport.Chunking

/-!
`Channel::recv_frame_into` over a reader that answers from a script. One call
pops a frame that is already complete, or reads once and tries again. The
reassembly cap is checked against what is buffered plus what was just read, so
whether a legal stream survives is a matter of where its reads end.
-/

namespace OpenMediaTransport

open Framing

def maxReassembly : Nat := videoMaxSize + headerSize + 64 * 1024

inductive ReadResult where
  | data (bytes : List UInt8)
  | failed (kind : ErrorKind) (message : String)
  deriving DecidableEq

/-- `Read::read` into `scratch` bytes. What does not fit stays with the reader,
and a script that has run out has nothing more for now. -/
def readInto (scratch : Nat) :
    List ReadResult → Except (ErrorKind × String) (List UInt8) × List ReadResult
  | [] => (.error (.wouldBlock, "Resource temporarily unavailable"), [])
  | .failed kind message :: rest => (.error (kind, message), rest)
  | .data bytes :: rest =>
      if bytes.length ≤ scratch then (.ok bytes, rest)
      else (.ok (bytes.take scratch), .data (bytes.drop scratch) :: rest)

def ErrorKind.transient : ErrorKind → Bool
  | .wouldBlock | .timedOut | .interrupted => true
  | .other => false

def incompleteFrame : OmtError := .io .timedOut "incomplete OMT frame"

namespace Channel

def popOrIncomplete (self : Channel) : Except OmtError (Option AssembledFrame) × Channel :=
  match self.tryPopFrame with
  | (.ok none, next) => (.error incompleteFrame, next)
  | popped => popped

def recvFrameInto (self : Channel) (scratch : Nat) (reader : List ReadResult) :
    Except OmtError (Option AssembledFrame) × Channel × List ReadResult :=
  match self.tryPopFrame with
  | (.ok none, waiting) =>
      match readInto scratch reader with
      | (.ok bytes, reader) =>
          if bytes.length = 0 then
            if waiting.buf.length = 0 then (.ok none, waiting, reader)
            else (.error (.network "connection closed mid-frame"), waiting, reader)
          else if maxReassembly < waiting.buf.length + bytes.length then
            (.error (.protocol .reassemblyOverflow), waiting.clear, reader)
          else
            let popped := (waiting.pushBytes bytes).popOrIncomplete
            (popped.1, popped.2, reader)
      | (.error (kind, message), reader) =>
          if kind.transient then
            let popped := waiting.popOrIncomplete
            (popped.1, popped.2, reader)
          else (.error (.io kind message), waiting, reader)
  | (popped, next) => (popped, next, reader)

def recvFrame (self : Channel) (reader : List ReadResult) :
    Except OmtError (Option AssembledFrame) × Channel × List ReadResult :=
  self.recvFrameInto networkReceiveMaxTransfer reader

def recvCalls (self : Channel) (reader : List ReadResult) :
    Nat → List (Except OmtError (Option AssembledFrame))
  | 0 => []
  | calls + 1 =>
      let call := self.recvFrame reader
      call.1 :: call.2.1.recvCalls call.2.2 calls

theorem popOrIncomplete_wait (self : Channel) (seen : inspectFrame self.buf = .wait) :
    self.popOrIncomplete = (.error incompleteFrame, self) := by
  rw [popOrIncomplete, self.pop_waits seen]

theorem popOrIncomplete_item (self : Channel) (out : Except OmtError AssembledFrame) (width : Nat)
    (seen : inspectFrame self.buf = .item out width) :
    self.popOrIncomplete = (out.map some, ⟨self.buf.drop width⟩) := by
  rw [popOrIncomplete, self.pop_item out width seen]
  cases out <;> rfl

theorem recvInto_ready (self : Channel) (scratch : Nat) (reader : List ReadResult)
    (out : Except OmtError AssembledFrame) (width : Nat)
    (seen : inspectFrame self.buf = .item out width) :
    self.recvFrameInto scratch reader = (out.map some, ⟨self.buf.drop width⟩, reader) := by
  rw [recvFrameInto, self.pop_item out width seen]
  cases out <;> rfl

theorem recvInto_silent (self : Channel) (scratch : Nat) (seen : inspectFrame self.buf = .wait) :
    self.recvFrameInto scratch [] = (.error incompleteFrame, self, []) := by
  rw [recvFrameInto, self.pop_waits seen]
  dsimp only [readInto]
  rw [self.popOrIncomplete_wait seen]
  rfl

theorem recvInto_failed (self : Channel) (scratch : Nat) (kind : ErrorKind) (message : String)
    (rest : List ReadResult) (seen : inspectFrame self.buf = .wait)
    (retried : kind.transient = true) :
    self.recvFrameInto scratch (.failed kind message :: rest) =
      (.error incompleteFrame, self, rest) := by
  rw [recvFrameInto, self.pop_waits seen]
  dsimp only [readInto]
  rw [if_pos retried, self.popOrIncomplete_wait seen]

theorem recvInto_data (self : Channel) (scratch : Nat) (bytes : List UInt8)
    (rest : List ReadResult) (seen : inspectFrame self.buf = .wait) (nonempty : 0 < bytes.length)
    (room : bytes.length ≤ scratch) :
    self.recvFrameInto scratch (.data bytes :: rest) =
      if maxReassembly < self.buf.length + bytes.length then
        (.error (.protocol .reassemblyOverflow), .new, rest)
      else
        ((self.pushBytes bytes).popOrIncomplete.1, (self.pushBytes bytes).popOrIncomplete.2, rest) := by
  rw [recvFrameInto, self.pop_waits seen]
  dsimp only
  rw [readInto, if_pos room]
  dsimp only
  rw [if_neg (Nat.pos_iff_ne_zero.mp nonempty)]
  rfl

end Channel

/-! The condition on the reads. A read is safe when, counted from some frame
boundary that has already been received, its end is within the cap. -/

def ReadFits (frames : List (List UInt8)) (received count : Nat) : Prop :=
  ∃ whole, (frames.take whole).flatten.length ≤ received ∧
    received + count ≤ (frames.take whole).flatten.length + maxReassembly

def ReadsFit (frames : List (List UInt8)) (received : Nat) : List ReadResult → Prop
  | [] => True
  | .failed _ _ :: rest => ReadsFit frames received rest
  | .data bytes :: rest =>
      ReadFits frames received bytes.length ∧ ReadsFit frames (received + bytes.length) rest

theorem readFits_front (first : List UInt8) (rest : List (List UInt8)) (received count : Nat)
    (unfinished : received < first.length) :
    ReadFits (first :: rest) received count ↔ received + count ≤ maxReassembly := by
  constructor
  · rintro ⟨whole, behind, fits⟩
    cases whole with
    | zero => simpa using fits
    | succ more =>
        -- A boundary past the first frame has not been received.
        simp only [List.take_succ_cons, List.flatten_cons, List.length_append] at behind
        omega
  · intro fits
    exact ⟨0, Nat.zero_le _, by simpa using fits⟩

theorem readFits_pop (first : List UInt8) (rest : List (List UInt8)) (received count : Nat)
    (finished : first.length ≤ received) :
    ReadFits (first :: rest) received count ↔ ReadFits rest (received - first.length) count := by
  constructor
  · rintro ⟨whole, behind, fits⟩
    cases whole with
    | zero =>
        simp only [List.take_zero, List.flatten_nil, List.length_nil] at fits
        exact ⟨0, Nat.zero_le _, by simp only [List.take_zero, List.flatten_nil, List.length_nil]; omega⟩
    | succ more =>
        simp only [List.take_succ_cons, List.flatten_cons, List.length_append] at behind fits
        exact ⟨more, by omega, by omega⟩
  · rintro ⟨whole, behind, fits⟩
    refine ⟨whole + 1, ?_, ?_⟩
    · simp only [List.take_succ_cons, List.flatten_cons, List.length_append]
      omega
    · simp only [List.take_succ_cons, List.flatten_cons, List.length_append]
      omega

theorem readsFit_pop (first : List UInt8) (rest : List (List UInt8)) (reader : List ReadResult)
    (received : Nat) (finished : first.length ≤ received) :
    ReadsFit (first :: rest) received reader ↔ ReadsFit rest (received - first.length) reader := by
  induction reader generalizing received with
  | nil => rfl
  | cons read reads ih =>
      cases read with
      | failed kind message => exact ih received finished
      | data bytes =>
          have shift : received + bytes.length - first.length =
              received - first.length + bytes.length := by omega
          rw [ReadsFit, ReadsFit, readFits_pop first rest received _ finished,
            ih (received + bytes.length) (by omega), shift]

/-- Reads as the socket can deliver them: never empty, never above the read
size, and only failures that mean "try again". -/
def SoundRead : ReadResult → Prop
  | .data bytes => 0 < bytes.length ∧ bytes.length ≤ networkReceiveMaxTransfer
  | .failed kind _ => kind.transient = true

def streamOf : List ReadResult → List UInt8
  | [] => []
  | .data bytes :: rest => bytes ++ streamOf rest
  | .failed _ _ :: rest => streamOf rest

theorem streamOf_append (reader more : List ReadResult) :
    streamOf (reader ++ more) = streamOf reader ++ streamOf more := by
  induction reader with
  | nil => rfl
  | cons read reads ih =>
      cases read with
      | failed kind message => exact ih
      | data bytes =>
          rw [List.cons_append, streamOf, streamOf, ih, List.append_assoc]

theorem readsFit_append (frames : List (List UInt8)) (reader more : List ReadResult)
    (received : Nat) :
    ReadsFit frames received (reader ++ more) ↔
      ReadsFit frames received reader ∧
        ReadsFit frames (received + (streamOf reader).length) more := by
  induction reader generalizing received with
  | nil => exact (and_iff_right trivial).symm
  | cons read reads ih =>
      cases read with
      | failed kind message => exact ih received
      | data bytes =>
          rw [List.cons_append, ReadsFit, ReadsFit, ih, streamOf, List.length_append,
            Nat.add_assoc, and_assoc]

/-- Some read ends with exactly `ahead` bytes of the stream to come. -/
def ReadEndsAt (reader : List ReadResult) (ahead : Nat) : Prop :=
  ∃ back, back <:+ reader ∧ (streamOf back).length = ahead

theorem readEnds_failed (kind : ErrorKind) (message : String) (reads : List ReadResult)
    (ahead : Nat) : ReadEndsAt (.failed kind message :: reads) ahead ↔ ReadEndsAt reads ahead := by
  constructor
  · rintro ⟨back, tail, size⟩
    rcases List.suffix_cons_iff.mp tail with rfl | tail
    · exact ⟨reads, List.suffix_refl reads, size⟩
    · exact ⟨back, tail, size⟩
  · rintro ⟨back, tail, size⟩
    exact ⟨back, tail.trans (List.suffix_cons _ _), size⟩

theorem readEnds_data (bytes : List UInt8) (reads : List ReadResult) (ahead : Nat)
    (below : ahead < (streamOf (.data bytes :: reads)).length) :
    ReadEndsAt (.data bytes :: reads) ahead ↔ ReadEndsAt reads ahead := by
  constructor
  · rintro ⟨back, tail, size⟩
    rcases List.suffix_cons_iff.mp tail with rfl | tail
    · omega
    · exact ⟨back, tail, size⟩
  · rintro ⟨back, tail, size⟩
    exact ⟨back, tail.trans (List.suffix_cons _ _), size⟩

theorem streamOf_suffix (back reader : List ReadResult) (tail : back <:+ reader) :
    (streamOf back).length ≤ (streamOf reader).length := by
  obtain ⟨front, rfl⟩ := tail
  rw [streamOf_append, List.length_append]
  exact Nat.le_add_left _ _

/-- What is buffered and what is still to be read spell the frames to come. -/
structure Aligned (frames : List (List UInt8)) (channel : Channel) (reader : List ReadResult) :
    Prop where
  complete : ∀ frame ∈ frames, CompleteFrame frame
  sound : ∀ read ∈ reader, SoundRead read
  stream : channel.buf ++ streamOf reader = frames.flatten

theorem aligned_start (frames : List (List UInt8)) (reader : List ReadResult)
    (complete : ∀ frame ∈ frames, CompleteFrame frame) (sound : ∀ read ∈ reader, SoundRead read)
    (stream : streamOf reader = frames.flatten) : Aligned frames .new reader :=
  ⟨complete, sound, stream⟩

/-- The buffer holds the first frame, or nothing that can be popped. -/
theorem front_verdict (first : List UInt8) (rest : List (List UInt8)) (buf unread : List UInt8)
    (complete : CompleteFrame first) (stream : buf ++ unread = (first :: rest).flatten) :
    inspectFrame buf =
      if first.length ≤ buf.length then .item (AssembledFrame.fromBytes first) first.length
      else .wait :=
  inspect_front frameDecoder buf unread first rest.flatten _ (complete_whole first complete) stream

/-- What one call can do on an aligned stream. -/
inductive Received (frames : List (List UInt8)) (channel : Channel) (reader : List ReadResult) :
    Except OmtError (Option AssembledFrame) × Channel × List ReadResult → Prop
  | frame (first : List UInt8) (rest : List (List UInt8)) (next : Channel)
      (reads : List ReadResult)
      (split : frames = first :: rest)
      (after : Aligned rest next reads)
      (shorter : reads.length ≤ reader.length)
      (fits : ReadsFit frames channel.buf.length reader ↔ ReadsFit rest next.buf.length reads)
      (ends : ∀ ahead ≤ rest.flatten.length, ReadEndsAt reader ahead ↔ ReadEndsAt reads ahead) :
      Received frames channel reader ((AssembledFrame.fromBytes first).map some, next, reads)
  | incomplete (next : Channel) (reads : List ReadResult)
      (after : Aligned frames next reads)
      (shorter : reads.length < reader.length ∨ frames = [] ∧ reads = [])
      (fits : ReadsFit frames channel.buf.length reader ↔ ReadsFit frames next.buf.length reads)
      (ends : ∀ ahead ≤ frames.tail.flatten.length,
        ReadEndsAt reader ahead ↔ ReadEndsAt reads ahead) :
      Received frames channel reader (.error incompleteFrame, next, reads)
  | overflow (next : Channel) (reads : List ReadResult)
      (fits : ¬ ReadsFit frames channel.buf.length reader) :
      Received frames channel reader (.error (.protocol .reassemblyOverflow), next, reads)

theorem aligned_tail (first : List UInt8) (rest : List (List UInt8)) (self : Channel)
    (reader : List ReadResult) (aligned : Aligned (first :: rest) self reader)
    (ready : first.length ≤ self.buf.length) :
    Aligned rest ⟨self.buf.drop first.length⟩ reader where
  complete := fun frame member => aligned.complete frame (List.mem_cons_of_mem first member)
  sound := aligned.sound
  stream := by
    have stream := congrArg (List.drop first.length) aligned.stream
    rwa [List.drop_append_of_le_length ready, List.flatten_cons, List.drop_left] at stream

theorem recv_ready (first : List UInt8) (rest : List (List UInt8)) (self : Channel)
    (reader : List ReadResult) (aligned : Aligned (first :: rest) self reader)
    (ready : first.length ≤ self.buf.length) :
    Received (first :: rest) self reader (self.recvFrame reader) := by
  have seen := front_verdict first rest self.buf _ (aligned.complete first List.mem_cons_self)
    aligned.stream
  rw [if_pos ready] at seen
  rw [Channel.recvFrame, self.recvInto_ready _ reader _ _ seen]
  refine Received.frame first rest _ reader rfl (aligned_tail first rest self reader aligned ready)
    (Nat.le_refl _) ?_ (fun _ _ => Iff.rfl)
  rw [List.length_drop]
  exact readsFit_pop first rest reader self.buf.length ready

theorem recv_data (first : List UInt8) (rest : List (List UInt8)) (self : Channel)
    (bytes : List UInt8) (reads : List ReadResult)
    (aligned : Aligned (first :: rest) self (.data bytes :: reads))
    (unfinished : self.buf.length < first.length) :
    Received (first :: rest) self (.data bytes :: reads)
      (self.recvFrame (.data bytes :: reads)) := by
  have complete := aligned.complete first List.mem_cons_self
  have seen := front_verdict first rest self.buf _ complete aligned.stream
  rw [if_neg (Nat.not_le.mpr unfinished)] at seen
  obtain ⟨nonempty, room⟩ := aligned.sound _ List.mem_cons_self
  have front := readFits_front first rest self.buf.length bytes.length unfinished
  have grown : Aligned (first :: rest) (self.pushBytes bytes) reads := {
    complete := aligned.complete
    sound := fun read member => aligned.sound read (List.mem_cons_of_mem _ member)
    stream := by rw [← aligned.stream, streamOf, Channel.pushBytes, List.append_assoc] }
  have size : (self.pushBytes bytes).buf.length = self.buf.length + bytes.length :=
    List.length_append
  have ends : ∀ ahead ≤ rest.flatten.length,
      ReadEndsAt (.data bytes :: reads) ahead ↔ ReadEndsAt reads ahead := by
    intro ahead bound
    apply readEnds_data bytes reads ahead
    have total := congrArg List.length aligned.stream
    simp only [List.flatten_cons, List.length_append] at total
    omega
  rw [Channel.recvFrame, self.recvInto_data _ bytes reads seen nonempty room]
  -- The cap is checked before the frame is looked for.
  by_cases full : maxReassembly < self.buf.length + bytes.length
  · rw [if_pos full]
    apply Received.overflow
    rintro ⟨fits, _⟩
    exact absurd (front.mp fits) (Nat.not_le.mpr full)
  rw [if_neg full]
  have fits : ReadsFit (first :: rest) self.buf.length (.data bytes :: reads) ↔
      ReadsFit (first :: rest) (self.pushBytes bytes).buf.length reads := by
    rw [ReadsFit, front, size]
    exact and_iff_right (Nat.not_lt.mp full)
  have next := front_verdict first rest (self.pushBytes bytes).buf _ complete grown.stream
  by_cases ready : first.length ≤ (self.pushBytes bytes).buf.length
  · rw [if_pos ready] at next
    rw [(self.pushBytes bytes).popOrIncomplete_item _ _ next]
    refine Received.frame first rest _ reads rfl (aligned_tail first rest _ reads grown ready)
      (Nat.le_succ _) ?_ ends
    rw [fits, List.length_drop]
    exact readsFit_pop first rest reads _ ready
  · rw [if_neg ready] at next
    rw [(self.pushBytes bytes).popOrIncomplete_wait next]
    exact Received.incomplete _ reads grown (Or.inl (Nat.lt_succ_self _)) fits ends

theorem recv_failed (frames : List (List UInt8)) (self : Channel) (kind : ErrorKind)
    (message : String) (reads : List ReadResult)
    (aligned : Aligned frames self (.failed kind message :: reads))
    (seen : inspectFrame self.buf = .wait) :
    Received frames self (.failed kind message :: reads)
      (self.recvFrame (.failed kind message :: reads)) := by
  have retried : kind.transient = true := aligned.sound _ List.mem_cons_self
  rw [Channel.recvFrame, self.recvInto_failed _ kind message reads seen retried]
  have tail : Aligned frames self reads :=
    ⟨aligned.complete, fun read member => aligned.sound read (List.mem_cons_of_mem _ member),
      aligned.stream⟩
  exact Received.incomplete self reads tail (Or.inl (Nat.lt_succ_self _)) Iff.rfl
    (fun ahead _ => readEnds_failed kind message reads ahead)

theorem recv_step (frames : List (List UInt8)) (self : Channel) (reader : List ReadResult)
    (aligned : Aligned frames self reader) :
    Received frames self reader (self.recvFrame reader) := by
  cases frames with
  | nil =>
      have empty := List.append_eq_nil_iff.mp aligned.stream
      have seen : inspectFrame self.buf = .wait := by rw [empty.1]; rfl
      cases reader with
      | nil =>
          rw [Channel.recvFrame, self.recvInto_silent _ seen]
          exact Received.incomplete self [] aligned (Or.inr ⟨rfl, rfl⟩) Iff.rfl
            (fun _ _ => Iff.rfl)
      | cons read reads =>
          cases read with
          | failed kind message => exact recv_failed [] self kind message reads aligned seen
          | data bytes =>
              -- No frame is left for its bytes to belong to.
              obtain ⟨nonempty, _⟩ := aligned.sound _ List.mem_cons_self
              rw [(List.append_eq_nil_iff.mp empty.2).1] at nonempty
              exact absurd nonempty (Nat.lt_irrefl 0)
  | cons first rest =>
      by_cases ready : first.length ≤ self.buf.length
      · exact recv_ready first rest self reader aligned ready
      have seen := front_verdict first rest self.buf _ (aligned.complete first List.mem_cons_self)
        aligned.stream
      rw [if_neg ready] at seen
      cases reader with
      | nil =>
          -- Nothing is left to read, so the buffer already holds the whole stream.
          have whole := congrArg List.length aligned.stream
          simp only [streamOf, List.append_nil, List.flatten_cons, List.length_append] at whole
          omega
      | cons read reads =>
          cases read with
          | failed kind message =>
              exact recv_failed (first :: rest) self kind message reads aligned seen
          | data bytes =>
              exact recv_data first rest self bytes reads aligned (Nat.not_le.mp ready)

/-! Whole runs: what a caller that keeps calling sees. -/

def protocolError : Except OmtError (Option AssembledFrame) → Bool
  | .error (.protocol _) => true
  | _ => false

def framesOf : List (Except OmtError (Option AssembledFrame)) → List AssembledFrame
  | [] => []
  | .ok (some frame) :: rest => frame :: framesOf rest
  | _ :: rest => framesOf rest

/-- However often the caller calls, it sees no protocol error and a front of
the frames; after one call for each frame and each read it has them all. -/
def ReturnsExactly (frames : List AssembledFrame) (self : Channel) (reader : List ReadResult) :
    Prop :=
  ∀ calls, (∀ result ∈ self.recvCalls reader calls, protocolError result = false) ∧
    framesOf (self.recvCalls reader calls) <+: frames ∧
    (frames.length + reader.length ≤ calls → framesOf (self.recvCalls reader calls) = frames)

/-- A frame on the wire and what it decodes to. -/
def ValidFrame (frame : List UInt8 × AssembledFrame) : Prop :=
  CompleteFrame frame.1 ∧ AssembledFrame.fromBytes frame.1 = .ok frame.2

theorem written_valid (frame : AssembledFrame) (formed : frame.WellFormed)
    (fits : frame.header.dataLength.toNatClampNeg ≤ maxPayloadFor frame.header.frameType)
    (valid : isValidFrameType frame.header.frameType = true) :
    ValidFrame (frame.toBytes, frame) := by
  refine ⟨written_complete frame formed fits valid, ?_⟩
  have back := AssembledFrame.fromBytes_written frame [] formed
  rwa [List.append_nil] at back

theorem wires_complete (frames : List (List UInt8 × AssembledFrame))
    (valid : ∀ frame ∈ frames, ValidFrame frame) :
    ∀ wire ∈ frames.map Prod.fst, CompleteFrame wire := by
  intro wire member
  obtain ⟨frame, listed, rfl⟩ := List.mem_map.mp member
  exact (valid frame listed).1

theorem fits_returns (frames : List (List UInt8 × AssembledFrame)) (self : Channel)
    (reader : List ReadResult) (valid : ∀ frame ∈ frames, ValidFrame frame)
    (aligned : Aligned (frames.map Prod.fst) self reader)
    (fits : ReadsFit (frames.map Prod.fst) self.buf.length reader) :
    ReturnsExactly (frames.map Prod.snd) self reader := by
  intro calls
  -- Each call keeps the stream aligned and the remaining reads within the cap.
  induction calls generalizing frames self reader with
  | zero =>
      refine ⟨by simp [Channel.recvCalls], List.nil_prefix, ?_⟩
      intro enough
      have none : frames.map Prod.snd = [] := List.length_eq_zero_iff.mp (by omega)
      rw [none]
      rfl
  | succ calls ih =>
      have call := recv_step _ self reader aligned
      rw [Channel.recvCalls]
      generalize self.recvFrame reader = result at call
      cases call with
      | frame first rest next reads split after shorter kept _ =>
          obtain ⟨frame, others, rfl, rfl, rfl⟩ := List.map_eq_cons_iff.mp split
          have decoded := (valid frame List.mem_cons_self).2
          obtain ⟨quiet, front, all⟩ := ih others next reads
            (fun other member => valid other (List.mem_cons_of_mem frame member)) after
            (kept.mp fits)
          rw [decoded]
          refine ⟨?_, List.cons_prefix_cons.mpr ⟨rfl, front⟩, ?_⟩
          · intro result member
            rcases List.mem_cons.mp member with rfl | later
            · rfl
            · exact quiet result later
          · intro enough
            simp only [List.map_cons, List.length_cons] at enough
            exact congrArg (List.cons frame.2) (all (by omega))
      | incomplete next reads after shorter kept _ =>
          obtain ⟨quiet, front, all⟩ := ih frames next reads valid after (kept.mp fits)
          refine ⟨?_, front, ?_⟩
          · intro result member
            rcases List.mem_cons.mp member with rfl | later
            · rfl
            · exact quiet result later
          · intro enough
            apply all
            rcases shorter with shorter | ⟨none, rfl⟩
            · omega
            · rw [List.map_eq_nil_iff.mp none]
              exact Nat.zero_le _
      | overflow next reads unfit => exact absurd fits unfit

theorem unfit_overflows (calls : Nat) (frames : List (List UInt8)) (self : Channel)
    (reader : List ReadResult) (aligned : Aligned frames self reader)
    (unfit : ¬ ReadsFit frames self.buf.length reader)
    (enough : frames.length + reader.length ≤ calls) :
    ∃ result ∈ self.recvCalls reader calls, protocolError result = true := by
  induction calls generalizing frames self reader with
  | zero =>
      have none : reader = [] := List.length_eq_zero_iff.mp (by omega)
      rw [none] at unfit
      exact absurd trivial unfit
  | succ calls ih =>
      have call := recv_step frames self reader aligned
      rw [Channel.recvCalls]
      generalize self.recvFrame reader = result at call
      cases call with
      | frame first rest next reads split after shorter kept _ =>
          subst split
          rw [List.length_cons] at enough
          obtain ⟨result, member, loud⟩ :=
            ih rest next reads after (mt kept.mpr unfit) (by omega)
          exact ⟨result, List.mem_cons_of_mem _ member, loud⟩
      | incomplete next reads after shorter kept _ =>
          rcases shorter with shorter | ⟨rfl, rfl⟩
          · obtain ⟨result, member, loud⟩ :=
              ih frames next reads after (mt kept.mpr unfit) (by omega)
            exact ⟨result, List.mem_cons_of_mem _ member, loud⟩
          · exact absurd trivial (mt kept.mpr unfit)
      | overflow next reads _ => exact ⟨_, List.mem_cons_self, rfl⟩

/-- On a stream of valid frames, whatever the reads and the failures between
them, `recv_frame` returns exactly the frames if and only if every read ends
within the reassembly cap of a frame boundary already received. -/
theorem recv_frames_iff_reads_fit (frames : List (List UInt8 × AssembledFrame))
    (reader : List ReadResult) (valid : ∀ frame ∈ frames, ValidFrame frame)
    (sound : ∀ read ∈ reader, SoundRead read)
    (stream : streamOf reader = (frames.map Prod.fst).flatten) :
    ReturnsExactly (frames.map Prod.snd) .new reader ↔
      ReadsFit (frames.map Prod.fst) 0 reader := by
  have aligned := aligned_start _ reader (wires_complete frames valid) sound stream
  constructor
  · intro returns
    by_contra unfit
    obtain ⟨result, member, loud⟩ :=
      unfit_overflows _ _ .new reader aligned unfit (Nat.le_refl _)
    rw [(returns _).1 result member] at loud
    cases loud
  · exact fits_returns frames .new reader valid aligned

theorem recv_frames_iff_reads_fit_split :
    ReturnsExactly [⟨⟨1, .metadata, 0, 0, 0⟩, none, none, [], []⟩] .new
      [.failed .interrupted "", .data [1, 1, 0, 0, 0, 0, 0], .failed .timedOut "",
        .data [0, 0, 0, 0, 0, 0, 0, 0, 0]] :=
  (recv_frames_iff_reads_fit
    [([1, 1, 0, 0, 0, 0, 0, 0, 0, 0, 0, 0, 0, 0, 0, 0],
      ⟨⟨1, .metadata, 0, 0, 0⟩, none, none, [], []⟩)]
    [.failed .interrupted "", .data [1, 1, 0, 0, 0, 0, 0], .failed .timedOut "",
      .data [0, 0, 0, 0, 0, 0, 0, 0, 0]]
    (by
      intro frame member
      rw [List.mem_singleton.mp member]
      exact ⟨⟨⟨1, .metadata, 0, 0, 0⟩, by decide⟩, by decide⟩)
    (by simp [SoundRead, ErrorKind.transient, networkReceiveMaxTransfer])
    (by decide)).mpr
    ⟨⟨0, by decide, by decide⟩, ⟨0, by decide, by decide⟩, trivial⟩

/-! The largest video frame followed by the largest metadata frame. After
eighty full reads sixteen bytes of the first are missing, and a read that
brings them together with the whole second frame goes past the cap. -/

def zeros (count : Nat) : List UInt8 := List.replicate count 0

theorem zeros_length (count : Nat) : (zeros count).length = count := List.length_replicate

theorem zeros_append (front back : Nat) : zeros front ++ zeros back = zeros (front + back) :=
  List.replicate_append_replicate

theorem stream_zeros (reads count : Nat) :
    streamOf (List.replicate reads (.data (zeros count))) = zeros (reads * count) := by
  induction reads with
  | zero => rw [Nat.zero_mul]; rfl
  | succ reads ih =>
      rw [List.replicate_succ, streamOf, ih, zeros_append, Nat.succ_mul, Nat.add_comm]

def blankVideo (dataLength : Int32) (count : Nat) : AssembledFrame where
  header := ⟨protocolVersion, .video, 0, 0, dataLength⟩
  video := some ⟨.vmx1, 0, 0, 0, 0, 0, .none, .undefined⟩
  audio := none
  data := zeros count
  metadata := []

def blankMetadata (dataLength : Int32) (count : Nat) : AssembledFrame where
  header := ⟨protocolVersion, .metadata, 0, 0, dataLength⟩
  video := none
  audio := none
  data := zeros count
  metadata := []

theorem blankVideo_formed (dataLength : Int32) (count : Nat)
    (same : dataLength.toInt = (32 + count : Nat)) : (blankVideo dataLength count).WellFormed := by
  have flags : FrameType.video.contains .video = true ∧
      (FrameType.video.contains .audio && !FrameType.video.contains .video) = false := by decide
  refine ⟨rfl, rfl, ?_, flags.1.symm, flags.2.symm⟩
  have layout : (blankVideo dataLength count).extBytes.length = 32 := rfl
  rw [layout]
  simp only [blankVideo, zeros_length, List.length_nil]
  omega

theorem blankMetadata_formed (dataLength : Int32) (count : Nat)
    (same : dataLength.toInt = count) : (blankMetadata dataLength count).WellFormed := by
  have flags : FrameType.metadata.contains .video = false ∧
      (FrameType.metadata.contains .audio && !FrameType.metadata.contains .video) = false := by
    decide
  refine ⟨rfl, rfl, ?_, flags.1.symm, flags.2.symm⟩
  have layout : (blankMetadata dataLength count).extBytes.length = 0 := rfl
  rw [layout]
  simp only [blankMetadata, zeros_length, List.length_nil]
  omega

theorem blankVideo_bytes (dataLength : Int32) (count : Nat) :
    (blankVideo dataLength count).toBytes = (blankVideo dataLength count).header.toBytes ++
      ((blankVideo dataLength count).extBytes ++ zeros count) := by
  rw [AssembledFrame.toBytes]
  exact congrArg _ (congrArg _ (List.append_nil _))

theorem blankMetadata_length (dataLength : Int32) (count : Nat) :
    (blankMetadata dataLength count).toBytes.length = headerSize + count := by
  have layout : (blankMetadata dataLength count).extBytes = [] := rfl
  rw [AssembledFrame.toBytes, layout]
  simp only [blankMetadata, List.length_append, FrameHeader.toBytes_length, zeros_length,
    List.length_nil, Nat.zero_add, Nat.add_zero]

def largestVideo : AssembledFrame := blankVideo 10485760 10485728
def largestMetadata : AssembledFrame := blankMetadata 65536 65536

theorem cut_stream (head tail : List UInt8) (front reads count back : Nat) :
    streamOf (.data (head ++ zeros front) :: (List.replicate reads (.data (zeros count)) ++
      [.data (zeros back ++ tail)])) = head ++ (zeros (front + reads * count + back) ++ tail) := by
  rw [streamOf, streamOf_append, stream_zeros, streamOf, streamOf, List.append_nil,
    ← zeros_append, ← zeros_append]
  simp only [List.append_assoc]

def fullReads : List ReadResult :=
  .data ((largestVideo.header.toBytes ++ largestVideo.extBytes) ++ zeros 131024) ::
    (List.replicate 79 (.data (zeros 131072)) ++ [.data (zeros 16 ++ largestMetadata.toBytes)])

theorem largest_stream : streamOf fullReads =
    ([largestVideo.toBytes, largestMetadata.toBytes] : List (List UInt8)).flatten := by
  have total : 131024 + 79 * 131072 + 16 = 10485728 := rfl
  rw [fullReads, cut_stream, total, largestVideo, blankVideo_bytes]
  simp only [List.flatten_cons, List.flatten_nil, List.append_nil, List.append_assoc]

theorem fullReads_sound : ∀ read ∈ fullReads, SoundRead read := by
  intro read member
  rcases List.mem_cons.mp member with rfl | member
  · rw [SoundRead, List.length_append, zeros_length]
    decide
  rcases List.mem_append.mp member with middle | last
  · rw [List.eq_of_mem_replicate middle, SoundRead, zeros_length]
    decide
  · rw [List.mem_singleton.mp last, SoundRead, List.length_append, zeros_length, largestMetadata,
      blankMetadata_length]
    decide

theorem fullReads_unfit :
    ¬ ReadsFit [largestVideo.toBytes, largestMetadata.toBytes] 0 fullReads := by
  intro fits
  have last := ((readsFit_append _ _ _ _).mp fits.2).2.1
  have width : largestVideo.toBytes.length = 10485776 := by
    rw [largestVideo, blankVideo_bytes, List.length_append, List.length_append, zeros_length]
    rfl
  rw [stream_zeros, zeros_length, List.length_append, List.length_append, zeros_length,
    List.length_append, zeros_length, largestMetadata, blankMetadata_length] at last
  rw [readFits_front _ _ _ _ (by rw [width]; decide)] at last
  revert last
  decide

theorem recv_frames_overflow :
    (∀ frame ∈ [(largestVideo.toBytes, largestVideo), (largestMetadata.toBytes, largestMetadata)],
      ValidFrame frame) ∧
    (∀ read ∈ fullReads, SoundRead read) ∧
    streamOf fullReads =
      ([largestVideo.toBytes, largestMetadata.toBytes] : List (List UInt8)).flatten ∧
    ¬ ReturnsExactly [largestVideo, largestMetadata] .new fullReads := by
  have valid : ∀ frame ∈ [(largestVideo.toBytes, largestVideo),
      (largestMetadata.toBytes, largestMetadata)], ValidFrame frame := by
    intro frame member
    rcases List.mem_cons.mp member with rfl | member
    · exact written_valid _ (blankVideo_formed _ _ (by decide)) (by decide) (by decide)
    · rw [List.mem_singleton.mp member]
      exact written_valid _ (blankMetadata_formed _ _ (by decide)) (by decide) (by decide)
  refine ⟨valid, fullReads_sound, largest_stream, ?_⟩
  intro returns
  have aligned := aligned_start _ _ (wires_complete _ valid) fullReads_sound largest_stream
  obtain ⟨result, member, loud⟩ :=
    unfit_overflows _ _ .new fullReads aligned fullReads_unfit (Nat.le_refl _)
  rw [(returns _).1 result member] at loud
  cases loud

end OpenMediaTransport
