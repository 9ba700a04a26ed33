import OpenMediaTransport.FrameMetadata
import OpenMediaTransport.Ledger
import OpenMediaTransport.Runs

/-!
The handoff of decoded video in `receive.rs`. The queue never looks at a frame, so that the
frames are of any type here; the queue for GPU frames is the same code. Every operation
holds the lock from its first look at the queue to its end, `wait_take` from one wake-up to
the next wait. A wake-up is no step of its own: a waiter only looks again.
-/

namespace OpenMediaTransport

def recordDropDecode (framesDroppedDecode : UInt64) : UInt64 :=
  if framesDroppedDecode.toNat + 1 < 2 ^ 64 then framesDroppedDecode + 1 else framesDroppedDecode

/-- `slot` has the oldest frame first. -/
structure DecodedVideoQueue (F : Type) where
  slot : List F
  depth : UInt32
  overwrites : UInt64
  cap : Nat
  positive : 0 < cap

namespace DecodedVideoQueue
variable {F : Type}

def new (cap : Nat) : DecodedVideoQueue F :=
  { slot := [], depth := 0, overwrites := 0, cap := max cap 1
    positive := Nat.lt_of_lt_of_le Nat.zero_lt_one (Nat.le_max_right cap 1) }

/-- What the loop of `publish` leaves: the frames it has popped, those still queued, and the
two counts of frames lost. -/
structure Room (F : Type) where
  popped : List F
  slot : List F
  overwrites : UInt64
  framesDroppedDecode : UInt64

def makeRoom (cap : Nat) (overwrites framesDroppedDecode : UInt64) : List F → Room F
  | [] => { popped := [], slot := [], overwrites, framesDroppedDecode }
  | oldest :: rest =>
      if cap ≤ (oldest :: rest).length then
        let room := makeRoom cap (overwrites + 1) (recordDropDecode framesDroppedDecode) rest
        { room with popped := oldest :: room.popped }
      else { popped := [], slot := oldest :: rest, overwrites, framesDroppedDecode }

/-- The frames that are lost, the queue, and the count in the statistics. -/
def publish (queue : DecodedVideoQueue F) (framesDroppedDecode : UInt64) (frame : F) :
    List F × DecodedVideoQueue F × UInt64 :=
  let room := makeRoom queue.cap queue.overwrites framesDroppedDecode queue.slot
  let slot := room.slot ++ [frame]
  (room.popped,
    { queue with slot, depth := UInt32.ofNat slot.length, overwrites := room.overwrites },
    room.framesDroppedDecode)

def tryTake (queue : DecodedVideoQueue F) : Option F × DecodedVideoQueue F :=
  let slot := queue.slot.tail
  (queue.slot.head?, { queue with slot, depth := UInt32.ofNat slot.length })

inductive Waited (F : Type) where
  | took (frame : F)
  | gaveUp
  | waits

/-- One round of the loop in `wait_take`, for the stop flag and the clock as it finds them. -/
def waitTake (queue : DecodedVideoQueue F) (stop expired : Bool) :
    Waited F × DecodedVideoQueue F :=
  match queue.slot with
  | frame :: slot => (.took frame, { queue with slot, depth := UInt32.ofNat slot.length })
  | [] => if stop then (.gaveUp, queue) else if expired then (.gaveUp, queue) else (.waits, queue)

structure Traffic (F : Type) where
  queue : DecodedVideoQueue F
  framesDroppedDecode : UInt64
  published : List F
  taken : List F
  overwritten : List F

def begin (cap : Nat) (framesDroppedDecode : UInt64) : Traffic F :=
  { queue := new cap, framesDroppedDecode, published := [], taken := [], overwritten := [] }

inductive Step (F : Type) where
  | publish (frame : F)
  | tryTake
  | waitTake (stop expired : Bool)

def Traffic.act (traffic : Traffic F) : Step F → Option (Traffic F)
  | .publish frame =>
      let (lost, queue, framesDroppedDecode) :=
        traffic.queue.publish traffic.framesDroppedDecode frame
      some { traffic with
        queue, framesDroppedDecode
        published := traffic.published ++ [frame]
        overwritten := traffic.overwritten ++ lost }
  | .tryTake =>
      let (frame, queue) := traffic.queue.tryTake
      some { traffic with queue, taken := traffic.taken ++ frame.toList }
  | .waitTake stop expired =>
      match traffic.queue.waitTake stop expired with
      | (.took frame, queue) => some { traffic with queue, taken := traffic.taken ++ [frame] }
      | (_, queue) => some { traffic with queue }

/-- A queue that keeps its bound loses at most its oldest frame, and that when it is full. -/
theorem makeRoom_bounded (cap : Nat) (positive : 0 < cap) (overwrites framesDroppedDecode : UInt64)
    (slot : List F) (bounded : slot.length ≤ cap) :
    (slot.length < cap ∧ makeRoom cap overwrites framesDroppedDecode slot =
      { popped := [], slot, overwrites, framesDroppedDecode }) ∨
    ∃ oldest rest, slot = oldest :: rest ∧ slot.length = cap ∧
      makeRoom cap overwrites framesDroppedDecode slot =
        { popped := [oldest], slot := rest, overwrites := overwrites + 1
          framesDroppedDecode := recordDropDecode framesDroppedDecode } := by
  cases slot with
  | nil => exact Or.inl ⟨positive, rfl⟩
  | cons oldest rest =>
      by_cases full : cap ≤ (oldest :: rest).length
      · have exactly : (oldest :: rest).length = cap := Nat.le_antisymm bounded full
        have settled : ∀ lost dropped, makeRoom cap lost dropped rest =
            { popped := [], slot := rest, overwrites := lost, framesDroppedDecode := dropped } := by
          intro lost dropped
          cases rest with
          | nil => rfl
          | cons second others =>
              have short : ¬cap ≤ (second :: others).length := by
                simp only [List.length_cons] at exactly ⊢
                omega
              rw [makeRoom, if_neg short]
        exact Or.inr ⟨oldest, rest, rfl, exactly, by rw [makeRoom, if_pos full, settled]⟩
      · exact Or.inl ⟨Nat.lt_of_not_le full, by rw [makeRoom, if_neg full]⟩

/-- A frame is handed over, or overwritten by a later one. -/
inductive Fate where
  | taken
  | overwritten
  deriving DecidableEq

/-- The counters tell what the books say, as far as they can count. -/
structure Accounted (cap : Nat) (droppedBefore : UInt64) (traffic : Traffic F) : Prop where
  cap : traffic.queue.cap = max cap 1
  bounded : traffic.queue.slot.length ≤ traffic.queue.cap
  depth : traffic.queue.depth = UInt32.ofNat traffic.queue.slot.length
  overwrites : traffic.queue.overwrites = UInt64.ofNat traffic.overwritten.length
  dropped : traffic.framesDroppedDecode.toNat =
    min (droppedBefore.toNat + traffic.overwritten.length) (2 ^ 64 - 1)
  books : ∃ ledger : Ledger F Fate, ledger.entered = traffic.published ∧
    ledger.held = traffic.queue.slot ∧ ledger.gone .taken = traffic.taken ∧
    ledger.gone .overwritten = traffic.overwritten

theorem recordDropDecode_count (start lost : Nat) (count : UInt64)
    (counted : count.toNat = min (start + lost) (2 ^ 64 - 1)) :
    (recordDropDecode count).toNat = min (start + (lost + 1)) (2 ^ 64 - 1) := by
  rw [recordDropDecode]
  split
  · rename_i room
    rw [UInt64.toNat_add, UInt64.toNat_one, Nat.mod_eq_of_lt room]
    omega
  · rename_i full
    omega

section Invariant
variable (cap : Nat) (droppedBefore : UInt64)

theorem publish_accounted (before after : Traffic F) (frame : F)
    (accounted : Accounted cap droppedBefore before)
    (published : before.act (.publish frame) = some after) :
    Accounted cap droppedBefore after ∧
      (after.overwritten = before.overwritten ∨
        ∃ oldest rest, before.queue.slot = oldest :: rest ∧
          before.queue.slot.length = max cap 1 ∧ after.queue.slot = rest ++ [frame] ∧
          after.overwritten = before.overwritten ++ [oldest]) := by
  obtain ⟨ledger, entered, held, taken, overwritten⟩ := accounted.books
  have room := makeRoom_bounded before.queue.cap before.queue.positive before.queue.overwrites
    before.framesDroppedDecode before.queue.slot accounted.bounded
  rcases room with ⟨spare, made⟩ | ⟨oldest, rest, top, full, made⟩
  · simp only [Traffic.act, publish, made, List.append_nil, Option.some.injEq] at published
    subst published
    refine ⟨⟨accounted.cap, ?_, rfl, accounted.overwrites, accounted.dropped,
      ledger.enter frame, ?_, ?_, taken, overwritten⟩, Or.inl rfl⟩
    · simpa using Nat.succ_le_of_lt spare
    · simp [Ledger.enter, entered]
    · simp [Ledger.enter, held]
  -- A full queue gives up its oldest frame, which leaves the books as overwritten.
  · simp only [Traffic.act, publish, made, Option.some.injEq] at published
    subst published
    refine ⟨⟨accounted.cap, ?_, rfl, ?_, ?_, (ledger.leave .overwritten).enter frame,
      ?_, ?_, ?_, ?_⟩, Or.inr ⟨oldest, rest, top, ?_, rfl, rfl⟩⟩
    · rw [top] at full
      simpa using Nat.le_of_eq full
    · simp [accounted.overwrites]
    · have counted := recordDropDecode_count droppedBefore.toNat before.overwritten.length
        before.framesDroppedDecode accounted.dropped
      simpa using counted
    · simp [Ledger.enter, Ledger.leave, entered]
    · simp [Ledger.enter, Ledger.leave, held, top]
    · simp [Ledger.gone_enter, Ledger.gone_leave, taken]
    · simp [Ledger.gone_enter, Ledger.gone_leave, overwritten, held, top]
    · rw [full, accounted.cap]

theorem taken_accounted (before : Traffic F) (frame : F) (rest : List F)
    (accounted : Accounted cap droppedBefore before) (top : before.queue.slot = frame :: rest) :
    Accounted cap droppedBefore
      { before with
        queue := { before.queue with slot := rest, depth := UInt32.ofNat rest.length }
        taken := before.taken ++ [frame] } := by
  obtain ⟨ledger, entered, held, taken, overwritten⟩ := accounted.books
  refine ⟨accounted.cap, ?_, rfl, accounted.overwrites, accounted.dropped, ledger.leave .taken,
    entered, ?_, ?_, ?_⟩
  · have bounded := accounted.bounded
    rw [top, List.length_cons] at bounded
    exact Nat.le_of_succ_le bounded
  · simp [Ledger.leave, held, top]
  · simp [Ledger.gone_leave, taken, held, top]
  · simp [Ledger.gone_leave, overwritten]

theorem tryTake_empty (queue : DecodedVideoQueue F) (empty : queue.slot = [])
    (depth : queue.depth = UInt32.ofNat queue.slot.length) : queue.tryTake = (none, queue) := by
  cases queue with
  | mk slot count overwrites cap positive =>
      cases empty
      simp only [tryTake, List.head?_nil, List.tail_nil] at depth ⊢
      rw [depth]

theorem take_accounted (before after : Traffic F) (step : Step F)
    (accounted : Accounted cap droppedBefore before) (acted : before.act step = some after)
    (takes : ∀ frame, step ≠ .publish frame) :
    Accounted cap droppedBefore after ∧ after.overwritten = before.overwritten := by
  cases step with
  | publish frame => exact absurd rfl (takes frame)
  | tryTake =>
      cases top : before.queue.slot with
      | nil =>
          simp only [Traffic.act, tryTake_empty before.queue top accounted.depth,
            Option.toList_none, List.append_nil, Option.some.injEq] at acted
          subst acted
          exact ⟨accounted, rfl⟩
      | cons frame rest =>
          simp only [Traffic.act, tryTake, top, List.head?_cons, Option.toList_some,
            List.tail_cons, Option.some.injEq] at acted
          subst acted
          exact ⟨taken_accounted cap droppedBefore before frame rest accounted top, rfl⟩
  | waitTake stop expired =>
      cases top : before.queue.slot with
      | nil =>
          have unchanged : after = before := by
            cases stop <;> cases expired <;>
              simp [Traffic.act, waitTake, top] at acted <;> exact acted.symm
          subst unchanged
          exact ⟨accounted, rfl⟩
      | cons frame rest =>
          simp only [Traffic.act, waitTake, top, Option.some.injEq] at acted
          subst acted
          exact ⟨taken_accounted cap droppedBefore before frame rest accounted top, rfl⟩

theorem accounted_kept :
    Runs.Invariant (Traffic.act (F := F)) (begin cap droppedBefore) (fun _ _ => True)
      (Accounted cap droppedBefore) where
  start := by
    refine ⟨rfl, Nat.zero_le _, rfl, rfl, ?_, Ledger.start, rfl, rfl, rfl, rfl⟩
    have bound := droppedBefore.toNat_lt
    simp only [begin, List.length_nil]
    omega
  step before after step accounted _ acted := by
    cases step with
    | publish frame => exact (publish_accounted cap droppedBefore before after frame accounted acted).1
    | tryTake =>
        exact (take_accounted cap droppedBefore before after .tryTake accounted acted
          nofun).1
    | waitTake stop expired =>
        exact (take_accounted cap droppedBefore before after (.waitTake stop expired) accounted acted
          nofun).1

variable {cap droppedBefore} {traffic : Traffic F}

theorem Accounted.balance (accounted : Accounted cap droppedBefore traffic) :
    traffic.published.length =
      traffic.taken.length + traffic.overwritten.length + traffic.queue.slot.length := by
  obtain ⟨ledger, entered, held, taken, overwritten⟩ := accounted.books
  have counted := ledger.entered_length [.taken, .overwritten] (by decide)
    (fun fate => by cases fate <;> decide)
  rw [entered, held] at counted
  simpa [taken, overwritten] using counted

theorem Accounted.ordered (accounted : Accounted cap droppedBefore traffic) :
    traffic.taken.Sublist traffic.published := by
  obtain ⟨ledger, entered, held, taken, overwritten⟩ := accounted.books
  rw [← taken, ← entered]
  exact ledger.gone_sublist .taken

/-- Only a full queue loses a frame, and that is its oldest one. -/
theorem Accounted.loses (accounted : Accounted cap droppedBefore traffic) (step : Step F)
    (after : Traffic F) (acted : traffic.act step = some after) :
    after.overwritten = traffic.overwritten ∨
      ∃ oldest rest, traffic.queue.slot = oldest :: rest ∧
        traffic.queue.slot.length = max cap 1 ∧
        after.overwritten = traffic.overwritten ++ [oldest] := by
  cases step with
  | publish frame =>
      have kept := (publish_accounted cap droppedBefore traffic after frame accounted acted).2
      rcases kept with none | ⟨oldest, rest, top, full, -, lost⟩
      · exact Or.inl none
      · exact Or.inr ⟨oldest, rest, top, full, lost⟩
  | tryTake =>
      exact Or.inl (take_accounted cap droppedBefore traffic after .tryTake accounted acted nofun).2
  | waitTake stop expired =>
      exact Or.inl (take_accounted cap droppedBefore traffic after (.waitTake stop expired)
        accounted acted nofun).2
end Invariant

/-- Whatever is published and taken in whatever order. The counters are exact up to their
widths; in particular the depth is, if the capacity is below `2 ^ 32`. -/
theorem decoded_queue_accounted (cap : Nat) (droppedBefore : UInt64) (history : List (Step F))
    (traffic : Traffic F)
    (ran : Runs.replay Traffic.act (begin cap droppedBefore) history = some traffic) :
    traffic.queue.slot.length ≤ max cap 1 ∧
    traffic.taken.Sublist traffic.published ∧
    (∃ ledger : Ledger F Fate, ledger.entered = traffic.published ∧
      ledger.held = traffic.queue.slot ∧ ledger.gone .taken = traffic.taken ∧
      ledger.gone .overwritten = traffic.overwritten) ∧
    (∀ step after, traffic.act step = some after →
      after.overwritten = traffic.overwritten ∨
        ∃ oldest rest, traffic.queue.slot = oldest :: rest ∧
          traffic.queue.slot.length = max cap 1 ∧
          after.overwritten = traffic.overwritten ++ [oldest]) ∧
    traffic.published.length =
      traffic.taken.length + traffic.overwritten.length + traffic.queue.slot.length ∧
    traffic.queue.depth.toNat = traffic.queue.slot.length % 2 ^ 32 ∧
    traffic.queue.overwrites.toNat = traffic.overwritten.length % 2 ^ 64 ∧
    traffic.framesDroppedDecode.toNat =
      min (droppedBefore.toNat + traffic.overwritten.length) (2 ^ 64 - 1) ∧
    (max cap 1 < 2 ^ 32 → traffic.queue.depth.toNat = traffic.queue.slot.length) ∧
    (droppedBefore.toNat + traffic.overwritten.length < 2 ^ 64 →
      traffic.published.length =
        traffic.taken.length + traffic.queue.overwrites.toNat + traffic.queue.slot.length ∧
      traffic.framesDroppedDecode.toNat =
        droppedBefore.toNat + traffic.queue.overwrites.toNat) := by
  have accounted := Runs.Invariant.run Traffic.act (begin cap droppedBefore)
    (accounted_kept cap droppedBefore) history traffic
    (Runs.throughout_true Traffic.act (begin cap droppedBefore) history) ran
  have bounded : traffic.queue.slot.length ≤ max cap 1 := accounted.cap ▸ accounted.bounded
  have depth : traffic.queue.depth.toNat = traffic.queue.slot.length % 2 ^ 32 := by
    rw [accounted.depth]
    exact UInt32.toNat_ofNat'
  have overwrites : traffic.queue.overwrites.toNat = traffic.overwritten.length % 2 ^ 64 := by
    rw [accounted.overwrites]
    exact UInt64.toNat_ofNat'
  have balance := accounted.balance
  refine ⟨bounded, accounted.ordered, accounted.books, accounted.loses, balance, depth,
    overwrites, accounted.dropped, fun small => ?_, fun few => ?_⟩
  · rw [depth, Nat.mod_eq_of_lt (Nat.lt_of_le_of_lt bounded small)]
  · have dropped := accounted.dropped
    rw [overwrites, Nat.mod_eq_of_lt (by omega)]
    exact ⟨balance, by omega⟩

theorem decoded_queue_accounted_one :
    ∃ traffic : Traffic Nat,
      Runs.replay Traffic.act (begin 1 0) [.tryTake, .publish 8, .publish 7] = some traffic ∧
      traffic.taken = [8] ∧ traffic.overwritten = [7] ∧
      traffic.taken.Sublist traffic.published ∧
      traffic.queue.depth.toNat = traffic.queue.slot.length ∧
      traffic.published.length =
        traffic.taken.length + traffic.queue.overwrites.toNat + traffic.queue.slot.length := by
  refine ⟨_, rfl, rfl, rfl, ?_⟩
  obtain ⟨-, ordered, -, -, -, -, -, -, depth, counts⟩ :=
    decoded_queue_accounted 1 0 ([.tryTake, .publish 8, .publish 7] : List (Step Nat)) _ rfl
  exact ⟨ordered, depth (by decide), (counts (by decide)).1⟩

theorem publishes_fill (cap : Nat) (frame : F) (count : Nat) (room : count ≤ cap) :
    ∃ traffic, Runs.replay Traffic.act (begin cap 0) (List.replicate count (.publish frame)) =
        some traffic ∧ traffic.queue.slot = List.replicate count frame ∧
      traffic.queue.cap = max cap 1 ∧ traffic.queue.depth = UInt32.ofNat count := by
  induction count with
  | zero => exact ⟨begin cap 0, rfl, rfl, rfl, rfl⟩
  | succ count ih =>
      obtain ⟨before, ran, held, bound, -⟩ := ih (Nat.le_of_succ_le room)
      have spare : before.queue.slot.length < before.queue.cap := by
        rw [held, bound, List.length_replicate]
        omega
      have kept : makeRoom before.queue.cap before.queue.overwrites before.framesDroppedDecode
          before.queue.slot = ⟨[], before.queue.slot, before.queue.overwrites,
            before.framesDroppedDecode⟩ := by
        rcases makeRoom_bounded before.queue.cap before.queue.positive before.queue.overwrites
          before.framesDroppedDecode before.queue.slot (Nat.le_of_lt spare) with
          ⟨-, made⟩ | ⟨oldest, rest, -, full, -⟩
        · exact made
        · omega
      have grown : before.queue.slot ++ [frame] = List.replicate (count + 1) frame := by
        rw [held, List.replicate_succ']
      rw [List.replicate_succ]
      refine ⟨_, (Runs.replay_cons Traffic.act _ _ _ _).mpr ⟨before, ran, rfl⟩, ?_⟩
      simp only [kept, grown, List.length_replicate]
      exact ⟨trivial, bound, trivial⟩

def blankFrame : DecodedVideoFrame :=
  { width := 0, height := 0, stride := 0, timestamp := 0, frameRateN := 60, frameRateD := 1
    colorSpace := .undefined, pixels := [], frameMetadata := none }

/-- A queue for `2 ^ 32` frames, when it is full, reports a depth of 0. -/
theorem decoded_queue_depth_wraps :
    ¬∀ (history : List (Step DecodedVideoFrame)) (traffic : Traffic DecodedVideoFrame),
      Runs.replay Traffic.act (begin (2 ^ 32) 0) history = some traffic →
      traffic.queue.depth.toNat = traffic.queue.slot.length := by
  intro always
  obtain ⟨traffic, ran, held, -, depth⟩ :=
    publishes_fill (2 ^ 32) blankFrame (2 ^ 32) (Nat.le_refl _)
  have claimed := always _ traffic ran
  rw [held, depth, List.length_replicate] at claimed
  exact absurd claimed (by decide)

end DecodedVideoQueue

end OpenMediaTransport
