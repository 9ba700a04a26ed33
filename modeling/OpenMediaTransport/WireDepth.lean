import OpenMediaTransport.FrameDispatch
import OpenMediaTransport.Runs

/-!
The compressed video queue between the reader and the decoder, and the counter
beside it. Either thread takes two steps a frame: the reader puts the frame in the
channel and then counts it, the decoder takes it out and then counts it off. The
counter wraps when it is counted up and stops at zero when it is counted down.

A history is a list of steps, the newest first.
-/

namespace OpenMediaTransport

/-- Wire-compressed video queue depth (backpressure → drop). -/
def videoWireQ : Nat := 3

/-- `counting` and `taken`: the thread is between its two steps. -/
structure WireQueue where
  channel : List WireVideo
  counting : Bool
  taken : Option WireVideo
  wireDepth : UInt32

inductive WireStep where
  | dispatch (frame : AssembledFrame) (decodeAudioHere : Bool) (metadataTx audioTx : TrySend)
  | count
  | receive
  | countOff

def saturatingPred (depth : UInt32) : UInt32 := if depth = 0 then 0 else depth - 1

/-- The frames that a dispatch has put into the video channel. -/
def queuedVideo : List DispatchEffect → List WireVideo
  | [] => []
  | .video wire :: rest => wire :: queuedVideo rest
  | _ :: rest => queuedVideo rest

namespace WireQueue

def init : WireQueue := { channel := [], counting := false, taken := none, wireDepth := 0 }

def trySend (queue : WireQueue) : TrySend :=
  if queue.channel.length < videoWireQ then .ok else .full

def act (queue : WireQueue) : WireStep → Option WireQueue
  | .dispatch frame decodeAudioHere metadataTx audioTx =>
      if queue.counting then none
      else
        let sent := queuedVideo
          (dispatchAvFrame frame decodeAudioHere queue.trySend metadataTx audioTx)
        some { queue with channel := queue.channel ++ sent, counting := !sent.isEmpty }
  | .count =>
      if queue.counting then
        some { queue with counting := false, wireDepth := queue.wireDepth + 1 }
      else none
  | .receive =>
      match queue.taken, queue.channel with
      | none, wire :: rest => some { queue with channel := rest, taken := some wire }
      | _, _ => none
  | .countOff =>
      match queue.taken with
      | some _ => some { queue with taken := none, wireDepth := saturatingPred queue.wireDepth }
      | none => none

def replay : List WireStep → Option WireQueue := Runs.replay act init

def BetweenFrames (queue : WireQueue) : Prop := queue.counting = false ∧ queue.taken = none

/-- How often a step counts a frame off that the counter does not hold. -/
def losses (queue : WireQueue) : WireStep → Nat
  | .countOff => if queue.wireDepth = 0 then 1 else 0
  | _ => 0

def lost : List WireStep → Nat
  | [] => 0
  | step :: past => lost past + ((replay past).map fun queue => queue.losses step).getD 0

/-- No frame is counted off at zero. -/
def Counts (queue : WireQueue) (step : WireStep) : Prop := step = .countOff → queue.wireDepth ≠ 0

/-- Every frame is counted off from a counter above zero. -/
def Counted : List WireStep → Prop := Runs.Throughout act init Counts

/-! Accounting. -/

/-- A frame in the channel that is yet to be counted. -/
def uncounted (queue : WireQueue) : Nat := if queue.counting then 1 else 0

/-- A frame out of the channel that is yet to be counted off. -/
def uncountedOff (queue : WireQueue) : Nat := if queue.taken.isSome then 1 else 0

/-- Once everything is counted, the counter is the channel's length and what was
missed; missing one frame leaves it too high to miss another. -/
structure Balanced (queue : WireQueue) (missed : Nat) : Prop where
  room : queue.channel.length ≤ videoWireQ
  once : missed ≤ 1
  depth : queue.wireDepth.toNat + queue.uncounted =
    queue.channel.length + queue.uncountedOff + missed

theorem queuedVideo_dispatch (frame : AssembledFrame) (decodeAudioHere : Bool)
    (videoTx metadataTx audioTx : TrySend) :
    queuedVideo (dispatchAvFrame frame decodeAudioHere videoTx metadataTx audioTx) = [] ∨
      videoTx = .ok ∧ ∃ wire,
        queuedVideo (dispatchAvFrame frame decodeAudioHere videoTx metadataTx audioTx) = [wire] := by
  unfold dispatchAvFrame
  split
  · cases wireVideo frame with
    | none => exact .inl rfl
    | some wire =>
        cases videoTx with
        | ok => exact .inr ⟨rfl, wire, rfl⟩
        | full => exact .inl rfl
        | disconnected => exact .inl rfl
  split
  · cases decodeAudioFrame frame with
    | none => exact .inl rfl
    | some decoded => cases audioTx <;> exact .inl rfl
  split
  · cases metadataTx <;> exact .inl rfl
  · exact .inl rfl

inductive Acted (queue : WireQueue) : WireStep → WireQueue → Prop where
  | dropped (frame : AssembledFrame) (decodeAudioHere : Bool) (metadataTx audioTx : TrySend)
      (free : queue.counting = false) :
      Acted queue (.dispatch frame decodeAudioHere metadataTx audioTx) queue
  | queued (frame : AssembledFrame) (decodeAudioHere : Bool) (metadataTx audioTx : TrySend)
      (free : queue.counting = false) (room : queue.channel.length < videoWireQ)
      (wire : WireVideo) : Acted queue (.dispatch frame decodeAudioHere metadataTx audioTx)
        { queue with channel := queue.channel ++ [wire], counting := true }
  | counted (busy : queue.counting = true) :
      Acted queue .count { queue with counting := false, wireDepth := queue.wireDepth + 1 }
  | received (free : queue.taken = none) (wire : WireVideo) (rest : List WireVideo)
      (full : queue.channel = wire :: rest) :
      Acted queue .receive { queue with channel := rest, taken := some wire }
  | countedOff (wire : WireVideo) (busy : queue.taken = some wire) :
      Acted queue .countOff
        { queue with taken := none, wireDepth := saturatingPred queue.wireDepth }

theorem act_dispatch (queue after : WireQueue) (frame : AssembledFrame) (decodeAudioHere : Bool)
    (metadataTx audioTx : TrySend)
    (taken : queue.act (.dispatch frame decodeAudioHere metadataTx audioTx) = some after) :
    queue.Acted (.dispatch frame decodeAudioHere metadataTx audioTx) after := by
  simp only [act] at taken
  cases busy : queue.counting with
  | true => simp [busy] at taken
  | false =>
      rw [busy, if_neg Bool.false_ne_true] at taken
      rcases queuedVideo_dispatch frame decodeAudioHere queue.trySend metadataTx audioTx with
        nothing | ⟨answer, wire, one⟩
      · have same : after = queue := by
          rw [← Option.some.inj taken, nothing, List.append_nil]
          cases queue
          cases busy
          rfl
        rw [same]
        exact .dropped frame decodeAudioHere metadataTx audioTx busy
      · have room : queue.channel.length < videoWireQ := by
          by_contra full
          rw [trySend, if_neg full] at answer
          cases answer
        rw [one] at taken
        cases taken
        exact .queued frame decodeAudioHere metadataTx audioTx busy room wire

theorem act_acted (queue after : WireQueue) (step : WireStep)
    (taken : queue.act step = some after) : queue.Acted step after := by
  cases step with
  | dispatch frame decodeAudioHere metadataTx audioTx =>
      exact act_dispatch queue after frame decodeAudioHere metadataTx audioTx taken
  | count =>
      simp only [act] at taken
      cases busy : queue.counting with
      | false => simp [busy] at taken
      | true =>
          rw [busy, if_pos rfl] at taken
          cases taken
          exact .counted busy
  | receive =>
      simp only [act] at taken
      cases free : queue.taken with
      | some wire => simp [free] at taken
      | none =>
          cases full : queue.channel with
          | nil => simp [free, full] at taken
          | cons wire rest =>
              rw [free, full] at taken
              cases taken
              exact .received free wire rest full
  | countOff =>
      simp only [act] at taken
      cases busy : queue.taken with
      | none => simp [busy] at taken
      | some wire =>
          rw [busy] at taken
          cases taken
          exact .countedOff wire busy

theorem saturatingPred_toNat (depth : UInt32) :
    (saturatingPred depth).toNat + 1 = depth.toNat + if depth = 0 then 1 else 0 := by
  unfold saturatingPred
  by_cases zero : depth = 0
  · rw [if_pos zero, if_pos zero, zero]
  · have positive : 1 ≤ depth.toNat := by
      by_contra none
      exact zero (UInt32.toNat.inj (by simpa using none))
    have down : (depth - 1).toNat = depth.toNat - 1 :=
      UInt32.toNat_sub_of_le _ _ (UInt32.le_iff_toNat_le.mpr positive)
    rw [if_neg zero, if_neg zero, down]
    omega

theorem Balanced.small (queue : WireQueue) (missed : Nat) (balanced : queue.Balanced missed) :
    queue.wireDepth.toNat ≤ videoWireQ + 2 := by
  have room := balanced.room
  have once := balanced.once
  have depth := balanced.depth
  have off : queue.uncountedOff ≤ 1 := by
    unfold uncountedOff
    split <;> omega
  omega

theorem acted_balanced (queue after : WireQueue) (step : WireStep) (missed : Nat)
    (acted : queue.Acted step after) (before : queue.Balanced missed) :
    after.Balanced (missed + queue.losses step) := by
  have room := before.room
  have depth := before.depth
  unfold uncounted uncountedOff at depth
  cases acted with
  | dropped frame decodeAudioHere metadataTx audioTx free => exact before
  | queued frame decodeAudioHere metadataTx audioTx free space wire =>
      refine ⟨?_, before.once, ?_⟩
      · rw [List.length_append, List.length_singleton]
        exact space
      · simp only [uncounted, uncountedOff, free, losses, if_true, Bool.false_eq_true, if_false,
          List.length_append, List.length_singleton] at depth ⊢
        omega
  | counted busy =>
      -- What is counted is in the channel or just out of it, so the count is far from wrapping.
      have small := before.small
      have up : (queue.wireDepth + 1).toNat = queue.wireDepth.toNat + 1 := by
        rw [UInt32.toNat_add, UInt32.toNat_one]
        exact Nat.mod_eq_of_lt (by unfold videoWireQ at small; omega)
      refine ⟨room, before.once, ?_⟩
      simp only [uncounted, uncountedOff, busy, losses, if_true, Bool.false_eq_true,
        if_false] at depth ⊢
      omega
  | received free wire rest full =>
      rw [full, List.length_cons] at room depth
      refine ⟨Nat.le_of_succ_le room, before.once, ?_⟩
      simp only [uncounted, uncountedOff, free, losses, if_true, Bool.false_eq_true, if_false,
        Option.isSome_none, Option.isSome_some] at depth ⊢
      omega
  | countedOff wire busy =>
      have down := saturatingPred_toNat queue.wireDepth
      simp only [busy, Option.isSome_some, if_true] at depth
      refine ⟨room, ?_, ?_⟩
      · by_cases zero : queue.wireDepth = 0
        · -- The one frame still to be counted is the one taken.
          have counting : (if queue.counting then 1 else 0) ≤ 1 := by split <;> omega
          rw [zero, UInt32.toNat_zero] at depth
          rw [losses, if_pos zero]
          omega
        · rw [losses, if_neg zero]
          exact before.once
      · simp only [uncounted, uncountedOff, losses, Bool.false_eq_true, if_false,
          Option.isSome_none]
        omega

theorem replay_balanced (history : List WireStep) (queue : WireQueue)
    (run : replay history = some queue) : queue.Balanced (lost history) := by
  induction history generalizing queue with
  | nil =>
      cases run
      exact ⟨Nat.zero_le _, Nat.zero_le _, rfl⟩
  | cons step past ih =>
      obtain ⟨earlier, ran, taken⟩ := (Runs.replay_cons act init step past queue).mp run
      have before : replay past = some earlier := ran
      rw [lost, before]
      exact acted_balanced earlier queue step _ (act_acted earlier queue step taken)
        (ih earlier ran)

theorem lost_eq_zero_iff (history : List WireStep) : lost history = 0 ↔ Counted history := by
  induction history with
  | nil => exact iff_of_true rfl trivial
  | cons step past ih =>
      rw [lost, Nat.add_eq_zero_iff, ih]
      refine and_congr_right fun _ => ?_
      change _ ↔ ∀ queue, replay past = some queue → queue.Counts step
      cases ran : replay past with
      | none => simp
      | some queue => cases step <;> simp [losses, Counts]

/-- Between frames the counter is the channel's length if and only if no frame has
been counted off at zero since the start. -/
theorem wireDepth_counts_iff (history : List WireStep) (queue : WireQueue)
    (run : replay history = some queue) (between : queue.BetweenFrames) :
    queue.wireDepth.toNat = queue.channel.length ∧ queue.wireDepth.toNat ≤ videoWireQ ↔
      Counted history := by
  have balanced := replay_balanced history queue run
  have room := balanced.room
  have depth := balanced.depth
  simp only [uncounted, uncountedOff, between.1, between.2, Bool.false_eq_true, if_false,
    Option.isSome_none, Nat.add_zero] at depth
  rw [← lost_eq_zero_iff]
  omega

def picture : AssembledFrame where
  header := ⟨protocolVersion, .video, 0, 0, 32⟩
  video := some ⟨.vmx1, 0, 0, 0, 0, 0, .none, .undefined⟩
  audio := none
  data := []
  metadata := []

def steadyRun : List WireStep :=
  [.countOff, .receive, .count, .dispatch picture false .ok .ok, .count,
    .dispatch picture false .ok .ok]

def overtakenRun : List WireStep :=
  [.count, .countOff, .receive, .dispatch picture false .ok .ok]

theorem wireDepth_counts_iff_steady :
    ∃ queue, replay steadyRun = some queue ∧
      (queue.wireDepth.toNat = queue.channel.length ∧ queue.wireDepth.toNat ≤ videoWireQ ↔
        Counted steadyRun) :=
  ⟨_, rfl, wireDepth_counts_iff steadyRun _ rfl ⟨rfl, rfl⟩⟩

/-- Neither thread is at work and the channel is empty, but the counter says one. -/
theorem wireDepth_drifts :
    ∃ queue, replay overtakenRun = some queue ∧ queue.BetweenFrames ∧ queue.channel = [] ∧
      queue.wireDepth = 1 :=
  ⟨_, rfl, ⟨rfl, rfl⟩, rfl, rfl⟩

end WireQueue

end OpenMediaTransport
