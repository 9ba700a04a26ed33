import OpenMediaTransport.EncodedCapture

/-!
The decode thread publishes while a consumer turns the capture on and off. `publish` looks
at the flag and stores its frame later; `set_encoded_capture` writes the flag and, turning
off, empties the slot later. Between the two steps of either the other thread may go on.
-/

namespace OpenMediaTransport.CaptureToggle

open EncodedCapture (blankWire)

/-- A `publish` that has found the capture on. `began` counts the turn-ons before its look. -/
structure Publishing where
  frame : WireVideo
  began : Nat

/-- A frame that `try_recv_vmx1` has returned: when its `publish` began, and the flag and the
number of turn-ons when it was returned. -/
structure Receipt where
  frame : CompressedVideoFrame
  began : Nat
  on : Bool
  turnOns : Nat

/-- `emptying` holds from the write of a turn-off to its return; `waitingBegan` belongs to
the frame in the slot. -/
structure Threads where
  encoded : EncodedCapture
  publishing : Option Publishing
  emptying : Bool
  turnOns : Nat
  waitingBegan : Nat
  received : List Receipt

def begin : Threads :=
  { encoded := EncodedCapture.default, publishing := none, emptying := false, turnOns := 0
    waitingBegan := 0, received := [] }

inductive Step where
  | look (frame : WireVideo)
  | store
  | write (on : Bool)
  | empty
  | receive

def Threads.act (threads : Threads) : Step → Option Threads
  | .look frame =>
      if threads.publishing.isSome then none
      else if threads.encoded.capture then
        some { threads with publishing := some { frame, began := threads.turnOns } }
      else some threads
  | .store =>
      threads.publishing.map fun publishing =>
        { threads with
          encoded := threads.encoded.store publishing.frame
          publishing := none
          waitingBegan := publishing.began }
  | .write on =>
      if threads.emptying then none
      else some { threads with
        encoded := { threads.encoded with capture := on }
        emptying := !on
        turnOns := if on && !threads.encoded.capture then threads.turnOns + 1 else threads.turnOns }
  | .empty =>
      if threads.emptying then
        some { threads with encoded := threads.encoded.take.2, emptying := false }
      else none
  | .receive =>
      if threads.emptying then none
      else
        let (frame, encoded) := threads.encoded.take
        some { threads with
          encoded
          received := threads.received ++ frame.toList.map fun frame =>
            { frame, began := threads.waitingBegan, on := threads.encoded.capture
              turnOns := threads.turnOns } }

/-- No frame comes out while the capture is off, nor one from before the latest turn-on. -/
def Receipt.Fresh (receipt : Receipt) : Prop :=
  receipt.on = true ∧ receipt.began = receipt.turnOns

instance (receipt : Receipt) : Decidable receipt.Fresh := by
  unfold Receipt.Fresh
  infer_instance

/-- Where a turn-off empties the slot, no `publish` is between its look and its store. -/
def Quiet (threads : Threads) (step : Step) : Prop :=
  match step with
  | .empty => threads.publishing.isNone
  | _ => True

instance (threads : Threads) (step : Step) : Decidable (Quiet threads step) := by
  unfold Quiet
  cases step <;> infer_instance

/-- While off nothing waits and nothing is on its way; while on all there is is of this turn. -/
structure Current (threads : Threads) : Prop where
  off : threads.encoded.capture = false → threads.emptying = false →
    threads.encoded.slot = none ∧ threads.publishing = none
  emptying : threads.emptying = true → threads.encoded.capture = false
  publishing : threads.encoded.capture = true →
    ∀ publishing ∈ threads.publishing, publishing.began = threads.turnOns
  waiting : threads.encoded.capture = true → threads.encoded.slot.isSome →
    threads.waitingBegan = threads.turnOns
  received : ∀ receipt ∈ threads.received, receipt.Fresh

theorem look_current (before after : Threads) (frame : WireVideo) (current : Current before)
    (acted : before.act (.look frame) = some after) : Current after := by
  simp only [Threads.act] at acted
  split at acted
  · cases acted
  · split at acted
    · rename_i on
      cases acted
      refine ⟨fun off => ?_, current.emptying, fun _ publishing found => ?_, current.waiting,
        current.received⟩
      · rw [on] at off
        cases off
      · cases Option.mem_some.mp found
        rfl
    · cases acted
      exact current

theorem store_current (before after : Threads) (current : Current before)
    (acted : before.act .store = some after) : Current after := by
  obtain ⟨publishing, found, made⟩ := Option.map_eq_some_iff.mp acted
  subst made
  refine ⟨fun off idle => ?_, current.emptying, nofun, fun on _ => ?_, current.received⟩
  · have none := (current.off off idle).2
    rw [found] at none
    cases none
  · exact current.publishing on publishing found

theorem write_current (before after : Threads) (on : Bool) (current : Current before)
    (acted : before.act (.write on) = some after) : Current after := by
  simp only [Threads.act] at acted
  split at acted
  · cases acted
  · rename_i idle
    cases acted
    cases on with
    | false => exact ⟨nofun, fun _ => rfl, nofun, nofun, current.received⟩
    | true =>
        cases was : before.encoded.capture with
        | true =>
            refine ⟨nofun, nofun, fun _ => ?_, fun _ => ?_, current.received⟩
            · simpa [was] using current.publishing was
            · simpa [was] using current.waiting was
        | false =>
            -- the capture was off, so that nothing of an earlier turn is left
            have clear := current.off was (Bool.eq_false_iff.mpr idle)
            refine ⟨nofun, nofun, fun _ publishing found => ?_, fun _ waits => ?_,
              current.received⟩
            · rw [clear.2] at found
              cases found
            · rw [clear.1] at waits
              cases waits

theorem empty_current (before after : Threads) (current : Current before)
    (quiet : Quiet before .empty) (acted : before.act .empty = some after) : Current after := by
  simp only [Threads.act] at acted
  split at acted
  · rename_i emptying
    cases acted
    have off := current.emptying emptying
    refine ⟨fun _ _ => ⟨rfl, Option.isNone_iff_eq_none.mp quiet⟩, nofun, fun on => ?_, fun _ => nofun,
      current.received⟩
    exact absurd (on.symm.trans off) Bool.noConfusion
  · cases acted

theorem receive_current (before after : Threads) (current : Current before)
    (acted : before.act .receive = some after) : Current after := by
  simp only [Threads.act] at acted
  split at acted
  · cases acted
  · rename_i idle
    cases acted
    refine ⟨fun off _ => ⟨rfl, (current.off off (Bool.eq_false_iff.mpr idle)).2⟩, current.emptying,
      current.publishing, fun _ => nofun, fun receipt member => ?_⟩
    rcases List.mem_append.mp member with earlier | new
    · exact current.received receipt earlier
    · obtain ⟨frame, found, made⟩ := List.mem_map.mp new
      subst made
      have waits : before.encoded.slot = some frame := by
        simpa [EncodedCapture.take] using found
      cases on : before.encoded.capture with
      | true => exact ⟨rfl, current.waiting on (by rw [waits]; rfl)⟩
      | false =>
          have none := (current.off on (Bool.eq_false_iff.mpr idle)).1
          rw [waits] at none
          cases none

theorem current_kept : Runs.Invariant Threads.act begin Quiet Current where
  start := ⟨fun _ _ => ⟨rfl, rfl⟩, nofun, nofun, nofun, nofun⟩
  step before after step current quiet acted := by
    cases step with
    | look frame => exact look_current before after frame current acted
    | store => exact store_current before after current acted
    | write on => exact write_current before after on current acted
    | empty => exact empty_current before after current quiet acted
    | receive => exact receive_current before after current acted

/-- As long as no turn-off overtakes a `publish`, what comes out is fresh. -/
theorem capture_off_keeps_nothing (history : List Step) (threads : Threads)
    (quiet : Runs.Throughout Threads.act begin Quiet history)
    (ran : Runs.replay Threads.act begin history = some threads) :
    ∀ receipt ∈ threads.received, receipt.Fresh :=
  (Runs.Invariant.run Threads.act begin current_kept history threads quiet ran).received

/-- The other way round: a `publish` that a turn-off overtakes can be stored and taken while
the capture is off. -/
theorem overtaken_leaks (threads : Threads) (publishing : Publishing)
    (emptying : threads.emptying = true) (off : threads.encoded.capture = false)
    (overtaken : threads.publishing = some publishing) :
    ∃ after, Runs.replay Threads.act threads [.receive, .store, .empty] = some after ∧
      ∃ receipt ∈ after.received, receipt.on = false := by
  cases threads with
  | mk encoded inFlight busy turnOns waitingBegan received =>
      cases emptying
      cases overtaken
      refine ⟨_, rfl, _, List.mem_append_right received (List.mem_singleton_self _), off⟩

/-- A frame in each of two turns; the turn-off between them waits for the first `publish`. -/
theorem capture_off_keeps_nothing_twice :
    ∃ threads, Runs.replay Threads.act begin
        [.receive, .store, .look blankWire, .write true, .receive, .empty, .store, .write false,
          .look blankWire, .write true] = some threads ∧
      threads.received.length = 1 ∧ ∀ receipt ∈ threads.received, receipt.Fresh :=
  ⟨_, rfl, rfl, capture_off_keeps_nothing
    [.receive, .store, .look blankWire, .write true, .receive, .empty, .store, .write false,
      .look blankWire, .write true] _ (by decide) rfl⟩

/-- The first run takes a frame after the turn-off has returned. In the second one the first
frame after the next turn-on was published before the turn-off. -/
theorem capture_off_leaks :
    (∃ threads, Runs.replay Threads.act begin
        [.receive, .store, .empty, .write false, .look blankWire, .write true] = some threads ∧
      ∃ receipt ∈ threads.received, receipt.on = false) ∧
    ∃ threads, Runs.replay Threads.act begin
        [.receive, .write true, .store, .empty, .write false, .look blankWire, .write true] =
          some threads ∧
      ∃ receipt ∈ threads.received, receipt.on = true ∧ receipt.began < receipt.turnOns :=
  ⟨⟨_, rfl, _, List.mem_cons_self, rfl⟩, ⟨_, rfl, _, List.mem_cons_self, rfl, by decide⟩⟩

end OpenMediaTransport.CaptureToggle
