import OpenMediaTransport.FrameDispatch
import OpenMediaTransport.Ledger
import OpenMediaTransport.Runs

/-!
`EncodedCapture` of `receive.rs`: the latest wire frame for a consumer that stores the
bitstream. Its counters are of 64 bits and wrap.
-/

namespace OpenMediaTransport

structure CompressedVideoFrame where
  pts100ns : Int64
  width : UInt32
  height : UInt32
  fpsNum : UInt32
  fpsDen : UInt32
  colorSpace : ColorSpace
  preview : Bool
  sequence : UInt64
  payload : List UInt8

structure EncodedCapture where
  slot : Option CompressedVideoFrame
  capture : Bool
  sequence : UInt64
  dropped : UInt64

namespace EncodedCapture

def default : EncodedCapture := { slot := none, capture := false, sequence := 0, dropped := 0 }

/-- `.max(0) as u32`. -/
def unsigned (value : Int32) : UInt32 := UInt32.ofNat value.toInt.toNat

def captured (frame : WireVideo) (sequence : UInt64) : CompressedVideoFrame :=
  { pts100ns := frame.timestamp
    width := unsigned frame.width
    height := unsigned frame.height
    fpsNum := unsigned frame.frameRateN
    fpsDen := unsigned frame.frameRateD
    colorSpace := frame.colorSpace
    preview := frame.preview
    sequence
    payload := frame.payload }

/-- `publish` behind its look at the flag. -/
def store (encoded : EncodedCapture) (frame : WireVideo) : EncodedCapture :=
  { encoded with
    slot := some (captured frame (encoded.sequence + 1))
    sequence := encoded.sequence + 1
    dropped := if encoded.slot.isSome then encoded.dropped + 1 else encoded.dropped }

def publish (encoded : EncodedCapture) (frame : WireVideo) : EncodedCapture :=
  if encoded.capture then encoded.store frame else encoded

def take (encoded : EncodedCapture) : Option CompressedVideoFrame × EncodedCapture :=
  (encoded.slot, { encoded with slot := none })

def setEncodedCapture (encoded : EncodedCapture) (on : Bool) : EncodedCapture :=
  let flagged := { encoded with capture := on }
  if on then flagged else flagged.take.2

/-! Operations that do not overlap. -/
section Atomic

inductive Step where
  | publish (frame : WireVideo)
  | take
  | setEncodedCapture (on : Bool)

structure Capturing where
  encoded : EncodedCapture
  entered : List CompressedVideoFrame
  taken : List CompressedVideoFrame
  discarded : List CompressedVideoFrame

def begin : Capturing :=
  { encoded := default, entered := [], taken := [], discarded := [] }

def Capturing.act (capturing : Capturing) : Step → Option Capturing
  | .publish frame =>
      let encoded := capturing.encoded.publish frame
      some { capturing with
        encoded
        entered := capturing.entered ++
          if capturing.encoded.capture then encoded.slot.toList else [] }
  | .take =>
      let (frame, encoded) := capturing.encoded.take
      some { capturing with encoded, taken := capturing.taken ++ frame.toList }
  | .setEncodedCapture on =>
      some { capturing with
        encoded := capturing.encoded.setEncodedCapture on
        discarded := capturing.discarded ++
          if on then [] else capturing.encoded.slot.toList }

inductive Fate where
  | taken
  | replaced
  | discarded
  deriving DecidableEq

/-- The frames are numbered as they come, and the slot is the store of the books. -/
structure Accounted (capturing : Capturing) : Prop where
  sequence : capturing.encoded.sequence = UInt64.ofNat capturing.entered.length
  numbers : capturing.entered.map CompressedVideoFrame.sequence =
    (List.range capturing.entered.length).map fun index => UInt64.ofNat (index + 1)
  books : ∃ ledger : Ledger CompressedVideoFrame Fate, ledger.entered = capturing.entered ∧
    ledger.held = capturing.encoded.slot.toList ∧ ledger.gone .taken = capturing.taken ∧
    ledger.gone .discarded = capturing.discarded ∧
    capturing.encoded.dropped = UInt64.ofNat (ledger.gone .replaced).length

theorem publish_accounted (before : Capturing) (frame : WireVideo) (accounted : Accounted before) :
    ∀ after, before.act (.publish frame) = some after → Accounted after := by
  intro after published
  cases published
  cases on : before.encoded.capture with
  | false => simpa [publish, on] using accounted
  | true =>
      obtain ⟨ledger, entered, held, taken, discarded, dropped⟩ := accounted.books
      have next : before.encoded.sequence + 1 = UInt64.ofNat (before.entered.length + 1) := by
        rw [accounted.sequence, UInt64.ofNat_add]
        rfl
      simp only [publish, on, if_true, store, Option.toList_some]
      refine ⟨?_, ?_, ?_⟩
      · simpa using next
      · simp [accounted.numbers, List.range_succ, captured, next]
      · cases top : before.encoded.slot with
        | none =>
            refine ⟨ledger.enter (captured frame (before.encoded.sequence + 1)), ?_, ?_, taken,
              discarded, ?_⟩
            · simp [Ledger.enter, entered]
            · simp [Ledger.enter, held, top]
            · rw [Ledger.gone_enter]
              exact dropped
        | some waiting =>
            refine ⟨(ledger.leave .replaced).enter (captured frame (before.encoded.sequence + 1)),
              ?_, ?_, ?_, ?_, ?_⟩
            · simp [Ledger.enter, Ledger.leave, entered]
            · simp [Ledger.enter, Ledger.leave, held, top]
            · simp [Ledger.gone_enter, Ledger.gone_leave, taken]
            · simp [Ledger.gone_enter, Ledger.gone_leave, discarded]
            · simp [Ledger.gone_enter, Ledger.gone_leave, held, top, dropped]

theorem take_accounted (before : Capturing) (accounted : Accounted before) :
    ∀ after, before.act .take = some after → Accounted after := by
  intro after took
  cases took
  obtain ⟨ledger, entered, held, taken, discarded, dropped⟩ := accounted.books
  refine ⟨accounted.sequence, accounted.numbers, ledger.leave .taken, entered, ?_, ?_, ?_, ?_⟩
  · cases top : before.encoded.slot <;> simp [Ledger.leave, held, top]
  · cases top : before.encoded.slot <;> simp [Ledger.gone_leave, held, taken, top]
  · simp [Ledger.gone_leave, discarded]
  · simp [Ledger.gone_leave, dropped]

theorem set_accounted (before : Capturing) (on : Bool) (accounted : Accounted before) :
    ∀ after, before.act (.setEncodedCapture on) = some after → Accounted after := by
  intro after set
  cases set
  obtain ⟨ledger, entered, held, taken, discarded, dropped⟩ := accounted.books
  cases on with
  | true =>
      exact ⟨accounted.sequence, accounted.numbers, ledger, entered, held, taken,
        by simpa using discarded, dropped⟩
  | false =>
      refine ⟨accounted.sequence, accounted.numbers, ledger.leave .discarded, entered,
        ?_, ?_, ?_, ?_⟩
      · cases top : before.encoded.slot <;>
          simp [Ledger.leave, held, top, setEncodedCapture, take]
      · simp [Ledger.gone_leave, taken]
      · cases top : before.encoded.slot <;> simp [Ledger.gone_leave, held, discarded, top]
      · simp [Ledger.gone_leave, dropped, setEncodedCapture, take]

theorem accounted_kept :
    Runs.Invariant Capturing.act begin (fun _ _ => True) Accounted where
  start := ⟨rfl, rfl, Ledger.start, rfl, rfl, rfl, rfl, rfl⟩
  step before after step accounted _ acted := by
    cases step with
    | publish frame => exact publish_accounted before frame accounted after acted
    | take => exact take_accounted before accounted after acted
    | setEncodedCapture on => exact set_accounted before on accounted after acted

theorem Accounted.reached (history : List Step) (capturing : Capturing)
    (ran : Runs.replay Capturing.act begin history = some capturing) : Accounted capturing :=
  Runs.Invariant.run Capturing.act begin accounted_kept history capturing
    (Runs.throughout_true Capturing.act begin history) ran

theorem Accounted.balance {capturing : Capturing} (accounted : Accounted capturing) :
    ∃ replaced, capturing.encoded.dropped = UInt64.ofNat replaced ∧
      capturing.entered.length = capturing.taken.length + replaced +
        capturing.discarded.length + capturing.encoded.slot.toList.length := by
  obtain ⟨ledger, entered, held, taken, discarded, dropped⟩ := accounted.books
  have counted := ledger.entered_length [.taken, .replaced, .discarded] (by decide)
    (fun fate => by cases fate <;> decide)
  rw [entered, held] at counted
  refine ⟨(ledger.gone .replaced).length, dropped, ?_⟩
  simp only [List.map_cons, List.map_nil, List.sum_cons, List.sum_nil, taken, discarded] at counted
  omega

theorem Accounted.waiting {capturing : Capturing} (accounted : Accounted capturing)
    (frame : CompressedVideoFrame) (waits : capturing.encoded.slot = some frame) :
    frame.sequence = UInt64.ofNat capturing.entered.length := by
  obtain ⟨ledger, entered, held, -⟩ := accounted.books
  have split : capturing.entered = ledger.left.map Prod.fst ++ [frame] := by
    rw [← entered, ledger.balanced, held, waits, Option.toList_some]
  have numbers := accounted.numbers
  rw [split, List.length_append, List.length_singleton, List.range_succ, List.map_append,
    List.map_append] at numbers
  have last := (List.append_inj_right' numbers rfl)
  rw [split, List.length_append, List.length_singleton]
  simpa using last

theorem number_exact (number : Nat) (fits : number < 2 ^ 64) :
    (UInt64.ofNat number).toNat = number :=
  UInt64.toNat_ofNat_of_lt' fits

theorem Accounted.increasing {capturing : Capturing} (accounted : Accounted capturing)
    (few : capturing.entered.length < 2 ^ 64) :
    (capturing.taken.map CompressedVideoFrame.sequence).Pairwise (· < ·) := by
  obtain ⟨ledger, entered, -, taken, -⟩ := accounted.books
  have all : (capturing.entered.map CompressedVideoFrame.sequence).Pairwise (· < ·) := by
    rw [accounted.numbers, List.pairwise_map]
    refine List.pairwise_lt_range.imp_of_mem fun {first second} _ member below => ?_
    have bound := List.mem_range.mp member
    rw [UInt64.lt_iff_toNat_lt, number_exact _ (by omega),
      number_exact _ (by omega)]
    omega
  rw [← taken]
  rw [← entered] at all
  exact all.sublist ((ledger.gone_sublist .taken).map CompressedVideoFrame.sequence)

theorem discarded_kept (middle : List Step) (before after : Capturing)
    (ran : Runs.replay Capturing.act before middle = some after)
    (on : ∀ step ∈ middle, step ≠ .setEncodedCapture false) :
    after.discarded = before.discarded := by
  induction middle generalizing after with
  | nil =>
      cases ran
      rfl
  | cons step past ih =>
      obtain ⟨between, earlier, acted⟩ :=
        (Runs.replay_cons Capturing.act before step past after).mp ran
      have kept := ih between earlier fun other member => on other (List.mem_cons_of_mem step member)
      rw [← kept]
      cases step with
      | publish frame =>
          cases acted
          rfl
      | take =>
          cases acted
          rfl
      | setEncodedCapture flag =>
          cases flag with
          | false => exact absurd rfl (on _ List.mem_cons_self)
          | true =>
              cases acted
              exact List.append_nil _

theorem waiting_captured (middle : List Step) (before after : Capturing)
    (ran : Runs.replay Capturing.act before middle = some after)
    (empty : before.encoded.slot = none) :
    before.entered.length + after.encoded.slot.toList.length ≤ after.entered.length := by
  induction middle generalizing after with
  | nil =>
      cases ran
      simp [empty]
  | cons step past ih =>
      obtain ⟨between, earlier, acted⟩ :=
        (Runs.replay_cons Capturing.act before step past after).mp ran
      have kept := ih between earlier
      cases step with
      | publish frame =>
          cases acted
          cases on : between.encoded.capture with
          | false => simpa [publish, on] using kept
          | true =>
              simp only [publish, on, if_true, store, Option.toList_some, List.length_append,
                List.length_singleton]
              omega
      | take =>
          cases acted
          simp only [Option.toList_none, List.length_nil]
          omega
      | setEncodedCapture on =>
          cases acted
          cases on with
          | true => exact kept
          | false =>
              simp only [setEncodedCapture, Bool.false_eq_true, if_false, take, Option.toList_none,
                List.length_nil]
              omega

/-- Between two frames taken one after the other stand the frames replaced since. -/
theorem gap_counted (history middle : List Step) (capturing after later : Capturing)
    (ran : Runs.replay Capturing.act begin history = some capturing)
    (first second : CompressedVideoFrame) (took : capturing.act .take = some after)
    (went : Runs.replay Capturing.act after middle = some later)
    (on : ∀ step ∈ middle, step ≠ .setEncodedCapture false) (consecutive : later.taken = after.taken)
    (waits : capturing.encoded.slot = some first) (waiting : later.encoded.slot = some second) :
    ∃ replacedBefore replacedAfter,
      after.encoded.dropped = UInt64.ofNat replacedBefore ∧
      later.encoded.dropped = UInt64.ofNat replacedAfter ∧
      first.sequence = UInt64.ofNat capturing.entered.length ∧
      second.sequence = UInt64.ofNat later.entered.length ∧
      replacedBefore ≤ capturing.entered.length ∧ replacedAfter < later.entered.length ∧
      capturing.entered.length < later.entered.length ∧
      later.entered.length + replacedBefore = capturing.entered.length + replacedAfter + 1 := by
  have accounted := Accounted.reached history capturing ran
  have afterRan : Runs.replay Capturing.act begin (.take :: history) = some after :=
    (Runs.replay_cons Capturing.act begin .take history after).mpr ⟨capturing, ran, took⟩
  have afterAccounted := Accounted.reached _ after afterRan
  have laterAccounted := Accounted.reached _ later
    (Runs.replay_append Capturing.act begin (.take :: history) middle after later afterRan went)
  have kept := discarded_kept middle after later went on
  obtain ⟨replacedBefore, droppedBefore, balanceBefore⟩ := afterAccounted.balance
  obtain ⟨replacedAfter, droppedAfter, balanceAfter⟩ := laterAccounted.balance
  have emptied : after.encoded.slot = none ∧ after.entered = capturing.entered := by
    cases took
    exact ⟨rfl, rfl⟩
  have fresh := waiting_captured middle after later went emptied.1
  rw [emptied.1, emptied.2] at balanceBefore
  rw [emptied.2, waiting, Option.toList_some, List.length_singleton] at fresh
  -- Nothing was taken or discarded in between, so the balances differ by what was replaced.
  rw [waiting, consecutive, kept] at balanceAfter
  simp only [Option.toList_none, Option.toList_some, List.length_nil, List.length_singleton]
    at balanceBefore balanceAfter
  refine ⟨replacedBefore, replacedAfter, droppedBefore, droppedAfter,
    accounted.waiting first waits, laterAccounted.waiting second waiting, ?_, ?_, ?_, ?_⟩ <;> omega

/-- In arithmetic of 64 bits the counters explain every frame and every gap; below
`2 ^ 64` frames they do so as natural numbers, and the numbers of taken frames increase. -/
theorem capture_gaps_explained (history : List Step) (capturing : Capturing)
    (ran : Runs.replay Capturing.act begin history = some capturing) :
    capturing.encoded.sequence = UInt64.ofNat capturing.taken.length + capturing.encoded.dropped +
      UInt64.ofNat capturing.discarded.length +
        UInt64.ofNat capturing.encoded.slot.toList.length ∧
    (capturing.entered.length < 2 ^ 64 →
      (capturing.taken.map CompressedVideoFrame.sequence).Pairwise (· < ·) ∧
      capturing.encoded.sequence.toNat = capturing.taken.length +
        capturing.encoded.dropped.toNat + capturing.discarded.length +
          capturing.encoded.slot.toList.length) ∧
    (∀ first after middle later second, capturing.encoded.slot = some first →
      capturing.act .take = some after → Runs.replay Capturing.act after middle = some later →
      (∀ step ∈ middle, step ≠ .setEncodedCapture false) → later.taken = after.taken →
      later.encoded.slot = some second →
      later.encoded.dropped - after.encoded.dropped = second.sequence - first.sequence - 1 ∧
      (later.entered.length < 2 ^ 64 →
        second.sequence.toNat = first.sequence.toNat +
          (later.encoded.dropped.toNat - after.encoded.dropped.toNat) + 1)) := by
  have accounted := Accounted.reached history capturing ran
  obtain ⟨replaced, dropped, balance⟩ := accounted.balance
  refine ⟨?_, fun few => ⟨accounted.increasing few, ?_⟩, ?_⟩
  · rw [accounted.sequence, dropped, balance]
    simp only [UInt64.ofNat_add]
  · rw [accounted.sequence, dropped, number_exact _ (by omega),
      number_exact _ (by omega)]
    exact balance
  · intro first after middle later second waits took went on consecutive waiting
    obtain ⟨replacedBefore, replacedAfter, droppedBefore, droppedAfter, firstNumber, secondNumber,
      within, below, grown, counted⟩ := gap_counted history middle capturing after later ran first
        second took went on consecutive waits waiting
    rw [firstNumber, secondNumber, droppedBefore, droppedAfter]
    refine ⟨?_, fun few => ?_⟩
    · have even : UInt64.ofNat later.entered.length + UInt64.ofNat replacedBefore =
          UInt64.ofNat capturing.entered.length + UInt64.ofNat replacedAfter + 1 := by
        have numbers := congrArg UInt64.ofNat counted
        rw [UInt64.ofNat_add, UInt64.ofNat_add, UInt64.ofNat_add] at numbers
        exact numbers
      grind
    · rw [number_exact _ (by omega), number_exact _ (by omega), number_exact _ (by omega),
        number_exact _ (by omega)]
      omega

def blankWire : WireVideo :=
  { timestamp := 0, width := 0, height := 0, frameRateN := 60, frameRateD := 1
    colorSpace := .undefined, preview := false, payload := [], metadata := none }

theorem capture_gaps_explained_three :
    ∃ capturing : Capturing,
      Runs.replay Capturing.act begin [.publish blankWire, .setEncodedCapture true] =
        some capturing ∧
      capturing.encoded.sequence = UInt64.ofNat capturing.taken.length +
        capturing.encoded.dropped + UInt64.ofNat capturing.discarded.length +
          UInt64.ofNat capturing.encoded.slot.toList.length ∧
      ∀ after later first second, capturing.encoded.slot = some first →
        capturing.act .take = some after →
        Runs.replay Capturing.act after [.publish blankWire, .publish blankWire] = some later →
        later.taken = after.taken → later.encoded.slot = some second →
        later.encoded.dropped - after.encoded.dropped =
          second.sequence - first.sequence - 1 := by
  refine ⟨_, rfl, ?_⟩
  obtain ⟨balance, -, gap⟩ :=
    capture_gaps_explained [.publish blankWire, .setEncodedCapture true] _ rfl
  refine ⟨balance, fun after later first second waits took went consecutive waiting => ?_⟩
  exact (gap first after _ later second waits took went
    (fun step member => by
      rcases List.mem_cons.mp member with rfl | member
      · nofun
      · rcases List.mem_singleton.mp member with rfl
        nofun) consecutive waiting).1

theorem publishes_counted (frame : WireVideo) (count : Nat) :
    ∃ capturing, Runs.replay Capturing.act begin
        (List.replicate count (.publish frame) ++ [.setEncodedCapture true]) = some capturing ∧
      capturing.encoded.capture = true ∧ capturing.encoded.sequence = UInt64.ofNat count ∧
      capturing.taken = [] := by
  induction count with
  | zero => exact ⟨_, rfl, rfl, rfl, rfl⟩
  | succ count ih =>
      obtain ⟨before, ran, on, sequence, taken⟩ := ih
      rw [List.replicate_succ, List.cons_append]
      refine ⟨_, (Runs.replay_cons Capturing.act begin _ _ _).mpr ⟨before, ran, rfl⟩, ?_⟩
      simp only [publish, on, if_true, store, sequence, taken]
      exact ⟨trivial, (UInt64.ofNat_add count 1).symm, trivial⟩

/-- The frame behind number `2 ^ 64 - 1` has number 0. -/
theorem capture_numbers_wrap :
    ¬∀ (history : List Step) (capturing : Capturing),
      Runs.replay Capturing.act begin history = some capturing →
      (capturing.taken.map CompressedVideoFrame.sequence).Pairwise (· < ·) := by
  intro always
  obtain ⟨capturing, ran, on, sequence, taken⟩ := publishes_counted blankWire (2 ^ 64 - 2)
  obtain ⟨last, went⟩ : ∃ last, Runs.replay Capturing.act capturing
      [.take, .publish blankWire, .take, .publish blankWire] = some last := ⟨_, rfl⟩
  have claimed := always _ last (Runs.replay_append Capturing.act begin _ _ capturing last ran went)
  have wrapped : last.taken.map CompressedVideoFrame.sequence = [UInt64.ofNat (2 ^ 64 - 1), 0] := by
    cases went
    simp [publish, on, store, sequence, taken, captured]
  rw [wrapped] at claimed
  exact absurd claimed (by decide)
end Atomic

end EncodedCapture

end OpenMediaTransport
