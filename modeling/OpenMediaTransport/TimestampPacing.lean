import OpenMediaTransport.Runs
import OpenMediaTransport.TimestampClock

/-!
The frames that ask for a timestamp. What the wall clock shows enters as the list of the
instants that are read, each reading taking the next one; sleeping only lets time pass. A
call whose wait outlasts the list has not returned.
-/

namespace OpenMediaTransport.TimestampClock

def saturatingAdd (left right : Int64) : Int64 :=
  let sum := left.toInt + right.toInt
  if sum < Int64.minValue.toInt then Int64.minValue
  else if Int64.maxValue.toInt < sum then Int64.maxValue
  else left + right

/-- Time since the start in ticks; instants are in nanoseconds. -/
def wallTicks (start now : Nat) : Int64 :=
  let elapsed := now - start
  saturatingAdd (saturatingMul (Int64.ofNat (elapsed / 1000000000)) ticksPerSecond)
    (Int64.ofNat (elapsed % 1000000000) * ticksPerSecond / 1000000000)

theorem saturatingAdd_exact (left right : Int64) (low : -2 ^ 63 ≤ left.toInt + right.toInt)
    (high : left.toInt + right.toInt < 2 ^ 63) :
    (saturatingAdd left right).toInt = left.toInt + right.toInt := by
  have above : ¬left.toInt + right.toInt < Int64.minValue.toInt := by
    rw [Int64.toInt_minValue]
    omega
  have below : ¬Int64.maxValue.toInt < left.toInt + right.toInt := by
    rw [Int64.toInt_maxValue]
    omega
  rw [saturatingAdd, if_neg above, if_neg below, Int64.toInt_add]
  exact Int.bmod_eq_of_le low high

theorem saturatingMul_exact (left right : Int64) (low : -2 ^ 63 ≤ left.toInt * right.toInt)
    (high : left.toInt * right.toInt < 2 ^ 63) :
    (saturatingMul left right).toInt = left.toInt * right.toInt := by
  have above : ¬left.toInt * right.toInt < Int64.minValue.toInt := by
    rw [Int64.toInt_minValue]
    omega
  have below : ¬Int64.maxValue.toInt < left.toInt * right.toInt := by
    rw [Int64.toInt_maxValue]
    omega
  rw [saturatingMul, if_neg above, if_neg below, Int64.toInt_mul]
  exact Int.bmod_eq_of_le low high

theorem toInt_sub_exact (left right : Int64) (low : -2 ^ 63 ≤ left.toInt - right.toInt)
    (high : left.toInt - right.toInt < 2 ^ 63) :
    (left - right).toInt = left.toInt - right.toInt := by
  rw [Int64.toInt_sub]
  exact Int.bmod_eq_of_le low high

theorem toInt_add_exact (left right : Int64) (low : -2 ^ 63 ≤ left.toInt + right.toInt)
    (high : left.toInt + right.toInt < 2 ^ 63) :
    (left + right).toInt = left.toInt + right.toInt := by
  rw [Int64.toInt_add]
  exact Int.bmod_eq_of_le low high

theorem wallTicks_exact (start now : Nat) (fits : (now - start) / 100 < 2 ^ 63) :
    (wallTicks start now).toInt = ((now - start) / 100 : Nat) := by
  have ticks : ticksPerSecond.toInt = 10000000 := by decide
  have seconds : (Int64.ofNat ((now - start) / 1000000000)).toInt =
      ((now - start) / 1000000000 : Nat) := Int64.toInt_ofNat_of_lt (by omega)
  have nanos : (Int64.ofNat ((now - start) % 1000000000)).toInt =
      ((now - start) % 1000000000 : Nat) := Int64.toInt_ofNat_of_lt (by omega)
  have whole := saturatingMul_exact (Int64.ofNat ((now - start) / 1000000000)) ticksPerSecond
    (by rw [seconds, ticks]; omega) (by rw [seconds, ticks]; omega)
  have scaled : (Int64.ofNat ((now - start) % 1000000000) * ticksPerSecond).toInt =
      ((now - start) % 1000000000 : Nat) * 10000000 := by
    rw [Int64.toInt_mul, nanos, ticks]
    exact Int.bmod_eq_of_le (by omega) (by omega)
  have fraction : (Int64.ofNat ((now - start) % 1000000000) * ticksPerSecond /
      1000000000).toInt = ((now - start) % 1000000000 / 100 : Nat) := by
    rw [Int64.toInt_div_of_ne_right _ _ (by decide), scaled]
    have billion : (1000000000 : Int64).toInt = 1000000000 := by decide
    rw [billion, Int.tdiv_eq_ediv_of_nonneg (by omega)]
    omega
  rw [wallTicks, saturatingAdd_exact _ _ (by rw [whole, fraction, seconds, ticks]; omega)
    (by rw [whole, fraction, seconds, ticks]; omega), whole, fraction, seconds, ticks]
  omega

/-- A round of the loop that skips brings the difference nearer to zero. -/
theorem round_shrinks (interval : Int64) (positive : 0 < interval) (diff : Int64)
    (behind : diff < -interval) :
    (diff + interval).toInt = diff.toInt + interval.toInt ∧
      diff.toInt + interval.toInt < 0 ∧ 0 < interval.toInt := by
  have above : 0 < interval.toInt := Int64.lt_iff_toInt_lt.mp positive
  have negated : (-interval).toInt = -interval.toInt := by
    rw [Int64.toInt_neg]
    have bound := interval.toInt_lt
    exact Int.bmod_eq_of_le (by omega) (by omega)
  have apart := Int64.lt_iff_toInt_lt.mp behind
  rw [negated] at apart
  have bound := diff.le_toInt
  exact ⟨toInt_add_exact diff interval (by omega) (by omega), by omega, above⟩

/-- The loop that skips intervals behind the wall clock: the timestamp and `clock_ts` after it. -/
def catchUp (interval : Int64) (positive : 0 < interval) (timestamp clockTs diff : Int64) :
    Int64 × Int64 :=
  if diff < -interval then
    catchUp interval positive (saturatingAdd timestamp interval) (saturatingAdd clockTs interval)
      (diff + interval)
  else (timestamp, clockTs)
termination_by (-diff.toInt).toNat
decreasing_by
  have shrinks := round_shrinks interval positive diff ‹_›
  omega

/-- What the skipping loop reaches. The timestamp and `clock_ts` take the same steps, so that
the invariant is that the difference is `clock_ts` less the reading. -/
theorem catchUp_reaches (interval : Int64) (positive : 0 < interval)
    (timestamp clockTs diff : Int64) (wall : Int) (together : timestamp = clockTs)
    (difference : diff.toInt = clockTs.toInt - wall) (low : 0 ≤ clockTs.toInt)
    (fits : wall < 2 ^ 63) :
    ∃ (skipped : Nat) (reached : Int64),
      catchUp interval positive timestamp clockTs diff = (reached, reached) ∧
      reached.toInt = clockTs.toInt + skipped * interval.toInt ∧
      wall - interval.toInt ≤ reached.toInt ∧ (0 < skipped → reached.toInt < wall) := by
  induction timestamp, clockTs, diff using catchUp.induct interval positive with
  | case1 timestamp clockTs diff behind ih =>
      have shrinks := round_shrinks interval positive diff behind
      have stepped := saturatingAdd_exact clockTs interval (by omega) (by omega)
      obtain ⟨skipped, reached, looped, steps, near, strict⟩ :=
        ih (by rw [together]) (by rw [shrinks.1, stepped]; omega) (by omega)
      refine ⟨skipped + 1, reached, ?_, ?_, near, fun _ => ?_⟩
      · rw [catchUp, if_pos behind]
        exact looped
      · rw [steps, stepped, Int.natCast_add, Int.add_mul]
        omega
      · cases skipped with
        | zero => simp at steps; omega
        | succ more => exact strict (Nat.succ_pos more)
  | case2 timestamp clockTs diff near =>
      subst together
      refine ⟨0, timestamp, ?_, by simp, ?_, fun none => absurd none (Nat.lt_irrefl 0)⟩
      · rw [catchUp, if_neg near]
      · rw [Int64.lt_iff_toInt_lt, Int64.toInt_neg] at near
        have above : 0 < interval.toInt := Int64.lt_iff_toInt_lt.mp positive
        have bound := interval.toInt_lt
        rw [Int.bmod_eq_of_le (by omega) (by omega)] at near
        omega

/-- The loop that waits: the readings left when one of them is not behind `clock_ts`. -/
def pace (start : Nat) (clockTs : Int64) : List Nat → Option (List Nat)
  | [] => none
  | now :: rest => if wallTicks start now < clockTs then pace start clockTs rest else some rest

structure Call where
  frameRateN : Int32
  frameRateD : Int32
  sampleRate : Int32
  samplesPerChannel : Int32

def resetFor (clock : TimestampClock) (now : Nat) (call : Call) : TimestampClock :=
  clock.reset now call.frameRateN call.frameRateD call.sampleRate call.samplesPerChannel

/-- The length of an audio frame is taken anew for each frame. -/
def retimed (clock : TimestampClock) (call : Call) : TimestampClock :=
  if clock.audio && 0 < call.sampleRate && 0 < call.samplesPerChannel then
    { clock with
      frameInterval :=
        saturatingMul call.samplesPerChannel.toInt64 ticksPerSecond / call.sampleRate.toInt64 }
  else clock

/-- `self.frame_interval.max(1)`. -/
def interval (clock : TimestampClock) : Int64 :=
  if clock.frameInterval ≤ 1 then 1 else clock.frameInterval

theorem interval_positive (clock : TimestampClock) : 0 < clock.interval := by
  rw [interval]
  split
  · decide
  · rename_i above
    rw [Int64.le_iff_toInt_le, show (1 : Int64).toInt = 1 from rfl] at above
    rw [Int64.lt_iff_toInt_lt, show (0 : Int64).toInt = 0 from rfl]
    omega

/-- A clock that has a last timestamp, up to its wait: the timestamp and `clock_ts`, by the
reading that the difference is taken from. -/
def advanced (clock : TimestampClock) (last : Int64) (used : Nat) : Int64 × Int64 :=
  let clockTs := saturatingAdd clock.clockTs clock.interval
  catchUp clock.interval clock.interval_positive (saturatingAdd last clock.interval) clockTs
    (clockTs - wallTicks clock.start used)

/-- The timestamp for a frame that asks for one, the clock after it and the readings left. -/
def paced (clock : TimestampClock) (call : Call) (readings : List Nat) :
    Option (Int64 × TimestampClock × List Nat) :=
  match readings with
  | [] => none
  | now :: rest =>
      match clock.last with
      | none => some (0, { clock.resetFor now call with last := some 0 }, rest)
      | some last =>
          let clock := clock.retimed call
          let (timestamp, clockTs) := clock.advanced last now
          (pace clock.start clockTs rest).map fun left =>
            (timestamp, { clock with clockTs, last := some timestamp }, left)

theorem paced_first (clock : TimestampClock) (call : Call) (now : Nat) (rest : List Nat)
    (silent : clock.last = none) :
    clock.paced call (now :: rest) =
      some (0, { clock.resetFor now call with last := some 0 }, rest) := by
  simp only [paced, silent]

theorem paced_later (clock : TimestampClock) (call : Call) (now : Nat) (rest : List Nat)
    (last timestamp clockTs : Int64) (spoken : clock.last = some last)
    (reached : (clock.retimed call).advanced last now = (timestamp, clockTs)) :
    clock.paced call (now :: rest) =
      (pace clock.start clockTs rest).map fun left =>
        (timestamp, { clock.retimed call with clockTs, last := some timestamp }, left) := by
  have begun : (clock.retimed call).start = clock.start := by
    rw [retimed]
    split <;> rfl
  simp only [paced, spoken, reached, begun]

/-- `resolve` with all its readings. -/
def resolveReading (clock : TimestampClock) (ts : Int64) (call : Call) (readings : List Nat) :
    Option (Int64 × TimestampClock × List Nat) :=
  if clock.rateChanged call.frameRateN call.frameRateD call.sampleRate then
    match readings with
    | [] => none
    | now :: rest =>
        let clock := clock.resetFor now call
        if ts ≠ autoTimestamp then some (ts, { clock with last := some ts }, rest)
        else clock.paced call rest
  else if ts ≠ autoTimestamp then some (ts, { clock with last := some ts }, readings)
  else clock.paced call readings

/-- A clock in use: what it has yet to read and what it has returned, the latest first. -/
structure Session where
  clock : TimestampClock
  readings : List Nat
  returned : List Int64

def fresh (audio : Bool) (now : Nat) (readings : List Nat) : Session :=
  { clock := new audio now, readings, returned := [] }

def Session.ask (session : Session) (call : Call) : Option Session :=
  (session.clock.resolveReading autoTimestamp call session.readings).map
    fun (value, clock, readings) => { clock, readings, returned := value :: session.returned }

def SameRate (audio : Bool) (rate call : Call) : Prop :=
  if audio then call.sampleRate = rate.sampleRate
  else call.frameRateN = rate.frameRateN ∧ call.frameRateD = rate.frameRateD

instance (audio : Bool) (rate call : Call) : Decidable (SameRate audio rate call) := by
  unfold SameRate
  infer_instance

/-- Neither the next interval nor the next reading reaches the end of `i64`. -/
def Unsaturated (session : Session) (call : Call) : Prop :=
  session.clock.clockTs.toInt + (session.clock.retimed call).interval.toInt < 2 ^ 63 ∧
    ∀ now ∈ session.readings.head?, (now - session.clock.start) / 100 < 2 ^ 63

instance (session : Session) (call : Call) : Decidable (Unsaturated session call) := by
  unfold Unsaturated
  infer_instance

/-- The state of a clock that has returned `value` as its latest timestamp. -/
structure Settled (audio : Bool) (rate : Call) (clock : TimestampClock) (value : Int64) : Prop where
  kind : clock.audio = audio
  last : clock.last = some value
  together : value = clock.clockTs
  started : 0 ≤ clock.clockTs.toInt
  steady : ∀ call, SameRate audio rate call →
    clock.rateChanged call.frameRateN call.frameRateD call.sampleRate = false
  timed : audio = false → ∀ call, SameRate audio rate call →
    clock.frameInterval = (clock.resetFor 0 call).frameInterval

theorem pace_returns (start : Nat) (clockTs : Int64) (readings left : List Nat)
    (returned : pace start clockTs readings = some left) :
    ∃ waited final, readings = waited ++ final :: left ∧ clockTs ≤ wallTicks start final := by
  induction readings with
  | nil => cases returned
  | cons now rest ih =>
      rw [pace] at returned
      split at returned
      · obtain ⟨waited, final, split, due⟩ := ih returned
        exact ⟨now :: waited, final, by rw [split, List.cons_append], due⟩
      · rename_i due
        cases returned
        exact ⟨[], now, rfl, Int64.not_lt.mp due⟩

theorem reset_settled (clock : TimestampClock) (now : Nat) (rate call : Call)
    (same : SameRate clock.audio rate call) :
    Settled clock.audio rate { clock.resetFor now call with last := some 0 } 0 where
  kind := rfl
  last := rfl
  together := rfl
  started := Int.le_refl 0
  steady other again := by
    cases kind : clock.audio with
    | true =>
        rw [SameRate, kind, if_pos rfl] at same again
        simp [rateChanged, resetFor, reset, kind, same, again]
    | false =>
        rw [SameRate, kind, if_neg Bool.false_ne_true] at same again
        simp [rateChanged, resetFor, reset, kind, same, again]
  timed video other again := by
    rw [SameRate, video, if_neg Bool.false_ne_true] at same again
    simp [resetFor, reset, video, same, again]

theorem ask_first (session after : Session) (rate call : Call) (silent : session.clock.last = none)
    (same : SameRate session.clock.audio rate call) (asked : session.ask call = some after) :
    after.returned = 0 :: session.returned ∧
      Settled session.clock.audio rate after.clock 0 := by
  cases session with
  | mk clock readings returned =>
      simp only [Session.ask, resolveReading] at asked
      split at asked
      · cases readings with
        | nil => cases asked
        | cons now rest =>
            cases rest with
            | nil => cases asked
            | cons again rest =>
                cases asked
                exact ⟨rfl, reset_settled (clock.resetFor now call) again rate call same⟩
      · cases readings with
        | nil => cases asked
        | cons now rest =>
            have first := paced_first clock call now rest silent
            simp only [ne_eq, not_true_eq_false, if_false, first] at asked
            cases asked
            exact ⟨rfl, reset_settled clock now rate call same⟩

/-- What a later frame gets: the latest timestamp and whole intervals more, at most one
interval behind the reading, and not beyond it if it had to skip. -/
theorem ask_later (audio : Bool) (rate call : Call) (session : Session) (previous : Int64)
    (settled : Settled audio rate session.clock previous) (same : SameRate audio rate call)
    (room : Unsaturated session call) (used : Nat) (rest : List Nat)
    (next : session.readings = used :: rest) :
    ∃ (skipped : Nat) (reached : Int64),
      (session.clock.retimed call).advanced previous used = (reached, reached) ∧
      reached.toInt =
        previous.toInt + (skipped + 1 : Nat) * (session.clock.retimed call).interval.toInt ∧
      (wallTicks session.clock.start used).toInt - (session.clock.retimed call).interval.toInt ≤
        reached.toInt ∧
      (0 < skipped → reached.toInt < (wallTicks session.clock.start used).toInt) ∧
      ∀ after, session.ask call = some after →
        after.returned = reached :: session.returned ∧
        after.clock =
          { session.clock.retimed call with clockTs := reached, last := some reached } ∧
        ∃ waited final, rest = waited ++ final :: after.readings ∧
          reached ≤ wallTicks session.clock.start final := by
  have begun : (session.clock.retimed call).start = session.clock.start := by
    rw [retimed]
    split <;> rfl
  have kept : (session.clock.retimed call).clockTs = session.clock.clockTs := by
    rw [retimed]
    split <;> rfl
  have fits : (used - session.clock.start) / 100 < 2 ^ 63 := room.2 used (by rw [next]; rfl)
  have wall := wallTicks_exact session.clock.start used fits
  have above : 0 < (session.clock.retimed call).interval.toInt :=
    Int64.lt_iff_toInt_lt.mp (session.clock.retimed call).interval_positive
  have started := settled.started
  have bounded := room.1
  have stepped := saturatingAdd_exact session.clock.clockTs (session.clock.retimed call).interval
    (by omega) bounded
  have difference := toInt_sub_exact
    (saturatingAdd session.clock.clockTs (session.clock.retimed call).interval)
    (wallTicks session.clock.start used) (by omega) (by omega)
  -- The loop starts one interval past the last timestamp, and no sum is saturated.
  obtain ⟨skipped, reached, looped, steps, near, strict⟩ :=
    catchUp_reaches (session.clock.retimed call).interval
      (session.clock.retimed call).interval_positive
      (saturatingAdd previous (session.clock.retimed call).interval)
      (saturatingAdd session.clock.clockTs (session.clock.retimed call).interval)
      (saturatingAdd session.clock.clockTs (session.clock.retimed call).interval -
        wallTicks session.clock.start used)
      (wallTicks session.clock.start used).toInt (by rw [settled.together]) difference
      (by omega) (by omega)
  have arrived : (session.clock.retimed call).advanced previous used = (reached, reached) := by
    rw [advanced, kept, begun]
    exact looped
  refine ⟨skipped, reached, arrived, ?_, near, strict, fun after asked => ?_⟩
  · rw [steps, stepped, settled.together, Int.natCast_add, Int.add_mul]
    omega
  · cases session with
    | mk clock readings returned =>
        subst next
        have later := paced_later clock call used rest previous reached reached settled.last arrived
        simp only [Session.ask, resolveReading, settled.steady call same, ne_eq,
          not_true_eq_false, if_false, later, Bool.false_eq_true, Option.map_map] at asked
        obtain ⟨left, paced, made⟩ := Option.map_eq_some_iff.mp asked
        subst made
        exact ⟨rfl, rfl, pace_returns clock.start reached rest left paced⟩

theorem interval_own (audio : Bool) (rate call : Call) (clock : TimestampClock) (previous : Int64)
    (settled : Settled audio rate clock previous) (same : SameRate audio rate call)
    (sampled : audio = true → 0 < call.sampleRate ∧ 0 < call.samplesPerChannel) (now : Nat) :
    (clock.retimed call).interval = (clock.resetFor now call).interval := by
  have kind := settled.kind
  cases audio with
  | true => simp [interval, retimed, resetFor, reset, kind, sampled rfl]
  | false =>
      have timed := settled.timed rfl call same
      simp only [interval, retimed, kind, Bool.false_and, Bool.false_eq_true, if_false]
      rw [timed]
      rfl

theorem retimed_settled (audio : Bool) (rate call : Call) (clock : TimestampClock)
    (previous reached : Int64) (settled : Settled audio rate clock previous)
    (grown : 0 ≤ reached.toInt) :
    Settled audio rate { clock.retimed call with clockTs := reached, last := some reached }
      reached := by
  have kind := settled.kind
  have steady := settled.steady
  cases audio with
  | true =>
      rw [retimed]
      split
      · exact ⟨kind, rfl, rfl, grown, steady, fun video => by cases video⟩
      · exact ⟨kind, rfl, rfl, grown, steady, fun video => by cases video⟩
  | false =>
      have unchanged : clock.retimed call = clock := by simp [retimed, kind]
      rw [unchanged]
      exact ⟨kind, rfl, rfl, grown, steady, settled.timed⟩

section Run
variable (audio : Bool) (rate : Call)

/-- A call at the constant rate, away from the end of `i64`. -/
def Regular (session : Session) (call : Call) : Prop :=
  SameRate audio rate call ∧ (session.clock.last.isSome → Unsaturated session call)

instance (session : Session) (call : Call) : Decidable (Regular audio rate session call) := by
  unfold Regular
  infer_instance

def Between (session : Session) : Prop :=
  session.clock.audio = audio ∧
    match session.returned with
    | [] => session.clock.last = none
    | value :: _ => Settled audio rate session.clock value

theorem between_kept (opened : Nat) (readings : List Nat) :
    Runs.Invariant Session.ask (fresh audio opened readings) (Regular audio rate)
      (Between audio rate) where
  start := ⟨rfl, rfl⟩
  step before after call between regular asked := by
    obtain ⟨kind, between⟩ := between
    cases told : before.returned with
    | nil =>
        rw [told] at between
        subst kind
        have first := ask_first before after rate call between regular.1 asked
        rw [Between, first.1]
        exact ⟨first.2.kind, first.2⟩
    | cons previous earlier =>
        rw [told] at between
        have settled : Settled audio rate before.clock previous := between
        have room := regular.2 (by rw [settled.last]; rfl)
        cases ahead : before.readings with
        | nil =>
            simp [Session.ask, resolveReading, settled.steady call regular.1, ahead, paced] at asked
        | cons used rest =>
            obtain ⟨skipped, reached, -, steps, -, -, outcome⟩ :=
              ask_later audio rate call before previous settled regular.1 room used rest ahead
            obtain ⟨returned, clock, -⟩ := outcome after asked
            have above : 0 < (before.clock.retimed call).interval.toInt :=
              Int64.lt_iff_toInt_lt.mp (before.clock.retimed call).interval_positive
            have started := settled.started
            rw [← settled.together] at started
            have grown : 0 ≤ reached.toInt := by
              rw [steps]
              exact Int.add_nonneg started
                (Int.mul_nonneg (Int.natCast_nonneg (skipped + 1)) (Int.le_of_lt above))
            have now := retimed_settled audio rate call before.clock previous reached settled grown
            rw [Between, returned, clock]
            exact ⟨now.kind, now⟩

theorem returned_length (start : Session) (history : List Call) (session : Session)
    (ran : Runs.replay Session.ask start history = some session) :
    session.returned.length = start.returned.length + history.length := by
  induction history generalizing session with
  | nil =>
      cases ran
      rfl
  | cons call past ih =>
      obtain ⟨before, earlier, asked⟩ := (Runs.replay_cons Session.ask start call past session).mp ran
      obtain ⟨answer, -, made⟩ := Option.map_eq_some_iff.mp asked
      subst made
      rw [List.length_cons, ih before earlier, List.length_cons, Nat.add_assoc]

/-- The latest call of any run of a fresh clock at a constant rate. Its answer is the first
one and 0, or whole intervals behind the answer before; the skipping loop always comes to
its end, and what is said of a call that returns holds once the wait is over. -/
theorem auto_timestamps_paced (opened : Nat) (readings : List Nat) (call : Call)
    (past : List Call) (before : Session)
    (regular : Runs.Throughout Session.ask (fresh audio opened readings) (Regular audio rate)
      (call :: past))
    (ran : Runs.replay Session.ask (fresh audio opened readings) past = some before) :
    before.returned.length = past.length ∧
    (past = [] → ∀ after, before.ask call = some after →
      after.returned = [0] ∧ after.clock.clockTs = 0) ∧
    (∀ previous earlier used rest, before.returned = previous :: earlier →
      before.readings = used :: rest →
      let clock := before.clock.retimed call
      let wall := (wallTicks before.clock.start used).toInt
      ((audio = true → 0 < call.sampleRate ∧ 0 < call.samplesPerChannel) →
        clock.interval = (clock.resetFor used call).interval) ∧
      ∃ (skipped : Nat) (reached : Int64),
        clock.advanced previous used = (reached, reached) ∧
        reached.toInt = previous.toInt + (skipped + 1 : Nat) * clock.interval.toInt ∧
        0 < clock.interval.toInt ∧
        wall - clock.interval.toInt ≤ reached.toInt ∧ (0 < skipped → reached.toInt < wall) ∧
        ∀ after, before.ask call = some after →
          after.returned = reached :: before.returned ∧ after.clock.clockTs = reached ∧
          ∃ waited final, rest = waited ++ final :: after.readings ∧
            after.clock.clockTs ≤ wallTicks before.clock.start final) := by
  have between := Runs.Invariant.run Session.ask _ (between_kept audio rate opened readings) past before
    regular.1 ran
  have fits := regular.2 before ran
  obtain ⟨kind, between⟩ := between
  refine ⟨?_, ?_, ?_⟩
  · have counted := returned_length (fresh audio opened readings) past before ran
    rw [counted]
    exact Nat.zero_add past.length
  · intro none after asked
    subst none
    cases ran
    have first := ask_first (fresh audio opened readings) after rate call rfl fits.1 asked
    exact ⟨first.1, first.2.together.symm⟩
  · intro previous earlier used rest told ahead clock wall
    rw [told] at between
    have settled : Settled audio rate before.clock previous := between
    have room := fits.2 (by rw [settled.last]; rfl)
    obtain ⟨skipped, reached, arrived, steps, near, strict, outcome⟩ :=
      ask_later audio rate call before previous settled fits.1 room used rest ahead
    have above : 0 < clock.interval.toInt := Int64.lt_iff_toInt_lt.mp clock.interval_positive
    refine ⟨fun sampled => ?_, skipped, reached, arrived, steps, above, near, strict,
      fun after asked => ?_⟩
    · rw [interval_own audio rate call before.clock previous settled fits.1 sampled used]
      have same : (clock.resetFor used call).interval =
          (before.clock.resetFor used call).interval := by
        simp only [clock, retimed]
        split <;> rfl
      exact same.symm
    · obtain ⟨returned, after_clock, waited, final, passed, due⟩ := outcome after asked
      have stands : after.clock.clockTs = reached := by rw [after_clock]
      exact ⟨returned, stands, waited, final, passed, by rw [stands]; exact due⟩
end Run

def everySecond : Call :=
  { frameRateN := 1, frameRateD := 1, sampleRate := 0, samplesPerChannel := 0 }

/-- After the first frame; the next call will find that 3.5 seconds have passed. -/
def startedLate : Session where
  clock :=
    { audio := false, last := some 0, start := 100, clockTs := 0, frameRateN := 1
      frameRateD := 1, sampleRate := 0, frameInterval := 10000000 }
  readings := [3500000100, 3500000200]
  returned := [0]

example : (startedLate.ask everySecond).map Session.returned = some [30000000, 0] := by
  decide +kernel

theorem auto_timestamps_paced_late :
    ∃ (skipped : Nat) (reached : Int64),
      reached.toInt = 0 + (skipped + 1 : Nat) * 10000000 ∧
      35000000 - 10000000 ≤ reached.toInt ∧ (0 < skipped → reached.toInt < 35000000) ∧
      ∀ after, startedLate.ask everySecond = some after → after.returned = [reached, 0] := by
  obtain ⟨-, -, later⟩ :=
    auto_timestamps_paced false everySecond 0 [0, 100, 3500000100, 3500000200] everySecond
      [everySecond] startedLate (by decide +kernel) rfl
  obtain ⟨-, skipped, reached, -, steps, -, near, strict, outcome⟩ :=
    later 0 [] 3500000100 [3500000200] rfl rfl
  exact ⟨skipped, reached, steps, near, strict, fun after asked => (outcome after asked).1⟩

end OpenMediaTransport.TimestampClock
