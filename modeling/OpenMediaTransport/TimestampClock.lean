import OpenMediaTransport.SenderAssembly

/-!
`TimestampClock` of `clock.rs`, up to the frames that carry their own timestamp.
What it answers to the others, paced by the wall clock, enters as a function, as
does the instant at which a reset starts the clock.
-/

namespace OpenMediaTransport

def ticksPerSecond : Int64 := 10000000

/-- `start` is an instant, in nanoseconds. -/
structure TimestampClock where
  audio : Bool
  last : Option Int64
  start : Nat
  clockTs : Int64
  frameRateN : Int32
  frameRateD : Int32
  sampleRate : Int32
  frameInterval : Int64

namespace TimestampClock

def new (audio : Bool) (now : Nat) : TimestampClock :=
  { audio, last := none, start := now, clockTs := 0, frameRateN := -1, frameRateD := -1
    sampleRate := -1, frameInterval := -1 }

def saturatingMul (left right : Int64) : Int64 :=
  let product := left.toInt * right.toInt
  if product < Int64.minValue.toInt then Int64.minValue
  else if Int64.maxValue.toInt < product then Int64.maxValue
  else left * right

def reset (clock : TimestampClock) (now : Nat) (frameRateN frameRateD sampleRate
    samplesPerChannel : Int32) : TimestampClock :=
  { clock with
    frameRateN, frameRateD, sampleRate
    frameInterval :=
      if clock.audio && 0 < sampleRate && 0 < samplesPerChannel then
        saturatingMul samplesPerChannel.toInt64 ticksPerSecond / sampleRate.toInt64
      else if 0 < frameRateN && 0 < frameRateD then
        saturatingMul frameRateD.toInt64 ticksPerSecond / frameRateN.toInt64
      else ticksPerSecond / 60
    start := now
    clockTs := 0
    last := none }

/-- The clock starts anew when the rate that it goes by is another one. -/
def rateChanged (clock : TimestampClock) (frameRateN frameRateD sampleRate : Int32) : Bool :=
  (clock.audio && sampleRate != clock.sampleRate) ||
    (!clock.audio && (frameRateN != clock.frameRateN || frameRateD != clock.frameRateD))

section Resolve
variable (paced : TimestampClock → Int32 → Int32 → Int32 → Int32 → Int64 × TimestampClock)

def resolve (clock : TimestampClock) (now : Nat) (ts : Int64) (frameRateN frameRateD sampleRate
    samplesPerChannel : Int32) : Int64 × TimestampClock :=
  let current :=
    if clock.rateChanged frameRateN frameRateD sampleRate then
      clock.reset now frameRateN frameRateD sampleRate samplesPerChannel
    else clock
  if ts ≠ autoTimestamp then (ts, { current with last := some ts })
  else paced current frameRateN frameRateD sampleRate samplesPerChannel

def answer (clock : TimestampClock) (now : Nat) : ClockAnswer :=
  fun ts frameRateN frameRateD sampleRate samplesPerChannel =>
    (clock.resolve paced now ts frameRateN frameRateD sampleRate samplesPerChannel).1

theorem answer_explicit (clock : TimestampClock) (now : Nat) (ts : Int64)
    (frameRateN frameRateD sampleRate samplesPerChannel : Int32) (explicit : ts ≠ autoTimestamp) :
    clock.answer paced now ts frameRateN frameRateD sampleRate samplesPerChannel = ts := by
  unfold answer resolve
  rw [if_pos explicit]
end Resolve

end TimestampClock

end OpenMediaTransport
