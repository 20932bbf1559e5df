import Pooling.Time.Clock

/-!
A timer for long-lived repeated actions: its events grow apart by doubling, up to a cap, until a
horizon after which nothing fires.
-/

namespace Pooling

inductive TimerResult where
  | expired
  | notReady
  | ready
  deriving DecidableEq

structure Timer where
  maxInterval : UInt64
  horizon : Reading
  events : UInt64 := 0
  nextEvent : Reading
  interval : UInt64

namespace Timer

/-- The interval that stands in for a doubled one too long to count. -/
def overflowInterval : UInt64 := 2147483647

def start (initialInterval maxInterval initialWait maxTotalWait : Duration) (now : Reading) :
    Timer where
  maxInterval := maxInterval.millis
  horizon := now.after maxTotalWait.millis
  nextEvent := now.after initialWait.millis
  interval := min initialInterval.millis maxInterval.millis

def grow (interval maxInterval : UInt64) : UInt64 :=
  if 2 * interval.toNat < UInt64.size then min (2 * interval) maxInterval else overflowInterval

def intervalSpan (timer : Timer) : Duration := Duration.ofMillis timer.interval

def fire (timer : Timer) (now : Reading) : Timer :=
  { timer with
    nextEvent := now.after timer.interval
    interval := grow timer.interval timer.maxInterval
    events := timer.events + 1 }

/-- Whether an event is due; an event that fires puts off the next one. -/
def tick (timer : Timer) (now : Reading) : TimerResult × Timer :=
  if timer.horizon ≤ now then (.expired, timer)
  else if now < timer.nextEvent then (.notReady, timer)
  else (.ready, timer.fire now)

end Timer

end Pooling
