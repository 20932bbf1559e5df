import Pooling.Pacing.Timer

/-!
Scripts on a timer and the hand clock.
-/

namespace Pooling.Scenario

inductive TimerStep where
  | tick
  | ticks (times : Nat) (millis : UInt64)
  | advance (millis : UInt64)
  | set (reading : UInt64)
  | unknown

inductive TimerReply where
  | nothing
  | result (result : TimerResult)
  | results (fired : List Reading) (last? : Option TimerResult)

structure TimerAnswer where
  /-- None for a step that there is not. -/
  reply? : Option TimerReply
  timer : Timer
  now : Reading

structure TimerWorld where
  timer : Timer
  time : Timeline
  clock : ClockSource

namespace TimerWorld

def tick (world : TimerWorld) : TimerResult × TimerWorld :=
  let (result, timer) := world.timer.tick (world.time.read world.clock)
  (result, { world with timer })

def advance (world : TimerWorld) (millis : UInt64) : TimerWorld :=
  { world with time := world.time.advance millis }

/-- Ticks that often, and after each of them moves the hand clock; an event is known by what the
hand clock shows. -/
def ticks (millis : UInt64) :
    Nat → List Reading → Option TimerResult → TimerWorld → TimerReply × TimerWorld
  | 0, fired, last?, world => (.results fired last?, world)
  | times + 1, fired, _, world =>
      let (result, world) := world.tick
      let fired := if result = .ready then fired ++ [world.time.hand] else fired
      ticks millis times fired (some result) (world.advance millis)

def perform (world : TimerWorld) : TimerStep → Option TimerReply × TimerWorld
  | .tick =>
      let (result, world) := world.tick
      (some (.result result), world)
  | .ticks times millis =>
      let (reply, world) := ticks millis times [] none world
      (some reply, world)
  | .advance millis => (some .nothing, world.advance millis)
  | .set reading => (some .nothing, { world with time := world.time.set reading })
  | .unknown => (none, world)

def script : List TimerStep → TimerWorld → List TimerAnswer
  | [], _ => []
  | step :: rest, world =>
      let (reply?, world) := world.perform step
      ⟨reply?, world.timer, world.time.hand⟩ :: script rest world

end TimerWorld

end Pooling.Scenario
