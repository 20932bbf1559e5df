import Pooling.Options
import Pooling.Scenario.Run

/-!
Whole scripts: the worlds in which they start, the answer of each step, and what happens when a
script is over.
-/

namespace Pooling.Scenario

namespace World

/-- The first background collection that can find something: one without a delay is over before
there is anything in the pool. -/
def firstCollection? (options : ElasticOptions) : Option Moment :=
  Moment.after? 0
    (if options.collectionDelay.isZero then options.collectionInterval
      else options.collectionDelay)

/-- An elastic pool by the clock of its options; its collections run in the background. -/
def elastic (options : ElasticOptions) (counter? : Option Counter) (start : Reading)
    (firstId : UInt32) :
    Except PoolError (World (Elastic.Pool UInt32) (Elastic.Call UInt32)) := do
  options.validate
  return {
    pool := Elastic.Pool.start options (counter?.getD Counter.silent)
    factory := { nextId := firstId }
    time := { hand := start }
    clock := options.clock
    detector? := options.leakDetector
    nextCollection? := firstCollection? options
    collectionInterval := options.collectionInterval
    sharedExecutor := options.sharedExecutor
    showsCounter := counter?.isSome }

def fixed (maxCapacity : Nat) (detector? : Option LeakDetector) (firstId : UInt32) :
    Except PoolError (World (Fixed.Pool UInt32) (Fixed.Call UInt32)) := do
  return { pool := ← Fixed.Pool.start? maxCapacity, factory := { nextId := firstId }, detector? }

def relay (firstId : UInt32) : World Relay RelayCall :=
  { pool := {}, factory := { nextId := firstId } }

end World

/-- What a script comes to: the answers of its steps, and how it ended. -/
structure Report where
  answers : List Answer := []
  /-- The process ended before the script did. -/
  exited : Bool := false
  /-- What was abandoned when the script was over. -/
  aborted? : Option Abort := none

namespace Run

variable {σ κ : Type} [Managed σ κ]

/-- More parts than any step of a script takes before everybody is at rest. -/
def patience : Nat := 10000000

/-- The events that a step shows; while the status is hidden they wait. -/
def showEvents (status : Status) : Run σ κ (Option (List Event)) := do
  match status with
  | .hidden => return none
  | _ =>
      let events := (← get).events
      modify fun world => { world with events := [] }
      return some events

def answer (step : Step) : Run σ κ Answer := do
  match ← observe patience step with
  | .error abort => return .aborted abort
  | .ok (reply, status) => return .given reply status (← showEvents status)

/-- At the end the script closes its pool and lets go of it, and then of its handles. -/
def conclude : Run σ κ Unit := do
  if (← get).owned then
    let _ ← lend patience (return .ofOutcome (← finish patience (Managed.close (σ := σ))))
    modify fun world => { world with owned := false }
    bury patience
  for (_, handle) in (← get).handles.pairs do
    let _ ← endHandle patience (.start handle)

/-- Runs the steps that are left; a stop ends the run, and keeps the answers before it. -/
def script : List Step → World σ κ → Report
  | [], world =>
      match (conclude.run world).1 with
      | .error .exit => { exited := true }
      | .error (.abort abort) => { aborted? := some abort }
      | _ => {}
  | step :: rest, world =>
      match (answer step).run world with
      | (.ok given, world) =>
          let report := script rest world
          { report with answers := given :: report.answers }
      | (.error .exit, _) => { exited := true }
      | (.error _, _) => {}

end Run

end Pooling.Scenario
