import Pooling.Naming
import Pooling.Schedule.Queue
import Pooling.Table

/-!
Scripts on a schedule. Time stands still but for the little that each step and each run takes, and
for the steps that wait.
-/

namespace Pooling.Scenario

structure Errand where
  name : String
  /-- The run at which the task cancels itself, and at every run after it. -/
  limit? : Option Nat := none
  /-- Notes the name of the worker instead of its own. -/
  notesWorker : Bool := false
  stops : Bool := false

def Errand.endsAt (errand : Errand) (run : Nat) : Bool :=
  errand.limit?.any fun limit => limit ≤ run

inductive ScheduleStep where
  | schedule (errand : Errand) (delay interval : Duration)
  | await (task : String) (runs : Nat)
  | pause (millis : UInt64)
  | runs (task : String)
  | cancel (task : String)
  | isCancelled (task : String)
  | log
  | count
  | stop
  | describe
  | release
  | unknown

structure Job where
  errand : Errand
  runs : Nat := 0

structure ScheduleWorld where
  queue : Schedule.Queue := {}
  /-- The tasks by their serials, and the last serial given to a name. -/
  jobs : Table Nat Job := {}
  serials : Table String Nat := {}
  /-- What the tasks noted, the latest first. -/
  notes : List String := []
  worker : String
  now : Moment := 0
  owned : Bool := true

inductive ScheduleReply where
  | nothing
  | number (value : Nat)
  | truth (value : Bool)
  | notes (names : List String)
  | text (text : String)

/-- The answer of a step, and whether the schedule has been stopped, while it is there. -/
inductive ScheduleAnswer where
  | unfit
  | given (reply : ScheduleReply) (stopped? : Option Bool)

namespace ScheduleWorld

/-- The schedule of a worker that takes its name from a format. -/
def start (format : String) : Except Abort ScheduleWorld := do
  return { worker := ← (ThreadNames.spawn { format }).1 }

def job? (world : ScheduleWorld) (name : String) : Option Job :=
  (world.serials.get? name).bind world.jobs.get?

def stepTime : Nat := 1

def runTime : Nat := 10000

def spend (world : ScheduleWorld) (nanos : Nat) : ScheduleWorld :=
  { world with now := world.now + nanos }

def run (world : ScheduleWorld) (serial : Nat) : ScheduleWorld :=
  match world.jobs.get? serial with
  | none => world
  | some job =>
      let runs := job.runs + 1
      let errand := job.errand
      let note := if errand.notesWorker then world.worker else errand.name
      let queue := if errand.endsAt runs then world.queue.cancel serial else world.queue
      { world with
        jobs := world.jobs.insert serial { job with runs }
        notes := note :: world.notes
        queue := if errand.stops then queue.stop else queue }

/-- Lets the worker run what is due, until `isEnough` or nothing is due any more, but not past a
moment. -/
def settle (isEnough : ScheduleWorld → Bool) (last : Moment) : Nat → ScheduleWorld → ScheduleWorld
  | 0, world => world
  | fuel + 1, world =>
      if isEnough world || last < world.now then world
      else
        match world.queue.next world.now with
        | (.run task, queue) =>
            let world := ({ world with queue }.run task.serial).spend runTime
            settle isEnough last fuel { world with queue := world.queue.putBack world.now }
        | (_, queue) => { world with queue }

def pass (isEnough : ScheduleWorld → Bool) (last : Moment) : Nat → ScheduleWorld → ScheduleWorld
  | 0, world => world
  | fuel + 1, world =>
      let world := world.settle isEnough last (fuel + 1)
      if isEnough world || last < world.now then world
      else
        match world.queue.next world.now with
        | (.sleepUntil moment, queue) =>
            if moment ≤ last then pass isEnough last fuel { world with queue, now := moment }
            else { world with queue, now := last }
        | (_, queue) => { world with queue, now := last }

def patience : Nat := 400000

def hasRun (name : String) (runs : Nat) (world : ScheduleWorld) : Bool :=
  match world.job? name with
  | some job => runs ≤ job.runs
  | none => false

def longestWait : Nat := 3000000000

def performOnSchedule? (world : ScheduleWorld) :
    ScheduleStep → Option (ScheduleReply × ScheduleWorld)
  | .schedule errand delay interval =>
      let (serial, queue) := world.queue.schedule world.now delay interval
      -- The number of a task is a word.
      some (.number (UInt64.ofNat serial).toNat,
        { world with
          queue
          jobs := world.jobs.insert serial { errand }
          serials := world.serials.insert errand.name serial })
  | .count => some (.number world.queue.scheduledCount, world)
  | .stop => some (.nothing, { world with queue := world.queue.stop })
  | .describe => some (.text world.queue.describe, world)
  | .release => some (.nothing, { world with queue := world.queue.stop, owned := false })
  | _ => none

def perform? (world : ScheduleWorld) : ScheduleStep → Option (ScheduleReply × ScheduleWorld)
  | .await name runs =>
      if (world.job? name).isNone then some (.truth false, world)
      else
        let world := world.pass (hasRun name runs) (world.now + longestWait) patience
        some (.truth (hasRun name runs world), world)
  | .pause millis =>
      some (.nothing,
        world.pass (fun _ => false) (world.now + (Duration.ofMillis millis).nanos) patience)
  | .runs name => some (((world.job? name).map fun job => .number job.runs).getD .nothing, world)
  | .cancel name =>
      match world.serials.get? name with
      | some serial => some (.truth true, { world with queue := world.queue.cancel serial })
      | none => some (.truth false, world)
  | .isCancelled name =>
      some (((world.serials.get? name).map fun serial =>
        .truth (world.queue.isCancelled serial)).getD .nothing, world)
  | .log => some (.notes world.notes.reverse, { world with notes := [] })
  | step => if world.owned then world.performOnSchedule? step else none

/-- The answers of a script's steps; the worker comes to rest after a step that waits for it. -/
def script : List (ScheduleStep × Bool) → ScheduleWorld → List ScheduleAnswer
  | [], _ => []
  | (step, settles) :: rest, world =>
      match (world.spend stepTime).perform? step with
      | none => .unfit :: script rest world
      | some (reply, world) =>
          let world :=
            if settles then world.settle (fun _ => false) (world.now + longestWait) patience
            else world
          let stopped? := if world.owned then some world.queue.stopped else none
          .given reply stopped? :: script rest world

end ScheduleWorld

end Pooling.Scenario
