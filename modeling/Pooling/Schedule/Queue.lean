import Pooling.Text.Describe
import Pooling.Time.Moment

/-!
Tasks that run again and again at a fixed rate, one at a time: the queue, and what its worker does
between two of its waits. Each definition here is one section under the queue's lock.
-/

namespace Pooling.Schedule

structure Task where
  /-- Tells tasks apart. -/
  serial : Nat
  /-- When the task is due next; never, if no clock can tell that moment. -/
  due? : Option Moment
  interval : Duration
  deriving DecidableEq

structure Queue where
  waiting : List Task := []
  /-- The task that the worker has taken out and runs. -/
  running? : Option Task := none
  cancelled : List Nat := []
  stopped : Bool := false
  nextSerial : Nat := 0

inductive Order where
  | stop
  | sleep
  | sleepUntil (moment : Moment)
  | run (task : Task)
  deriving DecidableEq

/-- The place and moment of the task that is due first; of two due at once, the one in front. -/
def earliest? : List Task → Option (Nat × Moment)
  | [] => none
  | task :: tasks =>
      let rest := (earliest? tasks).map fun found => (found.1 + 1, found.2)
      match task.due?, rest with
      | some due, some (place, other) => if due ≤ other then some (0, due) else some (place, other)
      | some due, none => some (0, due)
      | none, rest => rest

/-- Takes the task of a place out; the last task moves there. -/
def takeOut (place : Nat) (tasks : List Task) : List Task :=
  match tasks.getLast? with
  | none => []
  | some last =>
      if place + 1 = tasks.length then tasks.dropLast else tasks.dropLast.set place last

namespace Queue

def isCancelled (queue : Queue) (serial : Nat) : Bool := queue.cancelled.contains serial

def claim (queue : Queue) : Nat × Queue :=
  (queue.nextSerial, { queue with nextSerial := queue.nextSerial + 1 })

def enter (queue : Queue) (serial : Nat) (now : Moment) (delay interval : Duration) : Queue :=
  { queue with waiting := queue.waiting ++ [⟨serial, now.after? delay, interval⟩] }

def schedule (queue : Queue) (now : Moment) (delay interval : Duration) : Nat × Queue :=
  let (serial, queue) := queue.claim
  (serial, queue.enter serial now delay interval)

def cancel (queue : Queue) (serial : Nat) : Queue :=
  { queue with cancelled := serial :: queue.cancelled }

def stop (queue : Queue) : Queue := { queue with stopped := true }

def prune (queue : Queue) : Queue :=
  { queue with waiting := queue.waiting.filter fun task => !queue.isCancelled task.serial }

def take (queue : Queue) (place : Nat) : Order × Queue :=
  match queue.waiting[place]? with
  | some task =>
      (.run task, { queue with waiting := takeOut place queue.waiting, running? := some task })
  | none => (.sleep, queue)

def pick (queue : Queue) (now : Moment) : Order × Queue :=
  match earliest? queue.waiting with
  | none => (.sleep, queue)
  | some (place, due) => if now < due then (.sleepUntil due, queue) else queue.take place

def next (queue : Queue) (now : Moment) : Order × Queue :=
  if queue.stopped then (.stop, queue) else queue.prune.pick now

/-- A task that has run is due an interval after it was due, but not before now. -/
def renew (task : Task) (now : Moment) : Task :=
  let due? := task.due?.bind fun due => due.after? task.interval
  { task with due? := due?.map fun due => max due now }

def discard (queue : Queue) : Queue := { queue with running? := none }

def restore (queue : Queue) (task : Task) (now : Moment) : Queue :=
  { queue with running? := none, waiting := queue.waiting ++ [renew task now] }

/-- Puts the task that has run back, unless it was cancelled. -/
def putBack (queue : Queue) (now : Moment) : Queue :=
  match queue.running? with
  | none => queue
  | some task =>
      if queue.isCancelled task.serial then queue.discard else queue.restore task now

def scheduledCount (queue : Queue) : Nat :=
  queue.waiting.countP fun task => !queue.isCancelled task.serial

def describe (queue : Queue) : String :=
  Describe.record "ScheduledExecutor"
    [("scheduled", toString queue.scheduledCount), ("shutdown", Describe.bool queue.stopped)]

end Queue

end Pooling.Schedule
