import Pooling.Resource.Handle
import Pooling.Scenario.Managed
import Pooling.Table

/-!
The world of a scripted run: a pool, its factory and clock, the handles, and callers at work in
the background, of which some sleep.
-/

namespace Pooling.Scenario

/-- The state of a caller in the background. A caller that polls sleeps between its polls. -/
inductive WorkerState (κ : Type) where
  | ready (call : κ)
  | running
  | asleep (call : κ) (alarm? : Option Nat)
  | polling (deadline : Nat) (timeout : Duration)
  | finished (reply : Reply)

structure Worker (κ : Type) where
  /-- No two workers of a script share it. -/
  number : Nat
  name : String
  polls : Bool
  state : WorkerState κ
  /-- Another worker has taken its name: it goes on, but nobody can ask for it any more. -/
  detached : Bool := false

namespace Worker

def isNamed (worker : Worker κ) (name : String) : Bool :=
  !worker.detached && worker.name = name

def isFinished (worker : Worker κ) : Bool :=
  match worker.state with
  | .finished _ => true
  | _ => false

/-- When a worker goes on by itself. -/
def alarm? (worker : Worker κ) : Option Nat :=
  match worker.state with
  | .asleep _ alarm? => alarm?
  | .polling deadline _ => some deadline
  | _ => none

end Worker

/-- How long a script waits for a pool to shrink, in nanoseconds. -/
def longestPause : Nat := 3000000000

def collectionTime : Nat := 100000

inductive Sleeper where
  | caller
  | worker (number : Nat)
  deriving DecidableEq

structure ScriptedFactory where
  plan : List (Making × List Step) := []
  nextId : UInt32 := 0
  unhealthy : List UInt32 := []
  checkCost : UInt64 := 0
  checkHooks : List (List Step) := []
  closeHooks : List (List Step) := []

structure World (σ κ : Type) where
  pool : σ
  factory : ScriptedFactory := {}
  time : Timeline := {}
  clock : ClockSource := .hand
  detector? : Option LeakDetector := none
  handles : Table String (Handle UInt32) := {}
  workers : List (Worker κ) := []
  /-- In the order in which they went to sleep. -/
  sleepers : List Sleeper := []
  callerAwake : Bool := true
  /-- The thread at work is in the middle of a poll. -/
  polling : Bool := false
  events : List Event := []
  /-- The script still holds the pool. -/
  owned : Bool := true
  /-- Calls of the script that hold the pool while they last. -/
  borrowers : Nat := 0
  /-- Nobody held the pool any more, and it was closed. -/
  buried : Bool := false
  /-- The background collection has not been cancelled. -/
  collecting : Bool := true
  nextCollection? : Option Nat := none
  /-- The background collection is at work, and not in its queue. -/
  sweeping : Bool := false
  collectionInterval : Duration := Duration.ofSeconds 3600
  sharedExecutor : Bool := false
  /-- The script follows the counter that the pool reports to. -/
  showsCounter : Bool := false

inductive Stop where
  | abort (abort : Abort)
  | exit
  | stuck

abbrev Run (σ κ : Type) := ExceptT Stop (StateM (World σ κ))

namespace World

variable {σ κ : Type}

def now (world : World σ κ) : Instants := ⟨world.time.read world.clock, world.time.elapsed⟩

def passTo (world : World σ κ) (moment : Nat) : World σ κ :=
  { world with time := { world.time with elapsed := max world.time.elapsed moment } }

def isHeld (world : World σ κ) : Bool :=
  world.owned || 0 < world.borrowers || world.workers.any fun worker => !worker.isFinished

def worker? (world : World σ κ) (name : String) : Option (Worker κ) :=
  world.workers.find? fun worker => worker.isNamed name

def removeWorker (world : World σ κ) (number : Nat) : World σ κ :=
  { world with workers := world.workers.filter fun worker => worker.number ≠ number }

def addWorker (world : World σ κ) (name : String) (polls : Bool) (state : WorkerState κ) :
    Worker κ × World σ κ :=
  let number := world.workers.foldl (fun next worker => max next (worker.number + 1)) 0
  let worker : Worker κ := { number, name, polls, state }
  let earlier := world.workers.map fun worker =>
    if worker.isNamed name then { worker with detached := true } else worker
  (worker, { world with workers := earlier ++ [worker] })

def setWorker (world : World σ κ) (number : Nat) (state : WorkerState κ) : World σ κ :=
  { world with
    workers := world.workers.map fun worker =>
      if worker.number = number then { worker with state } else worker }

def hasPollers (world : World σ κ) : Bool :=
  world.workers.any fun worker => worker.polls && !worker.detached

def readyWorker? (world : World σ κ) : Option (Nat × κ) :=
  world.workers.findSome? fun worker =>
    match worker.state with
    | .ready call => some (worker.number, call)
    | _ => none

def nextAlarm? (world : World σ κ) : Option (Nat × Worker κ) :=
  world.workers.foldl
    (fun best worker =>
      match worker.alarm?, best with
      | some moment, some (earliest, _) => if moment < earliest then some (moment, worker) else best
      | some moment, none => some (moment, worker)
      | none, _ => best)
    none

variable [Managed σ κ]

def wakeSleeper (world : World σ κ) (sleeper : Sleeper) : World σ κ :=
  let world := { world with sleepers := world.sleepers.filter fun other => other ≠ sleeper }
  match sleeper with
  | .caller => { world with callerAwake := true }
  | .worker number =>
      match (world.workers.find? fun worker => worker.number = number).map Worker.state with
      | some (.asleep call _) => world.setWorker number (.ready (Managed.woken σ call))
      | _ => world

def applyWake (world : World σ κ) : Wake → World σ κ
  | .nobody => world
  | .one =>
      match world.sleepers with
      | sleeper :: _ => world.wakeSleeper sleeper
      | [] => world
  | .everyone => world.sleepers.foldl wakeSleeper world

def putToSleep (world : World σ κ) (number : Nat) (call : κ) : World σ κ :=
  { world.setWorker number (.asleep call (Managed.alarm? σ call world.now)) with
    sleepers := world.sleepers ++ [.worker number] }

/-- The moment of the next background collection, if there is one by the last moment given; none
comes while one is at work. -/
def dueCollection? (world : World σ κ) (last : Nat) : Option Nat :=
  match world.nextCollection? with
  | some due => if world.collecting && !world.sweeping && due ≤ last then some due else none
  | none => none

/-- The worker that goes on by itself first, if there is one by the last moment given. -/
def dueAlarm? (world : World σ κ) (last : Nat) : Option (Nat × Worker κ) :=
  world.nextAlarm?.filter fun alarm => alarm.1 ≤ last

/-- Collections keep their distance, but do not catch up, and each of them takes a while. -/
def scheduleCollection (world : World σ κ) (moment : Nat) : World σ κ :=
  { world with
    nextCollection? :=
      some (max (moment + world.collectionInterval.nanos) (world.time.elapsed + collectionTime)) }

def leak? (world : World σ κ) : Option (UInt64 × UInt64) :=
  world.detector?.map fun detector => (detector.outstanding, detector.leaked)

def status (world : World σ κ) : Except Abort Status :=
  if world.hasPollers then .ok .hidden
  else if !world.owned then .ok (.dropped world.leak?)
  else if !Managed.isObservable σ then .ok .relay
  else
    match Managed.view world.pool with
    | .error abort => .error abort
    | .ok view =>
        let now? := if Managed.collects σ && world.clock = .hand then some world.time.hand else none
        let scheduled? :=
          if world.sharedExecutor then
            some (if world.collecting && !world.sweeping then 1 else 0)
          else none
        let counter? := if world.showsCounter then view.counter? else none
        .ok (.pool { view with counter? } now? scheduled? world.leak?)

end World

end Pooling.Scenario
