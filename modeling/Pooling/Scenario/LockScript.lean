import Pooling.Locks.Holdings
import Pooling.Scenario.Blocking

/-!
Scripts on single locks. Every guard's action notes the guard's name, and looks at the lock that
was named with it.
-/

namespace Pooling.Scenario

inductive LockStep where
  | take (guard : String) (mode : LockMode) (withAction : Bool)
  | tryTake (guard : String) (mode : LockMode)
  | onRelease (guard : String)
  | guard (name : String) (step : GuardStep)
  | look
  | start (name : String) (mode : LockMode) (spins : Bool)
  | peek (name : String)
  | join (name : String)
  | unknown

structure Note where
  text : String
  lock : String

structure LockWorld where
  holdings : Holdings String String Note := {}
  callers : LockCallers String := []
  /-- Callers have been at work, so the order in which actions ran is no longer fixed. -/
  disturbed : Bool := false

/-- What a step shows: the state of its lock and the actions that ran, once nobody is at work; the
states that the actions saw, as long as nobody ever was. -/
structure LockAnswer where
  reply : LockReply
  lock? : Option RwLock
  ran? : Option (List (String × Option RwLock))

namespace LockWorld

def isGrantable (world : LockWorld) (lock : String) (mode : LockMode) : Bool :=
  world.callers.isGrantable lock (world.holdings.lockState lock) mode

/-- Callers that can have their lock take it, let go of it and are done. -/
def settle (world : LockWorld) : LockWorld :=
  let isDone (caller : LockCaller String) : Bool :=
    world.callers.isServed caller (world.holdings.lockState caller.lock)
  { world with
    callers := world.callers.map fun caller => if isDone caller then caller.finish else caller
    holdings := { world.holdings with
      ran := world.holdings.ran ++ (world.callers.filter isDone).map fun caller =>
        (⟨caller.name, caller.lock⟩, world.holdings.locks) } }

def take? (world : LockWorld) (name lock : String) (mode : LockMode) (action : Option Note) :
    Option LockWorld :=
  if world.isGrantable lock mode then
    (world.holdings.take? name lock mode action).map fun holdings => { world with holdings }
  else none

def askGuard (world : LockWorld) (name : String) : GuardStep → LockReply × LockWorld
  | .mode =>
      (((world.holdings.guards.get? name).map fun guard => .mode guard.mode).getD .nothing, world)
  | .downgrade =>
      if world.holdings.guards.contains name then
        let (done, holdings) := world.holdings.downgrade name
        (.truth done, { world with holdings })
      else (.nothing, world)
  | .same other => (((world.holdings.sameLock? name other).map .truth).getD .nothing, world)
  | .describe =>
      (((world.holdings.guards.get? name).map fun guard =>
        .described (guard.describe maskedAddress)).getD .nothing, world)
  | .drop =>
      (.truth (world.holdings.guards.contains name),
        { world with holdings := world.holdings.drop name })
  | .panic => (holderFailed, { world with holdings := world.holdings.drop name })

/-- Performs a step; `none` where its caller would wait for ever. -/
def perform? (world : LockWorld) (lock : String) : LockStep → Option (LockReply × LockWorld)
  | .take guard mode withAction =>
      let note? := if withAction then some ⟨guard, lock⟩ else none
      (world.take? guard lock mode note?).map fun world => (.nothing, world)
  | .tryTake guard mode =>
      match world.take? guard lock mode (some ⟨guard, lock⟩) with
      | some world => some (.truth true, world)
      | none => some (.truth false, world)
  | .onRelease guard =>
      some (.truth (world.holdings.guards.contains guard),
        { world with holdings := world.holdings.onRelease guard ⟨guard ++ "!", lock⟩ })
  | .guard name step => some (world.askGuard name step)
  | .look => some (.nothing, world)
  | .start name mode spins =>
      some (.nothing,
        { world with
          callers := world.callers.start name lock mode spins
          disturbed := true })
  | .peek name =>
      some (((world.callers.find? name).map fun caller =>
        .waiting !caller.finished).getD .nothing, world)
  | .join name =>
      match world.callers.find? name with
      | none => some (.nothing, world)
      | some caller =>
          if caller.finished then
            some (.mode caller.mode, { world with callers := world.callers.without caller })
          else none
  | .unknown => some (.unfit .unknownStep, world)

def showRan (world : LockWorld) : List (String × Option RwLock) :=
  if world.disturbed then
    (world.holdings.ran.map fun entry => (entry.1.text, none)).mergeSort fun first second =>
      first.1 ≤ second.1
  else
    world.holdings.ran.map fun entry =>
      (entry.1.text, some ((entry.2.get? entry.1.lock).getD RwLock.free))

def answer? (world : LockWorld) (lock : String) (step : LockStep) :
    Option (LockAnswer × LockWorld) := do
  let (reply, world) ← world.perform? lock step
  let world := world.settle
  if !world.callers.areExpected then
    let state := world.callers.appearance lock (world.holdings.lockState lock)
    some (⟨reply, some state, some world.showRan⟩,
      { world with holdings := { world.holdings with ran := [] } })
  else some (⟨reply, none, none⟩, world)

/-- The answers of a script's steps, up to one that would wait for ever. -/
def script : List (String × LockStep) → LockWorld → List LockAnswer
  | [], _ => []
  | (lock, step) :: rest, world =>
      match world.answer? lock step with
      | some (answer, world) => answer :: script rest world
      | none => []

end LockWorld

end Pooling.Scenario
