import Pooling.LockPool.Capacity
import Pooling.LockPool.Pool
import Pooling.Scenario.Blocking

/-!
Scripts on a lock pool. Callers in the background hold a reference while they wait for their lock.
-/

namespace Pooling.Scenario

inductive LockPoolStep where
  | get (guard key : String) (mode : LockMode)
  | tryGet (guard key : String) (mode : LockMode)
  | touch (key : String) (mode : LockMode)
  | fill (guard key : String) (count : Nat) (mode : LockMode)
  | drain (guard : String) (count : Nat)
  | guard (name : String) (step : GuardStep)
  | contains (key : String)
  | entries
  | raw (name key : String) (other? : Option String)
  | display
  | info
  | close (guard : String)
  | start (name key : String) (mode : LockMode) (spins : Bool)
  | peek (name : String)
  | join (name : String)
  | dropPool
  | unknown

/-- Guards of a script have names; one guard without a name is there for locks held briefly. -/
structure LockPoolWorld where
  pool : LockPool.Pool String (Option String)
  callers : LockCallers Nat := []
  /-- Locks taken out of the pool without a guard: an entry, or a lock of its own. -/
  raws : Table String (Option Nat) := {}
  owned : Bool := true

inductive Unstarted where
  | failed (error : PoolError)
  | aborted (abort : Abort)

structure LockPoolAnswer where
  reply : LockReply
  size? : Option Nat

namespace LockPoolWorld

def start (options : LockPoolOptions) : Except Unstarted LockPoolWorld :=
  match options.validate, LockPool.reserve options with
  | .error error, _ => .error (.failed error)
  | _, .error abort => .error (.aborted abort)
  | .ok _, .ok _ => .ok { pool := .start options }

/-- Lets callers that can have their lock take it, one after another; letting go of it again, they
give up their references. -/
def settle (world : LockPoolWorld) : LockPoolWorld :=
  world.callers.foldl
    (fun world caller =>
      if world.callers.isServed caller (world.pool.lockState caller.lock) then
        { world with
          pool := world.pool.unreference caller.lock
          callers := world.callers.finish caller }
      else world)
    world

def grant? (world : LockPoolWorld) (name : Option String) (id : Nat) (mode : LockMode) :
    Option LockPoolWorld := do
  if world.callers.isGrantable id (world.pool.lockState id) mode then
    let pool ← world.pool.grant? name id mode
    some { world with pool }
  else none

def get? (world : LockPoolWorld) (name : Option String) (key : String) (mode : LockMode) :
    Option LockPoolWorld :=
  let (id, pool) := world.pool.reference key
  { world with pool }.grant? name id mode

def tryGet (world : LockPoolWorld) (name key : String) (mode : LockMode) : Bool × LockPoolWorld :=
  let (id, pool) := world.pool.reference key
  match { world with pool }.grant? (some name) id mode with
  | some world => (true, world)
  | none => (false, { world with pool := pool.unreference id })

def drop (world : LockPoolWorld) (name : Option String) : LockPoolWorld :=
  { world with pool := world.pool.drop name }

def touch? (world : LockPoolWorld) (key : String) (mode : LockMode) : Option LockPoolWorld :=
  (world.get? none key mode).map fun world => world.drop none

def numbered (name : String) (index : Nat) : String := name ++ toString index

def appearanceOf (world : LockPoolWorld) (id : Nat) : RwLock :=
  world.callers.appearance id (world.pool.lockState id)

def entryStates (world : LockPoolWorld) : List (String × RwLock) :=
  (world.pool.store.keys.pairs.map fun pair => (pair.1, world.appearanceOf pair.2)).mergeSort
    fun first second => first.1 ≤ second.1

def takeRaw (world : LockPoolWorld) (name key : String) (other? : Option String) :
    LockReply × LockPoolWorld :=
  let id? := world.pool.store.lookup? key
  let same? :=
    (other?.bind world.raws.get?).map fun other => id?.isSome && id? = other
  let state := (id?.map world.appearanceOf).getD RwLock.free
  (.raw state id?.isSome same?, { world with raws := world.raws.insert name id? })

def askGuard (world : LockPoolWorld) (name : String) : GuardStep → LockReply × LockPoolWorld
  | .mode =>
      (((world.pool.guards.get? (some name)).map fun guard => .mode guard.mode).getD .nothing,
        world)
  | .downgrade =>
      if world.pool.guards.contains (some name) then
        let (done, pool) := world.pool.downgrade (some name)
        (.truth done, { world with pool })
      else (.nothing, world)
  | .same other =>
      (((world.pool.sameLock? (some name) (some other)).map .truth).getD .nothing, world)
  | .describe =>
      (((world.pool.guards.get? (some name)).map fun guard =>
        .described (guard.describe maskedAddress)).getD .nothing, world)
  | .drop => (.truth (world.pool.guards.contains (some name)), world.drop (some name))
  | .panic => (holderFailed, world.drop (some name))

/-- A step that needs the pool; `none` where its caller would wait for ever. -/
def performOnPool? (world : LockPoolWorld) : LockPoolStep → Option (LockReply × LockPoolWorld)
  | .get guard key mode =>
      (world.get? (some guard) key mode).map fun world => (.nothing, world)
  | .tryGet guard key mode =>
      let (granted, world) := world.tryGet guard key mode
      some (.truth granted, world)
  | .touch key mode => (world.touch? key mode).map fun world => (.nothing, world)
  | .fill guard key count mode => do
      let world ← (List.range count).foldlM
        (fun world index => world.get? (some (numbered guard index)) (numbered key index) mode)
        world
      some (.nothing, world)
  | .contains key => some (.truth (world.pool.store.lookup? key).isSome, world)
  | .entries => some (.entries world.entryStates, world)
  | .raw name key other? => some (world.takeRaw name key other?)
  | .display => some (.displayed world.pool.describe, world)
  | .info =>
      some (.watermarks world.pool.store.lowWatermark world.pool.store.highWatermark, world)
  | .close _ => some (.nothing, { world with pool := world.pool.close })
  | .start name key mode spins =>
      let (id, pool) := world.pool.reference key
      some (.nothing,
        { world with
          pool
          callers := world.callers.start name id mode spins })
  | .dropPool => some (.nothing, { world with pool := world.pool.close, owned := false })
  | _ => some (.unfit .unknownStep, world)

def perform? (world : LockPoolWorld) : LockPoolStep → Option (LockReply × LockPoolWorld)
  | .drain guard count =>
      some (.nothing,
        (List.range count).foldl
          (fun world index => world.drop (some (numbered guard index)))
          world)
  | .guard name step => some (world.askGuard name step)
  | .peek name =>
      some (((world.callers.find? name).map fun caller =>
        .waiting !caller.finished).getD .nothing, world)
  | .join name =>
      match world.callers.find? name with
      | none => some (.nothing, world)
      | some caller =>
          if caller.finished then
            some (.mode caller.mode, { world with callers := world.callers.without caller })
          else none
  | .unknown => some (.unfit .unknownStep, world)
  | step =>
      if world.owned then world.performOnPool? step
      else
        match step with
        | .close guard => some (world.askGuard guard .drop)
        | _ => some (.unfit .poolDropped, world)

/-- The answers of a script's steps, up to one that would wait for ever. -/
def script : List LockPoolStep → LockPoolWorld → List LockPoolAnswer
  | [], _ => []
  | step :: rest, world =>
      match world.perform? step with
      | some (reply, world) =>
          let world := world.settle
          ⟨reply, if world.owned then some world.pool.size else none⟩ :: script rest world
      | none => []

end LockPoolWorld

end Pooling.Scenario
