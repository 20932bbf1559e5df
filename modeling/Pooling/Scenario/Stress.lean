import Pooling.Scenario.LockPoolScript
import Pooling.Scenario.Script

/-!
Crowds on a pool: callers that take a handle and let go of it again, in groups as large as the
pool allows, and what must hold however many they are.
-/

namespace Pooling.Scenario

structure Crowd where
  errors : Nat := 0
  handedOutTwice : Nat := 0
  overCapacity : Bool := false

structure StressReport where
  crowd : Crowd
  sizeOk : Bool
  acquired : UInt64
  released : UInt64
  inUse : Nat
  idleIsLive : Bool
  createdIsLive : Bool
  sizeAfterClose : Nat

namespace Run

variable {σ κ : Type} [Managed σ κ]

def callerName (index : Nat) : String := toString index

/-- One group: everybody takes a handle before anybody lets go. -/
def group (size capacity : Nat) (crowd : Crowd) : Run σ κ Crowd := do
  let mut held : List UInt32 := []
  let mut errors := crowd.errors
  let mut twice := crowd.handedOutTwice
  for index in List.range size do
    match ← perform patience (.scoped (callerName index) none) with
    | .acquired id =>
        if held.contains id then twice := twice + 1
        held := id :: held
    | _ => errors := errors + 1
  for index in List.range size do
    let _ ← perform patience (.dropHandle (callerName index))
  let overCapacity := crowd.overCapacity || capacity < held.length
  return { errors, handedOutTwice := twice, overCapacity }

def groups (most capacity : Nat) : Nat → Nat → Crowd → Run σ κ Crowd
  | 0, _, crowd => return crowd
  | fuel + 1, calls, crowd =>
      if calls = 0 then return crowd
      else do
        let size := min calls most
        groups most capacity fuel (calls - size) (← group size capacity crowd)

def viewedSize : Run σ κ Nat := do
  match Managed.view (← get).pool with
  | .ok view => return view.size
  | .error abort => throw (.abort abort)

def stress (callers calls capacity : Nat) : Run σ κ StressReport := do
  let crowd ← groups (min callers capacity) capacity calls calls {}
  let size ← viewedSize
  let snapshot := Managed.snapshot (← get).pool
  let _ ← perform patience .close
  return {
    crowd
    sizeOk := 0 < size && size ≤ capacity
    acquired := snapshot.totals.acquired
    released := snapshot.totals.released
    inUse := snapshot.inUse
    idleIsLive := snapshot.available = snapshot.live
    createdIsLive := snapshot.totals.created.toNat = snapshot.live
    sizeAfterClose := ← viewedSize }

end Run

/-- A crowd on the locks of a pool: while one holds the lock of a shared key, nobody else writes
under it, whatever happens to the other keys. Counts the grants that break this. -/
def lockViolations : Nat → LockPoolWorld → Nat
  | 0, _ => 0
  | calls + 1, world =>
      let mode := if calls % 2 = 0 then LockMode.read else LockMode.write
      match world.get? (some "holder") "shared" mode with
      | none => 0
      | some world =>
          let (granted, world) := world.tryGet "intruder" "shared" .write
          let world := (world.touch? ("other" ++ toString calls) mode).getD world
          let world := (world.drop (some "intruder")).drop (some "holder")
          (if granted then 1 else 0) + lockViolations calls world

end Pooling.Scenario
