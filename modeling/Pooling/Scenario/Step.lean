import Pooling.Error
import Pooling.Metrics.Snapshot
import Pooling.Time.Clock

/-!
Scripted runs of a pool: the steps of a script, what its factory is told to do, and what a run
answers.
-/

namespace Pooling.Scenario

structure Making where
  id? : Option UInt32 := none
  failure? : Option String := none
  raise? : Option String := none

inductive Taking where
  | waiting
  | within (timeout : Duration)
  | polling (timeout : Duration)

inductive Step where
  | plan (makings : List (Making × List Step))
  | unhealthy (ids : List UInt32)
  | healthy
  | failClose (ids : List UInt32)
  | checkCost (millis : UInt64)
  | checkHook (hook : List Step)
  | closeHook (hook : List Step)
  | advance (millis : UInt64)
  | set (reading : UInt64)
  | acquire
  | acquireWithin (timeout : Duration)
  | tryAcquire
  | poll (timeout : Duration)
  | release (id : UInt32)
  | collect
  | close
  | awaitSize (size : Nat) (millis : UInt64)
  | capacity
  | describe
  | metrics
  | exported
  | exposition (pool : String) (tags : List (String × String))
  | dropPool
  | scoped (name : String) (timeout? : Option Duration)
  | dropHandle (name : String)
  | forgetHandle (name : String)
  | releaseHandle (name : String)
  | intoInner (name : String)
  | setValue (name : String) (id : UInt32)
  | value (name : String)
  | describeHandle (name : String)
  | start (name : String) (taking : Taking)
  | peek (name : String)
  | join (name : String)
  | joinAll
  | unknown

inductive Unfit where
  | unknownStep
  | poolDropped

inductive Reply where
  | nothing
  | done
  | acquired (id : UInt32)
  | tried (id? : Option UInt32)
  | failed (error : PoolError)
  | aborted (abort : Abort)
  | unfit (unfit : Unfit)
  | truth (value : Bool)
  | number (value : Nat)
  | numbers (values : List Nat)
  | text (value : String)
  | waiting (isWaiting : Bool)
  | snapshot (snapshot : Snapshot)
  | fields (pairs : List (String × String))
  | replies (replies : List Reply)

structure PoolView where
  size : Nat
  available : Nat
  closed : Bool
  inUse? : Option Nat := none
  counter? : Option Int64 := none

inductive Status where
  | hidden
  | dropped (leak? : Option (UInt64 × UInt64))
  | relay
  | pool (view : PoolView) (now? : Option Reading) (scheduled? : Option Nat)
      (leak? : Option (UInt64 × UInt64))

inductive Event where
  | made (id? : Option UInt32)
  | checked (id : UInt32) (healthy : Bool)
  | closed (id : UInt32)
  | released (id : UInt32)
  | closedPool
  | hooked (reply : Reply) (status : Status)
  /-- A step of a hook was abandoned; the hook goes on with its next step. -/
  | hookAborted (abort : Abort)

/-- The answer of a step; events wait for a later answer while the status is hidden. -/
inductive Answer where
  | aborted (abort : Abort)
  | given (reply : Reply) (status : Status) (events : Option (List Event))

end Pooling.Scenario
