import Pooling.Error
import Pooling.Resource.Leak

/-!
Scoped handles: a resource that goes back to its pool when the handle ends, if the pool is still
there, and the registration of the handle with the pool's leak detector. The end of a handle is
taken apart where something else may happen in between.
-/

namespace Pooling

structure Handle (R : Type) where
  resource : R
  tracker : Option LeakTracker
  deriving DecidableEq

namespace Handle

def write (handle : Handle R) (resource : R) : Handle R := { handle with resource }

def describe (handle : Handle R) (write : R → String) (pool : String) : String :=
  Describe.record "PooledResource"
    [("resource", Describe.optional (some (write handle.resource))), ("pool", pool)]

def describeResource (handle : Handle R) (write : R → String) : String :=
  "PooledResource \x7b " ++
    Describe.field "resource" (Describe.optional (some (write handle.resource)))

end Handle

/-- What a handle that ends has still to do: find its pool, give the resource back, let go of the
pool again, report that the pool is gone, end its registration. -/
inductive Ending (R : Type) where
  | upgrading (resource : R) (tracker : Option LeakTracker)
  | releasing (resource : R) (tracker : Option LeakTracker)
  | lettingGo (result : Except PoolError Unit) (tracker : Option LeakTracker)
  | reporting
  | untracking (result : Except PoolError Unit) (tracker : Option LeakTracker)
  | done (result : Except PoolError Unit)

namespace Ending

variable {R : Type}

def start (handle : Handle R) : Ending R := upgrading handle.resource handle.tracker

/-- Looks for the pool; a handle without a registration has nothing to report. -/
def upgraded (ending : Ending R) (alive : Bool) : Ending R :=
  match ending with
  | upgrading resource tracker =>
      if alive then releasing resource tracker
      else if tracker.isSome then reporting
      else done (.ok ())
  | ending => ending

def released (ending : Ending R) (result : Except PoolError Unit) : Ending R :=
  match ending with
  | releasing _ tracker => lettingGo result tracker
  | ending => ending

def letGone (ending : Ending R) : Ending R :=
  match ending with
  | lettingGo result tracker => untracking result tracker
  | ending => ending

def reported (ending : Ending R) : Ending R :=
  match ending with
  | reporting => untracking (.ok ()) (some {})
  | ending => ending

def untracked (ending : Ending R) : Ending R :=
  match ending with
  | untracking result _ => done result
  | ending => ending

end Ending

end Pooling
