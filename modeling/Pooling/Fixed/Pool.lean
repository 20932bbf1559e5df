import Pooling.Metrics.Snapshot
import Pooling.Pool.Call
import Pooling.Text.Describe

/-!
The fixed pool: resources are made on demand up to a capacity, wait in a queue, and stay until the
pool is closed. Each definition here is one atomic step.
-/

namespace Pooling.Fixed

structure Pool (R : Type) where
  maxCapacity : Nat
  queue : List R := []
  /-- Resources made and not closed, with the slots reserved for those in the making. -/
  capacity : UInt64 := 0
  closed : Bool := false
  totals : Totals := {}
  deriving DecidableEq

namespace Pool

variable {R : Type}

def start? (maxCapacity : Nat) : Except PoolError (Pool R) :=
  if maxCapacity = 0 then .error (.invalidArgument .noCapacity) else .ok { maxCapacity }

def size (pool : Pool R) : Nat := pool.capacity.toNat

def record (pool : Pool R) (count : Totals → Totals) : Pool R :=
  { pool with totals := count pool.totals }

def pop? (pool : Pool R) : Option (R × Pool R) :=
  match pool.queue with
  | [] => none
  | resource :: queue => some (resource, { pool with queue })

def push (pool : Pool R) (resource : R) : Pool R := { pool with queue := pool.queue ++ [resource] }

def reserve? (pool : Pool R) : Option (Pool R) :=
  if pool.size < pool.maxCapacity then some { pool with capacity := pool.capacity + 1 } else none

def giveUpSlot (pool : Pool R) : Pool R := { pool with capacity := pool.capacity - 1 }

def markClosed (pool : Pool R) : Pool R := { pool with closed := true }

def snapshot (pool : Pool R) : Snapshot :=
  Snapshot.take pool.totals pool.size pool.queue.length pool.maxCapacity

def describe (pool : Pool R) : String :=
  Describe.record "ResourcePool"
    [("size", toString pool.size),
      ("available", toString pool.queue.length),
      ("max_capacity", toString pool.maxCapacity),
      ("closed", Describe.bool pool.closed)]

end Pool

end Pooling.Fixed
