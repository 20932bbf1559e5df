import Pooling.Metrics.Counter
import Pooling.Metrics.Snapshot
import Pooling.Options
import Pooling.Pool.Call
import Pooling.Table

/-!
The elastic pool: it grows on demand up to a capacity, checks what it hands out again, and lets
idle resources go. Each definition here is one section under the pool's lock.
-/

namespace Pooling.Elastic

structure Tracked where
  lifetime : Lifetime
  inUse : Bool
  deriving DecidableEq

structure Pool (R : Type) where
  maxCapacity : Nat
  minCapacity : Nat
  selection : Selection
  expiry : Expiry
  available : List R := []
  tracked : Table R Tracked := {}
  creating : Nat := 0
  closed : Bool := false
  counter : Counter := Counter.silent
  totals : Totals := {}

inductive Slot (R : Type) where
  | pooled (resource : R)
  | create
  | closed
  | full
  deriving DecidableEq

namespace Pool

variable {R : Type} [DecidableEq R]

def start (options : ElasticOptions) (counter : Counter) : Pool R where
  maxCapacity := options.maxCapacity
  minCapacity := options.minCapacity
  selection := options.selection
  expiry := options.expiry
  counter := counter

def size (pool : Pool R) : Nat := pool.tracked.size

/-- The resources checked out, which is an abort where more are available than tracked. -/
def inUse (pool : Pool R) : Except Abort Nat :=
  if pool.available.length ≤ pool.size then .ok (pool.size - pool.available.length)
  else .error .countUnderflow

def record (pool : Pool R) (count : Totals → Totals) : Pool R :=
  { pool with totals := count pool.totals }

/-- The available resource whose turn it is, and the others. -/
def choose? (selection : Selection) (available : List R) : Option (R × List R) :=
  match selection with
  | .lifo => available.head?.map fun resource => (resource, available.tail)
  | .fifo => available.getLast?.map fun resource => (resource, available.dropLast)

def checkOut (pool : Pool R) (resource : R) (rest : List R) : Pool R :=
  { pool with
    available := rest
    tracked := pool.tracked.modify resource fun tracked => { tracked with inUse := true } }

/-- Looks for a slot: an available resource, room for a new one, or neither. -/
def takeSlot (pool : Pool R) : Slot R × Pool R :=
  if pool.closed then (.closed, pool)
  else
    match choose? pool.selection pool.available with
    | some (resource, rest) => (.pooled resource, pool.checkOut resource rest)
    | none =>
        if pool.size + pool.creating < pool.maxCapacity then
          (.create, { pool with creating := pool.creating + 1 })
        else (.full, pool)

/-- What becomes of a reserved slot once the factory has answered. -/
inductive Registered (R : Type) where
  | kept (resource : R)
  | failed (source : String)
  | late (resource : R)
  | duplicate
  deriving DecidableEq

def track (pool : Pool R) (resource : R) (now : Reading) : Pool R :=
  { pool with
    tracked := pool.tracked.insert resource ⟨Lifetime.start now, true⟩
    counter := pool.counter.up
    totals := pool.totals.countCreated.countAcquired }

def register (pool : Pool R) (made : Made R) (now : Reading) : Registered R × Wake × Pool R :=
  let pool := { pool with creating := pool.creating - 1 }
  match made with
  | .failed source => (.failed source, .one, pool)
  | .ok resource =>
      if pool.closed then (.late resource, .nobody, pool)
      else if pool.tracked.contains resource then (.duplicate, .one, pool)
      else (.kept resource, .nobody, pool.track resource now)

def untrack (pool : Pool R) (resource : R) : Pool R :=
  { pool with tracked := pool.tracked.erase resource, counter := pool.counter.down }

/-- Gives up a checked-out resource that failed its check; its capacity is free again. -/
def forget (pool : Pool R) (resource : R) : Wake × Pool R :=
  (.one, if pool.tracked.contains resource then pool.untrack resource else pool)

inductive Returned where
  | pooled
  | toClose
  | refused (misuse : Misuse)
  deriving DecidableEq

def markReturned (pool : Pool R) (resource : R) (now : Reading) : Pool R :=
  { pool with
    tracked := pool.tracked.modify resource fun tracked =>
      { lifetime := tracked.lifetime.touch now, inUse := false }
    totals := pool.totals.countReleased }

def release (pool : Pool R) (resource : R) (now : Reading) : Returned × Wake × Pool R :=
  match pool.tracked.get? resource with
  | none => (.refused .notAcquired, .nobody, pool)
  | some tracked =>
      if !tracked.inUse then (.refused .alreadyReleased, .nobody, pool)
      else
        let pool := pool.markReturned resource now
        if pool.closed then (.toClose, .nobody, pool.untrack resource)
        else (.pooled, .one, { pool with available := resource :: pool.available })

def isExpired (pool : Pool R) (now : Reading) (resource : R) : Bool :=
  match pool.tracked.get? resource with
  | some tracked => pool.expiry.expired tracked.lifetime now
  | none => false

/-- Takes expired resources out of the pool while it is above its least size, in the order of the
list; answers with the resources taken and those left. -/
def sweep (now : Reading) : List R → Pool R → List R × List R × Pool R
  | [], pool => ([], [], pool)
  | resource :: available, pool =>
      if pool.minCapacity < pool.size ∧ pool.isExpired now resource then
        let (taken, kept, pool) := sweep now available (pool.untrack resource)
        (resource :: taken, kept, pool)
      else
        let (taken, kept, pool) := sweep now available pool
        (taken, resource :: kept, pool)

def collect (pool : Pool R) (now : Reading) : List R × Pool R :=
  if pool.closed then ([], pool)
  else
    let (taken, kept, pool) := sweep now pool.available pool
    (taken, { pool with available := kept })

inductive Shut (R : Type) where
  | alreadyClosed
  | drained (resources : List R)
  | aborted (abort : Abort)

def shut (pool : Pool R) : Shut R × Wake × Pool R :=
  if pool.closed then (.alreadyClosed, .nobody, pool)
  else
    match pool.inUse with
    | .error abort => (.aborted abort, .nobody, { pool with closed := true })
    | .ok _ =>
        (.drained pool.available, .everyone,
          pool.available.foldl untrack { pool with closed := true, available := [] })

def snapshot (pool : Pool R) : Snapshot :=
  Snapshot.take pool.totals pool.size pool.available.length pool.maxCapacity

def describe (pool : Pool R) : String :=
  Describe.record "DynamicResourcePool"
    [("size", toString pool.size),
      ("available", toString pool.available.length),
      ("min_capacity", toString pool.minCapacity),
      ("max_capacity", toString pool.maxCapacity),
      ("selection_policy", pool.selection.name),
      ("closed", Describe.bool pool.closed)]

end Pool

end Pooling.Elastic
