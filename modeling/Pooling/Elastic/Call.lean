import Pooling.Elastic.Pool

/-!
Calls on an elastic pool, part by part. `advance` runs the next part of a call whose turn it is;
the other definitions continue a call with what it was waiting for.
-/

namespace Pooling.Elastic

inductive Patience where
  | never
  | forever
  | until (deadline : Reading) (timeout : Duration)
  deriving DecidableEq

namespace Patience

/-- The deadline is fixed at the start of a call. -/
def within (timeout : Duration) (now : Reading) : Patience :=
  .until (now.after timeout.millis) timeout

end Patience

inductive Next (R : Type) where
  | finish (outcome : Outcome R)
  | sweep (rest : List R) (count : Nat)
  | drain (rest : List R)
  | retry (patience : Patience)
  deriving DecidableEq

inductive Call (R : Type) where
  | seeking (patience : Patience) (waited : Bool)
  | parked (patience : Patience)
  | making
  | registering (made : Made R)
  | checking (patience : Patience) (resource : R)
  | condemned (patience : Patience) (resource : R)
  | returning (resource : R) (now : Reading)
  | scanning
  | shutting
  | closing (resource : R) (next : Next R)
  | after (next : Next R)
  | retiring
  | done (outcome : Outcome R)
  deriving DecidableEq

namespace Call

variable {R : Type} [DecidableEq R]

def tryAcquire : Call R := seeking .never false

def acquire : Call R := seeking .forever false

def acquireWithin (timeout : Duration) (now : Reading) : Call R :=
  seeking (.within timeout now) false

def release (resource : R) (now : Reading) : Call R := returning resource now

def collect : Call R := scanning

def close : Call R := shutting

def need : Call R → Need R
  | parked _ => .sleep
  | making => .make
  | checking _ resource => .check resource
  | closing resource _ => .close resource
  | retiring => .retire
  | done outcome => .done outcome
  | _ => .turn

/-- What a part of a call comes to: the pool, the callers it wakes, and the rest of the call. -/
structure Advanced (R : Type) where
  pool : Pool R
  wake : Wake := .nobody
  call : Call R

def timedOut (pool : Pool R) (timeout : Duration) : Advanced R :=
  { pool := pool.record .countTimeout, call := done (.failed (.timeout timeout)) }

/-- A caller that finds no slot gives up, or sleeps until it is woken. -/
def sleepOrGiveUp (patience : Patience) (now : Reading) (pool : Pool R) : Advanced R :=
  match patience with
  | .never => { pool, call := done .nothing }
  | .forever => { pool, call := parked patience }
  | .until deadline timeout =>
      if deadline ≤ now then timedOut pool timeout else { pool, call := parked patience }

def seek (patience : Patience) (waited : Bool) (now : Reading) (pool : Pool R) : Advanced R :=
  match pool.takeSlot with
  | (.closed, pool) => { pool, call := done (.failed (if waited then .cancelled else .closed)) }
  | (.pooled resource, pool) => { pool, call := checking patience resource }
  | (.create, pool) => { pool, call := making }
  | (.full, pool) => sleepOrGiveUp patience now pool

def enroll (made : Made R) (now : Reading) (pool : Pool R) : Advanced R :=
  match pool.register made now with
  | (.kept resource, wake, pool) => { pool, wake, call := done (.acquired resource) }
  | (.failed source, wake, pool) => { pool, wake, call := done (.failed (.creation source)) }
  | (.late resource, wake, pool) =>
      { pool, wake, call := closing resource (.finish (.failed .closed)) }
  | (.duplicate, wake, pool) =>
      { pool, wake, call := done (.failed (.invalidArgument .alreadyTracked)) }

def condemn (patience : Patience) (resource : R) (pool : Pool R) : Advanced R :=
  let (wake, pool) := pool.forget resource
  { pool := pool.record .countUnhealthy, wake, call := closing resource (.retry patience) }

def giveBack (resource : R) (now : Reading) (pool : Pool R) : Advanced R :=
  match pool.release resource now with
  | (.pooled, wake, pool) => { pool, wake, call := done .released }
  | (.toClose, wake, pool) => { pool, wake, call := closing resource (.finish .released) }
  | (.refused misuse, wake, pool) =>
      { pool, wake, call := done (.failed (.invalidArgument misuse)) }

def scan (now : Reading) (pool : Pool R) : Advanced R :=
  let (taken, pool) := pool.collect now
  { pool, call := after (.sweep taken taken.length) }

def shut (pool : Pool R) : Advanced R :=
  match pool.shut with
  | (.alreadyClosed, wake, pool) => { pool, wake, call := done .closed }
  | (.drained resources, wake, pool) => { pool, wake, call := after (.drain resources) }
  | (.aborted abort, wake, pool) => { pool, wake, call := done (.aborted abort) }

/-- A replacement for a discarded resource shares the deadline of the call. -/
def retry (patience : Patience) (now : Reading) (pool : Pool R) : Advanced R :=
  match patience with
  | .until deadline timeout =>
      if deadline ≤ now then timedOut pool timeout else { pool, call := seeking patience false }
  | _ => { pool, call := seeking patience false }

def proceed (next : Next R) (now : Reading) (pool : Pool R) : Advanced R :=
  match next with
  | .finish outcome => { pool, call := done outcome }
  | .sweep [] count => { pool, call := done (.collected count) }
  | .sweep (resource :: rest) count =>
      { pool := pool.record .countCollected, call := closing resource (.sweep rest count) }
  | .drain [] => { pool, call := retiring }
  | .drain (resource :: rest) => { pool, call := closing resource (.drain rest) }
  | .retry patience => retry patience now pool

def advance (call : Call R) (now : Reading) (pool : Pool R) : Advanced R :=
  match call with
  | seeking patience waited => seek patience waited now pool
  | registering made => enroll made now pool
  | condemned patience resource => condemn patience resource pool
  | returning resource reading => giveBack resource reading pool
  | scanning => scan now pool
  | shutting => shut pool
  | after next => proceed next now pool
  | call => { pool, call }

def made (call : Call R) (answer : Made R) : Call R :=
  match call with
  | making => registering answer
  | call => call

def checked (call : Call R) (healthy : Bool) (pool : Pool R) : Pool R × Call R :=
  match call with
  | checking patience resource =>
      if healthy then (pool.record .countAcquired, done (.acquired resource))
      else (pool, condemned patience resource)
  | call => (pool, call)

/-- The factory is through with closing a resource, well or not. -/
def disposed (call : Call R) : Call R :=
  match call with
  | closing _ next => after next
  | call => call

/-- The sleeping caller was woken, or has slept long enough. -/
def woken (call : Call R) : Call R :=
  match call with
  | parked patience => seeking patience true
  | call => call

/-- The owner of the pool has seen to what is left after closing. -/
def retired (call : Call R) : Call R :=
  match call with
  | retiring => done .closed
  | call => call

/-- When a sleeping caller looks again by itself. -/
def alarm? (call : Call R) : Option Reading :=
  match call with
  | parked (.until deadline _) => some deadline
  | _ => none

end Call

end Pooling.Elastic
