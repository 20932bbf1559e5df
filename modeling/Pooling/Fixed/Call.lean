import Pooling.Fixed.Pool
import Pooling.Time.Moment

/-!
Calls on a fixed pool, step by step. A caller first tries without the lock; a caller that has to
wait takes the lock, looks again, and sleeps. Releasing and closing happen under the lock, which
callers that do not wait go past.
-/

namespace Pooling.Fixed

inductive Patience where
  | never
  | forever
  | until (deadline : Moment) (timeout : Duration)
  deriving DecidableEq

namespace Patience

/-- A deadline too far off to be told never comes. -/
def within (timeout : Duration) (now : Moment) : Patience :=
  match Moment.after? now timeout with
  | some deadline => .until deadline timeout
  | none => .forever

end Patience

inductive Next (R : Type) where
  | finish (outcome : Outcome R)
  | drain (rest : List R)
  deriving DecidableEq

inductive Locked (R : Type) where
  | rechecking (patience : Patience)
  | repopping (patience : Patience)
  | rereserving (patience : Patience)
  | waiting (patience : Patience)
  | announcing (source : String)
  | deciding (resource : R)
  | shutting
  | draining (taken : List R)
  | drained (resource : R) (taken : List R)
  | dismissing (taken : List R)
  deriving DecidableEq

inductive Call (R : Type) where
  | opening (patience : Patience)
  | popping (patience : Patience)
  | reserving (patience : Patience)
  | making
  | made (answer : Made R)
  | returning (resource : R)
  | leaving (resource : R)
  | entering (locked : Locked R)
  | inside (locked : Locked R)
  | parked (patience : Patience)
  | closing (resource : R) (next : Next R)
  | after (next : Next R)
  | done (outcome : Outcome R)
  deriving DecidableEq

namespace Call

variable {R : Type}

def tryAcquire : Call R := opening .never

def acquire : Call R := opening .forever

def acquireWithin (timeout : Duration) (now : Moment) : Call R := opening (.within timeout now)

def release (resource : R) : Call R := returning resource

def close : Call R := entering .shutting

def need : Call R → Need R
  | parked _ => .sleep
  | making => .make
  | closing resource _ => .close resource
  | done outcome => .done outcome
  | _ => .turn

/-- What a step of a call comes to: the pool, the callers it wakes, and the rest of the call. -/
structure Advanced (R : Type) where
  pool : Pool R
  wake : Wake := .nobody
  call : Call R

def acquired (resource : R) (pool : Pool R) : Advanced R :=
  { pool := pool.record .countAcquired, call := done (.acquired resource) }

def advanceLocked (locked : Locked R) (now : Moment) (pool : Pool R) : Advanced R :=
  match locked with
  | .rechecking patience =>
      if pool.closed then { pool, call := done (.failed .cancelled) }
      else { pool, call := inside (.repopping patience) }
  | .repopping patience =>
      match pool.pop? with
      | some (resource, pool) => acquired resource pool
      | none => { pool, call := inside (.rereserving patience) }
  | .rereserving patience =>
      match pool.reserve? with
      | some pool => { pool, call := making }
      | none => { pool, call := inside (.waiting patience) }
  | .waiting (.until deadline timeout) =>
      if deadline ≤ now then
        { pool := pool.record .countTimeout, call := done (.failed (.timeout timeout)) }
      else { pool, call := parked (.until deadline timeout) }
  | .waiting patience => { pool, call := parked patience }
  | .announcing source => { pool, wake := .one, call := done (.failed (.creation source)) }
  | .deciding resource =>
      if pool.closed then { pool, call := leaving resource }
      else { pool := pool.push resource, wake := .one, call := done .released }
  | .shutting =>
      if pool.closed then { pool, call := done .closed }
      else { pool := pool.markClosed, call := inside (.draining []) }
  | .draining taken =>
      match pool.pop? with
      | some (resource, pool) => { pool, call := inside (.drained resource taken) }
      | none => { pool, call := inside (.dismissing taken) }
  | .drained resource taken =>
      { pool := pool.giveUpSlot, call := inside (.draining (taken ++ [resource])) }
  | .dismissing taken => { pool, wake := .everyone, call := after (.drain taken) }

def answered (answer : Made R) (pool : Pool R) : Advanced R :=
  match answer with
  | .ok resource =>
      { pool := (pool.record .countCreated).record .countAcquired
        call := done (.acquired resource) }
  | .failed source => { pool := pool.giveUpSlot, call := entering (.announcing source) }

def proceed (next : Next R) (pool : Pool R) : Advanced R :=
  match next with
  | .finish outcome => { pool, call := done outcome }
  | .drain [] => { pool, call := done .closed }
  | .drain (resource :: rest) => { pool, call := closing resource (.drain rest) }

/-- Takes the next step of a call; entering the lock supposes that nobody is inside. -/
def advance (call : Call R) (now : Moment) (pool : Pool R) : Advanced R :=
  match call with
  | opening patience =>
      if pool.closed then { pool, call := done (.failed .closed) }
      else { pool, call := popping patience }
  | popping patience =>
      match pool.pop? with
      | some (resource, pool) => acquired resource pool
      | none => { pool, call := reserving patience }
  | reserving patience =>
      match pool.reserve?, patience with
      | some pool, _ => { pool, call := making }
      | none, .never => { pool, call := done .nothing }
      | none, patience => { pool, call := entering (.rechecking patience) }
  | made answer => answered answer pool
  | returning resource =>
      { pool := pool.record .countReleased, call := entering (.deciding resource) }
  | leaving resource => { pool := pool.giveUpSlot, call := closing resource (.finish .released) }
  | entering locked => { pool, call := inside locked }
  | inside locked => advanceLocked locked now pool
  | after next => proceed next pool
  | call => { pool, call }

def factoryMade (call : Call R) (answer : Made R) : Call R :=
  match call with
  | making => made answer
  | call => call

/-- The factory is through with closing a resource, well or not. -/
def disposed (call : Call R) : Call R :=
  match call with
  | closing _ next => after next
  | call => call

/-- The sleeping caller was woken, or has slept long enough; it takes the lock again. -/
def woken (call : Call R) : Call R :=
  match call with
  | parked patience => entering (.rechecking patience)
  | call => call

/-- When a sleeping caller looks again by itself. -/
def alarm? (call : Call R) : Option Moment :=
  match call with
  | parked (.until deadline _) => some deadline
  | _ => none

end Call

end Pooling.Fixed
