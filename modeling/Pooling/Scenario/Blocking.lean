import Pooling.Locks.RwLock
import Pooling.Scenario.Step

/-!
Callers in the background that take a lock and let go of it at once. One that queues for writing
keeps new readers out; one that tries again and again keeps nobody out.
-/

namespace Pooling.Scenario

structure LockCaller (ι : Type) where
  /-- No two callers of a script share it. -/
  number : Nat
  name : String
  lock : ι
  mode : LockMode
  spins : Bool
  finished : Bool := false
  /-- Another caller has taken its name: it goes on, but nobody can ask for it any more. -/
  detached : Bool := false

namespace LockCaller

variable {ι : Type}

def finish (caller : LockCaller ι) : LockCaller ι := { caller with finished := true }

def isNamed (caller : LockCaller ι) (name : String) : Bool :=
  !caller.detached && caller.name = name

def detach (caller : LockCaller ι) : LockCaller ι := { caller with detached := true }

end LockCaller

/-- In the order in which they began. -/
abbrev LockCallers (ι : Type) := List (LockCaller ι)

namespace LockCallers

variable {ι : Type} [DecidableEq ι]

def isClaimed (callers : LockCallers ι) (lock : ι) : Bool :=
  callers.any fun caller =>
    !caller.finished && !caller.spins && caller.lock = lock && caller.mode = .write

def isGrantable (callers : LockCallers ι) (lock : ι) (state : RwLock) (mode : LockMode) : Bool :=
  (state.take? mode).isSome && (state.isFree || !callers.isClaimed lock)

/-- How a lock looks from outside: a writer that queues has claimed it. -/
def appearance (callers : LockCallers ι) (lock : ι) (state : RwLock) : RwLock :=
  if callers.isClaimed lock then .exclusive else state

omit [DecidableEq ι] in
def without (callers : LockCallers ι) (caller : LockCaller ι) : LockCallers ι :=
  callers.filter fun other => other.number ≠ caller.number

def isServed (callers : LockCallers ι) (caller : LockCaller ι) (state : RwLock) : Bool :=
  !caller.finished && (callers.without caller).isGrantable caller.lock state caller.mode

omit [DecidableEq ι] in
def find? (callers : LockCallers ι) (name : String) : Option (LockCaller ι) :=
  List.find? (fun caller => caller.isNamed name) callers

omit [DecidableEq ι] in
def start (callers : LockCallers ι) (name : String) (lock : ι) (mode : LockMode) (spins : Bool) :
    LockCallers ι :=
  let number := callers.foldl (fun next caller => max next (caller.number + 1)) 0
  let caller : LockCaller ι := { number, name, lock, mode, spins }
  (callers.map fun other => if other.isNamed name then other.detach else other) ++ [caller]

omit [DecidableEq ι] in
def finish (callers : LockCallers ι) (caller : LockCaller ι) : LockCallers ι :=
  callers.map fun other => if other.number = caller.number then other.finish else other

omit [DecidableEq ι] in
def areExpected (callers : LockCallers ι) : Bool := callers.any fun caller => !caller.detached

end LockCallers

inductive LockReply where
  | nothing
  | truth (value : Bool)
  | mode (mode : LockMode)
  | described (text : String)
  | waiting (isWaiting : Bool)
  | raised (text : String)
  | unfit (unfit : Unfit)
  | entries (states : List (String × RwLock))
  | watermarks (low high : Nat)
  | raw (state : RwLock) (pooled : Bool) (same? : Option Bool)
  | displayed (text : String)

inductive GuardStep where
  | mode
  | downgrade
  | same (other : String)
  | describe
  | drop
  | panic

def holderFailed : LockReply := .raised "holder failed"

def maskedAddress : String := "0x_"

end Pooling.Scenario
