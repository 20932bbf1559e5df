import Pooling.Fixed.Call
import Pooling.Proofs.Runs
import Pooling.Proofs.Waking

/-!
Callers at work on one fixed pool. Each of them is in one call at a time, and their calls go on step
by step, in any order, with one of them at most inside the pool's lock. What the factory made and
was given to close is kept as well.
-/

namespace Pooling.Fixed

variable {R : Type}

/-- What a caller asks of a pool. -/
inductive Request (R : Type) where
  | tryAcquire
  | acquire
  | acquireWithin (timeout : Duration)
  | release (resource : R)
  | close
  deriving DecidableEq

def Request.call (now : Moment) : Request R → Call R
  | tryAcquire => .tryAcquire
  | acquire => .acquire
  | acquireWithin timeout => .acquireWithin timeout now
  | release resource => .release resource
  | close => .close

namespace Call

def isInside : Call R → Bool
  | inside _ => true
  | _ => false

def isEntering : Call R → Bool
  | entering _ => true
  | _ => false

def isParked : Call R → Bool
  | parked _ => true
  | _ => false

/-- Whether a call takes the lock to look at the pool again, or has it and has not seen all yet. -/
def isLooking : Call R → Bool
  | entering (.rechecking _) => true
  | inside (.rechecking _) => true
  | inside (.repopping _) => true
  | inside (.rereserving _) => true
  | _ => false

end Call

/-- What can happen to a call: it begins, it has its turn, the factory answers it or is through with
its resource, it has slept long enough, or the factory raises. -/
inductive Move (R : Type) where
  | begin (request : Request R) (now : Moment)
  | turn (now : Moment)
  | make (answer : Made R)
  | dispose
  | oversleep
  | raise (text : String)
  deriving DecidableEq

namespace Move

def perform? (move : Move R) (call : Call R) (pool : Pool R) : Option (Call.Advanced R) :=
  match move, call.need with
  | begin request now, .done _ => some { pool, call := request.call now }
  | turn now, .turn => some (call.advance now pool)
  | make answer, .make => some { pool, call := call.factoryMade answer }
  | dispose, .close _ => some { pool, call := call.disposed }
  | oversleep, .sleep => call.alarm?.map fun _ => { pool, call := call.woken }
  | raise text, .make => some { pool, call := .done (.aborted (.raised text)) }
  | raise text, .close _ => some { pool, call := .done (.aborted (.raised text)) }
  | _, _ => none

/-- The resource that the factory makes in a move. -/
def makes : Move R → List R
  | make (.ok resource) => [resource]
  | _ => []

/-- The resource that the factory is given to close in a move. -/
def disposes (move : Move R) (call : Call R) : List R :=
  match move, call with
  | dispose, .closing resource _ => [resource]
  | raise _, .closing resource _ => [resource]
  | _, _ => []

end Move

/-- A caller: the call it is in, or was in last, and the resources it holds. -/
structure Caller (R : Type) where
  call : Call R := .done .nothing
  held : List R := []
  /-- A signal has woken the caller, and it has not looked at the pool again. -/
  called : Bool := false
  deriving DecidableEq

namespace Caller

/-- A caller hands over what it gives back when it asks for that, and holds what it has acquired. -/
def follow [DecidableEq R] (caller : Caller R) (move : Move R) (call : Call R) : Caller R where
  call := call
  held :=
    match move, call with
    -- From here on the call has the resource, until it is in the queue or given up.
    | .begin (.release resource) _, _ => caller.held.erase resource
    | _, .done (.acquired resource) => resource :: caller.held
    | _, _ => caller.held
  called := caller.called && call.isLooking

@[simp] theorem call_follow [DecidableEq R] (caller : Caller R) (move : Move R) (call : Call R) :
    (caller.follow move call).call = call := rfl

def isParked (caller : Caller R) : Bool := caller.call.isParked

def woken (caller : Caller R) : Caller R where
  call := caller.call.woken
  held := caller.held
  called := caller.called || caller.isParked

end Caller

/-- Wakes sleeping callers; where one is to be woken, it is the one of the given number. -/
abbrev wake? : Wake → Nat → List (Caller R) → Option (List (Caller R)) :=
  Waking.wake? Caller.isParked Caller.woken

/-- What happens next: a move of one caller's call, which may wake another caller. -/
structure Event (R : Type) where
  caller : Nat
  move : Move R
  sleeper : Nat := 0
  deriving DecidableEq

structure System (R : Type) where
  pool : Pool R
  callers : List (Caller R)
  /-- The resources that the factory made, oldest first. -/
  made : List R := []
  /-- The resources that the factory was given to close, oldest first. -/
  disposed : List R := []

namespace System

def start (maxCapacity : UInt64) (count : Nat) : System R where
  pool := { maxCapacity := maxCapacity.toNat }
  callers := List.replicate count {}

theorem eq_of_mem_start {maxCapacity : UInt64} {count : Nat} {caller : Caller R}
    (hcaller : caller ∈ (start maxCapacity count).callers) : caller = {} :=
  List.eq_of_mem_replicate hcaller

/-- Somebody is inside the lock. -/
def isLocked (system : System R) : Bool := system.callers.any fun caller => caller.call.isInside

variable [DecidableEq R]

def step? (system : System R) (event : Event R) : Option (System R) := do
  let caller ← system.callers[event.caller]?
  if caller.call.isEntering && system.isLocked then none
  else
    let advanced ← event.move.perform? caller.call system.pool
    let callers ← wake? advanced.wake event.sleeper
      (system.callers.set event.caller (caller.follow event.move advanced.call))
    some {
      pool := advanced.pool
      callers
      made := system.made ++ event.move.makes
      disposed := system.disposed ++ event.move.disposes caller.call }

/-- Which events a run may have. -/
abbrev Law (R : Type) := System R → Event R → Bool

def anyhow : Law R := fun _ _ => true

abbrev Reaches (law : Law R) : System R → System R → Prop := Runs.Reaches step? law

abbrev run? (law : Law R) : List (Event R) → System R → Option (System R) := Runs.run? step? law

/-- What an event does: the move of its caller's call, and what the rest of the system makes of
it. -/
structure Stepped (before : System R) (event : Event R) (after : System R) (caller : Caller R)
    (advanced : Call.Advanced R) : Prop where
  caller_at : before.callers[event.caller]? = some caller
  lock_free : caller.call.isEntering = true → before.isLocked = false
  performed : event.move.perform? caller.call before.pool = some advanced
  pool_eq : after.pool = advanced.pool
  woken : wake? advanced.wake event.sleeper
    (before.callers.set event.caller (caller.follow event.move advanced.call)) =
      some after.callers
  made_eq : after.made = before.made ++ event.move.makes
  disposed_eq : after.disposed = before.disposed ++ event.move.disposes caller.call

theorem stepped_of_step? {before after : System R} {event : Event R}
    (hstep : before.step? event = some after) :
    ∃ caller advanced, Stepped before event after caller advanced := by
  obtain ⟨caller, hcaller, hstep⟩ := Option.bind_eq_some_iff.mp hstep
  split at hstep
  next => cases hstep
  next hfree =>
    simp only [Option.bind_eq_bind, Option.bind_eq_some_iff, Option.some.injEq] at hstep
    obtain ⟨advanced, hperformed, callers, hwoken, rfl⟩ := hstep
    refine ⟨caller, advanced, hcaller, ?_, hperformed, rfl, hwoken, rfl, rfl⟩
    simpa using hfree

theorem Reaches.stepwise {law : Law R} {before after : System R}
    (hreaches : Reaches law before after) (holds : System R → Prop) (hstart : holds before)
    (hkept : ∀ {system next : System R} {event : Event R} {caller : Caller R}
      {advanced : Call.Advanced R}, holds system → law system event = true →
      Stepped system event next caller advanced → holds next) : holds after := by
  refine hreaches.invariant holds hstart ?_
  intro system next event hholds hlaw hstep
  obtain ⟨caller, advanced, hstepped⟩ := stepped_of_step? hstep
  exact hkept hholds hlaw hstepped

namespace Stepped

variable {before after : System R} {event : Event R} {caller : Caller R}
  {advanced : Call.Advanced R}

theorem tally_eq (hstepped : Stepped before event after caller advanced)
    (measure : Caller R → Nat) (hsame : ∀ caller, measure caller.woken = measure caller) :
    tally measure after.callers + measure caller =
      tally measure before.callers + measure (caller.follow event.move advanced.call) :=
  Waking.tally_step hstepped.caller_at hstepped.woken hsame

theorem mem_callers (hstepped : Stepped before event after caller advanced) :
    caller ∈ before.callers :=
  List.mem_of_getElem? hstepped.caller_at

theorem forall_callers (hstepped : Stepped before event after caller advanced)
    {holds : Caller R → Prop} (hwoken : ∀ caller, holds caller → holds caller.woken)
    (hbefore : ∀ caller ∈ before.callers, holds caller)
    (hmoved : holds (caller.follow event.move advanced.call)) :
    ∀ caller ∈ after.callers, holds caller :=
  Waking.forall_step hstepped.caller_at hstepped.woken hwoken hbefore hmoved

end Stepped

end System

end Pooling.Fixed
