import Pooling.Elastic.Call
import Pooling.Proofs.Runs
import Pooling.Proofs.Waking

/-!
Callers at work on one elastic pool. Each of them is in one call at a time, and their calls go on
part by part, in any order. What the factory made and was given to close is kept as well.
-/

namespace Pooling.Elastic

variable {R : Type} [DecidableEq R]

/-- What a caller asks of a pool. -/
inductive Request (R : Type) where
  | tryAcquire
  | acquire
  | acquireWithin (timeout : Duration)
  | release (resource : R)
  | collect
  | close
  deriving DecidableEq

def Request.call (now : Reading) : Request R → Call R
  | tryAcquire => .tryAcquire
  | acquire => .acquire
  | acquireWithin timeout => .acquireWithin timeout now
  | release resource => .release resource now
  | collect => .collect
  | close => .close

/-- What can happen to a call: it begins, it has its turn, the factory answers it or is through with
its resource, it has slept long enough, its owner has seen to the rest, or the factory raises. -/
inductive Move (R : Type) where
  | begin (request : Request R) (now : Reading)
  | turn (now : Reading)
  | make (answer : Made R)
  | check (healthy : Bool)
  | dispose
  | oversleep
  | retire
  | raise (text : String)
  deriving DecidableEq

namespace Move

def perform? (move : Move R) (call : Call R) (pool : Pool R) : Option (Call.Advanced R) :=
  match move, call.need with
  | begin request now, .done _ => some { pool, call := request.call now }
  | turn now, .turn => some (call.advance now pool)
  | make answer, .make => some { pool, call := call.made answer }
  | check healthy, .check _ =>
      some { pool := (call.checked healthy pool).1, call := (call.checked healthy pool).2 }
  | dispose, .close _ => some { pool, call := call.disposed }
  | oversleep, .sleep => call.alarm?.map fun _ => { pool, call := call.woken }
  | retire, .retire => some { pool, call := call.retired }
  | raise text, .make => some { pool, call := .done (.aborted (.raised text)) }
  | raise text, .check _ => some { pool, call := .done (.aborted (.raised text)) }
  | raise text, .close _ => some { pool, call := .done (.aborted (.raised text)) }
  | _, _ => none

/-- The resource that the factory makes in a move. -/
def makes : Move R → List R
  | make (.ok resource) => [resource]
  | _ => []

/-- The resource that the factory is given to close in a move. -/
def disposes (move : Move R) (call : Call R) : List R :=
  match move, call with
  | dispose, .closing resource _ => [resource]
  | raise _, .closing resource _ => [resource]
  | _, _ => []

end Move

/-- A caller: the call it is in, or was in last, and the resources it holds. -/
structure Caller (R : Type) where
  call : Call R := .done .nothing
  held : List R := []
  deriving DecidableEq

namespace Caller

/-- A caller hands over what it gives back when it asks for that, and holds what it has acquired. -/
def follow (caller : Caller R) (move : Move R) (call : Call R) : Caller R where
  call := call
  held :=
    match move, call with
    -- From here on the call has the resource, until its section gives it back.
    | .begin (.release resource) _, _ => caller.held.erase resource
    | _, .done (.acquired resource) => resource :: caller.held
    | _, _ => caller.held

def woken (caller : Caller R) : Caller R := { caller with call := caller.call.woken }

def isParked (caller : Caller R) : Bool :=
  match caller.call with
  | .parked _ => true
  | _ => false

end Caller

/-- Wakes sleeping callers; where one is to be woken, it is the one of the given number. -/
def wake? (wake : Wake) (sleeper : Nat) (callers : List (Caller R)) : Option (List (Caller R)) :=
  match wake with
  | .nobody => some callers
  -- A signal that finds nobody asleep is lost, as a condition variable keeps none.
  | .one =>
      if callers.any Caller.isParked then
        (callers[sleeper]?.filter Caller.isParked).map fun caller =>
          callers.set sleeper caller.woken
      else some callers
  | .everyone => some (callers.map Caller.woken)

/-- What happens next: a move of one caller's call, which may wake another caller. -/
structure Event (R : Type) where
  caller : Nat
  move : Move R
  sleeper : Nat := 0
  deriving DecidableEq

structure System (R : Type) where
  pool : Pool R
  callers : List (Caller R)
  /-- The resources that the factory made, oldest first. -/
  made : List R := []
  /-- The resources that the factory was given to close, oldest first. -/
  disposed : List R := []

namespace System

def start (options : ElasticOptions) (counter : Counter) (count : Nat) : System R where
  pool := Pool.start options counter
  callers := List.replicate count {}

omit [DecidableEq R] in
theorem eq_of_mem_start {options : ElasticOptions} {counter : Counter} {count : Nat}
    {caller : Caller R} (hcaller : caller ∈ (start options counter count).callers) :
    caller = {} :=
  List.eq_of_mem_replicate hcaller

def step? (system : System R) (event : Event R) : Option (System R) := do
  let caller ← system.callers[event.caller]?
  let advanced ← event.move.perform? caller.call system.pool
  let callers ← wake? advanced.wake event.sleeper
    (system.callers.set event.caller (caller.follow event.move advanced.call))
  some {
    pool := advanced.pool
    callers
    made := system.made ++ event.move.makes
    disposed := system.disposed ++ event.move.disposes caller.call }

/-- Which events a run may have. -/
abbrev Law (R : Type) := System R → Event R → Bool

def anyhow : Law R := fun _ _ => true

abbrev Reaches (law : Law R) : System R → System R → Prop := Runs.Reaches step? law

abbrev run? (law : Law R) : List (Event R) → System R → Option (System R) := Runs.run? step? law

/-- What an event does: the move of its caller's call, and what the rest of the system makes of
it. -/
structure Stepped (before : System R) (event : Event R) (after : System R) (caller : Caller R)
    (advanced : Call.Advanced R) : Prop where
  caller_at : before.callers[event.caller]? = some caller
  performed : event.move.perform? caller.call before.pool = some advanced
  pool_eq : after.pool = advanced.pool
  woken : wake? advanced.wake event.sleeper
    (before.callers.set event.caller (caller.follow event.move advanced.call)) =
      some after.callers
  made_eq : after.made = before.made ++ event.move.makes
  disposed_eq : after.disposed = before.disposed ++ event.move.disposes caller.call

theorem stepped_of_step? {before after : System R} {event : Event R}
    (hstep : before.step? event = some after) :
    ∃ caller advanced, Stepped before event after caller advanced := by
  simp only [step?, Option.bind_eq_bind, Option.bind_eq_some_iff, Option.some.injEq] at hstep
  obtain ⟨caller, hcaller, advanced, hperformed, callers, hwoken, rfl⟩ := hstep
  exact ⟨caller, advanced, hcaller, hperformed, rfl, hwoken, rfl, rfl⟩

theorem Reaches.stepwise {law : Law R} {before after : System R}
    (hreaches : Reaches law before after) (holds : System R → Prop) (hstart : holds before)
    (hkept : ∀ {system next : System R} {event : Event R} {caller : Caller R}
      {advanced : Call.Advanced R}, holds system → law system event = true →
      Stepped system event next caller advanced → holds next) : holds after := by
  refine hreaches.invariant holds hstart ?_
  intro system next event hholds hlaw hstep
  obtain ⟨caller, advanced, hstepped⟩ := stepped_of_step? hstep
  exact hkept hholds hlaw hstepped

end System

omit [DecidableEq R] in
theorem Call.eq_of_need {call : Call R} {outcome : Outcome R} (hneed : call.need = .done outcome) :
    call = .done outcome := by
  cases call with
  | done => cases hneed; rfl
  | _ => cases hneed

omit [DecidableEq R] in
theorem Call.eq_of_woken {call next : Call R} (hwoken : call.woken = next)
    (hnot : ∀ patience waited, next ≠ .seeking patience waited) : call = next := by
  cases call with
  | parked patience => exact absurd hwoken.symm (hnot _ _)
  | _ => exact hwoken

@[simp] theorem Caller.call_follow (caller : Caller R) (move : Move R) (call : Call R) :
    (caller.follow move call).call = call := rfl

omit [DecidableEq R] in
theorem wake?_eq (wake : Wake) (sleeper : Nat) (callers : List (Caller R)) :
    wake? wake sleeper callers =
      Waking.wake? Caller.isParked Caller.woken wake sleeper callers := by
  cases wake <;> rfl

namespace System

namespace Stepped

variable {before after : System R} {event : Event R} {caller : Caller R}
  {advanced : Call.Advanced R}

theorem waking (hstepped : Stepped before event after caller advanced) :
    Waking.wake? Caller.isParked Caller.woken advanced.wake event.sleeper
      (before.callers.set event.caller (caller.follow event.move advanced.call)) =
        some after.callers :=
  (wake?_eq _ _ _).symm.trans hstepped.woken

theorem tally_eq (hstepped : Stepped before event after caller advanced)
    (measure : Caller R → Nat) (hsame : ∀ caller, measure caller.woken = measure caller) :
    tally measure after.callers + measure caller =
      tally measure before.callers + measure (caller.follow event.move advanced.call) :=
  Waking.tally_step hstepped.caller_at hstepped.waking hsame

theorem mem_callers (hstepped : Stepped before event after caller advanced) :
    caller ∈ before.callers :=
  List.mem_of_getElem? hstepped.caller_at

theorem done_after (hstepped : Stepped before event after caller advanced) {outcome : Outcome R}
    (hdone : advanced.call = .done outcome) :
    ∃ moved, after.callers[event.caller]? = some moved ∧ moved.call = .done outcome := by
  have hbound := (List.getElem?_eq_some_iff.mp hstepped.caller_at).1
  have hmid : (before.callers.set event.caller (caller.follow event.move advanced.call))[
      event.caller]? = some (caller.follow event.move advanced.call) :=
    List.getElem?_set_self hbound
  rcases Waking.wake_getElem? hstepped.waking event.caller with hsame | hwoken
  · exact ⟨_, hsame.trans hmid, hdone⟩
  · rw [hmid] at hwoken
    refine ⟨_, hwoken, ?_⟩
    simp [Caller.woken, hdone, Call.woken]

theorem caller_after (hstepped : Stepped before event after caller advanced) {index : Nat}
    {moved : Caller R} (hmoved : after.callers[index]? = some moved) :
    ∃ mid, (mid = caller.follow event.move advanced.call ∧ index = event.caller ∨
        before.callers[index]? = some mid ∧ index ≠ event.caller) ∧
      (moved = mid ∨ moved = mid.woken) :=
  Waking.getElem?_step hstepped.caller_at hstepped.waking hmoved

theorem forall_callers (hstepped : Stepped before event after caller advanced)
    {holds : Caller R → Prop} (hwoken : ∀ caller, holds caller → holds caller.woken)
    (hbefore : ∀ caller ∈ before.callers, holds caller)
    (hmoved : holds (caller.follow event.move advanced.call)) :
    ∀ caller ∈ after.callers, holds caller :=
  Waking.forall_step hstepped.caller_at hstepped.waking hwoken hbefore hmoved

end Stepped

end System

end Pooling.Elastic
