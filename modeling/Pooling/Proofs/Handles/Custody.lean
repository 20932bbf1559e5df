import Pooling.Pool.Call
import Pooling.Proofs.Runs
import Pooling.Resource.Handle

/-!
Handles on the resources of several pools, whose detectors may be shared. The pools can be of any
kind: what they answer, and when, comes from outside. Handles end part by part, and their ends
overlap with one another and with the ends of the pools in any order.
-/

namespace Pooling.Handles

variable {R : Type}

/-- What is left of a handle. Its resource and its registration are taken out of it, and its drop
runs on what remains. -/
structure Shell (R : Type) where
  resource? : Option R := none
  tracker? : Option LeakTracker := none

inductive Stage (R : Type) where
  | alive (handle : Handle R)
  | ending (ending : Ending R)
  /-- The pool raised instead of answering. -/
  | unwinding (tracker : Option LeakTracker)
  | emptied (shell : Shell R)
  | gone
  | forgotten (handle : Handle R)

/-- What has become of the resource of a handle: its pool was there to be given it or was not, or
the handle never looked for the pool. -/
inductive Fate where
  | undecided
  | returned
  | orphaned
  | detached
  | forgotten
  deriving DecidableEq

/-- A handle, from its making on: the resource that its pool handed out, and the value that the
handle has lent since then. -/
structure Loan (R : Type) where
  pool : Nat
  origin : R
  value : R
  stage : Stage R
  fate : Fate := .undecided

/-- What is done to a handle. It ends alike when it is released, dropped or unwound. -/
inductive Act (R : Type) where
  | write (value : R)
  | leave
  | detach
  | forget
  | proceed (answer : Except PoolError Unit)
  | raise

/-- What a handle asks of its detector or of its pool in a step. -/
inductive Demand (R : Type) where
  | nothing
  | untrack (tracker : Option LeakTracker)
  | report
  | giveBack (resource : R)

namespace Demand

def note : Demand R → LeakDetector → LeakDetector
  | .untrack tracker, detector => detector.untrack? tracker
  | .report, detector => detector.report.2
  | _, detector => detector

def verdict : Demand R → LeakDetector → Verdict
  | .report, detector => detector.report.1
  | _, _ => .carryOn

def returned : Demand R → List R
  | .giveBack resource => [resource]
  | _ => []

end Demand

namespace Stage

/-- An end that has found the pool asks it to take the resource. -/
def asks : Ending R → Demand R
  | .releasing resource _ => .giveBack resource
  | _ => .nothing

/-- The next part of a handle's end, by itself or with the pool's answer. -/
def proceed? (alive : Bool) (answer : Except PoolError Unit) :
    Stage R → Option (Stage R × Demand R)
  | .ending (.upgrading resource tracker) =>
      let next := Ending.upgraded (.upgrading resource tracker) alive
      some (.ending next, asks next)
  | .ending (.releasing resource tracker) =>
      some (.ending (Ending.released (.releasing resource tracker) answer), .nothing)
  | .ending (.lettingGo result tracker) =>
      some (.ending (Ending.letGone (.lettingGo result tracker)), .nothing)
  | .ending .reporting => some (.ending (Ending.reported .reporting), .report)
  | .ending (.untracking result tracker) =>
      some (.ending (Ending.untracked (.untracking result tracker)), .untrack tracker)
  | .ending (.done _) => some (.emptied {}, .nothing)
  | .unwinding tracker => some (.emptied {}, .untrack tracker)
  | .emptied shell =>
      match shell.resource? with
      | some resource => some (.ending (.start ⟨resource, shell.tracker?⟩), .nothing)
      | none => some (.gone, .untrack shell.tracker?)
  | _ => none

/-- While a handle has found its pool and not let go of it, the pool stays. -/
def isKeeping : Stage R → Bool
  | .ending (.releasing _ _) => true
  | .ending (.lettingGo _ _) => true
  | _ => false

def giving? : Stage R → Option R
  | .ending (.releasing resource _) => some resource
  | _ => none

def isLooking : Stage R → Bool
  | .ending (.upgrading _ _) => true
  | _ => false

/-- Nothing is in progress. -/
def isAtRest : Stage R → Bool
  | .alive _ => true
  | .gone => true
  | .forgotten _ => true
  | _ => false

end Stage

namespace Loan

/-- What comes of a handle that looks for its pool. -/
def fated (loan : Loan R) (alive : Bool) : Fate :=
  if loan.stage.isLooking then if alive then .returned else .orphaned else loan.fate

def step? (loan : Loan R) (alive : Bool) (act : Act R) : Option (Loan R × Demand R) :=
  match act, loan.stage with
  | .write value, .alive handle =>
      some ({ loan with value, stage := .alive (handle.write value) }, .nothing)
  | .leave, .alive handle => some ({ loan with stage := .ending (.start handle) }, .nothing)
  | .detach, .alive handle =>
      some ({ loan with stage := .emptied {}, fate := .detached }, .untrack handle.tracker)
  | .forget, .alive handle =>
      some ({ loan with stage := .forgotten handle, fate := .forgotten }, .nothing)
  | .proceed answer, stage =>
      (stage.proceed? alive answer).map fun next =>
        ({ loan with stage := next.1, fate := loan.fated alive }, next.2)
  | .raise, .ending (.releasing _ tracker) =>
      some ({ loan with stage := .unwinding tracker }, .nothing)
  | _, _ => none

end Loan

/-- A resource that a handle asked its pool to take back. -/
structure Return (R : Type) where
  handle : Nat
  pool : Nat
  resource : R
  deriving DecidableEq

/-- What a pool counted when it looked for leaks. -/
structure Check where
  pool : Nat
  counted : UInt64
  deriving DecidableEq

/-- What happens next: a pool answers an acquisition, loses its owner or looks for leaks, or
something is done to a handle. -/
inductive Event (R : Type) where
  | acquire (pool : Nat) (outcome : Outcome R)
  | abandon (pool : Nat)
  | check (pool : Nat)
  | act (handle : Nat) (act : Act R)

structure Custody (R : Type) where
  /-- For each pool the number of its detector, if it has one. -/
  registries : List (Option Nat)
  detectors : List LeakDetector
  /-- The pools that nobody owns any more. -/
  abandoned : List Nat := []
  loans : List (Loan R) := []
  /-- What handles asked their pools to take back, oldest first. -/
  returns : List (Return R) := []
  /-- The looks that pools had for leaks, oldest first. -/
  checks : List Check := []
  exited : Bool := false

namespace Custody

def start (registries : List (Option Nat)) (detectors : List LeakDetector) : Custody R where
  registries := registries
  detectors := detectors.map fun detector => { detector with outstanding := 0, leaked := 0 }

def registry? (custody : Custody R) (pool : Nat) : Option Nat := custody.registries[pool]?.join

def detector? (custody : Custody R) (pool : Nat) : Option LeakDetector :=
  (custody.registry? pool).bind fun index => custody.detectors[index]?

def onDetector (custody : Custody R) (pool : Nat) (change : LeakDetector → LeakDetector) :
    Custody R :=
  { custody with
    detectors :=
      match custody.registry? pool with
      | some index => custody.detectors.modify index change
      | none => custody.detectors }

def isOwned (custody : Custody R) (pool : Nat) : Bool :=
  (custody.registries[pool]?).isSome && !custody.abandoned.contains pool

/-- A pool is there as long as somebody owns it, or a handle's end has hold of it. -/
def isThere (custody : Custody R) (pool : Nat) : Bool :=
  custody.isOwned pool ||
    custody.loans.any fun loan => loan.pool == pool && loan.stage.isKeeping

def newLoan (custody : Custody R) (pool : Nat) (resource : R) : Loan R where
  pool := pool
  origin := resource
  value := resource
  stage := .alive ⟨resource, (custody.detector? pool).bind fun detector => detector.track.1⟩

def lend (custody : Custody R) (pool : Nat) (resource : R) : Custody R :=
  { custody.onDetector pool fun detector => detector.track.2 with
    loans := custody.loans ++ [custody.newLoan pool resource] }

/-- Whoever is handed nothing has no handle. -/
def answered (custody : Custody R) (pool : Nat) : Outcome R → Custody R
  | .acquired resource => custody.lend pool resource
  | _ => custody

def replace (custody : Custody R) (handle : Nat) (loan : Loan R) : Custody R :=
  { custody with loans := custody.loans.set handle loan }

def heed (custody : Custody R) (handle pool : Nat) (demand : Demand R) : Custody R :=
  { custody.onDetector pool demand.note with
    returns := custody.returns ++ demand.returned.map fun resource => ⟨handle, pool, resource⟩
    exited := (custody.detector? pool).any fun detector => demand.verdict detector = .exit }

def look (custody : Custody R) (pool : Nat) : Custody R :=
  match custody.detector? pool with
  | some detector =>
      { custody with
        checks := custody.checks ++ [⟨pool, detector.checkShutdown.2⟩]
        exited := detector.checkShutdown.1 = .exit }
  | none => custody

@[simp] theorem loans_look (custody : Custody R) (pool : Nat) :
    (custody.look pool).loans = custody.loans := by
  unfold look
  split <;> rfl

/-- Nothing happens any more once the process has exited. Whoever acquires borrows the pool from
its owner. -/
def step? (custody : Custody R) (event : Event R) : Option (Custody R) :=
  if custody.exited then none
  else
    match event with
    | .acquire pool outcome =>
        if custody.isOwned pool then some (custody.answered pool outcome) else none
    | .abandon pool =>
        if custody.isOwned pool then
          some { custody with abandoned := pool :: custody.abandoned }
        else none
    | .check pool => some (custody.look pool)
    | .act handle act =>
        custody.loans[handle]?.bind fun loan =>
          (loan.step? (custody.isThere loan.pool) act).map fun next =>
            (custody.replace handle next.1).heed handle loan.pool next.2

abbrev Law (R : Type) := Custody R → Event R → Bool

def anyhow : Law R := fun _ _ => true

abbrev Reaches (law : Law R) : Custody R → Custody R → Prop := Runs.Reaches step? law

abbrev run? (law : Law R) : List (Event R) → Custody R → Option (Custody R) :=
  Runs.run? step? law

end Custody

/-- The ways an event goes: the event and the custody before it on the left, the custody after it
on the right. -/
inductive Transition (custody : Custody R) : Event R → Custody R → Prop
  | failed (pool : Nat) (outcome : Outcome R) (howned : custody.isOwned pool)
      (hnot : ∀ resource, outcome ≠ .acquired resource) :
      Transition custody (.acquire pool outcome) custody
  | lent (pool : Nat) (resource : R) (howned : custody.isOwned pool) :
      Transition custody (.acquire pool (.acquired resource)) (custody.lend pool resource)
  | abandoned (pool : Nat) (howned : custody.isOwned pool) :
      Transition custody (.abandon pool) { custody with abandoned := pool :: custody.abandoned }
  | checked (pool : Nat) : Transition custody (.check pool) (custody.look pool)
  | acted (handle : Nat) (act : Act R) {loan moved : Loan R} {demand : Demand R}
      (hloan : custody.loans[handle]? = some loan)
      (hstep : loan.step? (custody.isThere loan.pool) act = some (moved, demand)) :
      Transition custody (.act handle act)
        ((custody.replace handle moved).heed handle loan.pool demand)

theorem Transition.answered {custody : Custody R} {pool : Nat} (howned : custody.isOwned pool)
    (outcome : Outcome R) :
    Transition custody (.acquire pool outcome) (custody.answered pool outcome) := by
  cases outcome with
  | acquired resource => exact .lent pool resource howned
  | _ => exact .failed pool _ howned fun _ heq => by cases heq

theorem transition_of_step? {custody next : Custody R} {event : Event R}
    (hstep : custody.step? event = some next) :
    custody.exited = false ∧ Transition custody event next := by
  obtain ⟨hrunning, hstep⟩ := Option.ite_none_left_eq_some.mp hstep
  refine ⟨eq_false_of_ne_true hrunning, ?_⟩
  cases event with
  | acquire pool outcome =>
      obtain ⟨howned, heq⟩ := Option.ite_none_right_eq_some.mp hstep
      cases heq
      exact .answered howned outcome
  | abandon pool =>
      obtain ⟨howned, heq⟩ := Option.ite_none_right_eq_some.mp hstep
      cases heq
      exact .abandoned pool howned
  | check pool =>
      cases hstep
      exact .checked pool
  | act handle act =>
      obtain ⟨loan, hloan, hmoves⟩ := Option.bind_eq_some_iff.mp hstep
      obtain ⟨⟨moved, demand⟩, hmoved, rfl⟩ := Option.map_eq_some_iff.mp hmoves
      exact .acted handle act hloan hmoved

end Pooling.Handles
