import Mathlib.Computability.StateTransition
import Pooling.Proofs.Elastic.System

/-!
One call on an elastic pool on which nobody else is at work, from where it is to where it ends or
falls asleep.
-/

namespace Pooling.Elastic

variable {R : Type} [DecidableEq R]

/-- What a call meets with: the verdict of each of its checks, first to last, what comes of a
resource that is made for it, and what the clock tells at each of its turns. -/
structure Answers (R : Type) where
  healthy : Nat → Bool
  made : Made R
  reading : Nat → Reading

/-- A call with its pool, and what it has done so far. -/
structure Errand (R : Type) where
  pool : Pool R
  call : Call R
  turns : Nat := 0
  /-- How often it has looked for a slot. -/
  looks : Nat := 0
  checks : Nat := 0
  makings : Nat := 0
  /-- The resources that the factory was given to close, oldest first. -/
  disposed : List R := []

namespace Errand

/-- The move of a call that is neither asleep nor at its end. -/
def move? (answers : Answers R) (errand : Errand R) : Option (Move R) :=
  match errand.call.need with
  | .turn => some (.turn (answers.reading errand.turns))
  | .make => some (.make answers.made)
  | .check _ => some (.check (answers.healthy errand.checks))
  | .close _ => some .dispose
  | .retire => some .retire
  | .sleep => none
  | .done _ => none

def follow (errand : Errand R) (move : Move R) (advanced : Call.Advanced R) : Errand R where
  pool := advanced.pool
  call := advanced.call
  turns :=
    match move with
    | .turn _ => errand.turns + 1
    | _ => errand.turns
  looks :=
    match errand.call with
    | .seeking _ _ => errand.looks + 1
    | _ => errand.looks
  checks :=
    match move with
    | .check _ => errand.checks + 1
    | _ => errand.checks
  makings :=
    match move with
    | .make _ => errand.makings + 1
    | _ => errand.makings
  disposed := errand.disposed ++ move.disposes errand.call

/-- Nobody sleeps but the call itself, so that nobody is woken. -/
def step? (answers : Answers R) (errand : Errand R) : Option (Errand R) := do
  let move ← errand.move? answers
  let advanced ← move.perform? errand.call errand.pool
  some (errand.follow move advanced)

/-- Where a call comes to in the end that is let run, if it comes to an end. -/
def run (answers : Answers R) (errand : Errand R) : Part (Errand R) :=
  StateTransition.eval (step? answers) errand

variable {answers : Answers R} {errand next last : Errand R}

theorem mem_run_of_step? (hstep : errand.step? answers = some next) :
    last ∈ next.run answers ↔ last ∈ errand.run answers := by
  rw [run, run, StateTransition.reaches_eval (Relation.ReflTransGen.single hstep)]

theorem mem_run_self (hstopped : errand.step? answers = none) : errand ∈ errand.run answers :=
  StateTransition.mem_eval.mpr ⟨Relation.ReflTransGen.refl, hstopped⟩

theorem step?_done {outcome : Outcome R} (hdone : errand.call = .done outcome) :
    errand.step? answers = none := by
  simp [step?, move?, hdone, Call.need]

theorem step?_parked {patience : Patience} (hparked : errand.call = .parked patience) :
    errand.step? answers = none := by
  simp [step?, move?, hparked, Call.need]

/-- A turn of a call goes by what its section comes to. -/
theorem step?_turn (hneed : errand.call.need = .turn) {advanced : Call.Advanced R}
    (hadvance : errand.call.advance (answers.reading errand.turns) errand.pool = advanced) :
    errand.step? answers =
      some (errand.follow (.turn (answers.reading errand.turns)) advanced) := by
  simp only [step?, move?, hneed, Move.perform?, hadvance, Option.bind_eq_bind, Option.bind_some]

theorem step?_check {patience : Patience} {resource : R}
    (hchecking : errand.call = .checking patience resource) {verdict : Bool}
    (hverdict : answers.healthy errand.checks = verdict) :
    errand.step? answers =
      some (errand.follow (.check verdict)
        { pool := (errand.call.checked verdict errand.pool).1
          call := (errand.call.checked verdict errand.pool).2 }) := by
  simp only [step?, move?, hchecking, Call.need, Move.perform?, hverdict, Option.bind_eq_bind,
    Option.bind_some]

end Errand

end Pooling.Elastic
