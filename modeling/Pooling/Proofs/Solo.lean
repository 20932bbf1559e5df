import Mathlib.Computability.StateTransition
import Mathlib.Data.Multiset.Defs
import Pooling.Metrics.Snapshot
import Pooling.Pool.Call

/-!
A caller alone with a pool of either kind: its calls run one after the other, each from its
beginning to its end, for a factory that answers by a script and whose resources are healthy.
-/

namespace Pooling

/-- What a factory answers each time it is asked for a resource; it makes none twice. -/
structure Script (R : Type) where
  answer : Nat → Made R
  fresh : ∀ {first second : Nat} {resource : R},
    answer first = .ok resource → answer second = .ok resource → first = second

/-- What a clock tells at each look in each call. Between two calls it may be set back. -/
structure Clock (τ : Type) [LE τ] where
  tells : Nat → Nat → τ
  steady : ∀ (call : Nat) {early late : Nat}, early ≤ late → tells call early ≤ tells call late

inductive Ask (R : Type) where
  | tryAcquire
  | acquireNow
  | release (resource : R)
  | close
  /-- Nothing is asked; a pool that collects what has expired does so. -/
  | pause
  deriving DecidableEq

namespace Ask

variable {R : Type}

/-- What is seen of an answer. -/
def shown : Ask R → Outcome R → Option (Outcome R)
  | pause, _ => none
  | _, outcome => some outcome

variable [DecidableEq R]

/-- Only what is held can be given back. -/
def fits (held : List R) : Ask R → Bool
  | release resource => resource ∈ held
  | _ => true

def leaves (held : List R) : Ask R → List R
  | release resource => held.erase resource
  | _ => held

end Ask

/-- How the calls on one kind of pool work: how they begin, and how they go on with what they have
waited for. -/
structure Workings (R τ P C : Type) where
  call? : Ask R → τ → Option C
  need : C → Need R
  advance : C → τ → P → P × C
  made : C → Made R → C
  healthy : C → P → P × C
  disposed : C → C
  retired : C → C
  size : P → Nat
  available : P → Nat
  totals : P → Totals

/-- A pool and its only caller, between two calls. -/
structure Solo (P R : Type) where
  pool : P
  held : List R := []
  /-- The resources that the factory was given to close, oldest first. -/
  disposed : List R := []
  /-- How often the factory was asked for a resource. -/
  asked : Nat := 0
  /-- How many calls were begun. -/
  calls : Nat := 0

/-- The same in the midst of a call, which has looked at the clock so many times. -/
structure Busy (P C R : Type) extends Solo P R where
  call : C
  looks : Nat

/-- What there is to see of a pool once a call has been answered, if there was one. -/
structure Sight (R : Type) where
  answer? : Option (Outcome R)
  size : Nat
  available : Nat
  acquired : UInt64
  released : UInt64
  created : UInt64
  timeouts : UInt64
  disposed : Multiset R

/-- What a caller gets from a call that has come to its end. -/
def Need.gains : Need R → List R
  | .done (.acquired resource) => [resource]
  | _ => []

namespace Workings

variable {R τ P C : Type} [LE τ] (workings : Workings R τ P C) (script : Script R)
  (clock : Clock τ)

def follow (busy : Busy P C R) (after : P × C) : Busy P C R where
  pool := after.1
  held := (workings.need after.2).gains ++ busy.held
  disposed := busy.disposed
  asked := busy.asked
  calls := busy.calls
  call := after.2
  looks := busy.looks + 1

/-- Goes on with a call; nobody is there to wake a caller that sleeps. -/
def step? (busy : Busy P C R) : Option (Busy P C R) :=
  match workings.need busy.call with
  | .turn =>
      some (workings.follow busy
        (workings.advance busy.call (clock.tells busy.calls busy.looks) busy.pool))
  | .make =>
      some (workings.follow { busy with asked := busy.asked + 1 }
        (busy.pool, workings.made busy.call (script.answer busy.asked)))
  | .check _ => some (workings.follow busy (workings.healthy busy.call busy.pool))
  | .close resource =>
      some (workings.follow { busy with disposed := busy.disposed ++ [resource] }
        (busy.pool, workings.disposed busy.call))
  | .retire => some (workings.follow busy (busy.pool, workings.retired busy.call))
  | .sleep => none
  | .done _ => none

/-- What a call comes to that is let run, if it comes to an end. -/
def finish (busy : Busy P C R) : Part (Outcome R × Solo P R) :=
  (StateTransition.eval (workings.step? script clock) busy).bind fun ended =>
    match workings.need ended.call with
    | .done outcome => Part.some (outcome, ended.toSolo)
    | _ => Part.none

def view (solo : Solo P R) (answer? : Option (Outcome R)) : Sight R where
  answer?
  size := workings.size solo.pool
  available := workings.available solo.pool
  acquired := (workings.totals solo.pool).acquired
  released := (workings.totals solo.pool).released
  created := (workings.totals solo.pool).created
  timeouts := (workings.totals solo.pool).timeouts
  disposed := solo.disposed

variable [DecidableEq R]

/-- An ask that does not fit is left out, as is one that the pool has no call for. -/
def ask (ask : Ask R) (solo : Solo P R) : Part (Sight R × Solo P R) :=
  match workings.call? ask (clock.tells (solo.calls + 1) 0), ask.fits solo.held with
  | some call, true =>
      (workings.finish script clock
        ⟨{ solo with held := ask.leaves solo.held, calls := solo.calls + 1 }, call, 1⟩).map
          fun served => (workings.view served.2 (ask.shown served.1), served.2)
  | _, _ => Part.some (workings.view solo none, solo)

/-- What is seen after each ask of a list, if each of them comes to an end. -/
def seen : List (Ask R) → Solo P R → Part (List (Sight R))
  | [], _ => Part.some []
  | first :: asks, solo =>
      (workings.ask script clock first solo).bind fun served =>
        (seen asks served.2).map fun views => served.1 :: views

/-! How a call goes on by its need. -/

section Going

omit [DecidableEq R]

variable {workings script clock} {solo : Solo P R} {call : C} {looks : Nat}

theorem finish_of_step? {busy next : Busy P C R}
    (hstep : workings.step? script clock busy = some next) :
    workings.finish script clock busy = workings.finish script clock next := by
  rw [finish, StateTransition.reaches_eval (Relation.ReflTransGen.single hstep), finish]

theorem finish_done {outcome : Outcome R} (hneed : workings.need call = .done outcome)
    (solo : Solo P R) (looks : Nat) :
    workings.finish script clock ⟨solo, call, looks⟩ = Part.some (outcome, solo) := by
  have hstopped : workings.step? script clock ⟨solo, call, looks⟩ = none := by
    simp only [step?, hneed]
  have hended := Part.eq_some_iff.mpr
    (StateTransition.mem_eval.mpr ⟨Relation.ReflTransGen.refl, hstopped⟩)
  simp only [finish, hended, Part.bind_some, hneed]

theorem finish_turn (hneed : workings.need call = .turn) {pool : P} {next : C}
    (hnext : workings.advance call (clock.tells solo.calls looks) solo.pool = (pool, next))
    (hgains : (workings.need next).gains = []) :
    workings.finish script clock ⟨solo, call, looks⟩ =
      workings.finish script clock ⟨{ solo with pool }, next, looks + 1⟩ := by
  apply finish_of_step?
  simp only [step?, hneed, hnext, follow, hgains, List.nil_append]

/-- The last turn of a call, after which its outcome is told. -/
theorem finish_last (hneed : workings.need call = .turn) {pool : P} {next : C}
    {outcome : Outcome R}
    (hnext : workings.advance call (clock.tells solo.calls looks) solo.pool = (pool, next))
    (hdone : workings.need next = .done outcome) :
    workings.finish script clock ⟨solo, call, looks⟩ = Part.some
      (outcome, { solo with pool, held := (Need.done outcome).gains ++ solo.held }) := by
  refine (finish_of_step? ?_).trans (finish_done hdone _ (looks + 1))
  simp only [step?, hneed, hnext, follow, hdone]

theorem finish_make (hneed : workings.need call = .make)
    (hgains : (workings.need (workings.made call (script.answer solo.asked))).gains = []) :
    workings.finish script clock ⟨solo, call, looks⟩ = workings.finish script clock
      ⟨{ solo with asked := solo.asked + 1 }, workings.made call (script.answer solo.asked),
        looks + 1⟩ := by
  apply finish_of_step?
  simp only [step?, hneed, follow, hgains, List.nil_append]

theorem finish_check {resource : R} (hneed : workings.need call = .check resource) {pool : P}
    {next : C} {outcome : Outcome R}
    (hnext : workings.healthy call solo.pool = (pool, next))
    (hdone : workings.need next = .done outcome) :
    workings.finish script clock ⟨solo, call, looks⟩ = Part.some
      (outcome, { solo with pool, held := (Need.done outcome).gains ++ solo.held }) := by
  refine (finish_of_step? ?_).trans (finish_done hdone _ (looks + 1))
  simp only [step?, hneed, hnext, follow, hdone]

theorem finish_close {resource : R} (hneed : workings.need call = .close resource)
    (hgains : (workings.need (workings.disposed call)).gains = []) :
    workings.finish script clock ⟨solo, call, looks⟩ = workings.finish script clock
      ⟨{ solo with disposed := solo.disposed ++ [resource] }, workings.disposed call,
        looks + 1⟩ := by
  apply finish_of_step?
  simp only [step?, hneed, follow, hgains, List.nil_append]

theorem finish_retire (hneed : workings.need call = .retire) {outcome : Outcome R}
    (hdone : workings.need (workings.retired call) = .done outcome) :
    workings.finish script clock ⟨solo, call, looks⟩ = Part.some
      (outcome, { solo with held := (Need.done outcome).gains ++ solo.held }) := by
  refine (finish_of_step? ?_).trans (finish_done hdone _ (looks + 1))
  simp only [step?, hneed, follow, hdone]

end Going

variable {workings script clock}

theorem ask_eq {asked : Ask R} {solo later : Solo P R} {call : C} {outcome : Outcome R}
    (hcall : workings.call? asked (clock.tells (solo.calls + 1) 0) = some call)
    (hfits : asked.fits solo.held = true)
    (hfinish : workings.finish script clock
      ⟨{ solo with held := asked.leaves solo.held, calls := solo.calls + 1 }, call, 1⟩ =
        Part.some (outcome, later)) :
    workings.ask script clock asked solo =
      Part.some (workings.view later (asked.shown outcome), later) := by
  simp only [ask, hcall, hfits, hfinish, Part.map_some]

theorem ask_unfit {asked : Ask R} {solo : Solo P R} (hfits : asked.fits solo.held = false) :
    workings.ask script clock asked solo = Part.some (workings.view solo none, solo) := by
  unfold ask
  rw [hfits]
  cases workings.call? asked (clock.tells (solo.calls + 1) 0) <;> rfl

theorem ask_without_call {asked : Ask R} {solo : Solo P R}
    (hcall : workings.call? asked (clock.tells (solo.calls + 1) 0) = none) :
    workings.ask script clock asked solo = Part.some (workings.view solo none, solo) := by
  simp only [ask, hcall]

theorem seen_cons {asked : Ask R} {asks : List (Ask R)} {solo later : Solo P R} {view : Sight R}
    {views : List (Sight R)}
    (hask : workings.ask script clock asked solo = Part.some (view, later))
    (hseen : workings.seen script clock asks later = Part.some views) :
    workings.seen script clock (asked :: asks) solo = Part.some (view :: views) := by
  rw [seen, hask, Part.bind_some, hseen, Part.map_some]

/-! What is seen can be computed where no call takes more than a number of moves. -/

def finish? (workings : Workings R τ P C) (script : Script R) (clock : Clock τ) :
    Nat → Busy P C R → Option (Outcome R × Solo P R)
  | 0, _ => none
  | moves + 1, busy =>
      match workings.need busy.call with
      | .done outcome => some (outcome, busy.toSolo)
      | _ => (workings.step? script clock busy).bind (finish? workings script clock moves)

def seen? (workings : Workings R τ P C) (script : Script R) (clock : Clock τ) (moves : Nat) :
    List (Ask R) → Solo P R → Option (List (Sight R))
  | [], _ => some []
  | asked :: asks, solo =>
      match workings.call? asked (clock.tells (solo.calls + 1) 0), asked.fits solo.held with
      | some call, true =>
          (finish? workings script clock moves
            ⟨{ solo with held := asked.leaves solo.held, calls := solo.calls + 1 }, call, 1⟩).bind
              fun served => (seen? workings script clock moves asks served.2).map
                (workings.view served.2 (asked.shown served.1) :: ·)
      | _, _ => (seen? workings script clock moves asks solo).map (workings.view solo none :: ·)

omit [DecidableEq R] in
theorem finish_of_finish? {moves : Nat} {busy : Busy P C R} {served : Outcome R × Solo P R}
    (hfinish : finish? workings script clock moves busy = some served) :
    workings.finish script clock busy = Part.some served := by
  induction moves generalizing busy with
  | zero => cases hfinish
  | succ moves ih =>
      rw [finish?] at hfinish
      split at hfinish
      next outcome hneed =>
        cases hfinish
        exact finish_done hneed _ _
      next =>
        obtain ⟨next, hstep, hrest⟩ := Option.bind_eq_some_iff.mp hfinish
        exact (finish_of_step? hstep).trans (ih hrest)

theorem seen_of_seen? {moves : Nat} {asks : List (Ask R)} {solo : Solo P R} {views : List (Sight R)}
    (hseen : seen? workings script clock moves asks solo = some views) :
    workings.seen script clock asks solo = Part.some views := by
  induction asks generalizing solo views with
  | nil =>
      cases hseen
      rfl
  | cons asked asks ih =>
      rw [seen?] at hseen
      split at hseen
      next call hcall hfits =>
        obtain ⟨⟨outcome, later⟩, hfinish, hmap⟩ := Option.bind_eq_some_iff.mp hseen
        obtain ⟨rest, hrest, rfl⟩ := Option.map_eq_some_iff.mp hmap
        exact seen_cons (ask_eq hcall hfits (finish_of_finish? hfinish)) (ih hrest)
      next hout =>
        obtain ⟨rest, hrest, rfl⟩ := Option.map_eq_some_iff.mp hseen
        refine seen_cons ?_ (ih hrest)
        cases hfits : asked.fits solo.held with
        | false => exact ask_unfit hfits
        | true =>
            apply ask_without_call
            cases hcall : workings.call? asked (clock.tells (solo.calls + 1) 0) with
            | none => rfl
            | some call => exact absurd hfits (hout call hcall)

/-- What is alike stays so, and is seen to be the same, if each ask keeps it alike. -/
theorem exists_seen {υ Q D : Type} [LE υ] {others : Workings R υ Q D} {watch : Clock υ}
    (alike : Solo P R → Solo Q R → Prop)
    (hask : ∀ asked solo other, alike solo other → ∃ view later follower,
      workings.ask script clock asked solo = Part.some (view, later) ∧
        others.ask script watch asked other = Part.some (view, follower) ∧ alike later follower)
    (asks : List (Ask R)) {solo : Solo P R} {other : Solo Q R} (halike : alike solo other) :
    ∃ views, workings.seen script clock asks solo = Part.some views ∧
      others.seen script watch asks other = Part.some views := by
  induction asks generalizing solo other with
  | nil => exact ⟨[], rfl, rfl⟩
  | cons asked asks ih =>
      obtain ⟨view, later, follower, hfirst, hsecond, hlater⟩ := hask asked solo other halike
      obtain ⟨views, hleft, hright⟩ := ih hlater
      exact ⟨view :: views, seen_cons hfirst hleft, seen_cons hsecond hright⟩

end Workings

end Pooling
