import Pooling.Proofs.Fixed.System

/-!
Everything that a move can do to a call and its pool, case by case.
-/

namespace Pooling.Fixed

variable {R : Type}

/-- The ways a move goes: the move, the call it happens to and the pool on the left; the pool, the
wake and the call that come of it on the right. -/
inductive Transition : Move R → Call R → Pool R → Call.Advanced R → Prop
  | begin (request : Request R) (now : Moment) (outcome : Outcome R) (pool : Pool R) :
      Transition (.begin request now) (.done outcome) pool { pool, call := request.call now }
  | barred (patience : Patience) (now : Moment) {pool : Pool R} (hclosed : pool.closed = true) :
      Transition (.turn now) (.opening patience) pool
        { pool, call := .done (.failed .closed) }
  | admitted (patience : Patience) (now : Moment) (pool : Pool R) :
      Transition (.turn now) (.opening patience) pool { pool, call := .popping patience }
  | popped (patience : Patience) (now : Moment) {pool : Pool R} {resource : R} {rest : List R}
      (hqueue : pool.queue = resource :: rest) :
      Transition (.turn now) (.popping patience) pool
        (Call.acquired resource { pool with queue := rest })
  | dry (patience : Patience) (now : Moment) {pool : Pool R} (hnone : pool.queue = []) :
      Transition (.turn now) (.popping patience) pool { pool, call := .reserving patience }
  | reserved (patience : Patience) (now : Moment) {pool : Pool R}
      (hroom : pool.size < pool.maxCapacity) :
      Transition (.turn now) (.reserving patience) pool
        { pool := { pool with capacity := pool.capacity + 1 }, call := .making }
  | givesUp (now : Moment) (pool : Pool R) :
      Transition (.turn now) (.reserving .never) pool { pool, call := .done .nothing }
  | queues (patience : Patience) (now : Moment) (pool : Pool R) :
      Transition (.turn now) (.reserving patience) pool
        { pool, call := .entering (.rechecking patience) }
  | entered (locked : Locked R) (now : Moment) (pool : Pool R) :
      Transition (.turn now) (.entering locked) pool { pool, call := .inside locked }
  | cancelled (patience : Patience) (now : Moment) {pool : Pool R} (hclosed : pool.closed = true) :
      Transition (.turn now) (.inside (.rechecking patience)) pool
        { pool, call := .done (.failed .cancelled) }
  | rechecked (patience : Patience) (now : Moment) (pool : Pool R) :
      Transition (.turn now) (.inside (.rechecking patience)) pool
        { pool, call := .inside (.repopping patience) }
  | repopped (patience : Patience) (now : Moment) {pool : Pool R} {resource : R} {rest : List R}
      (hqueue : pool.queue = resource :: rest) :
      Transition (.turn now) (.inside (.repopping patience)) pool
        (Call.acquired resource { pool with queue := rest })
  | stillDry (patience : Patience) (now : Moment) {pool : Pool R} (hnone : pool.queue = []) :
      Transition (.turn now) (.inside (.repopping patience)) pool
        { pool, call := .inside (.rereserving patience) }
  | rereserved (patience : Patience) (now : Moment) {pool : Pool R}
      (hroom : pool.size < pool.maxCapacity) :
      Transition (.turn now) (.inside (.rereserving patience)) pool
        { pool := { pool with capacity := pool.capacity + 1 }, call := .making }
  | stillFull (patience : Patience) (now : Moment) {pool : Pool R}
      (hfull : pool.maxCapacity ≤ pool.size) :
      Transition (.turn now) (.inside (.rereserving patience)) pool
        { pool, call := .inside (.waiting patience) }
  | timesOut (deadline : Moment) (timeout : Duration) (now : Moment) (pool : Pool R) :
      Transition (.turn now) (.inside (.waiting (.until deadline timeout))) pool
        { pool := pool.record .countTimeout, call := .done (.failed (.timeout timeout)) }
  | sleeps (patience : Patience) (now : Moment) (pool : Pool R) :
      Transition (.turn now) (.inside (.waiting patience)) pool { pool, call := .parked patience }
  | made (answer : Made R) (pool : Pool R) :
      Transition (.make answer) .making pool { pool, call := .made answer }
  | kept (resource : R) (now : Moment) (pool : Pool R) :
      Transition (.turn now) (.made (.ok resource)) pool
        { pool := (pool.record .countCreated).record .countAcquired
          call := .done (.acquired resource) }
  | failed (source : String) (now : Moment) (pool : Pool R) :
      Transition (.turn now) (.made (.failed source)) pool
        { pool := pool.giveUpSlot, call := .entering (.announcing source) }
  | announced (source : String) (now : Moment) (pool : Pool R) :
      Transition (.turn now) (.inside (.announcing source)) pool
        { pool, wake := .one, call := .done (.failed (.creation source)) }
  | returned (resource : R) (now : Moment) (pool : Pool R) :
      Transition (.turn now) (.returning resource) pool
        { pool := pool.record .countReleased, call := .entering (.deciding resource) }
  | pooled (resource : R) (now : Moment) {pool : Pool R} (hopen : pool.closed = false) :
      Transition (.turn now) (.inside (.deciding resource)) pool
        { pool := pool.push resource, wake := .one, call := .done .released }
  | late (resource : R) (now : Moment) {pool : Pool R} (hclosed : pool.closed = true) :
      Transition (.turn now) (.inside (.deciding resource)) pool
        { pool, call := .leaving resource }
  | left (resource : R) (now : Moment) (pool : Pool R) :
      Transition (.turn now) (.leaving resource) pool
        { pool := pool.giveUpSlot, call := .closing resource (.finish .released) }
  | shutAgain (now : Moment) {pool : Pool R} (hclosed : pool.closed = true) :
      Transition (.turn now) (.inside .shutting) pool { pool, call := .done .closed }
  | shut (now : Moment) {pool : Pool R} (hopen : pool.closed = false) :
      Transition (.turn now) (.inside .shutting) pool
        { pool := pool.markClosed, call := .inside (.draining []) }
  | drew (taken : List R) (now : Moment) {pool : Pool R} {resource : R} {rest : List R}
      (hqueue : pool.queue = resource :: rest) :
      Transition (.turn now) (.inside (.draining taken)) pool
        { pool := { pool with queue := rest }, call := .inside (.drained resource taken) }
  | emptied (taken : List R) (now : Moment) {pool : Pool R} (hnone : pool.queue = []) :
      Transition (.turn now) (.inside (.draining taken)) pool
        { pool, call := .inside (.dismissing taken) }
  | struckOff (resource : R) (taken : List R) (now : Moment) (pool : Pool R) :
      Transition (.turn now) (.inside (.drained resource taken)) pool
        { pool := pool.giveUpSlot, call := .inside (.draining (taken ++ [resource])) }
  | dismissed (taken : List R) (now : Moment) (pool : Pool R) :
      Transition (.turn now) (.inside (.dismissing taken)) pool
        { pool, wake := .everyone, call := .after (.drain taken) }
  | disposed (resource : R) (next : Next R) (pool : Pool R) :
      Transition .dispose (.closing resource next) pool { pool, call := .after next }
  | finished (outcome : Outcome R) (now : Moment) (pool : Pool R) :
      Transition (.turn now) (.after (.finish outcome)) pool { pool, call := .done outcome }
  | drainedAll (now : Moment) (pool : Pool R) :
      Transition (.turn now) (.after (.drain [])) pool { pool, call := .done .closed }
  | drains (resource : R) (rest : List R) (now : Moment) (pool : Pool R) :
      Transition (.turn now) (.after (.drain (resource :: rest))) pool
        { pool, call := .closing resource (.drain rest) }
  | overslept (deadline : Moment) (timeout : Duration) (pool : Pool R) :
      Transition .oversleep (.parked (.until deadline timeout)) pool
        { pool, call := .entering (.rechecking (.until deadline timeout)) }
  | raised (text : String) (call : Call R) (pool : Pool R)
      (hasked : call = .making ∨ ∃ resource next, call = .closing resource next) :
      Transition (.raise text) call pool { pool, call := .done (.aborted (.raised text)) }

namespace Transition

theorem pop (patience : Patience) (now : Moment) (pool : Pool R) :
    Transition (.turn now) (.popping patience) pool ((Call.popping patience).advance now pool) := by
  unfold Call.advance Pool.pop?
  cases hqueue : pool.queue with
  | nil => exact dry patience now hqueue
  | cons resource rest => exact popped patience now hqueue

theorem reserve (patience : Patience) (now : Moment) (pool : Pool R) :
    Transition (.turn now) (.reserving patience) pool
      ((Call.reserving patience).advance now pool) := by
  unfold Call.advance Pool.reserve?
  by_cases hroom : pool.size < pool.maxCapacity
  · simp only [if_pos hroom]
    exact reserved patience now hroom
  · simp only [if_neg hroom]
    cases patience with
    | never => exact givesUp now pool
    | forever => exact queues .forever now pool
    | «until» deadline timeout => exact queues (.until deadline timeout) now pool

theorem answer (answer : Made R) (now : Moment) (pool : Pool R) :
    Transition (.turn now) (.made answer) pool (Call.answered answer pool) := by
  cases answer with
  | ok resource => exact kept resource now pool
  | failed source => exact failed source now pool

theorem proceed (next : Next R) (now : Moment) (pool : Pool R) :
    Transition (.turn now) (.after next) pool (Call.proceed next pool) := by
  cases next with
  | finish outcome => exact finished outcome now pool
  | drain rest =>
      cases rest with
      | nil => exact drainedAll now pool
      | cons resource rest => exact drains resource rest now pool

theorem goOn (locked : Locked R) (now : Moment) (pool : Pool R) :
    Transition (.turn now) (.inside locked) pool (Call.advanceLocked locked now pool) := by
  unfold Call.advanceLocked
  cases locked with
  | rechecking patience =>
      by_cases hclosed : pool.closed = true
      · simp only [if_pos hclosed]
        exact cancelled patience now hclosed
      · simp only [if_neg hclosed]
        exact rechecked patience now pool
  | repopping patience =>
      unfold Pool.pop?
      cases hqueue : pool.queue with
      | nil => exact stillDry patience now hqueue
      | cons resource rest => exact repopped patience now hqueue
  | rereserving patience =>
      unfold Pool.reserve?
      by_cases hroom : pool.size < pool.maxCapacity
      · simp only [if_pos hroom]
        exact rereserved patience now hroom
      · simp only [if_neg hroom]
        exact stillFull patience now (Nat.le_of_not_lt hroom)
  | waiting patience =>
      cases patience with
      | never => exact sleeps .never now pool
      | forever => exact sleeps .forever now pool
      | «until» deadline timeout =>
          by_cases hover : deadline ≤ now
          · simp only [if_pos hover]
            exact timesOut deadline timeout now pool
          · simp only [if_neg hover]
            exact sleeps (.until deadline timeout) now pool
  | announcing source => exact announced source now pool
  | deciding resource =>
      by_cases hclosed : pool.closed = true
      · simp only [if_pos hclosed]
        exact late resource now hclosed
      · simp only [if_neg hclosed]
        exact pooled resource now (eq_false_of_ne_true hclosed)
  | shutting =>
      by_cases hclosed : pool.closed = true
      · simp only [if_pos hclosed]
        exact shutAgain now hclosed
      · simp only [if_neg hclosed]
        exact shut now (eq_false_of_ne_true hclosed)
  | draining taken =>
      unfold Pool.pop?
      cases hqueue : pool.queue with
      | nil => exact emptied taken now hqueue
      | cons resource rest => exact drew taken now hqueue
  | drained resource taken => exact struckOff resource taken now pool
  | dismissing taken => exact dismissed taken now pool

theorem advance {call : Call R} (hneed : call.need = .turn) (now : Moment) (pool : Pool R) :
    Transition (.turn now) call pool (call.advance now pool) := by
  cases call with
  | opening patience =>
      by_cases hclosed : pool.closed = true
      · simp only [Call.advance, if_pos hclosed]
        exact barred patience now hclosed
      · simp only [Call.advance, if_neg hclosed]
        exact admitted patience now pool
  | popping patience => exact pop patience now pool
  | reserving patience => exact reserve patience now pool
  | made made => exact answer made now pool
  | returning resource => exact returned resource now pool
  | leaving resource => exact left resource now pool
  | entering locked => exact entered locked now pool
  | inside locked => exact goOn locked now pool
  | after next => exact proceed next now pool
  | parked | making | closing | done => simp [Call.need] at hneed

end Transition

theorem transition_of_perform? {move : Move R} {call : Call R} {pool : Pool R}
    {advanced : Call.Advanced R} (hperformed : move.perform? call pool = some advanced) :
    Transition move call pool advanced := by
  unfold Move.perform? at hperformed
  split at hperformed
  next request now outcome hneed =>
    cases call <;> simp [Call.need] at hneed
    cases hperformed
    exact .begin request now _ pool
  next now hneed =>
    cases hperformed
    exact .advance hneed now pool
  next answer hneed =>
    cases call <;> simp [Call.need] at hneed
    cases hperformed
    exact .made answer pool
  next resource hneed =>
    cases call <;> simp [Call.need] at hneed
    cases hperformed
    exact .disposed _ _ pool
  next hneed =>
    cases call <;> simp [Call.need] at hneed
    next patience =>
      cases patience <;> simp [Call.alarm?] at hperformed
      subst hperformed
      exact .overslept _ _ pool
  next text hneed =>
    cases call <;> simp [Call.need] at hneed
    cases hperformed
    exact .raised text _ pool (.inl rfl)
  next text resource hneed =>
    cases call <;> simp [Call.need] at hneed
    cases hperformed
    exact .raised text _ pool (.inr ⟨_, _, rfl⟩)
  next => cases hperformed

theorem System.Stepped.transition [DecidableEq R] {before after : System R} {event : Event R}
    {caller : Caller R} {advanced : Call.Advanced R}
    (hstepped : Stepped before event after caller advanced) :
    Transition event.move caller.call before.pool advanced :=
  transition_of_perform? hstepped.performed

end Pooling.Fixed
