import Pooling.Proofs.Elastic.Sections
import Pooling.Proofs.Elastic.System

/-!
Everything that a move can do to a call and its pool, case by case.
-/

namespace Pooling.Elastic

variable {R : Type} [DecidableEq R]

/-- The ways a move goes: the move, the call it happens to and the pool on the left; the pool, the
wake and the call that come of it on the right. -/
inductive Transition : Move R → Call R → Pool R → Call.Advanced R → Prop
  | begin (request : Request R) (now : Reading) (outcome : Outcome R) (pool : Pool R) :
      Transition (.begin request now) (.done outcome) pool { pool, call := request.call now }
  | barred (patience : Patience) (waited : Bool) (now : Reading) {pool : Pool R}
      (hclosed : pool.closed = true) :
      Transition (.turn now) (.seeking patience waited) pool
        { pool, call := .done (.failed (if waited then .cancelled else .closed)) }
  | granted (patience : Patience) (waited : Bool) (now : Reading) {pool : Pool R} {resource : R}
      {rest : List R} (hopen : pool.closed = false)
      (hchosen : pool.available.Perm (resource :: rest)) :
      Transition (.turn now) (.seeking patience waited) pool
        { pool := pool.checkOut resource rest, call := .checking patience resource }
  | reserved (patience : Patience) (waited : Bool) (now : Reading) {pool : Pool R}
      (hopen : pool.closed = false) (hnone : pool.available = [])
      (hroom : pool.size + pool.creating < pool.maxCapacity) :
      Transition (.turn now) (.seeking patience waited) pool
        { pool := { pool with creating := pool.creating + 1 }, call := .making }
  | waits (patience : Patience) (waited : Bool) (now : Reading) {pool : Pool R}
      (hopen : pool.closed = false) (hnone : pool.available = [])
      (hfull : pool.maxCapacity ≤ pool.size + pool.creating) :
      Transition (.turn now) (.seeking patience waited) pool { pool, call := .parked patience }
  | givesUp (waited : Bool) (now : Reading) {pool : Pool R} (hopen : pool.closed = false)
      (hnone : pool.available = []) (hfull : pool.maxCapacity ≤ pool.size + pool.creating) :
      Transition (.turn now) (.seeking .never waited) pool { pool, call := .done .nothing }
  | timesOut (deadline : Reading) (timeout : Duration) (waited : Bool) (now : Reading)
      {pool : Pool R} (hopen : pool.closed = false) (hnone : pool.available = [])
      (hfull : pool.maxCapacity ≤ pool.size + pool.creating) :
      Transition (.turn now) (.seeking (.until deadline timeout) waited) pool
        (Call.timedOut pool timeout)
  | made (answer : Made R) (pool : Pool R) :
      Transition (.make answer) .making pool { pool, call := .registering answer }
  | failed (source : String) (now : Reading) (pool : Pool R) :
      Transition (.turn now) (.registering (.failed source)) pool
        { pool := { pool with creating := pool.creating - 1 }, wake := .one
          call := .done (.failed (.creation source)) }
  | late (resource : R) (now : Reading) {pool : Pool R} (hclosed : pool.closed = true) :
      Transition (.turn now) (.registering (.ok resource)) pool
        { pool := { pool with creating := pool.creating - 1 }
          call := .closing resource (.finish (.failed .closed)) }
  | duplicate (resource : R) (now : Reading) {pool : Pool R} (hopen : pool.closed = false)
      (htracked : (pool.checkedOut? resource).isSome) :
      Transition (.turn now) (.registering (.ok resource)) pool
        { pool := { pool with creating := pool.creating - 1 }, wake := .one
          call := .done (.failed (.invalidArgument .alreadyTracked)) }
  | kept (resource : R) (now : Reading) {pool : Pool R} (hopen : pool.closed = false)
      (hnew : pool.checkedOut? resource = none) :
      Transition (.turn now) (.registering (.ok resource)) pool
        { pool := Pool.track { pool with creating := pool.creating - 1 } resource now
          call := .done (.acquired resource) }
  | passed (patience : Patience) (resource : R) (pool : Pool R) :
      Transition (.check true) (.checking patience resource) pool
        { pool := pool.record .countAcquired, call := .done (.acquired resource) }
  | condemned (patience : Patience) (resource : R) (pool : Pool R) :
      Transition (.check false) (.checking patience resource) pool
        { pool, call := .condemned patience resource }
  | forgot (patience : Patience) (resource : R) (now : Reading) {pool : Pool R}
      (htracked : (pool.checkedOut? resource).isSome) :
      Transition (.turn now) (.condemned patience resource) pool
        { pool := (pool.untrack resource).record .countUnhealthy, wake := .one
          call := .closing resource (.retry patience) }
  | forgotAgain (patience : Patience) (resource : R) (now : Reading) {pool : Pool R}
      (hgone : pool.checkedOut? resource = none) :
      Transition (.turn now) (.condemned patience resource) pool
        { pool := pool.record .countUnhealthy, wake := .one
          call := .closing resource (.retry patience) }
  | pooled (resource : R) (reading now : Reading) {pool : Pool R} (hopen : pool.closed = false)
      (hout : pool.checkedOut? resource = some true) :
      Transition (.turn now) (.returning resource reading) pool
        { pool := { pool.markReturned resource reading with
            available := resource :: pool.available }
          wake := .one, call := .done .released }
  | returnedLate (resource : R) (reading now : Reading) {pool : Pool R}
      (hclosed : pool.closed = true) (hout : pool.checkedOut? resource = some true) :
      Transition (.turn now) (.returning resource reading) pool
        { pool := (pool.markReturned resource reading).untrack resource
          call := .closing resource (.finish .released) }
  | refused (resource : R) (reading now : Reading) (misuse : Misuse) {pool : Pool R}
      (hnot : pool.checkedOut? resource ≠ some true) :
      Transition (.turn now) (.returning resource reading) pool
        { pool, call := .done (.failed (.invalidArgument misuse)) }
  | scannedNothing (now : Reading) {pool : Pool R} (hclosed : pool.closed = true) :
      Transition (.turn now) .scanning pool { pool, call := .after (.sweep [] 0) }
  | scanned (now : Reading) {pool : Pool R} (hopen : pool.closed = false) {taken left : List R}
      (hperm : pool.available.Perm (taken ++ left)) (hnodup : taken.Nodup)
      (htracked : ∀ resource ∈ taken, (pool.checkedOut? resource).isSome) :
      Transition (.turn now) .scanning pool
        { pool := { taken.foldl Pool.untrack pool with available := left }
          call := .after (.sweep taken taken.length) }
  | shutAgain (now : Reading) {pool : Pool R} (hclosed : pool.closed = true) :
      Transition (.turn now) .shutting pool { pool, call := .done .closed }
  | shut (now : Reading) {pool : Pool R} (hopen : pool.closed = false)
      (hcount : pool.available.length ≤ pool.size) :
      Transition (.turn now) .shutting pool
        { pool := pool.available.foldl Pool.untrack { pool with closed := true, available := [] }
          wake := .everyone, call := .after (.drain pool.available) }
  | cutShort (now : Reading) {pool : Pool R} (hopen : pool.closed = false)
      (hcount : pool.size < pool.available.length) :
      Transition (.turn now) .shutting pool
        { pool := { pool with closed := true }, call := .done (.aborted .countUnderflow) }
  | disposed (resource : R) (next : Next R) (pool : Pool R) :
      Transition .dispose (.closing resource next) pool { pool, call := .after next }
  | finished (outcome : Outcome R) (now : Reading) (pool : Pool R) :
      Transition (.turn now) (.after (.finish outcome)) pool { pool, call := .done outcome }
  | swept (count : Nat) (now : Reading) (pool : Pool R) :
      Transition (.turn now) (.after (.sweep [] count)) pool
        { pool, call := .done (.collected count) }
  | sweeps (resource : R) (rest : List R) (count : Nat) (now : Reading) (pool : Pool R) :
      Transition (.turn now) (.after (.sweep (resource :: rest) count)) pool
        { pool := pool.record .countCollected, call := .closing resource (.sweep rest count) }
  | drained (now : Reading) (pool : Pool R) :
      Transition (.turn now) (.after (.drain [])) pool { pool, call := .retiring }
  | drains (resource : R) (rest : List R) (now : Reading) (pool : Pool R) :
      Transition (.turn now) (.after (.drain (resource :: rest))) pool
        { pool, call := .closing resource (.drain rest) }
  | retries (patience : Patience) (now : Reading) (pool : Pool R) :
      Transition (.turn now) (.after (.retry patience)) pool
        { pool, call := .seeking patience false }
  | retriesTooLate (deadline : Reading) (timeout : Duration) (now : Reading) (pool : Pool R) :
      Transition (.turn now) (.after (.retry (.until deadline timeout))) pool
        (Call.timedOut pool timeout)
  | overslept (deadline : Reading) (timeout : Duration) (pool : Pool R) :
      Transition .oversleep (.parked (.until deadline timeout)) pool
        { pool, call := .seeking (.until deadline timeout) true }
  | retired (pool : Pool R) :
      Transition .retire .retiring pool { pool, call := .done .closed }
  | raised (text : String) (call : Call R) (pool : Pool R)
      (hasked : call = .making ∨ (∃ patience resource, call = .checking patience resource) ∨
        ∃ resource next, call = .closing resource next) :
      Transition (.raise text) call pool { pool, call := .done (.aborted (.raised text)) }

namespace Transition

theorem seek (patience : Patience) (waited : Bool) (now : Reading) (pool : Pool R) :
    Transition (.turn now) (.seeking patience waited) pool
      (Call.seek patience waited now pool) := by
  unfold Call.seek Pool.takeSlot
  by_cases hclosed : pool.closed = true
  · simp only [if_pos hclosed]
    exact barred patience waited now hclosed
  · have hopen := eq_false_of_ne_true hclosed
    simp only [if_neg hclosed]
    cases hchoose : Pool.choose? pool.selection pool.available with
    | some chosen => exact granted patience waited now hopen (Pool.perm_of_choose? hchoose)
    | none =>
        have hnone := Pool.choose?_eq_none hchoose
        by_cases hroom : pool.size + pool.creating < pool.maxCapacity
        · simp only [if_pos hroom]
          exact reserved patience waited now hopen hnone hroom
        · have hfull := Nat.le_of_not_lt hroom
          simp only [if_neg hroom]
          cases patience with
          | never => exact givesUp waited now hopen hnone hfull
          | forever => exact waits .forever waited now hopen hnone hfull
          | «until» deadline timeout =>
              by_cases hover : deadline ≤ now
              · simp only [Call.sleepOrGiveUp, if_pos hover]
                exact timesOut deadline timeout waited now hopen hnone hfull
              · simp only [Call.sleepOrGiveUp, if_neg hover]
                exact waits (.until deadline timeout) waited now hopen hnone hfull

theorem enroll (answer : Made R) (now : Reading) (pool : Pool R) :
    Transition (.turn now) (.registering answer) pool (Call.enroll answer now pool) := by
  cases answer with
  | failed source => exact failed source now pool
  | ok resource =>
      have hsome := Pool.contains_eq_isSome pool resource
      unfold Call.enroll Pool.register
      by_cases hclosed : pool.closed = true
      · simp only [if_pos hclosed]
        exact late resource now hclosed
      · have hopen := eq_false_of_ne_true hclosed
        by_cases htracked : pool.tracked.contains resource = true
        · simp only [if_neg hclosed, if_pos htracked]
          exact duplicate resource now hopen (hsome ▸ htracked)
        · simp only [if_neg hclosed, if_neg htracked]
          rw [hsome, Bool.not_eq_true, Option.isSome_eq_false_iff, Option.isNone_iff_eq_none]
            at htracked
          exact kept resource now hopen htracked

theorem condemn (patience : Patience) (resource : R) (now : Reading) (pool : Pool R) :
    Transition (.turn now) (.condemned patience resource) pool
      (Call.condemn patience resource pool) := by
  have hsome := Pool.contains_eq_isSome pool resource
  unfold Call.condemn Pool.forget
  by_cases htracked : pool.tracked.contains resource = true
  · simp only [if_pos htracked]
    exact forgot patience resource now (hsome ▸ htracked)
  · simp only [if_neg htracked]
    rw [hsome, Bool.not_eq_true, Option.isSome_eq_false_iff, Option.isNone_iff_eq_none]
      at htracked
    exact forgotAgain patience resource now htracked

theorem giveBack (resource : R) (reading now : Reading) (pool : Pool R) :
    Transition (.turn now) (.returning resource reading) pool
      (Call.giveBack resource reading pool) := by
  unfold Call.giveBack
  cases hfound : pool.tracked.get? resource with
  | none =>
      simp only [Pool.release, hfound]
      exact refused resource reading now .notAcquired (by simp [Pool.checkedOut?, hfound])
  | some tracked =>
      cases hinUse : tracked.inUse with
      | false =>
          simp only [Pool.release, hfound, hinUse, Bool.not_false, if_true]
          exact refused resource reading now .alreadyReleased
            (by simp [Pool.checkedOut?, hfound, hinUse])
      | true =>
          have hout : pool.checkedOut? resource = some true := by
            simp [Pool.checkedOut?, hfound, hinUse]
          rw [Pool.release_of_out hout]
          by_cases hclosed : pool.closed = true
          · simp only [if_pos hclosed]
            exact returnedLate resource reading now hclosed hout
          · simp only [if_neg hclosed]
            exact pooled resource reading now (eq_false_of_ne_true hclosed) hout

theorem scan (now : Reading) (pool : Pool R) :
    Transition (.turn now) .scanning pool (Call.scan now pool) := by
  unfold Call.scan Pool.collect
  by_cases hclosed : pool.closed = true
  · simp only [if_pos hclosed]
    exact scannedNothing now hclosed
  · have hperm := Pool.perm_sweep now pool.available pool
    obtain ⟨hnodup, htracked⟩ := Pool.taken_sweep now pool.available pool
    simp only [if_neg hclosed, Pool.pool_sweep]
    exact scanned now (eq_false_of_ne_true hclosed) hperm hnodup htracked

theorem shutDown (now : Reading) (pool : Pool R) :
    Transition (.turn now) .shutting pool (Call.shut pool) := by
  unfold Call.shut Pool.shut
  by_cases hclosed : pool.closed = true
  · simp only [if_pos hclosed]
    exact shutAgain now hclosed
  · have hopen := eq_false_of_ne_true hclosed
    by_cases hcount : pool.available.length ≤ pool.size
    · simp only [if_neg hclosed, Pool.inUse, if_pos hcount]
      exact shut now hopen hcount
    · simp only [if_neg hclosed, Pool.inUse, if_neg hcount]
      exact cutShort now hopen (Nat.lt_of_not_le hcount)

theorem proceed (next : Next R) (now : Reading) (pool : Pool R) :
    Transition (.turn now) (.after next) pool (Call.proceed next now pool) := by
  cases next with
  | finish outcome => exact finished outcome now pool
  | sweep rest count =>
      cases rest with
      | nil => exact swept count now pool
      | cons resource rest => exact sweeps resource rest count now pool
  | drain rest =>
      cases rest with
      | nil => exact drained now pool
      | cons resource rest => exact drains resource rest now pool
  | retry patience =>
      cases patience with
      | never => exact retries .never now pool
      | forever => exact retries .forever now pool
      | «until» deadline timeout =>
          by_cases hover : deadline ≤ now
          · simp only [Call.proceed, Call.retry, if_pos hover]
            exact retriesTooLate deadline timeout now pool
          · simp only [Call.proceed, Call.retry, if_neg hover]
            exact retries (.until deadline timeout) now pool

theorem advance {call : Call R} (hneed : call.need = .turn) (now : Reading) (pool : Pool R) :
    Transition (.turn now) call pool (call.advance now pool) := by
  cases call with
  | seeking patience waited => exact seek patience waited now pool
  | registering answer => exact enroll answer now pool
  | condemned patience resource => exact condemn patience resource now pool
  | returning resource reading => exact giveBack resource reading now pool
  | scanning => exact scan now pool
  | shutting => exact shutDown now pool
  | after next => exact proceed next now pool
  | parked | making | checking | closing | retiring | done => simp [Call.need] at hneed

end Transition

theorem transition_of_perform? {move : Move R} {call : Call R} {pool : Pool R}
    {advanced : Call.Advanced R} (hperformed : move.perform? call pool = some advanced) :
    Transition move call pool advanced := by
  unfold Move.perform? at hperformed
  split at hperformed
  next request now outcome hneed =>
    cases call <;> simp [Call.need] at hneed
    cases hperformed
    exact .begin request now _ pool
  next now hneed =>
    cases hperformed
    exact .advance hneed now pool
  next answer hneed =>
    cases call <;> simp [Call.need] at hneed
    cases hperformed
    exact .made answer pool
  next healthy resource hneed =>
    cases call <;> simp [Call.need] at hneed
    cases hperformed
    cases healthy with
    | true => exact .passed _ _ pool
    | false => exact .condemned _ _ pool
  next resource hneed =>
    cases call <;> simp [Call.need] at hneed
    cases hperformed
    exact .disposed _ _ pool
  next hneed =>
    cases call <;> simp [Call.need] at hneed
    next patience =>
      cases patience <;> simp [Call.alarm?] at hperformed
      subst hperformed
      exact .overslept _ _ pool
  next hneed =>
    cases call <;> simp [Call.need] at hneed
    cases hperformed
    exact .retired pool
  next text hneed =>
    cases call <;> simp [Call.need] at hneed
    cases hperformed
    exact .raised text _ pool (.inl rfl)
  next text resource hneed =>
    cases call <;> simp [Call.need] at hneed
    cases hperformed
    exact .raised text _ pool (.inr (.inl ⟨_, _, rfl⟩))
  next text resource hneed =>
    cases call <;> simp [Call.need] at hneed
    cases hperformed
    exact .raised text _ pool (.inr (.inr ⟨_, _, rfl⟩))
  next => cases hperformed

end Pooling.Elastic
