import Pooling.Proofs.Elastic.Sections
import Pooling.Proofs.Elastic.System

/-!
How a call goes on that wants a resource by a deadline: everything that a move can do to it, and
when it reads the clock.
-/

namespace Pooling.Elastic

variable {R : Type} [DecidableEq R]

/-- The ways a call goes that wants a resource by a deadline: the move, the call it happens to and
the pool on the left; what comes of it on the right. -/
inductive Stride (deadline : Reading) (timeout : Duration) (time : Reading) :
    Move R → Call R → Pool R → Call.Advanced R → Prop
  | barred (waited : Bool) {pool after : Pool R} (hslot : pool.takeSlot = (.closed, after)) :
      Stride deadline timeout time (.turn time) (.seeking (.until deadline timeout) waited) pool
        { pool := after, call := .done (.failed (if waited then .cancelled else .closed)) }
  | polls (waited : Bool) {pool after : Pool R} {resource : R}
      (hslot : pool.takeSlot = (.pooled resource, after)) :
      Stride deadline timeout time (.turn time) (.seeking (.until deadline timeout) waited) pool
        { pool := after, call := .checking (.until deadline timeout) resource }
  | reserves (waited : Bool) {pool after : Pool R} (hslot : pool.takeSlot = (.create, after)) :
      Stride deadline timeout time (.turn time) (.seeking (.until deadline timeout) waited) pool
        { pool := after, call := .making }
  | waits (waited : Bool) {pool after : Pool R} (hslot : pool.takeSlot = (.full, after))
      (hearly : time < deadline) :
      Stride deadline timeout time (.turn time) (.seeking (.until deadline timeout) waited) pool
        { pool := after, call := .parked (.until deadline timeout) }
  | expires (waited : Bool) {pool after : Pool R} (hslot : pool.takeSlot = (.full, after))
      (hlate : deadline ≤ time) :
      Stride deadline timeout time (.turn time) (.seeking (.until deadline timeout) waited) pool
        (Call.timedOut after timeout)
  | oversleeps (pool : Pool R) :
      Stride deadline timeout time .oversleep (.parked (.until deadline timeout)) pool
        { pool, call := .seeking (.until deadline timeout) true }
  | makes (answer : Made R) (pool : Pool R) :
      Stride deadline timeout time (.make answer) .making pool
        { pool, call := .registering answer }
  | enrolls (answer : Made R) (pool : Pool R) :
      Stride deadline timeout time (.turn time) (.registering answer) pool
        (Call.enroll answer time pool)
  | passes (resource : R) (pool : Pool R) :
      Stride deadline timeout time (.check true) (.checking (.until deadline timeout) resource) pool
        { pool := pool.record .countAcquired, call := .done (.acquired resource) }
  | fails (resource : R) (pool : Pool R) :
      Stride deadline timeout time (.check false) (.checking (.until deadline timeout) resource)
        pool { pool, call := .condemned (.until deadline timeout) resource }
  | forgets (resource : R) (pool : Pool R) :
      Stride deadline timeout time (.turn time) (.condemned (.until deadline timeout) resource) pool
        (Call.condemn (.until deadline timeout) resource pool)
  | disposes (resource : R) (next : Next R) (pool : Pool R) :
      Stride deadline timeout time .dispose (.closing resource next) pool
        { pool, call := .after next }
  | retries (pool : Pool R) (hearly : time < deadline) :
      Stride deadline timeout time (.turn time) (.after (.retry (.until deadline timeout))) pool
        { pool, call := .seeking (.until deadline timeout) false }
  | isTooLate (pool : Pool R) (hlate : deadline ≤ time) :
      Stride deadline timeout time (.turn time) (.after (.retry (.until deadline timeout))) pool
        (Call.timedOut pool timeout)
  | finishes (pool : Pool R) :
      Stride deadline timeout time (.turn time) (.after (.finish (.failed .closed))) pool
        { pool, call := .done (.failed .closed) }
  | raises (text : String) (call : Call R) (pool : Pool R)
      (hasked : call = .making ∨ (∃ patience resource, call = .checking patience resource) ∨
        ∃ resource next, call = .closing resource next) :
      Stride deadline timeout time (.raise text) call pool
        { pool, call := .done (.aborted (.raised text)) }

namespace Call

/-- The calls that come of one which wants a resource by a deadline. -/
def Timed (patience : Patience) : Call R → Prop
  | seeking own _ | parked own | checking own _ | condemned own _ => own = patience
  | closing _ next | after next => next = .retry patience ∨ next = .finish (.failed .closed)
  | making | registering _ | done _ => True
  | returning _ _ | scanning | shutting | retiring => False

def timesOut : Call R → Bool
  | done (.failed (.timeout _)) => true
  | _ => false

/-- The calls that will not time out any more. -/
def Assured : Call R → Prop
  | making | registering _ => True
  | closing _ next | after next => next = .finish (.failed .closed)
  | done outcome => timesOut (done outcome) = false
  | _ => False

/-- The calls between a check that failed and the next look for a slot. -/
def Rejecting (patience : Patience) : Call R → Prop
  | condemned _ _ => True
  | closing _ next | after next => next = .retry patience
  | _ => False

/-- The calls that are about to look for a slot, or are having a resource checked or made. -/
def Seeks : Call R → Prop
  | seeking _ _ | checking _ _ | making => True
  | _ => False

instance (call : Call R) : Decidable call.Seeks := by
  unfold Seeks
  split <;> infer_instance

/-- Whether the section of a call reads the clock. -/
def Reads (pool : Pool R) : Call R → Prop
  | seeking (.until _ _) _ => pool.takeSlot.1 = .full
  | after (.retry (.until _ _)) => True
  | registering (.ok resource) => pool.closed = false ∧ pool.tracked.contains resource = false
  | _ => False

omit [DecidableEq R] in
theorem timesOut_of_assured {call : Call R} (hassured : call.Assured) :
    call.timesOut = false := by
  cases call with
  | done outcome => exact hassured
  | _ => rfl

omit [DecidableEq R] in
theorem Assured.timed {call : Call R} (hassured : call.Assured) (patience : Patience) :
    call.Timed patience := by
  cases call with
  | making | registering | done => trivial
  | closing | after => exact .inr hassured
  | _ => exact hassured.elim

omit [DecidableEq R] in
@[simp] theorem timesOut_woken (call : Call R) : call.woken.timesOut = call.timesOut := by
  cases call <;> rfl

omit [DecidableEq R] in
theorem Timed.woken {call : Call R} {patience : Patience} (htimed : call.Timed patience) :
    call.woken.Timed patience := by
  cases call <;> exact htimed

omit [DecidableEq R] in
theorem Assured.woken {call : Call R} (hassured : call.Assured) : call.woken.Assured := by
  cases call <;> exact hassured

omit [DecidableEq R] in
theorem Rejecting.not_seeks {call : Call R} {patience : Patience}
    (hrejecting : call.Rejecting patience) : ¬ call.Seeks := by
  intro hseeks
  cases call with
  | condemned | closing | after => exact hseeks
  | _ => exact hrejecting

omit [DecidableEq R] in
theorem Rejecting.woken {call : Call R} {patience : Patience}
    (hrejecting : call.Rejecting patience) : call.woken.Rejecting patience := by
  cases call <;> exact hrejecting

theorem assured_enroll (answer : Made R) (now : Reading) (pool : Pool R) :
    (enroll answer now pool).call.Assured ∧
      (enroll answer now pool).pool.totals.timeouts = pool.totals.timeouts := by
  cases answer with
  | failed source => exact ⟨rfl, rfl⟩
  | ok resource =>
      by_cases hclosed : pool.closed = true
      · simp only [enroll, Pool.register, if_pos hclosed]
        exact ⟨rfl, trivial⟩
      · by_cases hcontains : pool.tracked.contains resource = true
        · simp only [enroll, Pool.register, if_neg hclosed, if_pos hcontains]
          exact ⟨rfl, trivial⟩
        · simp only [enroll, Pool.register, if_neg hclosed, if_neg hcontains]
          exact ⟨rfl, rfl⟩

theorem enroll_of_reads {resource : R} {pool : Pool R}
    (hreads : (registering (.ok resource)).Reads pool) (now : Reading) :
    (enroll (.ok resource) now pool).call = done (.acquired resource) := by
  obtain ⟨hopen, hnew⟩ := hreads
  simp [enroll, Pool.register, hopen, hnew]

end Call

theorem Pool.totals_takeSlot {pool after : Pool R} {slot : Slot R}
    (hslot : pool.takeSlot = (slot, after)) : after.totals = pool.totals := by
  unfold takeSlot at hslot
  split at hslot
  · cases hslot
    rfl
  · split at hslot
    · cases hslot
      rfl
    · split at hslot <;> cases hslot <;> rfl

theorem Pool.totals_forget (pool : Pool R) (resource : R) :
    (pool.forget resource).2.totals = pool.totals := by
  unfold forget
  split <;> rfl

section

variable {deadline : Reading} {timeout : Duration} {time : Reading} {move : Move R} {call : Call R}
  {pool : Pool R} {advanced : Call.Advanced R}

namespace Stride

theorem seek (waited : Bool) (pool : Pool R) :
    Stride deadline timeout time (.turn time) (.seeking (.until deadline timeout) waited) pool
      (Call.seek (.until deadline timeout) waited time pool) := by
  unfold Call.seek
  split
  next after hslot => exact barred waited hslot
  next resource after hslot => exact polls waited hslot
  next after hslot => exact reserves waited hslot
  next after hslot =>
    by_cases hlate : deadline ≤ time
    · simp only [Call.sleepOrGiveUp, if_pos hlate]
      exact expires waited hslot hlate
    · simp only [Call.sleepOrGiveUp, if_neg hlate]
      exact waits waited hslot (UInt64.not_le.mp hlate)

theorem advance (htimed : call.Timed (.until deadline timeout)) (hneed : call.need = .turn)
    (pool : Pool R) :
    Stride deadline timeout time (.turn time) call pool (call.advance time pool) := by
  cases call with
  | seeking patience waited =>
      cases htimed
      exact seek waited pool
  | registering answer => exact enrolls answer pool
  | condemned patience resource =>
      cases htimed
      exact forgets resource pool
  | after next =>
      rcases htimed with rfl | rfl
      · by_cases hlate : deadline ≤ time
        · simp only [Call.advance, Call.proceed, Call.retry, if_pos hlate]
          exact isTooLate pool hlate
        · simp only [Call.advance, Call.proceed, Call.retry, if_neg hlate]
          exact retries pool (UInt64.not_le.mp hlate)
      · exact finishes pool
  | returning | scanning | shutting => exact htimed.elim
  | parked | making | checking | closing | retiring | done => simp [Call.need] at hneed

end Stride

theorem stride_of_perform? (htimed : call.Timed (.until deadline timeout))
    (hown : ∀ request now, move ≠ .begin request now)
    (hclock : ∀ now, move = .turn now → now = time)
    (hperformed : move.perform? call pool = some advanced) :
    Stride deadline timeout time move call pool advanced := by
  unfold Move.perform? at hperformed
  split at hperformed
  next request now outcome hneed => exact absurd rfl (hown request now)
  next now hneed =>
    cases hperformed
    cases hclock now rfl
    exact .advance htimed hneed pool
  next answer hneed =>
    cases call <;> simp [Call.need] at hneed
    cases hperformed
    exact .makes answer pool
  next healthy resource hneed =>
    cases call <;> simp [Call.need] at hneed
    cases htimed
    cases hperformed
    cases healthy with
    | true => exact .passes _ pool
    | false => exact .fails _ pool
  next resource hneed =>
    cases call <;> simp [Call.need] at hneed
    cases hperformed
    exact .disposes _ _ pool
  next hneed =>
    cases call <;> simp [Call.need] at hneed
    cases htimed
    simp only [Call.alarm?, Option.map_some, Option.some.injEq] at hperformed
    subst hperformed
    exact .oversleeps pool
  next hneed =>
    cases call <;> simp [Call.need] at hneed
    exact htimed.elim
  next text hneed =>
    cases call <;> simp [Call.need] at hneed
    cases hperformed
    exact .raises text _ pool (.inl rfl)
  next text resource hneed =>
    cases call <;> simp [Call.need] at hneed
    cases hperformed
    exact .raises text _ pool (.inr (.inl ⟨_, _, rfl⟩))
  next text resource hneed =>
    cases call <;> simp [Call.need] at hneed
    cases hperformed
    exact .raises text _ pool (.inr (.inr ⟨_, _, rfl⟩))
  next => cases hperformed

namespace Stride

theorem timed (hstride : Stride deadline timeout time move call pool advanced)
    (htimed : call.Timed (.until deadline timeout)) :
    advanced.call.Timed (.until deadline timeout) := by
  cases hstride with
  | enrolls answer => exact (Call.assured_enroll answer time pool).1.timed _
  | forgets resource => exact .inl rfl
  | disposes resource next => exact htimed
  | barred | polls | reserves | waits | expires | oversleeps | makes | passes | fails | retries
  | isTooLate | finishes | raises => trivial

theorem assured (hstride : Stride deadline timeout time move call pool advanced)
    (hassured : call.Assured) : advanced.call.Assured := by
  cases hstride with
  | enrolls answer => exact (Call.assured_enroll answer time pool).1
  | makes answer => trivial
  | finishes | raises => rfl
  | disposes resource next => exact hassured
  | retries | isTooLate => cases hassured
  | barred | polls | reserves | waits | expires | oversleeps | passes | fails | forgets =>
      exact hassured.elim

/-- A time-out is counted in the move that ends the call with it. -/
theorem timeouts_eq (hstride : Stride deadline timeout time move call pool advanced) :
    advanced.pool.totals.timeouts =
      pool.totals.timeouts + if advanced.call.timesOut then 1 else 0 := by
  have hzero (word : UInt64) : word = word + 0 := (UInt64.add_zero word).symm
  cases hstride with
  | barred waited hslot =>
      rw [← Pool.totals_takeSlot hslot]
      cases waited <;> exact hzero _
  | polls waited hslot | reserves waited hslot | waits waited hslot =>
      rw [← Pool.totals_takeSlot hslot]
      exact hzero _
  | expires waited hslot =>
      rw [← Pool.totals_takeSlot hslot]
      rfl
  | enrolls answer =>
      obtain ⟨hassured, hsame⟩ := Call.assured_enroll answer time pool
      rw [hsame, Call.timesOut_of_assured hassured]
      exact hzero _
  | forgets resource =>
      have hsame := congrArg Totals.timeouts (pool.totals_forget resource)
      exact hsame.trans (hzero _)
  | isTooLate => rfl
  | oversleeps | makes | passes | fails | disposes | retries | finishes | raises => exact hzero _

theorem not_done (hstride : Stride deadline timeout time move call pool advanced)
    (outcome : Outcome R) : call ≠ .done outcome := by
  cases hstride with
  | raises text call pool hasked =>
      rcases hasked with rfl | ⟨_, _, rfl⟩ | ⟨_, _, rfl⟩ <;> simp
  | _ => simp

theorem timesOut_eq_false (hstride : Stride deadline timeout time move call pool advanced) :
    call.timesOut = false := by
  cases call with
  | done outcome => exact absurd rfl (hstride.not_done outcome)
  | _ => rfl

theorem late_of_timeout (hstride : Stride deadline timeout time move call pool advanced)
    {timeout' : Duration} (htimeout : advanced.call = .done (.failed (.timeout timeout'))) :
    timeout' = timeout ∧ call.Reads pool ∧ deadline ≤ time := by
  cases hstride with
  | expires waited hslot hlate =>
      cases htimeout
      exact ⟨rfl, congrArg Prod.fst hslot, hlate⟩
  | isTooLate _ hlate =>
      cases htimeout
      exact ⟨rfl, trivial, hlate⟩
  | barred waited => cases waited <;> cases htimeout
  | enrolls answer =>
      have hnot := Call.timesOut_of_assured (Call.assured_enroll answer time pool).1
      rw [htimeout] at hnot
      cases hnot
  | forgets | polls | reserves | waits | oversleeps | makes | passes | fails | disposes | retries
  | finishes | raises => cases htimeout

/-- A call that reads a clock which has come to the deadline is at its end, well or not. -/
theorem done_of_late (hstride : Stride deadline timeout time move call pool advanced)
    (hreads : call.Reads pool) (hlate : deadline ≤ time) :
    ∃ outcome, advanced.call = .done outcome := by
  cases hstride with
  | barred | expires | isTooLate | raises => exact ⟨_, rfl⟩
  | polls waited hslot | reserves waited hslot =>
      rw [Call.Reads, hslot] at hreads
      cases hreads
  | waits waited hslot hearly => exact absurd hlate (UInt64.not_le.mpr hearly)
  | retries _ hearly => exact absurd hlate (UInt64.not_le.mpr hearly)
  | enrolls answer =>
      cases answer with
      | ok resource => exact ⟨_, Call.enroll_of_reads hreads time⟩
      | failed => exact hreads.elim
  | oversleeps | makes | passes | fails | forgets | disposes | finishes => exact hreads.elim

theorem early_of_parked (hstride : Stride deadline timeout time move call pool advanced)
    {patience : Patience} (hparked : advanced.call = .parked patience) :
    call.Reads pool ∧ time < deadline := by
  cases hstride with
  | waits waited hslot hearly => exact ⟨congrArg Prod.fst hslot, hearly⟩
  | enrolls answer =>
      have hassured := (Call.assured_enroll answer time pool).1
      rw [hparked] at hassured
      exact hassured.elim
  | barred | polls | reserves | expires | oversleeps | makes | passes | fails | forgets | disposes
  | retries | isTooLate | finishes | raises => cases hparked

theorem rejecting_of_failure (hstride : Stride deadline timeout time move call pool advanced)
    (hfailed : move = .check false) : advanced.call.Rejecting (.until deadline timeout) := by
  cases hstride with
  | fails => trivial
  | _ => cases hfailed

/-- From a check that failed it goes on to a reading of the clock. -/
theorem of_rejecting (hstride : Stride deadline timeout time move call pool advanced)
    (hrejecting : call.Rejecting (.until deadline timeout)) :
    advanced.call.Rejecting (.until deadline timeout) ∨ (∃ outcome, advanced.call = .done outcome) ∨
      call.Reads pool ∧ time < deadline := by
  cases hstride with
  | forgets => exact .inl rfl
  | disposes => exact .inl hrejecting
  | retries _ hearly => exact .inr (.inr ⟨trivial, hearly⟩)
  | isTooLate | raises => exact .inr (.inl ⟨_, rfl⟩)
  | finishes => cases hrejecting
  | barred | polls | reserves | waits | expires | oversleeps | makes | enrolls | passes | fails =>
      exact hrejecting.elim

theorem assured_of_create (hstride : Stride deadline timeout time move call pool advanced)
    {waited : Bool} (hseeking : call = .seeking (.until deadline timeout) waited)
    (hslot : pool.takeSlot.1 = .create) : advanced.call.Assured := by
  cases hstride with
  | reserves => trivial
  | barred _ hslot' | polls _ hslot' | waits _ hslot' | expires _ hslot' =>
      rw [hslot'] at hslot
      cases hslot
  | raises text call pool hasked =>
      rcases hasked with rfl | ⟨_, _, rfl⟩ | ⟨_, _, rfl⟩ <;> cases hseeking
  | oversleeps | makes | enrolls | passes | fails | forgets | disposes | retries | isTooLate
  | finishes => cases hseeking

theorem checking_of_pooled (hstride : Stride deadline timeout time move call pool advanced)
    {waited : Bool} (hseeking : call = .seeking (.until deadline timeout) waited) {resource : R}
    (hslot : pool.takeSlot.1 = .pooled resource) :
    advanced.call = .checking (.until deadline timeout) resource := by
  cases hstride with
  | polls _ hslot' =>
      rw [hslot'] at hslot
      cases hslot
      rfl
  | barred _ hslot' | reserves _ hslot' | waits _ hslot' | expires _ hslot' =>
      rw [hslot'] at hslot
      cases hslot
  | raises text call pool hasked =>
      rcases hasked with rfl | ⟨_, _, rfl⟩ | ⟨_, _, rfl⟩ <;> cases hseeking
  | oversleeps | makes | enrolls | passes | fails | forgets | disposes | retries | isTooLate
  | finishes => cases hseeking

theorem assured_of_checked (hstride : Stride deadline timeout time move call pool advanced)
    {patience : Patience} {resource : R} (hchecking : call = .checking patience resource)
    (hnot : move ≠ .check false) : advanced.call.Assured := by
  cases hstride with
  | passes | raises => rfl
  | fails => exact absurd rfl hnot
  | barred | polls | reserves | waits | expires | oversleeps | makes | enrolls | forgets | disposes
  | retries | isTooLate | finishes => cases hchecking

end Stride

end

end Pooling.Elastic
