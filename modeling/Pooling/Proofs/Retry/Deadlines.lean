import Mathlib.Algebra.Order.Floor.Div
import Mathlib.Data.Nat.Find
import Mathlib.Logic.Function.Iterate
import Pooling.Retry.Policy

/-!
A policy that is bounded by time sleeps up to its end and never past it: what it does at any reading
of its clock, and how far it gets where its own sleeps are all that moves the clock.
-/

namespace Pooling

theorem Reading.toNat_after_of_le {start deadline : Reading} {span : Duration}
    (hspan : span.nanos ≤ (deadline.toNat - start.toNat) * 1000000) :
    (start.after span.millis).toNat = start.toNat + span.nanos / 1000000 := by
  have hdeadline := deadline.toNat_lt
  have hstart := start.toNat_lt
  rw [Reading.toNat_after, Duration.toNat_millis, UInt64.size]
  omega

theorem Duration.millis_pos {span : Duration} (hlong : Duration.ofMillis 1 ≤ span) :
    0 < span.millis.toNat := by
  have hnanos : 1 * 1000000 ≤ span.nanos := hlong
  rw [Duration.toNat_millis, UInt64.size]
  omega

namespace TimeBoundedRetry

variable {ω : Type} [Waiting ω]

omit [Waiting ω] in
theorem toNat_deadline_start (context : TimeContext) (maxDuration : Duration) (wait : ω)
    (time : Timeline) : (start context maxDuration wait time).deadline.toNat =
      min ((time.read context.clock).toNat + maxDuration.nanos / 1000000) (UInt64.size - 1) := by
  rw [start, Reading.toNat_after, Duration.toNat_millis]
  omega

/-! What an attempt comes to. -/

section

variable {policy : TimeBoundedRetry ω} {time : Timeline}

def remaining (policy : TimeBoundedRetry ω) (time : Timeline) : Duration :=
  .ofMillis (policy.deadline - time.read policy.context.clock)

/-- What the strategy says to the next attempt after the first. -/
def proposed (policy : TimeBoundedRetry ω) : Except Abort Duration × ω :=
  Waiting.wait policy.attempts policy.wait

theorem attempt_first (hfresh : policy.attempts = 0) (time : Timeline) :
    policy.attempt time = ⟨.ok true, { policy with attempts := 1 }, time⟩ := by
  rw [attempt, if_pos hfresh]

theorem attempt_refused (hmade : policy.attempts ≠ 0)
    (hlate : policy.deadline ≤ time.read policy.context.clock) :
    policy.attempt time = ⟨.ok false, policy, time⟩ := by
  rw [attempt, if_neg hmade]
  exact if_pos hlate

theorem attempt_raised (hmade : policy.attempts ≠ 0)
    (hearly : time.read policy.context.clock < policy.deadline) {abort : Abort}
    (hraised : policy.proposed.1 = .error abort) :
    policy.attempt time = ⟨.error abort, { policy with wait := policy.proposed.2 }, time⟩ := by
  have hproposed : Waiting.wait policy.attempts policy.wait = (.error abort, policy.proposed.2) :=
    Prod.ext hraised rfl
  simp only [attempt, if_neg hmade, if_neg (UInt64.not_le.mpr hearly), hproposed]

theorem attempt_granted (hmade : policy.attempts ≠ 0)
    (hearly : time.read policy.context.clock < policy.deadline) {span : Duration}
    (hspan : policy.proposed.1 = .ok span) (hfits : policy.attempts.toNat + 1 < UInt32.size) :
    policy.attempt time =
      ⟨.ok true, { policy with wait := policy.proposed.2, attempts := policy.attempts + 1 },
        policy.sleepFor (min span (policy.remaining time)) time⟩ := by
  have hproposed : Waiting.wait policy.attempts policy.wait = (.ok span, policy.proposed.2) :=
    Prod.ext hspan rfl
  simp only [attempt, if_neg hmade, if_neg (UInt64.not_le.mpr hearly), hproposed, nextCount?,
    if_pos hfits, remaining]

theorem attempt_full (hmade : policy.attempts ≠ 0)
    (hearly : time.read policy.context.clock < policy.deadline) {span : Duration}
    (hspan : policy.proposed.1 = .ok span) (hfull : ¬ policy.attempts.toNat + 1 < UInt32.size) :
    policy.attempt time =
      ⟨.error .countOverflow, { policy with wait := policy.proposed.2 },
        policy.sleepFor (min span (policy.remaining time)) time⟩ := by
  have hproposed : Waiting.wait policy.attempts policy.wait = (.ok span, policy.proposed.2) :=
    Prod.ext hspan rfl
  simp only [attempt, if_neg hmade, if_neg (UInt64.not_le.mpr hearly), hproposed, nextCount?,
    if_neg hfull, remaining]

inductive Attempted (policy : TimeBoundedRetry ω) (time : Timeline) :
    Asked (TimeBoundedRetry ω) → Prop
  | first (hfresh : policy.attempts = 0) :
      Attempted policy time ⟨.ok true, { policy with attempts := 1 }, time⟩
  | refused (hmade : policy.attempts ≠ 0)
      (hlate : policy.deadline ≤ time.read policy.context.clock) :
      Attempted policy time ⟨.ok false, policy, time⟩
  | raised (hmade : policy.attempts ≠ 0)
      (hearly : time.read policy.context.clock < policy.deadline) {abort : Abort}
      (hraised : policy.proposed.1 = .error abort) :
      Attempted policy time ⟨.error abort, { policy with wait := policy.proposed.2 }, time⟩
  | granted (hmade : policy.attempts ≠ 0)
      (hearly : time.read policy.context.clock < policy.deadline) {span : Duration}
      (hspan : policy.proposed.1 = .ok span)
      (hfits : policy.attempts.toNat + 1 < UInt32.size) :
      Attempted policy time
        ⟨.ok true, { policy with wait := policy.proposed.2, attempts := policy.attempts + 1 },
          policy.sleepFor (min span (policy.remaining time)) time⟩
  | full (hmade : policy.attempts ≠ 0)
      (hearly : time.read policy.context.clock < policy.deadline) {span : Duration}
      (hspan : policy.proposed.1 = .ok span)
      (hfull : ¬ policy.attempts.toNat + 1 < UInt32.size) :
      Attempted policy time
        ⟨.error .countOverflow, { policy with wait := policy.proposed.2 },
          policy.sleepFor (min span (policy.remaining time)) time⟩

theorem attempted (policy : TimeBoundedRetry ω) (time : Timeline) :
    policy.Attempted time (policy.attempt time) := by
  by_cases hmade : policy.attempts = 0
  · rw [attempt_first hmade]
    exact .first hmade
  by_cases hlate : policy.deadline ≤ time.read policy.context.clock
  · rw [attempt_refused hmade hlate]
    exact .refused hmade hlate
  have hearly := UInt64.not_le.mp hlate
  cases hproposed : policy.proposed.1 with
  | error abort =>
      rw [attempt_raised hmade hearly hproposed]
      exact .raised hmade hearly hproposed
  | ok span =>
      by_cases hfits : policy.attempts.toNat + 1 < UInt32.size
      · rw [attempt_granted hmade hearly hproposed hfits]
        exact .granted hmade hearly hproposed hfits
      · rw [attempt_full hmade hearly hproposed hfits]
        exact .full hmade hearly hproposed hfits

omit [Waiting ω] in
theorem nanos_remaining (hearly : time.read policy.context.clock < policy.deadline) :
    (policy.remaining time).nanos =
      (policy.deadline.toNat - (time.read policy.context.clock).toNat) * 1000000 := by
  rw [remaining, Duration.nanos_ofMillis, UInt64.toNat_sub_of_le _ _ (UInt64.le_of_lt hearly)]

/-- No sleep at all, or one of some length that ends at the end at the latest. -/
def SleepsFrom (policy : TimeBoundedRetry ω) (time later : Timeline) : Prop :=
  later = time ∨ ∃ span, later = time.sleep span policy.context.sleeper ∧ 0 < span.nanos ∧
    span.nanos ≤
      (policy.deadline.toNat - (time.read policy.context.clock).toNat) * 1000000

omit [Waiting ω] in
theorem sleepsFrom_sleepFor (hearly : time.read policy.context.clock < policy.deadline)
    (span : Duration) :
    policy.SleepsFrom time (policy.sleepFor (min span (policy.remaining time)) time) := by
  rw [sleepFor]
  split
  next => exact .inl rfl
  next hspan =>
    right
    refine ⟨_, rfl, ?_, ?_⟩
    · rw [Duration.isZero, decide_eq_true_eq] at hspan
      exact Nat.pos_of_ne_zero hspan
    · rw [Duration.nanos_min, nanos_remaining hearly]
      exact Nat.min_le_right ..

theorem Attempted.sleepsFrom {asked : Asked (TimeBoundedRetry ω)}
    (hattempted : policy.Attempted time asked) : policy.SleepsFrom time asked.time := by
  cases hattempted with
  | first => exact .inl rfl
  | refused => exact .inl rfl
  | raised => exact .inl rfl
  | granted _ hearly => exact sleepsFrom_sleepFor hearly _
  | full _ hearly => exact sleepsFrom_sleepFor hearly _

theorem Attempted.keeps {asked : Asked (TimeBoundedRetry ω)}
    (hattempted : policy.Attempted time asked) :
    asked.policy.context = policy.context ∧ asked.policy.deadline = policy.deadline := by
  cases hattempted with
  | first => exact ⟨rfl, rfl⟩
  | refused => exact ⟨rfl, rfl⟩
  | raised => exact ⟨rfl, rfl⟩
  | granted => exact ⟨rfl, rfl⟩
  | full => exact ⟨rfl, rfl⟩

end

/-- A policy, and how many attempts it has granted since it was made. -/
structure Stint (ω : Type) where
  policy : TimeBoundedRetry ω
  granted : Nat := 0

namespace Stint

/-- The policy is asked once more, after any time may have gone by in any direction. -/
def after (stint : Stint ω) (time : Timeline) : Stint ω :=
  let asked := stint.policy.attempt time
  match asked.granted with
  | .ok true => ⟨asked.policy, stint.granted + 1⟩
  | _ => ⟨asked.policy, stint.granted⟩

/-- The policy counts the attempts that it has granted, and keeps its end. -/
structure Counts (stint : Stint ω) (context : TimeContext) (deadline : Reading) : Prop where
  context_eq : stint.policy.context = context
  deadline_eq : stint.policy.deadline = deadline
  attempts_eq : stint.policy.attempts.toNat = stint.granted

variable {stint : Stint ω} {context : TimeContext} {deadline : Reading}

omit [Waiting ω] in
theorem Counts.fresh_iff (hcounts : stint.Counts context deadline) :
    stint.policy.attempts = 0 ↔ stint.granted = 0 := by
  rw [← hcounts.attempts_eq, ← UInt32.toNat_inj]
  rfl

theorem Counts.after (hcounts : stint.Counts context deadline) (time : Timeline) :
    (stint.after time).Counts context deadline := by
  obtain ⟨hcontext, hdeadline, hattempts⟩ := hcounts
  have hattempted := stint.policy.attempted time
  rw [Stint.after]
  generalize stint.policy.attempt time = asked at hattempted ⊢
  cases hattempted with
  | first hfresh =>
      rw [hfresh] at hattempts
      exact ⟨hcontext, hdeadline, congrArg Nat.succ hattempts⟩
  | refused => exact ⟨hcontext, hdeadline, hattempts⟩
  | raised => exact ⟨hcontext, hdeadline, hattempts⟩
  | granted _ _ _ hfits =>
      refine ⟨hcontext, hdeadline, ?_⟩
      show (stint.policy.attempts + 1).toNat = stint.granted + 1
      rw [UInt32.toNat_add, UInt32.toNat_one, Nat.mod_eq_of_lt hfits, hattempts]
  | full => exact ⟨hcontext, hdeadline, hattempts⟩

theorem counts_of_times (times : List Timeline) (hcounts : stint.Counts context deadline) :
    (times.foldl Stint.after stint).Counts context deadline := by
  induction times generalizing stint with
  | nil => exact hcounts
  | cons time times ih => exact ih (hcounts.after time)

/-- What a policy that is bounded by time does next, decided by the reading of its clock and by what
its strategy proposes. -/
structure Timed (stint : Stint ω) (context : TimeContext) (deadline : Reading) : Prop where
  context_eq : stint.policy.context = context
  deadline_eq : stint.policy.deadline = deadline
  attempts_eq : stint.policy.attempts.toNat = stint.granted
  first : stint.granted = 0 → ∀ time,
    stint.policy.attempt time = ⟨.ok true, { stint.policy with attempts := 1 }, time⟩
  granted_iff : 0 < stint.granted → stint.granted + 1 < UInt32.size →
    (∃ span, stint.policy.proposed.1 = .ok span) → ∀ time,
      ((stint.policy.attempt time).granted = .ok true ↔ time.read context.clock < deadline)
  refused_iff : 0 < stint.granted → ∀ time,
    ((stint.policy.attempt time).granted = .ok false ↔ deadline ≤ time.read context.clock)
  refused : 0 < stint.granted → ∀ time, deadline ≤ time.read context.clock →
    stint.policy.attempt time = ⟨.ok false, stint.policy, time⟩
  raised : 0 < stint.granted → ∀ abort, stint.policy.proposed.1 = .error abort →
    ∀ time, time.read context.clock < deadline → stint.policy.attempt time =
      ⟨.error abort, { stint.policy with wait := stint.policy.proposed.2 }, time⟩
  sleeps : ∀ time, stint.policy.SleepsFrom time (stint.policy.attempt time).time

theorem Counts.timed (hcounts : stint.Counts context deadline) :
    stint.Timed context deadline := by
  have hfresh := hcounts.fresh_iff
  obtain ⟨rfl, rfl, hattempts⟩ := hcounts
  have hmade : 0 < stint.granted → stint.policy.attempts ≠ 0 := by
    intro hgranted hnone
    exact Nat.ne_of_gt hgranted (hfresh.mp hnone)
  refine {
    context_eq := rfl
    deadline_eq := rfl
    attempts_eq := hattempts
    first := fun hnone => attempt_first (hfresh.mpr hnone)
    granted_iff := ?_
    refused_iff := ?_
    refused := fun hgranted time hlate => attempt_refused (hmade hgranted) hlate
    raised := fun hgranted abort hraised time hearly =>
      attempt_raised (hmade hgranted) hearly hraised
    sleeps := fun time => (stint.policy.attempted time).sleepsFrom }
  · rintro hgranted hfits ⟨span, hspan⟩ time
    constructor
    · intro htrue
      by_contra hlate
      rw [attempt_refused (hmade hgranted) (UInt64.not_lt.mp hlate)] at htrue
      cases htrue
    · intro hearly
      rw [attempt_granted (hmade hgranted) hearly hspan (hattempts ▸ hfits)]
  · intro hgranted time
    constructor
    · intro hfalse
      have hattempted := stint.policy.attempted time
      generalize stint.policy.attempt time = asked at hattempted hfalse
      cases hattempted with
      | first => cases hfalse
      | refused _ hlate => exact hlate
      | raised => cases hfalse
      | granted => cases hfalse
      | full => cases hfalse
    · intro hlate
      rw [attempt_refused (hmade hgranted) hlate]

end Stint

/-! What a strategy proposes, one wait after another. -/

def strategy (wait : ω) : Nat → ω
  | 0 => wait
  | count + 1 => (Waiting.wait (UInt32.ofNat (count + 1)) (strategy wait count)).2

def proposal (wait : ω) (count : Nat) : Except Abort Duration :=
  (Waiting.wait (UInt32.ofNat (count + 1)) (strategy wait count)).1

/-- The whole milliseconds of the first so many waits. -/
def covered (wait : ω) : Nat → Nat
  | 0 => 0
  | count + 1 =>
      match proposal wait count with
      | .ok span => covered wait count + span.millis.toNat
      | .error _ => covered wait count

theorem covered_succ {wait : ω} {count : Nat} {span : Duration}
    (hspan : proposal wait count = .ok span) :
    covered wait (count + 1) = covered wait count + span.millis.toNat := by
  rw [covered, hspan]

/-- A policy that is asked over and over with nothing done in between. -/
structure Waiter (ω : Type) where
  policy : TimeBoundedRetry ω
  time : Timeline

namespace Waiter

def asked (waiter : Waiter ω) : Asked (TimeBoundedRetry ω) := waiter.policy.attempt waiter.time

def next (waiter : Waiter ω) : Waiter ω := ⟨waiter.asked.policy, waiter.asked.time⟩

def after (waiter : Waiter ω) (count : Nat) : Waiter ω := next^[count] waiter

/-- A new policy on the clock that only its own sleeper moves. -/
def start (maxDuration : Duration) (wait : ω) (time : Timeline) : Waiter ω :=
  ⟨TimeBoundedRetry.start .hand maxDuration wait time, time⟩

theorem after_succ (waiter : Waiter ω) (count : Nat) :
    waiter.after (count + 1) = (waiter.after count).next :=
  Function.iterate_succ_apply' ..

/-- The milliseconds from the reading of the clock up to the end. -/
def room (waiter : Waiter ω) : Nat := waiter.policy.deadline.toNat - waiter.time.hand.toNat

/-- The clock is the one moved by hand, and it is not past the end. -/
structure Timely (waiter : Waiter ω) (deadline : Reading) : Prop where
  context_eq : waiter.policy.context = .hand
  deadline_eq : waiter.policy.deadline = deadline
  hand_le : waiter.time.hand ≤ deadline

omit [Waiting ω] in
theorem timely_start (maxDuration : Duration) (wait : ω) (time : Timeline) :
    (start maxDuration wait time).Timely (start maxDuration wait time).policy.deadline := by
  refine ⟨rfl, rfl, ?_⟩
  have hlt := time.hand.toNat_lt
  rw [UInt64.le_iff_toNat_le, start, toNat_deadline_start, UInt64.size]
  show time.hand.toNat ≤ min (time.hand.toNat + _) _
  omega

theorem Timely.next {waiter : Waiter ω} {deadline : Reading}
    (htimely : waiter.Timely deadline) : waiter.next.Timely deadline := by
  obtain ⟨hcontext, rfl, hhand⟩ := htimely
  have hattempted := waiter.policy.attempted waiter.time
  obtain ⟨hsame, hend⟩ := hattempted.keeps
  refine ⟨hsame.trans hcontext, hend, ?_⟩
  show (waiter.policy.attempt waiter.time).time.hand ≤ _
  -- The clock moves by whole milliseconds, and so by no more than the sleep.
  rcases hattempted.sleepsFrom with hawake | ⟨span, hslept, -, hspan⟩
  · rw [hawake]
    exact hhand
  · rw [hcontext] at hslept hspan
    have hlater : (waiter.time.hand.after span.millis).toNat =
        waiter.time.hand.toNat + span.nanos / 1000000 := Reading.toNat_after_of_le hspan
    rw [UInt64.le_iff_toNat_le] at hhand ⊢
    rw [hslept]
    show (waiter.time.hand.after span.millis).toNat ≤ _
    rw [hlater]
    change span.nanos ≤ (_ - waiter.time.hand.toNat) * 1000000 at hspan
    omega

theorem Timely.after {waiter : Waiter ω} {deadline : Reading}
    (htimely : waiter.Timely deadline) (count : Nat) : (waiter.after count).Timely deadline := by
  induction count with
  | zero => exact htimely
  | succ count ih =>
      rw [after_succ]
      exact ih.next

omit [Waiting ω] in
theorem toNat_hand_sleepFor {policy : TimeBoundedRetry ω} (hcontext : policy.context = .hand)
    {time : Timeline} (hearly : time.hand < policy.deadline) (span : Duration) :
    (policy.sleepFor (min span (policy.remaining time)) time).hand.toNat =
      min (time.hand.toNat + span.millis.toNat) policy.deadline.toNat := by
  have hremaining : (policy.remaining time).nanos =
      (policy.deadline.toNat - time.hand.toNat) * 1000000 := by
    have hreading : time.read policy.context.clock = time.hand := by rw [hcontext]; rfl
    rw [nanos_remaining (by rw [hreading]; exact hearly), hreading]
  have hdeadline := policy.deadline.toNat_lt
  rw [UInt64.lt_iff_toNat_lt] at hearly
  rw [sleepFor, hcontext, Duration.isZero, Duration.nanos_min, hremaining, Duration.toNat_millis,
    UInt64.size]
  -- Without a sleep the clock stays, which is where a sleep of no length would leave it.
  split
  next hzero =>
    rw [decide_eq_true_eq] at hzero
    omega
  next =>
    show (time.hand.after (min span (policy.remaining time)).millis).toNat = _
    rw [Reading.toNat_after, Duration.toNat_millis, Duration.nanos_min, hremaining, UInt64.size]
    omega

/-- Where a waiter is after its first attempt and so many waits, none of which was refused. -/
structure Underway (origin : Waiter ω) (count : Nat) (waiter : Waiter ω) : Prop where
  policy_eq : waiter.policy =
    { origin.policy with
      attempts := UInt32.ofNat (count + 1)
      wait := strategy origin.policy.wait count }
  toNat_hand : waiter.time.hand.toNat =
    min (origin.time.hand.toNat + covered origin.policy.wait count) origin.policy.deadline.toNat

section

variable {origin waiter : Waiter ω} {count : Nat}

namespace Underway

theorem first (horigin : origin.Timely origin.policy.deadline)
    (hfresh : origin.policy.attempts = 0) : origin.Underway 0 origin.next := by
  have hle := UInt64.le_iff_toNat_le.mp horigin.hand_le
  rw [next, asked, attempt_first hfresh]
  refine ⟨rfl, ?_⟩
  show origin.time.hand.toNat = min (origin.time.hand.toNat + 0) _
  omega

theorem toNat_attempts (hunderway : origin.Underway count waiter)
    (hcount : count + 1 < UInt32.size) : waiter.policy.attempts.toNat = count + 1 := by
  rw [hunderway.policy_eq]
  exact UInt32.toNat_ofNat_of_lt hcount

theorem attempts_ne (hunderway : origin.Underway count waiter)
    (hcount : count + 1 < UInt32.size) : waiter.policy.attempts ≠ 0 := by
  intro hzero
  cases (hunderway.toNat_attempts hcount).symm.trans (congrArg UInt32.toNat hzero)

omit [Waiting ω] in
theorem read_eq (htimely : waiter.Timely origin.policy.deadline) :
    waiter.time.read waiter.policy.context.clock = waiter.time.hand := by
  rw [htimely.context_eq]
  rfl

theorem proposed_eq (hunderway : origin.Underway count waiter) {span : Duration}
    (hspan : proposal origin.policy.wait count = .ok span) :
    waiter.policy.proposed.1 = .ok span := by
  rw [hunderway.policy_eq]
  exact hspan

theorem early (hunderway : origin.Underway count waiter)
    (htimely : waiter.Timely origin.policy.deadline)
    (hroom : covered origin.policy.wait count < origin.room) :
    waiter.time.read waiter.policy.context.clock < waiter.policy.deadline := by
  rw [room] at hroom
  rw [read_eq htimely, htimely.deadline_eq, UInt64.lt_iff_toNat_lt, hunderway.toNat_hand]
  omega

theorem granted (hunderway : origin.Underway count waiter)
    (htimely : waiter.Timely origin.policy.deadline)
    (hroom : covered origin.policy.wait count < origin.room) {span : Duration}
    (hspan : proposal origin.policy.wait count = .ok span)
    (hfits : count + 2 < UInt32.size) :
    waiter.asked.granted = .ok true ∧ origin.Underway (count + 1) waiter.next := by
  have hcount := Nat.lt_of_succ_lt hfits
  have hattempts := hunderway.toNat_attempts hcount
  have hearly := hunderway.early htimely hroom
  have hasked : waiter.asked = _ := attempt_granted (hunderway.attempts_ne hcount) hearly
    (hunderway.proposed_eq hspan) (hattempts ▸ hfits)
  rw [next, hasked]
  refine ⟨rfl, ?_, ?_⟩
  · have hnext : UInt32.ofNat (count + 1) + 1 = UInt32.ofNat (count + 1 + 1) :=
      (UInt32.ofNat_add (count + 1) 1).symm
    rw [hunderway.policy_eq, ← hnext]
    rfl
  · rw [read_eq htimely] at hearly
    rw [toNat_hand_sleepFor htimely.context_eq hearly, hunderway.toNat_hand, covered_succ hspan,
      htimely.deadline_eq]
    omega

theorem full (hunderway : origin.Underway count waiter)
    (htimely : waiter.Timely origin.policy.deadline)
    (hroom : covered origin.policy.wait count < origin.room) {span : Duration}
    (hspan : proposal origin.policy.wait count = .ok span)
    (hfull : count + 2 = UInt32.size) : waiter.asked.granted = .error .countOverflow := by
  have hcount : count + 1 < UInt32.size := by omega
  have hattempts := hunderway.toNat_attempts hcount
  have hasked : waiter.asked = _ := attempt_full (hunderway.attempts_ne hcount)
    (hunderway.early htimely hroom) (hunderway.proposed_eq hspan) (by omega)
  rw [hasked]

theorem raised (hunderway : origin.Underway count waiter)
    (htimely : waiter.Timely origin.policy.deadline)
    (hroom : covered origin.policy.wait count < origin.room) {abort : Abort}
    (hraised : proposal origin.policy.wait count = .error abort)
    (hcount : count + 1 < UInt32.size) : waiter.asked.granted = .error abort := by
  have hproposed : waiter.policy.proposed.1 = .error abort := by
    rw [hunderway.policy_eq]
    exact hraised
  have hasked : waiter.asked = _ := attempt_raised (hunderway.attempts_ne hcount)
    (hunderway.early htimely hroom) hproposed
  rw [hasked]

theorem refused (hunderway : origin.Underway count waiter)
    (htimely : waiter.Timely origin.policy.deadline)
    (hroom : origin.room ≤ covered origin.policy.wait count) (hcount : count + 1 < UInt32.size) :
    waiter.time.hand = origin.policy.deadline ∧
      waiter.asked = ⟨.ok false, waiter.policy, waiter.time⟩ := by
  have hhand : waiter.time.hand = origin.policy.deadline := by
    rw [room] at hroom
    rw [← UInt64.toNat_inj, hunderway.toNat_hand]
    omega
  refine ⟨hhand, attempt_refused (hunderway.attempts_ne hcount) ?_⟩
  rw [read_eq htimely, htimely.deadline_eq, hhand]
  exact UInt64.le_refl _

end Underway

theorem underway_after (horigin : origin.Timely origin.policy.deadline)
    (hfresh : origin.policy.attempts = 0)
    (hspans : ∀ earlier < count, ∃ span, proposal origin.policy.wait earlier = .ok span)
    (hroom : ∀ earlier < count, covered origin.policy.wait earlier < origin.room)
    (hcount : count + 1 < UInt32.size) : origin.Underway count (origin.after (count + 1)) := by
  induction count with
  | zero => exact .first horigin hfresh
  | succ count ih =>
      have hlt := Nat.lt_succ_self count
      have hunderway := ih (fun earlier hearlier => hspans earlier (Nat.lt_succ_of_lt hearlier))
        (fun earlier hearlier => hroom earlier (Nat.lt_succ_of_lt hearlier))
        (Nat.lt_of_succ_lt hcount)
      obtain ⟨span, hspan⟩ := hspans count hlt
      rw [after_succ]
      exact (hunderway.granted (horigin.after _) (hroom count hlt) hspan hcount).2

/-- Attempts are granted up to some number of them, and from then on refused with the clock at the
end, unless there are more of them than the policy can count. -/
structure Stops (origin : Waiter ω) (grants : Nat) : Prop where
  granted : ∀ count < grants, count + 1 < UInt32.size →
    (origin.after count).asked.granted = .ok true
  refused : grants < UInt32.size → ∀ count, grants ≤ count →
    (origin.after count).time.hand = origin.policy.deadline ∧ (origin.after count).asked =
      ⟨.ok false, (origin.after grants).policy, (origin.after grants).time⟩
  full : UInt32.size ≤ grants →
    (origin.after (UInt32.size - 1)).asked.granted = .error .countOverflow

theorem after_of_refused {grants : Nat} (hrefused : (origin.after grants).asked =
      ⟨.ok false, (origin.after grants).policy, (origin.after grants).time⟩)
    (hcount : grants ≤ count) : origin.after count = origin.after grants := by
  induction count, hcount using Nat.le_induction with
  | base => rfl
  | succ count _ ih => rw [after_succ, ih, next, hrefused]

/-- As long as there is time left, an attempt is granted, up to the one that cannot be counted. -/
theorem granted_of_room (horigin : origin.Timely origin.policy.deadline)
    (hfresh : origin.policy.attempts = 0) {waits : Nat}
    (hspans : ∀ earlier < waits, ∃ span, proposal origin.policy.wait earlier = .ok span)
    (hroom : ∀ earlier < waits, covered origin.policy.wait earlier < origin.room) :
    (∀ count ≤ waits, count + 1 < UInt32.size →
      (origin.after count).asked.granted = .ok true) ∧
    (UInt32.size ≤ waits + 1 →
      (origin.after (UInt32.size - 1)).asked.granted = .error .countOverflow) := by
  have hunderway : ∀ {count : Nat}, count < waits → count + 1 < UInt32.size →
      origin.Underway count (origin.after (count + 1)) := by
    intro count hlt hcount
    exact underway_after horigin hfresh
      (fun earlier hearlier => hspans earlier (Nat.lt_trans hearlier hlt))
      (fun earlier hearlier => hroom earlier (Nat.lt_trans hearlier hlt)) hcount
  refine ⟨fun count hle hcount => ?_, fun hmany => ?_⟩
  · cases count with
    | zero => exact congrArg Asked.granted (attempt_first hfresh _)
    | succ count =>
        have hlt := Nat.lt_of_succ_le hle
        obtain ⟨span, hspan⟩ := hspans count hlt
        exact ((hunderway hlt (Nat.lt_of_succ_lt hcount)).granted (horigin.after _)
          (hroom count hlt) hspan hcount).1
  · have hlt : UInt32.size - 2 < waits := by
      rw [UInt32.size] at hmany ⊢
      omega
    obtain ⟨span, hspan⟩ := hspans _ hlt
    exact (hunderway hlt (by decide)).full (horigin.after _) (hroom _ hlt) hspan (by decide)

theorem stops_of_covered (horigin : origin.Timely origin.policy.deadline)
    (hfresh : origin.policy.attempts = 0) {waits : Nat}
    (hspans : ∀ earlier < waits, ∃ span, proposal origin.policy.wait earlier = .ok span)
    (hroom : ∀ earlier < waits, covered origin.policy.wait earlier < origin.room)
    (hcovered : origin.room ≤ covered origin.policy.wait waits) : origin.Stops (waits + 1) := by
  obtain ⟨hgranted, hfull⟩ := granted_of_room horigin hfresh hspans hroom
  refine ⟨fun count hlt => hgranted count (Nat.le_of_lt_succ hlt), fun hgrants count hle => ?_,
    hfull⟩
  obtain ⟨hhand, hrefused⟩ := (underway_after horigin hfresh hspans hroom hgrants).refused
    (horigin.after _) hcovered hgrants
  rw [after_of_refused hrefused hle]
  exact ⟨hhand, hrefused⟩

/-- A policy whose waits never fill its time grants as many attempts as it can count. -/
theorem stops_full (horigin : origin.Timely origin.policy.deadline)
    (hfresh : origin.policy.attempts = 0)
    (hspans : ∀ earlier < UInt32.size - 1, ∃ span, proposal origin.policy.wait earlier = .ok span)
    (hroom : ∀ earlier < UInt32.size - 1, covered origin.policy.wait earlier < origin.room) :
    origin.Stops UInt32.size := by
  obtain ⟨hgranted, hfull⟩ := granted_of_room horigin hfresh hspans hroom
  exact ⟨fun count hlt => hgranted count (Nat.le_pred_of_lt hlt),
    fun hgrants => absurd hgrants (Nat.lt_irrefl _), fun _ => hfull (by decide)⟩

/-- As long as there is time left and no attempt raises, the strategy gives a wait. -/
theorem exists_span_of_room (horigin : origin.Timely origin.policy.deadline)
    (hfresh : origin.policy.attempts = 0)
    (hunraised : ∀ count < UInt32.size - 1, ∀ abort,
      proposal origin.policy.wait count = .error abort →
        (origin.after (count + 1)).asked.granted ≠ .error abort)
    (hcount : count < UInt32.size - 1)
    (hroom : ∀ earlier ≤ count, covered origin.policy.wait earlier < origin.room) :
    ∃ span, proposal origin.policy.wait count = .ok span := by
  induction count using Nat.strong_induction_on with
  | _ count ih =>
      have hspans : ∀ earlier < count, ∃ span,
          proposal origin.policy.wait earlier = .ok span := by
        intro earlier hlt
        exact ih earlier hlt (by omega) (fun first hfirst => hroom first (by omega))
      have hunderway : origin.Underway count (origin.after (count + 1)) :=
        underway_after horigin hfresh hspans
          (fun earlier hlt => hroom earlier (Nat.le_of_lt hlt)) (by omega)
      cases hproposal : proposal origin.policy.wait count with
      | ok span => exact ⟨span, rfl⟩
      | error abort =>
          have hraised := hunderway.raised (horigin.after _) (hroom count (Nat.le_refl _))
            hproposal (by omega)
          exact absurd hraised (hunraised count hcount abort hproposal)

/-- Where all waits but a few take a millisecond, attempts end with the time there is for them. -/
theorem exists_stops_of_growing (horigin : origin.Timely origin.policy.deadline)
    (hfresh : origin.policy.attempts = 0) (slack : Nat)
    (hunraised : ∀ count < UInt32.size - 1, ∀ abort,
      proposal origin.policy.wait count = .error abort →
        (origin.after (count + 1)).asked.granted ≠ .error abort)
    (hgrows : ∀ count < UInt32.size,
      (∀ earlier < count, ∃ span, proposal origin.policy.wait earlier = .ok span) →
        count ≤ covered origin.policy.wait count + slack) :
    ∃ grants, 0 < grants ∧ grants ≤ 1 + origin.room + slack ∧ origin.Stops grants := by
  by_cases hreached : ∃ waits, waits < UInt32.size - 1 ∧
      origin.room ≤ covered origin.policy.wait waits
  · obtain ⟨hlt, hcovered⟩ := Nat.find_spec hreached
    have hroom : ∀ earlier < Nat.find hreached,
        covered origin.policy.wait earlier < origin.room := by
      intro earlier hearlier
      have hfirst := Nat.find_min hreached hearlier
      exact Nat.lt_of_not_le fun hle => hfirst ⟨Nat.lt_trans hearlier hlt, hle⟩
    generalize Nat.find hreached = waits at hlt hcovered hroom
    have hspans : ∀ earlier < waits, ∃ span, proposal origin.policy.wait earlier = .ok span := by
      intro earlier hearlier
      exact exists_span_of_room horigin hfresh hunraised (Nat.lt_trans hearlier hlt)
        fun first hfirst => hroom first (Nat.lt_of_le_of_lt hfirst hearlier)
    have hwaits : waits ≤ origin.room + slack := by
      by_contra hmany
      have hfew : origin.room + slack < waits := Nat.lt_of_not_le hmany
      have hgrown := hgrows (origin.room + slack) (by omega)
        fun earlier hearlier => hspans earlier (Nat.lt_trans hearlier hfew)
      have hleft := hroom _ hfew
      omega
    exact ⟨waits + 1, Nat.succ_pos _, by omega,
      stops_of_covered horigin hfresh hspans hroom hcovered⟩
  · have hroom : ∀ earlier < UInt32.size - 1,
        covered origin.policy.wait earlier < origin.room := by
      intro earlier hearlier
      exact Nat.lt_of_not_le fun hle => hreached ⟨earlier, hearlier, hle⟩
    have hspans : ∀ earlier < UInt32.size - 1, ∃ span,
        proposal origin.policy.wait earlier = .ok span := by
      intro earlier hearlier
      exact exists_span_of_room horigin hfresh hunraised hearlier
        fun first hfirst => hroom first (Nat.lt_of_le_of_lt hfirst hearlier)
    refine ⟨UInt32.size, by decide, ?_, stops_full horigin hfresh hspans hroom⟩
    have hlast : UInt32.size - 2 < UInt32.size - 1 := by decide
    have hgrown := hgrows (UInt32.size - 2) (by decide)
      fun earlier hearlier => hspans earlier (Nat.lt_trans hearlier hlast)
    have hleft := hroom _ hlast
    omega

end

end Waiter

theorem le_covered {wait : ω} (hspans : ∀ count, ∃ span, proposal wait count = .ok span ∧
      Duration.ofMillis 1 ≤ span) (count : Nat) : count ≤ covered wait count := by
  induction count with
  | zero => exact Nat.zero_le _
  | succ count ih =>
      obtain ⟨span, hspan, hlong⟩ := hspans count
      have hmillis := Duration.millis_pos hlong
      rw [covered_succ hspan]
      omega

theorem strategy_fixed (span : Duration) (count : Nat) :
    strategy (Wait.fixed span) count = .fixed span := by
  induction count with
  | zero => rfl
  | succ count ih =>
      rw [strategy, ih]
      rfl

theorem proposal_fixed (span : Duration) (count : Nat) :
    proposal (Wait.fixed span) count = .ok span := by
  rw [proposal, strategy_fixed]
  rfl

theorem covered_fixed (span : Duration) (count : Nat) :
    covered (Wait.fixed span) count = span.millis.toNat * count := by
  induction count with
  | zero => rfl
  | succ count ih => rw [covered_succ (proposal_fixed span count), ih, Nat.mul_succ]

theorem Waiter.exists_stops {origin : Waiter ω} (horigin : origin.Timely origin.policy.deadline)
    (hfresh : origin.policy.attempts = 0)
    (hspans : ∀ count, ∃ span, proposal origin.policy.wait count = .ok span ∧
      Duration.ofMillis 1 ≤ span) :
    ∃ grants, 0 < grants ∧ grants ≤ 1 + origin.room ∧ origin.Stops grants := by
  apply Waiter.exists_stops_of_growing horigin hfresh 0
  · intro count _ abort hraised
    obtain ⟨span, hspan, -⟩ := hspans count
    cases hspan.symm.trans hraised
  · exact fun count _ _ => le_covered hspans count

theorem Waiter.stops_fixed {origin : Waiter Wait} {span : Duration}
    (horigin : origin.Timely origin.policy.deadline) (hfresh : origin.policy.attempts = 0)
    (hwait : origin.policy.wait = .fixed span) (hlong : Duration.ofMillis 1 ≤ span) :
    origin.Stops (1 + origin.room ⌈/⌉ span.millis.toNat) := by
  have hmillis := Duration.millis_pos hlong
  rw [Nat.add_comm]
  apply stops_of_covered horigin hfresh
  · intro count _
    rw [hwait]
    exact ⟨span, proposal_fixed span count⟩
  · intro count hlt
    rw [hwait, covered_fixed]
    by_contra hmany
    exact absurd ((ceilDiv_le_iff_le_mul hmillis).mpr (Nat.le_of_not_lt hmany))
      (Nat.not_le_of_lt hlt)
  · rw [hwait, covered_fixed]
    exact (ceilDiv_le_iff_le_mul hmillis).mp (Nat.le_refl _)

/-- A policy that is bounded by time, whatever its strategy and whatever its clock reads: its first
attempt is granted at once; later ones are refused from its end on and granted before it, unless the
strategy raises or there are more attempts than can be counted; and no sleep goes past the end. Where
its own sleeps are all that moves the clock, the clock is never past the end, and with waits of a
millisecond at least it gets there, in no more attempts than one and the milliseconds up to the end. -/
theorem stops_at_deadline (maxDuration : Duration) (wait : ω) (origin : Timeline) :
    (∀ (context : TimeContext) (times : List Timeline),
      let policy := start context maxDuration wait origin
      policy.deadline.toNat =
        min ((origin.read context.clock).toNat + maxDuration.nanos / 1000000) (UInt64.size - 1) ∧
      (times.foldl Stint.after ⟨policy, 0⟩).Timed context policy.deadline) ∧
    (let waiter := Waiter.start maxDuration wait origin;
      (∀ count, (waiter.after count).time.hand ≤ waiter.policy.deadline) ∧
      ((∀ count, ∃ span, proposal wait count = .ok span ∧ Duration.ofMillis 1 ≤ span) →
        ∃ grants, 0 < grants ∧ grants ≤ 1 + waiter.room ∧ waiter.Stops grants)) ∧
    ∀ span, Duration.ofMillis 1 ≤ span →
      let waiter := Waiter.start maxDuration (Wait.fixed span) origin
      waiter.Stops (1 + waiter.room ⌈/⌉ span.millis.toNat) := by
  refine ⟨fun context times => ⟨?_, ?_⟩, ⟨fun count => ?_, fun hspans => ?_⟩, fun span hlong => ?_⟩
  · exact toNat_deadline_start context maxDuration wait origin
  · exact (Stint.counts_of_times times ⟨rfl, rfl, rfl⟩).timed
  · exact ((Waiter.timely_start maxDuration wait origin).after count).hand_le
  · exact Waiter.exists_stops (Waiter.timely_start maxDuration wait origin) rfl hspans
  · exact Waiter.stops_fixed (Waiter.timely_start maxDuration _ origin) rfl rfl hlong

/-- A wait of which the clock tells whole milliseconds only. -/
def threeAndAHalf : Duration := .ofNanos 3500000

/-- Three granted attempts, the last of them on a clock that has been set back. -/
def setBack : List Timeline := [{ hand := 100 }, { hand := 105 }, { hand := 50 }]

theorem stops_after_five :
    (∀ count, ∃ span, proposal (Wait.fixed threeAndAHalf) count = .ok span ∧
      Duration.ofMillis 1 ≤ span) ∧ Duration.ofMillis 1 ≤ threeAndAHalf ∧
    let waiter := Waiter.start (.ofMillis 10) (Wait.fixed threeAndAHalf) { hand := 100 }
    let stint := setBack.foldl Stint.after ⟨waiter.policy, 0⟩
    waiter.Stops 5 ∧ (∃ grants, 0 < grants ∧ grants ≤ 11 ∧ waiter.Stops grants) ∧
      stint.granted = 3 ∧
      (∀ time, (stint.policy.attempt time).granted = .ok true ↔ time.hand < 110) ∧
      ∀ time, 110 ≤ time.hand → stint.policy.attempt time = ⟨.ok false, stint.policy, time⟩ := by
  have hlong : Duration.ofMillis 1 ≤ threeAndAHalf := by decide
  have hspans : ∀ count, ∃ span, proposal (Wait.fixed threeAndAHalf) count = .ok span ∧
      Duration.ofMillis 1 ≤ span :=
    fun count => ⟨threeAndAHalf, proposal_fixed threeAndAHalf count, hlong⟩
  obtain ⟨htimed, ⟨-, hends⟩, hfixed⟩ :=
    stops_at_deadline (.ofMillis 10) (Wait.fixed threeAndAHalf) { hand := 100 }
  obtain ⟨-, htimed⟩ := htimed .hand setBack
  refine ⟨hspans, hlong, hfixed threeAndAHalf hlong, hends hspans, by decide, ?_, ?_⟩
  · exact htimed.granted_iff (by decide) (by decide) ⟨threeAndAHalf, by decide⟩
  · exact htimed.refused (by decide)

/-- A wait as long as can be, with as much jitter as there can be. -/
def longestWait : ExponentialWait :=
  .start .longest .longest false { list := [UInt64.ofNat (UInt64.size - 1)] }

/-- Before its end a policy can fail to grant an attempt: where its wait is too long to be added to its
jitter, and where there are more attempts than can be counted. -/
theorem raises_before_deadline :
    (let policy := ((start .hand (.ofMillis 1000) longestWait {}).attempt {}).policy;
      0 < policy.deadline ∧ (policy.attempt {}).granted = .error .spanOverflow) ∧
    let waiter := Waiter.start (.ofMillis 4294967296) (Wait.fixed (.ofMillis 1)) {}
    (waiter.after 4294967295).time.hand < waiter.policy.deadline ∧
      (waiter.after 4294967295).asked.granted = .error .countOverflow := by
  refine ⟨by decide +kernel, ?_⟩
  intro waiter
  have htimely := Waiter.timely_start (.ofMillis 4294967296) (Wait.fixed (.ofMillis 1)) {}
  have hspan : ∀ count, proposal waiter.policy.wait count = .ok (.ofMillis 1) :=
    proposal_fixed (.ofMillis 1)
  have hroom : ∀ count < 4294967295, covered waiter.policy.wait count < waiter.room := by
    intro count hlt
    have hcovered : covered waiter.policy.wait count = 1 * count := covered_fixed (.ofMillis 1) count
    have hwhole : waiter.room = 4294967296 := by decide
    omega
  have hunderway : waiter.Underway 4294967294 (waiter.after 4294967295) :=
    Waiter.underway_after htimely rfl (fun count _ => ⟨_, hspan count⟩)
      (fun count hlt => hroom count (Nat.lt_succ_of_lt hlt)) (by decide)
  have hlater : (waiter.after 4294967295).Timely waiter.policy.deadline := htimely.after _
  generalize waiter.after 4294967295 = last at hunderway hlater
  have hlast := hroom 4294967294 (by decide)
  have hearly := hunderway.early hlater hlast
  rw [Waiter.Underway.read_eq hlater, hlater.deadline_eq] at hearly
  exact ⟨hearly, hunderway.full hlater hlast (hspan _) rfl⟩

end TimeBoundedRetry

end Pooling
