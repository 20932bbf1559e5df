import Pooling.Retry.Backoff
import Pooling.Retry.Wait
import Pooling.Time.Clock

/-!
Retry policies. A policy is asked before every attempt: it sleeps as it sees fit and grants the
attempt or refuses it. One kind counts retries, the other ends at a deadline.
-/

namespace Pooling

/-- What asking for an attempt comes to: granted or refused, the policy afterwards, and the time
after its sleep. -/
structure Asked (π : Type u) where
  granted : Except Abort Bool
  policy : π
  time : Timeline

class RetryPolicy (π : Type u) where
  attempt : π → Timeline → Asked π
  attempts : π → UInt32

def nextCount? (count : UInt32) : Option UInt32 :=
  if count.toNat + 1 < UInt32.size then some (count + 1) else none

/-! Counting: one attempt and at most `maxRetries` more. -/

structure CountingRetry (β : Type u) where
  maxRetries : UInt32
  attempts : UInt32 := 0
  backoff : β
  sleeper : Sleeper := .thread

namespace CountingRetry

variable {β : Type u} [Pausing β]

def grant (policy : CountingRetry β) (time : Timeline) : Asked (CountingRetry β) :=
  match nextCount? policy.attempts with
  | some attempts => ⟨.ok true, { policy with attempts }, time⟩
  | none => ⟨.error .countOverflow, policy, time⟩

/-- Every attempt but the first waits for a pause of the schedule. -/
def attempt (policy : CountingRetry β) (time : Timeline) : Asked (CountingRetry β) :=
  if policy.maxRetries < policy.attempts then ⟨.ok false, policy, time⟩
  else if policy.attempts = 0 then policy.grant time
  else
    let (span, backoff) := Pausing.pause policy.attempts policy.backoff
    { policy with backoff }.grant (time.sleep span policy.sleeper)

def reset (policy : CountingRetry β) : CountingRetry β := { policy with attempts := 0 }

instance : RetryPolicy (CountingRetry β) := ⟨attempt, CountingRetry.attempts⟩

end CountingRetry

def CountingRetry.describe (policy : CountingRetry Backoff) : String :=
  Describe.record "CountingRetry"
    [("max_retries", toString policy.maxRetries.toNat),
      ("attempt_count", toString policy.attempts.toNat), ("backoff", policy.backoff.describe)]

def noRetry : CountingRetry Backoff := { maxRetries := 0, backoff := .none }

/-! Bounded by time: attempts go on until the clock reaches the end. -/

structure TimeBoundedRetry (ω : Type u) where
  context : TimeContext
  maxDuration : Duration
  deadline : Reading
  attempts : UInt32 := 0
  wait : ω

namespace TimeBoundedRetry

variable {ω : Type u} [Waiting ω]

def start (context : TimeContext) (maxDuration : Duration) (wait : ω) (time : Timeline) :
    TimeBoundedRetry ω where
  context := context
  maxDuration := maxDuration
  deadline := (time.read context.clock).after maxDuration.millis
  wait := wait

/-- No wait goes past the deadline, and a wait of nothing is not slept. -/
def sleepFor (policy : TimeBoundedRetry ω) (span : Duration) (time : Timeline) : Timeline :=
  if span.isZero then time else time.sleep span policy.context.sleeper

def attempt (policy : TimeBoundedRetry ω) (time : Timeline) : Asked (TimeBoundedRetry ω) :=
  if policy.attempts = 0 then ⟨.ok true, { policy with attempts := 1 }, time⟩
  else
    let now := time.read policy.context.clock
    if policy.deadline ≤ now then ⟨.ok false, policy, time⟩
    else
      let remaining := Duration.ofMillis (policy.deadline - now)
      match Waiting.wait policy.attempts policy.wait with
      | (.error abort, wait) => ⟨.error abort, { policy with wait }, time⟩
      | (.ok span, wait) =>
          let time := policy.sleepFor (min span remaining) time
          match nextCount? policy.attempts with
          | some attempts => ⟨.ok true, { policy with wait, attempts }, time⟩
          | none => ⟨.error .countOverflow, { policy with wait }, time⟩

instance : RetryPolicy (TimeBoundedRetry ω) := ⟨attempt, TimeBoundedRetry.attempts⟩

end TimeBoundedRetry

/-- The parts of an exponential time-bounded policy, with the values they have unless given. -/
structure ExponentialPlan where
  context : TimeContext := .system
  maxDuration : Duration := Duration.ofSeconds 30
  initialSleep : Duration := Duration.ofMillis 50
  maxSleep : Duration := Duration.ofSeconds 3
  skipInitial : Bool := false
  words : Words := {}

namespace ExponentialPlan

def start (plan : ExponentialPlan) (time : Timeline) : TimeBoundedRetry ExponentialWait :=
  TimeBoundedRetry.start plan.context plan.maxDuration
    (ExponentialWait.start plan.initialSleep plan.maxSleep plan.skipInitial plan.words) time

end ExponentialPlan

/-- The policy of clients of a storage service: exponential, in real time. -/
def defaultRetry (maxDuration baseSleep maxSleep : Duration) (time : Timeline) :
    TimeBoundedRetry ExponentialWait :=
  { maxDuration, initialSleep := baseSleep, maxSleep : ExponentialPlan }.start time

end Pooling
