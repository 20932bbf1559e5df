import Pooling.Retry.Run

/-!
Scripts on retry policies, and operations whose outcomes a script dictates.
-/

namespace Pooling.Scenario

/-- A policy of one of the kinds that a script can choose; two of them it dictates itself. -/
inductive ScriptedPolicy where
  | counting (policy : CountingRetry Backoff)
  | timed (policy : TimeBoundedRetry Wait)
  | exponential (policy : TimeBoundedRetry ExponentialWait)
  | refusing
  | listed (answers : List Bool) (granted : UInt32)

namespace ScriptedPolicy

def attempt (policy : ScriptedPolicy) (time : Timeline) : Asked ScriptedPolicy :=
  match policy with
  | counting policy =>
      let asked := RetryPolicy.attempt policy time
      ⟨asked.granted, counting asked.policy, asked.time⟩
  | timed policy =>
      let asked := RetryPolicy.attempt policy time
      ⟨asked.granted, timed asked.policy, asked.time⟩
  | exponential policy =>
      let asked := RetryPolicy.attempt policy time
      ⟨asked.granted, exponential asked.policy, asked.time⟩
  | refusing => ⟨.ok false, refusing, time⟩
  | listed (true :: answers) granted => ⟨.ok true, listed answers (granted + 1), time⟩
  | listed answers granted => ⟨.ok false, listed answers.tail granted, time⟩

def attempts : ScriptedPolicy → UInt32
  | counting policy => policy.attempts
  | timed policy => policy.attempts
  | exponential policy => policy.attempts
  | refusing => 0
  | listed _ granted => granted

instance : RetryPolicy ScriptedPolicy := ⟨attempt, attempts⟩

def reset? : ScriptedPolicy → Option ScriptedPolicy
  | counting policy => some (counting policy.reset)
  | _ => none

def maxDuration? : ScriptedPolicy → Option Duration
  | timed policy => some policy.maxDuration
  | exponential policy => some policy.maxDuration
  | _ => none

def maxRetries? : ScriptedPolicy → Option UInt32
  | counting policy => some policy.maxRetries
  | _ => none

def describe? : ScriptedPolicy → Option String
  | counting policy => some policy.describe
  | _ => none

end ScriptedPolicy

inductive PolicyStep where
  | attempt
  | attempts (times : Nat)
  | reset
  | advance (millis : UInt64)
  | set (reading : UInt64)
  | info
  | unknown

inductive PolicyReply where
  | nothing
  | truth (value : Bool)
  | number (value : Nat)
  | info (maxRetries? : Option UInt32) (description? : Option String)

/-- What a step answers and shows: the attempts granted, the hand clock, the step's own sleeps. -/
inductive PolicyAnswer where
  | unfit
  | aborted (abort : Abort)
  | given (reply : PolicyReply) (count : UInt32) (now : Reading) (slept : List Duration)

structure PolicyWorld where
  policy : ScriptedPolicy
  time : Timeline

namespace PolicyWorld

def ask (world : PolicyWorld) : Except Abort Bool × PolicyWorld :=
  let asked := RetryPolicy.attempt world.policy world.time
  (asked.granted, ⟨asked.policy, asked.time⟩)

/-- Asks until an attempt is refused, or often enough; counts the attempts granted. -/
def askTimes : Nat → Nat → PolicyWorld → Except Abort Nat × PolicyWorld
  | 0, granted, world => (.ok granted, world)
  | times + 1, granted, world =>
      match world.ask with
      | (.ok true, world) => askTimes times (granted + 1) world
      | (.ok false, world) => (.ok granted, world)
      | (.error abort, world) => (.error abort, world)

def perform (world : PolicyWorld) : PolicyStep → Except Abort (Option PolicyReply) × PolicyWorld
  | .attempt =>
      let (granted, world) := world.ask
      (granted.map fun granted => some (.truth granted), world)
  | .attempts times =>
      let (granted, world) := askTimes times 0 world
      (granted.map fun granted => some (.number granted), world)
  | .reset =>
      match world.policy.reset? with
      | some policy => (.ok (some (.truth true)), { world with policy })
      | none => (.ok (some (.truth false)), world)
  | .advance millis => (.ok (some .nothing), { world with time := world.time.advance millis })
  | .set reading => (.ok (some .nothing), { world with time := world.time.set reading })
  | .info => (.ok (some (.info world.policy.maxRetries? world.policy.describe?)), world)
  | .unknown => (.ok none, world)

def answer (world : PolicyWorld) (step : PolicyStep) : PolicyAnswer × PolicyWorld :=
  match { world with time := world.time.clearSlept }.perform step with
  | (.error abort, world) => (.aborted abort, world)
  | (.ok none, world) => (.unfit, world)
  | (.ok (some reply), world) =>
      (.given reply (RetryPolicy.attempts world.policy) world.time.hand world.time.slept, world)

def script : List PolicyStep → PolicyWorld → List PolicyAnswer
  | [], _ => []
  | step :: rest, world =>
      let (answer, world) := world.answer step
      answer :: script rest world

end PolicyWorld

/-- What an operation comes to, after some time by the hand clock. -/
structure ScriptedOutcome (α : Type) where
  result : Except String α
  millis : UInt64 := 0

/-- Where a scripted operation stands: the outcomes to come, of which the last one repeats, and
the calls so far. -/
structure ScriptedOperation (α : Type) where
  outcomes : List (ScriptedOutcome α)
  calls : Nat := 0

namespace ScriptedOperation

variable {α : Type}

def call (fallback : ScriptedOutcome α) : Operation (ScriptedOperation α) String α :=
  fun operation time =>
    let outcome := operation.outcomes.headD fallback
    let outcomes :=
      match operation.outcomes with
      | [last] => [last]
      | outcomes => outcomes.tail
    (outcome.result, ⟨outcomes, operation.calls + 1⟩, time.advance outcome.millis)

def patience : Nat := 10000000

def retry (action : String) (fallback : ScriptedOutcome α) (outcomes : List (ScriptedOutcome α))
    (world : PolicyWorld) :
    Option (RetryRun ScriptedPolicy (ScriptedOperation α) String α) :=
  Pooling.retry action (call fallback) patience world.policy { outcomes } world.time

end ScriptedOperation

end Pooling.Scenario
