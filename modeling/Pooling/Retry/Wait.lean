import Pooling.Error
import Pooling.Retry.Words

/-!
Waits between the attempts of a policy that ends at a deadline: a fixed one, or one that doubles
up to a cap with some jitter on top.
-/

namespace Pooling

/-- A schedule of waits: given the number of attempts already made, the wait before the next. -/
class Waiting (ω : Type u) where
  wait : UInt32 → ω → Except Abort Duration × ω

structure ExponentialWait where
  next : Duration
  cap : Duration
  skipInitial : Bool
  words : Words

namespace ExponentialWait

/-- The first wait is raised to a millisecond, so that doubling makes progress. -/
def start (initial cap : Duration) (skipInitial : Bool) (words : Words) : ExponentialWait :=
  ⟨max initial (Duration.ofMillis 1), cap, skipInitial, words⟩

def skips (wait : ExponentialWait) (attempts : UInt32) : Bool :=
  wait.skipInitial && attempts ≤ 1

def doubled (wait : ExponentialWait) : ExponentialWait :=
  { wait with next := min wait.next.doubled wait.cap, words := wait.words.next.2 }

def jittered (wait : ExponentialWait) : Except Abort Duration :=
  match wait.next.add? (Duration.ofMillis (jitter wait.next.millis wait.words.next.1)) with
  | some span => .ok span
  | none => .error .spanOverflow

def wait (attempts : UInt32) (wait : ExponentialWait) : Except Abort Duration × ExponentialWait :=
  if wait.skips attempts then (.ok Duration.zero, wait) else (wait.jittered, wait.doubled)

end ExponentialWait

inductive Wait where
  | fixed (span : Duration)
  | exponential (wait : ExponentialWait)

namespace Wait

def wait (attempts : UInt32) : Wait → Except Abort Duration × Wait
  | fixed span => (.ok span, fixed span)
  | exponential inner =>
      let (span, inner) := inner.wait attempts
      (span, exponential inner)

instance : Waiting Wait := ⟨wait⟩

def wordsUsed : Wait → Nat
  | fixed _ => 0
  | exponential inner => inner.words.used

end Wait

instance : Waiting ExponentialWait := ⟨ExponentialWait.wait⟩

end Pooling
