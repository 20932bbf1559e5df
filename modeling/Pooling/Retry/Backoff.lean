import Pooling.Retry.Words
import Pooling.Text.Describe
import Pooling.Time.Duration

/-!
Pauses before the retries of a policy that counts: none, a fixed one, or a random one whose band
doubles with every attempt.
-/

namespace Pooling

/-- A schedule of pauses: given the number of attempts already made, the pause before the next. -/
class Pausing (β : Type u) where
  pause : UInt32 → β → Duration × β

/-- The greatest exponent of an exponential band; later attempts stay in its band. -/
def maxExponent : Nat := 30

inductive Backoff where
  | none
  | fixed (span : Duration)
  | exponential (base cap : Duration) (words : Words)

namespace Backoff

def exponent (attempts : UInt32) : Nat := min attempts.toNat maxExponent

/-- The base in whole milliseconds times a factor, at most `2 ^ 64 - 1` of them, under the cap. -/
def scaled (base cap : Duration) (factor : Nat) : Duration :=
  min (Duration.ofMillis (UInt64.ofNatClamp (base.millis.toNat * factor))) cap

def pause (attempts : UInt32) : Backoff → Duration × Backoff
  | none => (Duration.zero, none)
  | fixed span => (span, fixed span)
  | exponential base cap words =>
      (scaled base cap (bandFactor (exponent attempts) words.next.1),
        exponential base cap words.next.2)

instance : Pausing Backoff := ⟨pause⟩

def wordsUsed : Backoff → Nat
  | exponential _ _ words => words.used
  | _ => 0

def describe : Backoff → String
  | none => "NoBackoff"
  | fixed span => Describe.tuple "FixedBackoff" span.text
  | exponential base cap _ =>
      Describe.record "ExponentialBackoff" [("base", base.text), ("max", cap.text)]

end Backoff

end Pooling
