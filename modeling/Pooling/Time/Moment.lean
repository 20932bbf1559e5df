import Pooling.Time.Duration

/-!
Moments of real time, in nanoseconds since the origin of the clock that tells them.
-/

namespace Pooling

abbrev Moment := Nat

namespace Moment

/-- The last moment that a clock can tell. -/
def last : Moment := (1 <<< 63) * 1000000000 - 1

def after? (start : Moment) (span : Duration) : Option Moment :=
  if start + span.nanos ≤ last then some (start + span.nanos) else none

theorem after?_eq_some_iff {start moment : Moment} {span : Duration} :
    start.after? span = some moment ↔ start + span.nanos = moment ∧ moment ≤ last := by
  unfold after?
  split
  next h =>
    rw [Option.some.injEq]
    exact ⟨fun heq => ⟨heq, heq ▸ h⟩, fun hboth => hboth.1⟩
  next h => simp only [reduceCtorEq, false_iff, not_and]; exact fun heq hle => h (heq ▸ hle)

end Moment

end Pooling
