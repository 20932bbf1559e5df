import Pooling.Error
import Pooling.Time.Clock

/-!
Calls on a pool are taken apart where other calls may come in between: at every lock that is taken
and let go, and at every question to the pool's factory. Between two parts a call waits for
something.
-/

namespace Pooling

inductive Wake where
  | nobody
  | one
  | everyone
  deriving DecidableEq

inductive Made (R : Type) where
  | ok (resource : R)
  | failed (source : String)
  deriving DecidableEq

inductive Outcome (R : Type) where
  | acquired (resource : R)
  | nothing
  | released
  | collected (count : Nat)
  | closed
  | failed (error : PoolError)
  | aborted (abort : Abort)
  deriving DecidableEq

/-- What a call waits for: its turn, its factory, being woken, its owner's last duties, or nothing
any more. -/
inductive Need (R : Type) where
  | turn
  | make
  | check (resource : R)
  | close (resource : R)
  | sleep
  | retire
  | done (outcome : Outcome R)
  deriving DecidableEq

end Pooling
