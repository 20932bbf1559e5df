import Pooling.Text.Describe
import Pooling.Time.Clock

/-!
When a pooled resource was made and last used, and the policies that let idle resources go.
-/

namespace Pooling

structure Lifetime where
  created : Reading
  lastAccess : Reading
  deriving DecidableEq

namespace Lifetime

def start (now : Reading) : Lifetime := ⟨now, now⟩

def touch (lifetime : Lifetime) (now : Reading) : Lifetime := { lifetime with lastAccess := now }

def age (lifetime : Lifetime) (now : Reading) : UInt64 := now.since lifetime.created

def idle (lifetime : Lifetime) (now : Reading) : UInt64 := now.since lifetime.lastAccess

def describe (lifetime : Lifetime) : String :=
  Describe.record "ResourceMeta"
    [("created_at_ms", toString lifetime.created.toNat),
      ("last_access_ms", toString lifetime.lastAccess.toNat)]

end Lifetime

inductive Expiry where
  | never
  | timeToLive (limit : Duration)
  | idleTimeout (limit : Duration)
  | either (ttl idle : Duration)
  | custom (expired : Lifetime → Reading → Bool)

namespace Expiry

instance : Inhabited Expiry := ⟨never⟩

/-- Limits count in whole milliseconds and are exceeded strictly. -/
def expired (policy : Expiry) (lifetime : Lifetime) (now : Reading) : Bool :=
  match policy with
  | never => false
  | timeToLive limit => limit.millis < lifetime.age now
  | idleTimeout limit => limit.millis < lifetime.idle now
  | either ttl idle => ttl.millis < lifetime.age now || idle.millis < lifetime.idle now
  | custom expired => expired lifetime now

def describe : Expiry → String
  | never => "None"
  | timeToLive limit => Describe.tuple "TimeToLive" limit.text
  | idleTimeout limit => Describe.tuple "IdleTimeout" limit.text
  | either ttl idle => Describe.record "Combined" [("ttl", ttl.text), ("idle_timeout", idle.text)]
  | custom _ => Describe.tuple "Custom" ".."

end Expiry

end Pooling
