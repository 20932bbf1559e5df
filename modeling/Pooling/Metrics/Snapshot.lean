import Pooling.Number.Binary64

/-!
What a pool has done so far, and a snapshot of it together with its present size.
-/

namespace Pooling

structure Totals where
  acquired : UInt64 := 0
  released : UInt64 := 0
  created : UInt64 := 0
  unhealthy : UInt64 := 0
  collected : UInt64 := 0
  timeouts : UInt64 := 0
  deriving DecidableEq

namespace Totals

def countAcquired (totals : Totals) : Totals := { totals with acquired := totals.acquired + 1 }

def countReleased (totals : Totals) : Totals := { totals with released := totals.released + 1 }

def countCreated (totals : Totals) : Totals := { totals with created := totals.created + 1 }

def countUnhealthy (totals : Totals) : Totals := { totals with unhealthy := totals.unhealthy + 1 }

def countCollected (totals : Totals) : Totals := { totals with collected := totals.collected + 1 }

def countTimeout (totals : Totals) : Totals := { totals with timeouts := totals.timeouts + 1 }

end Totals

structure Snapshot where
  totals : Totals
  live : Nat
  available : Nat
  inUse : Nat
  maxCapacity : Nat
  /-- The share of the capacity that is checked out. -/
  utilization : Binary64
  deriving DecidableEq

namespace Snapshot

def take (totals : Totals) (live available maxCapacity : Nat) : Snapshot where
  totals := totals
  live := live
  available := available
  inUse := live - available
  maxCapacity := maxCapacity
  utilization :=
    if 0 < maxCapacity then Binary64.quotient (live - available) maxCapacity else Binary64.zero

/-- The whole numbers of a snapshot under their names, in their order. -/
def counts (snapshot : Snapshot) : List (String × Nat) :=
  [("total_acquired", snapshot.totals.acquired.toNat),
    ("total_released", snapshot.totals.released.toNat),
    ("total_created", snapshot.totals.created.toNat),
    ("unhealthy_discarded", snapshot.totals.unhealthy.toNat),
    ("garbage_collected", snapshot.totals.collected.toNat),
    ("acquire_timeouts", snapshot.totals.timeouts.toNat),
    ("live_resources", snapshot.live),
    ("available_resources", snapshot.available),
    ("in_use_resources", snapshot.inUse),
    ("max_capacity", snapshot.maxCapacity)]

def exported (snapshot : Snapshot) : List (String × String) :=
  (snapshot.counts.map fun pair => (pair.1, toString pair.2)) ++
    [("utilization", snapshot.utilization.twoPlaces)]

end Snapshot

end Pooling
