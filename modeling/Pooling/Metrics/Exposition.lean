import Pooling.Metrics.Snapshot

/-!
The text format in which a snapshot is handed to a metrics collector: for every metric a line of
help, a line with its type and a line with its sample.
-/

namespace Pooling.Exposition

inductive MetricType where
  | gauge
  | counter
  deriving DecidableEq

namespace MetricType

def text : MetricType → String
  | gauge => "gauge"
  | counter => "counter"

end MetricType

structure Metric where
  name : String
  help : String
  type : MetricType
  value : String

abbrev Labels := List (String × String)

def label (pair : String × String) : String := pair.1 ++ "=\"" ++ pair.2 ++ "\""

def labelText (labels : Labels) : String := ",".intercalate (labels.map label)

/-- The pool's name first, then the tags by the order of their keys. -/
def labelsOf (pool : String) (tags : List (String × String)) : Labels :=
  ("pool", pool) :: tags.mergeSort fun first second => first.1 ≤ second.1

def helpLine (metric : Metric) : String := "# HELP " ++ metric.name ++ " " ++ metric.help ++ "\n"

def typeLine (metric : Metric) : String :=
  "# TYPE " ++ metric.name ++ " " ++ metric.type.text ++ "\n"

def sampleLine (labels : Labels) (metric : Metric) : String :=
  metric.name ++ "\x7b" ++ labelText labels ++ "\x7d " ++ metric.value ++ "\n"

def write (labels : Labels) (metric : Metric) : String :=
  helpLine metric ++ typeLine metric ++ sampleLine labels metric

def gauge (name help : String) (value : Nat) : Metric := ⟨name, help, .gauge, toString value⟩

def total (name help : String) (value : UInt64) : Metric :=
  ⟨name, help, .counter, toString value.toNat⟩

def metrics (snapshot : Snapshot) : List Metric :=
  [gauge "resourcepool_resources_live" "Resources owned by the pool" snapshot.live,
    gauge "resourcepool_resources_available" "Resources waiting in the pool" snapshot.available,
    gauge "resourcepool_resources_in_use" "Resources checked out" snapshot.inUse,
    ⟨"resourcepool_utilization", "Checked-out share of capacity", .gauge,
      snapshot.utilization.twoPlaces⟩,
    total "resourcepool_acquired_total" "Total resources acquired" snapshot.totals.acquired,
    total "resourcepool_released_total" "Total resources released" snapshot.totals.released,
    total "resourcepool_created_total" "Total resources created" snapshot.totals.created,
    total "resourcepool_unhealthy_total" "Resources discarded as unhealthy"
      snapshot.totals.unhealthy,
    total "resourcepool_gc_total" "Resources garbage collected" snapshot.totals.collected,
    total "resourcepool_timeouts_total" "Acquisitions that timed out" snapshot.totals.timeouts]

def render (snapshot : Snapshot) (pool : String) (tags : List (String × String)) : String :=
  String.join ((metrics snapshot).map (write (labelsOf pool tags)))

end Pooling.Exposition
