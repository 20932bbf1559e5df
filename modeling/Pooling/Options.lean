import Pooling.Error
import Pooling.Resource.Leak
import Pooling.Resource.Lifetime

/-!
What the pools are made from: their options, the values these have unless given, and what makes
them unfit.
-/

namespace Pooling

structure LockPoolOptions where
  initialCapacity : Nat := 1000
  lowWatermark : Nat := 500000
  highWatermark : Nat := 1000000
  concurrencyLevel : Nat := 100
  deriving DecidableEq

namespace LockPoolOptions

def validate (options : LockPoolOptions) : Except PoolError Unit :=
  if options.highWatermark = 0 then .error (.invalidArgument .noHighWatermark)
  else if options.highWatermark < options.lowWatermark then
    .error (.invalidArgument (.lowAboveHigh options.lowWatermark options.highWatermark))
  else if options.concurrencyLevel = 0 then .error (.invalidArgument .noConcurrency)
  else .ok ()

def fields (options : LockPoolOptions) : List (String × Nat) :=
  [("initial_capacity", options.initialCapacity), ("low_watermark", options.lowWatermark),
    ("high_watermark", options.highWatermark), ("concurrency_level", options.concurrencyLevel)]

def describe (options : LockPoolOptions) : String :=
  Describe.record "LockPoolOptions" (options.fields.map fun pair => (pair.1, toString pair.2))

end LockPoolOptions

/-- Which available resource is handed out: the one idle longest, or the last one released. -/
inductive Selection where
  | fifo
  | lifo
  deriving DecidableEq

namespace Selection

def name : Selection → String
  | fifo => "Fifo"
  | lifo => "Lifo"

end Selection

structure ElasticOptions where
  maxCapacity : Nat := 1024
  minCapacity : Nat := 1
  collectionDelay : Duration := Duration.ofMillis 100
  collectionInterval : Duration := Duration.ofSeconds 120
  selection : Selection := .lifo
  expiry : Expiry := .never
  sharedExecutor : Bool := false
  leakDetector : Option LeakDetector := none
  clock : ClockSource := .system

namespace ElasticOptions

def validate (options : ElasticOptions) : Except PoolError Unit :=
  if options.maxCapacity = 0 then .error (.invalidArgument .noCapacity)
  else if options.maxCapacity < options.minCapacity then
    .error (.invalidArgument (.minAboveMax options.minCapacity options.maxCapacity))
  else if options.collectionInterval.isZero then .error (.invalidArgument .noCollectionInterval)
  else .ok ()

def describeClock (clock : ClockSource) (time : Timeline) : String :=
  match clock with
  | .system => "SystemClock"
  | .hand => Describe.record "ManualClock" [("now", toString time.hand.toNat)]

def describe (options : ElasticOptions) (time : Timeline) : String :=
  Describe.record "DynamicPoolOptions"
    [("max_capacity", toString options.maxCapacity),
      ("min_capacity", toString options.minCapacity),
      ("gc_initial_delay", options.collectionDelay.text),
      ("gc_interval", options.collectionInterval.text),
      ("selection_policy", options.selection.name),
      ("gc_policy", options.expiry.describe),
      ("shared_executor", Describe.bool options.sharedExecutor),
      ("leak_detector", Describe.optional (options.leakDetector.map LeakDetector.describe)),
      ("clock", describeClock options.clock time)]

end ElasticOptions

end Pooling
