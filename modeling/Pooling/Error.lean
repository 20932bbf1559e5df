import Pooling.Time.Duration

/-!
What can go wrong: the errors a call answers with, and the ends of a run that is abandoned midway.
-/

namespace Pooling

inductive Misuse where
  | noCapacity
  | minAboveMax (min max : Nat)
  | noCollectionInterval
  | noHighWatermark
  | lowAboveHigh (low high : Nat)
  | noConcurrency
  | notAcquired
  | alreadyReleased
  | alreadyTracked
  | other (text : String)
  deriving DecidableEq

namespace Misuse

def message : Misuse → String
  | noCapacity => "max capacity must be positive"
  | minAboveMax min max =>
      "min capacity " ++ toString min ++ " exceeds max capacity " ++ toString max
  | noCollectionInterval => "gc interval must be positive"
  | noHighWatermark => "high watermark must be positive"
  | lowAboveHigh low high =>
      "low watermark " ++ toString low ++ " exceeds high watermark " ++ toString high
  | noConcurrency => "concurrency level must be positive"
  | notAcquired => "resource was not acquired from this pool"
  | alreadyReleased => "resource is already released"
  | alreadyTracked => "factory returned a resource the pool already tracks"
  | other text => text

end Misuse

inductive PoolError where
  | timeout (span : Duration)
  | cancelled
  | closed
  | invalidArgument (misuse : Misuse)
  | creation (source : String)
  | spawn (name source : String)
  deriving DecidableEq

namespace PoolError

def message : PoolError → String
  | timeout span => "Operation timed out after " ++ span.text
  | cancelled => "Operation was cancelled"
  | closed => "Pool is closed"
  | invalidArgument misuse => "Invalid argument: " ++ misuse.message
  | creation source => "Failed to create resource: " ++ source
  | spawn name source => "Failed to spawn thread " ++ name ++ ": " ++ source

def isRetryable : PoolError → Bool
  | timeout _ | cancelled => true
  | _ => false

def source? : PoolError → Option String
  | creation source | spawn _ source => some source
  | _ => none

end PoolError

inductive RetryError (ε : Type u) where
  | exhausted (action : String) (attempts : UInt32) (last : ε)
  | noAttempts (action : String)

namespace RetryError

def message (write : ε → String) : RetryError ε → String
  | exhausted action attempts last =>
      "Failed to " ++ action ++ " after " ++ toString attempts.toNat ++ " attempts: " ++ write last
  | noAttempts action => "Retry policy for " ++ action ++ " permitted no attempts"

def last? : RetryError ε → Option ε
  | exhausted _ _ last => some last
  | noAttempts _ => none

end RetryError

/-- Why a call stops in the middle, leaving its state as it is. -/
inductive Abort where
  | spanOverflow
  | countOverflow
  | countUnderflow
  /-- More places than memory can have. -/
  | capacityOverflow
  /-- More places than a table can have. -/
  | tableOverflow
  /-- A name in which a NUL stands: whatever follows would be lost. -/
  | unusableName (name : String)
  | noSuchPlace (count place : Nat)
  /-- A thread in the middle of a poll was asked to wait for another. -/
  | nestedPolling
  | raised (text : String)
  deriving DecidableEq

namespace Abort

/-- The bytes of a name, and where the first NUL is among them. -/
def unusableNameMessage (name : String) : String :=
  let bytes := name.toUTF8.data.toList.map UInt8.toNat
  "thread name may not contain interior null bytes: NulError(" ++ toString (bytes.idxOf 0) ++
    ", [" ++ ", ".intercalate (bytes.map toString) ++ "])"

def message : Abort → String
  | spanOverflow => "overflow when adding durations"
  | countOverflow => "attempt to add with overflow"
  | countUnderflow => "attempt to subtract with overflow"
  | capacityOverflow => "capacity overflow"
  | tableOverflow => "Hash table capacity overflow"
  | unusableName name => unusableNameMessage name
  | noSuchPlace count place =>
      "index out of bounds: the len is " ++ toString count ++ " but the index is " ++ toString place
  | nestedPolling =>
      "Cannot start a runtime from within a runtime. This happens because a function (like " ++
        "`block_on`) attempted to block the current thread while the thread is being used to " ++
        "drive asynchronous tasks."
  | raised text => text

end Abort

end Pooling
