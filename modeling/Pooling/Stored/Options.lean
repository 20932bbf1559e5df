import Pooling.Locks.RwLock
import Pooling.Metrics.Snapshot
import Pooling.Options
import Pooling.Stored.Document

/-!
Options, choices and snapshots as stored documents. A record is read from a table that has all its
fields, or from a list of them in order; a choice from its name, or from a table with its name
alone.
-/

namespace Pooling.Stored

def fields? (names : List String) : Document → Option (List Document)
  | .table entries => names.mapM (Document.table entries).get?
  | .list items => if items.length = names.length then some items else none
  | _ => none

def choice? : Document → Option String
  | .text name => some name
  | .table [(name, .null)] => some name
  | _ => none

def lockPoolOptionsNames : List String :=
  ["initial_capacity", "low_watermark", "high_watermark", "concurrency_level"]

def readLockPoolOptions? (document : Document) : Option LockPoolOptions := do
  let values ← fields? lockPoolOptionsNames document
  match ← values.mapM Document.whole? with
  | [initialCapacity, lowWatermark, highWatermark, concurrencyLevel] =>
      some { initialCapacity, lowWatermark, highWatermark, concurrencyLevel }
  | _ => none

def writeLockPoolOptions (options : LockPoolOptions) : Document :=
  .table (options.fields.map fun pair => (pair.1, .whole pair.2))

def readSelection? (document : Document) : Option Selection := do
  match ← choice? document with
  | "Fifo" => some .fifo
  | "Lifo" => some .lifo
  | _ => none

def writeSelection (selection : Selection) : Document := .text selection.name

def readLockMode? (document : Document) : Option LockMode := do
  match ← choice? document with
  | "Read" => some .read
  | "Write" => some .write
  | _ => none

def writeLockMode (mode : LockMode) : Document := .text mode.name

def snapshotNames : List String :=
  ["total_acquired", "total_released", "total_created", "unhealthy_discarded",
    "garbage_collected", "acquire_timeouts", "live_resources", "available_resources",
    "in_use_resources", "max_capacity", "utilization"]

def readSnapshot? (document : Document) : Option Snapshot := do
  match ← fields? snapshotNames document with
  | [acquired, released, created, unhealthy, collected, timeouts, live, available, inUse,
      maxCapacity, utilization] =>
      some {
        totals := {
          acquired := UInt64.ofNat (← acquired.whole?)
          released := UInt64.ofNat (← released.whole?)
          created := UInt64.ofNat (← created.whole?)
          unhealthy := UInt64.ofNat (← unhealthy.whole?)
          collected := UInt64.ofNat (← collected.whole?)
          timeouts := UInt64.ofNat (← timeouts.whole?) }
        live := ← live.whole?
        available := ← available.whole?
        inUse := ← inUse.whole?
        maxCapacity := ← maxCapacity.whole?
        utilization := ← utilization.real? }
  | _ => none

end Pooling.Stored
