import Pooling.LockPool.Evictor
import Pooling.Locks.Holdings
import Pooling.Options

/-!
Pools of read/write locks by key: guards on the locks of the pool, with the evictor put to work
whenever the pool is overfull.
-/

namespace Pooling.LockPool

/-- What happens when a guard has let go of its lock: its reference goes too, unless the holder
put something else in the way. -/
inductive ReleaseAction where
  | unreference
  | custom
  deriving DecidableEq

structure Pool (κ γ : Type) where
  store : Store κ
  guards : Table γ (Guard Nat ReleaseAction) := {}
  evictor : Evictor κ := {}
  evicting : Bool := true

namespace Pool

variable {κ γ : Type} [DecidableEq κ] [DecidableEq γ]

def start (options : LockPoolOptions) : Pool κ γ where
  store := { lowWatermark := options.lowWatermark, highWatermark := options.highWatermark }

def size (pool : Pool κ γ) : Nat := pool.store.size

/-- Wakes the evictor of an overfull pool, which works until it has nothing left to do. -/
def nudge (pool : Pool κ γ) : Pool κ γ :=
  if pool.evicting && pool.store.isOverfull then
    let (evictor, store) :=
      pool.evictor.work (fun store => store.keys.keys) (pool.size + 1) pool.store
    { pool with evictor, store }
  else pool

def reference (pool : Pool κ γ) (key : κ) : Nat × Pool κ γ :=
  let (id, store) := pool.store.reference key
  (id, { pool with store }.nudge)

def unreference (pool : Pool κ γ) (id : Nat) : Pool κ γ :=
  let (last, store) := pool.store.unreference id
  if last then { pool with store }.nudge else { pool with store }

/-- Lets go of a lock, and then of what the guard still holds. -/
def letGo (pool : Pool κ γ) (guard : Guard Nat ReleaseAction) : Pool κ γ :=
  let pool := { pool with store := pool.store.releaseLock guard.lock guard.mode }
  match guard.action with
  | some .unreference => pool.unreference guard.lock
  | _ => pool

def drop (pool : Pool κ γ) (name : γ) : Pool κ γ :=
  match pool.guards.get? name with
  | some guard => { pool with guards := pool.guards.erase name }.letGo guard
  | none => pool

/-- Gives a new guard its name; a guard that had the name ends afterwards. -/
def name (pool : Pool κ γ) (name : γ) (guard : Guard Nat ReleaseAction) : Pool κ γ :=
  let previous := pool.guards.get? name
  let pool := { pool with guards := pool.guards.insert name guard }
  match previous with
  | some previous => pool.letGo previous
  | none => pool

/-- Takes the lock of an entry already referred to, if its holders allow. -/
def grant? (pool : Pool κ γ) (name : γ) (id : Nat) (mode : LockMode) : Option (Pool κ γ) := do
  let store ← pool.store.takeLock? id mode
  some ({ pool with store }.name name ⟨id, mode, some .unreference⟩)

/-- A lock that is granted at once; `none` where the caller would have to wait. -/
def get? (pool : Pool κ γ) (name : γ) (key : κ) (mode : LockMode) : Option (Pool κ γ) :=
  let (id, pool) := pool.reference key
  pool.grant? name id mode

/-- A lock if it can be had without waiting; the answer says whether it was. -/
def tryGet (pool : Pool κ γ) (name : γ) (key : κ) (mode : LockMode) : Bool × Pool κ γ :=
  let (id, pool) := pool.reference key
  match pool.grant? name id mode with
  | some pool => (true, pool)
  | none => (false, pool.unreference id)

def downgrade (pool : Pool κ γ) (name : γ) : Bool × Pool κ γ :=
  match pool.guards.get? name with
  | some ⟨id, .write, action⟩ =>
      (true, { pool with
        store := pool.store.downgradeLock id
        guards := pool.guards.insert name ⟨id, .read, action⟩ })
  | _ => (false, pool)

def onRelease (pool : Pool κ γ) (name : γ) (action : ReleaseAction) : Pool κ γ :=
  { pool with guards := pool.guards.modify name fun guard => { guard with action := some action } }

def sameLock? (pool : Pool κ γ) (first second : γ) : Option Bool := do
  let first ← pool.guards.get? first
  let second ← pool.guards.get? second
  some (first.lock = second.lock)

def close (pool : Pool κ γ) : Pool κ γ := { pool with evicting := false }

def lockState (pool : Pool κ γ) (id : Nat) : RwLock :=
  ((pool.store.entry? id).map Entry.lock).getD RwLock.free

def entryStates (pool : Pool κ γ) : List (κ × RwLock) :=
  pool.store.keys.pairs.map fun pair => (pair.1, pool.lockState pair.2)

def describe (pool : Pool κ γ) : String :=
  Describe.record "LockPool"
    [("low_watermark", toString pool.store.lowWatermark),
      ("high_watermark", toString pool.store.highWatermark), ("size", toString pool.size)]

end Pool

end Pooling.LockPool
