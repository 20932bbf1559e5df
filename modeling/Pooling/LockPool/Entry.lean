import Pooling.Locks.RwLock
import Pooling.Table

/-!
The table of a keyed lock pool. Every key in use has an entry: a lock, a count of the references
to it, and a note whether it was used again since the evictor last looked.
-/

namespace Pooling.LockPool

structure Entry where
  lock : RwLock := RwLock.free
  references : Int32 := 1
  accessed : Bool := false
  deriving DecidableEq

/-- The reference count of an entry that the evictor has claimed. -/
def claimed : Int32 := Int32.minValue

/-- Entries are numbered as they are made. A key's number says which entry it has now; an entry
that no key has any more may still be referred to. -/
structure Store (κ : Type) where
  lowWatermark : Nat
  highWatermark : Nat
  keys : Table κ Nat := {}
  entries : Table Nat Entry := {}
  next : Nat := 0

namespace Store

variable {κ : Type} [DecidableEq κ]

def size (store : Store κ) : Nat := store.keys.size

def isOverfull (store : Store κ) : Bool := store.highWatermark < store.size

def entry? (store : Store κ) (id : Nat) : Option Entry := store.entries.get? id

def lookup? (store : Store κ) (key : κ) : Option Nat := store.keys.get? key

def modifyEntry (store : Store κ) (id : Nat) (change : Entry → Entry) : Store κ :=
  { store with entries := store.entries.modify id change }

def addEntry (store : Store κ) (key : κ) : Nat × Store κ :=
  (store.next,
    { store with
      keys := store.keys.insert key store.next
      entries := store.entries.insert store.next {}
      next := store.next + 1 })

/-- One more reference to the entry of a key. An entry that the evictor has claimed is no longer
good, and the key gets a new one. -/
def reference (store : Store κ) (key : κ) : Nat × Store κ :=
  match store.lookup? key with
  | none => store.addEntry key
  | some id =>
      let references := ((store.entry? id).getD {}).references
      let store := store.modifyEntry id fun entry =>
        { entry with references := entry.references + 1 }
      if 0 ≤ references then
        (id, store.modifyEntry id fun entry => { entry with accessed := true })
      else store.addEntry key

/-- One reference less; the answer says whether it was the last. -/
def unreference (store : Store κ) (id : Nat) : Bool × Store κ :=
  (decide (((store.entry? id).getD {}).references = 1),
    store.modifyEntry id fun entry => { entry with references := entry.references - 1 })

def takeLock? (store : Store κ) (id : Nat) (mode : LockMode) : Option (Store κ) := do
  let entry ← store.entry? id
  let lock ← entry.lock.take? mode
  some (store.modifyEntry id fun entry => { entry with lock })

def releaseLock (store : Store κ) (id : Nat) (mode : LockMode) : Store κ :=
  store.modifyEntry id fun entry => { entry with lock := entry.lock.release mode }

def downgradeLock (store : Store κ) (id : Nat) : Store κ :=
  store.modifyEntry id fun entry => { entry with lock := entry.lock.downgrade }

/-! What the evictor does to one key: two steps, each at once. -/

/-- Whether the entry of a key was used again, and forgets it. -/
def clearAccessed (store : Store κ) (key : κ) : Option Bool × Store κ :=
  match store.lookup? key with
  | none => (none, store)
  | some id =>
      ((store.entry? id).map Entry.accessed,
        store.modifyEntry id fun entry => { entry with accessed := false })

def isEvictable (entry : Entry) : Bool := !entry.accessed && entry.references = 0

/-- Claims the entry of a key and drops the key, if nobody refers to it. -/
def removeIdle (store : Store κ) (key : κ) : Bool × Store κ :=
  match store.lookup? key with
  | none => (false, store)
  | some id =>
      if isEvictable ((store.entry? id).getD {}) then
        (true, { store.modifyEntry id (fun entry => { entry with references := claimed }) with
          keys := store.keys.erase key })
      else (false, store)

end Store

end Pooling.LockPool
