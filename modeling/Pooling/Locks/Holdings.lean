import Pooling.Locks.RwLock
import Pooling.Table

/-!
Guards on locks: who holds what, in which mode, and what is to happen once it is let go.
-/

namespace Pooling

/-- A held lock. The release action runs once, after the lock has been let go. -/
structure Guard (ι α : Type) where
  lock : ι
  mode : LockMode
  action : Option α

namespace Guard

def describe (guard : Guard ι α) (lock : String) : String :=
  Describe.record "LockResource" [("mode", guard.mode.name), ("lock", lock)]

end Guard

/-- Locks, the guards on them, and the actions that have run, each with the locks as it found them
(oldest first). -/
structure Holdings (ι γ α : Type) where
  locks : Table ι RwLock := {}
  guards : Table γ (Guard ι α) := {}
  ran : List (α × Table ι RwLock) := []

namespace Holdings

variable {ι γ α : Type} [DecidableEq ι] [DecidableEq γ]

def lockState (holdings : Holdings ι γ α) (lock : ι) : RwLock :=
  (holdings.locks.get? lock).getD RwLock.free

def setLock (holdings : Holdings ι γ α) (lock : ι) (state : RwLock) : Holdings ι γ α :=
  { holdings with locks := holdings.locks.insert lock state }

def letGo (holdings : Holdings ι γ α) (guard : Guard ι α) : Holdings ι γ α :=
  let holdings :=
    holdings.setLock guard.lock ((holdings.lockState guard.lock).release guard.mode)
  match guard.action with
  | some action => { holdings with ran := holdings.ran ++ [(action, holdings.locks)] }
  | none => holdings

def drop (holdings : Holdings ι γ α) (name : γ) : Holdings ι γ α :=
  match holdings.guards.get? name with
  | some guard => { holdings with guards := holdings.guards.erase name }.letGo guard
  | none => holdings

/-- Gives a new guard its name; a guard that had the name ends afterwards. -/
def name (holdings : Holdings ι γ α) (name : γ) (guard : Guard ι α) : Holdings ι γ α :=
  let previous := holdings.guards.get? name
  let holdings := { holdings with guards := holdings.guards.insert name guard }
  match previous with
  | some previous => holdings.letGo previous
  | none => holdings

def take? (holdings : Holdings ι γ α) (name : γ) (lock : ι) (mode : LockMode)
    (action : Option α) : Option (Holdings ι γ α) :=
  match (holdings.lockState lock).take? mode with
  | some state => some ((holdings.setLock lock state).name name ⟨lock, mode, action⟩)
  | none => none

/-- Trades a write guard for a read guard, with the lock held throughout. -/
def downgrade (holdings : Holdings ι γ α) (name : γ) : Bool × Holdings ι γ α :=
  match holdings.guards.get? name with
  | some ⟨lock, .write, action⟩ =>
      (true, { holdings.setLock lock (holdings.lockState lock).downgrade with
        guards := holdings.guards.insert name ⟨lock, .read, action⟩ })
  | _ => (false, holdings)

def onRelease (holdings : Holdings ι γ α) (name : γ) (action : α) : Holdings ι γ α :=
  { holdings with
    guards := holdings.guards.modify name fun guard => { guard with action := some action } }

def sameLock? (holdings : Holdings ι γ α) (first second : γ) : Option Bool := do
  let first ← holdings.guards.get? first
  let second ← holdings.guards.get? second
  some (first.lock = second.lock)

end Holdings

end Pooling
