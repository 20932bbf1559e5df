import Pooling.Locks.Holdings

/-!
Who holds a read/write lock: how many readers and how many writers there are, by its state.
-/

namespace Pooling

namespace RwLock

/-- Whether a lock is held by so many readers and so many writers. -/
def HeldBy : RwLock → Nat → Nat → Prop
  | shared count, readers, writers => readers = count ∧ writers = 0
  | exclusive, readers, writers => readers = 0 ∧ writers = 1

theorem HeldBy.take_read {lock taken : RwLock} {readers writers : Nat}
    (hheld : lock.HeldBy readers writers) (htake : lock.take? .read = some taken) :
    taken.HeldBy (readers + 1) writers := by
  cases lock with
  | exclusive => cases htake
  | shared count =>
      cases htake
      exact ⟨congrArg (· + 1) hheld.1, hheld.2⟩

theorem HeldBy.take_write {lock taken : RwLock} {readers writers : Nat}
    (hheld : lock.HeldBy readers writers) (htake : lock.take? .write = some taken) :
    taken.HeldBy readers (writers + 1) := by
  cases lock with
  | exclusive => cases htake
  | shared count =>
      cases count with
      | zero =>
          cases htake
          exact ⟨hheld.1, congrArg (· + 1) hheld.2⟩
      | succ count => cases htake

theorem HeldBy.release_read {lock : RwLock} {readers writers : Nat}
    (hheld : lock.HeldBy (readers + 1) writers) : (lock.release .read).HeldBy readers writers := by
  cases lock with
  | exclusive => cases hheld.1
  | shared count =>
      obtain ⟨rfl, hnone⟩ := hheld
      exact ⟨rfl, hnone⟩

theorem HeldBy.release_write {lock : RwLock} {readers writers : Nat}
    (hheld : lock.HeldBy readers (writers + 1)) :
    (lock.release .write).HeldBy readers writers := by
  cases lock with
  | exclusive => exact ⟨hheld.1, Nat.succ.inj hheld.2⟩
  | shared count => cases hheld.2

theorem HeldBy.downgrade {lock : RwLock} {readers writers : Nat}
    (hheld : lock.HeldBy readers (writers + 1)) :
    lock.downgrade.HeldBy (readers + 1) writers := by
  cases lock with
  | exclusive => exact ⟨congrArg (· + 1) hheld.1, Nat.succ.inj hheld.2⟩
  | shared count => cases hheld.2

theorem HeldBy.alone {lock : RwLock} {readers writers : Nat} (hheld : lock.HeldBy readers writers)
    (hwriter : 0 < writers) : readers = 0 ∧ writers = 1 := by
  cases lock with
  | exclusive => exact hheld
  | shared count =>
      have hnone := hheld.2
      omega

end RwLock

@[simp] theorem Holdings.guards_letGo {ι γ α : Type} [DecidableEq ι] (holdings : Holdings ι γ α)
    (guard : Guard ι α) : (holdings.letGo guard).guards = holdings.guards := by
  unfold letGo
  cases guard.action <;> rfl

end Pooling
