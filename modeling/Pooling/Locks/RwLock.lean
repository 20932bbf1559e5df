import Pooling.Text.Describe

/-!
Read/write locks: any number of readers, or one writer.
-/

namespace Pooling

inductive LockMode where
  | read
  | write
  deriving DecidableEq

namespace LockMode

def name : LockMode → String
  | read => "Read"
  | write => "Write"

end LockMode

inductive RwLock where
  | shared (readers : Nat)
  | exclusive
  deriving DecidableEq

namespace RwLock

def free : RwLock := shared 0

instance : Inhabited RwLock := ⟨free⟩

/-- The lock after granting a mode that does not conflict with its holders. -/
def take? : RwLock → LockMode → Option RwLock
  | shared readers, .read => some (shared (readers + 1))
  | shared 0, .write => some exclusive
  | shared (_ + 1), .write => none
  | exclusive, _ => none

def release : RwLock → LockMode → RwLock
  | shared readers, .read => shared (readers - 1)
  | exclusive, .write => free
  | lock, _ => lock

def downgrade : RwLock → RwLock
  | exclusive => shared 1
  | lock => lock

def isFree (lock : RwLock) : Bool := lock = free

theorem release_of_take? {lock held : RwLock} {mode : LockMode} (h : lock.take? mode = some held) :
    held.release mode = lock := by
  cases lock with
  | exclusive => simp [take?] at h
  | shared readers =>
      cases mode with
      | read =>
          simp only [take?, Option.some.injEq] at h
          subst h
          simp [release]
      | write =>
          cases readers with
          | zero =>
              simp only [take?, Option.some.injEq] at h
              subst h
              rfl
          | succ readers => simp [take?] at h

end RwLock

end Pooling
