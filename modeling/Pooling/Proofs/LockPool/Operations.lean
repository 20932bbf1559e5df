import Pooling.LockPool.Pool
import Pooling.Proofs.LockPool.System
import Pooling.Proofs.Runs

/-!
Operations of one caller on locks by key, each after the other: on a lock pool, on a lock pool whose
evictor comes in between and in the middle of operations, and on locks that last for ever.
-/

namespace Pooling.LockPool

/-- An operation on locks or guards. A guard that had the name of a new guard ends. -/
inductive Operation (κ γ : Type) where
  | get (name : γ) (key : κ) (mode : LockMode)
  | tryGet (name : γ) (key : κ) (mode : LockMode)
  | mode (name : γ)
  | downgrade (name : γ)
  | drop (name : γ)
  deriving DecidableEq

/-- The key whose lock an operation asks for. -/
def Operation.asked? : Operation κ γ → Option κ
  | get _ key _ => some key
  | tryGet _ key _ => some key
  | _ => none

inductive Answer where
  | granted
  /-- The caller would have to wait for a lock, and nobody else is there to let go of it. -/
  | waits
  | refused
  | held (mode : Option LockMode)
  | downgraded (done : Bool)
  | dropped
  deriving DecidableEq

/-- One round of an evictor: how many entries it is to remove, the keys left over from the round
before, and the order in which it goes over the keys of a store. -/
structure Round (κ : Type) where
  target : Nat
  cursor : List κ
  order : Store κ → List κ

/-- The rounds that come before an operation and at each point in the middle of one. -/
structure Interlude (κ : Type) where
  before : List (Round κ) := []
  /-- The entry of the key is found, and its lock is not asked for. -/
  referred : List (Round κ) := []
  /-- The new guard has its name, and the guard that had it holds its lock. -/
  named : List (Round κ) := []
  /-- A lock is let go, and the reference to it is not. -/
  released : List (Round κ) := []

variable {κ γ : Type} [DecidableEq κ] [DecidableEq γ]

namespace Pool

def round (pool : Pool κ γ) (round : Round κ) : Pool κ γ :=
  let (_, evictor, store) :=
    { pool.evictor with cursor := round.cursor }.evict round.order round.target pool.store
  { pool with evictor, store }

def rounds (pool : Pool κ γ) (rounds : List (Round κ)) : Pool κ γ := rounds.foldl Pool.round pool

def letGoAmid (interlude : Interlude κ) (pool : Pool κ γ) (guard : Guard Nat ReleaseAction) :
    Pool κ γ :=
  let pool := { pool with store := pool.store.releaseLock guard.lock guard.mode }
  let pool := pool.rounds interlude.released
  match guard.action with
  | some .unreference => pool.unreference guard.lock
  | _ => pool

def dropAmid (interlude : Interlude κ) (pool : Pool κ γ) (name : γ) : Pool κ γ :=
  match pool.guards.get? name with
  | some guard => { pool with guards := pool.guards.erase name }.letGoAmid interlude guard
  | none => pool

def nameAmid (interlude : Interlude κ) (pool : Pool κ γ) (name : γ)
    (guard : Guard Nat ReleaseAction) : Pool κ γ :=
  let previous := pool.guards.get? name
  let pool := { pool with guards := pool.guards.insert name guard }
  let pool := pool.rounds interlude.named
  match previous with
  | some previous => pool.letGoAmid interlude previous
  | none => pool

def grantAmid? (interlude : Interlude κ) (pool : Pool κ γ) (name : γ) (id : Nat)
    (mode : LockMode) : Option (Pool κ γ) :=
  (pool.store.takeLock? id mode).map fun store =>
    { pool with store }.nameAmid interlude name ⟨id, mode, some .unreference⟩

/-- What an operation on a pool comes to; there is no pool after it if the caller has to wait. -/
def perform (operation : Operation κ γ) (pool : Pool κ γ) : Answer × Option (Pool κ γ) :=
  match operation with
  | .get name key mode =>
      match pool.get? name key mode with
      | some pool => (.granted, some pool)
      | none => (.waits, none)
  | .tryGet name key mode =>
      match pool.tryGet name key mode with
      | (true, pool) => (.granted, some pool)
      | (false, pool) => (.refused, some pool)
  | .mode name => (.held ((pool.guards.get? name).map Guard.mode), some pool)
  | .downgrade name => (.downgraded (pool.downgrade name).1, some (pool.downgrade name).2)
  | .drop name => (.dropped, some (pool.drop name))

/-- The same with an evictor that comes in. -/
def performAmid (step : Interlude κ × Operation κ γ) (pool : Pool κ γ) :
    Answer × Option (Pool κ γ) :=
  let (interlude, operation) := step
  let pool := pool.rounds interlude.before
  match operation with
  | .get name key mode =>
      let (id, pool) := pool.reference key
      match (pool.rounds interlude.referred).grantAmid? interlude name id mode with
      | some pool => (.granted, some pool)
      | none => (.waits, none)
  | .tryGet name key mode =>
      let (id, pool) := pool.reference key
      let pool := pool.rounds interlude.referred
      match pool.grantAmid? interlude name id mode with
      | some pool => (.granted, some pool)
      | none => (.refused, some (pool.unreference id))
  | .drop name => (.dropped, some (pool.dropAmid interlude name))
  | operation => pool.perform operation

/-- An evictor that does not come in leaves every operation as it is. -/
theorem performAmid_nothing (operation : Operation κ γ) (pool : Pool κ γ) :
    pool.performAmid ({}, operation) = pool.perform operation := by
  have hgrant : ∀ (pool : Pool κ γ) name id mode,
      pool.grantAmid? {} name id mode = pool.grant? name id mode := by
    intro pool name id mode
    unfold grantAmid? grant?
    cases pool.store.takeLock? id mode <;> rfl
  cases operation with
  | get name key mode =>
      show (match (pool.reference key).2.grantAmid? {} name (pool.reference key).1 mode with
        | some pool => (Answer.granted, some pool)
        | none => (.waits, none)) = _
      rw [hgrant]
      rfl
  | tryGet name key mode =>
      show (match (pool.reference key).2.grantAmid? {} name (pool.reference key).1 mode with
        | some pool => (Answer.granted, some pool)
        | none => (.refused, some ((pool.reference key).2.unreference (pool.reference key).1))) = _
      rw [hgrant]
      unfold perform tryGet
      cases hgranted : (pool.reference key).2.grant? name (pool.reference key).1 mode <;>
        simp only [hgranted]
  | _ => rfl

end Pool

end Pooling.LockPool

namespace Pooling.Holdings

open LockPool

variable {κ γ : Type} [DecidableEq κ] [DecidableEq γ]

/-- What an operation on lasting locks comes to, the lock of a key being the key itself. -/
def perform (operation : Operation κ γ) (holdings : Holdings κ γ ReleaseAction) :
    Answer × Option (Holdings κ γ ReleaseAction) :=
  match operation with
  | .get name key mode =>
      match holdings.take? name key mode (some .unreference) with
      | some holdings => (.granted, some holdings)
      | none => (.waits, none)
  | .tryGet name key mode =>
      match holdings.take? name key mode (some .unreference) with
      | some holdings => (.granted, some holdings)
      | none => (.refused, some holdings)
  | .mode name => (.held ((holdings.guards.get? name).map Guard.mode), some holdings)
  | .downgrade name =>
      (.downgraded (holdings.downgrade name).1, some (holdings.downgrade name).2)
  | .drop name => (.dropped, some (holdings.drop name))

/-- How many guards there are on a lock. -/
def guardsOn (holdings : Holdings κ γ ReleaseAction) (key : κ) : Nat :=
  (holdings.guards.pairs.map fun pair => pair.2.lock).count key

/-- Nobody asks for a lock while there are as many guards on it as a count of references can
show. -/
def countable : List (Operation κ γ) → Holdings κ γ ReleaseAction → Bool
  | [], _ => true
  | operation :: operations, holdings =>
      operation.asked?.all (fun key => holdings.guardsOn key < System.countLimit) &&
      (holdings.perform operation).2.elim true (countable operations)

end Pooling.Holdings
