import Pooling.LockPool.Entry

/-!
The evictor of a lock pool. A round visits keys until it has removed enough of them; it starts
with the keys left over from the last round and takes a new list of all keys at most three times.
-/

namespace Pooling.LockPool

def maxPasses : Nat := 3

structure Evictor (κ : Type) where
  /-- Keys still to visit. -/
  cursor : List κ := []
  /-- The last round removed nothing. -/
  stalled : Bool := false

structure Sweep (κ : Type) where
  removed : Nat
  cursor : List κ
  store : Store κ

variable {κ : Type} [DecidableEq κ]

/-- An entry used again is spared once; any other goes if nobody refers to it. -/
def visit (store : Store κ) (key : κ) : Bool × Store κ :=
  match store.clearAccessed key with
  | (some false, store) => store.removeIdle key
  | (_, store) => (false, store)

/-- Visits keys until `target` of them are removed or none is left. -/
def pass (target : Nat) : List κ → Store κ → Sweep κ
  | cursor, store =>
      if target = 0 then ⟨0, cursor, store⟩
      else
        match cursor with
        | [] => ⟨0, [], store⟩
        | key :: cursor =>
            match visit store key with
            | (true, store) =>
                let rest := pass (target - 1) cursor store
                { rest with removed := rest.removed + 1 }
            | (false, store) => pass target cursor store

/-- A round: passes over the cursor, refilled at most `refills` times in the given order. -/
def sweep (order : Store κ → List κ) (target : Nat) : Nat → List κ → Store κ → Sweep κ
  | 0, cursor, store => pass target cursor store
  | refills + 1, cursor, store =>
      let first := pass target cursor store
      if first.removed = target then first
      else
        match order first.store with
        | [] => first
        | keys =>
            let rest := sweep order (target - first.removed) refills keys first.store
            { rest with removed := rest.removed + first.removed }

namespace Evictor

def evict (order : Store κ → List κ) (target : Nat) (evictor : Evictor κ) (store : Store κ) :
    Nat × Evictor κ × Store κ :=
  let done := sweep order target maxPasses evictor.cursor store
  (done.removed, { evictor with cursor := done.cursor }, done.store)

/-- A round of an evictor that found the pool overfull: down to the low watermark, if it can. -/
def round (order : Store κ → List κ) (evictor : Evictor κ) (store : Store κ) :
    Evictor κ × Store κ :=
  let (removed, evictor, store) := evictor.evict order (store.size - store.lowWatermark) store
  ({ evictor with stalled := removed = 0 }, store)

/-- Rounds of an evictor that has been woken, until it goes back to sleep. -/
def work (order : Store κ → List κ) : Nat → Evictor κ → Store κ → Evictor κ × Store κ
  | 0, evictor, store => (evictor, store)
  | fuel + 1, evictor, store =>
      if store.isOverfull then
        let (evictor, store) := evictor.round order store
        if evictor.stalled then (evictor, store) else work order fuel evictor store
      else (evictor, store)

end Evictor

end Pooling.LockPool
