import Pooling.LockPool.Evictor

/-!
All that the evictor of a lock pool does is to look at keys and to drop idle keys. What these two
keep, its visits, passes and rounds keep too.
-/

namespace Pooling.LockPool

variable {κ : Type} [DecidableEq κ]

/-- What is true of a store stays true of it whatever key the evictor looks at or drops. -/
structure Endures (holds : Store κ → Prop) : Prop where
  look : ∀ {store : Store κ} (key : κ), holds store → holds (store.clearAccessed key).2
  evict : ∀ {store : Store κ} (key : κ), holds store → holds (store.removeIdle key).2

namespace Endures

variable {holds : Store κ → Prop} {store : Store κ}

theorem visit (hendures : Endures holds) (key : κ) (hstore : holds store) :
    holds (visit store key).2 := by
  have hlook := hendures.look key hstore
  unfold LockPool.visit
  split
  next looked hlooked =>
    rw [hlooked] at hlook
    exact hendures.evict key hlook
  next looked _ hlooked =>
    rw [hlooked] at hlook
    exact hlook

theorem pass (hendures : Endures holds) (target : Nat) (cursor : List κ) (hstore : holds store) :
    holds (pass target cursor store).store := by
  induction cursor generalizing target store with
  | nil =>
      unfold LockPool.pass
      split <;> exact hstore
  | cons key cursor ih =>
      have hvisit := hendures.visit key hstore
      unfold LockPool.pass
      split
      next => exact hstore
      next =>
        cases hvisited : LockPool.visit store key with
        | mk removed visited =>
            rw [hvisited] at hvisit
            cases removed with
            | true =>
                simp only [hvisited]
                exact ih (target - 1) hvisit
            | false =>
                simp only [hvisited]
                exact ih target hvisit

theorem sweep (hendures : Endures holds) (order : Store κ → List κ) (target refills : Nat)
    (cursor : List κ) (hstore : holds store) :
    holds (sweep order target refills cursor store).store := by
  induction refills generalizing target cursor store with
  | zero => exact hendures.pass target cursor hstore
  | succ refills ih =>
      have hfirst := hendures.pass target cursor hstore
      simp only [LockPool.sweep]
      split
      next => exact hfirst
      next =>
        split
        next => exact hfirst
        next => exact ih _ _ hfirst

theorem work (hendures : Endures holds) (order : Store κ → List κ) (fuel : Nat)
    (evictor : Evictor κ) (hstore : holds store) : holds (evictor.work order fuel store).2 := by
  induction fuel generalizing evictor store with
  | zero => exact hstore
  | succ fuel ih =>
      have hround := hendures.sweep order (store.size - store.lowWatermark) maxPasses
        evictor.cursor hstore
      unfold Evictor.work
      split
      next =>
        dsimp only
        split
        next => exact hround
        next => exact ih _ hround
      next => exact hstore

end Endures

end Pooling.LockPool
