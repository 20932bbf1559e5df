import Pooling.Proofs.LockPool.Safety
import Pooling.Proofs.LockPool.Sweeps

/-!
What the evictor of a lock pool does is part of a run, and as sound as that.
-/

namespace Pooling.LockPool.System

variable {κ : Type} [DecidableEq κ]

theorem endures_reaches (system : System κ) :
    Endures fun store => Reaches system ⟨store, system.references⟩ where
  look := fun key hreaches => hreaches.trans (.single ⟨.look key, rfl, rfl⟩)
  evict := fun key hreaches => hreaches.trans (.single ⟨.evict key, rfl, rfl⟩)

/-- An evictor at work keeps the count of an entry the number of references to it. -/
theorem Sound.of_work {lowWatermark highWatermark : Nat} {system : System κ}
    (hreaches : Reaches (start lowWatermark highWatermark) system) (order : Store κ → List κ)
    (fuel : Nat) (evictor : Evictor κ) :
    (⟨(evictor.work order fuel system.store).2, system.references⟩ : System κ).Sound :=
  Reaches.sound (hreaches.trans (system.endures_reaches.work order fuel evictor .refl))

end Pooling.LockPool.System
