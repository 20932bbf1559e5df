import Pooling.Locks.Holdings
import Pooling.Proofs.Locks.Holders
import Pooling.Proofs.Tables

/-!
Operations on guards, taken apart into the motions they are made of. Between two motions a lock may
be in no guard at all, because it is just being taken, traded or let go; the state of every lock
agrees with the guards, and with what is in hand, in those scenes too.
-/

namespace Pooling

/-- A guard in the midst of an operation; one that was emptied holds nothing. -/
structure Grip (ι α : Type) where
  lock : ι
  held : Option LockMode
  action : Option α

def Grip.grasp (grip : Grip ι α) : List (ι × LockMode) :=
  grip.held.toList.map fun mode => (grip.lock, mode)

theorem Grip.toList_held (grip : Grip ι α) :
    (grip.held.map fun mode => (grip.lock, mode)).toList = grip.grasp := by
  rw [Grip.grasp]
  cases grip.held <;> rfl

def Guard.grip (guard : Guard ι α) : Grip ι α := ⟨guard.lock, some guard.mode, guard.action⟩

structure Scene (ι γ α : Type) where
  locks : Table ι RwLock
  grips : Table γ (Grip ι α)
  /-- The guard that has been handed to an operation, or by one to its caller. -/
  moved : Option (Grip ι α) := none
  /-- The lock that is in no guard, and the mode it is held in. -/
  hand : Option (ι × LockMode) := none
  ran : List (α × Table ι RwLock) := []

inductive Motion (ι γ α : Type) where
  | seize (lock : ι) (mode : LockMode)
  | wrap
  | bind (name : γ)
  | withdraw (name : γ)
  | install (action : α)
  | empty (name : γ)
  | trade
  | refill (name : γ)
  | vacate
  | unlock
  | act
  | discard

variable {ι γ α : Type} [DecidableEq ι] [DecidableEq γ]

namespace Scene

def lockState (scene : Scene ι γ α) (lock : ι) : RwLock :=
  (scene.locks.get? lock).getD RwLock.free

/-- A lock changes its state, and what is in hand changes with it. -/
def handle (scene : Scene ι γ α) (lock : ι) (state : RwLock) (hand : Option (ι × LockMode)) :
    Scene ι γ α :=
  { scene with locks := scene.locks.insert lock state, hand }

/-- What is held by the guards in a table. -/
def named (grips : Table γ (Grip ι α)) : List (ι × LockMode) :=
  grips.pairs.flatMap fun pair => pair.2.grasp

/-- What is held by guards. -/
def kept (scene : Scene ι γ α) : List (ι × LockMode) :=
  named scene.grips ++ scene.moved.toList.flatMap Grip.grasp

/-- All that is held, be it by a guard or in hand. -/
def grasps (scene : Scene ι γ α) : List (ι × LockMode) := scene.kept ++ scene.hand.toList

end Scene

namespace Motion

/-- A motion for which a scene is not fit changes nothing. -/
def apply (motion : Motion ι γ α) (scene : Scene ι γ α) : Scene ι γ α :=
  match motion with
  | seize lock mode =>
      match scene.hand, (scene.lockState lock).take? mode with
      | none, some state => scene.handle lock state (some (lock, mode))
      | _, _ => scene
  | wrap =>
      match scene.moved, scene.hand with
      | none, some (lock, mode) =>
          { scene with moved := some ⟨lock, some mode, none⟩, hand := none }
      | _, _ => scene
  -- The guard that had the name is out of it, and in the way of nobody, until it is vacated.
  | bind name =>
      match scene.moved with
      | some grip =>
          { scene with grips := scene.grips.insert name grip, moved := scene.grips.get? name }
      | none => scene
  | withdraw name =>
      match scene.moved, scene.grips.get? name with
      | none, some grip => { scene with grips := scene.grips.erase name, moved := some grip }
      | _, _ => scene
  | install action =>
      { scene with moved := scene.moved.map fun grip => { grip with action := some action } }
  | empty name =>
      match scene.hand, scene.grips.get? name with
      | none, some grip =>
          { scene with
            grips := scene.grips.insert name { grip with held := none }
            hand := grip.held.map fun mode => (grip.lock, mode) }
      | _, _ => scene
  | trade =>
      match scene.hand with
      | some (lock, .write) =>
          scene.handle lock (scene.lockState lock).downgrade (some (lock, .read))
      | _ => scene
  | refill name =>
      match scene.hand, scene.grips.get? name with
      | some (lock, mode), some ⟨own, none, action⟩ =>
          if own = lock then
            { scene with grips := scene.grips.insert name ⟨lock, some mode, action⟩, hand := none }
          else scene
      | _, _ => scene
  | vacate =>
      match scene.hand, scene.moved with
      | none, some grip =>
          { scene with
            moved := some { grip with held := none }
            hand := grip.held.map fun mode => (grip.lock, mode) }
      | _, _ => scene
  | unlock =>
      match scene.hand with
      | some (lock, mode) => scene.handle lock ((scene.lockState lock).release mode) none
      | none => scene
  | act =>
      match scene.moved with
      | some ⟨lock, held, some action⟩ =>
          { scene with
            moved := some ⟨lock, held, none⟩
            ran := scene.ran ++ [(action, scene.locks)] }
      | _ => scene
  | discard =>
      match scene.moved with
      | some ⟨_, none, _⟩ => { scene with moved := none }
      | _ => scene

end Motion

namespace Scene

/-- Every lock is held by just those who are said to hold it. -/
structure Agrees (scene : Scene ι γ α) : Prop where
  nodup_names : scene.grips.keys.Nodup
  held_by : ∀ lock, (scene.lockState lock).HeldBy (scene.grasps.count (lock, .read))
    (scene.grasps.count (lock, .write))

omit [DecidableEq γ] in
theorem lockState_handle (scene : Scene ι γ α) (lock other : ι) (state : RwLock)
    (hand : Option (ι × LockMode)) :
    (scene.handle lock state hand).lockState other =
      if other = lock then state else scene.lockState other := by
  rw [lockState, handle, Table.get?_insert]
  split <;> rfl

omit [DecidableEq γ] in
theorem Agrees.of_count {scene next : Scene ι γ α} (hagrees : scene.Agrees)
    (hnodup : next.grips.keys.Nodup) (hlocks : next.locks = scene.locks)
    (hcount : ∀ grasp, next.grasps.count grasp = scene.grasps.count grasp) : next.Agrees where
  nodup_names := hnodup
  held_by := by
    intro lock
    have hsame : next.lockState lock = scene.lockState lock := by
      rw [lockState, lockState, hlocks]
    rw [hsame, hcount, hcount]
    exact hagrees.held_by lock

/-! What is held by the guards with names, where one name gets another guard or loses its own. -/

theorem count_named_of_get? {grips : Table γ (Grip ι α)} (hnodup : grips.keys.Nodup) {name : γ}
    {grip : Grip ι α} (hgrip : grips.get? name = some grip) (grasp : ι × LockMode) :
    (named grips).count grasp =
      grip.grasp.count grasp + (named (grips.erase name)).count grasp := by
  have hperm := (Table.perm_of_get? hnodup hgrip).flatMap_right fun pair => pair.2.grasp
  rw [List.flatMap_cons] at hperm
  exact (hperm.count_eq grasp).trans List.count_append

theorem count_named_insert {grips : Table γ (Grip ι α)} (hnodup : grips.keys.Nodup) (name : γ)
    (grip : Grip ι α) (grasp : ι × LockMode) :
    (named (grips.insert name grip)).count grasp =
      grip.grasp.count grasp + (named (grips.erase name)).count grasp := by
  have hperm := (Table.perm_insert hnodup name grip).flatMap_right fun pair => pair.2.grasp
  rw [List.flatMap_cons] at hperm
  exact (hperm.count_eq grasp).trans List.count_append

/-! Each motion keeps what agrees. -/

variable {scene : Scene ι γ α}

omit [DecidableEq γ] in
/-- The lock that is handled has new holders, and those of the others are the same. -/
theorem Agrees.handle (hagrees : scene.Agrees) {lock : ι} {state : RwLock}
    {hand : Option (ι × LockMode)}
    (hheld : state.HeldBy (scene.kept.count (lock, .read) + hand.toList.count (lock, .read))
      (scene.kept.count (lock, .write) + hand.toList.count (lock, .write)))
    (hothers : ∀ other mode, other ≠ lock →
      hand.toList.count (other, mode) = scene.hand.toList.count (other, mode)) :
    (scene.handle lock state hand).Agrees where
  nodup_names := hagrees.nodup_names
  held_by := by
    intro other
    rw [lockState_handle]
    show RwLock.HeldBy _ ((scene.kept ++ hand.toList).count _) ((scene.kept ++ hand.toList).count _)
    simp only [List.count_append]
    split
    next heq => exact heq ▸ hheld
    next hne =>
      rw [hothers other .read hne, hothers other .write hne]
      have hbefore := hagrees.held_by other
      simp only [grasps, List.count_append] at hbefore
      exact hbefore

omit [DecidableEq γ] in
theorem Agrees.seize (hagrees : scene.Agrees) (hhand : scene.hand = none) {lock : ι}
    {mode : LockMode} {state : RwLock} (htake : (scene.lockState lock).take? mode = some state) :
    (scene.handle lock state (some (lock, mode))).Agrees := by
  have hheld := hagrees.held_by lock
  simp only [grasps, hhand, Option.toList_none, List.append_nil] at hheld
  apply hagrees.handle
  · cases mode with
    | read => simpa using hheld.take_read htake
    | write => simpa using hheld.take_write htake
  · intro other another hne
    simp [hhand, Ne.symm hne]

omit [DecidableEq γ] in
theorem Agrees.trade (hagrees : scene.Agrees) {lock : ι}
    (hhand : scene.hand = some (lock, .write)) :
    (scene.handle lock (scene.lockState lock).downgrade (some (lock, .read))).Agrees := by
  have hheld := hagrees.held_by lock
  simp only [grasps, hhand, List.count_append] at hheld
  apply hagrees.handle
  · have hwriter : (scene.lockState lock).HeldBy (scene.kept.count (lock, .read))
        (scene.kept.count (lock, .write) + 1) := by simpa using hheld
    simpa using hwriter.downgrade
  · intro other another hne
    simp [hhand, Ne.symm hne]

omit [DecidableEq γ] in
theorem Agrees.unlock (hagrees : scene.Agrees) {lock : ι} {mode : LockMode}
    (hhand : scene.hand = some (lock, mode)) :
    (scene.handle lock ((scene.lockState lock).release mode) none).Agrees := by
  have hheld := hagrees.held_by lock
  simp only [grasps, hhand, List.count_append] at hheld
  apply hagrees.handle
  · cases mode with
    | read => exact RwLock.HeldBy.release_read (by simpa using hheld)
    | write => exact RwLock.HeldBy.release_write (by simpa using hheld)
  · intro other another hne
    simp [hhand, Ne.symm hne]

theorem Agrees.bind (hagrees : scene.Agrees) (name : γ) {grip : Grip ι α}
    (hmoved : scene.moved = some grip) :
    ({ scene with
      grips := scene.grips.insert name grip
      moved := scene.grips.get? name } : Scene ι γ α).Agrees := by
  refine hagrees.of_count (Table.nodup_keys_insert hagrees.nodup_names name grip) ?_ ?_
  · rfl
  · intro grasp
    have hnew := count_named_insert hagrees.nodup_names name grip grasp
    simp only [grasps, kept, hmoved, List.count_append, Option.toList_some, List.flatMap_singleton]
    cases hold : scene.grips.get? name with
    | none =>
        rw [Table.erase_of_get?_eq_none hold] at hnew
        simp only [Option.toList_none, List.flatMap_nil, List.count_nil]
        omega
    | some old =>
        have hbefore := count_named_of_get? hagrees.nodup_names hold grasp
        simp only [Option.toList_some, List.flatMap_singleton]
        omega

theorem Agrees.withdraw (hagrees : scene.Agrees) {name : γ} {grip : Grip ι α}
    (hmoved : scene.moved = none) (hgrip : scene.grips.get? name = some grip) :
    ({ scene with grips := scene.grips.erase name, moved := some grip } : Scene ι γ α).Agrees := by
  refine hagrees.of_count (Table.nodup_keys_erase hagrees.nodup_names name) ?_ ?_
  · rfl
  · intro grasp
    have hbefore := count_named_of_get? hagrees.nodup_names hgrip grasp
    simp only [grasps, kept, hmoved, List.count_append, Option.toList_some, Option.toList_none,
      List.flatMap_singleton, List.flatMap_nil, List.count_nil]
    omega

/-- A guard of a name is changed in its place, and what it no longer holds is in hand. -/
theorem Agrees.exchange (hagrees : scene.Agrees) {name : γ} {grip changed : Grip ι α}
    {hand : Option (ι × LockMode)} (hgrip : scene.grips.get? name = some grip)
    (hsame : ∀ grasp, changed.grasp.count grasp + hand.toList.count grasp =
      grip.grasp.count grasp + scene.hand.toList.count grasp) :
    ({ scene with grips := scene.grips.insert name changed, hand } : Scene ι γ α).Agrees := by
  refine hagrees.of_count (Table.nodup_keys_insert hagrees.nodup_names name changed) ?_ ?_
  · rfl
  · intro grasp
    have hbefore := count_named_of_get? hagrees.nodup_names hgrip grasp
    have hafter := count_named_insert hagrees.nodup_names name changed grasp
    have hsame := hsame grasp
    simp only [grasps, kept, List.count_append]
    omega

omit [DecidableEq γ] in
/-- The guard that was handed over is changed, and what it no longer holds is in hand. -/
theorem Agrees.exchangeMoved (hagrees : scene.Agrees) {moved : Option (Grip ι α)}
    {hand : Option (ι × LockMode)} {ran : List (α × Table ι RwLock)}
    (hsame : ∀ grasp, (moved.toList.flatMap Grip.grasp).count grasp + hand.toList.count grasp =
      (scene.moved.toList.flatMap Grip.grasp).count grasp + scene.hand.toList.count grasp) :
    ({ scene with moved, hand, ran } : Scene ι γ α).Agrees := by
  refine hagrees.of_count hagrees.nodup_names ?_ ?_
  · rfl
  · intro grasp
    have hsame := hsame grasp
    simp only [grasps, kept, List.count_append]
    omega

theorem Agrees.apply (hagrees : scene.Agrees) (motion : Motion ι γ α) :
    (motion.apply scene).Agrees := by
  cases motion with
  | seize lock mode =>
      simp only [Motion.apply]
      split
      next state hhand htake => exact hagrees.seize hhand htake
      next => exact hagrees
  | wrap =>
      simp only [Motion.apply]
      split
      next lock mode hmoved hhand =>
        apply hagrees.exchangeMoved
        intro grasp
        simp [hmoved, hhand, Grip.grasp]
      next => exact hagrees
  | bind name =>
      simp only [Motion.apply]
      split
      next grip hmoved => exact hagrees.bind name hmoved
      next => exact hagrees
  | withdraw name =>
      simp only [Motion.apply]
      split
      next grip hmoved hgrip => exact hagrees.withdraw hmoved hgrip
      next => exact hagrees
  | install action =>
      apply hagrees.exchangeMoved
      intro grasp
      cases scene.moved <;> rfl
  | empty name =>
      simp only [Motion.apply]
      split
      next grip hhand hgrip =>
        apply hagrees.exchange hgrip
        intro grasp
        simp [hhand, Grip.toList_held, Grip.grasp]
      next => exact hagrees
  | trade =>
      simp only [Motion.apply]
      split
      next lock hhand => exact hagrees.trade hhand
      next => exact hagrees
  | refill name =>
      simp only [Motion.apply]
      split
      next lock mode own action hhand hgrip =>
        split
        next heq =>
          apply hagrees.exchange hgrip
          intro grasp
          simp [hhand, Grip.grasp]
        next => exact hagrees
      next => exact hagrees
  | vacate =>
      simp only [Motion.apply]
      split
      next grip hhand hmoved =>
        apply hagrees.exchangeMoved
        intro grasp
        simp [hmoved, hhand, Grip.toList_held, Grip.grasp]
      next => exact hagrees
  | unlock =>
      simp only [Motion.apply]
      split
      next lock mode hhand => exact hagrees.unlock hhand
      next => exact hagrees
  | act =>
      simp only [Motion.apply]
      split
      next lock held action hmoved =>
        apply hagrees.exchangeMoved
        intro grasp
        rw [hmoved]
        rfl
      next => exact hagrees
  | discard =>
      simp only [Motion.apply]
      split
      next lock action hmoved =>
        apply hagrees.exchangeMoved
        intro grasp
        rw [hmoved]
        rfl
      next => exact hagrees

end Scene

end Pooling
