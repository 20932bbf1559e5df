import Pooling.Proofs.Locks.Scenes

/-!
What can be asked of guards, the motions that it is done in, and that these come to what it does.
-/

namespace Pooling

namespace Holdings

/-- How a guard ends: at the end of its scope, closed by its owner, or while a panic unwinds. -/
inductive Exit where
  | drop
  | close
  | unwind
  deriving DecidableEq

inductive Request (ι γ α : Type) where
  | new (name : γ) (lock : ι) (mode : LockMode) (spins : Bool)
  | tryNew (name : γ) (lock : ι) (mode : LockMode)
  | onRelease (name : γ) (action : α)
  | downgrade (name : γ)
  | leave (name : γ) (exit : Exit)
  deriving DecidableEq

variable {ι γ α : Type} [DecidableEq ι] [DecidableEq γ]

/-- Performs a request, and answers whether there was something to do; `none` where it would have
to wait. A guard that gets a name in use takes the place of the one that had it, which ends. -/
def perform? (holdings : Holdings ι γ α) :
    Request ι γ α → Option (Bool × Holdings ι γ α)
  | .new name lock mode _ => (holdings.take? name lock mode none).map fun taken => (true, taken)
  | .tryNew name lock mode =>
      match holdings.take? name lock mode none with
      | some taken => some (true, taken)
      | none => some (false, holdings)
  | .onRelease name action =>
      some (holdings.guards.contains name, holdings.onRelease name action)
  | .downgrade name => some (holdings.downgrade name)
  | .leave name _ => some (holdings.guards.contains name, holdings.drop name)

/-- What is done with a guard that has been taken out of its place. -/
def ending : List (Motion ι γ α) := [.vacate, .unlock, .act, .discard]

/-- The motions of a request. A guard goes the same way whichever way it ends. -/
def Request.motions : Request ι γ α → List (Motion ι γ α)
  | new name lock mode _ => [.seize lock mode, .wrap, .bind name] ++ ending
  | tryNew name lock mode => [.seize lock mode, .wrap, .bind name] ++ ending
  | onRelease name action => [.withdraw name, .install action, .bind name]
  | downgrade name => [.empty name, .trade, .refill name]
  | leave name _ => .withdraw name :: ending

def scene (holdings : Holdings ι γ α) : Scene ι γ α where
  locks := holdings.locks
  grips := holdings.guards.map Guard.grip
  ran := holdings.ran

end Holdings

namespace Scene

variable {ι γ α : Type} [DecidableEq ι] [DecidableEq γ]

/-- The scenes that come one after the other, from the one given to the last. -/
def through : List (Motion ι γ α) → Scene ι γ α → List (Scene ι γ α)
  | [], scene => [scene]
  | motion :: motions, scene => scene :: through motions (motion.apply scene)

def last (motions : List (Motion ι γ α)) (scene : Scene ι γ α) : Scene ι γ α :=
  motions.foldl (fun scene motion => motion.apply scene) scene

theorem Agrees.through {scene : Scene ι γ α} (hagrees : scene.Agrees)
    (motions : List (Motion ι γ α)) : ∀ between ∈ scene.through motions, between.Agrees := by
  induction motions generalizing scene with
  | nil =>
      intro between hmem
      exact List.mem_singleton.mp hmem ▸ hagrees
  | cons motion motions ih =>
      intro between hmem
      rcases List.mem_cons.mp hmem with rfl | hmem
      · exact hagrees
      · exact ih (hagrees.apply motion) between hmem

theorem Agrees.last {scene : Scene ι γ α} (hagrees : scene.Agrees)
    (motions : List (Motion ι γ α)) : (scene.last motions).Agrees := by
  induction motions generalizing scene with
  | nil => exact hagrees
  | cons motion motions ih => exact ih (hagrees.apply motion)

/-- Nothing is in hand, and every guard has its lock; one of them may be out of its place. -/
structure Shows (scene : Scene ι γ α) (holdings : Holdings ι γ α) (moved : Option (Guard ι α)) :
    Prop where
  locks_eq : scene.locks = holdings.locks
  grips_eq : ∀ name, scene.grips.get? name = (holdings.guards.get? name).map Guard.grip
  moved_eq : scene.moved = moved.map Guard.grip
  hand_eq : scene.hand = none
  ran_eq : scene.ran = holdings.ran

omit [DecidableEq ι] in
theorem shows_scene (holdings : Holdings ι γ α) : holdings.scene.Shows holdings none :=
  ⟨rfl, fun _ => Table.get?_map _ _ _, rfl, rfl, rfl⟩

namespace Shows

variable {scene : Scene ι γ α} {holdings : Holdings ι γ α}

omit [DecidableEq ι] in
theorem congr {other : Holdings ι γ α} {moved : Option (Guard ι α)}
    (hshows : scene.Shows holdings moved) (hlocks : other.locks = holdings.locks)
    (hguards : ∀ name, other.guards.get? name = holdings.guards.get? name)
    (hran : other.ran = holdings.ran) : scene.Shows other moved where
  locks_eq := hshows.locks_eq.trans hlocks.symm
  grips_eq := fun name => by rw [hshows.grips_eq, hguards]
  moved_eq := hshows.moved_eq
  hand_eq := hshows.hand_eq
  ran_eq := hshows.ran_eq.trans hran.symm

theorem lockState_eq {moved : Option (Guard ι α)} (hshows : scene.Shows holdings moved)
    (lock : ι) : scene.lockState lock = holdings.lockState lock := by
  rw [lockState, hshows.locks_eq, Holdings.lockState]

theorem seize (hshows : scene.Shows holdings none) {lock : ι} {mode : LockMode} {state : RwLock}
    (htake : (holdings.lockState lock).take? mode = some state) :
    (scene.last [.seize lock mode, .wrap]).Shows (holdings.setLock lock state)
      (some ⟨lock, mode, none⟩) := by
  rw [← hshows.lockState_eq] at htake
  have hseized : (Motion.seize lock mode).apply scene =
      scene.handle lock state (some (lock, mode)) := by
    simp [Motion.apply, hshows.hand_eq, htake]
  have hmoved : scene.moved = none := hshows.moved_eq
  have hwrapped : scene.last [.seize lock mode, .wrap] =
      { scene.handle lock state (some (lock, mode)) with
        moved := some ⟨lock, some mode, none⟩, hand := none } := by
    show Motion.apply .wrap ((Motion.seize lock mode).apply scene) = _
    rw [hseized]
    simp [Motion.apply, hmoved, Scene.handle]
  rw [hwrapped]
  exact ⟨congrArg (fun locks => locks.insert lock state) hshows.locks_eq, hshows.grips_eq, rfl, rfl,
    hshows.ran_eq⟩

theorem refused (hshows : scene.Shows holdings none) {lock : ι} {mode : LockMode}
    (htake : (holdings.lockState lock).take? mode = none) :
    (scene.last [.seize lock mode, .wrap]).Shows holdings none := by
  rw [← hshows.lockState_eq] at htake
  have hsame : scene.last [.seize lock mode, .wrap] = scene := by
    have hmoved : scene.moved = none := hshows.moved_eq
    simp [last, Motion.apply, htake, hmoved, hshows.hand_eq]
  rw [hsame]
  exact hshows

theorem bind {guard : Guard ι α} (hshows : scene.Shows holdings (some guard)) (name : γ) :
    ((Motion.bind name).apply scene).Shows
      { holdings with guards := holdings.guards.insert name guard }
      (holdings.guards.get? name) := by
  have hbound : (Motion.bind name).apply scene = { scene with
      grips := scene.grips.insert name guard.grip, moved := scene.grips.get? name } := by
    simp [Motion.apply, hshows.moved_eq]
  rw [hbound]
  refine ⟨hshows.locks_eq, fun other => ?_, hshows.grips_eq name, hshows.hand_eq, hshows.ran_eq⟩
  show (scene.grips.insert name guard.grip).get? other =
    ((holdings.guards.insert name guard).get? other).map Guard.grip
  rw [Table.get?_insert, Table.get?_insert, hshows.grips_eq]
  split <;> rfl

theorem bind_none (hshows : scene.Shows holdings none) (name : γ) :
    ((Motion.bind name).apply scene).Shows holdings none := by
  have hsame : (Motion.bind name).apply scene = scene := by
    simp [Motion.apply, hshows.moved_eq]
  rw [hsame]
  exact hshows

theorem withdraw (hshows : scene.Shows holdings none) {name : γ} {guard : Guard ι α}
    (hguard : holdings.guards.get? name = some guard) :
    ((Motion.withdraw name).apply scene).Shows
      { holdings with guards := holdings.guards.erase name } (some guard) := by
  have hgrip : scene.grips.get? name = some guard.grip := by
    rw [hshows.grips_eq, hguard]
    rfl
  have hmoved : scene.moved = none := hshows.moved_eq
  have hdrawn : (Motion.withdraw name).apply scene = { scene with
      grips := scene.grips.erase name, moved := some guard.grip } := by
    simp [Motion.apply, hmoved, hgrip]
  rw [hdrawn]
  refine ⟨hshows.locks_eq, fun other => ?_, rfl, hshows.hand_eq, hshows.ran_eq⟩
  show (scene.grips.erase name).get? other =
    ((holdings.guards.erase name).get? other).map Guard.grip
  rw [Table.get?_erase, Table.get?_erase, hshows.grips_eq]
  split <;> rfl

theorem withdraw_none (hshows : scene.Shows holdings none) {name : γ}
    (hguard : holdings.guards.get? name = none) :
    ((Motion.withdraw name).apply scene).Shows holdings none := by
  have hgrip : scene.grips.get? name = none := by
    rw [hshows.grips_eq, hguard]
    rfl
  have hsame : (Motion.withdraw name).apply scene = scene := by
    simp [Motion.apply, hgrip]
  rw [hsame]
  exact hshows

theorem install {guard : Guard ι α} (hshows : scene.Shows holdings (some guard)) (action : α) :
    ((Motion.install action).apply scene).Shows holdings
      (some { guard with action := some action }) :=
  ⟨hshows.locks_eq, hshows.grips_eq, congrArg (Option.map _) hshows.moved_eq, hshows.hand_eq,
    hshows.ran_eq⟩

theorem install_none (hshows : scene.Shows holdings none) (action : α) :
    ((Motion.install action).apply scene).Shows holdings none :=
  ⟨hshows.locks_eq, hshows.grips_eq, congrArg (Option.map _) hshows.moved_eq, hshows.hand_eq,
    hshows.ran_eq⟩

theorem ending {guard : Guard ι α} (hshows : scene.Shows holdings (some guard)) :
    (scene.last Holdings.ending).Shows (holdings.letGo guard) none := by
  have hmoved : scene.moved = some guard.grip := hshows.moved_eq
  have hstate := hshows.lockState_eq guard.lock
  obtain ⟨lock, mode, action⟩ := guard
  cases action with
  | none =>
      have hlast : scene.last Holdings.ending =
          { scene with
            locks := scene.locks.insert lock ((scene.lockState lock).release mode)
            moved := none, hand := none } := by
        simp [last, Holdings.ending, Motion.apply, hmoved, hshows.hand_eq, Guard.grip, handle,
          lockState]
      rw [hlast, hstate, hshows.locks_eq]
      exact ⟨rfl, hshows.grips_eq, rfl, rfl, hshows.ran_eq⟩
  | some action =>
      have hlast : scene.last Holdings.ending =
          { scene with
            locks := scene.locks.insert lock ((scene.lockState lock).release mode)
            moved := none, hand := none
            ran := scene.ran ++
              [(action, scene.locks.insert lock ((scene.lockState lock).release mode))] } := by
        simp [last, Holdings.ending, Motion.apply, hmoved, hshows.hand_eq, Guard.grip, handle,
          lockState]
      rw [hlast, hstate, hshows.locks_eq, hshows.ran_eq]
      exact ⟨rfl, hshows.grips_eq, rfl, rfl, rfl⟩

theorem ending_none (hshows : scene.Shows holdings none) :
    (scene.last Holdings.ending).Shows holdings none := by
  have hmoved : scene.moved = none := hshows.moved_eq
  have hsame : scene.last Holdings.ending = scene := by
    simp [last, Holdings.ending, Motion.apply, hmoved, hshows.hand_eq]
  rw [hsame]
  exact hshows

omit [DecidableEq ι] in
/-- A guard that is emptied and filled again is what it was, but for its mode. -/
theorem refilled (hshows : scene.Shows holdings none) (name : γ) (lock : ι) (mode : LockMode)
    (action : Option α) (locks : Table ι RwLock) :
    ({ scene with
      locks
      grips := (scene.grips.insert name ⟨lock, none, action⟩).insert name ⟨lock, some mode, action⟩
      hand := none } : Scene ι γ α).Shows
      { holdings with locks, guards := holdings.guards.insert name ⟨lock, mode, action⟩ } none := by
  refine ⟨rfl, fun other => ?_, hshows.moved_eq, rfl, hshows.ran_eq⟩
  show ((scene.grips.insert name _).insert name _).get? other =
    ((holdings.guards.insert name ⟨lock, mode, action⟩).get? other).map Guard.grip
  rw [Table.get?_insert, Table.get?_insert, Table.get?_insert, hshows.grips_eq]
  split <;> rfl

theorem downgrade (hshows : scene.Shows holdings none) (name : γ) :
    (scene.last [.empty name, .trade, .refill name]).Shows (holdings.downgrade name).2 none := by
  have hgrip := hshows.grips_eq name
  have hhand := hshows.hand_eq
  cases hguard : holdings.guards.get? name with
  | none =>
      rw [hguard, Option.map_none] at hgrip
      have hsame : scene.last [.empty name, .trade, .refill name] = scene := by
        simp [last, Motion.apply, hgrip, hhand]
      have hdone : holdings.downgrade name = (false, holdings) := by
        simp [Holdings.downgrade, hguard]
      rw [hsame, hdone]
      exact hshows
  | some guard =>
      rw [hguard, Option.map_some] at hgrip
      have hstate := hshows.lockState_eq guard.lock
      obtain ⟨lock, mode, action⟩ := guard
      have hfilled := hshows.refilled name lock .read action
      cases mode with
      | read =>
          have hlast : scene.last [.empty name, .trade, .refill name] = { scene with
              grips := (scene.grips.insert name ⟨lock, none, action⟩).insert name
                ⟨lock, some .read, action⟩
              hand := none } := by
            simp [last, Motion.apply, hgrip, hhand, Guard.grip, Table.get?_insert]
          have hdone : holdings.downgrade name = (false, holdings) := by
            simp [Holdings.downgrade, hguard]
          rw [hlast, hdone]
          refine (hfilled scene.locks).congr hshows.locks_eq.symm (fun other => ?_) rfl
          rw [Table.get?_insert]
          split
          next heq => rw [heq, hguard]
          next => rfl
      | write =>
          have hlast : scene.last [.empty name, .trade, .refill name] = { scene with
              locks := scene.locks.insert lock (scene.lockState lock).downgrade
              grips := (scene.grips.insert name ⟨lock, none, action⟩).insert name
                ⟨lock, some .read, action⟩
              hand := none } := by
            simp [last, Motion.apply, hgrip, hhand, Guard.grip, Table.get?_insert, handle,
              lockState]
          have hdone : holdings.downgrade name =
              (true, { holdings.setLock lock (holdings.lockState lock).downgrade with
                guards := holdings.guards.insert name ⟨lock, .read, action⟩ }) := by
            simp [Holdings.downgrade, hguard]
          rw [hlast, hdone, hstate, hshows.locks_eq]
          exact hfilled _

end Shows

end Scene

namespace Holdings

variable {ι γ α : Type} [DecidableEq ι] [DecidableEq γ]

/-- A guard gets a name, and the one that had it before ends. -/
theorem shows_name {holdings : Holdings ι γ α} {scene : Scene ι γ α} {guard : Guard ι α}
    (hshows : scene.Shows holdings (some guard)) (name : γ) :
    (scene.last (.bind name :: ending)).Shows (holdings.name name guard) none := by
  have hbound := hshows.bind name
  show (((Motion.bind name).apply scene).last ending).Shows _ none
  unfold Holdings.name
  cases hprevious : holdings.guards.get? name with
  | none =>
      rw [hprevious] at hbound
      exact hbound.ending_none
  | some previous =>
      rw [hprevious] at hbound
      exact hbound.ending

theorem shows_take {holdings taken : Holdings ι γ α} {name : γ} {lock : ι} {mode : LockMode}
    (htake : holdings.take? name lock mode none = some taken) :
    (holdings.scene.last ([.seize lock mode, .wrap, .bind name] ++ ending)).Shows taken none := by
  unfold take? at htake
  cases hstate : (holdings.lockState lock).take? mode with
  | none =>
      rw [hstate] at htake
      cases htake
  | some state =>
      rw [hstate] at htake
      cases htake
      exact shows_name ((Scene.shows_scene holdings).seize hstate) name

theorem shows_refused {holdings : Holdings ι γ α} {name : γ} {lock : ι} {mode : LockMode}
    (htake : holdings.take? name lock mode none = none) :
    (holdings.scene.last ([.seize lock mode, .wrap, .bind name] ++ ending)).Shows holdings
      none := by
  unfold take? at htake
  cases hstate : (holdings.lockState lock).take? mode with
  | none =>
      have hrefused := ((Scene.shows_scene holdings).refused hstate).bind_none name
      exact hrefused.ending_none
  | some state =>
      rw [hstate] at htake
      cases htake

theorem shows_onRelease (holdings : Holdings ι γ α) (name : γ) (action : α) :
    (holdings.scene.last [.withdraw name, .install action, .bind name]).Shows
      (holdings.onRelease name action) none := by
  have hshows := Scene.shows_scene holdings
  cases hguard : holdings.guards.get? name with
  | none =>
      refine (((hshows.withdraw_none hguard).install_none action).bind_none name).congr rfl
        (fun other => ?_) rfl
      show (holdings.guards.modify name _).get? other = _
      rw [Table.get?_modify]
      split
      next heq =>
        rw [heq, hguard]
        rfl
      next => rfl
  | some guard =>
      have hbound := ((hshows.withdraw hguard).install action).bind name
      have hgone : (holdings.guards.erase name).get? name = none := Table.get?_erase_self _ _
      rw [hgone] at hbound
      refine hbound.congr rfl (fun other => ?_) rfl
      show (holdings.guards.modify name _).get? other = ((holdings.guards.erase name).insert name
        { guard with action := some action }).get? other
      rw [Table.get?_modify, Table.get?_insert, Table.get?_erase]
      split
      next heq =>
        rw [heq, hguard]
        rfl
      next => rfl

theorem shows_drop (holdings : Holdings ι γ α) (name : γ) :
    (holdings.scene.last (.withdraw name :: ending)).Shows (holdings.drop name) none := by
  have hshows := Scene.shows_scene holdings
  unfold drop
  cases hguard : holdings.guards.get? name with
  | none => exact (hshows.withdraw_none hguard).ending_none
  | some guard => exact (hshows.withdraw hguard).ending

/-- The last scene of a request shows what the request makes of the guards and locks. -/
theorem shows_of_perform? {holdings after : Holdings ι γ α} {request : Request ι γ α}
    {answer : Bool} (hperform : holdings.perform? request = some (answer, after)) :
    (holdings.scene.last request.motions).Shows after none := by
  cases request with
  | new name lock mode spins =>
      obtain ⟨taken, htake, heq⟩ := Option.map_eq_some_iff.mp hperform
      cases heq
      exact shows_take htake
  | tryNew name lock mode =>
      cases htake : holdings.take? name lock mode none with
      | some taken =>
          simp only [perform?, htake] at hperform
          cases hperform
          exact shows_take htake
      | none =>
          simp only [perform?, htake] at hperform
          cases hperform
          exact shows_refused htake
  | onRelease name action =>
      cases hperform
      exact shows_onRelease holdings name action
  | downgrade name =>
      have heq : holdings.downgrade name = (answer, after) := Option.some.inj hperform
      have hshows := (Scene.shows_scene holdings).downgrade name
      rw [heq] at hshows
      exact hshows
  | leave name exit =>
      cases hperform
      exact shows_drop holdings name

end Holdings

end Pooling
