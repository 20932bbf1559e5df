import Pooling.Proofs.Locks.Requests

/-!
What a request makes of the guards and of what has run, and what a lock is held in by its guards.
-/

namespace Pooling

/-- Whether a mode cannot be had while a lock is held in others. -/
def LockMode.Conflicts : LockMode → List LockMode → Prop
  | read, modes => write ∈ modes
  | write, modes => modes ≠ []

theorem LockMode.length_eq (modes : List LockMode) :
    modes.length = modes.count read + modes.count write := by
  induction modes with
  | nil => rfl
  | cons mode modes ih =>
      cases mode with
      | read =>
          simp only [List.length_cons, List.count_cons_self, List.count_cons_of_ne
            (show read ≠ write by decide)]
          omega
      | write =>
          simp only [List.length_cons, List.count_cons_self, List.count_cons_of_ne
            (show write ≠ read by decide)]
          omega

namespace RwLock.HeldBy

variable {lock : RwLock} {modes : List LockMode}

theorem exclusive_iff (hheld : lock.HeldBy (modes.count .read) (modes.count .write)) :
    lock = .exclusive ↔ modes.count .write = 1 := by
  cases lock with
  | exclusive => exact ⟨fun _ => hheld.2, fun _ => rfl⟩
  | shared readers =>
      have hnone := hheld.2
      exact ⟨nofun, fun hone => by omega⟩

theorem alone_of_exclusive (hheld : lock.HeldBy (modes.count .read) (modes.count .write))
    (hexclusive : lock = .exclusive) : modes = [.write] := by
  subst hexclusive
  obtain ⟨hreaders, hwriters⟩ := hheld
  have hlength := LockMode.length_eq modes
  rw [hreaders, hwriters] at hlength
  obtain ⟨mode, rfl⟩ := List.length_eq_one_iff.mp hlength
  cases mode with
  | read => cases hwriters
  | write => rfl

theorem shared_of_not (hheld : lock.HeldBy (modes.count .read) (modes.count .write))
    (hnot : lock ≠ .exclusive) : lock = .shared modes.length ∧ LockMode.write ∉ modes := by
  cases lock with
  | exclusive => exact absurd rfl hnot
  | shared readers =>
      obtain ⟨hreaders, hwriters⟩ := hheld
      rw [LockMode.length_eq, hreaders, hwriters]
      exact ⟨rfl, List.count_eq_zero.mp hwriters⟩

/-- A lock refuses just what conflicts with those who hold it. -/
theorem take?_eq_none_iff (hheld : lock.HeldBy (modes.count .read) (modes.count .write))
    (mode : LockMode) : lock.take? mode = none ↔ mode.Conflicts modes := by
  cases lock with
  | exclusive =>
      rw [hheld.alone_of_exclusive rfl]
      cases mode with
      | read => exact ⟨fun _ => List.mem_cons_self, fun _ => rfl⟩
      | write => exact ⟨fun _ => nofun, fun _ => rfl⟩
  | shared readers =>
      obtain ⟨heq, hnone⟩ := hheld.shared_of_not nofun
      cases heq
      cases mode with
      | read => exact ⟨nofun, fun hwriter => absurd hwriter hnone⟩
      | write =>
          cases modes with
          | nil => exact ⟨nofun, fun hne => absurd rfl hne⟩
          | cons first others => exact ⟨fun _ => nofun, fun _ => rfl⟩

end RwLock.HeldBy

namespace Holdings

variable {ι γ α : Type} [DecidableEq ι] [DecidableEq γ]

/-- The modes that a lock is held in by guards. -/
def modesOn (holdings : Holdings ι γ α) (lock : ι) : List LockMode :=
  holdings.guards.pairs.filterMap fun pair =>
    if pair.2.lock = lock then some pair.2.mode else none

namespace Request

/-- What a request makes of the guard of a name. -/
def follow (request : Request ι γ α) (answer : Bool) (name : γ)
    (guard? : Option (Guard ι α)) : Option (Guard ι α) :=
  match request with
  | new own lock mode _ => if name = own then some ⟨lock, mode, none⟩ else guard?
  | tryNew own lock mode => if name = own ∧ answer then some ⟨lock, mode, none⟩ else guard?
  | onRelease own action =>
      if name = own then guard?.map fun guard => { guard with action := some action } else guard?
  | downgrade own =>
      if name = own then guard?.map fun guard => { guard with mode := .read } else guard?
  | leave own _ => if name = own then none else guard?

/-- The name whose guard ends in a request, if there is a guard. -/
def ends? (request : Request ι γ α) (answer : Bool) : Option γ :=
  match request with
  | new own _ _ _ => some own
  | tryNew own _ _ => if answer then some own else none
  | leave own _ => some own
  | _ => none

end Request

/-! What a request makes of the guards, and of what has run. -/

omit [DecidableEq γ] in
theorem ran_letGo (holdings : Holdings ι γ α) (guard : Guard ι α) :
    (holdings.letGo guard).ran = holdings.ran ++
      guard.action.toList.map fun action => (action, (holdings.letGo guard).locks) := by
  unfold letGo
  cases guard.action with
  | none => exact (List.append_nil _).symm
  | some action => rfl

theorem guards_name (holdings : Holdings ι γ α) (name : γ) (guard : Guard ι α) :
    (holdings.name name guard).guards = holdings.guards.insert name guard := by
  unfold Holdings.name
  cases holdings.guards.get? name with
  | none => rfl
  | some previous => exact guards_letGo _ _

theorem ran_name (holdings : Holdings ι γ α) (name : γ) (guard : Guard ι α) :
    (holdings.name name guard).ran = holdings.ran ++
      ((holdings.guards.get? name).bind Guard.action).toList.map fun action =>
        (action, (holdings.name name guard).locks) := by
  unfold Holdings.name
  cases holdings.guards.get? name with
  | none => exact (List.append_nil _).symm
  | some previous => exact ran_letGo _ _

theorem guards_drop (holdings : Holdings ι γ α) (name : γ) :
    (holdings.drop name).guards = holdings.guards.erase name := by
  unfold drop
  cases hguard : holdings.guards.get? name with
  | none => exact (Table.erase_of_get?_eq_none hguard).symm
  | some guard => exact guards_letGo _ _

theorem ran_drop (holdings : Holdings ι γ α) (name : γ) :
    (holdings.drop name).ran = holdings.ran ++
      ((holdings.guards.get? name).bind Guard.action).toList.map fun action =>
        (action, (holdings.drop name).locks) := by
  unfold drop
  cases holdings.guards.get? name with
  | none => exact (List.append_nil _).symm
  | some guard => exact ran_letGo _ _

/-- A guard taken has its name, and one that had the name before has ended. -/
theorem taken_spec {holdings taken : Holdings ι γ α} {name : γ} {lock : ι} {mode : LockMode}
    (htake : holdings.take? name lock mode none = some taken) :
    taken.guards = holdings.guards.insert name ⟨lock, mode, none⟩ ∧
      taken.ran = holdings.ran ++
        ((holdings.guards.get? name).bind Guard.action).toList.map fun action =>
          (action, taken.locks) := by
  unfold take? at htake
  split at htake
  next state hstate =>
    cases htake
    exact ⟨guards_name _ _ _, ran_name _ _ _⟩
  next => cases htake

theorem downgrade_spec (holdings : Holdings ι γ α) (name other : γ) :
    (holdings.downgrade name).2.guards.get? other =
        (if other = name then (holdings.guards.get? other).map fun guard =>
          { guard with mode := .read } else holdings.guards.get? other) ∧
      (holdings.guards.keys.Nodup → (holdings.downgrade name).2.guards.keys.Nodup) ∧
      (holdings.downgrade name).2.ran = holdings.ran := by
  unfold downgrade
  split
  next lock action hguard =>
    refine ⟨?_, fun hnodup => Table.nodup_keys_insert hnodup _ _, rfl⟩
    show (holdings.guards.insert name _).get? other = _
    rw [Table.get?_insert]
    split
    next heq =>
      rw [heq, hguard]
      rfl
    next => rfl
  next hnot =>
    refine ⟨?_, id, rfl⟩
    split
    next heq =>
      subst heq
      cases hguard : holdings.guards.get? other with
      | none => rfl
      | some guard =>
          obtain ⟨lock, mode, action⟩ := guard
          cases mode with
          | read => rfl
          | write => exact absurd hguard (hnot lock action)
    next => rfl

/-- What a request makes of the guards, and that it lets those actions run that end with it. -/
structure Follows (before : Holdings ι γ α) (request : Request ι γ α) (answer : Bool)
    (after : Holdings ι γ α) : Prop where
  guard_eq : ∀ name,
    after.guards.get? name = request.follow answer name (before.guards.get? name)
  nodup : before.guards.keys.Nodup → after.guards.keys.Nodup
  ran_eq : after.ran = before.ran ++
    (((request.ends? answer).bind before.guards.get?).bind Guard.action).toList.map fun action =>
      (action, after.locks)

omit [DecidableEq ι] in
theorem follows_of_guards {before after : Holdings ι γ α} {request : Request ι γ α}
    {answer : Bool} {name : γ} {guard : Guard ι α}
    (hguards : after.guards = before.guards.insert name guard)
    (hran : after.ran = before.ran ++
      ((before.guards.get? name).bind Guard.action).toList.map fun action => (action, after.locks))
    (hfollow : ∀ other guard?, request.follow answer other guard? =
      if other = name then some guard else guard?)
    (hends : request.ends? answer = some name) : before.Follows request answer after where
  guard_eq := by
    intro other
    rw [hguards, Table.get?_insert, hfollow]
  nodup := by
    intro hnodup
    rw [hguards]
    exact Table.nodup_keys_insert hnodup _ _
  ran_eq := by
    rw [hends]
    exact hran

theorem follows_of_perform? {before after : Holdings ι γ α} {request : Request ι γ α}
    {answer : Bool} (hperform : before.perform? request = some (answer, after)) :
    before.Follows request answer after := by
  cases request with
  | new name lock mode spins =>
      obtain ⟨taken, htake, heq⟩ := Option.map_eq_some_iff.mp hperform
      cases heq
      obtain ⟨hguards, hran⟩ := taken_spec htake
      exact follows_of_guards hguards hran (fun _ _ => rfl) rfl
  | tryNew name lock mode =>
      cases htake : before.take? name lock mode none with
      | some taken =>
          simp only [perform?, htake] at hperform
          cases hperform
          obtain ⟨hguards, hran⟩ := taken_spec htake
          refine follows_of_guards hguards hran (fun other guard? => ?_) rfl
          simp [Request.follow]
      | none =>
          simp only [perform?, htake] at hperform
          cases hperform
          refine ⟨fun other => ?_, id, (List.append_nil _).symm⟩
          simp [Request.follow]
  | onRelease name action =>
      cases hperform
      refine ⟨fun other => Table.get?_modify _ _ _ _, fun hnodup => ?_, (List.append_nil _).symm⟩
      show (before.guards.modify name _).keys.Nodup
      rw [Table.keys_modify]
      exact hnodup
  | downgrade name =>
      have heq : before.downgrade name = (answer, after) := Option.some.inj hperform
      have hspec := before.downgrade_spec name
      rw [heq] at hspec
      obtain ⟨-, hnodup, hran⟩ := hspec name
      exact ⟨fun other => (hspec other).1, hnodup, hran.trans (List.append_nil _).symm⟩
  | leave name exit =>
      cases hperform
      refine ⟨fun other => ?_, fun hnodup => ?_, ran_drop before name⟩
      · rw [guards_drop, Table.get?_erase]
        rfl
      · rw [guards_drop]
        exact Table.nodup_keys_erase hnodup name

omit [DecidableEq γ] in
theorem count_grasps (holdings : Holdings ι γ α) (lock : ι) (mode : LockMode) :
    holdings.scene.grasps.count (lock, mode) = (holdings.modesOn lock).count mode := by
  have hgrasps : holdings.scene.grasps =
      holdings.guards.pairs.map fun pair => (pair.2.lock, pair.2.mode) := by
    have hnone : holdings.scene.grasps = Scene.named (holdings.guards.map Guard.grip) :=
      (List.append_nil _).trans (List.append_nil _)
    rw [hnone, Scene.named, Table.map, List.flatMap_map]
    exact List.flatMap_pure_eq_map _ _
  rw [hgrasps, modesOn]
  induction holdings.guards.pairs with
  | nil => rfl
  | cons pair pairs ih =>
      rw [List.map_cons, List.count_cons, ih, List.filterMap_cons]
      by_cases heq : pair.2.lock = lock
      · simp [heq, List.count_cons]
      · simp [heq]

theorem agrees_of_shows {holdings : Holdings ι γ α} {last : Scene ι γ α} (hagrees : last.Agrees)
    (hshows : last.Shows holdings none) (hnodup : holdings.guards.keys.Nodup) :
    holdings.scene.Agrees := by
  have hnames : holdings.scene.grips.keys.Nodup := by
    show (holdings.guards.map Guard.grip).keys.Nodup
    rw [Table.keys_map]
    exact hnodup
  have hmoved : last.moved = none := hshows.moved_eq
  have hperm := Table.perm_of_same hnames hagrees.nodup_names fun name =>
    (Table.get?_map _ _ _).trans (hshows.grips_eq name).symm
  refine hagrees.of_count hnames hshows.locks_eq.symm fun grasp => ?_
  have hcount : (Scene.named holdings.scene.grips).count grasp =
      (Scene.named last.grips).count grasp :=
    (hperm.flatMap_right fun pair : γ × Grip ι α => pair.2.grasp).count_eq grasp
  simp only [Scene.grasps, Scene.kept, hmoved, hshows.hand_eq]
  show (Scene.named holdings.scene.grips ++ [] ++ []).count grasp = _
  simpa only [List.append_nil, Option.toList_none, List.flatMap_nil] using hcount

omit [DecidableEq γ] in
theorem heldBy_of_agrees {holdings : Holdings ι γ α} (hagrees : holdings.scene.Agrees) (lock : ι) :
    (holdings.lockState lock).HeldBy ((holdings.modesOn lock).count .read)
      ((holdings.modesOn lock).count .write) := by
  have hheld := hagrees.held_by lock
  rw [count_grasps, count_grasps] at hheld
  exact hheld

/-! What is refused, and what becomes of a lock that is traded. -/

theorem take?_eq_none_iff {holdings : Holdings ι γ α} (hagrees : holdings.scene.Agrees) (name : γ)
    (lock : ι) (mode : LockMode) :
    holdings.take? name lock mode none = none ↔ mode.Conflicts (holdings.modesOn lock) := by
  rw [← (heldBy_of_agrees hagrees lock).take?_eq_none_iff, take?]
  cases (holdings.lockState lock).take? mode <;> simp

theorem downgrade_eq_false_iff (holdings : Holdings ι γ α) (name : γ) :
    (holdings.downgrade name).1 = false ↔
      ∀ guard, holdings.guards.get? name = some guard → guard.mode = .read := by
  unfold downgrade
  split
  next lock action hguard =>
    constructor
    · intro hfalse
      cases hfalse
    · intro hread
      cases hread _ hguard
  next hnot =>
    refine ⟨fun _ guard hguard => ?_, fun _ => rfl⟩
    obtain ⟨lock, mode, action⟩ := guard
    cases mode with
    | read => rfl
    | write => exact absurd hguard (hnot lock action)

theorem eq_of_downgrade_false {holdings : Holdings ι γ α} {name : γ}
    (hfalse : (holdings.downgrade name).1 = false) : (holdings.downgrade name).2 = holdings := by
  unfold downgrade at hfalse ⊢
  split at hfalse
  next => cases hfalse
  next => rfl

theorem lockState_of_write {holdings : Holdings ι γ α} (hagrees : holdings.scene.Agrees)
    (hnodup : holdings.guards.keys.Nodup) {name : γ} {guard : Guard ι α}
    (hguard : holdings.guards.get? name = some guard) (hwrite : guard.mode = .write) :
    holdings.lockState guard.lock = .exclusive := by
  have hheld := heldBy_of_agrees hagrees guard.lock
  have hmem : LockMode.write ∈ holdings.modesOn guard.lock := by
    refine List.mem_filterMap.mpr ⟨(name, guard), (Table.mem_pairs_iff hnodup).mpr hguard, ?_⟩
    simp [hwrite]
  exact hheld.exclusive_iff.mpr (hheld.alone (List.count_pos_iff.mpr hmem)).2

/-- In none of the scenes is the lock free. -/
theorem lockStates_of_downgrade {holdings : Holdings ι γ α} {name : γ} {guard : Guard ι α}
    (hguard : holdings.guards.get? name = some guard) (hwrite : guard.mode = .write)
    (hstate : holdings.lockState guard.lock = .exclusive) :
    (holdings.scene.through (Request.downgrade name).motions).map
        (fun scene => scene.lockState guard.lock) =
      [.exclusive, .exclusive, .shared 1, .shared 1] := by
  have hgrip : holdings.scene.grips.get? name = some guard.grip := by
    rw [scene, Table.get?_map, hguard]
    rfl
  have hscene : holdings.scene.lockState guard.lock = .exclusive := hstate
  have hhand : holdings.scene.hand = none := rfl
  obtain ⟨lock, mode, action⟩ := guard
  cases hwrite
  have hlocks : (holdings.scene.locks.get? lock).getD .free = .exclusive := hscene
  simp [Request.motions, Scene.through, Motion.apply, hgrip, hhand, Guard.grip, Scene.handle,
    Scene.lockState, hlocks, RwLock.downgrade, Table.get?_insert]

end Holdings

end Pooling
