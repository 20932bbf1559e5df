import Pooling.Proofs.Locks.Guards
import Pooling.Proofs.Runs

/-!
Guards from their beginning to their end: what is held by a lock, and which actions have run, told
from what was asked of the guards.
-/

namespace Pooling

namespace Holdings

variable {ι γ α : Type} [DecidableEq ι] [DecidableEq γ]

/-- What was asked and answered, newest first. -/
abbrev Past (ι γ α : Type) := List (Request ι γ α × Bool)

/-- The guard that has a name after all that was asked, with the action installed on it last. -/
def standing? : Past ι γ α → γ → Option (Guard ι α)
  | [], _ => none
  | (request, answer) :: past, name => request.follow answer name (standing? past name)

/-- The actions of the guards that have ended, oldest first. -/
def endings : Past ι γ α → List α
  | [] => []
  | (request, answer) :: past =>
      endings past ++ (((request.ends? answer).bind (standing? past)).bind Guard.action).toList

structure Session (ι γ α : Type) where
  holdings : Holdings ι γ α := {}
  past : Past ι γ α := []

def Session.step? (session : Session ι γ α) (request : Request ι γ α) :
    Option (Session ι γ α) :=
  (session.holdings.perform? request).map fun performed =>
    { holdings := performed.2, past := (request, performed.1) :: session.past }

namespace Session

/-- What is told of a session by what was asked in it. -/
structure Told (session : Session ι γ α) : Prop where
  agrees : session.holdings.scene.Agrees
  guard_eq : ∀ name, session.holdings.guards.get? name = standing? session.past name
  ran_eq : session.holdings.ran.map Prod.fst = endings session.past

theorem told_start : ({} : Session ι γ α).Told where
  agrees := ⟨List.nodup_nil, fun _ => ⟨rfl, rfl⟩⟩
  guard_eq := fun _ => rfl
  ran_eq := rfl

theorem Told.nodup {session : Session ι γ α} (htold : session.Told) :
    session.holdings.guards.keys.Nodup := by
  have hnames := htold.agrees.nodup_names
  rwa [scene, Table.keys_map] at hnames

theorem Told.performed {session : Session ι γ α} (htold : session.Told)
    {request : Request ι γ α} {answer : Bool} {after : Holdings ι γ α}
    (hperform : session.holdings.perform? request = some (answer, after)) :
    ({ holdings := after, past := (request, answer) :: session.past } : Session ι γ α).Told := by
  have hfollows := follows_of_perform? hperform
  refine ⟨?agrees, fun name => ?guard, ?ran⟩
  case agrees =>
    exact agrees_of_shows (htold.agrees.last _) (shows_of_perform? hperform)
      (hfollows.nodup htold.nodup)
  case guard =>
    show after.guards.get? name = _
    rw [hfollows.guard_eq, htold.guard_eq]
    rfl
  case ran =>
    have hguards : session.holdings.guards.get? = standing? session.past := funext htold.guard_eq
    show after.ran.map Prod.fst = _
    rw [hfollows.ran_eq, List.map_append, htold.ran_eq, hguards, List.map_map]
    exact congrArg (endings session.past ++ ·) (List.map_id _)

theorem told_of_reaches {session : Session ι γ α}
    (hreaches : Runs.Reaches Session.step? (fun _ _ => true) {} session) : session.Told := by
  refine hreaches.invariant Told told_start ?_
  intro before after request htold _ hstep
  obtain ⟨performed, hperform, rfl⟩ := Option.map_eq_some_iff.mp hstep
  exact htold.performed hperform

/-- What holds of a request that has been performed. -/
structure Performed (before : Holdings ι γ α) (request : Request ι γ α) (answer : Bool)
    (after : Holdings ι γ α) : Prop where
  /-- The lock of a guard that has ended was let go by the time that its action ran. -/
  follows : before.Follows request answer after
  locks_agree : ∀ lock, (after.lockState lock).HeldBy ((after.modesOn lock).count .read)
    ((after.modesOn lock).count .write)
  scenes_agree : ∀ between ∈ before.scene.through request.motions, between.Agrees
  shows : (before.scene.last request.motions).Shows after none

/-- What guards and locks promise, whatever has been asked of them. -/
structure Kept (session : Session ι γ α) : Prop where
  nodup : session.holdings.guards.keys.Nodup
  guard_eq : ∀ name, session.holdings.guards.get? name = standing? session.past name
  exclusive_iff : ∀ lock, session.holdings.lockState lock = .exclusive ↔
    (session.holdings.modesOn lock).count .write = 1
  alone : ∀ lock, session.holdings.lockState lock = .exclusive →
    session.holdings.modesOn lock = [.write]
  shared : ∀ lock, session.holdings.lockState lock ≠ .exclusive →
    session.holdings.lockState lock = .shared (session.holdings.modesOn lock).length ∧
      LockMode.write ∉ session.holdings.modesOn lock
  waits_iff : ∀ name lock mode spins,
    session.holdings.perform? (.new name lock mode spins) = none ↔
      mode.Conflicts (session.holdings.modesOn lock)
  refused_iff : ∀ name lock mode,
    session.holdings.perform? (.tryNew name lock mode) = some (false, session.holdings) ↔
      mode.Conflicts (session.holdings.modesOn lock)
  taken_iff : ∀ name lock mode,
    (∃ after, session.holdings.perform? (.tryNew name lock mode) = some (true, after)) ↔
      ¬ mode.Conflicts (session.holdings.modesOn lock)
  /-- A read guard is not traded, nor is a guard that is not there. -/
  kept_iff : ∀ name,
    session.holdings.perform? (.downgrade name) = some (false, session.holdings) ↔
      ∀ guard, session.holdings.guards.get? name = some guard → guard.mode = .read
  traded : ∀ name guard, session.holdings.guards.get? name = some guard → guard.mode = .write →
    (∃ after, session.holdings.perform? (.downgrade name) = some (true, after)) ∧
      (session.holdings.scene.through (Request.downgrade name).motions).map
          (fun scene => scene.lockState guard.lock) =
        [.exclusive, .exclusive, .shared 1, .shared 1]
  /-- The action that was installed last on a guard has run at its end, and no other. -/
  ran_eq : session.holdings.ran.map Prod.fst = endings session.past
  performed : ∀ request answer after,
    session.holdings.perform? request = some (answer, after) →
      Performed session.holdings request answer after

theorem Told.refused_iff {session : Session ι γ α} (htold : session.Told) (name : γ) (lock : ι)
    (mode : LockMode) :
    session.holdings.perform? (.tryNew name lock mode) = some (false, session.holdings) ↔
      mode.Conflicts (session.holdings.modesOn lock) := by
  rw [← take?_eq_none_iff htold.agrees name, perform?]
  cases session.holdings.take? name lock mode none <;> simp

theorem Told.taken_iff {session : Session ι γ α} (htold : session.Told) (name : γ) (lock : ι)
    (mode : LockMode) :
    (∃ after, session.holdings.perform? (.tryNew name lock mode) = some (true, after)) ↔
      ¬ mode.Conflicts (session.holdings.modesOn lock) := by
  rw [← take?_eq_none_iff htold.agrees name, perform?]
  cases session.holdings.take? name lock mode none <;> simp

theorem kept_iff (session : Session ι γ α) (name : γ) :
    session.holdings.perform? (.downgrade name) = some (false, session.holdings) ↔
      ∀ guard, session.holdings.guards.get? name = some guard → guard.mode = .read := by
  rw [← downgrade_eq_false_iff, perform?]
  constructor
  · intro hperform
    rw [Option.some.inj hperform]
  · intro hfalse
    exact congrArg some (Prod.ext hfalse (eq_of_downgrade_false hfalse))

theorem trades_write {session : Session ι γ α} {name : γ} {guard : Guard ι α}
    (hguard : session.holdings.guards.get? name = some guard) (hwrite : guard.mode = .write) :
    ∃ after, session.holdings.perform? (.downgrade name) = some (true, after) := by
  refine ⟨(session.holdings.downgrade name).2, congrArg some (Prod.ext ?_ rfl)⟩
  apply Bool.of_not_eq_false
  intro hfalse
  have hread := (downgrade_eq_false_iff session.holdings name).mp hfalse guard hguard
  rw [hwrite] at hread
  cases hread

theorem kept_of_reaches {session : Session ι γ α}
    (hreaches : Runs.Reaches Session.step? (fun _ _ => true) {} session) : session.Kept := by
  have htold := told_of_reaches hreaches
  have hheld := heldBy_of_agrees htold.agrees
  refine
    { nodup := htold.nodup
      guard_eq := htold.guard_eq
      exclusive_iff := fun lock => (hheld lock).exclusive_iff
      alone := fun lock => (hheld lock).alone_of_exclusive
      shared := fun lock => (hheld lock).shared_of_not
      waits_iff := fun name lock mode spins => ?waits
      refused_iff := htold.refused_iff
      taken_iff := htold.taken_iff
      kept_iff := session.kept_iff
      traded := fun name guard hguard hwrite => ⟨trades_write hguard hwrite, ?traded⟩
      ran_eq := htold.ran_eq
      performed := fun request answer after hperform => ?performed }
  case waits =>
    rw [← take?_eq_none_iff htold.agrees name, perform?]
    exact Option.map_eq_none_iff
  case traded =>
    exact lockStates_of_downgrade hguard hwrite
      (lockState_of_write htold.agrees htold.nodup hguard hwrite)
  case performed =>
    exact
      { follows := follows_of_perform? hperform
        locks_agree := heldBy_of_agrees (htold.performed hperform).agrees
        scenes_agree := htold.agrees.through _
        shows := shows_of_perform? hperform }

/-- A writer lets a reader in by trading its lock, and has an action replaced; a third guard takes
the reader's name, and a guard on another lock ends while a panic unwinds. -/
def admitting : List (Request Nat Nat String) :=
  [.new 0 0 .write false, .onRelease 0 "unused", .onRelease 0 "traded", .tryNew 1 0 .read,
    .downgrade 0, .tryNew 1 0 .read, .onRelease 1 "replaced", .new 2 1 .write true,
    .onRelease 2 "unwound", .downgrade 1, .tryNew 1 0 .read, .leave 2 .unwind, .leave 0 .close,
    .new 3 1 .write false]

theorem kept_of_admitting : ∃ session : Session Nat Nat String,
    Runs.run? Session.step? (fun _ _ => true) admitting {} = some session ∧
      session.past.reverse.map Prod.snd =
        [true, true, true, false, true, true, true, true, true, false, true, true, true, true] ∧
      session.holdings.ran.map Prod.fst = ["replaced", "unwound", "traded"] ∧
      session.holdings.modesOn 0 = [.read] ∧ session.holdings.modesOn 1 = [.write] ∧
      session.Kept := by
  have hruns : (Runs.run? Session.step? (fun _ _ => true) admitting {}).map (fun session =>
      ((session.past.reverse.map Prod.snd, session.holdings.ran.map Prod.fst),
        session.holdings.modesOn 0, session.holdings.modesOn 1)) =
      some (([true, true, true, false, true, true, true, true, true, false, true, true, true, true],
        ["replaced", "unwound", "traded"]), [.read], [.write]) := by decide
  obtain ⟨session, hrun, hseen⟩ := Option.map_eq_some_iff.mp hruns
  simp only [Prod.mk.injEq] at hseen
  obtain ⟨⟨hanswers, hran⟩, hfirst, hsecond⟩ := hseen
  exact ⟨session, hrun, hanswers, hran, hfirst, hsecond,
    kept_of_reaches (Runs.reaches_of_run? hrun)⟩

end Session

end Holdings

end Pooling
