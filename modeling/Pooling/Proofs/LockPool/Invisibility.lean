import Pooling.Proofs.LockPool.PoolViews
import Pooling.Proofs.Locks.Holders

/-!
Eviction cannot be seen by those who use the locks of a pool: whatever its rounds, the answers are
those of the same pool without an evictor, and those of locks that last for ever as long as no count
of references is exceeded.
-/

namespace Pooling.Holdings

open LockPool

variable {κ γ : Type} [DecidableEq κ] [DecidableEq γ]

/-- What there is to see of lasting locks, with some that are referred to by others than guards. -/
def view (pending : List κ) (holdings : Holdings κ γ ReleaseAction) : View κ γ where
  lock := holdings.lockState
  references := fun key => Int32.ofNat (pending.count key + holdings.guardsOn key)
  guard := fun name => (holdings.guards.get? name).map fun guard => ⟨guard.mode, only guard.lock⟩

variable {pending : List κ} {holdings : Holdings κ γ ReleaseAction}

theorem view_unrefer (pending : List κ) (holdings : Holdings κ γ ReleaseAction) (key : κ) :
    (view (key :: pending) holdings).unrefer (only key) = view pending holdings := by
  refine View.ext (fun _ => rfl) (fun other => ?_) fun _ => rfl
  by_cases heq : other = key
  · subst heq
    simp only [View.unrefer, view, amend_only_self, List.count_cons_self]
    rw [Nat.add_right_comm, Int32.ofNat_add]
    simp
  · simp only [View.unrefer, view, amend_only_of_ne heq, List.count_cons_of_ne (Ne.symm heq)]

theorem view_perm {others : List κ} (hperm : pending.Perm others) :
    holdings.view pending = holdings.view others := by
  refine View.ext (fun _ => rfl) (fun key => ?_) fun _ => rfl
  simp only [view, hperm.count_eq key]

theorem view_refer {key : κ} (hlimit : holdings.guardsOn key < System.countLimit) :
    (view [] holdings).refer key = view [key] holdings := by
  have hcount : 0 ≤ (view [] holdings).references key := by
    simp only [view, List.count_nil, Nat.zero_add]
    exact Int32.zero_le_ofNat_of_lt hlimit
  rw [View.refer, if_pos hcount]
  refine View.ext (fun _ => rfl) (fun other => ?_) fun _ => rfl
  by_cases heq : other = key
  · subst heq
    simp only [view, amend_only_self, List.count_cons_self, List.count_nil]
    rw [Nat.zero_add, Nat.zero_add, Nat.add_comm, Int32.ofNat_add]
    rfl
  · simp only [view, amend_only_of_ne heq, List.count_cons_of_ne (Ne.symm heq)]

theorem view_setLock (pending : List κ) (holdings : Holdings κ γ ReleaseAction) (key : κ)
    (lock : RwLock) :
    (holdings.setLock key lock).view pending = (holdings.view pending).setLock key lock := by
  refine View.ext (fun other => ?_) (fun _ => rfl) fun _ => rfl
  by_cases heq : other = key
  · subst heq
    simp [view, View.setLock, lockState, setLock, Table.get?_insert]
  · simp [view, View.setLock, lockState, setLock, Table.get?_insert, heq, amend_only_of_ne heq]

theorem view_letGo (pending : List κ) (holdings : Holdings κ γ ReleaseAction)
    (guard : Guard κ ReleaseAction) :
    (holdings.letGo guard).view pending =
      (holdings.view (guard.lock :: pending)).letGo ⟨guard.mode, only guard.lock⟩ := by
  have hran : (holdings.letGo guard).view pending = (holdings.setLock guard.lock
      ((holdings.lockState guard.lock).release guard.mode)).view pending := by
    unfold letGo
    dsimp only
    split <;> rfl
  have hlock : amend (only guard.lock)
      (fun _ => (holdings.lockState guard.lock).release guard.mode) holdings.lockState =
        amend (only guard.lock) (·.release guard.mode) holdings.lockState := amend_only_congr rfl
  rw [hran, ← view_unrefer pending _ guard.lock, view_setLock]
  exact congrArg (View.unrefer · (only guard.lock))
    (View.ext (congrFun hlock) (fun _ => rfl) fun _ => rfl)

/-- A guard that is no longer among those with a name is one of the others. -/
theorem view_erase (pending : List κ) (hnodup : holdings.guards.keys.Nodup) {name : γ}
    {guard : Guard κ ReleaseAction} (hguard : holdings.guards.get? name = some guard) :
    ({ holdings with guards := holdings.guards.erase name } : Holdings κ γ ReleaseAction).view
        (guard.lock :: pending) = (holdings.view pending).setGuard name none := by
  have hperm := (Table.perm_of_get? hnodup hguard).map fun pair => pair.2.lock
  refine View.ext (fun _ => rfl) (fun key => ?_) fun other => ?_
  · simp only [view, View.setGuard, guardsOn, hperm.count_eq key, List.map_cons, List.count_cons]
    congr 1
    omega
  · simp only [view, View.setGuard, Table.get?_erase]
    split <;> rfl

theorem view_insert (pending : List κ) (hnodup : holdings.guards.keys.Nodup) (name : γ)
    (guard : Guard κ ReleaseAction) :
    ({ holdings with guards := holdings.guards.insert name guard } :
        Holdings κ γ ReleaseAction).view pending =
      (({ holdings with guards := holdings.guards.erase name } :
        Holdings κ γ ReleaseAction).view (guard.lock :: pending)).setGuard name
          (some ⟨guard.mode, only guard.lock⟩) := by
  have hperm := (Table.perm_insert hnodup name guard).map fun pair => pair.2.lock
  refine View.ext (fun _ => rfl) (fun key => ?_) fun other => ?_
  · simp only [view, View.setGuard, guardsOn, hperm.count_eq key, List.map_cons, List.count_cons]
    congr 1
    omega
  · simp only [view, View.setGuard, Table.get?_insert, Table.get?_erase]
    split
    next => rfl
    next => rfl

theorem guard_view (pending : List κ) (holdings : Holdings κ γ ReleaseAction) (name : γ) :
    (holdings.view pending).guard name = (holdings.guards.get? name).map fun guard =>
      ⟨guard.mode, only guard.lock⟩ := rfl

theorem view_drop (hnodup : holdings.guards.keys.Nodup) (name : γ) :
    (holdings.drop name).guards.keys.Nodup ∧
      (holdings.drop name).view [] = (holdings.view []).drop name := by
  unfold drop View.drop
  rw [guard_view]
  cases hguard : holdings.guards.get? name with
  | none => exact ⟨hnodup, rfl⟩
  | some guard =>
      refine ⟨?_, ?_⟩
      · simp only [guards_letGo]
        exact Table.nodup_keys_erase hnodup name
      · simp only [Option.map_some]
        rw [view_letGo, view_erase [] hnodup hguard]

theorem view_name (hnodup : holdings.guards.keys.Nodup) (name : γ)
    (guard : Guard κ ReleaseAction) :
    (holdings.name name guard).guards.keys.Nodup ∧
      (holdings.name name guard).view [] =
        (holdings.view [guard.lock]).name name ⟨guard.mode, only guard.lock⟩ := by
  have hinserted := Table.nodup_keys_insert hnodup name guard
  unfold Holdings.name View.name
  rw [guard_view]
  cases hguard : holdings.guards.get? name with
  | none =>
      refine ⟨hinserted, ?_⟩
      simp only [Option.map_none]
      rw [view_insert [] hnodup, Table.erase_of_get?_eq_none hguard]
  | some previous =>
      constructor
      · simp only [guards_letGo]
        exact hinserted
      · simp only [Option.map_some]
        rw [view_letGo, view_insert [previous.lock] hnodup, view_perm (.swap _ _ _),
          view_erase [guard.lock] hnodup hguard, View.setGuard_setGuard]

theorem view_take? (hnodup : holdings.guards.keys.Nodup) (name : γ) {key : κ} (mode : LockMode)
    (hlimit : holdings.guardsOn key < System.countLimit) :
    (holdings.take? name key mode (some .unreference)).map (view []) =
        ((holdings.view []).refer key).grant? name key mode ∧
      ∀ after, holdings.take? name key mode (some .unreference) = some after →
        after.guards.keys.Nodup := by
  unfold take? View.grant?
  rw [view_refer hlimit]
  have hlock : (holdings.view [key]).lock key = holdings.lockState key := rfl
  rw [hlock]
  cases (holdings.lockState key).take? mode with
  | none => exact ⟨rfl, fun _ hafter => nomatch hafter⟩
  | some lock =>
      have hlocked : (holdings.setLock key lock).guards.keys.Nodup := hnodup
      obtain ⟨hafter, hview⟩ := view_name hlocked name ⟨key, mode, some .unreference⟩
      rw [view_setLock] at hview
      refine ⟨congrArg some hview, fun after htaken => ?_⟩
      cases htaken
      exact hafter

theorem view_downgrade (hnodup : holdings.guards.keys.Nodup) (name : γ) :
    (holdings.downgrade name).2.guards.keys.Nodup ∧
      (holdings.downgrade name).1 = ((holdings.view []).downgrade name).1 ∧
      (holdings.downgrade name).2.view [] = ((holdings.view []).downgrade name).2 := by
  unfold downgrade View.downgrade
  rw [guard_view]
  cases hguard : holdings.guards.get? name with
  | none => exact ⟨hnodup, rfl, rfl⟩
  | some guard =>
      obtain ⟨key, mode, action⟩ := guard
      cases mode with
      | read => exact ⟨hnodup, rfl, rfl⟩
      | write =>
          refine ⟨Table.nodup_keys_insert hnodup name _, rfl, ?_⟩
          have hlocked : (holdings.setLock key (holdings.lockState key).downgrade).guards.keys.Nodup :=
            hnodup
          have hlock : amend (only key) (fun _ => (holdings.lockState key).downgrade)
              holdings.lockState = amend (only key) (·.downgrade) holdings.lockState :=
            amend_only_congr rfl
          have hset : (holdings.view []).setLock key (holdings.lockState key).downgrade =
              { holdings.view [] with
                lock := amend (only key) (·.downgrade) (holdings.view []).lock } :=
            View.ext (congrFun hlock) (fun _ => rfl) fun _ => rfl
          have hview := view_insert [] hlocked name ⟨key, .read, action⟩
          rw [view_erase [] hlocked hguard, View.setGuard_setGuard, view_setLock, hset] at hview
          exact hview

/-- An operation on lasting locks can be followed on what there is to see of them, as long as no
count of references would be exceeded. -/
theorem view_perform (hnodup : holdings.guards.keys.Nodup) {operation : Operation κ γ}
    {operations : List (Operation κ γ)}
    (hcountable : holdings.countable (operation :: operations) = true) :
    (holdings.perform operation).1 = ((holdings.view []).perform operation).1 ∧
      (holdings.perform operation).2.map (view []) =
        ((holdings.view []).perform operation).2 ∧
      ∀ after, (holdings.perform operation).2 = some after →
        after.guards.keys.Nodup ∧ after.countable operations = true := by
  rw [countable, Bool.and_eq_true] at hcountable
  obtain ⟨hlimit, hrest⟩ := hcountable
  have hkept : (∀ after, (holdings.perform operation).2 = some after →
      after.guards.keys.Nodup) → ∀ after, (holdings.perform operation).2 = some after →
        after.guards.keys.Nodup ∧ after.countable operations = true := by
    intro hkept after hafter
    rw [hafter] at hrest
    exact ⟨hkept after hafter, hrest⟩
  have hsome : ∀ {kept : Holdings κ γ ReleaseAction}, kept.guards.keys.Nodup →
      ∀ after, some kept = some after → after.guards.keys.Nodup := by
    intro kept hkept after hafter
    cases hafter
    exact hkept
  cases operation with
  | get name key mode =>
      obtain ⟨hgrant, hgranted⟩ := view_take? hnodup name mode (of_decide_eq_true hlimit)
      simp only [perform, View.perform] at hkept ⊢
      rw [← hgrant]
      cases htaken : holdings.take? name key mode (some .unreference) with
      | none =>
          rw [htaken] at hkept
          refine ⟨rfl, rfl, hkept fun after hafter => ?_⟩
          cases hafter
      | some after =>
          rw [htaken] at hkept
          exact ⟨rfl, rfl, hkept (hsome (hgranted after htaken))⟩
  | tryGet name key mode =>
      obtain ⟨hgrant, hgranted⟩ := view_take? hnodup name mode (of_decide_eq_true hlimit)
      simp only [perform, View.perform] at hkept ⊢
      rw [← hgrant]
      cases htaken : holdings.take? name key mode (some .unreference) with
      | none =>
          rw [htaken] at hkept
          refine ⟨rfl, ?_, hkept (hsome hnodup)⟩
          rw [view_refer (of_decide_eq_true hlimit), view_unrefer]
          rfl
      | some after =>
          rw [htaken] at hkept
          exact ⟨rfl, rfl, hkept (hsome (hgranted after htaken))⟩
  | mode name =>
      refine ⟨congrArg Answer.held ?_, rfl, hkept (hsome hnodup)⟩
      rw [guard_view, Option.map_map]
      rfl
  | downgrade name =>
      obtain ⟨hafter, hanswer, hview⟩ := view_downgrade hnodup name
      exact ⟨congrArg Answer.downgraded hanswer, congrArg some hview, hkept (hsome hafter)⟩
  | drop name =>
      obtain ⟨hafter, hview⟩ := view_drop hnodup name
      exact ⟨rfl, congrArg some hview, hkept (hsome hafter)⟩

theorem answers_countable (hnodup : holdings.guards.keys.Nodup)
    {operations : List (Operation κ γ)} (hcountable : holdings.countable operations = true) :
    Runs.answers perform operations holdings =
      Runs.answers View.perform operations (holdings.view []) := by
  have hanswers : Runs.answers perform operations holdings =
      Runs.answers View.perform (operations.map id) (holdings.view []) := by
    refine Runs.answers_eq_of_view (fun operations holdings =>
      holdings.guards.keys.Nodup ∧ holdings.countable operations = true) ?_ operations
      ⟨hnodup, hcountable⟩
    intro operation operations holdings hholds
    exact view_perform hholds.1 hholds.2
  rwa [List.map_id] at hanswers

end Pooling.Holdings

namespace Pooling.LockPool.Pool

variable {κ γ : Type} [DecidableEq κ] [DecidableEq γ]

theorem answers_amid {pool : Pool κ γ} (hsound : pool.Sound [])
    (steps : List (Interlude κ × Operation κ γ)) :
    Runs.answers performAmid steps pool =
      Runs.answers View.perform (steps.map Prod.snd) pool.view :=
  Runs.answers_eq_of_view (fun _ pool => pool.Sound [])
    (fun step _ _ hsound => hsound.performAmid step) steps hsound

theorem answers_alone {pool : Pool κ γ} (hsound : pool.Sound [])
    (operations : List (Operation κ γ)) :
    Runs.answers perform operations pool = Runs.answers View.perform operations pool.view := by
  have hanswers : Runs.answers perform operations pool =
      Runs.answers View.perform (operations.map id) pool.view := by
    refine Runs.answers_eq_of_view (fun _ pool => pool.Sound []) ?_ operations hsound
    intro operation _ pool hsound
    rw [← performAmid_nothing]
    exact hsound.performAmid ({}, operation)
  rwa [List.map_id] at hanswers

theorem sound_close {pool : Pool κ γ} {others : List Stake} (hsound : pool.Sound others) :
    pool.close.Sound others :=
  ⟨hsound.backed, hsound.nodup, hsound.action_eq⟩

/-- Eviction is invisible: whatever rounds of an evictor come before the operations on a lock pool
and in the middle of them, each operation is answered as without any eviction, and as with one lock
for each key that lasts for ever, unless more guards on one lock are asked for than can be counted. -/
theorem answers_eq_of_rounds (options : LockPoolOptions)
    (steps : List (Interlude κ × Operation κ γ)) :
    Runs.answers performAmid steps (start options) =
        Runs.answers perform (steps.map Prod.snd) (start options : Pool κ γ).close ∧
      (Holdings.countable (steps.map Prod.snd) {} = true →
        Runs.answers performAmid steps (start options) =
          Runs.answers Holdings.perform (steps.map Prod.snd) {}) := by
  have hsound : (start options : Pool κ γ).Sound [] := sound_start options
  have hview : (start options : Pool κ γ).view = Holdings.view [] {} :=
    View.ext (fun _ => rfl) (fun _ => rfl) fun _ => rfl
  rw [answers_amid hsound]
  constructor
  · exact (answers_alone (sound_close hsound) _).symm
  · intro hcountable
    have hnone : ({} : Holdings κ γ ReleaseAction).guards.keys.Nodup := List.nodup_nil
    rw [hview, Holdings.answers_countable hnone hcountable]

/-- A key is dropped after its first guard has ended, and gets a new entry; later rounds come while
that has guards, and while one of them lets go. -/
def revisited : List (Interlude Nat × Operation Nat Nat) :=
  let round : Round Nat := ⟨1, [], fun store => store.keys.keys⟩
  [({}, .get 0 7 .write), ({ released := [round] }, .drop 0),
    ({ before := [round] }, .get 0 7 .write), ({ referred := [round] }, .tryGet 1 7 .read),
    ({}, .downgrade 0), ({ before := [round, round] }, .tryGet 1 7 .read), ({}, .downgrade 1),
    ({}, .mode 0), ({ released := [round] }, .drop 0), ({}, .tryGet 2 7 .write),
    ({ named := [round] }, .get 1 8 .read), ({}, .tryGet 2 7 .write)]

theorem answers_of_revisited :
    Runs.answers performAmid revisited (start {}) =
        [.granted, .dropped, .granted, .refused, .downgraded true, .granted, .downgraded false,
          .held (some .read), .dropped, .refused, .granted, .granted] ∧
      (revisited.foldlM (fun pool step => (performAmid step pool).2) (start {})).map
        (fun pool => pool.store.next) = some 3 :=
  ⟨((answers_eq_of_rounds {} revisited).2 (by decide)).trans (by decide), by decide +kernel⟩

/-! More guards on one lock than can be counted. -/

/-- As many read guards on the key 7, each with a name of its own. -/
def readers (count : Nat) : List (Operation Nat Nat) :=
  (List.range count).map fun name => .get name 7 .read

theorem answers_readers {α : Type} {perform : Operation Nat Nat → α → Answer × Option α}
    {holds : Nat → α → Prop} {limit : Nat}
    (hmore : ∀ count state, count < limit → holds count state → ∃ next,
      perform (.get count 7 .read) state = (.granted, some next) ∧ holds (count + 1) next)
    {state : α} (hstart : holds 0 state) {count : Nat} (hle : count ≤ limit) :
    ∃ after, holds count after ∧ ∀ others,
      Runs.answers perform (readers count ++ others) state =
        List.replicate count .granted ++ Runs.answers perform others after := by
  induction count with
  | zero => exact ⟨state, hstart, fun others => rfl⟩
  | succ count ih =>
      obtain ⟨before, hholds, hanswers⟩ := ih (Nat.le_of_succ_le hle)
      obtain ⟨next, hperform, hnext⟩ := hmore count before hle hholds
      refine ⟨next, hnext, fun others => ?_⟩
      have hreaders : readers (count + 1) ++ others =
          readers count ++ .get count 7 .read :: others := by
        simp [readers, List.range_succ]
      rw [hreaders, hanswers, Runs.answers, hperform, List.replicate_succ', List.append_assoc]
      rfl

/-- What there is to see of a lock with so many readers and references to it. -/
structure CrowdedView (count : Nat) (view : View Nat Nat) : Prop where
  lock_eq : view.lock 7 = .shared count
  references_eq : view.references 7 = Int32.ofNat count
  guard_eq_none : ∀ name, count ≤ name → view.guard name = none

theorem CrowdedView.perform_get {count : Nat} {view : View Nat Nat}
    (hview : CrowdedView count view) (hless : count < System.countLimit) : ∃ next,
    view.perform (.get count 7 .read) = (.granted, some next) ∧ CrowdedView (count + 1) next := by
  have hcount : 0 ≤ view.references 7 := by
    rw [hview.references_eq]
    exact Int32.zero_le_ofNat_of_lt hless
  have hnone : view.guard count = none := hview.guard_eq_none count (Nat.le_refl count)
  let referred : View Nat Nat :=
    { view with references := amend (only 7) (· + 1) view.references }
  let next := (referred.setLock 7 (.shared (count + 1))).setGuard count (some ⟨.read, only 7⟩)
  have hperform : view.perform (.get count 7 .read) = (.granted, some next) := by
    simp [View.perform, View.refer, hcount, View.grant?, hview.lock_eq, RwLock.take?, View.name,
      View.setLock, hnone, next, referred]
  refine ⟨next, hperform, ?_, ?_, fun name hname => ?_⟩
  · exact amend_only_self 7 (fun _ => RwLock.shared (count + 1)) view.lock
  · refine (amend_only_self 7 (· + 1) view.references).trans ?_
    rw [hview.references_eq, Int32.ofNat_add]
    rfl
  · have hne : name ≠ count := by omega
    exact (if_neg hne).trans (hview.guard_eq_none name (by omega))

structure CrowdedLock (count : Nat) (holdings : Holdings Nat Nat ReleaseAction) : Prop where
  lockState_eq : holdings.lockState 7 = .shared count
  guard_eq_none : ∀ name, count ≤ name → holdings.guards.get? name = none

theorem CrowdedLock.perform_get {count : Nat} {holdings : Holdings Nat Nat ReleaseAction}
    (hlock : CrowdedLock count holdings) : ∃ next,
    holdings.perform (.get count 7 .read) = (.granted, some next) ∧
      CrowdedLock (count + 1) next := by
  have hnone : holdings.guards.get? count = none := hlock.guard_eq_none count (Nat.le_refl count)
  let locked := holdings.setLock 7 (.shared (count + 1))
  let next := { locked with
    guards := locked.guards.insert count ⟨7, .read, some .unreference⟩ }
  have hperform : holdings.perform (.get count 7 .read) = (.granted, some next) := by
    simp [Holdings.perform, Holdings.take?, hlock.lockState_eq, RwLock.take?, Holdings.name,
      Holdings.setLock, hnone, next, locked]
  refine ⟨next, hperform, ?_, fun name hname => ?_⟩
  · simp [next, locked, Holdings.lockState, Holdings.setLock, Table.get?_insert]
  · have hne : name ≠ count := by omega
    have hbefore := hlock.guard_eq_none name (by omega)
    simpa [next, locked, Holdings.setLock, Table.get?_insert, hne] using hbefore

/-- So many readers of one key that their count shows its sign, and then a writer. -/
def crowd : List (Operation Nat Nat) :=
  readers System.countLimit ++ [.tryGet System.countLimit 7 .write]

/-- The writer is given the key by the pool, with or without an evictor, and not by a lock that
lasts. -/
theorem answers_of_crowd :
    Runs.answers performAmid (crowd.map fun operation => ({}, operation)) (start {}) =
        List.replicate System.countLimit .granted ++ [.granted] ∧
      Runs.answers perform crowd (start {} : Pool Nat Nat).close =
        List.replicate System.countLimit .granted ++ [.granted] ∧
      Runs.answers Holdings.perform crowd {} =
        List.replicate System.countLimit .granted ++ [.refused] := by
  have hsound : (start {} : Pool Nat Nat).Sound [] := sound_start {}
  have hseen : Runs.answers View.perform crowd (start {} : Pool Nat Nat).view =
      List.replicate System.countLimit .granted ++ [.granted] := by
    obtain ⟨after, hcrowded, hanswers⟩ := answers_readers
      (fun _ _ hless hcrowded => CrowdedView.perform_get hcrowded hless)
      (⟨rfl, rfl, fun _ _ => rfl⟩ : CrowdedView 0 (start {} : Pool Nat Nat).view)
      (Nat.le_refl System.countLimit)
    have hsign : ¬ 0 ≤ after.references 7 := by
      rw [hcrowded.references_eq]
      decide
    have hlock : (after.renew 7).lock 7 = .shared 0 :=
      amend_only_self 7 (fun _ => RwLock.free) after.lock
    have hgranted : (after.perform (.tryGet System.countLimit 7 .write)).1 = .granted := by
      simp [View.perform, View.refer, if_neg hsign, View.grant?, hlock, RwLock.take?]
    rw [crowd, hanswers, Runs.answers, hgranted]
    cases (after.perform (.tryGet System.countLimit 7 .write)).2 <;> rfl
  have hlasting : Runs.answers Holdings.perform crowd {} =
      List.replicate System.countLimit .granted ++ [.refused] := by
    obtain ⟨after, hcrowded, hanswers⟩ := answers_readers
      (fun _ _ _ hcrowded => CrowdedLock.perform_get hcrowded)
      (⟨rfl, fun _ _ => rfl⟩ : CrowdedLock 0 {}) (Nat.le_refl System.countLimit)
    have hlock : after.lockState 7 = .shared (2147483647 + 1) := hcrowded.lockState_eq
    have hrefused : (after.perform (.tryGet System.countLimit 7 .write)).1 = .refused := by
      simp only [Holdings.perform, Holdings.take?, hlock, RwLock.take?]
    rw [crowd, hanswers, Runs.answers, hrefused]
    cases (after.perform (.tryGet System.countLimit 7 .write)).2 <;> rfl
  have hsame : ∀ operations : List (Operation Nat Nat),
      (operations.map fun operation => (({} : Interlude Nat), operation)).map Prod.snd =
        operations := by
    intro operations
    rw [List.map_map]
    exact List.map_id operations
  refine ⟨?_, ?_, hlasting⟩
  · rw [answers_amid hsound, hsame]
    exact hseen
  · rw [answers_alone (sound_close hsound)]
    exact hseen

end Pooling.LockPool.Pool
