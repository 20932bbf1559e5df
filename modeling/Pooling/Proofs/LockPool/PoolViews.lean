import Pooling.Proofs.LockPool.Stakes
import Pooling.Proofs.LockPool.Views
import Pooling.Proofs.Tables

/-!
Every operation on a lock pool can be followed on what there is to see of the pool, whatever its
evictor does before the operation and in the middle of it.
-/

namespace Pooling.LockPool

variable {κ γ : Type} [DecidableEq κ] [DecidableEq γ]

/-- Which key has the entry of a number. -/
def Store.isAt (store : Store κ) (id : Nat) : κ → Bool := fun key => store.lookup? key = some id

omit [DecidableEq γ] in
theorem Store.Spares.isAt_addEntry {before after : Store κ} {key : κ}
    (hspares : before.Spares key after) {id : Nat} (hlt : id < before.next) :
    (after.addEntry key).2.isAt id = amend (only key) (fun _ => false) (before.isAt id) := by
  funext other
  simp only [Store.isAt, hspares.lookup?_addEntry]
  by_cases heq : other = key
  · subst heq
    simp [Nat.ne_of_gt hlt]
  · rw [amend_only_of_ne heq, if_neg heq]
    rfl

namespace Pool

def stakes (pool : Pool κ γ) : List Stake :=
  pool.guards.pairs.map fun pair => ⟨pair.2.lock, some pair.2.mode⟩

def view (pool : Pool κ γ) : View κ γ where
  lock := fun key => (pool.store.entryAt key).lock
  references := fun key => (pool.store.entryAt key).references
  guard := fun name => (pool.guards.get? name).map fun guard =>
    ⟨guard.mode, pool.store.isAt guard.lock⟩

/-- The guards of a pool, and others with a stake in it, back its entries. -/
structure Sound (pool : Pool κ γ) (others : List Stake) : Prop where
  backed : pool.store.Backed (others ++ pool.stakes)
  nodup : pool.guards.keys.Nodup
  action_eq : ∀ name guard, pool.guards.get? name = some guard →
    guard.action = some .unreference

theorem sound_start (options : LockPoolOptions) : (start options : Pool κ γ).Sound [] where
  backed := Store.backed_start _ _
  nodup := List.nodup_nil
  action_eq := fun _ _ hguard => nomatch hguard

variable {pool : Pool κ γ} {others : List Stake} {id : Nat} {mode : LockMode}

theorem view_sameBut (hbacked : pool.store.Backed others) {store : Store κ}
    (hstore : pool.store.SameBut id store) (lock : RwLock → RwLock) (references : Int32 → Int32)
    (hentry : ∀ entry, pool.store.entry? id = some entry → ∃ new, store.entry? id = some new ∧
      new.lock = lock entry.lock ∧ new.references = references entry.references) :
    ({ pool with store } : Pool κ γ).view =
      { pool.view with
        lock := amend (pool.store.isAt id) lock pool.view.lock
        references := amend (pool.store.isAt id) references pool.view.references } := by
  have hseen : ∀ key,
      (store.entryAt key).lock = amend (pool.store.isAt id) lock pool.view.lock key ∧
        (store.entryAt key).references =
          amend (pool.store.isAt id) references pool.view.references key := by
    intro key
    by_cases hkey : pool.store.lookup? key = some id
    · obtain ⟨entry, hfound, -⟩ := hbacked.counts key id hkey
      obtain ⟨new, hnew, hlock, hreferences⟩ := hentry entry hfound
      have hat : pool.store.isAt id key = true := decide_eq_true hkey
      rw [Store.entryAt_of_lookup ((hstore.lookup_eq key).trans hkey) hnew]
      simp only [amend, hat, if_true, view, Store.entryAt_of_lookup hkey hfound]
      exact ⟨hlock, hreferences⟩
    · have hat : pool.store.isAt id key = false := decide_eq_false hkey
      rw [hstore.entryAt_eq hkey]
      simp only [amend, hat, Bool.false_eq_true, if_false, view]
      exact ⟨trivial, trivial⟩
  have hisAt : store.isAt = pool.store.isAt := by
    funext found key
    simp only [Store.isAt, hstore.lookup_eq]
  refine View.ext (fun key => (hseen key).1) (fun key => (hseen key).2) fun name => ?_
  simp only [view, hisAt]

namespace Sound

theorem mem_stakes (hsound : pool.Sound others) {name : γ} {guard : Guard Nat ReleaseAction}
    (hguard : pool.guards.get? name = some guard) :
    (⟨guard.lock, some guard.mode⟩ : Stake) ∈ pool.stakes :=
  List.mem_map_of_mem ((Table.perm_of_get? hsound.nodup hguard).mem_iff.mpr List.mem_cons_self)

end Sound

/-- A pool that its guards, and others with a stake in it, cannot tell from another. -/
structure Alike (before : Pool κ γ) (others : List Stake) (after : Pool κ γ) : Prop where
  sound : after.Sound others
  guards_eq : after.guards = before.guards
  view_eq : after.view = before.view
  isAt_eq : ∀ stake ∈ others, after.store.isAt stake.id = before.store.isAt stake.id

theorem Alike.trans {first second third : Pool κ γ} (hfirst : first.Alike others second)
    (hsecond : second.Alike others third) : first.Alike others third where
  sound := hsecond.sound
  guards_eq := hsecond.guards_eq.trans hfirst.guards_eq
  view_eq := hsecond.view_eq.trans hfirst.view_eq
  isAt_eq := fun stake hmem => (hsecond.isAt_eq stake hmem).trans (hfirst.isAt_eq stake hmem)

namespace Sound

theorem alike_refl (hsound : pool.Sound others) : pool.Alike others pool :=
  ⟨hsound, rfl, rfl, fun _ _ => rfl⟩

theorem alike (hsound : pool.Sound others) {store : Store κ}
    (hstore : pool.store.Alike (others ++ pool.stakes) store) (evictor : Evictor κ) :
    pool.Alike others { pool with evictor, store } := by
  have hisAt : ∀ stake ∈ others ++ pool.stakes,
      store.isAt stake.id = pool.store.isAt stake.id := by
    intro stake hmem
    funext key
    exact decide_eq_decide.mpr (hstore.lookup_iff stake hmem key)
  refine ⟨⟨hstore.backed, hsound.nodup, hsound.action_eq⟩, rfl, ?_, ?_⟩
  · refine View.ext hstore.lock_eq hstore.references_eq fun name => ?_
    cases hguard : pool.guards.get? name with
    | none => simp only [view, hguard, Option.map_none]
    | some guard =>
        have hsame := hisAt _ (List.mem_append_right _ (hsound.mem_stakes hguard))
        simp only [view, hguard, Option.map_some, hsame]
  · exact fun stake hmem => hisAt stake (List.mem_append_left _ hmem)

theorem nudge (hsound : pool.Sound others) : pool.Alike others pool.nudge := by
  have hwork := (Store.endures_alike pool.store (others ++ pool.stakes)).work
    (fun store => store.keys.keys) (pool.size + 1) pool.evictor (.refl hsound.backed)
  unfold Pool.nudge
  split
  next => exact hsound.alike hwork _
  next => exact hsound.alike_refl

theorem rounds (hsound : pool.Sound others) (rounds : List (Round κ)) :
    pool.Alike others (pool.rounds rounds) := by
  induction rounds generalizing pool with
  | nil => exact hsound.alike_refl
  | cons round rounds ih =>
      have hround : pool.Alike others (pool.round round) :=
        hsound.alike ((Store.endures_alike _ _).sweep _ _ _ _ (.refl hsound.backed)) _
      exact hround.trans (ih hround.sound)

theorem releaseLock (hsound : pool.Sound (⟨id, some mode⟩ :: others)) :
    ({ pool with store := pool.store.releaseLock id mode } : Pool κ γ).Sound
        (⟨id, none⟩ :: others) ∧
      ({ pool with store := pool.store.releaseLock id mode } : Pool κ γ).view =
        { pool.view with lock := amend (pool.store.isAt id) (·.release mode) pool.view.lock } := by
  refine ⟨⟨hsound.backed.releaseLock, hsound.nodup, hsound.action_eq⟩, ?_⟩
  have hview := view_sameBut hsound.backed (Store.sameBut_modifyEntry _ id _) (·.release mode)
    (fun count => count) fun entry hentry =>
      ⟨_, Store.entry?_modifyEntry_self hentry fun entry =>
        { entry with lock := entry.lock.release mode }, rfl, rfl⟩
  rwa [amend_same] at hview

theorem takeLock (hsound : pool.Sound (⟨id, none⟩ :: others)) {key : κ}
    (hat : pool.store.isAt id = only key) (mode : LockMode) :
    (pool.store.takeLock? id mode = none ∧ (pool.view.lock key).take? mode = none) ∨
      ∃ store lock, pool.store.takeLock? id mode = some store ∧
        (pool.view.lock key).take? mode = some lock ∧
        ({ pool with store } : Pool κ γ).Sound (⟨id, some mode⟩ :: others) ∧
        ({ pool with store } : Pool κ γ).view = pool.view.setLock key lock ∧
        store.isAt id = only key := by
  have hlookup : pool.store.lookup? key = some id := by
    have hkey := congrFun hat key
    simpa [Store.isAt, only] using hkey
  obtain ⟨entry, hentry, -⟩ := hsound.backed.counts key id hlookup
  have hlock : pool.view.lock key = entry.lock :=
    congrArg Entry.lock (Store.entryAt_of_lookup hlookup hentry)
  have htake := Store.takeLock?_of_entry hentry mode
  rw [hlock, htake]
  cases htaken : entry.lock.take? mode with
  | none => exact .inl ⟨rfl, rfl⟩
  | some lock =>
      right
      rw [htaken] at htake
      have hview := view_sameBut hsound.backed (Store.sameBut_modifyEntry _ id _) (fun _ => lock)
        (fun count => count) fun entry hentry =>
          ⟨_, Store.entry?_modifyEntry_self hentry fun entry => { entry with lock }, rfl, rfl⟩
      rw [amend_same, hat] at hview
      exact ⟨_, lock, rfl, rfl,
        ⟨hsound.backed.takeLock htake, hsound.nodup, hsound.action_eq⟩, hview, hat⟩

theorem unreference (hsound : pool.Sound (⟨id, none⟩ :: others)) :
    (pool.unreference id).Sound others ∧
      (pool.unreference id).view = pool.view.unrefer (pool.store.isAt id) := by
  have hless : ({ pool with store := (pool.store.unreference id).2 } : Pool κ γ).Sound others :=
    ⟨hsound.backed.unreference, hsound.nodup, hsound.action_eq⟩
  have hview := view_sameBut hsound.backed (Store.sameBut_modifyEntry _ id _) (fun lock => lock)
    (· - 1) fun entry hentry =>
      ⟨_, Store.entry?_modifyEntry_self hentry fun entry =>
        { entry with references := entry.references - 1 }, rfl, rfl⟩
  rw [amend_same] at hview
  unfold Pool.unreference
  dsimp only
  split
  next =>
    have hnudge := hless.nudge
    exact ⟨hnudge.sound, hnudge.view_eq.trans hview⟩
  next => exact ⟨hless, hview⟩

/-- A guard that lets go gives back its lock and its reference, whatever comes between. -/
theorem letGoAmid {guard : Guard Nat ReleaseAction}
    (hsound : pool.Sound (⟨guard.lock, some guard.mode⟩ :: others))
    (haction : guard.action = some .unreference) (interlude : Interlude κ) :
    (pool.letGoAmid interlude guard).Sound others ∧
      (pool.letGoAmid interlude guard).view =
        pool.view.letGo ⟨guard.mode, pool.store.isAt guard.lock⟩ := by
  obtain ⟨hreleased, hview⟩ := hsound.releaseLock
  have hamid := hreleased.rounds interlude.released
  obtain ⟨hafter, hend⟩ := hamid.sound.unreference
  have hat := hamid.isAt_eq _ List.mem_cons_self
  rw [hamid.view_eq, hview] at hend
  simp only [Pool.letGoAmid, haction]
  refine ⟨hafter, hend.trans ?_⟩
  rw [hat]
  rfl

end Sound

def seat (pool : Pool κ γ) (guard : Guard Nat ReleaseAction) : Seat κ :=
  ⟨guard.mode, pool.store.isAt guard.lock⟩

theorem view_erase (pool : Pool κ γ) (name : γ) :
    ({ pool with guards := pool.guards.erase name } : Pool κ γ).view =
      pool.view.setGuard name none := by
  refine View.ext (fun _ => rfl) (fun _ => rfl) fun other => ?_
  simp only [view, View.setGuard, Table.get?_erase]
  split <;> rfl

theorem view_insert (pool : Pool κ γ) (name : γ) (guard : Guard Nat ReleaseAction) :
    ({ pool with guards := pool.guards.insert name guard } : Pool κ γ).view =
      pool.view.setGuard name (some (pool.seat guard)) := by
  refine View.ext (fun _ => rfl) (fun _ => rfl) fun other => ?_
  simp only [view, View.setGuard, Table.get?_insert]
  split <;> rfl

theorem guard_view (pool : Pool κ γ) (name : γ) :
    pool.view.guard name = (pool.guards.get? name).map pool.seat := rfl

omit [DecidableEq κ] in
theorem stakes_erase (hnodup : pool.guards.keys.Nodup) {name : γ} {guard : Guard Nat ReleaseAction}
    (hguard : pool.guards.get? name = some guard) :
    pool.stakes.Perm (⟨guard.lock, some guard.mode⟩ ::
      ({ pool with guards := pool.guards.erase name } : Pool κ γ).stakes) :=
  (Table.perm_of_get? hnodup hguard).map _

omit [DecidableEq κ] in
theorem stakes_insert (hnodup : pool.guards.keys.Nodup) (name : γ)
    (guard : Guard Nat ReleaseAction) :
    ({ pool with guards := pool.guards.insert name guard } : Pool κ γ).stakes.Perm
      (⟨guard.lock, some guard.mode⟩ ::
        ({ pool with guards := pool.guards.erase name } : Pool κ γ).stakes) :=
  (Table.perm_insert hnodup name guard).map _

namespace Sound

theorem erase (hsound : pool.Sound others) {name : γ} {guard : Guard Nat ReleaseAction}
    (hguard : pool.guards.get? name = some guard) :
    ({ pool with guards := pool.guards.erase name } : Pool κ γ).Sound
      (⟨guard.lock, some guard.mode⟩ :: others) := by
  have hperm := stakes_erase hsound.nodup hguard
  exact ⟨hsound.backed.of_perm ((hperm.append_left others).trans List.perm_middle),
    Table.nodup_keys_erase hsound.nodup name, Table.forall_erase hsound.action_eq name⟩

/-- A guard takes a name from which the guard that had it has been taken. -/
theorem insert (pool : Pool κ γ) (name : γ) (guard : Guard Nat ReleaseAction)
    (herased : ({ pool with guards := pool.guards.erase name } : Pool κ γ).Sound
      (⟨guard.lock, some guard.mode⟩ :: others))
    (hnodup : pool.guards.keys.Nodup) (haction : guard.action = some .unreference) :
    ({ pool with guards := pool.guards.insert name guard } : Pool κ γ).Sound others := by
  have hperm := stakes_insert hnodup name guard
  exact ⟨herased.backed.of_perm (List.perm_middle.symm.trans (hperm.symm.append_left others)),
    Table.nodup_keys_insert hnodup name guard, Table.forall_insert herased.action_eq haction⟩

theorem nameAmid (guard : Guard Nat ReleaseAction)
    (hsound : pool.Sound [⟨guard.lock, some guard.mode⟩])
    (haction : guard.action = some .unreference) (name : γ) (interlude : Interlude κ) :
    (pool.nameAmid interlude name guard).Sound [] ∧
      (pool.nameAmid interlude name guard).view = pool.view.name name (pool.seat guard) := by
  unfold Pool.nameAmid View.name
  rw [guard_view]
  cases hguard : pool.guards.get? name with
  | none =>
      have herased : ({ pool with guards := pool.guards.erase name } : Pool κ γ).Sound
          [⟨guard.lock, some guard.mode⟩] := by
        rw [Table.erase_of_get?_eq_none hguard]
        exact hsound
      have hamid := (insert pool name guard herased hsound.nodup haction).rounds interlude.named
      exact ⟨hamid.sound, hamid.view_eq.trans (pool.view_insert name guard)⟩
  | some previous =>
      have herased := hsound.erase hguard
      have hinserted : ({ pool with guards := pool.guards.insert name guard } : Pool κ γ).Sound
          [⟨previous.lock, some previous.mode⟩] :=
        insert pool name guard
          ⟨herased.backed.of_perm (.swap _ _ _), herased.nodup, herased.action_eq⟩ hsound.nodup haction
      have hamid := hinserted.rounds interlude.named
      obtain ⟨hafter, hview⟩ := hamid.sound.letGoAmid
        (hsound.action_eq name previous hguard) interlude
      have hat := hamid.isAt_eq _ List.mem_cons_self
      rw [hamid.view_eq, hat, view_insert] at hview
      exact ⟨hafter, hview⟩

theorem dropAmid (hsound : pool.Sound []) (name : γ) (interlude : Interlude κ) :
    (pool.dropAmid interlude name).Sound [] ∧
      (pool.dropAmid interlude name).view = pool.view.drop name := by
  unfold Pool.dropAmid View.drop
  rw [guard_view]
  cases hguard : pool.guards.get? name with
  | none => exact ⟨hsound, rfl⟩
  | some guard =>
      obtain ⟨hafter, hview⟩ := (hsound.erase hguard).letGoAmid
        (hsound.action_eq name guard hguard) interlude
      exact ⟨hafter, hview.trans (congrArg (View.letGo · _) (pool.view_erase name))⟩

end Sound

/-- The entry that a key gets is its own, and nobody had a stake in it before. -/
theorem view_addEntry (hsound : pool.Sound others) {store : Store κ} {key : κ}
    (hspares : pool.store.Spares key store) :
    ({ pool with store := (store.addEntry key).2 } : Pool κ γ).view = pool.view.renew key ∧
      (store.addEntry key).2.isAt (store.addEntry key).1 = only key := by
  have hid : (store.addEntry key).1 = pool.store.next := hspares.next_eq
  rw [hid]
  constructor
  · refine View.ext (fun other => ?_) (fun other => ?_) fun name => ?_
    · by_cases heq : other = key
      · subst heq
        simp [view, View.renew, Store.entryAt_addEntry_self]
      · simp only [view, View.renew, amend_only_of_ne heq,
          hspares.entryAt_addEntry hsound.backed heq]
    · by_cases heq : other = key
      · subst heq
        simp [view, View.renew, Store.entryAt_addEntry_self]
      · simp only [view, View.renew, amend_only_of_ne heq,
          hspares.entryAt_addEntry hsound.backed heq]
    · cases hguard : pool.guards.get? name with
      | none => simp only [view, View.renew, hguard, Option.map_none]
      | some guard =>
          have hlt := hsound.backed.stake_lt_next _
            (List.mem_append_right _ (hsound.mem_stakes hguard))
          simp only [view, View.renew, hguard, Option.map_some, hspares.isAt_addEntry hlt]
  · funext other
    by_cases heq : other = key
    · simp [Store.isAt, hspares.lookup?_addEntry, only, heq]
    · have hne : pool.store.lookup? other ≠ some pool.store.next := fun hother =>
        Nat.lt_irrefl _ (hsound.backed.id_lt_next other _ hother)
      simp [Store.isAt, hspares.lookup?_addEntry, only, heq, hne]

namespace Sound

theorem reference (hsound : pool.Sound others) (key : κ) :
    ({ pool with store := (pool.store.reference key).2 } : Pool κ γ).Sound
        (⟨(pool.store.reference key).1, none⟩ :: others) ∧
      ({ pool with store := (pool.store.reference key).2 } : Pool κ γ).view =
        pool.view.refer key ∧
      (pool.store.reference key).2.isAt (pool.store.reference key).1 = only key := by
  refine ⟨⟨hsound.backed.reference key, hsound.nodup, hsound.action_eq⟩, ?_⟩
  cases hlookup : pool.store.lookup? key with
  | none =>
      -- The new entry cannot be told from one that nobody refers to.
      have hnew := view_addEntry hsound (.refl pool.store key)
      have hentry : pool.store.entryAt key = { references := 0 } := by
        rw [Store.entryAt, hlookup]
        rfl
      rw [Store.reference_of_none hlookup]
      rw [View.renew_eq_refer (congrArg Entry.lock hentry) (congrArg Entry.references hentry)] at hnew
      · exact hnew
      · intro name seat hseat
        obtain ⟨guard, -, rfl⟩ := Option.map_eq_some_iff.mp hseat
        simp [Store.isAt, hlookup]
  | some id =>
      obtain ⟨entry, hentry, hcounts⟩ := hsound.backed.counts key id hlookup
      have hcountAt : pool.view.references key = entry.references :=
        congrArg Entry.references (Store.entryAt_of_lookup hlookup hentry)
      by_cases hcount : 0 ≤ entry.references
      · obtain ⟨hid, hstore, hafter⟩ := Store.reference_of_lookup hlookup hentry hcount
        have hat : pool.store.isAt id = only key := by
          funext other
          refine decide_eq_decide.mpr ⟨fun hother => ?_, fun heq => heq ▸ hlookup⟩
          exact hsound.backed.key_unique other key id hother hlookup
        have hview := view_sameBut hsound.backed hstore (fun lock => lock) (· + 1)
          fun found hfound => by
            cases hentry.symm.trans hfound
            exact ⟨_, hafter, rfl, rfl⟩
        rw [amend_same, hat] at hview
        rw [View.refer, hcountAt, if_pos hcount, hid]
        refine ⟨hview, ?_⟩
        rw [← hat]
        funext other
        simp only [Store.isAt, hstore.lookup_eq]
      · -- The count shows its sign, and the key gets another entry. The guards keep the old one.
        obtain ⟨counted, hstore, hreference⟩ :=
          Store.reference_of_negative hlookup hentry hcount
        rw [View.refer, hcountAt, if_neg hcount, hreference]
        exact view_addEntry hsound (hsound.backed.spares hlookup hstore)

theorem grantAmid? (hsound : pool.Sound [⟨id, none⟩]) {key : κ}
    (hat : pool.store.isAt id = only key) (name : γ) (mode : LockMode) (interlude : Interlude κ) :
    (pool.grantAmid? interlude name id mode).map Pool.view = pool.view.grant? name key mode ∧
      ∀ after, pool.grantAmid? interlude name id mode = some after → after.Sound [] := by
  unfold Pool.grantAmid? View.grant?
  rcases hsound.takeLock hat mode with ⟨hnone, hrefused⟩ |
    ⟨store, lock, htaken, hlock, htook, hview, hstill⟩
  · rw [hnone, hrefused]
    exact ⟨rfl, fun _ hafter => nomatch hafter⟩
  · obtain ⟨hafter, hnamed⟩ := nameAmid ⟨id, mode, some .unreference⟩ htook rfl name interlude
    rw [htaken, hlock]
    have hseat : ({ pool with store } : Pool κ γ).seat ⟨id, mode, some .unreference⟩ =
        ⟨mode, only key⟩ := congrArg (Seat.mk mode) hstill
    rw [hview, hseat] at hnamed
    refine ⟨congrArg some hnamed, fun after hgranted => ?_⟩
    cases hgranted
    exact hafter

theorem downgrade (hsound : pool.Sound []) (name : γ) :
    (pool.downgrade name).2.Sound [] ∧
      (pool.downgrade name).1 = (pool.view.downgrade name).1 ∧
      (pool.downgrade name).2.view = (pool.view.downgrade name).2 := by
  unfold Pool.downgrade View.downgrade
  rw [guard_view]
  cases hguard : pool.guards.get? name with
  | none => exact ⟨hsound, rfl, rfl⟩
  | some guard =>
      obtain ⟨held, mode, action⟩ := guard
      cases mode with
      | read => exact ⟨hsound, rfl, rfl⟩
      | write =>
          have herased := hsound.erase hguard
          have hless : ({ pool with
              store := pool.store.downgradeLock held
              guards := pool.guards.erase name } : Pool κ γ).Sound [⟨held, some .read⟩] :=
            ⟨herased.backed.downgradeLock, herased.nodup, herased.action_eq⟩
          have hview := view_sameBut hsound.backed (Store.sameBut_modifyEntry _ held _)
            (·.downgrade) (fun count => count) fun entry hentry =>
              ⟨_, Store.entry?_modifyEntry_self hentry fun entry =>
                { entry with lock := entry.lock.downgrade }, rfl, rfl⟩
          rw [amend_same] at hview
          have hset := view_insert { pool with store := pool.store.downgradeLock held } name
            ⟨held, .read, action⟩
          have haction : action = some .unreference := hsound.action_eq name _ hguard
          have hafter := insert { pool with store := pool.store.downgradeLock held } name
            ⟨held, .read, action⟩ hless hsound.nodup haction
          exact ⟨hafter, rfl, hset.trans (congrArg (View.setGuard · name _) hview)⟩

/-- Whoever asks for the lock of a key refers to its entry first, and an evictor that comes in then
leaves that entry to the key. -/
theorem referred (hsound : pool.Sound []) (key : κ) (rounds : List (Round κ)) :
    let amid := (pool.reference key).2.rounds rounds
    amid.Sound [⟨(pool.reference key).1, none⟩] ∧ amid.view = pool.view.refer key ∧
      amid.store.isAt (pool.reference key).1 = only key := by
  obtain ⟨hreferred, hview, hat⟩ := hsound.reference key
  have hnudge := hreferred.nudge
  have hamid := hnudge.trans (hnudge.sound.rounds rounds)
  exact ⟨hamid.sound, hamid.view_eq.trans hview, (hamid.isAt_eq _ List.mem_cons_self).trans hat⟩

/-- An operation on a pool can be followed on what there is to see of it, whatever rounds of the
evictor come before it and in the middle of it. -/
theorem performAmid (hsound : pool.Sound []) (step : Interlude κ × Operation κ γ) :
    (pool.performAmid step).1 = (pool.view.perform step.2).1 ∧
      (pool.performAmid step).2.map Pool.view = (pool.view.perform step.2).2 ∧
      ∀ after, (pool.performAmid step).2 = some after → after.Sound [] := by
  obtain ⟨interlude, operation⟩ := step
  have hbefore := hsound.rounds interlude.before
  have hstart := hbefore.sound
  rw [← hbefore.view_eq]
  simp only [Pool.performAmid]
  generalize pool.rounds interlude.before = pool at hstart
  have hsome : ∀ {kept : Pool κ γ}, kept.Sound [] → ∀ after, some kept = some after →
      after.Sound [] := by
    intro kept hkept after hafter
    cases hafter
    exact hkept
  cases operation with
  | get name key mode =>
      obtain ⟨hreferred, hview, hat⟩ := hstart.referred key interlude.referred
      obtain ⟨hgrant, hgranted⟩ := hreferred.grantAmid? hat name mode interlude
      simp only [View.perform]
      rw [← hview, ← hgrant]
      cases hguard : ((pool.reference key).2.rounds interlude.referred).grantAmid? interlude name
          (pool.reference key).1 mode with
      | none => exact ⟨rfl, rfl, fun _ hafter => nomatch hafter⟩
      | some after => exact ⟨rfl, rfl, hsome (hgranted after hguard)⟩
  | tryGet name key mode =>
      obtain ⟨hreferred, hview, hat⟩ := hstart.referred key interlude.referred
      obtain ⟨hgrant, hgranted⟩ := hreferred.grantAmid? hat name mode interlude
      obtain ⟨hundone, hrefused⟩ := hreferred.unreference
      simp only [View.perform]
      rw [← hview, ← hgrant]
      cases hguard : ((pool.reference key).2.rounds interlude.referred).grantAmid? interlude name
          (pool.reference key).1 mode with
      | none =>
          rw [hat] at hrefused
          exact ⟨rfl, congrArg some hrefused, hsome hundone⟩
      | some after => exact ⟨rfl, rfl, hsome (hgranted after hguard)⟩
  | mode name =>
      refine ⟨congrArg Answer.held ?_, rfl, hsome hstart⟩
      rw [guard_view, Option.map_map]
      rfl
  | downgrade name =>
      obtain ⟨hafter, hanswer, hview⟩ := hstart.downgrade name
      exact ⟨congrArg Answer.downgraded hanswer, congrArg some hview, hsome hafter⟩
  | drop name =>
      obtain ⟨hafter, hview⟩ := hstart.dropAmid name interlude
      exact ⟨rfl, congrArg some hview, hsome hafter⟩

end Sound

end Pool

end Pooling.LockPool
