import Pooling.Proofs.LockPool.Culling
import Pooling.Proofs.LockPool.PoolViews

/-!
What becomes of the references to the entries of a lock pool when holders of guards put actions of
their own in the way: a guard that ends with such an action never gives its reference back.
-/

namespace Pooling.LockPool

variable {κ γ : Type}

def Stage.sought? : Stage → Option LockMode
  | waiting mode => some mode
  | trying mode => some mode
  | _ => none

/-- A lock pool among those who deal with it. -/
structure Dealings (κ γ : Type) where
  pool : Pool κ γ
  /-- References that no guard has: of calls that seek a lock, and of guards that have let go. -/
  pending : List (Nat × Stage) := []
  /-- References of guards that ended with an action of their holder's. -/
  lost : List Nat := []

namespace Pool

variable [DecidableEq γ]

theorem stakes_onRelease (pool : Pool κ γ) (name : γ) (action : ReleaseAction) :
    (pool.onRelease name action).stakes = pool.stakes := by
  simp only [stakes, onRelease, Table.modify, List.map_map]
  apply List.map_congr_left
  intro pair _
  simp only [Function.comp]
  split <;> rfl

end Pool

namespace Dealings

/-- The next thing that happens. Callers take one step each at a time, and so does the evictor, which
may turn to any key. -/
inductive Event (κ γ : Type) where
  | get (key : κ) (mode : LockMode)
  | tryGet (key : κ) (mode : LockMode)
  | grant (index : Nat) (name : γ)
  | giveUp (index : Nat)
  | giveBack (index : Nat)
  | downgrade (name : γ)
  | onRelease (name : γ)
  | drop (name : γ)
  | look (key : κ)
  | evict (key : κ)
  | turn (evictor : Evictor κ)

variable [DecidableEq κ] [DecidableEq γ]

def start (options : LockPoolOptions) : Dealings κ γ := { pool := Pool.start options }

def refer (dealings : Dealings κ γ) (key : κ) (stage : Stage) : Dealings κ γ :=
  let (id, store) := dealings.pool.store.reference key
  { dealings with
    pool := { dealings.pool with store }
    pending := dealings.pending ++ [(id, stage)] }

/-- A call gets its lock, and a guard of a new name has its reference from now on. -/
def grant? (dealings : Dealings κ γ) (index : Nat) (name : γ) : Option (Dealings κ γ) := do
  let (id, stage) ← dealings.pending[index]?
  let mode ← stage.sought?
  if (dealings.pool.guards.get? name).isSome then none
  else do
    let pool ← dealings.pool.grant? name id mode
    some { dealings with pool, pending := dealings.pending.eraseIdx index }

def giveUp? (dealings : Dealings κ γ) (index : Nat) : Option (Dealings κ γ) := do
  let (id, stage) ← dealings.pending[index]?
  match stage with
  | .trying _ => some { dealings with pending := dealings.pending.set index (id, .failed) }
  | _ => none

def giveBack? (dealings : Dealings κ γ) (index : Nat) : Option (Dealings κ γ) := do
  let (id, stage) ← dealings.pending[index]?
  if stage = .failed ∨ stage = .dropped then
    some { dealings with
      pool := { dealings.pool with store := (dealings.pool.store.unreference id).2 }
      pending := dealings.pending.eraseIdx index }
  else none

/-- A guard lets go of its lock, and then does what it holds for that moment. -/
def drop? (dealings : Dealings κ γ) (name : γ) : Option (Dealings κ γ) := do
  let guard ← dealings.pool.guards.get? name
  let pool := { dealings.pool with
    store := dealings.pool.store.releaseLock guard.lock guard.mode
    guards := dealings.pool.guards.erase name }
  match guard.action with
  | some .unreference =>
      some { dealings with pool, pending := dealings.pending ++ [(guard.lock, .dropped)] }
  | _ => some { dealings with pool, lost := dealings.lost ++ [guard.lock] }

def step? (dealings : Dealings κ γ) (event : Event κ γ) : Option (Dealings κ γ) :=
  match event with
  | .get key mode => some (dealings.refer key (.waiting mode))
  | .tryGet key mode => some (dealings.refer key (.trying mode))
  | .grant index name => dealings.grant? index name
  | .giveUp index => dealings.giveUp? index
  | .giveBack index => dealings.giveBack? index
  | .downgrade name => some { dealings with pool := (dealings.pool.downgrade name).2 }
  | .onRelease name => some { dealings with pool := dealings.pool.onRelease name .custom }
  | .drop name => dealings.drop? name
  | .look key =>
      some { dealings with
        pool := { dealings.pool with store := (dealings.pool.store.clearAccessed key).2 } }
  | .evict key =>
      some { dealings with
        pool := { dealings.pool with store := (dealings.pool.store.removeIdle key).2 } }
  | .turn evictor => some { dealings with pool := { dealings.pool with evictor } }

def anyhow (_ : Dealings κ γ) (_ : Event κ γ) : Bool := true

/-- Nobody sets an action. -/
def undiverted (_ : Dealings κ γ) : Event κ γ → Bool
  | .onRelease _ => false
  | _ => true

abbrev Reaches : Dealings κ γ → Dealings κ γ → Prop := Runs.Reaches step? anyhow

/-- The entries that are referred to by no guard, each as often as it is. -/
def loose (dealings : Dealings κ γ) : List Nat :=
  dealings.pending.map Prod.fst ++ dealings.lost

def stakes (dealings : Dealings κ γ) : List Stake :=
  dealings.loose.map (fun id => ⟨id, none⟩) ++ dealings.pool.stakes

/-- Every key has its own entry, which counts the guards, the references on their way and the
references that are lost. -/
structure Sound (dealings : Dealings κ γ) : Prop where
  backed : dealings.pool.store.Backed dealings.stakes
  nodup_keys : dealings.pool.store.keys.keys.Nodup
  nodup_guards : dealings.pool.guards.keys.Nodup

variable {before after : Dealings κ γ} {index : Nat} {id : Nat} {stage : Stage} {name : γ}

omit [DecidableEq κ] [DecidableEq γ] in
theorem loose_perm (hpending : before.pending[index]? = some (id, stage)) :
    before.loose.Perm (id :: (before.pending.eraseIdx index).map Prod.fst ++ before.lost) := by
  obtain ⟨hlt, hget⟩ := List.getElem?_eq_some_iff.mp hpending
  have hperm := (List.getElem_cons_eraseIdx_perm hlt).symm.map Prod.fst
  rw [hget] at hperm
  exact hperm.append_right before.lost

omit [DecidableEq κ] [DecidableEq γ] in
theorem stakes_perm {dealings : Dealings κ γ} {loose : List Nat}
    (hperm : dealings.loose.Perm (id :: loose)) :
    dealings.stakes.Perm
      (⟨id, none⟩ :: (loose.map (fun id => ⟨id, none⟩) ++ dealings.pool.stakes)) :=
  (hperm.map fun id => (⟨id, none⟩ : Stake)).append_right dealings.pool.stakes

theorem grant?_eq_some (hstep : before.grant? index name = some after) :
    ∃ id stage mode store, before.pending[index]? = some (id, stage) ∧
      before.pool.guards.get? name = none ∧
      before.pool.store.takeLock? id mode = some store ∧
      after = { before with
        pool := { before.pool with
          store
          guards := before.pool.guards.insert name ⟨id, mode, some .unreference⟩ }
        pending := before.pending.eraseIdx index } := by
  simp only [grant?, Option.bind_eq_bind, Option.bind_eq_some_iff] at hstep
  obtain ⟨⟨id, stage⟩, hpending, mode, -, hstep⟩ := hstep
  split at hstep
  next => cases hstep
  next hfree =>
    have hfree : before.pool.guards.get? name = none := by simpa using hfree
    simp only [Pool.grant?, Option.bind_eq_bind, Option.bind_eq_some_iff, Option.some.injEq,
      Pool.name, hfree] at hstep
    obtain ⟨pool, ⟨store, htaken, rfl⟩, rfl⟩ := hstep
    exact ⟨id, stage, mode, store, hpending, hfree, htaken, rfl⟩

omit [DecidableEq κ] [DecidableEq γ] in
theorem giveUp?_eq_some (hstep : before.giveUp? index = some after) :
    ∃ id stage, before.pending[index]? = some (id, stage) ∧
      after = { before with pending := before.pending.set index (id, .failed) } := by
  simp only [giveUp?, Option.bind_eq_bind, Option.bind_eq_some_iff] at hstep
  obtain ⟨⟨id, stage⟩, hpending, hstep⟩ := hstep
  split at hstep
  next =>
    cases hstep
    exact ⟨id, _, hpending, rfl⟩
  next => cases hstep

omit [DecidableEq κ] [DecidableEq γ] in
theorem giveBack?_eq_some (hstep : before.giveBack? index = some after) :
    ∃ id stage, before.pending[index]? = some (id, stage) ∧
      after = { before with
        pool := { before.pool with store := (before.pool.store.unreference id).2 }
        pending := before.pending.eraseIdx index } := by
  simp only [giveBack?, Option.bind_eq_bind, Option.bind_eq_some_iff] at hstep
  obtain ⟨⟨id, stage⟩, hpending, hstep⟩ := hstep
  split at hstep
  next =>
    cases hstep
    exact ⟨id, stage, hpending, rfl⟩
  next => cases hstep

omit [DecidableEq γ] in
theorem sound_start (options : LockPoolOptions) : (start options : Dealings κ γ).Sound where
  backed := Store.backed_start _ _
  nodup_keys := List.nodup_nil
  nodup_guards := List.nodup_nil

namespace Sound

omit [DecidableEq γ] in
theorem refer (hsound : before.Sound) (key : κ) (stage : Stage) :
    (before.refer key stage).Sound where
  backed := by
    refine (hsound.backed.reference key).of_perm (List.Perm.symm ?_)
    apply stakes_perm
    rw [loose, Dealings.refer, List.map_append, List.append_assoc]
    exact List.perm_middle
  nodup_keys := Store.nodup_keys_reference hsound.nodup_keys key
  nodup_guards := hsound.nodup_guards

theorem grant? (hsound : before.Sound) (hstep : before.grant? index name = some after) :
    after.Sound := by
  obtain ⟨id, stage, mode, store, hpending, hfree, htaken, rfl⟩ := grant?_eq_some hstep
  have hbacked := (hsound.backed.of_perm (stakes_perm (loose_perm hpending))).takeLock htaken
  have hinserted := Pool.stakes_insert hsound.nodup_guards name ⟨id, mode, some .unreference⟩
  rw [Table.erase_of_get?_eq_none hfree] at hinserted
  refine ⟨hbacked.of_perm ?_, ?_, Table.nodup_keys_insert hsound.nodup_guards name _⟩
  · exact List.perm_middle.symm.trans (hinserted.symm.append_left _)
  · show store.keys.keys.Nodup
    rw [Store.keys_takeLock? htaken]
    exact hsound.nodup_keys

omit [DecidableEq γ] in
theorem giveUp? (hsound : before.Sound) (hstep : before.giveUp? index = some after) :
    after.Sound := by
  obtain ⟨id, stage, hpending, rfl⟩ := giveUp?_eq_some hstep
  obtain ⟨hlt, hget⟩ := List.getElem?_eq_some_iff.mp hpending
  have hbound : index < (before.pending.map Prod.fst).length := by simpa using hlt
  have hid : id = (before.pending.map Prod.fst)[index] := by simp [hget]
  have hsame : (before.pending.set index (id, .failed)).map Prod.fst =
      before.pending.map Prod.fst := by
    rw [List.map_set, hid]
    exact List.set_getElem_self _
  refine ⟨?_, hsound.nodup_keys, hsound.nodup_guards⟩
  rw [stakes, loose, hsame]
  exact hsound.backed

omit [DecidableEq γ] in
theorem giveBack? (hsound : before.Sound) (hstep : before.giveBack? index = some after) :
    after.Sound := by
  obtain ⟨id, stage, hpending, rfl⟩ := giveBack?_eq_some hstep
  exact ⟨(hsound.backed.of_perm (stakes_perm (loose_perm hpending))).unreference,
    hsound.nodup_keys, hsound.nodup_guards⟩

/-- A guard that is taken from those with a name is still a stake in its entry. -/
theorem backed_erase (hsound : before.Sound) {guard : Guard Nat ReleaseAction}
    (hguard : before.pool.guards.get? name = some guard) :
    before.pool.store.Backed (⟨guard.lock, some guard.mode⟩ ::
      (before.loose.map (fun id => ⟨id, none⟩) ++
        ({ before.pool with guards := before.pool.guards.erase name } : Pool κ γ).stakes)) := by
  have hperm := (Pool.stakes_erase hsound.nodup_guards hguard).append_left
    (before.loose.map fun id => (⟨id, none⟩ : Stake))
  exact hsound.backed.of_perm (hperm.trans List.perm_middle)

theorem drop? (hsound : before.Sound) (hstep : before.drop? name = some after) :
    after.Sound := by
  simp only [Dealings.drop?, Option.bind_eq_bind, Option.bind_eq_some_iff] at hstep
  obtain ⟨guard, hguard, hstep⟩ := hstep
  have herased := Table.nodup_keys_erase hsound.nodup_guards name
  have hbacked := (hsound.backed_erase hguard).releaseLock
  -- The reference of the guard is on its way in one case, and lost in the other.
  split at hstep
  next =>
    cases hstep
    refine ⟨hbacked.of_perm (List.Perm.symm ?_), hsound.nodup_keys, herased⟩
    apply stakes_perm
    rw [loose, List.map_append, List.append_assoc]
    exact List.perm_middle
  next =>
    cases hstep
    refine ⟨hbacked.of_perm (List.Perm.symm ?_), hsound.nodup_keys, herased⟩
    apply stakes_perm
    rw [loose, ← List.append_assoc]
    exact List.perm_append_singleton _ _

theorem downgrade (hsound : before.Sound) (name : γ) :
    ({ before with pool := (before.pool.downgrade name).2 } : Dealings κ γ).Sound := by
  unfold Pool.downgrade
  split
  next id action hguard =>
    have hinserted := Pool.stakes_insert hsound.nodup_guards name ⟨id, .read, action⟩
    have hbacked := (hsound.backed_erase hguard).downgradeLock
    refine ⟨hbacked.of_perm ?_, hsound.nodup_keys, Table.nodup_keys_insert hsound.nodup_guards _ _⟩
    exact List.perm_middle.symm.trans (hinserted.symm.append_left _)
  next => exact hsound

theorem onRelease (hsound : before.Sound) (name : γ) (action : ReleaseAction) :
    ({ before with pool := before.pool.onRelease name action } : Dealings κ γ).Sound := by
  refine ⟨?_, hsound.nodup_keys, ?_⟩
  · rw [stakes, Pool.stakes_onRelease]
    exact hsound.backed
  · show (before.pool.guards.modify name _).keys.Nodup
    rw [Table.keys_modify]
    exact hsound.nodup_guards

omit [DecidableEq γ] in
theorem look (hsound : before.Sound) (key : κ) :
    ({ before with pool := { before.pool with
      store := (before.pool.store.clearAccessed key).2 } } : Dealings κ γ).Sound := by
  refine ⟨(Store.Alike.look hsound.backed key).backed, ?_, hsound.nodup_guards⟩
  show (before.pool.store.clearAccessed key).2.keys.keys.Nodup
  rw [Store.keys_clearAccessed]
  exact hsound.nodup_keys

omit [DecidableEq γ] in
theorem evict (hsound : before.Sound) (key : κ) :
    ({ before with pool := { before.pool with
      store := (before.pool.store.removeIdle key).2 } } : Dealings κ γ).Sound := by
  exact ⟨(Store.Alike.evict hsound.backed key).backed,
    Store.nodup_keys_removeIdle hsound.nodup_keys key, hsound.nodup_guards⟩

theorem step (hsound : before.Sound) {event : Event κ γ}
    (hstep : before.step? event = some after) : after.Sound := by
  cases event with
  | get key mode =>
      cases hstep
      exact hsound.refer key _
  | tryGet key mode =>
      cases hstep
      exact hsound.refer key _
  | grant index name => exact hsound.grant? hstep
  | giveUp index => exact hsound.giveUp? hstep
  | giveBack index => exact hsound.giveBack? hstep
  | downgrade name =>
      cases hstep
      exact hsound.downgrade name
  | onRelease name =>
      cases hstep
      exact hsound.onRelease name .custom
  | drop name => exact hsound.drop? hstep
  | look key =>
      cases hstep
      exact hsound.look key
  | evict key =>
      cases hstep
      exact hsound.evict key
  | turn evictor =>
      cases hstep
      exact ⟨hsound.backed, hsound.nodup_keys, hsound.nodup_guards⟩

end Sound

theorem sound_of_reaches {options : LockPoolOptions} {later : Dealings κ γ}
    (hreaches : Reaches (start options) later) : later.Sound :=
  hreaches.invariant Sound (sound_start options) fun hsound _ hstep => hsound.step hstep

/-! Who refers to an entry. -/

def guardsOn (dealings : Dealings κ γ) (id : Nat) : Nat :=
  (dealings.pool.guards.pairs.map fun pair => pair.2.lock).count id

/-- The calls that seek the lock of an entry, and the guards that have let go of it. -/
def pendingOn (dealings : Dealings κ γ) (id : Nat) : Nat :=
  (dealings.pending.map Prod.fst).count id

/-- The guards on an entry that ended with an action of their holder's. -/
def lostOn (dealings : Dealings κ γ) (id : Nat) : Nat := dealings.lost.count id

theorem length_modesAt (stakes : List Stake) (id : Nat) :
    (modesAt stakes id).length = (stakes.map Stake.id).count id := by
  rw [modesAt, List.length_map, List.count_eq_countP, List.countP_map, List.countP_eq_length_filter]
  rfl

omit [DecidableEq κ] [DecidableEq γ] in
theorem length_modesAt_stakes (dealings : Dealings κ γ) (id : Nat) :
    (modesAt dealings.stakes id).length =
      dealings.guardsOn id + dealings.pendingOn id + dealings.lostOn id := by
  have hids : dealings.stakes.map Stake.id =
      dealings.loose ++ dealings.pool.guards.pairs.map fun pair => pair.2.lock := by
    simp [stakes, Pool.stakes, Function.comp_def]
  rw [length_modesAt, hids, loose, List.count_append, List.count_append, guardsOn, pendingOn, lostOn]
  omega

/-- The keys whose entries have a reference that is never given back. -/
def leaking (dealings : Dealings κ γ) : List κ :=
  dealings.pool.store.keys.keys.filter fun key =>
    (dealings.pool.store.lookup? key).any fun id => 0 < dealings.lostOn id

/-- The count of an entry is that of its guards, of the references on their way and of the lost ones:
with no guard and nothing on its way, it is zero unless a reference is lost. -/
structure Accounted (dealings : Dealings κ γ) : Prop where
  references_eq : ∀ key id, dealings.pool.store.lookup? key = some id →
    ∃ entry, dealings.pool.store.entry? id = some entry ∧
      entry.references =
        Int32.ofNat (dealings.guardsOn id + dealings.pendingOn id + dealings.lostOn id) ∧
      (entry.references = 0 ↔
        dealings.guardsOn id = 0 ∧ dealings.pendingOn id = 0 ∧ dealings.lostOn id = 0)
  dropped : ∀ key id, dealings.pool.store.lookup? key = some id →
    dealings.guardsOn id = 0 → dealings.pendingOn id = 0 → dealings.lostOn id = 0 →
    let looked := (dealings.pool.store.clearAccessed key).2
    (looked.removeIdle key).1 = true ∧ (looked.removeIdle key).2.lookup? key = none
  kept : ∀ key id, dealings.pool.store.lookup? key = some id → 0 < dealings.lostOn id →
    dealings.pool.store.removeIdle key = (false, dealings.pool.store)
  lowered : (∀ id, dealings.guardsOn id = 0 ∧ dealings.pendingOn id = 0) →
    dealings.pool.store.isOverfull = true →
    dealings.pool.store.lowWatermark ≤ dealings.pool.store.highWatermark →
    ∀ (order : Store κ → List κ) (evictor : Evictor κ),
      (∀ store, (order store).Perm store.keys.keys) →
      (evictor.round order dealings.pool.store).2.size =
        max dealings.pool.store.lowWatermark dealings.leaking.length

namespace Sound

variable {dealings : Dealings κ γ} {key : κ} {id : Nat}

omit [DecidableEq γ] in
theorem formed (hsound : dealings.Sound) : dealings.pool.store.Formed where
  nodup_keys := hsound.nodup_keys
  isSome_entry := by
    intro key id hlookup
    obtain ⟨entry, hentry, -⟩ := hsound.backed.counts key id hlookup
    rw [hentry]
    rfl
  key_unique := hsound.backed.key_unique

omit [DecidableEq γ] in
theorem references_eq (hsound : dealings.Sound)
    (hlookup : dealings.pool.store.lookup? key = some id) :
    ∃ entry, dealings.pool.store.entry? id = some entry ∧
      entry.references =
        Int32.ofNat (dealings.guardsOn id + dealings.pendingOn id + dealings.lostOn id) ∧
      (entry.references = 0 ↔
        dealings.guardsOn id = 0 ∧ dealings.pendingOn id = 0 ∧ dealings.lostOn id = 0) := by
  obtain ⟨entry, hentry, hcounts⟩ := hsound.backed.counts key id hlookup
  have hlength := dealings.length_modesAt_stakes id
  have hreferences := hcounts.references_eq
  rw [hlength] at hreferences
  refine ⟨entry, hentry, hreferences, fun hzero => ?_, fun ⟨hguards, hpending, hlost⟩ => ?_⟩
  · rw [hcounts.eq_nil hzero, List.length_nil] at hlength
    omega
  · rw [hreferences, hguards, hpending, hlost]
    rfl

omit [DecidableEq γ] in
theorem isSome_idle?_iff (hsound : dealings.Sound)
    (hlookup : dealings.pool.store.lookup? key = some id) :
    (dealings.pool.store.idle? key).isSome ↔
      dealings.guardsOn id = 0 ∧ dealings.pendingOn id = 0 ∧ dealings.lostOn id = 0 := by
  obtain ⟨entry, hentry, -, hzero⟩ := hsound.references_eq hlookup
  rw [← hzero, Option.isSome_iff_exists]
  constructor
  · rintro ⟨used, hidle⟩
    obtain ⟨other, found, hother, hfound, hnone, -⟩ := Store.idle?_eq_some_iff.mp hidle
    cases hlookup.symm.trans hother
    cases hentry.symm.trans hfound
    exact hnone
  · intro hnone
    exact ⟨_, Store.idle?_eq_some_iff.mpr ⟨id, entry, hlookup, hentry, hnone, rfl⟩⟩

omit [DecidableEq γ] in
theorem length_idles (hsound : dealings.Sound)
    (hquiet : ∀ id, dealings.guardsOn id = 0 ∧ dealings.pendingOn id = 0) :
    dealings.pool.store.idles.length + dealings.leaking.length = dealings.pool.store.size := by
  have hleaking : dealings.leaking = dealings.pool.store.keys.keys.filter
      fun key => !(dealings.pool.store.idle? key).isSome := by
    apply List.filter_congr
    intro key hmem
    obtain ⟨id, hlookup⟩ := Option.isSome_iff_exists.mp (Store.mem_keys_iff.mp hmem)
    obtain ⟨hguards, hpending⟩ := hquiet id
    have hidle := hsound.isSome_idle?_iff hlookup
    rw [hlookup, Option.any_some]
    by_cases hlost : dealings.lostOn id = 0
    · rw [hidle.mpr ⟨hguards, hpending, hlost⟩, hlost]
      rfl
    · have hbusy : (dealings.pool.store.idle? key).isSome = false :=
        Bool.eq_false_iff.mpr fun hsome => hlost (hidle.mp hsome).2.2
      rw [hbusy, decide_eq_true (Nat.pos_of_ne_zero hlost)]
      rfl
  rw [hleaking, Store.idles, Store.size, ← Table.length_keys]
  exact (List.length_eq_length_filter_add _).symm

omit [DecidableEq γ] in
theorem accounted (hsound : dealings.Sound) : dealings.Accounted where
  references_eq := fun _ _ hlookup => hsound.references_eq hlookup
  dropped := by
    intro key id hlookup hguards hpending hlost
    obtain ⟨used, hused⟩ := Option.isSome_iff_exists.mp
      ((hsound.isSome_idle?_iff hlookup).mpr ⟨hguards, hpending, hlost⟩)
    have hidle : (dealings.pool.store.clearAccessed key).2.idle? key = some false := by
      rw [hsound.formed.idle?_clearAccessed, if_pos rfl, hused]
      rfl
    exact ⟨(Store.fst_removeIdle _ key).mpr hidle,
      (Store.lookup?_removeIdle hidle key).trans (if_pos rfl)⟩
  kept := by
    intro key id hlookup hlost
    refine Store.removeIdle_of_busy fun hidle => ?_
    have hnone := (hsound.isSome_idle?_iff hlookup).mp (by rw [hidle]; rfl)
    omega
  lowered := by
    intro hquiet hoverfull hle order evictor hperm
    obtain ⟨hremoved, hculled⟩ := Vigil.culled_of_evict hsound.formed hperm
      (dealings.pool.store.size - dealings.pool.store.lowWatermark) evictor
    have hlowered := (hculled.lowered hremoved hoverfull hle).size_eq
    have hidles := hsound.length_idles hquiet
    rw [show dealings.pool.store.size - dealings.pool.store.idles.length =
      dealings.leaking.length by omega] at hlowered
    exact hlowered

end Sound

/-! Runs without actions of the holders' own. -/

/-- Every guard gives its reference back, and so has every guard that has ended. -/
structure Plain (dealings : Dealings κ γ) : Prop where
  action_eq : ∀ name guard, dealings.pool.guards.get? name = some guard →
    guard.action = some .unreference
  lost_eq : dealings.lost = []

theorem Plain.step (hplain : before.Plain) {event : Event κ γ}
    (hlaw : undiverted before event = true) (hstep : before.step? event = some after) :
    after.Plain := by
  obtain ⟨haction, hlost⟩ := hplain
  cases event with
  | get key mode | tryGet key mode | look key | evict key | turn evictor =>
      cases hstep
      exact ⟨haction, hlost⟩
  | onRelease name => cases hlaw
  | grant index name =>
      obtain ⟨id, stage, mode, store, -, -, -, rfl⟩ := grant?_eq_some hstep
      exact ⟨Table.forall_insert (Table.forall_erase haction name) rfl, hlost⟩
  | giveUp index =>
      obtain ⟨id, stage, -, rfl⟩ := giveUp?_eq_some hstep
      exact ⟨haction, hlost⟩
  | giveBack index =>
      obtain ⟨id, stage, -, rfl⟩ := giveBack?_eq_some hstep
      exact ⟨haction, hlost⟩
  | downgrade name =>
      cases hstep
      unfold Pool.downgrade
      split
      next id action hguard =>
        have hkept : action = some .unreference := haction name _ hguard
        exact ⟨Table.forall_insert (Table.forall_erase haction name) hkept, hlost⟩
      next => exact ⟨haction, hlost⟩
  | drop name =>
      simp only [step?, drop?, Option.bind_eq_bind, Option.bind_eq_some_iff] at hstep
      obtain ⟨guard, hguard, hstep⟩ := hstep
      simp only [haction name guard hguard, Option.some.injEq] at hstep
      cases hstep
      exact ⟨Table.forall_erase haction name, hlost⟩

theorem plain_of_reaches {options : LockPoolOptions} {later : Dealings κ γ}
    (hreaches : Runs.Reaches step? undiverted (start options) later) : later.Plain := by
  refine hreaches.invariant Plain ⟨fun _ _ hguard => ?_, rfl⟩
    fun hplain hlaw hstep => hplain.step hlaw hstep
  cases hguard

/-! The pool's own operations, one after another. -/

/-- What a holder of guards does, with names for new guards that no guard has. -/
inductive Deal (κ γ : Type) where
  | get (name : γ) (key : κ) (mode : LockMode)
  | tryGet (name : γ) (key : κ) (mode : LockMode)
  | downgrade (name : γ)
  | onRelease (name : γ)
  | drop (name : γ)

def Deal.perform? (pool : Pool κ γ) : Deal κ γ → Option (Pool κ γ)
  | get name key mode =>
      if (pool.guards.get? name).isSome then none else pool.get? name key mode
  | tryGet name key mode =>
      if (pool.guards.get? name).isSome then none else some (pool.tryGet name key mode).2
  | downgrade name => some (pool.downgrade name).2
  | onRelease name => some (pool.onRelease name .custom)
  | drop name => some (pool.drop name)

theorem reaches_step {event : Event κ γ} (hstep : before.step? event = some after) :
    Reaches before after :=
  .single ⟨event, rfl, hstep⟩

theorem endures_reaches (dealings : Dealings κ γ) : Endures fun store =>
    Reaches dealings { dealings with pool := { dealings.pool with store } } where
  look := fun key hreaches => hreaches.tail ⟨.look key, rfl, rfl⟩
  evict := fun key hreaches => hreaches.tail ⟨.evict key, rfl, rfl⟩

theorem reaches_nudge (dealings : Dealings κ γ) :
    Reaches dealings { dealings with pool := dealings.pool.nudge } := by
  unfold Pool.nudge
  split
  next =>
    have hwork := (endures_reaches dealings).work (fun store => store.keys.keys)
      (dealings.pool.size + 1) dealings.pool.evictor .refl
    exact hwork.tail ⟨.turn _, rfl, rfl⟩
  next => exact .refl

section

variable {pool next : Pool κ γ} {lost : List Nat} {key : κ} {mode : LockMode}

omit [DecidableEq γ] in
theorem guards_nudge (pool : Pool κ γ) : pool.nudge.guards = pool.guards := by
  unfold Pool.nudge
  split <;> rfl

omit [DecidableEq γ] in
theorem guards_reference (pool : Pool κ γ) (key : κ) :
    (pool.reference key).2.guards = pool.guards :=
  guards_nudge _

theorem reaches_reference {event : Event κ γ}
    (hevent : step? ⟨pool, [], lost⟩ event = some (refer ⟨pool, [], lost⟩ key stage)) :
    Reaches ⟨pool, [], lost⟩ ⟨(pool.reference key).2, [((pool.reference key).1, stage)], lost⟩ :=
  (reaches_step hevent).trans (reaches_nudge _)

theorem reaches_grant (hsought : stage.sought? = some mode)
    (hfree : pool.guards.get? name = none) (hgrant : pool.grant? name id mode = some next) :
    Reaches ⟨pool, [(id, stage)], lost⟩ ⟨next, [], lost⟩ := by
  have hstep : step? ⟨pool, [(id, stage)], lost⟩ (.grant 0 name) = some ⟨next, [], lost⟩ := by
    simp [step?, grant?, hsought, hfree, hgrant]
  exact reaches_step hstep

theorem reaches_unreference (hstage : stage = .failed ∨ stage = .dropped) :
    Reaches ⟨pool, [(id, stage)], lost⟩ ⟨pool.unreference id, [], lost⟩ := by
  have hstep : step? ⟨pool, [(id, stage)], lost⟩ (.giveBack 0) =
      some ⟨{ pool with store := (pool.store.unreference id).2 }, [], lost⟩ := by
    simp [step?, giveBack?, hstage]
  unfold Pool.unreference
  dsimp only
  split
  next => exact (reaches_step hstep).trans (reaches_nudge _)
  next => exact reaches_step hstep

theorem reaches_tryGet (hfree : pool.guards.get? name = none) :
    Reaches ⟨pool, [], lost⟩ ⟨(pool.tryGet name key mode).2, [], lost⟩ := by
  have hreferred : Reaches ⟨pool, [], lost⟩
      ⟨(pool.reference key).2, [((pool.reference key).1, .trying mode)], lost⟩ :=
    reaches_reference (show step? _ (.tryGet key mode) = _ from rfl)
  rw [← guards_reference pool key] at hfree
  unfold Pool.tryGet
  dsimp only
  split
  next hgrant => exact hreferred.trans (reaches_grant rfl hfree hgrant)
  next =>
    have hstep : step? ⟨(pool.reference key).2, [((pool.reference key).1, .trying mode)], lost⟩
        (.giveUp 0) = some ⟨(pool.reference key).2, [((pool.reference key).1, .failed)], lost⟩ := rfl
    exact (hreferred.trans (reaches_step hstep)).trans (reaches_unreference (.inl rfl))

theorem exists_reaches_drop (pool : Pool κ γ) (lost : List Nat) (name : γ) :
    ∃ later, Reaches ⟨pool, [], lost⟩ ⟨pool.drop name, [], later⟩ := by
  unfold Pool.drop
  cases hguard : pool.guards.get? name with
  | none => exact ⟨lost, .refl⟩
  | some guard =>
      unfold Pool.letGo
      dsimp only
      split
      next haction =>
        have hstep : step? ⟨pool, [], lost⟩ (.drop name) = some ⟨{ pool with
            store := pool.store.releaseLock guard.lock guard.mode
            guards := pool.guards.erase name }, [(guard.lock, .dropped)], lost⟩ := by
          simp [step?, drop?, hguard, haction]
        exact ⟨lost, (reaches_step hstep).trans (reaches_unreference (.inr rfl))⟩
      next haction =>
        have hstep : step? ⟨pool, [], lost⟩ (.drop name) = some ⟨{ pool with
            store := pool.store.releaseLock guard.lock guard.mode
            guards := pool.guards.erase name }, [], lost ++ [guard.lock]⟩ := by
          simp [step?, drop?, hguard]
        exact ⟨lost ++ [guard.lock], reaches_step hstep⟩

theorem exists_reaches_deal {deal : Deal κ γ} (hdeal : deal.perform? pool = some next)
    (lost : List Nat) : ∃ later, Reaches ⟨pool, [], lost⟩ ⟨next, [], later⟩ := by
  cases deal with
  | get name key mode =>
      simp only [Deal.perform?] at hdeal
      split at hdeal
      next => cases hdeal
      next hfree =>
        have hfree : pool.guards.get? name = none := by simpa using hfree
        rw [← guards_reference pool key] at hfree
        exact ⟨lost, (reaches_reference (show step? _ (.get key mode) = _ from rfl)).trans
          (reaches_grant rfl hfree hdeal)⟩
  | tryGet name key mode =>
      simp only [Deal.perform?] at hdeal
      split at hdeal
      next => cases hdeal
      next hfree =>
        cases hdeal
        exact ⟨lost, reaches_tryGet (by simpa using hfree)⟩
  | downgrade name =>
      cases hdeal
      exact ⟨lost, reaches_step (show step? _ (.downgrade name) = _ from rfl)⟩
  | onRelease name =>
      cases hdeal
      exact ⟨lost, reaches_step (show step? _ (.onRelease name) = _ from rfl)⟩
  | drop name =>
      cases hdeal
      exact exists_reaches_drop pool lost name

theorem exists_reaches_deals {deals : List (Deal κ γ)}
    (hdeals : deals.foldlM Deal.perform? pool = some next) (lost : List Nat) :
    ∃ later, Reaches ⟨pool, [], lost⟩ ⟨next, [], later⟩ := by
  induction deals generalizing pool lost with
  | nil =>
      cases hdeals
      exact ⟨lost, .refl⟩
  | cons deal deals ih =>
      rw [List.foldlM_cons, Option.bind_eq_bind, Option.bind_eq_some_iff] at hdeals
      obtain ⟨middle, hdeal, hdeals⟩ := hdeals
      obtain ⟨later, hfirst⟩ := exists_reaches_deal hdeal lost
      obtain ⟨last, hrest⟩ := ih hdeals later
      exact ⟨last, hfirst.trans hrest⟩

end

/-- Whatever callers and the evictor do: the count of an entry is that of its guards, of the references
on their way and of the guards that ended with an action of their holder's, each of which costs the
entry a reference for good. So the entry of a key can go once its guards have ended, and the pool comes
down to its low watermark, but for the keys with such a guard. There is none where nobody sets an
action. The pool's own operations, one after another, are such a run. -/
theorem accounted_of_reaches (options : LockPoolOptions) :
    (∀ later : Dealings κ γ, Reaches (start options) later → later.Accounted) ∧
    (∀ later : Dealings κ γ, Runs.Reaches step? undiverted (start options) later →
      later.lost = []) ∧
    ∀ (deals : List (Deal κ γ)) (pool : Pool κ γ),
      deals.foldlM Deal.perform? (Pool.start options) = some pool →
      ∃ lost, Accounted { pool, lost } := by
  refine ⟨fun later hreaches => ?_, fun later hreaches => ?_, fun deals pool hdeals => ?_⟩
  · exact (sound_of_reaches hreaches).accounted
  · exact (plain_of_reaches hreaches).lost_eq
  · obtain ⟨lost, hreaches⟩ := exists_reaches_deals hdeals []
    exact ⟨lost, (sound_of_reaches hreaches).accounted⟩

def narrow : LockPoolOptions := { lowWatermark := 0, highWatermark := 1 }

/-- A guard whose holder sets an action, one whose holder does not, and a call that gives up. -/
def mixed : List (Event Nat Nat) :=
  [.get 10 .write, .grant 0 1, .onRelease 1, .get 20 .read, .grant 0 2, .tryGet 10 .read,
    .giveUp 0, .giveBack 0, .drop 1, .drop 2, .giveBack 0]

def unset : List (Event Nat Nat) := [.get 10 .write, .grant 0 1, .drop 1, .giveBack 0]

/-- Two guards whose holders set actions. -/
def ownActions : List (Deal Nat Nat) :=
  [.get 1 10 .write, .onRelease 1, .get 2 20 .write, .onRelease 2, .drop 1, .drop 2]

theorem accounted_of_mixed :
    (∃ later, Runs.run? step? anyhow mixed (start narrow) = some later ∧ later.lost = [0] ∧
      later.pool.store.removeIdle 10 = (false, later.pool.store) ∧
      ((later.pool.store.clearAccessed 20).2.removeIdle 20).1 = true ∧
      (Evictor.round (fun store => store.keys.keys) {} later.pool.store).2.size = 1) ∧
    (∃ later, Runs.run? step? undiverted unset (start narrow) = some later ∧ later.lost = []) ∧
    ∃ pool lost, ownActions.foldlM Deal.perform? (Pool.start narrow) = some pool ∧
      Accounted { pool, lost } := by
  obtain ⟨haccounted, hlost, hdeals⟩ := accounted_of_reaches (κ := Nat) (γ := Nat) narrow
  refine ⟨?_, ?_, ?_⟩
  · let shown (later : Dealings Nat Nat) :=
      ((later.lost, later.leaking.length), later.pool.store.lookup? 10, later.pool.store.lookup? 20)
    let quiet (later : Dealings Nat Nat) :=
      (later.pool.guards.pairs.length, later.pending.length, later.pool.store.isOverfull,
        later.pool.store.lowWatermark)
    have hruns : (Runs.run? step? anyhow mixed (start narrow)).map
        (fun later => (shown later, quiet later)) =
          some ((([0], 1), some 0, some 1), (0, 0, true, 0)) := by decide
    obtain ⟨later, hrun, hshown⟩ := Option.map_eq_some_iff.mp hruns
    simp only [shown, quiet, Prod.mk.injEq] at hshown
    obtain ⟨⟨⟨hlostOnes, hleaking⟩, hfirst, hsecond⟩, hguards, hpending, hoverfull, hlow⟩ := hshown
    have hlater := haccounted later (Runs.reaches_of_run? hrun)
    have hquiet : ∀ id, later.guardsOn id = 0 ∧ later.pendingOn id = 0 := by
      intro id
      rw [guardsOn, List.eq_nil_of_length_eq_zero hguards, pendingOn,
        List.eq_nil_of_length_eq_zero hpending]
      exact ⟨rfl, rfl⟩
    have hfew : later.lostOn 0 = 1 ∧ later.lostOn 1 = 0 := by
      rw [lostOn, lostOn, hlostOnes]
      decide
    refine ⟨later, hrun, hlostOnes, ?_, ?_, ?_⟩
    · exact hlater.kept 10 0 hfirst (by rw [hfew.1]; exact Nat.one_pos)
    · exact (hlater.dropped 20 1 hsecond (hquiet 1).1 (hquiet 1).2 hfew.2).1
    · rw [hlater.lowered hquiet hoverfull (by rw [hlow]; exact Nat.zero_le _) _ _ fun _ => .refl _,
        hlow, hleaking]
      rfl
  · have hruns : (Runs.run? step? undiverted unset (start narrow)).isSome := by decide
    obtain ⟨later, hrun⟩ := Option.isSome_iff_exists.mp hruns
    exact ⟨later, hrun, hlost later (Runs.reaches_of_run? hrun)⟩
  · have hpools : (ownActions.foldlM Deal.perform? (Pool.start narrow)).isSome := by decide
    obtain ⟨pool, hpool⟩ := Option.isSome_iff_exists.mp hpools
    obtain ⟨lost, hpoolAccounted⟩ := hdeals ownActions pool hpool
    exact ⟨pool, lost, hpool, hpoolAccounted⟩

/-- No guard is left, and yet both entries are referred to, and the pool stays overfull. -/
theorem leaks_of_ownActions :
    ∃ pool, ownActions.foldlM Deal.perform? (Pool.start narrow) = some pool ∧
      pool.guards.pairs = [] ∧
      (pool.store.entryOf? 10).map Entry.references = some 1 ∧
      (pool.store.entryOf? 20).map Entry.references = some 1 ∧
      pool.store.isOverfull = true ∧ pool.nudge.size = 2 := by
  let shown (pool : Pool Nat Nat) := (pool.guards.pairs.length,
    (pool.store.entryOf? 10).map Entry.references, (pool.store.entryOf? 20).map Entry.references,
    pool.store.isOverfull, pool.nudge.size)
  have hdeals : (ownActions.foldlM Deal.perform? (Pool.start narrow)).map shown =
      some (0, some 1, some 1, true, 2) := by decide
  obtain ⟨pool, hpool, hshown⟩ := Option.map_eq_some_iff.mp hdeals
  simp only [shown, Prod.mk.injEq] at hshown
  obtain ⟨hnone, hfirst, hsecond, hoverfull, hsize⟩ := hshown
  exact ⟨pool, hpool, List.eq_nil_of_length_eq_zero hnone, hfirst, hsecond, hoverfull, hsize⟩

end Dealings

end Pooling.LockPool
