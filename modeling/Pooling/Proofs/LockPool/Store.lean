import Pooling.LockPool.Entry
import Pooling.Proofs.Locks.Holders

/-!
What each operation does to the store of a lock pool: all but two of them change one entry, and
leave every key and every other entry as they were.
-/

namespace Pooling

namespace LockPool.Store

variable {κ : Type} [DecidableEq κ] {store : Store κ}

/-- Two stores that differ in one entry at most. -/
structure SameBut (id : Nat) (before after : Store κ) : Prop where
  lookup_eq : ∀ key, after.lookup? key = before.lookup? key
  next_eq : after.next = before.next
  entry_eq : ∀ other, other ≠ id → after.entry? other = before.entry? other

theorem SameBut.refl (id : Nat) (store : Store κ) : SameBut id store store :=
  ⟨fun _ => rfl, rfl, fun _ _ => rfl⟩

theorem SameBut.trans {id : Nat} {first second third : Store κ} (hfirst : SameBut id first second)
    (hsecond : SameBut id second third) : SameBut id first third where
  lookup_eq := fun key => (hsecond.lookup_eq key).trans (hfirst.lookup_eq key)
  next_eq := hsecond.next_eq.trans hfirst.next_eq
  entry_eq := fun other hother =>
    (hsecond.entry_eq other hother).trans (hfirst.entry_eq other hother)

omit [DecidableEq κ] in
theorem entry?_modifyEntry (store : Store κ) (id other : Nat) (change : Entry → Entry) :
    entry? (store.modifyEntry id change) other =
      if other = id then (store.entry? other).map change else store.entry? other :=
  Table.get?_modify _ _ _ _

theorem sameBut_modifyEntry (store : Store κ) (id : Nat) (change : Entry → Entry) :
    SameBut id store (store.modifyEntry id change) where
  lookup_eq := fun _ => rfl
  next_eq := rfl
  entry_eq := fun other hother => by rw [entry?_modifyEntry, if_neg hother]

omit [DecidableEq κ] in
theorem entry?_modifyEntry_self {id : Nat} {entry : Entry} (hentry : store.entry? id = some entry)
    (change : Entry → Entry) :
    entry? (store.modifyEntry id change) id = some (change entry) := by
  rw [entry?_modifyEntry, if_pos rfl, hentry]
  rfl

theorem reference_of_lookup {key : κ} {id : Nat} {entry : Entry}
    (hlookup : store.lookup? key = some id) (hentry : store.entry? id = some entry)
    (hcount : 0 ≤ entry.references) :
    (store.reference key).1 = id ∧ SameBut id store (store.reference key).2 ∧
      entry? (store.reference key).2 id =
        some { entry with references := entry.references + 1, accessed := true } := by
  have hgood : 0 ≤ ((store.entry? id).getD {}).references := by rwa [hentry]
  have hreference : store.reference key = (id, (store.modifyEntry id fun entry =>
      { entry with references := entry.references + 1 }).modifyEntry id fun entry =>
        { entry with accessed := true }) := by
    rw [reference, hlookup]
    exact if_pos hgood
  rw [hreference]
  refine ⟨rfl, (sameBut_modifyEntry _ _ _).trans (sameBut_modifyEntry _ _ _), ?_⟩
  exact entry?_modifyEntry_self ( entry?_modifyEntry_self hentry _) _

/-- A count that shows its sign costs the entry its key. -/
theorem reference_of_negative {key : κ} {id : Nat} {entry : Entry}
    (hlookup : store.lookup? key = some id) (hentry : store.entry? id = some entry)
    (hcount : ¬ 0 ≤ entry.references) :
    ∃ counted, SameBut id store counted ∧ store.reference key = counted.addEntry key := by
  have hbad : ¬ 0 ≤ ((store.entry? id).getD {}).references := by rwa [hentry]
  refine ⟨_, sameBut_modifyEntry store id fun entry =>
    { entry with references := entry.references + 1 }, ?_⟩
  rw [reference, hlookup]
  exact if_neg hbad

theorem reference_of_none {key : κ} (hlookup : store.lookup? key = none) :
    store.reference key = store.addEntry key := by
  rw [reference, hlookup]

theorem lookup?_addEntry (store : Store κ) (key other : κ) :
    (store.addEntry key).2.lookup? other =
      if other = key then some store.next else store.lookup? other :=
  Table.get?_insert _ _ _ _

theorem entry?_addEntry (store : Store κ) (key : κ) (id : Nat) :
    entry? (store.addEntry key).2 id = if id = store.next then some {} else store.entry? id :=
  Table.get?_insert _ _ _ _

theorem takeLock?_spec {after : Store κ} {id : Nat} {mode : LockMode}
    (htake : store.takeLock? id mode = some after) :
    ∃ entry lock, store.entry? id = some entry ∧ entry.lock.take? mode = some lock ∧
      SameBut id store after ∧ after.entry? id = some { entry with lock } := by
  simp only [takeLock?, Option.bind_eq_bind, Option.bind_eq_some_iff, Option.some.injEq] at htake
  obtain ⟨entry, hentry, lock, hlock, rfl⟩ := htake
  exact ⟨entry, lock, hentry, hlock, sameBut_modifyEntry store id _,
    entry?_modifyEntry_self hentry _⟩

omit [DecidableEq κ] in
theorem takeLock?_of_entry {id : Nat} {entry : Entry} (hentry : store.entry? id = some entry)
    (mode : LockMode) :
    store.takeLock? id mode = (entry.lock.take? mode).map fun lock =>
      store.modifyEntry id fun entry => { entry with lock } := by
  simp only [takeLock?, hentry, Option.bind_eq_bind, Option.bind_some, Option.map_eq_bind]
  rfl

theorem lookup?_clearAccessed (store : Store κ) (key other : κ) :
    (store.clearAccessed key).2.lookup? other = store.lookup? other := by
  unfold clearAccessed
  split <;> rfl

/-- A key loses its entry. -/
structure Drops (before : Store κ) (key : κ) (id : Nat) (after : Store κ) : Prop where
  lookup_key : before.lookup? key = some id
  lookup_eq : ∀ other, after.lookup? other = if other = key then none else before.lookup? other
  next_eq : after.next = before.next
  entry_eq : ∀ other, other ≠ id → after.entry? other = before.entry? other

/-- A key that still has an entry is another, and so is its entry. -/
theorem Drops.kept {before after : Store κ} {dropped key : κ} {id other : Nat}
    (hdrops : before.Drops dropped id after)
    (hunique : ∀ first second found, before.lookup? first = some found →
      before.lookup? second = some found → first = second)
    (hfound : after.lookup? key = some other) :
    key ≠ dropped ∧ before.lookup? key = some other ∧ other ≠ id := by
  rw [hdrops.lookup_eq] at hfound
  split at hfound
  next => cases hfound
  next hne =>
    refine ⟨hne, hfound, fun hid => hne ?_⟩
    exact hunique key dropped id (hid ▸ hfound) hdrops.lookup_key

/-- Only an entry without references is dropped. -/
theorem removeIdle_spec (store : Store κ) (key : κ) :
    (store.removeIdle key).2 = store ∨
      ∃ id, store.Drops key id (store.removeIdle key).2 ∧
        ((store.entry? id).getD {}).references = 0 := by
  unfold removeIdle
  cases hlookup : store.lookup? key with
  | none => exact .inl rfl
  | some id =>
      by_cases hidle : isEvictable ((store.entry? id).getD {}) = true
      · simp only [if_pos hidle]
        have hzero : ((store.entry? id).getD {}).references = 0 := by
          simp only [isEvictable, Bool.and_eq_true, decide_eq_true_eq] at hidle
          exact hidle.2
        refine .inr ⟨id, ⟨hlookup, fun other => Table.get?_erase _ _ _, rfl, ?_⟩, hzero⟩
        exact (sameBut_modifyEntry store id _).entry_eq
      · left
        simp only [if_neg hidle]

end LockPool.Store

end Pooling
