import Pooling.Proofs.LockPool.Idle
import Pooling.Proofs.LockPool.Safety
import Pooling.Proofs.Tables

/-!
What the keys of a lock pool have for entries, and what the evictor's two steps do to these.
-/

namespace Pooling.LockPool

variable {κ : Type} [DecidableEq κ]

/-- An entry, as far as anybody but the evictor can tell. -/
def Entry.unmarked (entry : Entry) : Entry := { entry with accessed := false }

namespace Store

/-- The entry of a key. -/
def entryOf? (store : Store κ) (key : κ) : Option Entry := (store.lookup? key).bind store.entry?

/-- The keys whose entries nobody refers to. -/
def idles (store : Store κ) : List κ :=
  store.keys.keys.filter fun key => (store.idle? key).isSome

/-- Every key has one entry, which no other key has. -/
structure Formed (store : Store κ) : Prop where
  nodup_keys : store.keys.keys.Nodup
  isSome_entry : ∀ key id, store.lookup? key = some id → (store.entry? id).isSome
  key_unique : ∀ first second id, store.lookup? first = some id →
    store.lookup? second = some id → first = second

variable {store : Store κ} {key other : κ} {used : Bool}

theorem mem_keys_iff : key ∈ store.keys.keys ↔ (store.lookup? key).isSome :=
  (Table.contains_iff_mem_keys store.keys key).symm

theorem entryOf?_eq_some_iff {entry : Entry} : store.entryOf? key = some entry ↔
    ∃ id, store.lookup? key = some id ∧ store.entry? id = some entry :=
  Option.bind_eq_some_iff

theorem entryOf?_of_lookup {id : Nat} (hlookup : store.lookup? key = some id) :
    store.entryOf? key = store.entry? id := by
  rw [entryOf?, hlookup, Option.bind_some]

theorem entryOf?_of_none (hlookup : store.lookup? key = none) : store.entryOf? key = none := by
  rw [entryOf?, hlookup, Option.bind_none]

theorem mem_keys_of_entryOf? {entry : Entry} (hentry : store.entryOf? key = some entry) :
    key ∈ store.keys.keys := by
  obtain ⟨id, hlookup, -⟩ := entryOf?_eq_some_iff.mp hentry
  rw [mem_keys_iff, hlookup]
  rfl

theorem exists_entryOf? (hidle : store.idle? key = some used) :
    ∃ entry, store.entryOf? key = some entry ∧ entry.references = 0 ∧ entry.accessed = used := by
  obtain ⟨id, entry, hlookup, hentry, hzero, hused⟩ := idle?_eq_some_iff.mp hidle
  exact ⟨entry, entryOf?_eq_some_iff.mpr ⟨id, hlookup, hentry⟩, hzero, hused⟩

theorem mem_keys_of_idle? (hidle : store.idle? key = some used) : key ∈ store.keys.keys := by
  obtain ⟨entry, hentry, -⟩ := exists_entryOf? hidle
  exact mem_keys_of_entryOf? hentry

theorem mem_idles_iff : key ∈ store.idles ↔ (store.idle? key).isSome := by
  rw [idles, List.mem_filter]
  refine ⟨fun hboth => hboth.2, fun hidle => ⟨?_, hidle⟩⟩
  obtain ⟨used, hidle⟩ := Option.isSome_iff_exists.mp hidle
  exact mem_keys_of_idle? hidle

/-! Looking at a key. -/

theorem keys_clearAccessed (store : Store κ) (key : κ) :
    (store.clearAccessed key).2.keys = store.keys := by
  unfold clearAccessed
  split <;> rfl

theorem fst_clearAccessed (store : Store κ) (key : κ) :
    (store.clearAccessed key).1 = (store.entryOf? key).map Entry.accessed := by
  unfold clearAccessed
  cases hlookup : store.lookup? key with
  | none => rw [entryOf?_of_none hlookup, Option.map_none]
  | some id => rw [entryOf?_of_lookup hlookup]

/-- Looking at a key forgets that its entry was used again, and does nothing else. -/
theorem Formed.entryOf?_clearAccessed (hformed : store.Formed) (key other : κ) :
    (store.clearAccessed key).2.entryOf? other =
      if other = key then (store.entryOf? key).map Entry.unmarked else store.entryOf? other := by
  cases hkey : store.lookup? key with
  | none =>
      have hsame : (store.clearAccessed key).2 = store := by rw [clearAccessed, hkey]
      rw [hsame, entryOf?_of_none hkey, Option.map_none]
      split
      next heq => rw [heq, entryOf?_of_none hkey]
      next => rfl
  | some id =>
      have hcleared : (store.clearAccessed key).2 =
          store.modifyEntry id fun entry => { entry with accessed := false } := by
        rw [clearAccessed, hkey]
      cases hother : store.lookup? other with
      | none =>
          have hne : other ≠ key := by
            rintro rfl
            rw [hkey] at hother
            cases hother
          rw [if_neg hne, entryOf?_of_none hother]
          exact entryOf?_of_none ((store.lookup?_clearAccessed key other).trans hother)
      | some found =>
          have hlookup := (store.lookup?_clearAccessed key other).trans hother
          rw [entryOf?_of_lookup hlookup, hcleared, entry?_modifyEntry, entryOf?_of_lookup hkey,
            entryOf?_of_lookup hother]
          by_cases heq : other = key
          · subst heq
            rw [hkey, Option.some.injEq] at hother
            rw [if_pos hother.symm, if_pos rfl, hother]
            rfl
          · have hne : found ≠ id := fun hid =>
              heq (hformed.key_unique other key id (hid ▸ hother) hkey)
            rw [if_neg hne, if_neg heq]

theorem Formed.clearAccessed (hformed : store.Formed) (key : κ) :
    (store.clearAccessed key).2.Formed where
  nodup_keys := by
    rw [keys_clearAccessed]
    exact hformed.nodup_keys
  isSome_entry := by
    intro other id hlookup
    rw [lookup?_clearAccessed] at hlookup
    have hsome := hformed.isSome_entry other id hlookup
    unfold Store.clearAccessed
    split
    next => exact hsome
    next =>
      rw [entry?_modifyEntry]
      split
      next => rwa [Option.isSome_map]
      next => exact hsome
  key_unique := by
    intro first second id hfirst hsecond
    rw [lookup?_clearAccessed] at hfirst hsecond
    exact hformed.key_unique first second id hfirst hsecond

theorem Formed.idle?_clearAccessed (hformed : store.Formed) (key other : κ) :
    (store.clearAccessed key).2.idle? other =
      if other = key then (store.idle? key).map fun _ => false else store.idle? other := by
  rw [idle?, ← entryOf?, hformed.entryOf?_clearAccessed]
  by_cases heq : other = key
  · rw [if_pos heq, if_pos heq, idle?, ← entryOf?]
    cases store.entryOf? key with
    | none => rfl
    | some entry => by_cases hzero : entry.references = 0 <;> simp [Entry.unmarked, hzero]
  · rw [if_neg heq, if_neg heq]
    rfl

theorem Formed.idles_clearAccessed (hformed : store.Formed) (key : κ) :
    (store.clearAccessed key).2.idles = store.idles := by
  rw [idles, idles, keys_clearAccessed]
  apply List.filter_congr
  intro other hmem
  rw [hformed.idle?_clearAccessed]
  split
  next heq => rw [Option.isSome_map, heq]
  next => rfl

/-! Dropping a key. -/

/-- A key is dropped if its entry is idle and was not used again. -/
theorem fst_removeIdle (store : Store κ) (key : κ) :
    (store.removeIdle key).1 = true ↔ store.idle? key = some false := by
  refine ⟨fun hdropped => ?_, fun hidle => ?_⟩
  · unfold removeIdle at hdropped
    cases hlookup : store.lookup? key with
    | none => simp [hlookup] at hdropped
    | some id =>
        rw [hlookup] at hdropped
        by_cases hevictable : isEvictable ((store.entry? id).getD {}) = true
        · cases hentry : store.entry? id with
          | none => simp [hentry, isEvictable] at hevictable
          | some entry =>
              simp only [hentry, Option.getD_some, isEvictable, Bool.and_eq_true,
                Bool.not_eq_true', decide_eq_true_eq] at hevictable
              exact idle?_eq_some_iff.mpr
                ⟨id, entry, hlookup, hentry, hevictable.2, hevictable.1⟩
        · simp [hevictable] at hdropped
  · cases hdropped : (store.removeIdle key).1 with
    | true => rfl
    | false => exact absurd hidle (removeIdle_spared hdropped).2

theorem removeIdle_of_busy (hbusy : store.idle? key ≠ some false) :
    store.removeIdle key = (false, store) := by
  have hspared : (store.removeIdle key).1 = false :=
    eq_false_of_ne_true fun hdropped => hbusy ((store.fst_removeIdle key).mp hdropped)
  exact Prod.ext hspared (removeIdle_spared hspared).1

theorem removeIdle_of_idle (hidle : store.idle? key = some false) : ∃ id,
    store.lookup? key = some id ∧
      (store.removeIdle key).2 =
        { store.modifyEntry id (fun entry => { entry with references := claimed }) with
          keys := store.keys.erase key } := by
  obtain ⟨id, entry, hlookup, hentry, hzero, hused⟩ := idle?_eq_some_iff.mp hidle
  have hevictable : isEvictable ((store.entry? id).getD {}) = true := by
    simp [hentry, isEvictable, hzero, hused]
  refine ⟨id, hlookup, ?_⟩
  rw [removeIdle, hlookup]
  simp only [if_pos hevictable]

section

variable (hidle : store.idle? key = some false)
include hidle

theorem keys_removeIdle : (store.removeIdle key).2.keys = store.keys.erase key := by
  obtain ⟨id, -, hafter⟩ := removeIdle_of_idle hidle
  rw [hafter]

theorem lookup?_removeIdle (other : κ) : (store.removeIdle key).2.lookup? other =
    if other = key then none else store.lookup? other := by
  rw [lookup?, keys_removeIdle hidle]
  exact Table.get?_erase store.keys key other

theorem size_removeIdle (hnodup : store.keys.keys.Nodup) :
    (store.removeIdle key).2.size + 1 = store.size := by
  rw [size, keys_removeIdle hidle]
  exact Table.size_erase hnodup
    ((Table.contains_iff_mem_keys _ _).mpr (mem_keys_of_idle? hidle))

/-- No other key loses anything. -/
theorem Formed.entryOf?_removeIdle (hformed : store.Formed) (other : κ) :
    (store.removeIdle key).2.entryOf? other =
      if other = key then none else store.entryOf? other := by
  obtain ⟨id, hlookup, hafter⟩ := removeIdle_of_idle hidle
  by_cases heq : other = key
  · rw [if_pos heq]
    exact entryOf?_of_none ((lookup?_removeIdle hidle other).trans (if_pos heq))
  · have hsame := (lookup?_removeIdle hidle other).trans (if_neg heq)
    rw [if_neg heq]
    cases hother : store.lookup? other with
    | none => rw [entryOf?_of_none (hsame.trans hother), entryOf?_of_none hother]
    | some found =>
        have hne : found ≠ id := fun hid =>
          heq (hformed.key_unique other key id (hid ▸ hother) hlookup)
        rw [entryOf?_of_lookup (hsame.trans hother), entryOf?_of_lookup hother, hafter]
        exact (sameBut_modifyEntry store id _).entry_eq found hne

theorem Formed.removeIdle (hformed : store.Formed) : (store.removeIdle key).2.Formed where
  nodup_keys := by
    rw [keys_removeIdle hidle]
    exact Table.nodup_keys_erase hformed.nodup_keys key
  isSome_entry := by
    intro other id hother
    rw [lookup?_removeIdle hidle] at hother
    split at hother
    next => cases hother
    next =>
      obtain ⟨found, -, hafter⟩ := removeIdle_of_idle hidle
      have hsome := hformed.isSome_entry other id hother
      rw [hafter]
      show (Store.entry? (store.modifyEntry found _) id).isSome
      rw [entry?_modifyEntry]
      split
      next => rwa [Option.isSome_map]
      next => exact hsome
  key_unique := by
    intro first second id hfirst hsecond
    rw [lookup?_removeIdle hidle] at hfirst hsecond
    split at hfirst
    next => cases hfirst
    next =>
      split at hsecond
      next => cases hsecond
      next => exact hformed.key_unique first second id hfirst hsecond

theorem Formed.idle?_removeIdle (hformed : store.Formed) (other : κ) :
    (store.removeIdle key).2.idle? other = if other = key then none else store.idle? other := by
  rw [idle?, ← entryOf?, hformed.entryOf?_removeIdle hidle]
  split <;> rfl

/-- One idle entry less. -/
theorem Formed.length_idles_removeIdle (hformed : store.Formed) :
    (store.removeIdle key).2.idles.length + 1 = store.idles.length := by
  have hnodup : store.idles.Nodup := hformed.nodup_keys.filter _
  have hmem : key ∈ store.idles := mem_idles_iff.mpr (by rw [hidle]; rfl)
  have hpos : 0 < store.idles.length := List.length_pos_of_mem hmem
  have hless : (store.removeIdle key).2.idles = store.idles.erase key := by
    rw [hnodup.erase_eq_filter, idles, keys_removeIdle hidle, Table.keys_erase, idles,
      List.filter_filter, List.filter_filter]
    apply List.filter_congr
    intro other hother
    rw [hformed.idle?_removeIdle hidle]
    by_cases heq : other = key
    · simp [heq]
    · simp [heq]
  rw [hless, List.length_erase_of_mem hmem]
  omega

end

theorem nodup_keys_removeIdle (hnodup : store.keys.keys.Nodup) (key : κ) :
    (store.removeIdle key).2.keys.keys.Nodup := by
  by_cases hidle : store.idle? key = some false
  · rw [keys_removeIdle hidle]
    exact Table.nodup_keys_erase hnodup key
  · rw [removeIdle_of_busy hidle]
    exact hnodup

theorem nodup_keys_reference (hnodup : store.keys.keys.Nodup) (key : κ) :
    (store.reference key).2.keys.keys.Nodup := by
  unfold reference
  split
  next => exact Table.nodup_keys_insert hnodup key _
  next =>
    dsimp only
    split
    next => exact hnodup
    next => exact Table.nodup_keys_insert hnodup key _

omit [DecidableEq κ] in
theorem keys_takeLock? {id : Nat} {mode : LockMode} {after : Store κ}
    (htake : store.takeLock? id mode = some after) : after.keys = store.keys := by
  simp only [takeLock?, Option.bind_eq_bind, Option.bind_eq_some_iff, Option.some.injEq] at htake
  obtain ⟨entry, -, lock, -, rfl⟩ := htake
  rfl

end Store

omit [DecidableEq κ] in
theorem Act.keys_perform? {act : Act} {store after : Store κ} {reference : Reference κ}
    {stage : Stage} (hperform : act.perform? store reference = some (after, stage)) :
    after.keys = store.keys := by
  have hgrant : ∀ {mode : LockMode}, ((store.takeLock? reference.id mode).map fun store =>
      (store, Stage.holding mode)) = some (after, stage) → after.keys = store.keys := by
    intro mode hgranted
    obtain ⟨taken, htaken, heq⟩ := Option.map_eq_some_iff.mp hgranted
    cases heq
    exact Store.keys_takeLock? htaken
  unfold perform? at hperform
  split at hperform
  next => exact hgrant hperform
  next => exact hgrant hperform
  next =>
    cases hperform
    rfl
  next =>
    cases hperform
    rfl
  next =>
    cases hperform
    rfl
  next => cases hperform

namespace System

variable {before after : System κ} {event : Event κ}

theorem nodup_keys_step (hnodup : before.store.keys.keys.Nodup)
    (hstep : before.step? event = some after) : after.store.keys.keys.Nodup := by
  cases event with
  | get key mode | tryGet key mode =>
      cases hstep
      exact Store.nodup_keys_reference hnodup key
  | act index act =>
      simp only [step?, Option.bind_eq_bind, Option.bind_eq_some_iff, Option.some.injEq] at hstep
      obtain ⟨reference, -, ⟨store, stage⟩, hperform, rfl⟩ := hstep
      show store.keys.keys.Nodup
      rw [Act.keys_perform? hperform]
      exact hnodup
  | undo index =>
      simp only [step?, Option.bind_eq_bind, Option.bind_eq_some_iff] at hstep
      obtain ⟨reference, -, hstep⟩ := hstep
      split at hstep
      next =>
        cases hstep
        exact hnodup
      next => cases hstep
  | look key =>
      cases hstep
      show (before.store.clearAccessed key).2.keys.keys.Nodup
      rw [Store.keys_clearAccessed]
      exact hnodup
  | evict key =>
      cases hstep
      exact Store.nodup_keys_removeIdle hnodup key

/-- Only the evictor makes a pool smaller, and only where it drops a key. -/
theorem grown_step (hkeeps : ∀ key, event ≠ .evict key) (hstep : before.step? event = some after) :
    before.store.Grown after.store := by
  cases event with
  | get key mode | tryGet key mode =>
      cases hstep
      exact Store.grown_reference before.store key
  | act index act =>
      simp only [step?, Option.bind_eq_bind, Option.bind_eq_some_iff, Option.some.injEq] at hstep
      obtain ⟨reference, -, ⟨store, stage⟩, hperform, rfl⟩ := hstep
      exact (Store.calm_perform? hperform).toGrown
  | undo index =>
      simp only [step?, Option.bind_eq_bind, Option.bind_eq_some_iff] at hstep
      obtain ⟨reference, -, hstep⟩ := hstep
      split at hstep
      next =>
        cases hstep
        exact ⟨Nat.le_refl _, rfl, rfl⟩
      next => cases hstep
  | look key =>
      cases hstep
      exact Store.grown_clearAccessed before.store key
  | evict key => exact absurd rfl (hkeeps key)

/-- Whatever callers and the evictor do, every key keeps an entry to itself. -/
theorem formed_of_reaches {lowWatermark highWatermark : Nat} {system : System κ}
    (hreaches : Reaches (start lowWatermark highWatermark) system) : system.store.Formed where
  nodup_keys := hreaches.invariant (fun system => system.store.keys.keys.Nodup) List.nodup_nil
    fun hnodup _ hstep => nodup_keys_step hnodup hstep
  isSome_entry := by
    intro key id hlookup
    obtain ⟨entry, hentry, -⟩ := hreaches.sound.agrees key id hlookup
    rw [hentry]
    rfl
  key_unique := hreaches.sound.key_unique

end System

end Pooling.LockPool
