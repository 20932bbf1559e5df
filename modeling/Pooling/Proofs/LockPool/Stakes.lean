import Pooling.Proofs.LockPool.Store
import Pooling.Proofs.LockPool.Sweeps
import Pooling.Proofs.LockPool.System

/-!
Stakes in the entries of a lock pool: who refers to which entry, and in which mode its lock is held.
The entry that a key has counts the stakes in it, however many there are: at the limit of its count
the key gets another entry, and the count of the old one no longer matters.
-/

namespace Pooling.LockPool

/-- A reference to an entry, and the mode its owner holds the lock in, if it does. -/
structure Stake where
  id : Nat
  mode : Option LockMode
  deriving DecidableEq

/-- The modes of those who have a stake in an entry. -/
def modesAt (stakes : List Stake) (id : Nat) : List (Option LockMode) :=
  (stakes.filter fun stake => stake.id = id).map Stake.mode

@[simp] theorem modesAt_cons_self (id : Nat) (mode : Option LockMode) (stakes : List Stake) :
    modesAt (⟨id, mode⟩ :: stakes) id = mode :: modesAt stakes id := by
  simp [modesAt]

theorem modesAt_cons_of_ne {id other : Nat} (hne : other ≠ id) (mode : Option LockMode)
    (stakes : List Stake) : modesAt (⟨id, mode⟩ :: stakes) other = modesAt stakes other := by
  simp [modesAt, hne.symm]

theorem modesAt_perm {stakes others : List Stake} (hperm : stakes.Perm others) (id : Nat) :
    (modesAt stakes id).Perm (modesAt others id) :=
  (hperm.filter _).map _

theorem modesAt_eq_nil_iff {stakes : List Stake} {id : Nat} :
    modesAt stakes id = [] ↔ ∀ stake ∈ stakes, stake.id ≠ id := by
  simp [modesAt, List.filter_eq_nil_iff]

/-- The count of an entry and the holders of its lock are those who have a stake in it. -/
structure Entry.Counts (entry : Entry) (modes : List (Option LockMode)) : Prop where
  references_eq : entry.references = Int32.ofNat modes.length
  length_le : modes.length ≤ System.countLimit
  heldBy : entry.lock.HeldBy (modes.count (some .read)) (modes.count (some .write))

namespace Entry.Counts

variable {entry : Entry} {modes : List (Option LockMode)}

theorem of_perm {others : List (Option LockMode)} (hcounts : entry.Counts modes)
    (hperm : modes.Perm others) : entry.Counts others where
  references_eq := hperm.length_eq ▸ hcounts.references_eq
  length_le := hperm.length_eq ▸ hcounts.length_le
  heldBy := by
    rw [← hperm.count_eq, ← hperm.count_eq]
    exact hcounts.heldBy

theorem eq_nil (hcounts : entry.Counts modes) (hzero : entry.references = 0) : modes = [] := by
  -- The count never gets far enough beyond the limit to come back to zero.
  have hle := hcounts.length_le
  have hofNat := hcounts.references_eq.symm.trans hzero
  have hmod : modes.length % 4294967296 = 0 := by
    have hbits := congrArg (fun count : Int32 => count.toBitVec.toNat) hofNat
    simpa using hbits
  rw [System.countLimit] at hle
  exact List.eq_nil_of_length_eq_zero (by omega)

theorem lock_eq_free (hcounts : entry.Counts []) : entry.lock = RwLock.free := by
  have hheld := hcounts.heldBy
  cases hlock : entry.lock with
  | shared count =>
      rw [hlock] at hheld
      rw [RwLock.free, ← hheld.1]
      rfl
  | exclusive =>
      rw [hlock] at hheld
      cases hheld.2

theorem length_lt (hcounts : entry.Counts modes) (hcount : 0 ≤ entry.references) :
    modes.length < System.countLimit := by
  apply Nat.lt_of_le_of_ne hcounts.length_le
  -- At the limit the count shows its sign.
  intro hlimit
  rw [hcounts.references_eq, hlimit] at hcount
  exact absurd hcount (by decide)

end Entry.Counts

namespace Store

variable {κ : Type} [DecidableEq κ] {stakes : List Stake}

/-- The entries that the keys of a store have are backed by so many stakes. -/
structure Backed (store : Store κ) (stakes : List Stake) : Prop where
  key_unique : ∀ first second id, store.lookup? first = some id →
    store.lookup? second = some id → first = second
  id_lt_next : ∀ key id, store.lookup? key = some id → id < store.next
  stake_lt_next : ∀ stake ∈ stakes, stake.id < store.next
  counts : ∀ key id, store.lookup? key = some id →
    ∃ entry, store.entry? id = some entry ∧ entry.Counts (modesAt stakes id)

theorem backed_start (lowWatermark highWatermark : Nat) :
    ({ lowWatermark, highWatermark } : Store κ).Backed [] where
  key_unique := fun _ _ _ hlookup => nomatch hlookup
  id_lt_next := fun _ _ hlookup => nomatch hlookup
  stake_lt_next := fun _ hmem => nomatch hmem
  counts := fun _ _ hlookup => nomatch hlookup

/-- A store that is as another, but for the entry of a key. -/
structure Spares (before : Store κ) (key : κ) (after : Store κ) : Prop where
  lookup_eq : ∀ other, after.lookup? other = before.lookup? other
  next_eq : after.next = before.next
  entry_eq : ∀ other id, other ≠ key → before.lookup? other = some id →
    after.entry? id = before.entry? id

theorem Spares.refl (store : Store κ) (key : κ) : store.Spares key store :=
  ⟨fun _ => rfl, rfl, fun _ _ _ _ => rfl⟩

theorem Spares.lookup?_addEntry {before after : Store κ} {key : κ}
    (hspares : before.Spares key after) (other : κ) :
    (after.addEntry key).2.lookup? other =
      if other = key then some before.next else before.lookup? other := by
  rw [Store.lookup?_addEntry, hspares.lookup_eq, hspares.next_eq]

namespace Backed

variable {before after : Store κ} {id : Nat} {mode : Option LockMode}

theorem spares (hbacked : before.Backed stakes) {key : κ} (hlookup : before.lookup? key = some id)
    (hstore : before.SameBut id after) : before.Spares key after where
  lookup_eq := hstore.lookup_eq
  next_eq := hstore.next_eq
  entry_eq := fun other found hne hother => hstore.entry_eq found fun heq =>
    hne (hbacked.key_unique other key id (heq ▸ hother) hlookup)

theorem of_perm {others : List Stake} (hbacked : before.Backed stakes)
    (hperm : stakes.Perm others) : before.Backed others where
  key_unique := hbacked.key_unique
  id_lt_next := hbacked.id_lt_next
  stake_lt_next := fun stake hmem => hbacked.stake_lt_next stake (hperm.mem_iff.mpr hmem)
  counts := by
    intro key id hlookup
    obtain ⟨entry, hentry, hcounts⟩ := hbacked.counts key id hlookup
    exact ⟨entry, hentry, hcounts.of_perm (modesAt_perm hperm id)⟩

theorem of_sameBut (hbacked : before.Backed stakes) (hstore : before.SameBut id after)
    {changed : List Stake} (hstakes : ∀ stake ∈ changed, stake.id < before.next)
    (hothers : ∀ other, other ≠ id → modesAt changed other = modesAt stakes other)
    (hentry : ∀ entry, before.entry? id = some entry → entry.Counts (modesAt stakes id) →
      ∃ new, after.entry? id = some new ∧ new.Counts (modesAt changed id)) :
    after.Backed changed where
  key_unique := by
    intro first second id hfirst hsecond
    rw [hstore.lookup_eq] at hfirst hsecond
    exact hbacked.key_unique first second id hfirst hsecond
  id_lt_next := by
    intro key id hlookup
    rw [hstore.lookup_eq] at hlookup
    exact hstore.next_eq ▸ hbacked.id_lt_next key id hlookup
  stake_lt_next := hstore.next_eq ▸ hstakes
  counts := by
    intro key other hlookup
    rw [hstore.lookup_eq] at hlookup
    obtain ⟨entry, hfound, hcounts⟩ := hbacked.counts key other hlookup
    by_cases heq : other = id
    · subst heq
      exact hentry entry hfound hcounts
    · rw [hstore.entry_eq other heq, hothers other heq]
      exact ⟨entry, hfound, hcounts⟩

/-- One who has a stake takes or lets go of the lock. -/
theorem restake (hbacked : before.Backed (⟨id, mode⟩ :: stakes)) (changed : Option LockMode)
    (hstore : before.SameBut id after)
    (hentry : ∀ entry, before.entry? id = some entry → ∃ lock,
      after.entry? id = some { entry with lock } ∧
        (entry.lock.HeldBy ((mode :: modesAt stakes id).count (some .read))
            ((mode :: modesAt stakes id).count (some .write)) →
          lock.HeldBy ((changed :: modesAt stakes id).count (some .read))
            ((changed :: modesAt stakes id).count (some .write)))) :
    after.Backed (⟨id, changed⟩ :: stakes) := by
  have hid := hbacked.stake_lt_next ⟨id, mode⟩ List.mem_cons_self
  refine hbacked.of_sameBut hstore ?_ ?_ ?_
  · intro stake hmem
    rcases List.mem_cons.mp hmem with rfl | hmem
    · exact hid
    · exact hbacked.stake_lt_next stake (List.mem_cons_of_mem _ hmem)
  · intro other hne
    rw [modesAt_cons_of_ne hne, modesAt_cons_of_ne hne]
  · intro entry hfound hcounts
    obtain ⟨lock, hafter, hheld⟩ := hentry entry hfound
    rw [modesAt_cons_self] at hcounts ⊢
    exact ⟨_, hafter, hcounts.references_eq, hcounts.length_le, hheld hcounts.heldBy⟩

theorem takeLock (hbacked : before.Backed (⟨id, none⟩ :: stakes)) {mode : LockMode}
    (htake : before.takeLock? id mode = some after) :
    after.Backed (⟨id, some mode⟩ :: stakes) := by
  obtain ⟨entry, lock, hentry, hlock, hstore, hafter⟩ := takeLock?_spec htake
  refine hbacked.restake (some mode) hstore fun found hfound => ?_
  cases hentry.symm.trans hfound
  refine ⟨lock, hafter, fun hheld => ?_⟩
  cases mode with
  | read => simpa using RwLock.HeldBy.take_read (by simpa using hheld) hlock
  | write => simpa using RwLock.HeldBy.take_write (by simpa using hheld) hlock

theorem releaseLock {mode : LockMode} (hbacked : before.Backed (⟨id, some mode⟩ :: stakes)) :
    (before.releaseLock id mode).Backed (⟨id, none⟩ :: stakes) := by
  refine hbacked.restake none (sameBut_modifyEntry _ _ _) fun entry hentry => ?_
  refine ⟨_, entry?_modifyEntry_self hentry _, fun hheld => ?_⟩
  cases mode with
  | read => simpa using RwLock.HeldBy.release_read (by simpa using hheld)
  | write => simpa using RwLock.HeldBy.release_write (by simpa using hheld)

theorem downgradeLock (hbacked : before.Backed (⟨id, some .write⟩ :: stakes)) :
    (before.downgradeLock id).Backed (⟨id, some .read⟩ :: stakes) := by
  refine hbacked.restake (some .read) (sameBut_modifyEntry _ _ _) fun entry hentry => ?_
  refine ⟨_, entry?_modifyEntry_self hentry _, fun hheld => ?_⟩
  simpa using RwLock.HeldBy.downgrade (by simpa using hheld)

theorem unreference (hbacked : before.Backed (⟨id, none⟩ :: stakes)) :
    (before.unreference id).2.Backed stakes := by
  refine hbacked.of_sameBut (sameBut_modifyEntry _ _ _) ?_ ?_ ?_
  · exact fun stake hmem => hbacked.stake_lt_next stake (List.mem_cons_of_mem _ hmem)
  · exact fun other hne => (modesAt_cons_of_ne hne none stakes).symm
  · intro entry hentry hcounts
    rw [modesAt_cons_self] at hcounts
    refine ⟨_, entry?_modifyEntry_self hentry _, ?_, ?_, ?_⟩
    · show entry.references - 1 = _
      rw [hcounts.references_eq, List.length_cons, Int32.ofNat_add]
      simp
    · exact Nat.le_of_succ_le hcounts.length_le
    · simpa using hcounts.heldBy

theorem modesAt_next (hbacked : before.Backed stakes) : modesAt stakes before.next = [] :=
  modesAt_eq_nil_iff.mpr fun stake hmem => Nat.ne_of_lt (hbacked.stake_lt_next stake hmem)

/-- A key gets a new entry, whatever became of the entry that it had. -/
theorem addEntry (hbacked : before.Backed stakes) {key : κ} (hspares : before.Spares key after) :
    (after.addEntry key).2.Backed (⟨(after.addEntry key).1, none⟩ :: stakes) := by
  have hid : (after.addEntry key).1 = before.next := hspares.next_eq
  rw [hid]
  have hfound : ∀ {other id}, (after.addEntry key).2.lookup? other = some id →
      other = key ∧ id = before.next ∨
        other ≠ key ∧ before.lookup? other = some id ∧ id < before.next := by
    intro other id hother
    rw [hspares.lookup?_addEntry] at hother
    split at hother
    next heq => exact .inl ⟨heq, (Option.some.inj hother).symm⟩
    next hne => exact .inr ⟨hne, hother, hbacked.id_lt_next other id hother⟩
  have hnext : (after.addEntry key).2.next = before.next + 1 := congrArg (· + 1) hspares.next_eq
  constructor
  case key_unique =>
    intro first second id hfirst hsecond
    rcases hfound hfirst with ⟨hfirst, hid⟩ | ⟨-, hfirst, hlt⟩ <;>
      rcases hfound hsecond with ⟨hsecond, hsame⟩ | ⟨-, hsecond, hother⟩
    · rw [hfirst, hsecond]
    · omega
    · omega
    · exact hbacked.key_unique first second id hfirst hsecond
  case id_lt_next =>
    intro other id hother
    rw [hnext]
    rcases hfound hother with ⟨-, hid⟩ | ⟨-, -, hlt⟩ <;> omega
  case stake_lt_next =>
    intro stake hmem
    rw [hnext]
    rcases List.mem_cons.mp hmem with rfl | hmem
    · exact Nat.lt_succ_self _
    · exact Nat.lt_succ_of_lt (hbacked.stake_lt_next stake hmem)
  case counts =>
    intro other id hother
    rw [entry?_addEntry, hspares.next_eq]
    rcases hfound hother with ⟨-, rfl⟩ | ⟨hne, hbefore, hlt⟩
    · rw [if_pos rfl, modesAt_cons_self, hbacked.modesAt_next]
      exact ⟨_, rfl, rfl, by decide, rfl, rfl⟩
    · rw [if_neg (Nat.ne_of_lt hlt), modesAt_cons_of_ne (Nat.ne_of_lt hlt),
        hspares.entry_eq other id hne hbefore]
      exact hbacked.counts other id hbefore

theorem reference (hbacked : before.Backed stakes) (key : κ) :
    (before.reference key).2.Backed (⟨(before.reference key).1, none⟩ :: stakes) := by
  cases hlookup : before.lookup? key with
  | none =>
      rw [reference_of_none hlookup]
      exact hbacked.addEntry (.refl before key)
  | some id =>
      obtain ⟨entry, hentry, hcounts⟩ := hbacked.counts key id hlookup
      by_cases hcount : 0 ≤ entry.references
      · obtain ⟨hid, hstore, hafter⟩ := reference_of_lookup hlookup hentry hcount
        rw [hid]
        refine hbacked.of_sameBut hstore ?_ ?_ ?_
        · intro stake hmem
          rcases List.mem_cons.mp hmem with rfl | hmem
          · exact hbacked.id_lt_next key id hlookup
          · exact hbacked.stake_lt_next stake hmem
        · exact fun other hne => modesAt_cons_of_ne hne none stakes
        · intro found hfound _
          refine ⟨_, hafter, ?_, ?_, ?_⟩
          · rw [modesAt_cons_self, List.length_cons, Int32.ofNat_add, ← hcounts.references_eq]
            rfl
          · rw [modesAt_cons_self]
            exact hcounts.length_lt hcount
          · simpa using hcounts.heldBy
      · obtain ⟨counted, hstore, hreference⟩ := reference_of_negative hlookup hentry hcount
        rw [hreference]
        exact hbacked.addEntry (hbacked.spares hlookup hstore)

theorem drop (hbacked : before.Backed stakes) {key : κ} (hdrops : before.Drops key id after) :
    after.Backed stakes where
  key_unique := fun first second other hfirst hsecond =>
    hbacked.key_unique first second other (hdrops.kept hbacked.key_unique hfirst).2.1
      (hdrops.kept hbacked.key_unique hsecond).2.1
  id_lt_next := fun other found hfound => by
    rw [hdrops.next_eq]
    exact hbacked.id_lt_next other found (hdrops.kept hbacked.key_unique hfound).2.1
  stake_lt_next := hdrops.next_eq ▸ hbacked.stake_lt_next
  counts := fun other found hfound => by
    obtain ⟨-, hlookup, hne⟩ := hdrops.kept hbacked.key_unique hfound
    rw [hdrops.entry_eq found hne]
    exact hbacked.counts other found hlookup

end Backed

/-- The entry of a key, or one that nobody refers to. -/
def entryAt (store : Store κ) (key : κ) : Entry :=
  ((store.lookup? key).bind store.entry?).getD { references := 0 }

theorem entryAt_of_lookup {store : Store κ} {key : κ} {id : Nat} {entry : Entry}
    (hlookup : store.lookup? key = some id) (hentry : store.entry? id = some entry) :
    store.entryAt key = entry := by
  simp [entryAt, hlookup, hentry]

theorem SameBut.entryAt_eq {id : Nat} {before after : Store κ} (hstore : before.SameBut id after)
    {key : κ} (hother : before.lookup? key ≠ some id) :
    after.entryAt key = before.entryAt key := by
  rw [entryAt, entryAt, hstore.lookup_eq]
  cases hlookup : before.lookup? key with
  | none => rfl
  | some found =>
      have hne : found ≠ id := fun heq => hother (heq ▸ hlookup)
      rw [Option.bind_some, Option.bind_some, hstore.entry_eq found hne]

theorem entryAt_addEntry_self (store : Store κ) (key : κ) :
    (store.addEntry key).2.entryAt key = {} := by
  apply entryAt_of_lookup ((lookup?_addEntry store key key).trans (if_pos rfl))
  rw [entry?_addEntry, if_pos rfl]

theorem Spares.entryAt_addEntry {before after : Store κ} {key other : κ}
    (hspares : before.Spares key after) (hbacked : before.Backed stakes) (hne : other ≠ key) :
    (after.addEntry key).2.entryAt other = before.entryAt other := by
  rw [entryAt, entryAt, hspares.lookup?_addEntry, if_neg hne]
  cases hother : before.lookup? other with
  | none => rfl
  | some id =>
      have hlt := hbacked.id_lt_next other id hother
      rw [Option.bind_some, Option.bind_some, entry?_addEntry,
        if_neg (hspares.next_eq ▸ Nat.ne_of_lt hlt), hspares.entry_eq other id hne hother]

theorem Drops.entryAt_self {before after : Store κ} {key : κ} {id : Nat}
    (hdrops : before.Drops key id after) : after.entryAt key = { references := 0 } := by
  rw [entryAt, hdrops.lookup_eq, if_pos rfl]
  rfl

theorem Drops.entryAt_of_ne {before after : Store κ} {dropped key : κ} {id : Nat}
    (hdrops : before.Drops dropped id after) (hbacked : before.Backed stakes)
    (hne : key ≠ dropped) : after.entryAt key = before.entryAt key := by
  have hlookup : after.lookup? key = before.lookup? key :=
    (hdrops.lookup_eq key).trans (if_neg hne)
  rw [entryAt, entryAt, hlookup]
  cases hfound : before.lookup? key with
  | none => rfl
  | some other =>
      have hother := (hdrops.kept hbacked.key_unique (hlookup.trans hfound)).2.2
      rw [Option.bind_some, Option.bind_some, hdrops.entry_eq other hother]

/-- A store that those with a stake in the entries of another cannot tell from that. -/
structure Alike (before : Store κ) (stakes : List Stake) (after : Store κ) : Prop where
  backed : after.Backed stakes
  lock_eq : ∀ key, (after.entryAt key).lock = (before.entryAt key).lock
  references_eq : ∀ key, (after.entryAt key).references = (before.entryAt key).references
  lookup_iff : ∀ stake ∈ stakes, ∀ key,
    after.lookup? key = some stake.id ↔ before.lookup? key = some stake.id

namespace Alike

theorem refl {store : Store κ} (hbacked : store.Backed stakes) : store.Alike stakes store :=
  ⟨hbacked, fun _ => rfl, fun _ => rfl, fun _ _ _ => Iff.rfl⟩

theorem trans {first second third : Store κ} (hfirst : first.Alike stakes second)
    (hsecond : second.Alike stakes third) : first.Alike stakes third where
  backed := hsecond.backed
  lock_eq := fun key => (hsecond.lock_eq key).trans (hfirst.lock_eq key)
  references_eq := fun key => (hsecond.references_eq key).trans (hfirst.references_eq key)
  lookup_iff := fun stake hmem key =>
    (hsecond.lookup_iff stake hmem key).trans (hfirst.lookup_iff stake hmem key)

theorem look {store : Store κ} (hbacked : store.Backed stakes) (key : κ) :
    store.Alike stakes (store.clearAccessed key).2 := by
  unfold clearAccessed
  cases hlookup : store.lookup? key with
  | none => exact refl hbacked
  | some id =>
      obtain ⟨entry, hentry, -⟩ := hbacked.counts key id hlookup
      have hstore := sameBut_modifyEntry store id fun entry => { entry with accessed := false }
      have hafter := entry?_modifyEntry_self hentry fun entry => { entry with accessed := false }
      have hshown : ∀ other, (entryAt (store.modifyEntry id fun entry =>
          { entry with accessed := false }) other).lock = (store.entryAt other).lock ∧
            (entryAt (store.modifyEntry id fun entry =>
              { entry with accessed := false }) other).references =
                (store.entryAt other).references := by
        intro other
        by_cases hother : store.lookup? other = some id
        · rw [entryAt_of_lookup ((hstore.lookup_eq other).trans hother) hafter,
            entryAt_of_lookup hother hentry]
          exact ⟨rfl, rfl⟩
        · rw [hstore.entryAt_eq hother]
          exact ⟨rfl, rfl⟩
      refine ⟨?_, fun other => (hshown other).1, fun other => (hshown other).2,
        fun stake _ other => by rw [hstore.lookup_eq]⟩
      exact hbacked.of_sameBut hstore hbacked.stake_lt_next (fun _ _ => rfl)
        fun found hfound hcounts =>
          ⟨_, entry?_modifyEntry_self hfound _, hcounts.references_eq, hcounts.length_le,
            hcounts.heldBy⟩

/-- Nobody has a stake in an entry that is dropped. -/
theorem evict {store : Store κ} (hbacked : store.Backed stakes) (dropped : κ) :
    store.Alike stakes (store.removeIdle dropped).2 := by
  rcases store.removeIdle_spec dropped with hsame | ⟨id, hdrops, hidle⟩
  · rw [hsame]
    exact refl hbacked
  · obtain ⟨entry, hentry, hcounts⟩ := hbacked.counts dropped id hdrops.lookup_key
    rw [hentry, Option.getD_some] at hidle
    have hnone := hcounts.eq_nil hidle
    rw [hnone] at hcounts
    have hshown : ∀ key, ((store.removeIdle dropped).2.entryAt key).lock =
        (store.entryAt key).lock ∧ ((store.removeIdle dropped).2.entryAt key).references =
          (store.entryAt key).references := by
      intro key
      by_cases heq : key = dropped
      · subst heq
        rw [hdrops.entryAt_self, entryAt_of_lookup hdrops.lookup_key hentry, hcounts.lock_eq_free,
          hidle]
        exact ⟨rfl, rfl⟩
      · rw [hdrops.entryAt_of_ne hbacked heq]
        exact ⟨rfl, rfl⟩
    refine ⟨hbacked.drop hdrops, fun key => (hshown key).1, fun key => (hshown key).2, ?_⟩
    intro stake hmem key
    refine ⟨fun hfound => (hdrops.kept hbacked.key_unique hfound).2.1, fun hfound => ?_⟩
    have hne : key ≠ dropped := by
      rintro rfl
      rw [hdrops.lookup_key, Option.some.injEq] at hfound
      exact modesAt_eq_nil_iff.mp hnone stake hmem hfound.symm
    rw [hdrops.lookup_eq, if_neg hne]
    exact hfound

end Alike

/-- Nobody with a stake in a store can tell whether the evictor was at work in it. -/
theorem endures_alike (store : Store κ) (stakes : List Stake) : Endures (store.Alike stakes) where
  look := fun key halike => halike.trans (.look halike.backed key)
  evict := fun key halike => halike.trans (.evict halike.backed key)

end Store

end Pooling.LockPool
