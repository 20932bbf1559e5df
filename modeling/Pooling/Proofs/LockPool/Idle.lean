import Pooling.Proofs.LockPool.Store
import Pooling.Proofs.LockPool.System

/-!
Idle entries of a lock pool, to which nobody refers. Only who gives up the last reference to an entry
makes it idle, and only who adds an entry makes a pool overfull.
-/

namespace Pooling.LockPool

variable {κ : Type} [DecidableEq κ]

namespace Store

/-- Whether the entry of a key was used again, if nobody refers to it. -/
def idle? (store : Store κ) (key : κ) : Option Bool :=
  ((store.lookup? key).bind store.entry?).bind fun entry =>
    if entry.references = 0 then some entry.accessed else none

theorem idle?_eq_some_iff {store : Store κ} {key : κ} {used : Bool} :
    store.idle? key = some used ↔ ∃ id entry, store.lookup? key = some id ∧
      store.entry? id = some entry ∧ entry.references = 0 ∧ entry.accessed = used := by
  simp only [idle?, Option.bind_eq_some_iff]
  constructor
  · rintro ⟨entry, ⟨id, hlookup, hentry⟩, hidle⟩
    split at hidle
    next hzero => exact ⟨id, entry, hlookup, hentry, hzero, Option.some.inj hidle⟩
    next => cases hidle
  · rintro ⟨id, entry, hlookup, hentry, hzero, rfl⟩
    exact ⟨entry, ⟨id, hlookup, hentry⟩, if_pos hzero⟩

/-- Nothing is left for the evictor to do. -/
def Rested (store : Store κ) : Prop := store.isOverfull = false ∨ ∀ key, store.idle? key = none

theorem rested_of_none {store : Store κ} (hnone : ∀ key used, store.idle? key ≠ some used) :
    store.Rested :=
  .inr fun key => Option.eq_none_iff_forall_ne_some.mpr (hnone key)

/-- No entry is dropped, and the watermarks stay. -/
structure Grown (before after : Store κ) : Prop where
  size_le : before.size ≤ after.size
  lowWatermark_eq : after.lowWatermark = before.lowWatermark
  highWatermark_eq : after.highWatermark = before.highWatermark

omit [DecidableEq κ] in
theorem Grown.refl (store : Store κ) : store.Grown store := ⟨Nat.le_refl _, rfl, rfl⟩

omit [DecidableEq κ] in
theorem Grown.isOverfull {before after : Store κ} (hgrown : before.Grown after)
    (hoverfull : before.isOverfull = true) : after.isOverfull = true := by
  have hlt := of_decide_eq_true hoverfull
  have hle := hgrown.size_le
  apply decide_eq_true
  rw [hgrown.highWatermark_eq]
  omega

/-- Nothing is added either, and no entry given up. -/
structure Calm (before after : Store κ) : Prop extends Grown before after where
  size_ge : after.size ≤ before.size
  idle : ∀ key used, after.idle? key = some used → before.idle? key = some used

theorem Calm.refl (store : Store κ) : store.Calm store :=
  ⟨.refl store, Nat.le_refl _, fun _ _ hidle => hidle⟩

theorem Calm.isOverfull_eq {before after : Store κ} (hcalm : before.Calm after) :
    after.isOverfull = before.isOverfull := by
  have hsize := Nat.le_antisymm hcalm.size_ge hcalm.size_le
  rw [Store.isOverfull, Store.isOverfull, hsize, hcalm.highWatermark_eq]

theorem Calm.rested {before after : Store κ} (hcalm : before.Calm after)
    (hrested : before.Rested) : after.Rested := by
  rcases hrested with hfits | hnone
  · exact .inl (hcalm.isOverfull_eq.trans hfits)
  · refine rested_of_none fun key used hidle => ?_
    have hbefore := hcalm.idle key used hidle
    rw [hnone key] at hbefore
    cases hbefore

theorem calm_modifyEntry {store : Store κ} {id : Nat} {change : Entry → Entry}
    (hchange : ∀ entry, store.entry? id = some entry → (change entry).references = 0 →
      entry.references = 0 ∧ (change entry).accessed = entry.accessed) :
    store.Calm (store.modifyEntry id change) := by
  refine ⟨⟨Nat.le_refl _, rfl, rfl⟩, Nat.le_refl _, fun key used hidle => ?_⟩
  obtain ⟨found, entry, hlookup, hentry, hzero, hused⟩ := idle?_eq_some_iff.mp hidle
  rw [entry?_modifyEntry] at hentry
  split at hentry
  next heq =>
    subst heq
    obtain ⟨old, hold, rfl⟩ := Option.map_eq_some_iff.mp hentry
    obtain ⟨holdZero, hsame⟩ := hchange old hold hzero
    exact idle?_eq_some_iff.mpr ⟨found, old, hlookup, hold, holdZero, hsame.symm.trans hused⟩
  next => exact idle?_eq_some_iff.mpr ⟨found, entry, hlookup, hentry, hzero, hused⟩

/-- Only who gives up the last reference to an entry makes it idle. -/
theorem calm_unreference {store : Store κ} {id : Nat} (hlast : (store.unreference id).1 = false) :
    store.Calm (store.unreference id).2 := by
  refine calm_modifyEntry fun entry hentry hzero => ?_
  have hmany := of_decide_eq_false hlast
  rw [hentry, Option.getD_some] at hmany
  have hone : entry.references - 1 + 1 = 0 + 1 := congrArg (· + 1) hzero
  rw [Int32.sub_add_cancel] at hone
  exact absurd hone hmany

theorem calm_perform? {act : Act} {store after : Store κ} {reference : Reference κ} {stage : Stage}
    (hperform : act.perform? store reference = some (after, stage)) : store.Calm after := by
  have hlock : ∀ {id : Nat} {change : Entry → RwLock},
      store.Calm (store.modifyEntry id fun entry => { entry with lock := change entry }) :=
    calm_modifyEntry fun _ _ hzero => ⟨hzero, rfl⟩
  have htake : ∀ {mode taken}, store.takeLock? reference.id mode = some taken →
      store.Calm taken := by
    intro mode taken htake
    simp only [takeLock?, Option.bind_eq_bind, Option.bind_eq_some_iff, Option.some.injEq] at htake
    obtain ⟨entry, -, lock, -, rfl⟩ := htake
    exact hlock
  unfold Act.perform? at hperform
  split at hperform
  next =>
    obtain ⟨taken, htaken, heq⟩ := Option.map_eq_some_iff.mp hperform
    cases heq
    exact htake htaken
  next =>
    obtain ⟨taken, htaken, heq⟩ := Option.map_eq_some_iff.mp hperform
    cases heq
    exact htake htaken
  next =>
    cases hperform
    exact .refl store
  next =>
    cases hperform
    exact hlock
  next =>
    cases hperform
    exact hlock
  next => cases hperform

theorem grown_addEntry (store : Store κ) (key : κ) : store.Grown (store.addEntry key).2 :=
  ⟨Table.size_le_insert _ _ _, rfl, rfl⟩

theorem grown_reference (store : Store κ) (key : κ) : store.Grown (store.reference key).2 := by
  unfold reference
  split
  next => exact store.grown_addEntry key
  next =>
    dsimp only
    split
    next => exact ⟨Nat.le_refl _, rfl, rfl⟩
    next => exact ⟨Table.size_le_insert _ _ _, rfl, rfl⟩

theorem grown_clearAccessed (store : Store κ) (key : κ) :
    store.Grown (store.clearAccessed key).2 := by
  unfold clearAccessed
  split <;> exact ⟨Nat.le_refl _, rfl, rfl⟩

/-- Looking at a key makes its entry one not used again, and says whether it was. -/
theorem idle?_clearAccessed {store : Store κ} {key other : κ} {used : Bool}
    (hidle : (store.clearAccessed key).2.idle? other = some used) :
    ∃ before, store.idle? other = some before ∧ (used = before ∨ used = false) ∧
      (other = key → used = false ∧ (store.clearAccessed key).1 = some before) := by
  cases hkey : store.lookup? key with
  | none =>
      rw [clearAccessed, hkey] at hidle
      obtain ⟨id, entry, hlookup, -⟩ := idle?_eq_some_iff.mp hidle
      refine ⟨used, hidle, .inl rfl, fun heq => ?_⟩
      rw [heq, hkey] at hlookup
      cases hlookup
  | some found =>
      have hlooked : store.clearAccessed key = ((store.entry? found).map Entry.accessed,
          store.modifyEntry found fun entry => { entry with accessed := false }) := by
        rw [clearAccessed, hkey]
      rw [hlooked] at hidle ⊢
      obtain ⟨id, entry, hlookup, hentry, hzero, hused⟩ := idle?_eq_some_iff.mp hidle
      have hlookup : store.lookup? other = some id := hlookup
      rw [entry?_modifyEntry] at hentry
      split at hentry
      next heq =>
        subst heq
        obtain ⟨old, hold, rfl⟩ := Option.map_eq_some_iff.mp hentry
        refine ⟨old.accessed, idle?_eq_some_iff.mpr ⟨id, old, hlookup, hold, hzero, rfl⟩,
          .inr hused.symm, fun _ => ⟨hused.symm, ?_⟩⟩
        exact congrArg (Option.map Entry.accessed) hold
      next hne =>
        refine ⟨used, idle?_eq_some_iff.mpr ⟨id, entry, hlookup, hentry, hzero, hused⟩, .inl rfl,
          fun heq => ?_⟩
        rw [heq, hkey] at hlookup
        exact absurd (Option.some.inj hlookup).symm hne

theorem removeIdle_watermarks (store : Store κ) (key : κ) :
    (store.removeIdle key).2.lowWatermark = store.lowWatermark ∧
      (store.removeIdle key).2.highWatermark = store.highWatermark := by
  unfold removeIdle
  split
  next => exact ⟨rfl, rfl⟩
  next => split <;> exact ⟨rfl, rfl⟩

/-- An entry that is spared is used again or referred to. -/
theorem removeIdle_spared {store : Store κ} {key : κ}
    (hspared : (store.removeIdle key).1 = false) :
    (store.removeIdle key).2 = store ∧ store.idle? key ≠ some false := by
  unfold removeIdle at hspared ⊢
  cases hlookup : store.lookup? key with
  | none =>
      refine ⟨rfl, fun hidle => ?_⟩
      obtain ⟨id, entry, hfound, -⟩ := idle?_eq_some_iff.mp hidle
      rw [hlookup] at hfound
      cases hfound
  | some id =>
      rw [hlookup] at hspared
      by_cases hevictable : isEvictable ((store.entry? id).getD {}) = true
      · simp only [hevictable, if_true] at hspared
        cases hspared
      · simp only [hevictable]
        refine ⟨rfl, fun hidle => hevictable ?_⟩
        obtain ⟨found, entry, hfound, hentry, hzero, hused⟩ := idle?_eq_some_iff.mp hidle
        cases hlookup.symm.trans hfound
        rw [hentry, Option.getD_some]
        simp [isEvictable, hzero, hused]

end Store

end Pooling.LockPool
