import Mathlib.Data.List.Nodup
import Pooling.Table

/-!
Tables with other values, tables that answer every key alike, tables without some keys, and what holds of
every value of a table.
-/

namespace Pooling.Table

variable {κ : Type u} {α : Type v} {β : Type w}

def map (change : α → β) (table : Table κ α) : Table κ β :=
  ⟨table.pairs.map fun pair => (pair.1, change pair.2)⟩

theorem keys_map (change : α → β) (table : Table κ α) : (table.map change).keys = table.keys := by
  simp [keys, map, Function.comp_def]

variable [DecidableEq κ]

theorem get?_map (change : α → β) (table : Table κ α) (key : κ) :
    (table.map change).get? key = (table.get? key).map change := by
  obtain ⟨pairs⟩ := table
  induction pairs with
  | nil => rfl
  | cons pair pairs ih =>
      obtain ⟨first, value⟩ := pair
      have hmap : (mk ((first, value) :: pairs)).map change =
          mk ((first, change value) :: ((mk pairs).map change).pairs) := rfl
      rw [hmap, get?_mk_cons, get?_mk_cons, ih]
      split <;> rfl

theorem mem_pairs_iff {table : Table κ α} (hnodup : table.keys.Nodup) {key : κ} {value : α} :
    (key, value) ∈ table.pairs ↔ table.get? key = some value := by
  constructor
  · intro hmem
    have hkey : key ∈ table.keys := List.mem_map.mpr ⟨(key, value), hmem, rfl⟩
    rw [← contains_iff_mem_keys] at hkey
    obtain ⟨found, hfound⟩ := Option.isSome_iff_exists.mp hkey
    have hperm := perm_of_get? hnodup hfound
    rw [hperm.mem_iff, List.mem_cons] at hmem
    rcases hmem with heq | hmem
    · rw [hfound, (Prod.mk.inj heq).2]
    · have hgone : (key, value).1 ≠ key := of_decide_eq_true (List.mem_filter.mp hmem).2
      exact absurd rfl hgone
  · intro hget
    rw [(perm_of_get? hnodup hget).mem_iff]
    exact List.mem_cons_self

theorem perm_of_same {first second : Table κ α} (hfirst : first.keys.Nodup)
    (hsecond : second.keys.Nodup) (hsame : ∀ key, first.get? key = second.get? key) :
    first.pairs.Perm second.pairs := by
  apply (List.perm_ext_iff_of_nodup hfirst.of_map hsecond.of_map).mpr
  rintro ⟨key, value⟩
  rw [mem_pairs_iff hfirst, mem_pairs_iff hsecond, hsame]

theorem erase_modify (table : Table κ α) (key : κ) (change : α → α) :
    (table.modify key change).erase key = table.erase key := by
  simp only [modify, erase, mk.injEq, List.filter_map]
  rw [List.map_congr_left (g := id)]
  · rw [List.map_id]
    apply List.filter_congr
    intro pair hpair
    by_cases heq : pair.1 = key <;> simp [heq]
  · intro pair hpair
    have hne := (List.mem_filter.mp hpair).2
    by_cases heq : pair.1 = key
    · simp [heq] at hne
    · simp [heq]

theorem modify_of_get?_eq_none {table : Table κ α} {key : κ} (habsent : table.get? key = none)
    (change : α → α) : table.modify key change = table := by
  obtain ⟨pairs⟩ := table
  simp only [modify, mk.injEq]
  refine (List.map_congr_left fun pair hpair => if_neg fun heq => ?_).trans (List.map_id _)
  have hmem : key ∈ (mk pairs).keys := List.mem_map.mpr ⟨pair, hpair, heq⟩
  rw [← contains_iff_mem_keys, contains, habsent] at hmem
  cases hmem

/-! What holds of every value. -/

section

variable {table : Table κ α} {key : κ} {holds : α → Prop}

theorem forall_erase (hall : ∀ other value, table.get? other = some value → holds value)
    (key : κ) : ∀ other value, (table.erase key).get? other = some value → holds value := by
  intro other value hother
  rw [get?_erase] at hother
  split at hother
  next => cases hother
  next => exact hall other value hother

/-- The value that the key had before need not be one of them. -/
theorem forall_insert
    (hrest : ∀ other value, (table.erase key).get? other = some value → holds value) {new : α}
    (hnew : holds new) :
    ∀ other value, (table.insert key new).get? other = some value → holds value := by
  intro other value hother
  rw [get?_insert] at hother
  split at hother
  next =>
    cases hother
    exact hnew
  next hne => exact hrest other value (by rwa [get?_erase, if_neg hne])

end

/-! Several keys erased at once. -/

theorem get?_foldl_erase (keys : List κ) (table : Table κ α) (other : κ) :
    (keys.foldl erase table).get? other = if other ∈ keys then none else table.get? other := by
  induction keys generalizing table with
  | nil => simp
  | cons key keys ih =>
      rw [List.foldl_cons, ih, get?_erase]
      by_cases hother : other ∈ keys
      · simp [hother]
      · simp [hother]

theorem size_foldl_erase_le (table : Table κ α) (keys : List κ) :
    (keys.foldl erase table).size ≤ table.size := by
  induction keys generalizing table with
  | nil => exact Nat.le_refl _
  | cons key keys ih => exact Nat.le_trans (ih _) (size_erase_le table key)

theorem nodup_keys_foldl_erase {table : Table κ α} (hnodup : table.keys.Nodup) (keys : List κ) :
    (keys.foldl erase table).keys.Nodup := by
  induction keys generalizing table with
  | nil => exact hnodup
  | cons key keys ih => exact ih (nodup_keys_erase hnodup key)

end Pooling.Table
