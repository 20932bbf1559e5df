/-!
Finite tables kept as lists of pairs, in the order in which their keys arrived.
-/

namespace Pooling

/-- A table from keys to values; the earliest pair of a key is the one that counts. -/
structure Table (κ : Type u) (α : Type v) where
  pairs : List (κ × α) := []

namespace Table

variable {κ : Type u} {α : Type v} [DecidableEq κ]

def empty : Table κ α := {}

instance : Inhabited (Table κ α) := ⟨empty⟩

def size (table : Table κ α) : Nat := table.pairs.length

def keys (table : Table κ α) : List κ := table.pairs.map Prod.fst

def get? (table : Table κ α) (key : κ) : Option α := table.pairs.lookup key

def contains (table : Table κ α) (key : κ) : Bool := (table.get? key).isSome

def erase (table : Table κ α) (key : κ) : Table κ α :=
  ⟨table.pairs.filter fun pair => pair.1 ≠ key⟩

/-- Replaces the value of a key in its place, or adds the key at the end. -/
def insert (table : Table κ α) (key : κ) (value : α) : Table κ α :=
  if table.contains key then
    ⟨table.pairs.map fun pair => if pair.1 = key then (key, value) else pair⟩
  else
    ⟨table.pairs ++ [(key, value)]⟩

def modify (table : Table κ α) (key : κ) (change : α → α) : Table κ α :=
  ⟨table.pairs.map fun pair => if pair.1 = key then (pair.1, change pair.2) else pair⟩

@[simp] theorem get?_empty (key : κ) : (empty : Table κ α).get? key = none := rfl

omit [DecidableEq κ] in
@[simp] theorem size_empty : (empty : Table κ α).size = 0 := rfl

@[simp] theorem keys_modify (table : Table κ α) (key : κ) (change : α → α) :
    (table.modify key change).keys = table.keys := by
  simp only [keys, modify, List.map_map]
  congr 1
  funext pair
  simp only [Function.comp]
  split <;> rfl

@[simp] theorem size_modify (table : Table κ α) (key : κ) (change : α → α) :
    (table.modify key change).size = table.size := by
  simp [size, modify]

theorem get?_mk_cons (key other : κ) (value : α) (pairs : List (κ × α)) :
    (mk ((key, value) :: pairs)).get? other =
      if other = key then some value else (mk pairs).get? other := by
  by_cases heq : other = key
  · simp [get?, heq]
  · have hbeq : (other == key) = false := beq_eq_false_iff_ne.mpr heq
    simp [get?, List.lookup_cons, hbeq, heq]

theorem get?_modify (table : Table κ α) (key other : κ) (change : α → α) :
    (table.modify key change).get? other =
      if other = key then (table.get? other).map change else table.get? other := by
  obtain ⟨pairs⟩ := table
  induction pairs with
  | nil => simp [modify, get?]
  | cons pair pairs ih =>
      obtain ⟨first, value⟩ := pair
      simp only [modify, List.map_cons] at ih ⊢
      by_cases hfirst : first = key
      · subst hfirst
        simp only [if_true, get?_mk_cons, ih]
        by_cases hother : other = first
        · simp [hother]
        · simp [hother]
      · simp only [if_neg hfirst, get?_mk_cons, ih]
        by_cases hother : other = first
        · simp [hother, hfirst]
        · simp [hother]

theorem get?_erase (table : Table κ α) (key other : κ) :
    (table.erase key).get? other = if other = key then none else table.get? other := by
  obtain ⟨pairs⟩ := table
  induction pairs with
  | nil => simp [erase, get?]
  | cons pair pairs ih =>
      obtain ⟨first, value⟩ := pair
      simp only [erase, List.filter_cons] at ih ⊢
      by_cases hfirst : first = key
      · subst hfirst
        simp only [ne_eq, not_true_eq_false, decide_false, Bool.false_eq_true, if_false,
          get?_mk_cons, ih]
        by_cases hother : other = first
        · simp [hother]
        · simp [hother]
      · simp only [ne_eq, hfirst, not_false_eq_true, decide_true, if_true, get?_mk_cons, ih]
        by_cases hother : other = first
        · simp [hother, hfirst]
        · simp [hother]

theorem get?_erase_self (table : Table κ α) (key : κ) : (table.erase key).get? key = none := by
  simp [get?_erase]

theorem contains_iff_mem_keys (table : Table κ α) (key : κ) :
    table.contains key = true ↔ key ∈ table.keys := by
  obtain ⟨pairs⟩ := table
  induction pairs with
  | nil => simp [contains, get?, keys]
  | cons pair pairs ih =>
      obtain ⟨first, value⟩ := pair
      simp only [contains, keys, get?_mk_cons, List.map_cons, List.mem_cons] at ih ⊢
      by_cases hkey : key = first
      · simp [hkey]
      · simpa [hkey] using ih

theorem get?_insert (table : Table κ α) (key other : κ) (value : α) :
    (table.insert key value).get? other = if other = key then some value else table.get? other := by
  by_cases hcontains : table.contains key = true
  · have hinsert : table.insert key value = table.modify key fun _ => value := by
      simp only [insert, hcontains, if_true, modify, mk.injEq]
      apply List.map_congr_left
      intro pair hpair
      split
      next heq => rw [heq]
      next => rfl
    rw [hinsert, get?_modify]
    by_cases hother : other = key
    · subst hother
      obtain ⟨found, hfound⟩ := Option.isSome_iff_exists.mp hcontains
      simp [hfound]
    · simp [hother]
  · have habsent : table.get? key = none := by simpa [contains] using hcontains
    obtain ⟨pairs⟩ := table
    simp only [insert, hcontains, Bool.false_eq_true, if_false, get?, List.lookup_append]
    by_cases hother : other = key
    · subst hother
      have hlookup : List.lookup other pairs = none := habsent
      simp [hlookup]
    · have hbeq : (other == key) = false := beq_eq_false_iff_ne.mpr hother
      simp [List.lookup_cons, hbeq, hother]

theorem keys_erase (table : Table κ α) (key : κ) :
    (table.erase key).keys = table.keys.filter fun other => other ≠ key := by
  simp [keys, erase, List.filter_map, Function.comp_def]

/-- A new key goes to the end; a key already there keeps its place. -/
theorem keys_insert (table : Table κ α) (key : κ) (value : α) :
    (table.insert key value).keys =
      if table.contains key then table.keys else table.keys ++ [key] := by
  unfold insert
  split
  next h =>
    simp only [keys, List.map_map]
    apply List.map_congr_left
    intro pair hpair
    simp only [Function.comp]
    split
    next heq => exact heq.symm
    next => rfl
  next h => simp [keys]

omit [DecidableEq κ] in
theorem length_keys (table : Table κ α) : table.keys.length = table.size := by
  simp [keys, size]

theorem nodup_keys_erase {table : Table κ α} (hnodup : table.keys.Nodup) (key : κ) :
    (table.erase key).keys.Nodup := by
  rw [keys_erase]
  exact hnodup.filter _

theorem nodup_keys_insert {table : Table κ α} (hnodup : table.keys.Nodup) (key : κ) (value : α) :
    (table.insert key value).keys.Nodup := by
  rw [keys_insert]
  split
  next => exact hnodup
  next habsent =>
    rw [contains_iff_mem_keys] at habsent
    rw [List.nodup_append]
    refine ⟨hnodup, by simp, ?_⟩
    intro other hother added hadded heq
    rw [List.mem_singleton] at hadded
    exact habsent (hadded ▸ heq ▸ hother)

/-- Erasing a key that is there makes a table smaller by one. -/
theorem size_erase {table : Table κ α} (hnodup : table.keys.Nodup) {key : κ}
    (hpresent : table.contains key = true) : (table.erase key).size + 1 = table.size := by
  have hmem : key ∈ table.keys := (contains_iff_mem_keys table key).mp hpresent
  have hpos : 0 < table.keys.length := List.length_pos_of_mem hmem
  have hfilter : table.keys.filter (fun other => other ≠ key) = table.keys.erase key := by
    rw [hnodup.erase_eq_filter]
    apply List.filter_congr
    intro other hother
    by_cases heq : other = key
    · simp [heq]
    · simp [heq]
  rw [← length_keys, keys_erase, hfilter, List.length_erase_of_mem hmem, ← length_keys]
  omega

theorem erase_of_get?_eq_none {table : Table κ α} {key : κ} (habsent : table.get? key = none) :
    table.erase key = table := by
  obtain ⟨pairs⟩ := table
  simp only [erase, mk.injEq, List.filter_eq_self, decide_eq_true_eq]
  intro pair hpair heq
  have hmem : key ∈ (mk pairs).keys := List.mem_map.mpr ⟨pair, hpair, heq⟩
  rw [← contains_iff_mem_keys, contains, habsent] at hmem
  cases hmem

theorem erase_insert (table : Table κ α) (key : κ) (value : α) :
    (table.insert key value).erase key = table.erase key := by
  unfold insert
  split
  next =>
    simp only [erase, mk.injEq, List.filter_map]
    rw [List.map_congr_left (g := id)]
    · rw [List.map_id]
      apply List.filter_congr
      intro pair hpair
      by_cases heq : pair.1 = key <;> simp [heq]
    · intro pair hpair
      have hne := (List.mem_filter.mp hpair).2
      by_cases heq : pair.1 = key
      · simp [heq] at hne
      · simp [heq]
  next => simp [erase]

/-- Where each key has one value, a table is what is left without a key, and the key. -/
theorem perm_of_get? {table : Table κ α} (hnodup : table.keys.Nodup) {key : κ} {value : α}
    (hget : table.get? key = some value) :
    table.pairs.Perm ((key, value) :: (table.erase key).pairs) := by
  obtain ⟨pairs⟩ := table
  induction pairs with
  | nil => cases hget
  | cons pair pairs ih =>
      obtain ⟨first, old⟩ := pair
      simp only [keys, List.map_cons, List.nodup_cons] at hnodup
      rw [get?_mk_cons] at hget
      by_cases heq : key = first
      · subst heq
        rw [if_pos rfl, Option.some.injEq] at hget
        subst hget
        have habsent : (mk pairs).get? key = none := by
          rw [← Option.not_isSome_iff_eq_none]
          exact fun hpresent => hnodup.1 ((contains_iff_mem_keys (mk pairs) key).mp hpresent)
        have hrest := congrArg Table.pairs (erase_of_get?_eq_none habsent)
        have hkept : ((mk ((key, old) :: pairs)).erase key).pairs = pairs := by
          simpa [erase] using hrest
        rw [hkept]
      · rw [if_neg heq] at hget
        have hrest := ih hnodup.2 hget
        have hkept : ((mk ((first, old) :: pairs)).erase key).pairs =
            (first, old) :: ((mk pairs).erase key).pairs := by
          have hne : first ≠ key := Ne.symm heq
          simp [erase, hne]
        rw [hkept]
        exact (hrest.cons _).trans (.swap _ _ _)

theorem perm_insert {table : Table κ α} (hnodup : table.keys.Nodup) (key : κ) (value : α) :
    (table.insert key value).pairs.Perm ((key, value) :: (table.erase key).pairs) := by
  have hget : (table.insert key value).get? key = some value := by rw [get?_insert, if_pos rfl]
  have hperm := perm_of_get? (nodup_keys_insert hnodup key value) hget
  rwa [erase_insert] at hperm

theorem size_erase_le (table : Table κ α) (key : κ) : (table.erase key).size ≤ table.size :=
  List.length_filter_le _ _

theorem size_insert {table : Table κ α} {key : κ} (habsent : table.contains key = false)
    (value : α) : (table.insert key value).size = table.size + 1 := by
  simp [insert, habsent, size]

theorem size_le_insert (table : Table κ α) (key : κ) (value : α) :
    table.size ≤ (table.insert key value).size := by
  unfold insert
  split
  next => simp [size]
  next => simp [size]

end Table

end Pooling
