import Mathlib.Data.List.Perm.Basic
import Pooling.Elastic.Call

/-!
What each section under the lock of an elastic pool does to the pool: which resources are tracked
afterwards, which of them are checked out, and how the sizes change.
-/

namespace Pooling.Elastic.Pool

variable {R : Type} [DecidableEq R]

/-- Whether a resource is checked out, if the pool tracks it. -/
def checkedOut? (pool : Pool R) (resource : R) : Option Bool :=
  (pool.tracked.get? resource).map Tracked.inUse

theorem contains_eq_isSome (pool : Pool R) (resource : R) :
    pool.tracked.contains resource = (pool.checkedOut? resource).isSome := by
  simp [checkedOut?, Table.contains]

/-! Handing out an available resource. -/

@[simp] theorem size_checkOut (pool : Pool R) (resource : R) (rest : List R) :
    (pool.checkOut resource rest).size = pool.size :=
  Table.size_modify _ _ _

theorem checkedOut?_checkOut (pool : Pool R) (resource other : R) (rest : List R) :
    (pool.checkOut resource rest).checkedOut? other =
      if other = resource then (pool.checkedOut? other).map fun _ => true
      else pool.checkedOut? other := by
  simp only [checkedOut?, checkOut, Table.get?_modify]
  split
  next => simp [Function.comp_def]
  next => rfl

omit [DecidableEq R] in
theorem choose?_eq_none {selection : Selection} {available : List R}
    (hnone : choose? selection available = none) : available = [] := by
  cases selection with
  | lifo => simpa [choose?] using hnone
  | fifo => simpa [choose?] using hnone

omit [DecidableEq R] in
theorem choose?_of_nil (selection : Selection) {available : List R} (hnil : available = []) :
    choose? selection available = none := by
  subst hnil
  cases selection <;> rfl

omit [DecidableEq R] in
theorem available_of_choose? {available rest : List R} {resource : R}
    (hchoose : choose? .fifo available = some (resource, rest)) :
    available = rest ++ [resource] := by
  rcases List.eq_nil_or_concat' available with rfl | ⟨others, last, rfl⟩
  · simp [choose?] at hchoose
  · simp only [choose?, List.getLast?_concat, Option.map_some, List.dropLast_concat,
      Option.some.injEq, Prod.mk.injEq] at hchoose
    obtain ⟨rfl, rfl⟩ := hchoose
    rfl

omit [DecidableEq R] in
theorem perm_of_choose? {selection : Selection} {available rest : List R} {resource : R}
    (hchoose : choose? selection available = some (resource, rest)) :
    available.Perm (resource :: rest) := by
  cases selection with
  | lifo =>
      cases available with
      | nil => simp [choose?] at hchoose
      | cons first others =>
          simp only [choose?, List.head?_cons, Option.map_some, List.tail_cons, Option.some.injEq,
            Prod.mk.injEq] at hchoose
          obtain ⟨rfl, rfl⟩ := hchoose
          exact List.Perm.refl _
  | fifo =>
      rw [available_of_choose? hchoose]
      exact List.perm_append_singleton _ _

/-! What a call finds that looks for a slot. -/

theorem takeSlot_of_closed {pool : Pool R} (hclosed : pool.closed = true) :
    pool.takeSlot = (.closed, pool) :=
  if_pos hclosed

section

variable {pool : Pool R} (hopen : pool.closed = false)
include hopen

theorem takeSlot_of_choose? {resource : R} {rest : List R}
    (hchoose : choose? pool.selection pool.available = some (resource, rest)) :
    pool.takeSlot = (.pooled resource, pool.checkOut resource rest) := by
  simp only [takeSlot, hopen, hchoose, Bool.false_eq_true, if_false]

theorem takeSlot_of_room (hnone : pool.available = [])
    (hroom : pool.size + pool.creating < pool.maxCapacity) :
    pool.takeSlot = (.create, { pool with creating := pool.creating + 1 }) := by
  simp only [takeSlot, hopen, choose?_of_nil _ hnone, Bool.false_eq_true, if_false, if_pos hroom]

theorem takeSlot_of_full (hnone : pool.available = [])
    (hfull : pool.maxCapacity ≤ pool.size + pool.creating) : pool.takeSlot = (.full, pool) := by
  simp only [takeSlot, hopen, choose?_of_nil _ hnone, Bool.false_eq_true, if_false,
    if_neg (Nat.not_lt.mpr hfull)]

end

/-! A new resource, and one that is no longer tracked. -/

theorem checkedOut?_track (pool : Pool R) (resource other : R) (now : Reading) :
    (pool.track resource now).checkedOut? other =
      if other = resource then some true else pool.checkedOut? other := by
  simp only [checkedOut?, track, Table.get?_insert]
  split
  next => rfl
  next => rfl

theorem size_track (pool : Pool R) {resource : R} (habsent : pool.checkedOut? resource = none)
    (now : Reading) : (pool.track resource now).size = pool.size + 1 := by
  apply Table.size_insert
  rw [contains_eq_isSome, habsent]
  rfl

theorem checkedOut?_untrack (pool : Pool R) (resource other : R) :
    (pool.untrack resource).checkedOut? other =
      if other = resource then none else pool.checkedOut? other := by
  simp only [checkedOut?, untrack, Table.get?_erase]
  split
  next => rfl
  next => rfl

theorem size_untrack {pool : Pool R} (hnodup : pool.tracked.keys.Nodup) {resource : R}
    (hpresent : (pool.checkedOut? resource).isSome) :
    (pool.untrack resource).size + 1 = pool.size :=
  Table.size_erase hnodup (by rw [contains_eq_isSome, hpresent])

theorem size_untrack_le (pool : Pool R) (resource : R) :
    (pool.untrack resource).size ≤ pool.size :=
  Table.size_erase_le _ _

/-! Giving a resource back. -/

@[simp] theorem size_markReturned (pool : Pool R) (resource : R) (now : Reading) :
    (pool.markReturned resource now).size = pool.size :=
  Table.size_modify _ _ _

theorem checkedOut?_markReturned (pool : Pool R) (resource other : R) (now : Reading) :
    (pool.markReturned resource now).checkedOut? other =
      if other = resource then (pool.checkedOut? other).map fun _ => false
      else pool.checkedOut? other := by
  simp only [checkedOut?, markReturned, Table.get?_modify]
  split
  next => simp [Function.comp_def]
  next => rfl

theorem release_of_out {pool : Pool R} {resource : R}
    (hout : pool.checkedOut? resource = some true) (now : Reading) :
    pool.release resource now =
      if pool.closed then
        (.toClose, .nobody, (pool.markReturned resource now).untrack resource)
      else
        (.pooled, .one, { pool.markReturned resource now with
          available := resource :: pool.available }) := by
  obtain ⟨tracked, htracked, hinUse⟩ := Option.map_eq_some_iff.mp hout
  simp only [release, htracked, hinUse, Bool.not_true, Bool.false_eq_true, if_false]
  rfl

theorem release_of_not_out {pool : Pool R} {resource : R}
    (hnot : pool.checkedOut? resource ≠ some true) (now : Reading) :
    pool.release resource now =
      (.refused (if (pool.checkedOut? resource).isSome then .alreadyReleased else .notAcquired),
        .nobody, pool) := by
  rw [checkedOut?] at hnot ⊢
  cases hfound : pool.tracked.get? resource with
  | none => simp [release, hfound]
  | some tracked =>
      have hidle : tracked.inUse = false := by simpa [hfound] using hnot
      simp [release, hfound, hidle]

/-! Letting several resources go at once. -/

theorem checkedOut?_foldl_untrack (resources : List R) (pool : Pool R) (other : R) :
    (resources.foldl untrack pool).checkedOut? other =
      if other ∈ resources then none else pool.checkedOut? other := by
  induction resources generalizing pool with
  | nil => simp
  | cons resource resources ih =>
      rw [List.foldl_cons, ih, checkedOut?_untrack]
      by_cases hother : other ∈ resources
      · simp [hother]
      · simp [hother]

theorem checkedOut?_shut (pool : Pool R) (resource : R) :
    (pool.available.foldl untrack { pool with closed := true, available := [] }).checkedOut?
      resource = (pool.available.foldl untrack pool).checkedOut? resource := by
  rw [checkedOut?_foldl_untrack, checkedOut?_foldl_untrack]
  rfl

/-- Untracking changes nothing but the table of the tracked and the counter. -/
theorem foldl_untrack_eq (resources : List R) (pool : Pool R) :
    resources.foldl untrack pool =
      { pool with
        tracked := (resources.foldl untrack pool).tracked
        counter := (resources.foldl untrack pool).counter } := by
  induction resources generalizing pool with
  | nil => rfl
  | cons resource resources ih => exact ih (pool.untrack resource)

/-- What untracking makes of the table and the counter. -/
theorem foldl_untrack (resources : List R) (pool : Pool R) :
    resources.foldl untrack pool =
      { pool with
        tracked := resources.foldl Table.erase pool.tracked
        counter := { pool.counter with downs := pool.counter.downs + resources.length } } := by
  induction resources generalizing pool with
  | nil => rfl
  | cons resource resources ih =>
      rw [List.foldl_cons, ih, List.length_cons, Nat.add_comm resources.length, ← Nat.add_assoc]
      rfl

theorem balance_foldl_untrack (resources : List R) (pool : Pool R) :
    (resources.foldl untrack pool).counter.balance =
      pool.counter.balance - resources.length := by
  induction resources generalizing pool with
  | nil => simp
  | cons resource resources ih =>
      rw [List.foldl_cons, ih]
      simp only [untrack, Counter.balance_down, List.length_cons]
      omega

theorem size_foldl_untrack {resources : List R} {pool : Pool R}
    (hkeys : pool.tracked.keys.Nodup) (hnodup : resources.Nodup)
    (hpresent : ∀ resource ∈ resources, (pool.checkedOut? resource).isSome) :
    (resources.foldl untrack pool).size + resources.length = pool.size := by
  induction resources generalizing pool with
  | nil => rfl
  | cons resource resources ih =>
      obtain ⟨hnew, hnodup⟩ := List.nodup_cons.mp hnodup
      have hrest : ∀ other ∈ resources, ((pool.untrack resource).checkedOut? other).isSome := by
        intro other hother
        have hne : other ≠ resource := fun heq => hnew (heq ▸ hother)
        rw [checkedOut?_untrack, if_neg hne]
        exact hpresent other (List.mem_cons_of_mem _ hother)
      have hsize := size_untrack hkeys (hpresent resource List.mem_cons_self)
      have ih := ih (Table.nodup_keys_erase hkeys resource) hnodup hrest
      rw [List.foldl_cons, List.length_cons]
      omega

/-! A pass over the available resources: those taken are tracked no more, and those kept stay in
their order. -/

theorem pool_sweep (now : Reading) (available : List R) (pool : Pool R) :
    (sweep now available pool).2.2 = (sweep now available pool).1.foldl untrack pool := by
  induction available generalizing pool with
  | nil => rfl
  | cons resource available ih =>
      rw [sweep]
      split
      next => exact ih (pool.untrack resource)
      next => exact ih pool

theorem perm_sweep (now : Reading) (available : List R) (pool : Pool R) :
    available.Perm ((sweep now available pool).1 ++ (sweep now available pool).2.1) := by
  induction available generalizing pool with
  | nil => exact List.Perm.refl _
  | cons resource available ih =>
      rw [sweep]
      split
      next => exact (ih (pool.untrack resource)).cons resource
      next => exact ((ih pool).cons resource).trans List.perm_middle.symm

theorem taken_sweep (now : Reading) (available : List R) (pool : Pool R) :
    (sweep now available pool).1.Nodup ∧
      ∀ resource ∈ (sweep now available pool).1, (pool.checkedOut? resource).isSome := by
  induction available generalizing pool with
  | nil => simp [sweep]
  | cons resource available ih =>
      rw [sweep]
      split
      next hexpired =>
        obtain ⟨hnodup, hpresent⟩ := ih (pool.untrack resource)
        have hrest : ∀ other ∈ (sweep now available (pool.untrack resource)).1,
            other ≠ resource ∧ (pool.checkedOut? other).isSome := by
          intro other hother
          have hleft := hpresent other hother
          rw [checkedOut?_untrack] at hleft
          split at hleft
          next => simp at hleft
          next hne => exact ⟨hne, hleft⟩
        have htracked : (pool.checkedOut? resource).isSome := by
          have hexpired := hexpired.2
          rw [isExpired] at hexpired
          split at hexpired
          next tracked htracked => simp [checkedOut?, htracked]
          next => simp at hexpired
        refine ⟨List.nodup_cons.mpr ⟨fun hmem => (hrest resource hmem).1 rfl, hnodup⟩, ?_⟩
        intro other hother
        rcases List.mem_cons.mp hother with rfl | hother
        · exact htracked
        · exact (hrest other hother).2
      next => exact ih pool

theorem sweep_never (now : Reading) (available : List R) {pool : Pool R}
    (hnever : pool.expiry = .never) : sweep now available pool = ([], available, pool) := by
  induction available with
  | nil => rfl
  | cons resource available ih =>
      have hfresh : pool.isExpired now resource = false := by
        unfold isExpired
        split
        next => rw [hnever, Expiry.expired]
        next => rfl
      simp [sweep, hfresh, ih]

theorem collect_never {pool : Pool R} (hnever : pool.expiry = .never) (now : Reading) :
    pool.collect now = ([], pool) := by
  rw [collect, sweep_never now pool.available hnever]
  exact ite_self _

end Pooling.Elastic.Pool
