import Pooling.Proofs.Elastic.Transitions

/-!
The capacity of an elastic pool: no order of calls, and no argument of a release, makes it track
and reserve more than it may.
-/

namespace Pooling.Elastic

variable {R : Type} [DecidableEq R]

/-- The slots that a call has reserved: one while the factory makes its resource. -/
def Call.reserved : Call R → Nat
  | .making => 1
  | .registering _ => 1
  | _ => 0

omit [DecidableEq R] in
@[simp] theorem Call.reserved_request (request : Request R) (now : Reading) :
    (request.call now).reserved = 0 := by
  cases request <;> rfl

omit [DecidableEq R] in
@[simp] theorem Call.reserved_woken (call : Call R) : call.woken.reserved = call.reserved := by
  cases call <;> rfl

/-- The slots that a move leaves reserved for nobody: one where the making of a resource raises. -/
def Move.wastes : Move R → Call R → Nat
  | raise _, .making => 1
  | _, _ => 0

omit [DecidableEq R] in
theorem Move.wastes_of_unraised {move : Move R} (hunraised : ∀ text, move ≠ .raise text)
    (call : Call R) : move.wastes call = 0 := by
  cases move with
  | raise text => exact absurd rfl (hunraised text)
  | _ => rfl

namespace Pool

structure Within (pool : Pool R) : Prop where
  nodup_keys : pool.tracked.keys.Nodup
  size_le : pool.size + pool.creating ≤ pool.maxCapacity

omit [DecidableEq R] in
theorem Within.of_same_keys {pool other : Pool R} (hwithin : pool.Within)
    (hkeys : other.tracked.keys = pool.tracked.keys) (hcreating : other.creating ≤ pool.creating)
    (hmax : other.maxCapacity = pool.maxCapacity) : other.Within where
  nodup_keys := hkeys ▸ hwithin.nodup_keys
  size_le := by
    have hsize : other.size = pool.size := by
      simp only [size, ← Table.length_keys, hkeys]
    have hle := hwithin.size_le
    omega

theorem Within.untrack {pool : Pool R} (hwithin : pool.Within) (resource : R) :
    (pool.untrack resource).Within where
  nodup_keys := Table.nodup_keys_erase hwithin.nodup_keys resource
  size_le := Nat.le_trans (Nat.add_le_add_right (size_untrack_le pool resource) _) hwithin.size_le

theorem Within.foldl_untrack {pool : Pool R} (hwithin : pool.Within) (resources : List R) :
    (resources.foldl Pool.untrack pool).Within := by
  induction resources generalizing pool with
  | nil => exact hwithin
  | cons resource resources ih => exact ih (hwithin.untrack resource)

theorem Within.track {pool : Pool R} (hwithin : pool.Within) (hreserved : 0 < pool.creating)
    {resource : R} (hnew : pool.checkedOut? resource = none) (now : Reading) :
    (Pool.track { pool with creating := pool.creating - 1 } resource now).Within where
  nodup_keys := Table.nodup_keys_insert hwithin.nodup_keys _ _
  size_le := by
    have hsize := size_track { pool with creating := pool.creating - 1 } hnew now
    have hle := hwithin.size_le
    rw [hsize]
    show pool.size + 1 + (pool.creating - 1) ≤ pool.maxCapacity
    omega

end Pool

theorem Transition.same_options {move : Move R} {call : Call R} {pool : Pool R}
    {advanced : Call.Advanced R} (htransition : Transition move call pool advanced) :
    advanced.pool.maxCapacity = pool.maxCapacity ∧
      advanced.pool.minCapacity = pool.minCapacity ∧
      advanced.pool.selection = pool.selection ∧ advanced.pool.expiry = pool.expiry := by
  cases htransition with
  | scanned now hopen hperm hnodup htracked =>
      rw [Pool.foldl_untrack_eq]
      exact ⟨rfl, rfl, rfl, rfl⟩
  | shut now hopen hcount =>
      rw [Pool.foldl_untrack_eq]
      exact ⟨rfl, rfl, rfl, rfl⟩
  | _ => exact ⟨rfl, rfl, rfl, rfl⟩

theorem Transition.closed_of_closed {move : Move R} {call : Call R} {pool : Pool R}
    {advanced : Call.Advanced R} (htransition : Transition move call pool advanced)
    (hclosed : pool.closed = true) : advanced.pool.closed = true := by
  cases htransition with
  | scanned now hopen | shut now hopen => simp [hopen] at hclosed
  | cutShort => rfl
  | _ => exact hclosed

theorem Transition.within {move : Move R} {call : Call R} {pool : Pool R}
    {advanced : Call.Advanced R} (htransition : Transition move call pool advanced)
    (hwithin : pool.Within) (hreserved : call.reserved ≤ pool.creating) :
    advanced.pool.Within := by
  cases htransition with
  | granted patience waited now hopen hchosen =>
      exact hwithin.of_same_keys (Table.keys_modify _ _ _) (Nat.le_refl _) rfl
  | reserved patience waited now hopen hnone hroom => exact ⟨hwithin.nodup_keys, hroom⟩
  | kept resource now hopen hnew => exact hwithin.track hreserved hnew now
  | forgot patience resource now htracked =>
      exact (hwithin.untrack resource).of_same_keys rfl (Nat.le_refl _) rfl
  | pooled resource reading now hopen hout =>
      exact hwithin.of_same_keys (Table.keys_modify _ _ _) (Nat.le_refl _) rfl
  | returnedLate resource reading now hclosed hout =>
      have hreturned : (pool.markReturned resource reading).Within :=
        hwithin.of_same_keys (Table.keys_modify _ _ _) (Nat.le_refl _) rfl
      exact hreturned.untrack resource
  | @scanned now _ hopen taken left hperm hnodup htracked =>
      exact (hwithin.foldl_untrack taken).of_same_keys rfl (Nat.le_refl _) rfl
  | shut now hopen hcount =>
      have hshut : ({ pool with closed := true, available := [] } : Pool R).Within :=
        hwithin.of_same_keys rfl (Nat.le_refl _) rfl
      exact hshut.foldl_untrack pool.available
  | failed | late | duplicate => exact hwithin.of_same_keys rfl (Nat.sub_le _ _) rfl
  | _ => exact hwithin.of_same_keys rfl (Nat.le_refl _) rfl

/-- A call reserves a slot in the pool when it comes to have one, and gives it back when it has had
it, unless it is wasted. -/
theorem Transition.reserved_eq {move : Move R} {call : Call R} {pool : Pool R}
    {advanced : Call.Advanced R} (htransition : Transition move call pool advanced)
    (hreserved : call.reserved ≤ pool.creating) :
    pool.creating + advanced.call.reserved + move.wastes call =
      advanced.pool.creating + call.reserved := by
  cases htransition with
  | begin request now outcome =>
      rw [Call.reserved_request]
      rfl
  -- The four ends of a creation give the slot back, which is there to be given back.
  | failed | late | duplicate | kept =>
      simp only [Call.reserved, Pool.track, Move.wastes] at hreserved ⊢
      omega
  | scanned | shut =>
      rw [Pool.foldl_untrack_eq]
      rfl
  | raised text call pool hasked =>
      rcases hasked with rfl | ⟨_, _, rfl⟩ | ⟨_, _, rfl⟩ <;> rfl
  | _ => rfl

namespace System

/-- The tracked resources and the reserved slots are no more than the pool may have, and every call
in the making has a slot. -/
structure Bounded (system : System R) : Prop where
  within : system.pool.Within
  reserved_le : tally (fun caller => caller.call.reserved) system.callers ≤ system.pool.creating

omit [DecidableEq R] in
theorem bounded_start (options : ElasticOptions) (counter : Counter) (count : Nat) :
    (start options counter count : System R).Bounded where
  within := ⟨List.nodup_nil, Nat.zero_le _⟩
  reserved_le := by
    apply Nat.le_of_eq
    apply Tally.tally_eq_zero_iff.mpr
    intro caller hcaller
    rw [eq_of_mem_start hcaller]
    rfl

namespace Stepped

variable {before after : System R} {event : Event R} {caller : Caller R}
  {advanced : Call.Advanced R}

theorem transition (hstepped : Stepped before event after caller advanced) :
    Transition event.move caller.call before.pool advanced :=
  transition_of_perform? hstepped.performed

theorem reserved_le (hstepped : Stepped before event after caller advanced)
    (hbounded : before.Bounded) : caller.call.reserved ≤ before.pool.creating :=
  Nat.le_trans (Tally.le_tally (fun caller => caller.call.reserved) hstepped.mem_callers)
    hbounded.reserved_le

theorem bounded (hstepped : Stepped before event after caller advanced)
    (hbounded : before.Bounded) : after.Bounded where
  within := by
    rw [hstepped.pool_eq]
    exact hstepped.transition.within hbounded.within (hstepped.reserved_le hbounded)
  reserved_le := by
    have htally := hstepped.tally_eq (fun caller => caller.call.reserved)
      (fun caller => caller.call.reserved_woken)
    have hmove := hstepped.transition.reserved_eq (hstepped.reserved_le hbounded)
    have hle := hbounded.reserved_le
    rw [hstepped.pool_eq]
    simp only [Caller.follow] at htally
    omega

/-- As long as nothing is wasted, each slot that is reserved is some call's. -/
theorem creating_eq (hstepped : Stepped before event after caller advanced)
    (hbounded : before.Bounded) (hunraised : ∀ text, event.move ≠ .raise text)
    (hbefore : before.pool.creating =
      tally (fun caller => caller.call.reserved) before.callers) :
    after.pool.creating = tally (fun caller => caller.call.reserved) after.callers := by
  have hmove := hstepped.transition.reserved_eq (hstepped.reserved_le hbounded)
  have htally := hstepped.tally_eq (fun caller => caller.call.reserved)
    (fun caller => caller.call.reserved_woken)
  rw [Move.wastes_of_unraised hunraised] at hmove
  simp only [Caller.call_follow] at htally
  rw [hstepped.pool_eq]
  omega

end Stepped

theorem Reaches.bounded {law : Law R} {options : ElasticOptions} {counter : Counter} {count : Nat}
    {system : System R} (hreaches : Reaches law (start options counter count) system) :
    system.Bounded :=
  hreaches.stepwise Bounded (bounded_start options counter count)
    fun hbounded _ hstepped => hstepped.bounded hbounded

theorem Reaches.maxCapacity_eq {law : Law R} {before after : System R}
    (hreaches : Reaches law before after) :
    after.pool.maxCapacity = before.pool.maxCapacity := by
  refine hreaches.stepwise
    (fun system => system.pool.maxCapacity = before.pool.maxCapacity) rfl ?_
  intro system next event caller advanced hsame _ hstepped
  rw [hstepped.pool_eq, hstepped.transition.same_options.1, hsame]

theorem Reaches.closed_of_closed {law : Law R} {before after : System R}
    (hreaches : Reaches law before after) (hclosed : before.pool.closed = true) :
    after.pool.closed = true := by
  refine hreaches.stepwise (fun system => system.pool.closed = true) hclosed ?_
  intro system next event caller advanced hclosed _ hstepped
  rw [hstepped.pool_eq]
  exact hstepped.transition.closed_of_closed hclosed

end System

end Pooling.Elastic
