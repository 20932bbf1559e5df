import Pooling.Proofs.Elastic.Representation
import Pooling.Proofs.Elastic.Solo

/-!
What holds of an elastic pool and of what its only caller holds, between any two calls.
-/

namespace Pooling.Elastic

variable {R : Type} [DecidableEq R]

/-- Just what is held is checked out, and nothing that the factory has yet to make is tracked. -/
structure Settled (script : Script R) (pool : Pool R) (held : List R) (asked : Nat) : Prop where
  consistent : pool.Consistent
  within : pool.Within
  nothing_reserved : pool.creating = 0
  count_held : ∀ resource, held.count resource = pool.out resource
  unmade : ∀ {turn : Nat} {resource : R}, asked ≤ turn → script.answer turn = .ok resource →
    pool.checkedOut? resource = none

theorem settled_start (script : Script R) (options : ElasticOptions) (counter : Counter) :
    Settled script (Pool.start options counter : Pool R) [] 0 where
  consistent := Pool.consistent_start options counter
  within := ⟨List.nodup_nil, Nat.zero_le _⟩
  nothing_reserved := rfl
  count_held := fun _ => rfl
  unmade := fun _ _ => rfl

namespace Settled

variable {script : Script R} {pool : Pool R} {held : List R} {asked : Nat}

theorem checkedOut_of_held (hsettled : Settled script pool held asked) {resource : R}
    (hheld : resource ∈ held) : pool.checkedOut? resource = some true := by
  have hpos := List.count_pos_iff.mpr hheld
  rw [hsettled.count_held] at hpos
  unfold Pool.out at hpos
  split at hpos
  next hout => exact hout
  next => omega

theorem record (hsettled : Settled script pool held asked) (count : Totals → Totals) :
    Settled script (pool.record count) held asked where
  consistent := hsettled.consistent.of_same rfl (fun _ => rfl) rfl
  within := hsettled.within.of_same_keys rfl (Nat.le_refl _) rfl
  nothing_reserved := hsettled.nothing_reserved
  count_held := hsettled.count_held
  unmade := hsettled.unmade

theorem pooled (hsettled : Settled script pool held asked) (hopen : pool.closed = false)
    {resource : R} {rest : List R}
    (hchoose : Pool.choose? pool.selection pool.available = some (resource, rest)) :
    Settled script (pool.checkOut resource rest) (resource :: held) asked where
  consistent := hsettled.consistent.checkOut hopen (Pool.perm_of_choose? hchoose)
  within := hsettled.within.of_same_keys (Table.keys_modify _ _ _) (Nat.le_refl _) rfl
  nothing_reserved := hsettled.nothing_reserved
  count_held := by
    intro other
    have hidle : pool.checkedOut? resource = some false := by
      rw [← hsettled.consistent.mem_available_iff, (Pool.perm_of_choose? hchoose).mem_iff]
      exact List.mem_cons_self
    rw [Pool.out_checkOut hidle, ← hsettled.count_held, Nat.add_comm, ← List.count_append]
    rfl
  unmade := by
    intro turn other hlater hmakes
    have hnone := hsettled.unmade hlater hmakes
    rw [Pool.checkedOut?_checkOut, hnone]
    exact ite_self _

theorem made (hsettled : Settled script pool held asked)
    (hroom : pool.size + pool.creating < pool.maxCapacity) {resource : R}
    (hmade : script.answer asked = .ok resource) (now : Reading) :
    Settled script (pool.track resource now) (resource :: held) (asked + 1) where
  consistent := hsettled.consistent.track (hsettled.unmade (Nat.le_refl _) hmade) now
  within := by
    have hnew := hsettled.unmade (Nat.le_refl _) hmade
    refine ⟨Table.nodup_keys_insert hsettled.within.nodup_keys _ _, ?_⟩
    rw [Pool.size_track pool hnew now]
    show pool.size + 1 + pool.creating ≤ pool.maxCapacity
    omega
  nothing_reserved := hsettled.nothing_reserved
  count_held := by
    intro other
    rw [Pool.out_track pool (hsettled.unmade (Nat.le_refl _) hmade), ← hsettled.count_held,
      Nat.add_comm, ← List.count_append]
    rfl
  unmade := by
    intro turn other hlater hmakes
    have hne : other ≠ resource := by
      rintro rfl
      have hsame := script.fresh hmade hmakes
      omega
    rw [Pool.checkedOut?_track, if_neg hne]
    exact hsettled.unmade (Nat.le_of_succ_le hlater) hmakes

theorem failed (hsettled : Settled script pool held asked) :
    Settled script pool held (asked + 1) :=
  { hsettled with unmade := fun hlater => hsettled.unmade (Nat.le_of_succ_le hlater) }

section Returning

variable {resource : R}

theorem count_erase (hsettled : Settled script pool held asked) (resource other : R) :
    (held.erase resource).count other = pool.out other - [resource].count other := by
  rw [List.count_erase, hsettled.count_held, List.count_singleton]

theorem returned (hsettled : Settled script pool held asked) (hopen : pool.closed = false)
    (hheld : resource ∈ held) (reading : Reading) :
    Settled script
      { pool.markReturned resource reading with available := resource :: pool.available }
      (held.erase resource) asked where
  consistent := hsettled.consistent.giveBack hopen (hsettled.checkedOut_of_held hheld) reading
  within := hsettled.within.of_same_keys (Table.keys_modify _ _ _) (Nat.le_refl _) rfl
  nothing_reserved := hsettled.nothing_reserved
  count_held := by
    intro other
    rw [hsettled.count_erase, ← pool.out_markReturned resource reading other]
    rfl
  unmade := by
    intro turn other hlater hmakes
    have hnone := hsettled.unmade hlater hmakes
    show (pool.markReturned resource reading).checkedOut? other = none
    rw [Pool.checkedOut?_markReturned, hnone]
    exact ite_self _

theorem returnedLate (hsettled : Settled script pool held asked) (hclosed : pool.closed = true)
    (resource : R) (reading : Reading) :
    Settled script ((pool.markReturned resource reading).untrack resource) (held.erase resource)
      asked where
  consistent := hsettled.consistent.returnLate hclosed resource reading
  within := by
    have hmarked : (pool.markReturned resource reading).Within :=
      hsettled.within.of_same_keys (Table.keys_modify _ _ _) (Nat.le_refl _) rfl
    exact hmarked.untrack resource
  nothing_reserved := hsettled.nothing_reserved
  count_held := by
    intro other
    have hle := pool.out_le_one other
    rw [hsettled.count_erase, Pool.out_untrack, Pool.out_markReturned]
    omega
  unmade := by
    intro turn other hlater hmakes
    have hnone := hsettled.unmade hlater hmakes
    rw [Pool.checkedOut?_untrack, Pool.checkedOut?_markReturned, hnone]
    simp

end Returning

theorem shut (hsettled : Settled script pool held asked) :
    Settled script (pool.available.foldl Pool.untrack { pool with closed := true, available := [] })
      held asked where
  consistent := hsettled.consistent.shut
  within := by
    have hshut : ({ pool with closed := true, available := [] } : Pool R).Within :=
      hsettled.within.of_same_keys rfl (Nat.le_refl _) rfl
    exact hshut.foldl_untrack pool.available
  nothing_reserved := by
    rw [Pool.foldl_untrack_eq]
    exact hsettled.nothing_reserved
  count_held := by
    intro resource
    rw [hsettled.consistent.out_shut]
    exact hsettled.count_held resource
  unmade := by
    intro turn resource hlater hmakes
    have hnone := hsettled.unmade hlater hmakes
    rw [Pool.checkedOut?_shut, Pool.checkedOut?_foldl_untrack, hnone]
    exact ite_self _

end Settled

end Pooling.Elastic
