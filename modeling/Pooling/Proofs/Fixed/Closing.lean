import Pooling.Proofs.Fixed.Transitions

/-!
Closing a fixed pool: once it is closed it stays closed, and nothing is put into its queue any more,
which the call that closed it empties.
-/

namespace Pooling.Fixed

variable {R : Type}

def Locked.drains : Locked R → Nat
  | .draining _ => 1
  | .drained _ _ => 1
  | _ => 0

def Locked.PastShutting : Locked R → Prop
  | .draining _ => True
  | .drained _ _ => True
  | .dismissing _ => True
  | _ => False

namespace Call

/-- One for a call that has closed the pool and is taking what is left out of the queue. -/
def drains : Call R → Nat
  | entering locked => locked.drains
  | inside locked => locked.drains
  | _ => 0

/-- Calls that only a closed pool has. -/
def PastShutting : Call R → Prop
  | entering locked => locked.PastShutting
  | inside locked => locked.PastShutting
  | leaving _ => True
  | closing _ _ => True
  | after _ => True
  | done outcome => outcome = .closed
  | _ => False

@[simp] theorem drains_woken (call : Call R) : call.woken.drains = call.drains := by
  cases call <;> rfl

theorem PastShutting.of_woken {call : Call R} (hpast : call.woken.PastShutting) :
    call.PastShutting := by
  cases call <;> exact hpast

end Call

namespace Transition

variable {move : Move R} {call : Call R} {pool : Pool R} {advanced : Call.Advanced R}

theorem closed_of_closed (htransition : Transition move call pool advanced)
    (hclosed : pool.closed = true) : advanced.pool.closed = true := by
  cases htransition with
  | shut => rfl
  | _ => exact hclosed

theorem closed_of_pastShutting (htransition : Transition move call pool advanced)
    (hclosed : call.PastShutting → pool.closed = true) (hpast : advanced.call.PastShutting) :
    advanced.pool.closed = true := by
  cases htransition with
  | begin request => cases request <;> cases hpast
  | late resource now hclosed | shutAgain now hclosed => exact hclosed
  | shut => rfl
  | entered => exact hclosed hpast
  | left | drew | emptied | struckOff | dismissed | disposed | finished | drainedAll | drains =>
      exact hclosed trivial
  | _ => cases hpast

theorem drains_le (htransition : Transition move call pool advanced)
    (hclosed : pool.closed = true) : advanced.call.drains ≤ call.drains := by
  cases htransition with
  | begin request => cases request <;> exact Nat.le_refl _
  | shut now hopen => simp [hopen] at hclosed
  | emptied | raised => exact Nat.zero_le _
  | _ => exact Nat.le_refl _

/-- In a closed pool the queue is empty, or its closer is at work on it, or at least nobody else
adds to it. -/
theorem emptied_or_drains (htransition : Transition move call pool advanced)
    (hclosed : advanced.pool.closed = true) :
    advanced.pool.queue = [] ∨ 0 < advanced.call.drains ∨
      pool.closed = true ∧ call.drains = 0 ∧ advanced.pool.queue <:+ pool.queue := by
  cases htransition with
  | popped patience now hqueue | repopped patience now hqueue =>
      exact .inr (.inr ⟨hclosed, rfl, hqueue ▸ List.suffix_cons _ _⟩)
  | entered locked now =>
      cases hdrains : locked.drains with
      | zero => exact .inr (.inr ⟨hclosed, hdrains, List.suffix_refl _⟩)
      | succ => exact .inr (.inl (Nat.lt_of_lt_of_eq (Nat.succ_pos _) hdrains.symm))
  | pooled resource now hopen =>
      cases hopen.symm.trans hclosed
  | shut | drew | struckOff => exact .inr (.inl Nat.one_pos)
  | emptied taken now hnone => exact .inl hnone
  | raised text call pool hasked =>
      obtain rfl | ⟨resource, next, rfl⟩ := hasked <;>
        exact .inr (.inr ⟨hclosed, rfl, List.suffix_refl _⟩)
  | _ => exact .inr (.inr ⟨hclosed, rfl, List.suffix_refl _⟩)

end Transition

namespace System

def drainers (system : System R) : Nat := tally (fun caller => caller.call.drains) system.callers

/-- A closed pool has an empty queue, or somebody is emptying it. -/
def Draining (system : System R) : Prop :=
  system.pool.closed = true → 0 < system.drainers ∨ system.pool.queue = []

theorem draining_start (maxCapacity : UInt64) (count : Nat) :
    (start maxCapacity count : System R).Draining :=
  fun hclosed => nomatch hclosed

variable [DecidableEq R]

namespace Stepped

variable {before after : System R} {event : Event R} {caller : Caller R}
  {advanced : Call.Advanced R}

theorem drainers_eq (hstepped : Stepped before event after caller advanced) :
    after.drainers + caller.call.drains = before.drainers + advanced.call.drains :=
  hstepped.tally_eq (fun caller => caller.call.drains) fun caller => caller.call.drains_woken

theorem draining (hstepped : Stepped before event after caller advanced)
    (hdraining : before.Draining) : after.Draining := by
  intro hclosed
  have hdrainers := hstepped.drainers_eq
  rw [hstepped.pool_eq] at hclosed ⊢
  rcases hstepped.transition.emptied_or_drains hclosed with hnone | hdrains | ⟨hbefore, hcall, hqueue⟩
  · exact .inr hnone
  · left
    have hle := Tally.le_tally (fun caller => caller.call.drains) hstepped.mem_callers
    simp only [drainers] at hdrainers ⊢
    omega
  · rcases hdraining hbefore with hpos | hnone
    · left
      omega
    · right
      rw [hnone] at hqueue
      exact List.suffix_nil.mp hqueue

theorem closed_of_pastShutting (hstepped : Stepped before event after caller advanced)
    (hclosed : ∀ caller ∈ before.callers, caller.call.PastShutting → before.pool.closed = true) :
    ∀ caller ∈ after.callers, caller.call.PastShutting → after.pool.closed = true := by
  rw [hstepped.pool_eq]
  refine hstepped.forall_callers (fun caller hkept hpast => hkept hpast.of_woken) ?_ ?_
  · intro other hother hpast
    exact hstepped.transition.closed_of_closed (hclosed other hother hpast)
  · exact hstepped.transition.closed_of_pastShutting (hclosed caller hstepped.mem_callers)

end Stepped

theorem Reaches.closed_of_pastShutting {law : Law R} {maxCapacity : UInt64} {count : Nat}
    {system : System R} (hreaches : Reaches law (start maxCapacity count) system) :
    ∀ caller ∈ system.callers, caller.call.PastShutting → system.pool.closed = true := by
  refine hreaches.stepwise (fun system => ∀ caller ∈ system.callers,
    caller.call.PastShutting → system.pool.closed = true) ?_ ?_
  · intro caller hcaller hpast
    rw [eq_of_mem_start hcaller] at hpast
    cases hpast
  · exact fun hclosed _ hstepped => hstepped.closed_of_pastShutting hclosed

theorem Reaches.draining {law : Law R} {maxCapacity : UInt64} {count : Nat} {system : System R}
    (hreaches : Reaches law (start maxCapacity count) system) : system.Draining :=
  hreaches.stepwise Draining (draining_start maxCapacity count)
    fun hdraining _ hstepped => hstepped.draining hdraining

/-- Once the queue of a closed pool has been emptied, it stays empty. -/
theorem Reaches.queue_of_drained {law : Law R} {system later : System R}
    (hreaches : Reaches law system later) (hdraining : system.Draining)
    (hclosed : system.pool.closed = true) (hdrained : system.drainers = 0) :
    later.pool.queue = [] := by
  have hkept : later.Draining ∧ later.pool.closed = true ∧ later.drainers = 0 := by
    refine hreaches.stepwise (fun system => system.Draining ∧ system.pool.closed = true ∧
      system.drainers = 0) ⟨hdraining, hclosed, hdrained⟩ ?_
    intro before after event caller advanced hkept _ hstepped
    obtain ⟨hdraining, hclosed, hdrained⟩ := hkept
    have hstays := hstepped.transition.closed_of_closed hclosed
    have hdrainers := hstepped.drainers_eq
    have hle := hstepped.transition.drains_le hclosed
    refine ⟨hstepped.draining hdraining, hstepped.pool_eq ▸ hstays, ?_⟩
    omega
  obtain ⟨hdraining, hclosed, hdrained⟩ := hkept
  rcases hdraining hclosed with hpos | hnone
  · omega
  · exact hnone

end System

end Pooling.Fixed
