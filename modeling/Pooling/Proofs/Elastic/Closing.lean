import Pooling.Proofs.Elastic.Places

/-!
Closing an elastic pool: once a call has closed it, it stays closed, and no call that begins
afterwards hands anything out.
-/

namespace Pooling.Elastic

variable {R : Type} [DecidableEq R]

def Next.PastShutting : Next R → Prop
  | .drain _ => True
  | .finish outcome => outcome = .closed
  | _ => False

namespace Call

/-- Calls that have closed the pool, and are disposing of what was in it or have answered. -/
def PastShutting : Call R → Prop
  | .closing _ next => next.PastShutting
  | .after next => next.PastShutting
  | .retiring => True
  | .done outcome => outcome = .closed
  | _ => False

/-- Calls that hand nothing out if the pool is closed: they are not past looking for a slot. -/
def Fruitless : Call R → Prop
  | .checking _ _ => False
  | call => call.Barren

omit [DecidableEq R] in
theorem Fruitless.woken {call : Call R} (hfruitless : call.Fruitless) : call.woken.Fruitless := by
  cases call <;> exact hfruitless

omit [DecidableEq R] in
theorem PastShutting.of_woken {call : Call R} (hpast : call.woken.PastShutting) :
    call.PastShutting := by
  cases call <;> exact hpast

end Call

namespace Transition

variable {move : Move R} {call : Call R} {pool : Pool R} {advanced : Call.Advanced R}

theorem closed_of_pastShutting (htransition : Transition move call pool advanced)
    (hclosed : call.PastShutting → pool.closed = true) (hpast : advanced.call.PastShutting) :
    advanced.pool.closed = true := by
  cases htransition with
  | shut now hopen hcount => rw [Pool.foldl_untrack_eq]
  | cutShort => rfl
  | shutAgain now hclosed => exact hclosed
  | disposed | finished | drained | drains => exact hclosed hpast
  | retired => exact hclosed trivial
  | begin request now outcome => cases request <;> cases hpast
  | _ => cases hpast

/-- In a closed pool a call that has not found a slot yet finds none. -/
theorem fruitless (htransition : Transition move call pool advanced) (hclosed : pool.closed = true)
    (hfruitless : call.Fruitless) :
    advanced.call.Fruitless ∧ ∀ resource, advanced.call ≠ .done (.acquired resource) := by
  cases htransition with
  | granted patience waited now hopen | kept made now hopen => simp [hopen] at hclosed
  | passed | condemned => exact hfruitless.elim
  | finished outcome now =>
      refine ⟨trivial, fun resource heq => ?_⟩
      cases heq
      exact hfruitless resource rfl
  | begin request now outcome => cases request <;> exact ⟨trivial, fun _ => nofun⟩
  | disposed | sweeps | drains => exact ⟨hfruitless, fun _ => nofun⟩
  | late | returnedLate => exact ⟨fun _ => nofun, fun _ => nofun⟩
  | _ => exact ⟨trivial, fun _ => nofun⟩

end Transition

/-- What has become of a caller that was between two calls when the pool was closed. -/
structure Caller.Unrewarded (idle moved : Caller R) : Prop where
  fruitless : moved.call.Fruitless
  held_sublist : moved.held.Sublist idle.held
  acquired_before : moved = idle ∨ ∀ resource, moved.call ≠ .done (.acquired resource)

namespace Caller

theorem held_follow_sublist {call : Call R} (hnot : ∀ resource, call ≠ .done (.acquired resource))
    (caller : Caller R) (move : Move R) : (caller.follow move call).held.Sublist caller.held := by
  unfold follow
  split
  next => exact List.erase_sublist
  next resource _ => exact absurd rfl (hnot resource)
  next => exact List.Sublist.refl _

omit [DecidableEq R] in
theorem woken_eq_of_done {caller : Caller R} {outcome : Outcome R}
    (hdone : caller.woken.call = .done outcome) : caller.woken = caller := by
  obtain ⟨call, held⟩ := caller
  cases call with
  | parked patience => cases hdone
  | _ => rfl

omit [DecidableEq R] in
theorem Unrewarded.woken {idle moved : Caller R} (hunrewarded : idle.Unrewarded moved) :
    idle.Unrewarded moved.woken where
  fruitless := hunrewarded.fruitless.woken
  held_sublist := hunrewarded.held_sublist
  acquired_before := by
    by_cases hsame : moved.woken = moved
    · rw [hsame]
      exact hunrewarded.acquired_before
    · exact .inr fun resource hdone => hsame (woken_eq_of_done hdone)

end Caller

namespace System

theorem Reaches.closed_of_pastShutting {law : Law R} {options : ElasticOptions}
    {counter : Counter} {count : Nat} {system : System R}
    (hreaches : Reaches law (start options counter count) system) :
    ∀ caller ∈ system.callers, caller.call.PastShutting → system.pool.closed = true := by
  refine hreaches.stepwise (fun system => ∀ caller ∈ system.callers,
    caller.call.PastShutting → system.pool.closed = true) ?_ ?_
  · intro caller hcaller hpast
    rw [eq_of_mem_start hcaller] at hpast
    cases hpast
  · intro before after event caller advanced hclosed _ hstepped
    rw [hstepped.pool_eq]
    refine hstepped.forall_callers (fun caller hkept hpast => hkept hpast.of_woken) ?_ ?_
    · intro other hother hpast
      exact hstepped.transition.closed_of_closed (hclosed other hother hpast)
    · exact hstepped.transition.closed_of_pastShutting (hclosed caller hstepped.mem_callers)

/-- A caller that is between two calls when the pool is closed holds no more at any later time. -/
theorem Reaches.unrewarded {law : Law R} {system later : System R}
    (hreaches : Reaches law system later) (hclosed : system.pool.closed = true) {index : Nat}
    {idle : Caller R} (hidle : system.callers[index]? = some idle) {outcome : Outcome R}
    (hdone : idle.call = .done outcome) :
    ∀ moved, later.callers[index]? = some moved → idle.Unrewarded moved := by
  refine (hreaches.stepwise (fun system => system.pool.closed = true ∧
    ∀ moved, system.callers[index]? = some moved → idle.Unrewarded moved) ⟨hclosed, ?_⟩ ?_).2
  · intro moved hmoved
    have heq : moved = idle := Option.some.inj (hmoved.symm.trans hidle)
    subst heq
    refine ⟨?_, List.Sublist.refl _, .inl rfl⟩
    rw [hdone]
    trivial
  · intro before after event caller advanced hkept _ hstepped
    obtain ⟨hclosed, hkept⟩ := hkept
    refine ⟨hstepped.pool_eq ▸ hstepped.transition.closed_of_closed hclosed, ?_⟩
    intro moved hmoved
    obtain ⟨mid, hmid, hawake⟩ := hstepped.caller_after hmoved
    have hunrewarded : idle.Unrewarded mid := by
      rcases hmid with ⟨rfl, hindex⟩ | ⟨hmid, -⟩
      · have hbefore := hkept caller (hindex ▸ hstepped.caller_at)
        obtain ⟨hfruitless, hnot⟩ :=
          hstepped.transition.fruitless hclosed hbefore.fruitless
        have hheld := Caller.held_follow_sublist hnot caller event.move
        exact ⟨hfruitless, hheld.trans hbefore.held_sublist, .inr hnot⟩
      · exact hkept mid hmid
    rcases hawake with rfl | rfl
    · exact hunrewarded
    · exact hunrewarded.woken

end System

end Pooling.Elastic
