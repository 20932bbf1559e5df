import Pooling.Proofs.Elastic.Places
import Pooling.Proofs.Handles.Lending
import Pooling.Proofs.Handles.Owing

/-!
An elastic pool that is used through handles. It knows a resource by the value that a handle gives
back, and the handle lends that value out to be written.
-/

namespace Pooling.Elastic

open Handles

variable {R : Type} [DecidableEq R]

def Next.taken? : Next R → Option Bool
  | .finish .released => some true
  | _ => none

/-- How far a call is that gives a resource back: whether the pool has taken it. -/
def Call.taken? : Call R → Option Bool
  | .returning _ _ => some false
  | .closing _ next => next.taken?
  | .after next => next.taken?
  | _ => none

def Call.handed : Call R → List R
  | .done (.acquired resource) => [resource]
  | _ => []

/-- The resource that a caller gives back with the call it begins. -/
def Move.gives? : Move R → Option R
  | .begin (.release resource) _ => some resource
  | _ => none

omit [DecidableEq R] in
@[simp] theorem Call.taken?_woken (call : Call R) : call.woken.taken? = call.taken? := by
  cases call <;> rfl

theorem Caller.held_follow_nil {move : Move R} (hgives : move.gives? = none) (call next : Call R) :
    (Caller.follow ⟨call, []⟩ move next).held = next.handed := by
  unfold follow Call.handed
  split
  next => cases hgives
  next => rfl
  next _ hnot =>
    split
    next resource => exact (hnot resource rfl).elim
    next => rfl

omit [DecidableEq R] in
theorem Call.returning_of_taken? {call : Call R} (htaken : call.taken? = some false) :
    ∃ resource reading, call = .returning resource reading := by
  cases call with
  | returning resource reading => exact ⟨resource, reading, rfl⟩
  | closing resource next | after next =>
      cases next with
      | finish outcome => cases outcome <;> cases htaken
      | _ => cases htaken
  | _ => cases htaken

omit [DecidableEq R] in
theorem Call.returned_of_taken? {call : Call R} (htaken : call.taken? ≠ some false) :
    call.returned = [] := by
  cases call with
  | returning => exact absurd rfl htaken
  | _ => rfl

omit [DecidableEq R] in
theorem Call.handed_of_taken? {call : Call R}
    (hover : call = .done .released ∨ call.taken? = some true) : call.handed = [] := by
  rcases hover with rfl | htaken
  · rfl
  · cases call with
    | done => cases htaken
    | _ => rfl

omit [DecidableEq R] in
theorem Call.handed_eq_nil {call : Call R} (hnot : ∀ resource, call ≠ .done (.acquired resource)) :
    call.handed = [] := by
  unfold handed
  split
  next resource => exact absurd rfl (hnot resource)
  next => rfl

namespace Transition

variable {move : Move R} {call : Call R} {pool : Pool R} {advanced : Call.Advanced R}

theorem returned_eq_nil (htransition : Transition move call pool advanced)
    (hgives : move.gives? = none) : advanced.call.returned = [] := by
  cases htransition with
  | begin request now outcome =>
      cases request with
      | release resource => cases hgives
      | _ => rfl
  | raised => rfl
  | _ => rfl

theorem taken?_eq_none (htransition : Transition move call pool advanced)
    (hgives : move.gives? = none) (hnone : call.taken? = none) :
    advanced.call.taken? = none := by
  cases htransition with
  | begin request now outcome =>
      cases request with
      | release resource => cases hgives
      | _ => rfl
  | pooled | returnedLate | refused => cases hnone
  | disposed => exact hnone
  | _ => rfl

theorem of_gives (htransition : Transition move call pool advanced) {resource : R}
    (hgives : move.gives? = some resource) :
    ∃ now outcome, move = .begin (.release resource) now ∧ call = .done outcome ∧
      advanced = { pool, call := .returning resource now } := by
  cases htransition with
  | begin request now outcome =>
      cases request with
      | release given =>
          cases hgives
          exact ⟨now, outcome, rfl, rfl, rfl⟩
      | _ => cases hgives
  | _ => cases hgives

theorem of_retire (htransition : Transition move call pool advanced)
    (hretire : call.need = .retire) :
    move = .retire ∧ call = .retiring ∧ advanced = { pool, call := .done .closed } := by
  cases htransition with
  | retired => exact ⟨rfl, rfl, rfl⟩
  | raised text call pool hasked =>
      rcases hasked with rfl | ⟨_, _, rfl⟩ | ⟨_, _, rfl⟩ <;> cases hretire
  | _ => cases hretire

theorem handed_of_done (htransition : Transition move call pool advanced) {outcome : Outcome R}
    (hdone : call = .done outcome) : advanced.call.handed = [] := by
  cases htransition with
  | begin request => cases request <;> rfl
  | raised => rfl
  | _ => cases hdone

/-- What becomes of a call that gives a resource back. -/
theorem of_returning {resource : R} {reading : Reading}
    (htransition : Transition move (.returning resource reading) pool advanced) :
    (pool.checkedOut? resource = some true ∧
        (advanced.call = .done .released ∨ advanced.call.taken? = some true)) ∨
      (pool.checkedOut? resource ≠ some true ∧ advanced.pool = pool ∧
        ∃ misuse, advanced.call = .done (.failed (.invalidArgument misuse))) := by
  cases htransition with
  | pooled _ _ now hopen hout => exact .inl ⟨hout, .inl rfl⟩
  | returnedLate _ _ now hclosed hout => exact .inl ⟨hout, .inr rfl⟩
  | refused _ _ now misuse hnot => exact .inr ⟨hnot, rfl, misuse, rfl⟩
  | raised text _ _ hasked => simp at hasked

theorem of_taken (htransition : Transition move call pool advanced)
    (hunraised : ∀ text, move ≠ .raise text) (htaken : call.taken? = some true) :
    advanced.call = .done .released ∨ advanced.call.taken? = some true := by
  cases htransition with
  | disposed => exact .inr htaken
  | finished outcome =>
      cases outcome with
      | released => exact .inl rfl
      | _ => cases htaken
  | raised text => exact absurd rfl (hunraised text)
  | _ => cases htaken

/-- What a call hands out was checked out for it, and what it gives back ceases to be. -/
theorem out_handed (htransition : Transition move call pool advanced)
    (hconsistent : pool.Consistent) (hgives : move.gives? = none)
    (hunraised : ∀ text, move ≠ .raise text) (hbarren : call.Barren)
    (hvetted : ∀ resource ∈ call.vetted, pool.checkedOut? resource = some true)
    (hreturned : ∀ resource ∈ call.returned, pool.checkedOut? resource = some true)
    (resource : R) :
    pool.out resource + advanced.call.vetted.count resource +
        advanced.call.handed.count resource =
      advanced.pool.out resource + call.vetted.count resource + call.returned.count resource := by
  have hfair : Fair move ⟨call, []⟩ pool := by
    refine ⟨?_, hvetted, hreturned, hbarren⟩
    rintro given now rfl
    cases hgives
  have hmoved : (Caller.follow ⟨call, []⟩ move advanced.call).holdings =
      advanced.call.handed := by
    rw [Caller.holdings, Caller.call_follow, htransition.returned_eq_nil hgives, List.append_nil]
    exact Caller.held_follow_nil hgives call advanced.call
  have hout := htransition.out_eq hconsistent hfair resource
  rw [hmoved, Move.strands_of_unraised hunraised] at hout
  simpa [Caller.holdings] using hout

end Transition

namespace System

/-- An elastic pool as handles know it. -/
def asHost : Host (System R) (Event R) R where
  step? := step?
  caller := Event.caller
  need? system index := system.callers[index]?.map fun caller => caller.call.need
  gives? event := event.move.gives?

/-- What shows of a caller that gives a resource back: how far it is, and what it still has. -/
def stance? (system : System R) (index : Nat) : Option (Option Bool × List R) :=
  system.callers[index]?.map fun caller => (caller.call.taken?, caller.call.returned)

namespace Stepped

variable {before after : System R} {event : Event R} {caller : Caller R}
  {advanced : Call.Advanced R} {counter : Counter}

theorem stance?_eq (hstepped : Stepped before event after caller advanced) (index : Nat) :
    after.stance? index =
      if index = event.caller then some (advanced.call.taken?, advanced.call.returned)
      else before.stance? index := by
  refine Waking.map_getElem?_step hstepped.caller_at hstepped.waking (fun caller => ?_) index
  simp [Caller.woken]

theorem stance?_before (hstepped : Stepped before event after caller advanced) :
    before.stance? event.caller = some (caller.call.taken?, caller.call.returned) := by
  rw [stance?, hstepped.caller_at, Option.map_some]

theorem need?_before (hstepped : Stepped before event after caller advanced) :
    asHost.need? before event.caller = some caller.call.need :=
  congrArg (Option.map _) hstepped.caller_at

theorem need?_of_done (hstepped : Stepped before event after caller advanced)
    {outcome : Outcome R} (hdone : advanced.call = .done outcome) :
    asHost.need? after event.caller = some (.done outcome) := by
  obtain ⟨moved, hmoved, hcall⟩ := hstepped.done_after hdone
  exact Option.map_eq_some_iff.mpr ⟨moved, hmoved, by rw [hcall, Call.need]⟩

theorem call_eq_of_done (hstepped : Stepped before event after caller advanced)
    {outcome : Outcome R}
    (hdone : asHost.need? after event.caller = some (.done outcome)) :
    advanced.call = .done outcome := by
  obtain ⟨moved, hmoved, hneed⟩ := Option.map_eq_some_iff.mp hdone
  obtain ⟨mid, hmid, hawake⟩ := hstepped.caller_after hmoved
  rcases hmid with ⟨rfl, -⟩ | ⟨-, hne⟩
  · rcases hawake with rfl | rfl
    · exact Call.eq_of_need hneed
    · exact Call.eq_of_woken (Call.eq_of_need hneed) (by simp)
  · exact absurd rfl hne

theorem out_handed (hstepped : Stepped before event after caller advanced)
    (hsound : before.Sound counter) (hgives : event.move.gives? = none)
    (hunraised : ∀ text, event.move ≠ .raise text) (hbarren : caller.call.Barren)
    (hreturned : ∀ resource ∈ caller.call.returned, before.pool.checkedOut? resource = some true)
    (resource : R) :
    before.pool.out resource + after.vetted.count resource +
        advanced.call.handed.count resource =
      after.pool.out resource + before.vetted.count resource +
        caller.call.returned.count resource := by
  have hmove := hstepped.transition.out_handed hsound.consistent hgives hunraised hbarren
    (fun resource => hstepped.checkedOut_of_vetted hsound) hreturned resource
  have hvetted := hstepped.tally_eq (fun caller => caller.call.vetted.count resource)
    (fun caller => congrArg (List.count resource) caller.call.vetted_woken)
  simp only [Caller.call_follow] at hvetted
  rw [count_vetted, count_vetted, hstepped.pool_eq]
  omega

end Stepped

/-- What is checked out is vetted by a call or owed by a handle, and each slot that is reserved is
some call's. -/
structure Balanced (counter : Counter) (custody : Custody R) (pending : List Nat)
    (system : System R) : Prop where
  sound : system.Sound counter
  creating_eq : system.pool.creating = tally (fun caller => caller.call.reserved) system.callers
  barren : ∀ caller ∈ system.callers, caller.call.Barren
  owing : custody.Owing pending
  out_eq : ∀ resource, system.pool.out resource =
    system.vetted.count resource + (custody.owed pending).count resource

namespace Balanced

variable {before after : System R} {event : Event R} {caller : Caller R}
  {advanced : Call.Advanced R} {counter : Counter} {custody next : Custody R}
  {pending : List Nat}

theorem out_of_owed (hbalanced : Balanced counter custody pending before) {resource : R}
    (howed : resource ∈ custody.owed pending) :
    before.pool.checkedOut? resource = some true ∧ resource ∉ before.vetted := by
  have hpos := List.count_pos_iff.mpr howed
  have hout := hbalanced.out_eq resource
  have hle := before.pool.out_le_one resource
  constructor
  · unfold Pool.out at hout
    split at hout
    next hchecked => exact hchecked
    next => omega
  · exact List.count_eq_zero.mp (by omega)

theorem not_vetted (hbalanced : Balanced counter custody pending before) {resource : R}
    (hnot : before.pool.checkedOut? resource ≠ some true) : resource ∉ before.vetted := by
  have hout := hbalanced.out_eq resource
  rw [Pool.out, if_neg hnot] at hout
  exact List.count_eq_zero.mp (by omega)

/-- A call goes on, and those who owe change by what it hands out and takes back. -/
theorem follow (hbalanced : Balanced counter custody pending before)
    (hstepped : Stepped before event after caller advanced)
    (hgives : event.move.gives? = none) (hunraised : ∀ text, event.move ≠ .raise text)
    (hreturned : ∀ resource ∈ caller.call.returned,
      before.pool.checkedOut? resource = some true ∧ resource ∉ before.vetted)
    {later : List Nat} (howing : next.Owing later)
    (howed : ∀ resource, (custody.owed pending).count resource +
        advanced.call.handed.count resource =
      (next.owed later).count resource + caller.call.returned.count resource) :
    Balanced counter next later after where
  sound := by
    apply hstepped.sound hbalanced.sound
    simp only [careful, hstepped.caller_at, List.all_eq_true, decide_eq_true_eq]
    exact fun resource hmem => (hreturned resource hmem).2
  creating_eq := hstepped.creating_eq hbalanced.sound.bounded hunraised hbalanced.creating_eq
  barren := by
    refine hstepped.forall_callers (fun caller hbarren => hbarren.woken) hbalanced.barren ?_
    exact hstepped.transition.barren (hbalanced.barren caller hstepped.mem_callers)
  owing := howing
  out_eq := by
    intro resource
    have hout := hstepped.out_handed hbalanced.sound hgives hunraised
      (hbalanced.barren caller hstepped.mem_callers)
      (fun resource hmem => (hreturned resource hmem).1) resource
    have hbefore := hbalanced.out_eq resource
    have howed := howed resource
    omega

theorem quiet (hbalanced : Balanced counter custody pending before)
    (hstepped : Stepped before event after caller advanced)
    (hgives : event.move.gives? = none) (hunraised : ∀ text, event.move ≠ .raise text)
    (hreturned : caller.call.returned = []) (hhanded : advanced.call.handed = []) :
    Balanced counter custody pending after := by
  refine hbalanced.follow hstepped hgives hunraised ?_ hbalanced.owing ?_
  · simp [hreturned]
  · simp [hreturned, hhanded]

/-- A step that leaves the pool alone and vets nothing. -/
theorem still (hbalanced : Balanced counter custody pending before)
    (hstepped : Stepped before event after caller advanced)
    (hunraised : ∀ text, event.move ≠ .raise text)
    (hreturned : ∀ resource ∈ caller.call.returned, resource ∉ before.vetted)
    (hpool : advanced.pool = before.pool) (hcall : caller.call.vetted = [])
    (hnext : advanced.call.vetted = []) : Balanced counter custody pending after where
  sound := by
    apply hstepped.sound hbalanced.sound
    simpa only [careful, hstepped.caller_at, List.all_eq_true, decide_eq_true_eq] using hreturned
  creating_eq := hstepped.creating_eq hbalanced.sound.bounded hunraised hbalanced.creating_eq
  barren := by
    refine hstepped.forall_callers (fun caller hbarren => hbarren.woken) hbalanced.barren ?_
    exact hstepped.transition.barren (hbalanced.barren caller hstepped.mem_callers)
  owing := hbalanced.owing
  out_eq := by
    intro resource
    have hvetted := hstepped.tally_eq (fun caller => caller.call.vetted.count resource)
      (fun caller => congrArg (List.count resource) caller.call.vetted_woken)
    simp only [Caller.call_follow, hcall, hnext, List.count_nil, Nat.add_zero] at hvetted
    rw [hstepped.pool_eq, hpool, hbalanced.out_eq, count_vetted, count_vetted, hvetted]

theorem of_custody (hbalanced : Balanced counter custody pending before)
    (howing : next.Owing pending) (howed : next.owed pending = custody.owed pending) :
    Balanced counter next pending before where
  sound := hbalanced.sound
  creating_eq := hbalanced.creating_eq
  barren := hbalanced.barren
  owing := howing
  out_eq := fun resource => by rw [howed, hbalanced.out_eq]

end Balanced

end System

end Pooling.Elastic
