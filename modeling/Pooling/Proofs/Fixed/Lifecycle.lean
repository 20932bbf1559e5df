import Pooling.Proofs.Fixed.Closing
import Pooling.Proofs.Fixed.Places

/-!
The life of a resource in a fixed pool, and of the slot that is counted for it: from its making to
its end it is at every moment in one place, and the count of slots is right to the end, whatever
calls overlap with the closing of the pool.
-/

namespace Pooling.Fixed

variable {R : Type}

inductive Place where
  | newborn
  | queued
  | held
  | doomed
  | closed
  deriving DecidableEq

namespace Place

def all : List Place := [newborn, queued, held, doomed, closed]

/-- What a caller has of the resources in a place. -/
def part (place : Place) (caller : Caller R) : List R :=
  match place with
  | newborn => caller.call.newborn
  | held => caller.holdings
  | doomed => caller.call.doomed
  | queued => []
  | closed => []

theorem part_woken (place : Place) (caller : Caller R) :
    place.part caller.woken = place.part caller := by
  cases place with
  | newborn => exact caller.call.newborn_woken
  | held => exact caller.holdings_woken
  | doomed => exact caller.call.doomed_woken
  | queued => rfl
  | closed => rfl

theorem part_default (place : Place) : place.part ({} : Caller R) = [] := by
  cases place <;> rfl

end Place

def Locked.Unburdened : Locked R → Prop
  | .deciding _ => False
  | .draining _ => False
  | .drained _ _ => False
  | .dismissing _ => False
  | _ => True

/-- A call that has no resource, no slot, and no part in closing the pool. -/
def Call.Unburdened : Call R → Prop
  | .making => False
  | .made _ => False
  | .returning _ => False
  | .entering locked => locked.Unburdened
  | .inside locked => locked.Unburdened
  | .leaving _ => False
  | .closing _ _ => False
  | .after _ => False
  | _ => True

theorem Call.Unburdened.nothing {call : Call R} (hunburdened : call.Unburdened) :
    call.reserved = 0 ∧ call.newborn = [] ∧ call.inHand = [] ∧ call.doomed = [] ∧
      call.drains = 0 := by
  cases call with
  | entering locked | inside locked =>
      cases locked with
      | deciding | draining | drained | dismissing => exact hunburdened.elim
      | _ => exact ⟨rfl, rfl, rfl, rfl, rfl⟩
  | making | made | returning | leaving | closing | after => exact hunburdened.elim
  | _ => exact ⟨rfl, rfl, rfl, rfl, rfl⟩

/-- A caller that has given back all it had. -/
structure Caller.Through (caller : Caller R) : Prop where
  nothing_held : caller.held = []
  unburdened : caller.call.Unburdened

theorem Caller.Through.slots_eq {caller : Caller R} (hthrough : caller.Through) :
    caller.slots = 0 := by
  obtain ⟨hreserved, -, hinHand, -⟩ := hthrough.unburdened.nothing
  rw [slots, holdings, hthrough.nothing_held, hinHand, hreserved]
  rfl

theorem Caller.Through.part_eq {caller : Caller R} (hthrough : caller.Through) (place : Place) :
    place.part caller = [] := by
  obtain ⟨-, hnewborn, hinHand, hdoomed, -⟩ := hthrough.unburdened.nothing
  cases place with
  | newborn => exact hnewborn
  | held =>
      show caller.held ++ caller.call.inHand = []
      rw [hthrough.nothing_held, hinHand]
      rfl
  | doomed => exact hdoomed
  | queued => rfl
  | closed => rfl

namespace System

def residents (system : System R) (place : Place) : List R :=
  match place with
  | .queued => system.pool.queue
  | .closed => system.disposed
  | place => system.callers.flatMap place.part

theorem tally_slots (system : System R) :
    tally Caller.slots system.callers = (system.residents .held).length + system.reserved := by
  show tally (fun caller => caller.holdings.length + caller.call.reserved) system.callers = _
  rw [Tally.tally_add]
  exact congrArg (· + system.reserved) (Tally.length_flatMap_eq_tally _ _).symm

variable [DecidableEq R]

/-- Nothing of the factory's raises, and callers give back only what they hold. -/
def honest : Law R := fun system event =>
  match event.move with
  | .begin (.release resource) _ =>
      system.callers[event.caller]?.all fun caller => resource ∈ caller.held
  | .raise _ => false
  | _ => true

/-- Callers give back only what they hold. -/
def upright : Law R := fun system event =>
  match event.move with
  | .begin (.release resource) _ =>
      system.callers[event.caller]?.all fun caller => resource ∈ caller.held
  | _ => true

theorem upright_of_honest {system : System R} {event : Event R}
    (hhonest : honest system event = true) : upright system event = true := by
  unfold upright
  split
  next resource now hbegin => simpa [honest, hbegin] using hhonest
  next => rfl

/-- Every slot that the queue and the callers take up is counted. -/
structure Tended (maxCapacity : UInt64) (system : System R) : Prop where
  maxCapacity_eq : system.pool.maxCapacity = maxCapacity.toNat
  slots_le : system.pool.queue.length + tally Caller.slots system.callers ≤ system.pool.size
  size_le : system.pool.size ≤ system.pool.maxCapacity
  barren : ∀ caller ∈ system.callers, caller.call.Barren

/-- Every slot and every resource is accounted for. -/
structure Accounted (maxCapacity : UInt64) (system : System R) : Prop where
  maxCapacity_eq : system.pool.maxCapacity = maxCapacity.toNat
  size_eq : system.pool.size = system.pool.queue.length + tally Caller.slots system.callers
  size_le : system.pool.size ≤ system.pool.maxCapacity
  barren : ∀ caller ∈ system.callers, caller.call.Barren
  count_eq : ∀ resource,
    (system.residents .newborn).count resource + (system.residents .queued).count resource +
        (system.residents .held).count resource + (system.residents .doomed).count resource +
        (system.residents .closed).count resource =
      system.made.count resource

theorem Accounted.tended {maxCapacity : UInt64} {system : System R}
    (haccounted : system.Accounted maxCapacity) : system.Tended maxCapacity where
  maxCapacity_eq := haccounted.maxCapacity_eq
  slots_le := Nat.le_of_eq haccounted.size_eq.symm
  size_le := haccounted.size_le
  barren := haccounted.barren

theorem accounted_start (maxCapacity : UInt64) (count : Nat) :
    (start maxCapacity count : System R).Accounted maxCapacity where
  maxCapacity_eq := rfl
  size_eq := by
    have hnone : tally Caller.slots (start maxCapacity count : System R).callers = 0 := by
      apply Tally.tally_eq_zero_iff.mpr
      intro caller hcaller
      rw [eq_of_mem_start hcaller]
      rfl
    rw [hnone]
    rfl
  size_le := Nat.zero_le _
  barren := by
    intro caller hcaller
    rw [eq_of_mem_start hcaller]
    trivial
  count_eq := by
    intro resource
    have hnone : ∀ place : Place,
        ((start maxCapacity count : System R).callers.flatMap place.part).count resource = 0 := by
      intro place
      rw [Tally.count_flatMap_eq_tally]
      apply Tally.tally_eq_zero_iff.mpr
      intro caller hcaller
      rw [eq_of_mem_start hcaller, place.part_default, List.count_nil]
    simp only [residents, hnone]
    rfl

namespace Stepped

variable {before after : System R} {event : Event R} {caller : Caller R}
  {advanced : Call.Advanced R} {maxCapacity : UInt64}

theorem slots_le (hstepped : Stepped before event after caller advanced)
    (htended : before.Tended maxCapacity) : caller.slots ≤ before.pool.size := by
  have hle := Tally.le_tally Caller.slots hstepped.mem_callers
  have hsize := htended.slots_le
  omega

theorem fair (hstepped : Stepped before event after caller advanced)
    (htended : before.Tended maxCapacity) (hupright : upright before event = true) :
    Fair event.move caller where
  held := by
    intro resource now hbegin
    simpa [upright, hbegin, hstepped.caller_at] using hupright
  barren := htended.barren caller hstepped.mem_callers

/-- What is counted and nobody's is so because it was wasted. -/
theorem size_eq (hstepped : Stepped before event after caller advanced)
    (htended : before.Tended maxCapacity) (hupright : upright before event = true) :
    after.pool.size + before.pool.queue.length + tally Caller.slots before.callers =
      before.pool.size + after.pool.queue.length + tally Caller.slots after.callers +
        event.move.wastes caller.call := by
  have hmax := htended.maxCapacity_eq ▸ maxCapacity.toNat_lt
  have hmove := hstepped.transition.counted (hstepped.fair htended hupright) hmax
    (hstepped.slots_le htended)
  have hslots := hstepped.tally_eq Caller.slots Caller.slots_woken
  rw [hstepped.pool_eq]
  omega

theorem tended (hstepped : Stepped before event after caller advanced)
    (htended : before.Tended maxCapacity) (hupright : upright before event = true) :
    after.Tended maxCapacity where
  maxCapacity_eq := by
    rw [hstepped.pool_eq, hstepped.transition.same_maxCapacity]
    exact htended.maxCapacity_eq
  slots_le := by
    have hstep := hstepped.size_eq htended hupright
    have hle := htended.slots_le
    omega
  size_le := by
    have hmax := htended.maxCapacity_eq ▸ maxCapacity.toNat_lt
    rw [hstepped.pool_eq, hstepped.transition.same_maxCapacity]
    exact hstepped.transition.size_le hmax (hstepped.slots_le htended) htended.size_le
  barren := by
    refine hstepped.forall_callers (fun caller hbarren => hbarren.woken) htended.barren ?_
    exact hstepped.transition.barren (htended.barren caller hstepped.mem_callers)

theorem orderly (hstepped : Stepped before event after caller advanced)
    (haccounted : before.Accounted maxCapacity) (hhonest : honest before event = true) :
    Orderly event.move caller where
  toFair := hstepped.fair haccounted.tended (upright_of_honest hhonest)
  unraised := by
    intro text hraise
    simp [honest, hraise] at hhonest

theorem count_part (hstepped : Stepped before event after caller advanced) (place : Place)
    (resource : R) :
    (after.callers.flatMap place.part).count resource + (place.part caller).count resource =
      (before.callers.flatMap place.part).count resource +
        (place.part (caller.follow event.move advanced.call)).count resource := by
  rw [Tally.count_flatMap_eq_tally, Tally.count_flatMap_eq_tally]
  exact hstepped.tally_eq _ fun caller => congrArg (List.count resource) (place.part_woken caller)

theorem accounted (hstepped : Stepped before event after caller advanced)
    (haccounted : before.Accounted maxCapacity) (hhonest : honest before event = true) :
    after.Accounted maxCapacity where
  maxCapacity_eq := (hstepped.tended haccounted.tended (upright_of_honest hhonest)).maxCapacity_eq
  size_eq := by
    have hstep := hstepped.size_eq haccounted.tended (upright_of_honest hhonest)
    rw [Move.wastes_of_unraised (hstepped.orderly haccounted hhonest).unraised] at hstep
    have hsize := haccounted.size_eq
    omega
  size_le := (hstepped.tended haccounted.tended (upright_of_honest hhonest)).size_le
  barren := (hstepped.tended haccounted.tended (upright_of_honest hhonest)).barren
  count_eq := by
    intro resource
    have hmove := hstepped.transition.conserved (hstepped.orderly haccounted hhonest) resource
    have hcount := haccounted.count_eq resource
    have hnewborn := hstepped.count_part .newborn resource
    have hheld := hstepped.count_part .held resource
    have hdoomed := hstepped.count_part .doomed resource
    simp only [residents, Place.part, Caller.call_follow] at hcount hnewborn hheld hdoomed ⊢
    rw [hstepped.pool_eq, hstepped.made_eq, hstepped.disposed_eq, List.count_append,
      List.count_append]
    omega

end Stepped

theorem Reaches.accounted {system later : System R} {maxCapacity : UInt64}
    (hreaches : Reaches honest system later) (haccounted : system.Accounted maxCapacity) :
    later.Accounted maxCapacity :=
  hreaches.stepwise (Accounted maxCapacity) haccounted
    fun haccounted hhonest hstepped => hstepped.accounted haccounted hhonest

namespace Accounted

variable {system : System R} {maxCapacity : UInt64}

theorem made_perm (haccounted : system.Accounted maxCapacity) :
    system.made.Perm (Place.all.flatMap system.residents) := by
  apply List.perm_iff_count.mpr
  intro resource
  have hcount := haccounted.count_eq resource
  rw [Tally.count_flatMap_eq_tally]
  simp only [Place.all, Tally.tally_cons, Tally.tally_nil]
  omega

theorem holder_unique (haccounted : system.Accounted maxCapacity) {resource : R}
    (honce : system.made.count resource ≤ 1) {first second : Nat} {holder other : Caller R}
    (hfirst : system.callers[first]? = some holder)
    (hsecond : system.callers[second]? = some other) (hholder : resource ∈ holder.holdings)
    (hother : resource ∈ other.holdings) : first = second := by
  have hcount := haccounted.count_eq resource
  have hheld : (system.residents .held).count resource ≤ 1 := by omega
  simp only [residents, Tally.count_flatMap_eq_tally] at hheld
  exact Tally.eq_of_tally_le_one hheld hfirst hsecond (List.count_pos_iff.mpr hholder)
    (List.count_pos_iff.mpr hother)

theorem emptied (haccounted : system.Accounted maxCapacity) (hqueue : system.pool.queue = [])
    (hthrough : ∀ caller ∈ system.callers, caller.Through) :
    system.pool.size = 0 ∧ system.made.Perm system.disposed := by
  constructor
  · have hslots : tally Caller.slots system.callers = 0 :=
      Tally.tally_eq_zero_iff.mpr fun caller hcaller => (hthrough caller hcaller).slots_eq
    rw [haccounted.size_eq, hqueue, hslots]
    rfl
  · apply List.perm_iff_count.mpr
    intro resource
    have hcount := haccounted.count_eq resource
    have hnone : ∀ place : Place, (system.callers.flatMap place.part).count resource = 0 := by
      intro place
      rw [Tally.count_flatMap_eq_tally]
      apply Tally.tally_eq_zero_iff.mpr
      intro caller hcaller
      rw [(hthrough caller hcaller).part_eq, List.count_nil]
    simp only [residents, hnone, hqueue, List.count_nil] at hcount
    omega

end Accounted

/-- What is true of the slots and resources of a fixed pool at every moment of an honest run, and
from it on. -/
structure Balanced (maxCapacity : UInt64) (system : System R) : Prop where
  size_eq : system.pool.size =
    system.pool.queue.length + (system.residents .held).length + system.reserved
  size_le : system.pool.size ≤ maxCapacity.toNat
  made_perm : system.made.Perm (Place.all.flatMap system.residents)
  one_holder : ∀ resource, system.made.count resource ≤ 1 →
    ∀ (first second : Nat) (holder other : Caller R),
      system.callers[first]? = some holder → system.callers[second]? = some other →
      resource ∈ holder.holdings → resource ∈ other.holdings → first = second
  closed_of_answer : ∀ caller ∈ system.callers, caller.call = .done .closed →
    system.pool.closed = true
  stays_drained : system.pool.closed = true → system.drainers = 0 →
    ∀ later, Reaches honest system later → later.pool.queue = []
  emptied : system.pool.closed = true → (∀ caller ∈ system.callers, caller.Through) →
    system.pool.size = 0 ∧ system.pool.queue = [] ∧ system.made.Perm system.disposed

/-- The count of a fixed pool is that of the slots in use at every moment, and closing the pool
leaves nothing behind, however the other calls run into it. -/
theorem balanced_of_reaches {maxCapacity : UInt64} {count : Nat} {system : System R}
    (hreaches : Reaches honest (start maxCapacity count) system) :
    system.Balanced maxCapacity := by
  have haccounted := hreaches.accounted (accounted_start maxCapacity count)
  have hdraining := hreaches.draining
  constructor
  case size_eq =>
    rw [haccounted.size_eq, tally_slots, Nat.add_assoc]
  case size_le => exact haccounted.maxCapacity_eq ▸ haccounted.size_le
  case made_perm => exact haccounted.made_perm
  case one_holder =>
    intro resource honce first second holder other hfirst hsecond hholder hother
    exact haccounted.holder_unique honce hfirst hsecond hholder hother
  case closed_of_answer =>
    intro caller hcaller hdone
    apply hreaches.closed_of_pastShutting caller hcaller
    rw [hdone]
    rfl
  case stays_drained =>
    exact fun hclosed hdrained later hlater => hlater.queue_of_drained hdraining hclosed hdrained
  case emptied =>
    intro hclosed hthrough
    have hdrained : system.drainers = 0 := Tally.tally_eq_zero_iff.mpr fun caller hcaller =>
      (hthrough caller hcaller).unburdened.nothing.2.2.2.2
    have hhere : Reaches honest system system := .refl
    have hqueue := hhere.queue_of_drained hdraining hclosed hdrained
    obtain ⟨hsize, hperm⟩ := haccounted.emptied hqueue hthrough
    exact ⟨hsize, hqueue, hperm⟩

/-- While one caller closes the pool, another takes the resource that is in the queue, and a third,
which found the pool open, makes a new one; each is closed when it is given back. -/
def overtaken : List (Event Nat) :=
  [⟨0, .begin .acquire 0, 0⟩, ⟨0, .turn 0, 0⟩, ⟨0, .turn 0, 0⟩, ⟨0, .turn 0, 0⟩,
    ⟨0, .make (.ok 1), 0⟩, ⟨0, .turn 0, 0⟩, ⟨0, .begin (.release 1) 0, 0⟩, ⟨0, .turn 0, 0⟩,
    ⟨0, .turn 0, 0⟩, ⟨0, .turn 0, 0⟩, ⟨1, .begin .acquire 1, 0⟩, ⟨1, .turn 1, 0⟩,
    ⟨2, .begin .tryAcquire 1, 0⟩, ⟨2, .turn 1, 0⟩, ⟨0, .begin .close 2, 0⟩, ⟨0, .turn 2, 0⟩,
    ⟨0, .turn 2, 0⟩, ⟨1, .turn 2, 0⟩, ⟨0, .turn 2, 0⟩, ⟨2, .turn 2, 0⟩, ⟨2, .turn 2, 0⟩,
    ⟨0, .turn 3, 0⟩, ⟨0, .turn 3, 0⟩, ⟨2, .make (.ok 2), 0⟩, ⟨2, .turn 3, 0⟩,
    ⟨2, .begin (.release 2) 4, 0⟩, ⟨2, .turn 4, 0⟩, ⟨2, .turn 4, 0⟩, ⟨2, .turn 4, 0⟩,
    ⟨1, .begin (.release 1) 4, 0⟩, ⟨2, .turn 4, 0⟩, ⟨2, .dispose, 0⟩, ⟨2, .turn 4, 0⟩,
    ⟨1, .turn 5, 0⟩, ⟨1, .turn 5, 0⟩, ⟨1, .turn 5, 0⟩, ⟨1, .turn 5, 0⟩, ⟨1, .dispose, 0⟩,
    ⟨1, .turn 5, 0⟩]

theorem balanced_of_overtaken : ∃ system : System Nat,
    run? honest overtaken (start 2 3) = some system ∧ system.pool.closed = true ∧
      system.disposed = [2, 1] ∧ system.pool.size = 0 ∧ system.Balanced 2 := by
  have hruns : (run? honest overtaken (start 2 3)).map
      (fun system => (system.pool.closed, system.disposed, system.pool.size)) =
        some (true, [2, 1], 0) := by decide
  obtain ⟨system, hrun, hends⟩ := Option.map_eq_some_iff.mp hruns
  obtain ⟨hclosed, hdisposed, hsize⟩ : system.pool.closed = true ∧ system.disposed = [2, 1] ∧
      system.pool.size = 0 := by simpa using hends
  exact ⟨system, hrun, hclosed, hdisposed, hsize, balanced_of_reaches (Runs.reaches_of_run? hrun)⟩

end System

end Pooling.Fixed
