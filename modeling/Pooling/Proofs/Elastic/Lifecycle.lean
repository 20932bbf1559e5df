import Mathlib.Data.List.Nodup
import Pooling.Proofs.Elastic.Closing

/-!
The life of a resource in an elastic pool: from its making to its end it is at every moment in one
place, whatever calls overlap.
-/

namespace Pooling.Elastic

variable {R : Type} [DecidableEq R]

inductive Place where
  | newborn
  | available
  | vetted
  | held
  | doomed
  | closed
  deriving DecidableEq

namespace Place

def all : List Place := [newborn, available, vetted, held, doomed, closed]

theorem mem_all (place : Place) : place ∈ all := by
  cases place <;> decide

/-- What a caller has of the resources in a place. -/
def part (place : Place) (caller : Caller R) : List R :=
  match place with
  | newborn => caller.call.newborn
  | vetted => caller.call.vetted
  | held => caller.holdings
  | doomed => caller.call.doomed
  | available => []
  | closed => []

omit [DecidableEq R] in
theorem part_woken (place : Place) (caller : Caller R) :
    place.part caller.woken = place.part caller := by
  cases place with
  | newborn => exact caller.call.newborn_woken
  | vetted => exact caller.call.vetted_woken
  | held => exact caller.holdings_woken
  | doomed => exact caller.call.doomed_woken
  | available => rfl
  | closed => rfl

omit [DecidableEq R] in
theorem part_default (place : Place) : place.part ({} : Caller R) = [] := by
  cases place <;> rfl

end Place

omit [DecidableEq R] in
theorem Move.nodup_makes (move : Move R) : move.makes.Nodup := by
  unfold makes
  split
  next => exact List.nodup_singleton _
  next => exact List.nodup_nil

namespace System

def residents (system : System R) (place : Place) : List R :=
  match place with
  | .available => system.pool.available
  | .closed => system.disposed
  | place => system.callers.flatMap place.part

/-- The factory makes no resource twice and nothing of its own raises; callers give back only what
they hold. -/
def honest : Law R := fun system event =>
  match event.move with
  | .begin (.release resource) _ =>
      system.callers[event.caller]?.all fun caller => resource ∈ caller.held
  | .make (.ok resource) => resource ∉ system.made
  | .raise _ => false
  | _ => true

/-- Callers give back only what they hold. -/
def upright : Law R := fun system event =>
  match event.move with
  | .begin (.release resource) _ =>
      system.callers[event.caller]?.all fun caller => resource ∈ caller.held
  | _ => true

theorem upright_of_honest {system : System R} {event : Event R}
    (hhonest : honest system event = true) : upright system event = true := by
  unfold upright
  split
  next resource now hbegin => simpa [honest, hbegin] using hhonest
  next => rfl

theorem new_of_honest {system : System R} {event : Event R} (hhonest : honest system event = true)
    {resource : R} (hmakes : resource ∈ event.move.makes) : resource ∉ system.made := by
  unfold Move.makes at hmakes
  split at hmakes
  next made hmove =>
    have heq : resource = made := by simpa using hmakes
    simpa [honest, hmove, heq] using hhonest
  next => cases hmakes

/-- No call is in progress. -/
def Idle (system : System R) : Prop :=
  ∀ caller ∈ system.callers, ∃ outcome, caller.call = .done outcome

/-- What calls vet and callers hold is checked out, and each of it once. -/
structure Tended (counter : Counter) (system : System R) : Prop where
  sound : system.Sound counter
  barren : ∀ caller ∈ system.callers, caller.call.Barren
  owed_le : ∀ resource,
    (system.residents .vetted).count resource + (system.residents .held).count resource ≤
      system.pool.out resource

/-- Every resource made is accounted for: the pool's account of what is checked out agrees with
what the calls and callers have, and nothing is lost on the way from one to the next. -/
structure Accounted (counter : Counter) (system : System R) : Prop where
  sound : system.Sound counter
  barren : ∀ caller ∈ system.callers, caller.call.Barren
  out_eq : ∀ resource,
    (system.residents .vetted).count resource + (system.residents .held).count resource =
      system.pool.out resource
  made_eq : ∀ resource,
    (system.residents .newborn).count resource + system.pool.owned resource +
        (system.residents .doomed).count resource + (system.residents .closed).count resource =
      system.made.count resource
  nodup_made : system.made.Nodup

theorem Accounted.tended {counter : Counter} {system : System R}
    (haccounted : system.Accounted counter) : system.Tended counter where
  sound := haccounted.sound
  barren := haccounted.barren
  owed_le := fun resource => Nat.le_of_eq (haccounted.out_eq resource)

theorem count_part_start (options : ElasticOptions) (counter : Counter) (count : Nat)
    (place : Place) (resource : R) :
    ((start options counter count : System R).callers.flatMap place.part).count resource = 0 := by
  rw [Tally.count_flatMap_eq_tally]
  apply Tally.tally_eq_zero_iff.mpr
  intro caller hcaller
  rw [eq_of_mem_start hcaller, place.part_default, List.count_nil]

theorem accounted_start (options : ElasticOptions) (counter : Counter) (count : Nat) :
    (start options counter count : System R).Accounted counter where
  sound := sound_start options counter count
  barren := by
    intro caller hcaller
    rw [eq_of_mem_start hcaller]
    trivial
  out_eq := by
    intro resource
    have hvetted := count_part_start options counter count .vetted resource
    have hheld := count_part_start options counter count .held resource
    simp only [residents, hvetted, hheld]
    rfl
  made_eq := by
    intro resource
    have hnewborn := count_part_start options counter count .newborn resource
    have hdoomed := count_part_start options counter count .doomed resource
    simp only [residents, hnewborn, hdoomed]
    rfl
  nodup_made := List.nodup_nil

namespace Stepped

variable {before after : System R} {event : Event R} {caller : Caller R}
  {advanced : Call.Advanced R} {counter : Counter}

theorem count_part (hstepped : Stepped before event after caller advanced) (place : Place)
    (resource : R) :
    (after.callers.flatMap place.part).count resource + (place.part caller).count resource =
      (before.callers.flatMap place.part).count resource +
        (place.part (caller.follow event.move advanced.call)).count resource := by
  rw [Tally.count_flatMap_eq_tally, Tally.count_flatMap_eq_tally]
  exact hstepped.tally_eq _ fun caller => congrArg (List.count resource) (place.part_woken caller)

theorem count_pos_of_part (hstepped : Stepped before event after caller advanced) (place : Place)
    {resource : R} (hmem : resource ∈ place.part caller) :
    0 < (before.callers.flatMap place.part).count resource :=
  List.count_pos_iff.mpr (List.mem_flatMap.mpr ⟨caller, hstepped.mem_callers, hmem⟩)

theorem checkedOut_of_returned (hstepped : Stepped before event after caller advanced)
    (htended : before.Tended counter) {resource : R}
    (hreturned : resource ∈ caller.call.returned) :
    before.pool.checkedOut? resource = some true ∧ resource ∉ before.vetted := by
  have hpos := hstepped.count_pos_of_part .held (List.mem_append_right _ hreturned)
  have howed := htended.owed_le resource
  have hle := before.pool.out_le_one resource
  simp only [residents] at howed
  constructor
  · unfold Pool.out at howed
    split at howed
    next hchecked => exact hchecked
    next => omega
  · have hvetted : (before.callers.flatMap (Place.part .vetted)).count resource = 0 := by omega
    exact List.count_eq_zero.mp hvetted

theorem careful (hstepped : Stepped before event after caller advanced)
    (htended : before.Tended counter) : careful before event = true := by
  simp only [System.careful, hstepped.caller_at, List.all_eq_true, decide_eq_true_eq]
  exact fun resource hreturned => (hstepped.checkedOut_of_returned htended hreturned).2

theorem fair (hstepped : Stepped before event after caller advanced)
    (htended : before.Tended counter) (hupright : upright before event = true) :
    Fair event.move caller before.pool where
  held := by
    intro resource now hbegin
    simpa [upright, hbegin, hstepped.caller_at] using hupright
  vetted := fun resource => hstepped.checkedOut_of_vetted htended.sound
  returned := fun resource hreturned => (hstepped.checkedOut_of_returned htended hreturned).1
  barren := htended.barren caller hstepped.mem_callers

/-- What is checked out and nobody's is so because it was stranded. -/
theorem owed_eq (hstepped : Stepped before event after caller advanced)
    (htended : before.Tended counter) (hupright : upright before event = true) (resource : R) :
    after.pool.out resource + (before.residents .vetted).count resource +
        (before.residents .held).count resource =
      before.pool.out resource + (after.residents .vetted).count resource +
        (after.residents .held).count resource +
        (event.move.strands caller.call).count resource := by
  have hmove := hstepped.transition.out_eq htended.sound.consistent
    (hstepped.fair htended hupright) resource
  have hvetted := hstepped.count_part .vetted resource
  have hheld := hstepped.count_part .held resource
  simp only [residents, Place.part, Caller.call_follow] at hvetted hheld ⊢
  rw [hstepped.pool_eq]
  omega

theorem tended (hstepped : Stepped before event after caller advanced)
    (htended : before.Tended counter) (hupright : upright before event = true) :
    after.Tended counter where
  sound := hstepped.sound htended.sound (hstepped.careful htended)
  barren := by
    refine hstepped.forall_callers (fun caller hbarren => hbarren.woken) htended.barren ?_
    exact hstepped.transition.barren (htended.barren caller hstepped.mem_callers)
  owed_le := by
    intro resource
    have hstep := hstepped.owed_eq htended hupright resource
    have howed := htended.owed_le resource
    omega

theorem checkedOut_of_newborn (hstepped : Stepped before event after caller advanced)
    (haccounted : before.Accounted counter) {resource : R}
    (hnewborn : resource ∈ caller.call.newborn) :
    before.pool.checkedOut? resource = none := by
  have hpos := hstepped.count_pos_of_part .newborn hnewborn
  have hmade := haccounted.made_eq resource
  have honce := List.nodup_iff_count_le_one.mp haccounted.nodup_made resource
  simp only [residents] at hmade
  unfold Pool.owned at hmade
  split at hmade
  next => omega
  next hnone => simpa using hnone

theorem orderly (hstepped : Stepped before event after caller advanced)
    (haccounted : before.Accounted counter) (hhonest : honest before event = true) :
    Orderly event.move caller before.pool where
  toFair := hstepped.fair haccounted.tended (upright_of_honest hhonest)
  unraised := by
    intro text hraise
    simp [honest, hraise] at hhonest
  newborn := fun resource => hstepped.checkedOut_of_newborn haccounted

theorem accounted (hstepped : Stepped before event after caller advanced)
    (haccounted : before.Accounted counter) (hhonest : honest before event = true) :
    after.Accounted counter where
  sound := (hstepped.tended haccounted.tended (upright_of_honest hhonest)).sound
  barren := (hstepped.tended haccounted.tended (upright_of_honest hhonest)).barren
  out_eq := by
    intro resource
    have hstep := hstepped.owed_eq haccounted.tended (upright_of_honest hhonest) resource
    have hunraised := (hstepped.orderly haccounted hhonest).unraised
    rw [Move.strands_of_unraised hunraised, List.count_nil] at hstep
    have hout := haccounted.out_eq resource
    omega
  made_eq := by
    intro resource
    have hmove := hstepped.transition.conserved haccounted.sound.consistent
      (hstepped.orderly haccounted hhonest) resource
    have hmade := haccounted.made_eq resource
    have hnewborn := hstepped.count_part .newborn resource
    have hdoomed := hstepped.count_part .doomed resource
    simp only [residents, Place.part, Caller.call_follow] at hmade hnewborn hdoomed ⊢
    rw [hstepped.pool_eq, hstepped.made_eq, hstepped.disposed_eq, List.count_append,
      List.count_append]
    omega
  nodup_made := by
    rw [hstepped.made_eq]
    apply List.nodup_append.mpr
    refine ⟨haccounted.nodup_made, event.move.nodup_makes, ?_⟩
    intro old hold new hnew heq
    exact new_of_honest hhonest hnew (heq ▸ hold)

end Stepped

theorem Reaches.accounted {system later : System R} {counter : Counter}
    (hreaches : Reaches honest system later) (haccounted : system.Accounted counter) :
    later.Accounted counter :=
  hreaches.stepwise (Accounted counter) haccounted
    fun haccounted hhonest hstepped => hstepped.accounted haccounted hhonest

namespace Accounted

variable {system : System R} {counter : Counter}

theorem tally_places (haccounted : system.Accounted counter) (resource : R) :
    tally (fun place => (system.residents place).count resource) Place.all =
      system.made.count resource := by
  have havailable := haccounted.sound.consistent.count_available resource
  have hout := haccounted.out_eq resource
  have hmade := haccounted.made_eq resource
  simp only [Place.all, Tally.tally_cons, Tally.tally_nil]
  show _ + (system.pool.available.count resource + _) = _
  omega

theorem count_le_one (haccounted : system.Accounted counter) (resource : R) :
    tally (fun place => (system.residents place).count resource) Place.all ≤ 1 := by
  rw [haccounted.tally_places]
  exact List.nodup_iff_count_le_one.mp haccounted.nodup_made resource

theorem nodup_residents (haccounted : system.Accounted counter) (place : Place) :
    (system.residents place).Nodup := by
  apply List.nodup_iff_count_le_one.mpr
  intro resource
  have hplace := Tally.le_tally (fun place => (system.residents place).count resource)
    place.mem_all
  exact Nat.le_trans hplace (haccounted.count_le_one resource)

theorem mem_made_iff (haccounted : system.Accounted counter) {resource : R} :
    resource ∈ system.made ↔ ∃ place, resource ∈ system.residents place := by
  rw [← List.count_pos_iff, ← haccounted.tally_places, Nat.pos_iff_ne_zero, ne_eq,
    Tally.tally_eq_zero_iff]
  simp [Place.mem_all, List.count_eq_zero]

theorem place_unique (haccounted : system.Accounted counter) {resource : R} {first second : Place}
    (hfirst : resource ∈ system.residents first) (hsecond : resource ∈ system.residents second) :
    first = second := by
  obtain ⟨index, hindex⟩ := List.getElem?_of_mem first.mem_all
  obtain ⟨other, hother⟩ := List.getElem?_of_mem second.mem_all
  have hsame := Tally.eq_of_tally_le_one (haccounted.count_le_one resource) hindex hother
    (List.count_pos_iff.mpr hfirst) (List.count_pos_iff.mpr hsecond)
  rw [hsame, hother] at hindex
  exact (Option.some.inj hindex).symm

theorem holder_unique (haccounted : system.Accounted counter) {resource : R} {first second : Nat}
    {holder other : Caller R} (hfirst : system.callers[first]? = some holder)
    (hsecond : system.callers[second]? = some other) (hholder : resource ∈ holder.holdings)
    (hother : resource ∈ other.holdings) : first = second := by
  have honce := List.nodup_iff_count_le_one.mp (haccounted.nodup_residents .held) resource
  simp only [residents, Tally.count_flatMap_eq_tally] at honce
  exact Tally.eq_of_tally_le_one honce hfirst hsecond (List.count_pos_iff.mpr hholder)
    (List.count_pos_iff.mpr hother)

theorem stays_doomed (haccounted : system.Accounted counter) {later : System R}
    (hlater : Reaches honest system later) {resource : R}
    (hdoomed : resource ∈ system.residents .doomed ∨ resource ∈ system.residents .closed) :
    resource ∈ later.residents .doomed ∨ resource ∈ later.residents .closed := by
  refine (hlater.stepwise (fun system => system.Accounted counter ∧
    (resource ∈ system.residents .doomed ∨ resource ∈ system.residents .closed))
    ⟨haccounted, hdoomed⟩ ?_).2
  intro before after event caller advanced hkept hhonest hstepped
  obtain ⟨haccounted, hdoomed⟩ := hkept
  refine ⟨hstepped.accounted haccounted hhonest, ?_⟩
  have hmove := hstepped.transition.doomed_le
    (hstepped.orderly haccounted hhonest).unraised resource
  have hparts := hstepped.count_part .doomed resource
  simp only [← List.count_pos_iff, residents, hstepped.disposed_eq, List.count_append,
    Place.part, Caller.call_follow] at hdoomed hparts ⊢
  omega

theorem counts_of_idle (haccounted : system.Accounted counter) (hidle : system.Idle)
    (resource : R) :
    system.pool.owned resource + system.disposed.count resource =
        system.made.count resource ∧
      (system.residents .held).count resource = system.pool.out resource := by
  have hout := haccounted.out_eq resource
  have hmade := haccounted.made_eq resource
  -- A caller between two calls has nothing in the places that only a call in progress fills.
  have hnone : ∀ place : Place, (∀ held outcome, place.part (⟨.done outcome, held⟩ : Caller R) = []) →
      (system.callers.flatMap place.part).count resource = 0 := by
    intro place hempty
    rw [Tally.count_flatMap_eq_tally]
    apply Tally.tally_eq_zero_iff.mpr
    intro caller hcaller
    obtain ⟨outcome, hdone⟩ := hidle caller hcaller
    obtain ⟨call, held⟩ := caller
    cases hdone
    rw [hempty, List.count_nil]
  have hvetted := hnone .vetted fun _ _ => rfl
  have hnewborn := hnone .newborn fun _ _ => rfl
  have hdoomed := hnone .doomed fun _ _ => rfl
  simp only [residents] at hout hmade ⊢
  omega

theorem made_perm (haccounted : system.Accounted counter) (hidle : system.Idle) :
    system.made.Perm (system.pool.tracked.keys ++ system.disposed) := by
  apply List.perm_iff_count.mpr
  intro resource
  have hkeys := Pool.count_keys haccounted.sound.bounded.within.nodup_keys resource
  have hcounts := (haccounted.counts_of_idle hidle resource).1
  rw [List.count_append]
  omega

theorem length_made (haccounted : system.Accounted counter) (hidle : system.Idle) :
    system.made.length = system.pool.size + system.disposed.length := by
  rw [(haccounted.made_perm hidle).length_eq, List.length_append, Table.length_keys, Pool.size]

theorem emptied (haccounted : system.Accounted counter) (hidle : system.Idle)
    (hclosed : system.pool.closed = true) (hreleased : ∀ caller ∈ system.callers, caller.held = []) :
    system.pool.tracked.keys = [] := by
  have hnone := haccounted.sound.consistent.available_of_closed hclosed
  apply List.eq_nil_iff_forall_not_mem.mpr
  intro resource hmem
  have hpos := List.count_pos_iff.mpr hmem
  rw [Pool.count_keys haccounted.sound.bounded.within.nodup_keys] at hpos
  have howned := haccounted.sound.consistent.count_available resource
  have hheld := (haccounted.counts_of_idle hidle resource).2
  have hfree : (system.residents .held).count resource = 0 := by
    apply List.count_eq_zero.mpr
    intro hmem
    obtain ⟨caller, hcaller, hmem⟩ := List.mem_flatMap.mp hmem
    obtain ⟨outcome, hdone⟩ := hidle caller hcaller
    simp [Place.part, Caller.holdings, hreleased caller hcaller, hdone, Call.returned] at hmem
  rw [hnone, List.count_nil] at howned
  omega

end Accounted

/-- What is true of the resources of an elastic pool at every moment of an honest run, and from it
on. -/
structure Traced (system : System R) : Prop where
  one_place : ∀ resource ∈ system.made, ∃! place, resource ∈ system.residents place
  nodup_residents : ∀ place, (system.residents place).Nodup
  made_of_resident : ∀ place, ∀ resource ∈ system.residents place, resource ∈ system.made
  one_holder : ∀ (first second : Nat) (holder other : Caller R),
    system.callers[first]? = some holder → system.callers[second]? = some other →
    ∀ resource ∈ holder.holdings, resource ∈ other.holdings → first = second
  stays_doomed : ∀ later, Reaches honest system later → ∀ resource,
    resource ∈ system.residents .doomed ∨ resource ∈ system.residents .closed →
    resource ∈ later.residents .doomed ∨ resource ∈ later.residents .closed
  closed_of_answer : ∀ caller ∈ system.callers, caller.call = .done .closed →
    system.pool.closed = true
  no_late_acquire : system.pool.closed = true → ∀ (index : Nat) (idle : Caller R) outcome,
    system.callers[index]? = some idle → idle.call = .done outcome →
    ∀ later, Reaches honest system later → ∀ moved : Caller R,
      later.callers[index]? = some moved → moved.held.Sublist idle.held ∧
        (moved = idle ∨ ∀ resource, moved.call ≠ .done (.acquired resource))
  length_made : system.Idle → system.made.length = system.pool.size + system.disposed.length
  all_closed : system.Idle → system.pool.closed = true →
    (∀ caller ∈ system.callers, caller.held = []) →
    system.pool.size = 0 ∧ system.pool.available = [] ∧ system.made.Perm system.disposed

/-- No resource is lost, held twice or closed twice, whichever way the calls overlap. -/
theorem traced_of_reaches {options : ElasticOptions} {counter : Counter} {count : Nat}
    {system : System R} (hreaches : Reaches honest (start options counter count) system) :
    system.Traced := by
  have haccounted := hreaches.accounted (accounted_start options counter count)
  constructor
  case one_place =>
    intro resource hmade
    obtain ⟨place, hplace⟩ := haccounted.mem_made_iff.mp hmade
    exact ⟨place, hplace, fun other hother => haccounted.place_unique hother hplace⟩
  case nodup_residents => exact haccounted.nodup_residents
  case made_of_resident =>
    exact fun place resource hmem => haccounted.mem_made_iff.mpr ⟨place, hmem⟩
  case one_holder =>
    intro first second holder other hfirst hsecond resource hholder hother
    exact haccounted.holder_unique hfirst hsecond hholder hother
  case stays_doomed => exact fun later hlater resource => haccounted.stays_doomed hlater
  case closed_of_answer =>
    intro caller hcaller hdone
    apply hreaches.closed_of_pastShutting caller hcaller
    rw [hdone]
    rfl
  case no_late_acquire =>
    intro hclosed index idle outcome hidle hdone later hlater moved hmoved
    have hunrewarded := hlater.unrewarded hclosed hidle hdone moved hmoved
    exact ⟨hunrewarded.held_sublist, hunrewarded.acquired_before⟩
  case length_made => exact haccounted.length_made
  case all_closed =>
    intro hidle hclosed hreleased
    have hkeys := haccounted.emptied hidle hclosed hreleased
    have hperm := haccounted.made_perm hidle
    rw [hkeys, List.nil_append] at hperm
    refine ⟨?_, haccounted.sound.consistent.available_of_closed hclosed, hperm⟩
    rw [Pool.size, ← Table.length_keys, hkeys]
    rfl

/-- The pool is closed while one caller holds a resource and another checks the only one left: both
of these are closed on their own paths. -/
def overlapping : List (Event Nat) :=
  [⟨0, .begin .acquire 0, 0⟩, ⟨0, .turn 0, 0⟩, ⟨0, .make (.ok 1), 0⟩, ⟨0, .turn 0, 0⟩,
    ⟨1, .begin .acquire 0, 0⟩, ⟨1, .turn 0, 0⟩, ⟨1, .make (.ok 2), 0⟩, ⟨1, .turn 0, 0⟩,
    ⟨0, .begin (.release 1) 1, 0⟩, ⟨0, .turn 1, 0⟩, ⟨2, .begin .tryAcquire 1, 0⟩, ⟨2, .turn 1, 0⟩,
    ⟨0, .begin .close 2, 0⟩, ⟨0, .turn 2, 0⟩, ⟨1, .begin (.release 2) 2, 0⟩, ⟨1, .turn 2, 0⟩,
    ⟨2, .check false, 0⟩, ⟨2, .turn 3, 0⟩, ⟨1, .dispose, 0⟩, ⟨1, .turn 3, 0⟩, ⟨0, .turn 3, 0⟩,
    ⟨0, .retire, 0⟩, ⟨2, .dispose, 0⟩, ⟨2, .turn 4, 0⟩, ⟨2, .turn 4, 0⟩]

theorem traced_of_overlapping : ∃ system : System Nat,
    run? honest overlapping (start { maxCapacity := 2 } .silent 3) = some system ∧
      system.disposed = [2, 1] ∧ system.Traced := by
  have hruns : (run? honest overlapping (start { maxCapacity := 2 } .silent 3)).map disposed =
      some [2, 1] := by decide
  obtain ⟨system, hrun, hdisposed⟩ := Option.map_eq_some_iff.mp hruns
  exact ⟨system, hrun, hdisposed, traced_of_reaches (Runs.reaches_of_run? hrun)⟩

end System

end Pooling.Elastic
