import Mathlib.Data.Fintype.EquivFin
import Pooling.Proofs.Elastic.Lifecycle

/-!
What it costs an elastic pool when its factory raises instead of answering: the slot that was
reserved stays reserved, and the resource that was checked stays checked out.
-/

namespace Pooling.Elastic

variable {R : Type} [DecidableEq R]

def Move.raises : Move R → Bool
  | raise _ => true
  | _ => false

namespace System

/-- Callers give back only what they hold, and the factory answers everything, if not always as one
would wish. -/
def calm : Law R := fun system event => upright system event && !event.move.raises

theorem upright_of_calm {system : System R} {event : Event R} (hcalm : calm system event = true) :
    upright system event = true :=
  (Bool.and_eq_true_iff.mp hcalm).1

theorem unraised_of_calm {system : System R} {event : Event R} (hcalm : calm system event = true) :
    ∀ text, event.move ≠ .raise text := by
  intro text hraise
  simp [calm, hraise, Move.raises] at hcalm

def reserved (system : System R) : Nat := tally (fun caller => caller.call.reserved) system.callers

/-- The slots that are reserved for no call. -/
def forfeited (system : System R) : Nat := system.pool.creating - system.reserved

/-- The resources that are checked out, and that no call vets and nobody holds. -/
def stranded (system : System R) : List R :=
  system.pool.tracked.keys.filter fun resource =>
    system.pool.checkedOut? resource = some true ∧
      resource ∉ system.residents .vetted ∧ resource ∉ system.residents .held

/-- By how much the capacity of the pool has become less. -/
def cost (system : System R) : Nat := system.forfeited + system.stranded.length

theorem tended_start (options : ElasticOptions) (counter : Counter) (count : Nat) :
    (start options counter count : System R).Tended counter :=
  (accounted_start options counter count).tended

theorem cost_start (options : ElasticOptions) (counter : Counter) (count : Nat) :
    (start options counter count : System R).cost = 0 :=
  congrArg (· + 0) (Nat.zero_sub _)

namespace Tended

variable {system : System R} {counter : Counter}

theorem count_stranded (htended : system.Tended counter) (resource : R) :
    system.stranded.count resource + (system.residents .vetted).count resource +
        (system.residents .held).count resource = system.pool.out resource := by
  have howed := htended.owed_le resource
  have hle := system.pool.out_le_one resource
  have hnodup : system.stranded.Nodup := htended.sound.bounded.within.nodup_keys.filter _
  by_cases hmem : resource ∈ system.stranded
  · have hout := (List.mem_filter.mp hmem).2
    obtain ⟨hout, hvetted, hheld⟩ := of_decide_eq_true hout
    have hone : system.pool.out resource = 1 := if_pos hout
    rw [hnodup.count, if_pos hmem, List.count_eq_zero.mpr hvetted, List.count_eq_zero.mpr hheld,
      hone]
  · rw [List.count_eq_zero.mpr hmem]
    by_cases hout : system.pool.checkedOut? resource = some true
    · have hkey : resource ∈ system.pool.tracked.keys := by
        rw [← Table.contains_iff_mem_keys, Pool.contains_eq_isSome, hout]
        rfl
      have hsomebody : resource ∈ system.residents .vetted ∨ resource ∈ system.residents .held := by
        by_contra hnobody
        rw [not_or] at hnobody
        exact hmem (List.mem_filter.mpr ⟨hkey, decide_eq_true ⟨hout, hnobody⟩⟩)
      rcases hsomebody with hvetted | hheld
      · have hpos := List.count_pos_iff.mpr hvetted
        omega
      · have hpos := List.count_pos_iff.mpr hheld
        omega
    · have hnone : system.pool.out resource = 0 := if_neg hout
      omega

theorem keys_perm (htended : system.Tended counter) :
    system.pool.tracked.keys.Perm (system.pool.available ++ system.residents .vetted ++
      system.residents .held ++ system.stranded) := by
  apply List.perm_iff_count.mpr
  intro resource
  have hkeys := Pool.count_keys htended.sound.bounded.within.nodup_keys resource
  have havailable := htended.sound.consistent.count_available resource
  have hstranded := htended.count_stranded resource
  simp only [List.count_append]
  omega

theorem size_eq (htended : system.Tended counter) :
    system.pool.size = system.pool.available.length + (system.residents .vetted).length +
      (system.residents .held).length + system.stranded.length := by
  have hlength := htended.keys_perm.length_eq
  simp only [Table.length_keys, List.length_append] at hlength
  exact hlength

theorem creating_eq (htended : system.Tended counter) :
    system.pool.creating = system.reserved + system.forfeited := by
  have hle := htended.sound.bounded.reserved_le
  simp only [forfeited, reserved]
  omega

theorem held_le (htended : system.Tended counter) :
    (system.residents .held).length + system.cost ≤ system.pool.maxCapacity := by
  have hsize := htended.size_eq
  have hcreating := htended.creating_eq
  have hle := htended.sound.bounded.within.size_le
  simp only [cost]
  omega

end Tended

namespace Stepped

variable {before after : System R} {event : Event R} {caller : Caller R}
  {advanced : Call.Advanced R} {counter : Counter}

theorem forfeited_eq (hstepped : Stepped before event after caller advanced)
    (htended : before.Tended counter) (hupright : upright before event = true) :
    after.forfeited = before.forfeited + event.move.wastes caller.call := by
  have hbefore := htended.creating_eq
  have hafter := (hstepped.tended htended hupright).creating_eq
  have hmove := hstepped.transition.reserved_eq (hstepped.reserved_le htended.sound.bounded)
  have hreserved := hstepped.tally_eq (fun caller => caller.call.reserved)
    fun caller => caller.call.reserved_woken
  simp only [reserved, Caller.call_follow] at hbefore hafter hreserved
  rw [hstepped.pool_eq] at hafter
  omega

theorem stranded_perm (hstepped : Stepped before event after caller advanced)
    (htended : before.Tended counter) (hupright : upright before event = true) :
    after.stranded.Perm (event.move.strands caller.call ++ before.stranded) := by
  apply List.perm_iff_count.mpr
  intro resource
  have hbefore := htended.count_stranded resource
  have hafter := (hstepped.tended htended hupright).count_stranded resource
  have howed := hstepped.owed_eq htended hupright resource
  rw [List.count_append]
  omega

theorem cost_eq (hstepped : Stepped before event after caller advanced)
    (htended : before.Tended counter) (hupright : upright before event = true) :
    after.cost = before.cost + event.move.wastes caller.call +
      (event.move.strands caller.call).length := by
  have hforfeited := hstepped.forfeited_eq htended hupright
  have hstranded := (hstepped.stranded_perm htended hupright).length_eq
  rw [List.length_append] at hstranded
  simp only [cost]
  omega

end Stepped

theorem Reaches.tended {system later : System R} {counter : Counter}
    (hreaches : Reaches upright system later) (htended : system.Tended counter) :
    later.Tended counter :=
  hreaches.stepwise (Tended counter) htended
    fun htended hupright hstepped => hstepped.tended htended hupright

theorem Reaches.upright {system later : System R} (hreaches : Reaches calm system later) :
    Reaches upright system later :=
  hreaches.mono fun _ _ => upright_of_calm

/-- What was lost once is never found again. -/
theorem Reaches.cost_le {system later : System R} {counter : Counter}
    (hreaches : Reaches System.upright system later) (htended : system.Tended counter) :
    system.cost ≤ later.cost := by
  refine (hreaches.stepwise (fun later => later.Tended counter ∧ system.cost ≤ later.cost)
    ⟨htended, Nat.le_refl _⟩ ?_).2
  intro before after event caller advanced hkept hupright hstepped
  obtain ⟨htended, hle⟩ := hkept
  have hstep := hstepped.cost_eq htended hupright
  exact ⟨hstepped.tended htended hupright, by omega⟩

theorem Reaches.cost_eq {system later : System R} {counter : Counter}
    (hreaches : Reaches calm system later) (htended : system.Tended counter) :
    later.cost = system.cost := by
  refine (hreaches.stepwise (fun later => later.Tended counter ∧ later.cost = system.cost)
    ⟨htended, rfl⟩ ?_).2
  intro before after event caller advanced hkept hcalm hstepped
  obtain ⟨htended, hsame⟩ := hkept
  have hupright := upright_of_calm hcalm
  have hunraised := unraised_of_calm hcalm
  have hstep := hstepped.cost_eq htended hupright
  rw [Move.wastes_of_unraised hunraised, Move.strands_of_unraised hunraised] at hstep
  exact ⟨hstepped.tended htended hupright, hstep.trans hsame⟩

/-! A caller that acquires all there is to have, with nobody else at work. -/

/-- Nobody but the caller of a given number has done anything since, and it has come this far. -/
structure Alone (base : System R) (index : Nat) (caller : Caller R) (pool : Pool R)
    (system : System R) : Prop where
  reaches : Reaches calm base system
  bound : index < base.callers.length
  pool_eq : system.pool = pool
  callers_eq : system.callers = base.callers.set index caller

theorem alone_here {system : System R} {index : Nat} {caller : Caller R}
    (hcaller : system.callers[index]? = some caller) :
    system.Alone index caller system.pool system where
  reaches := .refl
  bound := (List.getElem?_eq_some_iff.mp hcaller).1
  pool_eq := rfl
  callers_eq := by
    obtain ⟨hbound, rfl⟩ := List.getElem?_eq_some_iff.mp hcaller
    exact (List.set_getElem_self hbound).symm

theorem Alone.step {base system : System R} {index : Nat} {caller : Caller R} {pool : Pool R}
    (halone : base.Alone index caller pool system) (move : Move R) {advanced : Call.Advanced R}
    (hperform : move.perform? caller.call pool = some advanced) (hwake : advanced.wake = .nobody)
    (hcalm : calm system ⟨index, move, 0⟩ = true) :
    ∃ next, base.Alone index (caller.follow move advanced.call) advanced.pool next := by
  have hcaller : system.callers[index]? = some caller := by
    rw [halone.callers_eq]
    exact List.getElem?_set_self halone.bound
  have hstep : system.step? ⟨index, move, 0⟩ = some
      { pool := advanced.pool
        callers := system.callers.set index (caller.follow move advanced.call)
        made := system.made ++ move.makes
        disposed := system.disposed ++ move.disposes caller.call } := by
    simp [step?, hcaller, halone.pool_eq, hperform, hwake, wake?]
  refine ⟨_, halone.reaches.tail ⟨_, hcalm, hstep⟩, halone.bound, rfl, ?_⟩
  simp only [halone.callers_eq, List.set_set]

/-- One more resource is held, and again nobody is at work. -/
structure Fetched (system next : System R) : Prop where
  reaches : Reaches calm system next
  idle : next.Idle
  opened : next.pool.closed = false
  manned : next.callers ≠ []
  held_length : (next.residents .held).length = (system.residents .held).length + 1

omit [DecidableEq R] in
theorem length_held (system : System R) :
    (system.residents .held).length = tally (fun caller => caller.holdings.length) system.callers :=
  Tally.length_flatMap_eq_tally _ _

theorem Alone.fetched {system next : System R} {index : Nat} {caller : Caller R} {resource : R}
    {pool : Pool R} (hidle : system.Idle) (hcaller : system.callers[index]? = some caller)
    (halone : system.Alone index ⟨.done (.acquired resource), resource :: caller.held⟩ pool next)
    (hopen : pool.closed = false) : system.Fetched next where
  reaches := halone.reaches
  idle := by
    intro other hother
    rw [halone.callers_eq] at hother
    rcases List.mem_or_eq_of_mem_set hother with hbefore | rfl
    · exact hidle other hbefore
    · exact ⟨_, rfl⟩
  opened := by
    rw [halone.pool_eq]
    exact hopen
  manned := by
    have hbound := halone.bound
    rw [halone.callers_eq, ne_eq, List.set_eq_nil_iff]
    intro hnone
    simp [hnone] at hbound
  held_length := by
    obtain ⟨outcome, hdone⟩ := hidle caller (List.mem_of_getElem? hcaller)
    have hbefore : caller.holdings = caller.held := by simp [Caller.holdings, hdone, Call.returned]
    have hafter : (⟨.done (.acquired resource), resource :: caller.held⟩ :
        Caller R).holdings.length = caller.held.length + 1 := by
      simp [Caller.holdings, Call.returned]
    have htally := Tally.tally_set (fun caller => caller.holdings.length) hcaller
      ⟨.done (.acquired resource), resource :: caller.held⟩
    rw [length_held, length_held, halone.callers_eq]
    simp only [hbefore, hafter] at htally
    omega

theorem fetched_available {system : System R} (hidle : system.Idle)
    (hopen : system.pool.closed = false) {index : Nat} {caller : Caller R}
    (hcaller : system.callers[index]? = some caller) {resource : R} {rest : List R}
    (hchoose : Pool.choose? system.pool.selection system.pool.available = some (resource, rest)) :
    ∃ next, system.Fetched next := by
  obtain ⟨outcome, hdone⟩ := hidle caller (List.mem_of_getElem? hcaller)
  have hseek : Call.seek .never false 0 system.pool =
      { pool := system.pool.checkOut resource rest, call := .checking .never resource } := by
    rw [Call.seek, Pool.takeSlot_of_choose? hopen hchoose]
  have hbegin : (Move.begin .tryAcquire 0).perform? caller.call system.pool =
      some ⟨system.pool, .nobody, .tryAcquire⟩ := by
    rw [hdone]
    rfl
  obtain ⟨asking, hasking⟩ := (alone_here hcaller).step _ hbegin rfl rfl
  obtain ⟨found, hfound⟩ := hasking.step (.turn 0) (congrArg some hseek) rfl rfl
  obtain ⟨passed, hpassed⟩ := hfound.step (.check true) rfl rfl rfl
  exact ⟨passed, hpassed.fetched hidle hcaller hopen⟩

theorem fetched_made {system : System R} (hidle : system.Idle)
    (hopen : system.pool.closed = false) {index : Nat} {caller : Caller R}
    (hcaller : system.callers[index]? = some caller) (hnone : system.pool.available = [])
    (hroom : system.pool.size + system.pool.creating < system.pool.maxCapacity) {resource : R}
    (hnew : system.pool.checkedOut? resource = none) : ∃ next, system.Fetched next := by
  obtain ⟨outcome, hdone⟩ := hidle caller (List.mem_of_getElem? hcaller)
  have hseek : Call.seek .never false 0 system.pool =
      { pool := { system.pool with creating := system.pool.creating + 1 }, call := .making } := by
    rw [Call.seek, Pool.takeSlot_of_room hopen hnone hroom]
  have henroll : Call.enroll (.ok resource) 0
      { system.pool with creating := system.pool.creating + 1 } =
        { pool := Pool.track { system.pool with creating := system.pool.creating } resource 0
          call := .done (.acquired resource) } := by
    have hcontains : system.pool.tracked.contains resource = false := by
      rw [Pool.contains_eq_isSome, hnew]
      rfl
    simp only [Call.enroll, Pool.register, hopen, hcontains, Bool.false_eq_true, if_false,
      Nat.add_sub_cancel]
  have hbegin : (Move.begin .tryAcquire 0).perform? caller.call system.pool =
      some ⟨system.pool, .nobody, .tryAcquire⟩ := by
    rw [hdone]
    rfl
  obtain ⟨asking, hasking⟩ := (alone_here hcaller).step _ hbegin rfl rfl
  obtain ⟨reserved, hreserved⟩ := hasking.step (.turn 0) (congrArg some hseek) rfl rfl
  obtain ⟨made, hmade⟩ := hreserved.step (.make (.ok resource)) rfl rfl rfl
  obtain ⟨kept, hkept⟩ := hmade.step (.turn 0) (congrArg some henroll) rfl rfl
  exact ⟨kept, hkept.fetched hidle hcaller hopen⟩

omit [DecidableEq R] in
theorem Idle.nothing {system : System R} (hidle : system.Idle) :
    system.reserved = 0 ∧ system.residents .vetted = [] := by
  constructor
  · apply Tally.tally_eq_zero_iff.mpr
    intro caller hcaller
    obtain ⟨outcome, hdone⟩ := hidle caller hcaller
    simp [hdone, Call.reserved]
  · apply List.flatMap_eq_nil_iff.mpr
    intro caller hcaller
    obtain ⟨outcome, hdone⟩ := hidle caller hcaller
    simp [Place.part, hdone, Call.vetted]

theorem Tended.exists_fetched [Infinite R] {system : System R} {counter : Counter}
    (htended : system.Tended counter) (hidle : system.Idle) (hopen : system.pool.closed = false)
    (hmanned : system.callers ≠ [])
    (hless : (system.residents .held).length + system.cost < system.pool.maxCapacity) :
    ∃ next, system.Fetched next := by
  obtain ⟨caller, others, hcallers⟩ := List.exists_cons_of_ne_nil hmanned
  have hcaller : system.callers[0]? = some caller := by
    rw [hcallers]
    rfl
  cases hchoose : Pool.choose? system.pool.selection system.pool.available with
  | some chosen => exact fetched_available hidle hopen hcaller hchoose
  | none =>
      have hnone := Pool.choose?_eq_none hchoose
      obtain ⟨resource, hnew⟩ := Infinite.exists_notMem_finset system.pool.tracked.keys.toFinset
      obtain ⟨hreserved, hvetted⟩ := hidle.nothing
      have hsize := htended.size_eq
      have hcreating := htended.creating_eq
      rw [hnone, hvetted] at hsize
      simp only [List.length_nil, cost] at hsize hless
      apply fetched_made hidle hopen hcaller hnone (by omega)
      rw [List.mem_toFinset, ← Table.contains_iff_mem_keys, Pool.contains_eq_isSome] at hnew
      simpa using hnew

/-- Nobody is at work in an open pool, and nothing has been lost since an earlier state of it. -/
structure Ready (counter : Counter) (base system : System R) : Prop where
  tended : system.Tended counter
  idle : system.Idle
  opened : system.pool.closed = false
  manned : system.callers ≠ []
  cost_eq : system.cost = base.cost
  maxCapacity_eq : system.pool.maxCapacity = base.pool.maxCapacity

theorem Ready.exists_more [Infinite R] {base system : System R} {counter : Counter}
    (hready : Ready counter base system)
    (hless : (system.residents .held).length < base.pool.maxCapacity - base.cost) :
    ∃ next, Reaches calm system next ∧ Ready counter base next ∧
      (next.residents .held).length = (system.residents .held).length + 1 := by
  have hcost := hready.cost_eq
  have hmax := hready.maxCapacity_eq
  obtain ⟨next, hfetched⟩ :=
    hready.tended.exists_fetched hready.idle hready.opened hready.manned (by omega)
  refine ⟨next, hfetched.reaches, ?_, hfetched.held_length⟩
  exact {
    tended := hfetched.reaches.upright.tended hready.tended
    idle := hfetched.idle
    opened := hfetched.opened
    manned := hfetched.manned
    cost_eq := (hfetched.reaches.cost_eq hready.tended).trans hcost
    maxCapacity_eq := hfetched.reaches.maxCapacity_eq.trans hmax }

/-- Where nobody is at work, all of the capacity but what it has cost can be held at once. -/
theorem Tended.exists_full [Infinite R] {system : System R} {counter : Counter}
    (htended : system.Tended counter) (hidle : system.Idle) (hopen : system.pool.closed = false)
    (hmanned : system.callers ≠ []) :
    ∃ later, Reaches calm system later ∧
      (later.residents .held).length + system.cost = system.pool.maxCapacity := by
  have hle := htended.held_le
  obtain ⟨later, hlater, hfull⟩ := Runs.exists_filled (Ready counter system) _
    (fun _ hready hless => hready.exists_more hless) ⟨htended, hidle, hopen, hmanned, rfl, rfl⟩
    (Nat.le_sub_of_add_le hle)
  exact ⟨later, hlater, by omega⟩

/-- What becomes of the capacity of an elastic pool where its factory may raise. -/
structure Charged (system : System R) : Prop where
  charged : ∀ event after caller, upright system event = true → system.step? event = some after →
    system.callers[event.caller]? = some caller →
    after.forfeited = system.forfeited + event.move.wastes caller.call ∧
      after.stranded.Perm (event.move.strands caller.call ++ system.stranded)
  steady : ∀ later, Reaches calm system later → later.cost = system.cost
  held_le : ∀ later, Reaches upright system later →
    (later.residents .held).length + system.cost ≤ system.pool.maxCapacity
  exists_full : system.Idle → system.pool.closed = false → system.callers ≠ [] →
    ∃ later, Reaches calm system later ∧
      (later.residents .held).length + system.cost = system.pool.maxCapacity

theorem Tended.charged [Infinite R] {system : System R} {counter : Counter}
    (htended : system.Tended counter) : system.Charged where
  charged := by
    intro event after caller hupright hstep hcaller
    obtain ⟨mover, advanced, hstepped⟩ := stepped_of_step? hstep
    have heq : mover = caller := Option.some.inj (hstepped.caller_at.symm.trans hcaller)
    subst heq
    exact ⟨hstepped.forfeited_eq htended hupright, hstepped.stranded_perm htended hupright⟩
  steady := fun later hlater => hlater.cost_eq htended
  held_le := by
    intro later hlater
    have hle := (hlater.tended htended).held_le
    have hcost := hlater.cost_le htended
    rw [hlater.maxCapacity_eq] at hle
    omega
  exists_full := htended.exists_full

end System

end Pooling.Elastic
