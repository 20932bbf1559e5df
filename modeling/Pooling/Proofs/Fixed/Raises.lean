import Mathlib.Data.Fintype.EquivFin
import Pooling.Proofs.Fixed.Lifecycle

/-!
What it costs a fixed pool when its factory raises instead of making a resource: the slot that was
reserved stays counted.
-/

namespace Pooling.Fixed

variable {R : Type}

def Move.raises : Move R → Bool
  | raise _ => true
  | _ => false

namespace System

/-- The slots that are counted for nothing in the queue and for no caller. -/
def forfeited (system : System R) : Nat :=
  system.pool.size - (system.pool.queue.length + tally Caller.slots system.callers)

/-- No call is in progress. -/
def Idle (system : System R) : Prop :=
  ∀ caller ∈ system.callers, ∃ outcome, caller.call = .done outcome

theorem Idle.reserved_eq {system : System R} (hidle : system.Idle) : system.reserved = 0 := by
  apply Tally.tally_eq_zero_iff.mpr
  intro caller hcaller
  obtain ⟨outcome, hdone⟩ := hidle caller hcaller
  rw [hdone]
  rfl

variable [DecidableEq R]

/-- Callers give back only what they hold, and the factory answers everything, if not always as one
would wish. -/
def calm : Law R := fun system event => upright system event && !event.move.raises

theorem upright_of_calm {system : System R} {event : Event R} (hcalm : calm system event = true) :
    upright system event = true :=
  (Bool.and_eq_true_iff.mp hcalm).1

theorem unraised_of_calm {system : System R} {event : Event R} (hcalm : calm system event = true) :
    ∀ text, event.move ≠ .raise text := by
  intro text hraise
  simp [calm, hraise, Move.raises] at hcalm

omit [DecidableEq R] in
theorem forfeited_start (maxCapacity : UInt64) (count : Nat) :
    (start maxCapacity count : System R).forfeited = 0 :=
  Nat.zero_sub _

theorem tended_start (maxCapacity : UInt64) (count : Nat) :
    (start maxCapacity count : System R).Tended maxCapacity :=
  (accounted_start maxCapacity count).tended

namespace Tended

variable {system : System R} {maxCapacity : UInt64}

omit [DecidableEq R] in
theorem size_eq (htended : system.Tended maxCapacity) :
    system.pool.size = system.pool.queue.length + (system.residents .held).length +
      system.reserved + system.forfeited := by
  have hslots := htended.slots_le
  have htally := system.tally_slots
  simp only [forfeited]
  omega

omit [DecidableEq R] in
theorem held_le (htended : system.Tended maxCapacity) :
    (system.residents .held).length + system.forfeited ≤ system.pool.maxCapacity := by
  have hsize := htended.size_eq
  have hle := htended.size_le
  omega

end Tended

theorem Stepped.forfeited_eq {before after : System R} {event : Event R} {caller : Caller R}
    {advanced : Call.Advanced R} {maxCapacity : UInt64}
    (hstepped : Stepped before event after caller advanced) (htended : before.Tended maxCapacity)
    (hupright : upright before event = true) :
    after.forfeited = before.forfeited + event.move.wastes caller.call := by
  have hstep := hstepped.size_eq htended hupright
  have hbefore := htended.slots_le
  have hafter := (hstepped.tended htended hupright).slots_le
  simp only [forfeited]
  omega

theorem Reaches.tended {system later : System R} {maxCapacity : UInt64}
    (hreaches : Reaches upright system later) (htended : system.Tended maxCapacity) :
    later.Tended maxCapacity :=
  hreaches.stepwise (Tended maxCapacity) htended
    fun htended hupright hstepped => hstepped.tended htended hupright

theorem Reaches.upright {system later : System R} (hreaches : Reaches calm system later) :
    Reaches upright system later :=
  hreaches.mono fun _ _ => upright_of_calm

/-- What was lost once is never found again. -/
theorem Reaches.forfeited_le {system later : System R} {maxCapacity : UInt64}
    (hreaches : Reaches System.upright system later) (htended : system.Tended maxCapacity) :
    system.forfeited ≤ later.forfeited := by
  refine (hreaches.stepwise (fun later => later.Tended maxCapacity ∧
    system.forfeited ≤ later.forfeited) ⟨htended, Nat.le_refl _⟩ ?_).2
  intro before after event caller advanced hkept hupright hstepped
  obtain ⟨htended, hle⟩ := hkept
  have hstep := hstepped.forfeited_eq htended hupright
  exact ⟨hstepped.tended htended hupright, by omega⟩

theorem Reaches.forfeited_eq {system later : System R} {maxCapacity : UInt64}
    (hreaches : Reaches calm system later) (htended : system.Tended maxCapacity) :
    later.forfeited = system.forfeited := by
  refine (hreaches.stepwise (fun later => later.Tended maxCapacity ∧
    later.forfeited = system.forfeited) ⟨htended, rfl⟩ ?_).2
  intro before after event caller advanced hkept hcalm hstepped
  obtain ⟨htended, hsame⟩ := hkept
  have hupright := upright_of_calm hcalm
  have hstep := hstepped.forfeited_eq htended hupright
  rw [Move.wastes_of_unraised (unraised_of_calm hcalm)] at hstep
  exact ⟨hstepped.tended htended hupright, hstep.trans hsame⟩

/-! A caller that acquires all there is to have, with nobody else at work. -/

/-- Nobody but the caller of a given number has done anything since, and it has come this far. -/
structure Alone (base : System R) (index : Nat) (caller : Caller R) (pool : Pool R)
    (system : System R) : Prop where
  reaches : Reaches calm base system
  bound : index < base.callers.length
  pool_eq : system.pool = pool
  callers_eq : system.callers = base.callers.set index caller

theorem alone_here {system : System R} {index : Nat} {caller : Caller R}
    (hcaller : system.callers[index]? = some caller) :
    system.Alone index caller system.pool system where
  reaches := .refl
  bound := (List.getElem?_eq_some_iff.mp hcaller).1
  pool_eq := rfl
  callers_eq := by
    obtain ⟨hbound, rfl⟩ := List.getElem?_eq_some_iff.mp hcaller
    exact (List.set_getElem_self hbound).symm

theorem Alone.step {base system : System R} {index : Nat} {caller : Caller R} {pool : Pool R}
    (halone : base.Alone index caller pool system) (move : Move R) {advanced : Call.Advanced R}
    (hperform : move.perform? caller.call pool = some advanced) (hwake : advanced.wake = .nobody)
    (houtside : caller.call.isEntering = false)
    (hcalm : calm system ⟨index, move, 0⟩ = true) :
    ∃ next, base.Alone index (caller.follow move advanced.call) advanced.pool next := by
  have hcaller : system.callers[index]? = some caller := by
    rw [halone.callers_eq]
    exact List.getElem?_set_self halone.bound
  have hstep : system.step? ⟨index, move, 0⟩ = some
      { pool := advanced.pool
        callers := system.callers.set index (caller.follow move advanced.call)
        made := system.made ++ move.makes
        disposed := system.disposed ++ move.disposes caller.call } := by
    simp [step?, hcaller, houtside, halone.pool_eq, hperform, hwake, wake?, Waking.wake?]
  refine ⟨_, halone.reaches.tail ⟨_, hcalm, hstep⟩, halone.bound, rfl, ?_⟩
  simp only [halone.callers_eq, List.set_set]

/-- One more resource is held, and again nobody is at work. -/
structure Fetched (system next : System R) : Prop where
  reaches : Reaches calm system next
  idle : next.Idle
  opened : next.pool.closed = false
  manned : next.callers ≠ []
  held_length : (next.residents .held).length = (system.residents .held).length + 1

omit [DecidableEq R] in
theorem length_held (system : System R) :
    (system.residents .held).length = tally (fun caller => caller.holdings.length) system.callers :=
  Tally.length_flatMap_eq_tally _ _

theorem Alone.fetched {system next : System R} {index : Nat} {caller : Caller R} {resource : R}
    {called : Bool} {pool : Pool R} (hidle : system.Idle)
    (hcaller : system.callers[index]? = some caller)
    (halone : system.Alone index ⟨.done (.acquired resource), resource :: caller.held, called⟩
      pool next) (hopen : pool.closed = false) : system.Fetched next where
  reaches := halone.reaches
  idle := by
    intro other hother
    rw [halone.callers_eq] at hother
    rcases List.mem_or_eq_of_mem_set hother with hbefore | rfl
    · exact hidle other hbefore
    · exact ⟨_, rfl⟩
  opened := by
    rw [halone.pool_eq]
    exact hopen
  manned := by
    have hbound := halone.bound
    rw [halone.callers_eq, ne_eq, List.set_eq_nil_iff]
    intro hnone
    simp [hnone] at hbound
  held_length := by
    obtain ⟨outcome, hdone⟩ := hidle caller (List.mem_of_getElem? hcaller)
    have hbefore : caller.holdings = caller.held := by simp [Caller.holdings, hdone, Call.inHand]
    have hafter : (⟨.done (.acquired resource), resource :: caller.held, called⟩ :
        Caller R).holdings.length = caller.held.length + 1 := by
      simp [Caller.holdings, Call.inHand]
    have htally := Tally.tally_set (fun caller => caller.holdings.length) hcaller
      ⟨.done (.acquired resource), resource :: caller.held, called⟩
    rw [length_held, length_held, halone.callers_eq]
    simp only [hbefore, hafter] at htally
    omega

/-- A call that tries to acquire in an open pool comes to look into the queue. -/
theorem exists_popping {system : System R} (hidle : system.Idle)
    (hopen : system.pool.closed = false) {index : Nat} {caller : Caller R}
    (hcaller : system.callers[index]? = some caller) :
    ∃ next called, system.Alone index ⟨.popping .never, caller.held, called⟩ system.pool next := by
  obtain ⟨outcome, hdone⟩ := hidle caller (List.mem_of_getElem? hcaller)
  have hadmit : (Call.opening .never).advance 0 system.pool =
      { pool := system.pool, call := .popping .never } := by
    simp [Call.advance, hopen]
  have hbegin : (Move.begin .tryAcquire 0).perform? caller.call system.pool =
      some ⟨system.pool, .nobody, .tryAcquire⟩ := by
    rw [hdone]
    rfl
  have houtside : caller.call.isEntering = false := by
    rw [hdone]
    rfl
  obtain ⟨asking, hasking⟩ := (alone_here hcaller).step _ hbegin rfl houtside rfl
  obtain ⟨admitted, hadmitted⟩ := hasking.step (.turn 0) (congrArg some hadmit) rfl rfl rfl
  exact ⟨admitted, _, hadmitted⟩

theorem fetched_queued {system : System R} (hidle : system.Idle)
    (hopen : system.pool.closed = false) {index : Nat} {caller : Caller R}
    (hcaller : system.callers[index]? = some caller) {resource : R} {rest : List R}
    (hqueue : system.pool.queue = resource :: rest) : ∃ next, system.Fetched next := by
  have hpop : (Call.popping .never).advance 0 system.pool =
      Call.acquired resource { system.pool with queue := rest } := by
    simp [Call.advance, Pool.pop?, hqueue]
  obtain ⟨popping, called, hpopping⟩ := exists_popping hidle hopen hcaller
  obtain ⟨popped, hpopped⟩ := hpopping.step (.turn 0) (congrArg some hpop) rfl rfl rfl
  exact ⟨popped, hpopped.fetched hidle hcaller hopen⟩

theorem fetched_made {system : System R} (hidle : system.Idle)
    (hopen : system.pool.closed = false) {index : Nat} {caller : Caller R}
    (hcaller : system.callers[index]? = some caller) (hqueue : system.pool.queue = [])
    (hroom : system.pool.size < system.pool.maxCapacity) (resource : R) :
    ∃ next, system.Fetched next := by
  have hpop : (Call.popping .never).advance 0 system.pool =
      { pool := system.pool, call := .reserving .never } := by
    simp [Call.advance, Pool.pop?, hqueue]
  have hreserve : (Call.reserving .never).advance 0 system.pool =
      { pool := { system.pool with capacity := system.pool.capacity + 1 }, call := .making } := by
    simp [Call.advance, Pool.reserve?, hroom]
  obtain ⟨popping, called, hpopping⟩ := exists_popping hidle hopen hcaller
  obtain ⟨dry, hdry⟩ := hpopping.step (.turn 0) (congrArg some hpop) rfl rfl rfl
  obtain ⟨reserved, hreserved⟩ := hdry.step (.turn 0) (congrArg some hreserve) rfl rfl rfl
  obtain ⟨made, hmade⟩ := hreserved.step (.make (.ok resource)) rfl rfl rfl rfl
  obtain ⟨kept, hkept⟩ := hmade.step (.turn 0) rfl rfl rfl rfl
  exact ⟨kept, hkept.fetched hidle hcaller hopen⟩

theorem Tended.exists_fetched [Nonempty R] {system : System R} {maxCapacity : UInt64}
    (htended : system.Tended maxCapacity) (hidle : system.Idle) (hopen : system.pool.closed = false)
    (hmanned : system.callers ≠ [])
    (hless : (system.residents .held).length + system.forfeited < system.pool.maxCapacity) :
    ∃ next, system.Fetched next := by
  obtain ⟨caller, others, hcallers⟩ := List.exists_cons_of_ne_nil hmanned
  have hcaller : system.callers[0]? = some caller := by
    rw [hcallers]
    rfl
  cases hqueue : system.pool.queue with
  | cons resource rest => exact fetched_queued hidle hopen hcaller hqueue
  | nil =>
      have hsize := htended.size_eq
      rw [hqueue, hidle.reserved_eq, List.length_nil] at hsize
      exact fetched_made hidle hopen hcaller hqueue (by omega) (Classical.arbitrary R)

/-- Nobody is at work in an open pool, and nothing has been lost since an earlier state of it. -/
structure Ready (maxCapacity : UInt64) (base system : System R) : Prop where
  tended : system.Tended maxCapacity
  idle : system.Idle
  opened : system.pool.closed = false
  manned : system.callers ≠ []
  forfeited_eq : system.forfeited = base.forfeited
  maxCapacity_eq : system.pool.maxCapacity = base.pool.maxCapacity

theorem Ready.exists_more [Nonempty R] {base system : System R} {maxCapacity : UInt64}
    (hready : Ready maxCapacity base system)
    (hless : (system.residents .held).length < base.pool.maxCapacity - base.forfeited) :
    ∃ next, Reaches calm system next ∧ Ready maxCapacity base next ∧
      (next.residents .held).length = (system.residents .held).length + 1 := by
  have hforfeited := hready.forfeited_eq
  have hmax := hready.maxCapacity_eq
  obtain ⟨next, hfetched⟩ :=
    hready.tended.exists_fetched hready.idle hready.opened hready.manned (by omega)
  have hnext := hfetched.reaches.upright.tended hready.tended
  refine ⟨next, hfetched.reaches, ?_, hfetched.held_length⟩
  exact {
    tended := hnext
    idle := hfetched.idle
    opened := hfetched.opened
    manned := hfetched.manned
    forfeited_eq := (hfetched.reaches.forfeited_eq hready.tended).trans hforfeited
    maxCapacity_eq := (hnext.maxCapacity_eq.trans hready.tended.maxCapacity_eq.symm).trans hmax }

/-- Where nobody is at work, all of the capacity but the slots that were lost can be held. -/
theorem Tended.exists_full [Nonempty R] {system : System R} {maxCapacity : UInt64}
    (htended : system.Tended maxCapacity) (hidle : system.Idle) (hopen : system.pool.closed = false)
    (hmanned : system.callers ≠ []) :
    ∃ later, Reaches calm system later ∧
      (later.residents .held).length + system.forfeited = system.pool.maxCapacity := by
  have hle := htended.held_le
  obtain ⟨later, hlater, hfull⟩ := Runs.exists_filled (Ready maxCapacity system) _
    (fun _ hready hless => hready.exists_more hless) ⟨htended, hidle, hopen, hmanned, rfl, rfl⟩
    (Nat.le_sub_of_add_le hle)
  exact ⟨later, hlater, by omega⟩

/-- What becomes of the capacity of a fixed pool where its factory may raise. -/
structure Charged (system : System R) : Prop where
  charged : ∀ event after caller, upright system event = true → system.step? event = some after →
    system.callers[event.caller]? = some caller →
    after.forfeited = system.forfeited + event.move.wastes caller.call
  steady : ∀ later, Reaches calm system later → later.forfeited = system.forfeited
  held_le : ∀ later, Reaches upright system later →
    (later.residents .held).length + system.forfeited ≤ system.pool.maxCapacity
  exists_full : system.Idle → system.pool.closed = false → system.callers ≠ [] →
    ∃ later, Reaches calm system later ∧
      (later.residents .held).length + system.forfeited = system.pool.maxCapacity

theorem Tended.charged [Nonempty R] {system : System R} {maxCapacity : UInt64}
    (htended : system.Tended maxCapacity) : system.Charged where
  charged := by
    intro event after caller hupright hstep hcaller
    obtain ⟨mover, advanced, hstepped⟩ := stepped_of_step? hstep
    have heq : mover = caller := Option.some.inj (hstepped.caller_at.symm.trans hcaller)
    subst heq
    exact hstepped.forfeited_eq htended hupright
  steady := fun later hlater => hlater.forfeited_eq htended
  held_le := by
    intro later hlater
    have hlaterTended := hlater.tended htended
    have hle := hlaterTended.held_le
    have hforfeited := hlater.forfeited_le htended
    rw [hlaterTended.maxCapacity_eq, ← htended.maxCapacity_eq] at hle
    omega
  exists_full := htended.exists_full

end System

end Pooling.Fixed
