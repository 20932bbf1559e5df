import Pooling.Proofs.Elastic.Raises
import Pooling.Proofs.Fixed.Raises

/-!
What it costs a pool when its factory raises. A creation that fails gives its slot back, and one
that raises does not; the pool has that much less to hand out from then on.
-/

namespace Pooling

variable {R : Type} [DecidableEq R]

/-- Each creation that raises costs either pool a slot, and each check that raises costs the elastic
pool a resource. Nothing else does, nothing of it is found again, and all the rest can be had. -/
theorem charged_of_reaches [Infinite R] {options : ElasticOptions} {counter : Counter}
    {maxCapacity : UInt64} {count : Nat} {elastic : Elastic.System R} {fixed : Fixed.System R}
    (helastic : Elastic.System.Reaches Elastic.System.upright
      (Elastic.System.start options counter count) elastic)
    (hfixed : Fixed.System.Reaches Fixed.System.upright
      (Fixed.System.start maxCapacity count) fixed) :
    (Elastic.System.start options counter count : Elastic.System R).cost = 0 ∧ elastic.Charged ∧
      (Fixed.System.start maxCapacity count : Fixed.System R).forfeited = 0 ∧ fixed.Charged := by
  refine ⟨Elastic.System.cost_start options counter count, ?_,
    Fixed.System.forfeited_start maxCapacity count, ?_⟩
  · exact (helastic.tended (Elastic.System.tended_start options counter count)).charged
  · exact (hfixed.tended (Fixed.System.tended_start maxCapacity count)).charged

namespace Elastic.System

/-- A pool of one, whose factory raises when it is asked to make a resource. -/
def makingRaises : List (Event Nat) :=
  [⟨0, .begin .acquire 0, 0⟩, ⟨0, .turn 0, 0⟩, ⟨0, .raise "out of order", 0⟩]

/-- A pool of one, whose factory raises when it is asked to check the resource. -/
def checkingRaises : List (Event Nat) :=
  [⟨0, .begin .acquire 0, 0⟩, ⟨0, .turn 0, 0⟩, ⟨0, .make (.ok 7), 0⟩, ⟨0, .turn 0, 0⟩,
    ⟨0, .begin (.release 7) 1, 0⟩, ⟨0, .turn 1, 0⟩, ⟨0, .begin .tryAcquire 2, 0⟩, ⟨0, .turn 2, 0⟩,
    ⟨0, .raise "out of order", 0⟩]

/-- Everybody is through and nobody holds anything, and nobody ever will. -/
structure Spent (system : System Nat) : Prop where
  idle : system.Idle
  opened : system.pool.closed = false
  unheld : ∀ caller ∈ system.callers, caller.held = []
  never_held : ∀ later, Reaches upright system later → later.residents .held = []

theorem exists_spent {events : List (Event Nat)}
    (hruns : (run? upright events (start { maxCapacity := 1 } .silent 1)).map
        (fun system => (system.pool.closed, system.callers, system.cost)) =
      some (false, [⟨.done (.aborted (.raised "out of order")), []⟩], 1)) :
    ∃ system, run? upright events (start { maxCapacity := 1 } .silent 1) = some system ∧
      system.Spent := by
  obtain ⟨system, hrun, hends⟩ := Option.map_eq_some_iff.mp hruns
  simp only [Prod.mk.injEq] at hends
  obtain ⟨hopen, hcallers, hcost⟩ := hends
  have hreaches : Reaches upright (start { maxCapacity := 1 } .silent 1) system :=
    Runs.reaches_of_run? hrun
  refine ⟨system, hrun, ?idle, hopen, ?unheld, fun later hlater => ?never_held⟩
  case idle =>
    intro caller hcaller
    rw [hcallers, List.mem_singleton] at hcaller
    exact ⟨_, congrArg Caller.call hcaller⟩
  case unheld =>
    intro caller hcaller
    rw [hcallers, List.mem_singleton] at hcaller
    exact congrArg Caller.held hcaller
  case never_held =>
    have htended := hreaches.tended (tended_start _ _ _)
    have hle := htended.charged.held_le later hlater
    have hmax : system.pool.maxCapacity = 1 := hreaches.maxCapacity_eq
    rw [hcost, hmax] at hle
    exact List.eq_nil_of_length_eq_zero (by omega)

end Elastic.System

namespace Fixed.System

/-- As `Elastic.System.makingRaises`, in a fixed pool of one. -/
def makingRaises : List (Event Nat) :=
  [⟨0, .begin .acquire 0, 0⟩, ⟨0, .turn 0, 0⟩, ⟨0, .turn 0, 0⟩, ⟨0, .turn 0, 0⟩,
    ⟨0, .raise "out of order", 0⟩]

structure Spent (system : System Nat) : Prop where
  idle : system.Idle
  opened : system.pool.closed = false
  unheld : ∀ caller ∈ system.callers, caller.held = []
  never_held : ∀ later, Reaches upright system later → later.residents .held = []

theorem exists_spent {events : List (Event Nat)}
    (hruns : (run? upright events (start 1 1)).map
        (fun system => (system.pool.closed, system.callers, system.forfeited)) =
      some (false, [⟨.done (.aborted (.raised "out of order")), [], false⟩], 1)) :
    ∃ system, run? upright events (start 1 1) = some system ∧ system.Spent := by
  obtain ⟨system, hrun, hends⟩ := Option.map_eq_some_iff.mp hruns
  simp only [Prod.mk.injEq] at hends
  obtain ⟨hopen, hcallers, hforfeited⟩ := hends
  have hreaches : Reaches upright (start 1 1) system := Runs.reaches_of_run? hrun
  have htended := hreaches.tended (tended_start 1 1)
  refine ⟨system, hrun, ?idle, hopen, ?unheld, fun later hlater => ?never_held⟩
  case idle =>
    intro caller hcaller
    rw [hcallers, List.mem_singleton] at hcaller
    exact ⟨_, congrArg Caller.call hcaller⟩
  case unheld =>
    intro caller hcaller
    rw [hcallers, List.mem_singleton] at hcaller
    exact congrArg Caller.held hcaller
  case never_held =>
    have hle := htended.charged.held_le later hlater
    have hmax : system.pool.maxCapacity = 1 := htended.maxCapacity_eq
    rw [hforfeited, hmax] at hle
    exact List.eq_nil_of_length_eq_zero (by omega)

end Fixed.System

/-- After one raise a pool of one has nothing to hand out any more. -/
theorem spent_of_raises :
    (∃ system, Elastic.System.run? Elastic.System.upright Elastic.System.makingRaises
      (Elastic.System.start { maxCapacity := 1 } .silent 1) = some system ∧ system.Spent) ∧
    (∃ system, Elastic.System.run? Elastic.System.upright Elastic.System.checkingRaises
      (Elastic.System.start { maxCapacity := 1 } .silent 1) = some system ∧ system.Spent) ∧
    ∃ system, Fixed.System.run? Fixed.System.upright Fixed.System.makingRaises
      (Fixed.System.start 1 1) = some system ∧ system.Spent := by
  refine ⟨?making, ?checking, ?fixed⟩
  case making => exact Elastic.System.exists_spent (by decide)
  case checking => exact Elastic.System.exists_spent (by decide)
  case fixed => exact Fixed.System.exists_spent (by decide)

theorem charged_of_makingRaises : ∃ (elastic : Elastic.System Nat) (fixed : Fixed.System Nat),
    Elastic.System.run? Elastic.System.upright Elastic.System.makingRaises
        (Elastic.System.start { maxCapacity := 1 } .silent 1) = some elastic ∧
      Fixed.System.run? Fixed.System.upright Fixed.System.makingRaises
        (Fixed.System.start 1 1) = some fixed ∧
      elastic.forfeited = 1 ∧ elastic.Charged ∧ fixed.forfeited = 1 ∧ fixed.Charged := by
  have helastic : (Elastic.System.run? Elastic.System.upright Elastic.System.makingRaises
      (Elastic.System.start { maxCapacity := 1 } .silent 1)).map Elastic.System.forfeited =
        some 1 := by decide
  have hfixed : (Fixed.System.run? Fixed.System.upright Fixed.System.makingRaises
      (Fixed.System.start 1 1)).map Fixed.System.forfeited = some 1 := by decide
  obtain ⟨elastic, helastic, hlost⟩ := Option.map_eq_some_iff.mp helastic
  obtain ⟨fixed, hfixed, hgone⟩ := Option.map_eq_some_iff.mp hfixed
  obtain ⟨-, hcharged, -, hfixedCharged⟩ := charged_of_reaches
    (Runs.reaches_of_run? helastic) (Runs.reaches_of_run? hfixed)
  exact ⟨elastic, fixed, helastic, hfixed, hlost, hcharged, hgone, hfixedCharged⟩

end Pooling
