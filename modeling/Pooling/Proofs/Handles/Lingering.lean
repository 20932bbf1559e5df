import Pooling.Proofs.Handles.Shutdown

/-!
Handles that have given their resource back and are registered all the same. A handle that ends lets
go of its pool and of its registration only after the pool has answered.
-/

namespace Pooling.Handles

variable {R : Type}

namespace Loan

/-- The pool has been asked to take the resource back, and has answered or raised. -/
def isGivenBack (loan : Loan R) : Bool := loan.fate = .returned && loan.stage.giving?.isNone

/-- One for a handle on the first pool that has yet to give back. -/
def unreturned (loan : Loan R) : Nat := if loan.pool = 0 && !loan.isGivenBack then 1 else 0

/-- A handle on the first pool whose registration outlasts what it was made for. -/
def isLingering (loan : Loan R) : Bool :=
  loan.pool = 0 && loan.isGivenBack && loan.stage.tracker?.isSome

theorem unreturned_of_other {loan : Loan R} (hother : loan.pool ≠ 0) : loan.unreturned = 0 := by
  simp [unreturned, hother]

theorem unreturned_of_giving {loan : Loan R} (hpool : loan.pool = 0)
    (hgiving : loan.stage.giving?.isSome) : loan.unreturned = 1 := by
  simp [unreturned, isGivenBack, hpool, Option.isSome_iff_ne_none.mp hgiving]

theorem isGivenBack_of_unreturned {loan : Loan R} (hnone : loan.unreturned = 0)
    (hpool : loan.pool = 0) : loan.isGivenBack = true := by
  simpa [unreturned, hpool] using hnone

theorem Sound.returned_of_giving {tracked : Bool} {loan : Loan R} (hsound : loan.Sound tracked)
    (hgiving : loan.stage.giving?.isSome) : loan.fate = .returned := by
  obtain ⟨pool, origin, value, stage, fate⟩ := loan
  have hfits : Fits tracked value fate stage := hsound
  cases hfits with
  | releasing => rfl
  | _ => cases hgiving

namespace Stepped

variable {tracked : Bool} {before after : Loan R} {demand : Demand R}

/-- A handle comes to have given back only by the answer of its pool. -/
theorem unreturned_eq (hstepped : Stepped tracked before demand after)
    (hfree : before.pool ≠ 0 ∨ before.stage.giving? = none) :
    after.unreturned = before.unreturned := by
  rcases hfree with hother | hnone
  · have hafter : after.pool ≠ 0 := hstepped.pool_eq ▸ hother
    rw [unreturned_of_other hother, unreturned_of_other hafter]
  · rw [unreturned, unreturned, hstepped.pool_eq, isGivenBack, isGivenBack, hnone]
    rcases hstepped.course with ⟨hundecided, hgiving⟩ | ⟨hfate, -, hleft⟩
    · have hbefore : decide (before.fate = .returned) = false := by simp [hundecided]
      have hafter : (decide (after.fate = .returned) && after.stage.giving?.isNone) = false := by
        simpa using hgiving
      rw [hbefore, hafter, Bool.false_and]
    · rw [hfate, hleft]

theorem unreturned_of_answer (hstepped : Stepped tracked before demand after)
    (hreturned : before.fate = .returned) (hpool : before.pool = 0)
    (hgiving : before.stage.giving?.isSome) : after.unreturned + 1 = before.unreturned := by
  rw [unreturned_of_giving hpool hgiving]
  rcases hstepped.course with ⟨hundecided, -⟩ | ⟨hfate, -, hleft⟩
  · simp [hreturned] at hundecided
  · simp [unreturned, isGivenBack, hstepped.pool_eq, hpool, hfate, hreturned, hleft]

/-- A registration that has ended is not begun again. -/
theorem lingers_before (hstepped : Stepped tracked before demand after)
    (hnone : before.unreturned = 0) (hlingers : after.isLingering = true) :
    before.isLingering = true := by
  simp only [isLingering, Bool.and_eq_true, decide_eq_true_eq] at hlingers ⊢
  obtain ⟨⟨hpool, -⟩, htracker⟩ := hlingers
  rw [hstepped.pool_eq] at hpool
  refine ⟨⟨hpool, isGivenBack_of_unreturned hnone hpool⟩, ?_⟩
  have hregistered := hstepped.registered_eq
  unfold registered at hregistered
  rw [htracker] at hregistered
  cases hbefore : before.stage.tracker?.isSome with
  | true => rfl
  | false =>
      rw [hbefore] at hregistered
      simp at hregistered

end Stepped

end Loan

namespace Custody

/-- How many handles on the first pool have yet to give back. -/
def unreturned (custody : Custody R) : Nat := tally Loan.unreturned custody.loans

def lingering (custody : Custody R) : Nat := custody.loans.countP Loan.isLingering

/-- Only the first pool has the detector that it has. -/
def Sole (custody : Custody R) : Prop :=
  ∀ pool index : Nat, custody.registry? 0 = some index → custody.registry? pool = some index →
    pool = 0

theorem unreturned_acted {custody : Custody R} {handle : Nat} {loan : Loan R}
    (hloan : custody.loans[handle]? = some loan) (moved : Loan R) (demand : Demand R) :
    ((custody.replace handle moved).heed handle loan.pool demand).unreturned + loan.unreturned =
      custody.unreturned + moved.unreturned :=
  Tally.tally_set Loan.unreturned hloan moved

theorem unreturned_lend (custody : Custody R) (pool : Nat) (resource : R) :
    (custody.lend pool resource).unreturned =
      custody.unreturned + if pool = 0 then 1 else 0 := by
  show tally Loan.unreturned (custody.loans ++ [custody.newLoan pool resource]) = _
  rw [Tally.tally_append, Tally.tally_cons, Tally.tally_nil]
  by_cases hpool : pool = 0
  · simp [Loan.unreturned, Loan.isGivenBack, newLoan, unreturned, hpool]
  · simp [Loan.unreturned, newLoan, unreturned, hpool]

/-- When every handle on the first pool has given back, its detector counts those that linger. -/
theorem Sound.outstanding_of_returned {custody : Custody R} (hsound : custody.Sound)
    (hsole : custody.Sole) (hnone : custody.unreturned = 0) {detector : LeakDetector}
    (hdetector : custody.detector? 0 = some detector) :
    detector.outstanding = .ofNat custody.lingering := by
  obtain ⟨index, hregistry, hindex⟩ := Option.bind_eq_some_iff.mp hdetector
  rw [hsound.outstanding index detector hindex, lingering]
  congr 1
  apply tally_eq_countP
  intro loan hmem
  by_cases hpool : loan.pool = 0
  · have hgiven := Loan.isGivenBack_of_unreturned
      (Tally.tally_eq_zero_iff.mp hnone loan hmem) hpool
    simp [registeredAt, Loan.isLingering, Loan.registered, hpool, hregistry, hgiven]
  · have hother : custody.registry? loan.pool ≠ some index :=
      fun heq => hpool (hsole loan.pool index hregistry heq)
    simp [registeredAt, Loan.isLingering, hpool, hother]

end Custody

namespace Transition

variable {custody next : Custody R} {event : Event R}

/-- What is done apart from the calls on the first pool gives it nothing back. -/
theorem unreturned_eq (htransition : Transition custody event next) (hsound : custody.Sound)
    (hfree : custody.isFree event) : next.unreturned = custody.unreturned := by
  cases htransition with
  | failed | abandoned => rfl
  | lent pool resource howned =>
      have hpool : pool ≠ 0 := by simpa [Custody.isFree] using hfree
      rw [Custody.unreturned_lend, if_neg hpool, Nat.add_zero]
  | checked pool => rw [Custody.unreturned, custody.loans_look, Custody.unreturned]
  | @acted handle act loan moved demand hloan hstep =>
      have hstepped := Loan.stepped_of_step?
        (hsound.loans loan (List.mem_of_getElem? hloan)) hstep
      have hsame := hstepped.unreturned_eq ((Custody.isFree_act_iff hloan).mp hfree)
      have htally := Custody.unreturned_acted hloan moved demand
      omega

/-- The handle that the first pool answers has given back. -/
theorem unreturned_of_answer {handle : Nat} {outcome : Outcome R} {loan : Loan R}
    (htransition : Transition custody (.act handle (answer outcome)) next)
    (hsound : custody.Sound) (hloan : custody.loans[handle]? = some loan)
    (hpool : loan.pool = 0) (hgiving : loan.stage.giving?.isSome) :
    next.unreturned + 1 = custody.unreturned := by
  cases htransition with
  | @acted _ _ _ moved demand hfound hstep =>
      cases hloan.symm.trans hfound
      have hbefore := hsound.loans loan (List.mem_of_getElem? hloan)
      have hless := (Loan.stepped_of_step? hbefore hstep).unreturned_of_answer
        (hbefore.returned_of_giving hgiving) hpool hgiving
      have htally := Custody.unreturned_acted hloan moved demand
      omega

/-- Once every handle on the first pool has given back, no other comes to linger. -/
theorem lingers_before (htransition : Transition custody event next) (hsound : custody.Sound)
    (hfree : custody.isFree event) (hnone : custody.unreturned = 0) {handle : Nat}
    {moved : Loan R} (hmoved : next.loans[handle]? = some moved)
    (hlingers : moved.isLingering = true) :
    ∃ loan, custody.loans[handle]? = some loan ∧ loan.isLingering = true := by
  cases htransition with
  | failed | abandoned => exact ⟨moved, hmoved, hlingers⟩
  | checked pool => exact ⟨moved, custody.loans_look pool ▸ hmoved, hlingers⟩
  | lent pool resource howned =>
      have hpool : pool ≠ 0 := by simpa [Custody.isFree] using hfree
      have hloans : (custody.loans ++ [custody.newLoan pool resource])[handle]? = some moved :=
        hmoved
      rw [List.getElem?_append] at hloans
      split at hloans
      next => exact ⟨moved, hloans, hlingers⟩
      next =>
        obtain rfl := List.mem_singleton.mp (List.mem_of_getElem? hloans)
        simp [Loan.isLingering, Custody.newLoan, hpool] at hlingers
  | @acted other act loan acted demand hloan hstep =>
      have hset : (custody.loans.set other acted)[handle]? = some moved := hmoved
      have hbefore := hsound.loans loan (List.mem_of_getElem? hloan)
      by_cases heq : other = handle
      · subst heq
        rw [List.getElem?_set_self (List.getElem?_eq_some_iff.mp hloan).1] at hset
        cases hset
        have hreturned := Tally.tally_eq_zero_iff.mp hnone loan (List.mem_of_getElem? hloan)
        exact ⟨loan, hloan, (Loan.stepped_of_step? hbefore hstep).lingers_before hreturned hlingers⟩
      · rw [List.getElem?_set_ne heq] at hset
        exact ⟨moved, hset, hlingers⟩

end Transition

namespace Lending

variable {σ ε : Type} [DecidableEq R] {kind : Host σ ε R} {lending next : Lending σ R}

theorem registries_of_change {occasion : Occasion ε R}
    (hchange : Change kind lending occasion next) :
    next.custody.registries = lending.custody.registries := by
  cases hchange with
  | given | went => rfl
  | handled _ _ hcustody | checked _ _ _ _ hcustody | answered _ _ _ _ _ _ _ _ hcustody
  | lent _ _ _ _ _ _ _ hcustody => exact (transition_of_step? hcustody).2.same_detectors.1

theorem Reaches.registries_eq {law : Law σ ε R} (hreaches : Reaches kind law lending next) :
    next.custody.registries = lending.custody.registries := by
  refine Runs.Reaches.invariant hreaches
    (fun later => later.custody.registries = lending.custody.registries) rfl ?_
  intro middle later occasion hsame _ hstep
  exact (registries_of_change (change_of_step? hstep).2).trans hsame

end Lending

end Pooling.Handles
