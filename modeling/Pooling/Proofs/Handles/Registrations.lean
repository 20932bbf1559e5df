import Pooling.Proofs.Handles.Custody
import Pooling.Proofs.Tally

/-!
What the ends of handles come to: a resource is given back once if the pool is there and never
otherwise, and the detectors count the handles that are left and those that outlived their pool.
-/

namespace Pooling.Handles

variable {R : Type}

/-- The registration that a handle still has. -/
def Stage.tracker? : Stage R → Option LeakTracker
  | .alive handle => handle.tracker
  | .ending (.upgrading _ tracker) => tracker
  | .ending (.releasing _ tracker) => tracker
  | .ending (.lettingGo _ tracker) => tracker
  | .ending .reporting => some {}
  | .ending (.untracking _ tracker) => tracker
  | .ending (.done _) => none
  | .unwinding tracker => tracker
  | .emptied shell => shell.tracker?
  | .gone => none
  | .forgotten handle => handle.tracker

/-- The handle is alive or forgotten. -/
def Stage.isHeld : Stage R → Bool
  | .alive _ => true
  | .forgotten _ => true
  | _ => false

namespace Demand

def untracked : Demand R → Nat
  | .untrack tracker => tracker.isSome.toNat
  | _ => 0

def reported : Demand R → Nat
  | .report => 1
  | _ => 0

end Demand

/-- At which stage a handle is whose resource has fared so, where `tracked` says whether its pool
registers handles. -/
inductive Fits (tracked : Bool) (value : R) : Fate → Stage R → Prop
  | alive {tracker : Option LeakTracker} (htracked : tracker.isSome = tracked) :
      Fits tracked value .undecided (.alive ⟨value, tracker⟩)
  | upgrading {tracker : Option LeakTracker} (htracked : tracker.isSome = tracked) :
      Fits tracked value .undecided (.ending (.upgrading value tracker))
  | releasing {tracker : Option LeakTracker} (htracked : tracker.isSome = tracked) :
      Fits tracked value .returned (.ending (.releasing value tracker))
  | lettingGo {tracker : Option LeakTracker} (result : Except PoolError Unit)
      (htracked : tracker.isSome = tracked) :
      Fits tracked value .returned (.ending (.lettingGo result tracker))
  | unwinding {tracker : Option LeakTracker} (htracked : tracker.isSome = tracked) :
      Fits tracked value .returned (.unwinding tracker)
  | reporting (htracked : tracked = true) : Fits tracked value .orphaned (.ending .reporting)
  | untracking {tracker : Option LeakTracker} {fate : Fate} (result : Except PoolError Unit)
      (hfate : fate = .returned ∨ fate = .orphaned) (htracked : tracker.isSome = tracked) :
      Fits tracked value fate (.ending (.untracking result tracker))
  | done {fate : Fate} (result : Except PoolError Unit)
      (hfate : fate = .returned ∨ fate = .orphaned) :
      Fits tracked value fate (.ending (.done result))
  | emptied {fate : Fate} (hfate : fate = .returned ∨ fate = .orphaned ∨ fate = .detached) :
      Fits tracked value fate (.emptied {})
  | gone {fate : Fate} (hfate : fate = .returned ∨ fate = .orphaned ∨ fate = .detached) :
      Fits tracked value fate .gone
  | forgotten {tracker : Option LeakTracker} (htracked : tracker.isSome = tracked) :
      Fits tracked value .forgotten (.forgotten ⟨value, tracker⟩)

namespace Loan

def Sound (tracked : Bool) (loan : Loan R) : Prop :=
  Fits tracked loan.value loan.fate loan.stage

def registered (loan : Loan R) : Nat := loan.stage.tracker?.isSome.toNat

/-- One for a handle that outlived its pool, as soon as it has been reported. -/
def leaks (tracked : Bool) (loan : Loan R) : Nat :=
  match loan.fate, loan.stage with
  | .orphaned, .ending .reporting => 0
  | .orphaned, _ => tracked.toNat
  | _, _ => 0

/-- What its pool has been asked to take back for a handle. -/
def returned (loan : Loan R) : List R :=
  if loan.fate = .returned then [loan.value] else []

/-- What a step of a handle comes to: what it gives up of its own it has asked of others. -/
structure Stepped (tracked : Bool) (before : Loan R) (demand : Demand R) (after : Loan R) :
    Prop where
  sound : after.Sound tracked
  pool_eq : after.pool = before.pool := by rfl
  origin_eq : after.origin = before.origin := by rfl
  registered_eq : after.registered + demand.untracked = before.registered := by rfl
  leaks_eq : after.leaks tracked = before.leaks tracked + demand.reported := by rfl
  returned_eq : after.returned = before.returned ++ demand.returned := by rfl
  course : before.fate = .undecided ∧ (after.fate = .returned → after.stage.giving?.isSome) ∨
    after.fate = before.fate ∧ after.value = before.value ∧ after.stage.giving? = none := by
      exact .inr ⟨rfl, rfl, rfl⟩

theorem Sound.registered_of_rest {loan : Loan R} (hsound : loan.Sound true)
    (hrest : loan.stage.isAtRest) : loan.registered = loan.stage.isHeld.toNat := by
  obtain ⟨pool, origin, value, stage, fate⟩ := loan
  have hfits : Fits true value fate stage := hsound
  cases hfits with
  | alive htracked | forgotten htracked => exact congrArg Bool.toNat htracked
  | gone => rfl
  | _ => cases hrest

theorem leaks_of_rest {loan : Loan R} (hrest : loan.stage.isAtRest) :
    loan.leaks true = (decide (loan.fate = .orphaned)).toNat := by
  obtain ⟨pool, origin, value, stage, fate⟩ := loan
  cases stage with
  | alive | gone | forgotten => cases fate <;> rfl
  | _ => cases hrest

theorem stepped_of_proceed? {tracked : Bool} {loan : Loan R} (hsound : loan.Sound tracked)
    {alive : Bool} {answer : Except PoolError Unit} {stage : Stage R} {demand : Demand R}
    (hproceed : loan.stage.proceed? alive answer = some (stage, demand)) :
    Stepped tracked loan demand { loan with stage, fate := loan.fated alive } := by
  obtain ⟨pool, origin, value, before, fate⟩ := loan
  have hfits : Fits tracked value fate before := hsound
  cases hfits with
  | alive | forgotten | gone => cases hproceed
  | @upgrading tracker htracked =>
      cases hproceed
      cases alive with
      | true => exact { sound := .releasing htracked, course := .inl ⟨rfl, fun _ => rfl⟩ }
      | false =>
          cases tracker with
          | none =>
              subst htracked
              exact { sound := .done _ (.inr rfl), course := .inl ⟨rfl, fun h => by cases h⟩ }
          | some =>
              exact { sound := .reporting htracked.symm, course := .inl ⟨rfl, fun h => by cases h⟩ }
  | releasing htracked =>
      cases hproceed
      exact { sound := .lettingGo _ htracked }
  | lettingGo result htracked =>
      cases hproceed
      exact { sound := .untracking _ (.inl rfl) htracked }
  | unwinding htracked =>
      cases hproceed
      exact { sound := .emptied (.inl rfl), registered_eq := Nat.zero_add _ }
  | reporting htracked =>
      cases hproceed
      subst htracked
      exact { sound := .untracking _ (.inr rfl) rfl }
  | untracking result hfate htracked =>
      cases hproceed
      rcases hfate with rfl | rfl
      · exact { sound := .done _ (.inl rfl), registered_eq := Nat.zero_add _ }
      · exact { sound := .done _ (.inr rfl), registered_eq := Nat.zero_add _ }
  | done result hfate =>
      cases hproceed
      rcases hfate with rfl | rfl
      · exact { sound := .emptied (.inl rfl) }
      · exact { sound := .emptied (.inr (.inl rfl)) }
  -- The drop that runs on an emptied handle finds nothing to give back and nothing registered.
  | emptied hfate =>
      cases hproceed
      rcases hfate with rfl | rfl | rfl
      · exact { sound := .gone (.inl rfl) }
      · exact { sound := .gone (.inr (.inl rfl)) }
      · exact { sound := .gone (.inr (.inr rfl)) }

theorem stepped_of_step? {tracked : Bool} {loan moved : Loan R} (hsound : loan.Sound tracked)
    {alive : Bool} {act : Act R} {demand : Demand R}
    (hstep : loan.step? alive act = some (moved, demand)) :
    Stepped tracked loan demand moved := by
  obtain ⟨pool, origin, value, stage, fate⟩ := loan
  have hfits : Fits tracked value fate stage := hsound
  cases act with
  | proceed answer =>
      obtain ⟨⟨next, asked⟩, hproceed, heq⟩ := Option.map_eq_some_iff.mp hstep
      cases heq
      exact stepped_of_proceed? hsound hproceed
  | write written =>
      cases hfits with
      | alive htracked =>
          cases hstep
          exact { sound := .alive htracked, course := .inl ⟨rfl, fun h => by cases h⟩ }
      | _ => cases hstep
  | leave =>
      cases hfits with
      | alive htracked =>
          cases hstep
          exact { sound := .upgrading htracked }
      | _ => cases hstep
  | detach =>
      cases hfits with
      | alive htracked =>
          cases hstep
          exact {
            sound := .emptied (.inr (.inr rfl))
            registered_eq := Nat.zero_add _
            course := .inl ⟨rfl, fun h => by cases h⟩ }
      | _ => cases hstep
  | forget =>
      cases hfits with
      | alive htracked =>
          cases hstep
          exact { sound := .forgotten htracked, course := .inl ⟨rfl, fun h => by cases h⟩ }
      | _ => cases hstep
  | raise =>
      cases hfits with
      | releasing htracked =>
          cases hstep
          exact { sound := .unwinding htracked }
      | _ => cases hstep

end Loan

namespace Custody

/-- Whether the handles of a pool are registered. -/
def tracks (custody : Custody R) (pool : Nat) : Bool :=
  (custody.detector? pool).any LeakDetector.enabled

def registeredAt (custody : Custody R) (index : Nat) (loan : Loan R) : Nat :=
  if custody.registry? loan.pool = some index then loan.registered else 0

def leaksAt (custody : Custody R) (index : Nat) (loan : Loan R) : Nat :=
  if custody.registry? loan.pool = some index then loan.leaks (custody.tracks loan.pool) else 0

/-- What the pool of a handle has been asked to take back for it. -/
def returnsOf (custody : Custody R) (handle : Nat) : List (Return R) :=
  match custody.loans[handle]? with
  | some loan => loan.returned.map fun resource => ⟨handle, loan.pool, resource⟩
  | none => []

/-- A word of each detector is the sum of a measure of the handles, as far as a word goes. -/
def Follows (custody : Custody R) (word : LeakDetector → UInt64)
    (measure : Nat → Loan R → Nat) : Prop :=
  ∀ index detector, custody.detectors[index]? = some detector →
    word detector = .ofNat (tally (measure index) custody.loans)

structure Sound (custody : Custody R) : Prop where
  loans : ∀ loan ∈ custody.loans, loan.Sound (custody.tracks loan.pool)
  outstanding : custody.Follows LeakDetector.outstanding custody.registeredAt
  leaked : custody.Follows LeakDetector.leaked custody.leaksAt
  returns_eq : ∀ handle,
    custody.returns.filter (fun given => given.handle = handle) = custody.returnsOf handle

theorem sound_start (registries : List (Option Nat)) (detectors : List LeakDetector) :
    (start registries detectors : Custody R).Sound where
  loans := fun loan hmem => by cases hmem
  outstanding := by
    intro index detector hdetector
    obtain ⟨given, -, rfl⟩ := List.mem_map.mp (List.mem_of_getElem? hdetector)
    rfl
  leaked := by
    intro index detector hdetector
    obtain ⟨given, -, rfl⟩ := List.mem_map.mp (List.mem_of_getElem? hdetector)
    rfl
  returns_eq := fun handle => rfl

theorem getElem?_onDetector (custody : Custody R) (pool index : Nat)
    (change : LeakDetector → LeakDetector) :
    (custody.onDetector pool change).detectors[index]? =
      if custody.registry? pool = some index then custody.detectors[index]?.map change
      else custody.detectors[index]? := by
  unfold onDetector
  cases custody.registry? pool with
  | none => rfl
  | some other =>
      simp only [List.getElem?_modify, Option.some.injEq]
      split
      next => rfl
      next => simp

theorem detector?_eq (custody : Custody R) {pool index : Nat}
    (hregistry : custody.registry? pool = some index) :
    custody.detector? pool = custody.detectors[index]? := by
  rw [detector?, hregistry, Option.bind_some]

theorem tracks_onDetector (custody : Custody R) (pool other : Nat)
    {change : LeakDetector → LeakDetector}
    (hsame : ∀ detector, (change detector).enabled = detector.enabled) :
    (custody.onDetector pool change).tracks other = custody.tracks other := by
  unfold tracks detector?
  show (Option.any _ ((custody.registry? other).bind _)) = _
  cases custody.registry? other with
  | none => rfl
  | some index =>
      simp only [Option.bind_some, getElem?_onDetector]
      split
      next => simp [Option.any_map, hsame]
      next => rfl

theorem ofNat_follows {before after : UInt64} {total added given taken : Nat}
    (hbefore : before = .ofNat total)
    (hword : after + .ofNat taken = before + .ofNat given)
    (htotal : added + taken = total + given) : after = .ofNat added := by
  apply (UInt64.add_left_inj (.ofNat taken)).mp
  rw [hword, hbefore, ← UInt64.ofNat_add, ← UInt64.ofNat_add, htotal]

/-- What a detector makes of a demand is what becomes of the handle in the sum. -/
theorem Follows.acted {custody : Custody R} {word : LeakDetector → UInt64}
    {measure : Nat → Loan R → Nat} (hfollows : custody.Follows word measure) {handle : Nat}
    {loan moved : Loan R} (hloan : custody.loans[handle]? = some loan) {demand : Demand R}
    (given taken : Nat)
    (hword : ∀ detector, word (demand.note detector) + .ofNat taken = word detector + .ofNat given)
    (hmeasure : ∀ index, custody.registry? loan.pool = some index →
      measure index moved + taken = measure index loan + given)
    (hother : ∀ index, custody.registry? loan.pool ≠ some index →
      measure index moved = measure index loan) :
    ((custody.replace handle moved).heed handle loan.pool demand).Follows word measure := by
  intro index detector hdetector
  have htally := Tally.tally_set (measure index) hloan moved
  have hat : (custody.onDetector loan.pool demand.note).detectors[index]? = some detector :=
    hdetector
  rw [getElem?_onDetector] at hat
  split at hat
  next hregistry =>
    obtain ⟨before, hbefore, rfl⟩ := Option.map_eq_some_iff.mp hat
    refine ofNat_follows (hfollows index before hbefore) (hword before) ?_
    have hmoved := hmeasure index hregistry
    show tally (measure index) (custody.loans.set handle moved) + taken = _
    omega
  next hregistry =>
    have hsame := hother index hregistry
    rw [hfollows index detector hat]
    show _ = UInt64.ofNat (tally (measure index) (custody.loans.set handle moved))
    congr 1
    omega

theorem Follows.lent {custody : Custody R} {word : LeakDetector → UInt64}
    {measure : Nat → Loan R → Nat} (hfollows : custody.Follows word measure) (pool : Nat)
    (resource : R)
    (hword : ∀ (index : Nat) (detector : LeakDetector), custody.registry? pool = some index →
      custody.detectors[index]? = some detector →
      word detector.track.2 =
        word detector + .ofNat (measure index (custody.newLoan pool resource)))
    (hother : ∀ index, custody.registry? pool ≠ some index →
      measure index (custody.newLoan pool resource) = 0) :
    (custody.lend pool resource).Follows word measure := by
  intro index detector hdetector
  have hat : (custody.onDetector pool fun detector => detector.track.2).detectors[index]? =
    some detector := hdetector
  rw [getElem?_onDetector] at hat
  show _ = UInt64.ofNat (tally (measure index) (custody.loans ++ [custody.newLoan pool resource]))
  rw [Tally.tally_append, UInt64.ofNat_add, Tally.tally_cons, Tally.tally_nil, Nat.add_zero]
  split at hat
  next hregistry =>
    obtain ⟨before, hbefore, rfl⟩ := Option.map_eq_some_iff.mp hat
    rw [hword index before hregistry hbefore, hfollows index before hbefore]
  next hregistry =>
    rw [hfollows index detector hat, hother index hregistry]
    exact (UInt64.add_zero _).symm

theorem tracks_lend (custody : Custody R) (pool : Nat) (resource : R) (other : Nat) :
    (custody.lend pool resource).tracks other = custody.tracks other := by
  refine custody.tracks_onDetector pool other fun detector => ?_
  unfold LeakDetector.track
  split <;> rfl

theorem tracks_acted (custody : Custody R) (handle pool : Nat) (moved : Loan R)
    (demand : Demand R) (other : Nat) :
    ((custody.replace handle moved).heed handle pool demand).tracks other =
      custody.tracks other := by
  refine custody.tracks_onDetector pool other fun detector => ?_
  cases demand with
  | untrack tracker => cases tracker <;> rfl
  | _ => rfl

theorem leaksAt_of_same {custody next : Custody R}
    (htracks : ∀ pool, next.tracks pool = custody.tracks pool)
    (hregistries : next.registry? = custody.registry?) :
    next.leaksAt = custody.leaksAt := by
  funext index loan
  rw [leaksAt, leaksAt, hregistries, htracks]

theorem isSome_track (detector : LeakDetector) : detector.track.1.isSome = detector.enabled := by
  unfold LeakDetector.track
  split
  next henabled => exact henabled.symm
  next hdisabled => exact (eq_false_of_ne_true hdisabled).symm

theorem Sound.lent {custody : Custody R} (hsound : custody.Sound) (pool : Nat) (resource : R) :
    (custody.lend pool resource).Sound where
  loans := by
    intro loan hmem
    rw [tracks_lend]
    rcases List.mem_append.mp hmem with hmem | hmem
    · exact hsound.loans loan hmem
    · obtain rfl := List.mem_singleton.mp hmem
      refine Fits.alive ?_
      show _ = (custody.detector? pool).any LeakDetector.enabled
      cases custody.detector? pool with
      | none => rfl
      | some detector => exact isSome_track detector
  outstanding := by
    refine hsound.outstanding.lent pool resource ?_ ?_
    · intro index detector hregistry hdetector
      have htracker : (custody.newLoan pool resource).registered =
          detector.track.1.isSome.toNat := by
        simp [newLoan, Loan.registered, Stage.tracker?, detector?_eq custody hregistry, hdetector]
      have hat : custody.registry? (custody.newLoan pool resource).pool = some index := hregistry
      rw [registeredAt, if_pos hat, htracker]
      unfold LeakDetector.track
      split
      next => rfl
      next => exact (UInt64.add_zero _).symm
    · exact fun index hregistry => if_neg hregistry
  leaked := by
    rw [leaksAt_of_same (custody.tracks_lend pool resource) rfl]
    refine hsound.leaked.lent pool resource ?_ ?_
    · intro index detector hregistry hdetector
      have hnone : custody.leaksAt index (custody.newLoan pool resource) = 0 := ite_self 0
      rw [hnone]
      unfold LeakDetector.track
      split <;> exact (UInt64.add_zero _).symm
    · exact fun index hregistry => if_neg hregistry
  returns_eq := by
    intro handle
    refine (hsound.returns_eq handle).trans ?_
    unfold returnsOf
    show _ = match (custody.loans ++ [_])[handle]? with | some loan => _ | none => _
    rcases Nat.lt_trichotomy handle custody.loans.length with hlt | heq | hgt
    · rw [List.getElem?_append_left hlt]
    · subst heq
      simp [Loan.returned, newLoan]
    · rw [List.getElem?_eq_none (by omega), List.getElem?_eq_none (by simp; omega)]

theorem Sound.acted {custody : Custody R} (hsound : custody.Sound) {handle : Nat}
    {loan moved : Loan R} (hloan : custody.loans[handle]? = some loan) {demand : Demand R}
    (hstepped : Loan.Stepped (custody.tracks loan.pool) loan demand moved) :
    ((custody.replace handle moved).heed handle loan.pool demand).Sound where
  loans := by
    intro other hmem
    rw [tracks_acted]
    rcases List.mem_or_eq_of_mem_set hmem with hmem | rfl
    · exact hsound.loans other hmem
    · rw [hstepped.pool_eq]
      exact hstepped.sound
  outstanding := by
    refine hsound.outstanding.acted hloan 0 demand.untracked ?_ ?_ ?_
    · intro detector
      cases demand with
      | untrack tracker =>
          cases tracker with
          | none => rfl
          | some => exact (UInt64.sub_add_cancel _ _).trans (UInt64.add_zero _).symm
      | _ => rfl
    · intro index hregistry
      rw [registeredAt, registeredAt, hstepped.pool_eq, if_pos hregistry, if_pos hregistry]
      exact hstepped.registered_eq
    · intro index hregistry
      rw [registeredAt, registeredAt, hstepped.pool_eq, if_neg hregistry, if_neg hregistry]
  leaked := by
    rw [leaksAt_of_same (custody.tracks_acted handle loan.pool moved demand) rfl]
    refine hsound.leaked.acted hloan demand.reported 0 ?_ ?_ ?_
    · intro detector
      cases demand with
      | untrack tracker => cases tracker <;> rfl
      | report => exact UInt64.add_zero _
      | _ => rfl
    · intro index hregistry
      rw [leaksAt, leaksAt, hstepped.pool_eq, if_pos hregistry, if_pos hregistry]
      exact hstepped.leaks_eq
    · intro index hregistry
      rw [leaksAt, leaksAt, hstepped.pool_eq, if_neg hregistry, if_neg hregistry]
  returns_eq := by
    intro other
    show List.filter _ (custody.returns ++ demand.returned.map fun resource =>
      ⟨handle, loan.pool, resource⟩) = _
    have hreturns := hsound.returns_eq other
    have hbound := (List.getElem?_eq_some_iff.mp hloan).1
    rw [List.filter_append, hreturns]
    unfold returnsOf
    show _ = match (custody.loans.set handle moved)[other]? with | some loan => _ | none => _
    by_cases heq : handle = other
    · subst heq
      rw [hloan, List.getElem?_set_self hbound]
      simp [hstepped.returned_eq, hstepped.pool_eq]
    · rw [List.getElem?_set_ne heq]
      simp [heq]

end Custody

theorem Transition.sound {custody next : Custody R} {event : Event R}
    (htransition : Transition custody event next) (hsound : custody.Sound) : next.Sound := by
  cases htransition with
  | failed => exact hsound
  | lent pool resource => exact hsound.lent pool resource
  | abandoned => exact ⟨hsound.loans, hsound.outstanding, hsound.leaked, hsound.returns_eq⟩
  | checked pool =>
      unfold Custody.look
      split
      next => exact ⟨hsound.loans, hsound.outstanding, hsound.leaked, hsound.returns_eq⟩
      next => exact hsound
  | acted handle act hloan hstep =>
      have hbefore := hsound.loans _ (List.mem_of_getElem? hloan)
      exact hsound.acted hloan (Loan.stepped_of_step? hbefore hstep)

/-! No detector ends the process: then nothing keeps a handle from coming to its end. -/

/-- How many steps are left of a handle's end. -/
def Stage.remaining : Stage R → Nat
  | .ending (.upgrading _ _) => 6
  | .ending (.releasing _ _) => 5
  | .ending (.lettingGo _ _) => 4
  | .ending .reporting => 4
  | .ending (.untracking _ _) => 3
  | .ending (.done _) => 2
  | .unwinding _ => 2
  | .emptied shell => if shell.resource?.isSome then 7 else 1
  | _ => 0

theorem Stage.exists_proceed {stage : Stage R} (hbusy : stage.isAtRest = false) (alive : Bool)
    (answer : Except PoolError Unit) :
    ∃ next demand, stage.proceed? alive answer = some (next, demand) ∧
      next.remaining < stage.remaining := by
  cases stage with
  | alive | gone | forgotten => cases hbusy
  | unwinding tracker => exact ⟨_, _, rfl, Nat.lt_succ_self 1⟩
  | emptied shell =>
      obtain ⟨resource?, tracker?⟩ := shell
      cases resource? with
      | none => exact ⟨_, _, rfl, Nat.one_pos⟩
      | some resource => exact ⟨_, _, rfl, Nat.lt_succ_self 6⟩
  | ending ending =>
      cases ending with
      | upgrading resource tracker =>
          refine ⟨_, _, rfl, ?_⟩
          cases alive with
          | true => exact Nat.lt_succ_self 5
          | false =>
              cases tracker with
              | none => exact Nat.lt_add_of_pos_right (Nat.succ_pos 3)
              | some => exact Nat.lt_add_of_pos_right Nat.two_pos
      | releasing | untracking | reporting | lettingGo | done =>
          exact ⟨_, _, rfl, Nat.lt_succ_self _⟩

namespace Custody

def AtRest (custody : Custody R) : Prop := ∀ loan ∈ custody.loans, loan.stage.isAtRest

structure Lenient (custody : Custody R) : Prop where
  running : custody.exited = false
  detectors : ∀ detector ∈ custody.detectors, detector.exitOnLeak = false

theorem lenient_start (registries : List (Option Nat)) {detectors : List LeakDetector}
    (hmild : ∀ detector ∈ detectors, detector.exitOnLeak = false) :
    (start registries detectors : Custody R).Lenient where
  running := rfl
  detectors := by
    intro detector hmem
    obtain ⟨given, hgiven, rfl⟩ := List.mem_map.mp hmem
    exact hmild given hgiven

theorem Lenient.onDetector {custody : Custody R} (hlenient : custody.Lenient) (pool : Nat)
    {change : LeakDetector → LeakDetector}
    (hsame : ∀ detector, (change detector).exitOnLeak = detector.exitOnLeak) :
    ∀ detector ∈ (custody.onDetector pool change).detectors, detector.exitOnLeak = false := by
  intro detector hmem
  obtain ⟨index, hindex⟩ := List.mem_iff_getElem?.mp hmem
  rw [getElem?_onDetector] at hindex
  split at hindex
  next =>
    obtain ⟨before, hbefore, rfl⟩ := Option.map_eq_some_iff.mp hindex
    rw [hsame]
    exact hlenient.detectors before (List.mem_of_getElem? hbefore)
  next => exact hlenient.detectors detector (List.mem_of_getElem? hindex)

theorem Lenient.of_detector? {custody : Custody R} (hlenient : custody.Lenient) {pool : Nat}
    {detector : LeakDetector} (hdetector : custody.detector? pool = some detector) :
    detector.exitOnLeak = false := by
  obtain ⟨index, -, hindex⟩ := Option.bind_eq_some_iff.mp hdetector
  exact hlenient.detectors detector (List.mem_of_getElem? hindex)

theorem Lenient.heed {custody : Custody R} (hlenient : custody.Lenient) (handle pool : Nat)
    (demand : Demand R) : (custody.heed handle pool demand).Lenient where
  running := by
    unfold Custody.heed
    cases hdetector : custody.detector? pool with
    | none => rfl
    | some detector =>
        have hmild := hlenient.of_detector? hdetector
        cases demand with
        | report => simp [Demand.verdict, LeakDetector.report, LeakDetector.failFast, hmild]
        | _ => rfl
  detectors := by
    refine hlenient.onDetector pool fun detector => ?_
    cases demand with
    | untrack tracker => cases tracker <;> rfl
    | _ => rfl

theorem Lenient.look {custody : Custody R} (hlenient : custody.Lenient) (pool : Nat) :
    (custody.look pool).Lenient := by
  unfold Custody.look
  split
  next detector hdetector =>
    have hmild := hlenient.of_detector? hdetector
    refine ⟨?_, hlenient.detectors⟩
    simp [LeakDetector.checkShutdown, LeakDetector.failFast, hmild]
  next => exact hlenient

theorem Lenient.of_transition {custody next : Custody R} (hlenient : custody.Lenient)
    {event : Event R} (htransition : Transition custody event next) : next.Lenient := by
  cases htransition with
  | failed => exact hlenient
  | lent pool resource =>
      refine ⟨hlenient.running, hlenient.onDetector pool fun detector => ?_⟩
      unfold LeakDetector.track
      split <;> rfl
  | abandoned => exact ⟨hlenient.running, hlenient.detectors⟩
  | checked pool => exact hlenient.look pool
  | @acted handle act loan moved demand hloan hstep =>
      have hreplaced : (custody.replace handle moved).Lenient :=
        ⟨hlenient.running, hlenient.detectors⟩
      exact hreplaced.heed handle loan.pool demand

def remaining (custody : Custody R) : Nat :=
  tally (fun loan => loan.stage.remaining) custody.loans

/-- Handles that are at rest stay as they are. -/
def Undisturbed (custody later : Custody R) : Prop :=
  ∀ (handle : Nat) (loan : Loan R), custody.loans[handle]? = some loan → loan.stage.isAtRest →
    later.loans[handle]? = some loan

theorem Lenient.exists_nearer {custody : Custody R} (hlenient : custody.Lenient) {loan : Loan R}
    (hmem : loan ∈ custody.loans) (hbusy : loan.stage.isAtRest = false) :
    ∃ next, Runs.Steps step? anyhow custody next ∧ next.Lenient ∧
      next.remaining < custody.remaining ∧ Undisturbed custody next := by
  obtain ⟨handle, hhandle⟩ := List.mem_iff_getElem?.mp hmem
  let alive := custody.isThere loan.pool
  obtain ⟨stage, demand, hproceed, hless⟩ := Stage.exists_proceed hbusy alive (.ok ())
  let moved : Loan R := { loan with stage, fate := loan.fated alive }
  have hmoves : loan.step? alive (.proceed (.ok ())) = some (moved, demand) := by
    rw [Loan.step?, hproceed]
    rfl
  have hstep : custody.step? (.act handle (.proceed (.ok ()))) =
      some ((custody.replace handle moved).heed handle loan.pool demand) := by
    simp only [step?, hlenient.running, hhandle, Option.bind_some]
    exact congrArg (Option.map _) hmoves
  refine ⟨_, ⟨_, rfl, hstep⟩, hlenient.of_transition (.acted handle _ hhandle hmoves), ?_, ?_⟩
  · have htally := Tally.tally_set (fun loan => loan.stage.remaining) hhandle moved
    have hless : moved.stage.remaining < loan.stage.remaining := hless
    show tally _ (custody.loans.set handle moved) < tally _ custody.loans
    omega
  · intro other kept hkept hresting
    have hne : handle ≠ other := by
      rintro rfl
      cases hhandle.symm.trans hkept
      simp [hbusy] at hresting
    exact (List.getElem?_set_ne hne).trans hkept

theorem Lenient.exists_rest {custody : Custody R} (hlenient : custody.Lenient) :
    ∃ later, Reaches anyhow custody later ∧ later.AtRest ∧ Undisturbed custody later := by
  -- Each step of a handle's end leaves fewer steps to do.
  generalize hamount : custody.remaining = amount
  induction amount using Nat.strongRecOn generalizing custody with
  | ind amount ih =>
      by_cases hbusy : ∃ loan ∈ custody.loans, loan.stage.isAtRest = false
      · obtain ⟨loan, hmem, hbusy⟩ := hbusy
        obtain ⟨next, hstep, hnext, hless, hsame⟩ := hlenient.exists_nearer hmem hbusy
        obtain ⟨later, hreaches, hrest, hlater⟩ := ih _ (hamount ▸ hless) hnext rfl
        exact ⟨later, hreaches.head hstep, hrest, fun handle loan hloan hresting =>
          hlater handle loan (hsame handle loan hloan hresting) hresting⟩
      · refine ⟨custody, .refl, fun loan hmem => ?_, fun _ _ hloan _ => hloan⟩
        exact eq_true_of_ne_false fun hat => hbusy ⟨loan, hmem, hat⟩

/-! Counting handles. -/

theorem tally_eq_countP {measure : Loan R → Nat} {loans : List (Loan R)} {chosen : Loan R → Bool}
    (hmeasure : ∀ loan ∈ loans, measure loan = (chosen loan).toNat) :
    tally measure loans = loans.countP chosen := by
  induction loans with
  | nil => rfl
  | cons loan loans ih =>
      have ih := ih fun other hmem => hmeasure other (List.mem_cons_of_mem _ hmem)
      rw [Tally.tally_cons, List.countP_cons, ih, hmeasure loan List.mem_cons_self]
      cases chosen loan <;> simp [Nat.add_comm]

/-- How many handles that a detector tracks are alive or forgotten. -/
def held (custody : Custody R) (index : Nat) : Nat :=
  custody.loans.countP fun loan =>
    custody.registry? loan.pool = some index && loan.stage.isHeld

/-- How many handles that a detector tracks ended when their pool was gone. -/
def outlived (custody : Custody R) (index : Nat) : Nat :=
  custody.loans.countP fun loan =>
    custody.registry? loan.pool = some index && loan.fate = .orphaned

theorem Sound.tracked_of_enabled {custody : Custody R} (hsound : custody.Sound) {index : Nat}
    {detector : LeakDetector} (hdetector : custody.detectors[index]? = some detector)
    (henabled : detector.enabled = true) {loan : Loan R} (hmem : loan ∈ custody.loans)
    (hregistry : custody.registry? loan.pool = some index) : loan.Sound true := by
  have hloan := hsound.loans loan hmem
  rwa [tracks, detector?_eq custody hregistry, hdetector, Option.any_some, henabled] at hloan

theorem Sound.outstanding_eq {custody : Custody R} (hsound : custody.Sound)
    (hrest : custody.AtRest) {index : Nat} {detector : LeakDetector}
    (hdetector : custody.detectors[index]? = some detector) (henabled : detector.enabled = true) :
    detector.outstanding = .ofNat (custody.held index) := by
  rw [hsound.outstanding index detector hdetector, held]
  congr 1
  apply tally_eq_countP
  intro loan hmem
  by_cases hregistry : custody.registry? loan.pool = some index
  · have hloan := hsound.tracked_of_enabled hdetector henabled hmem hregistry
    simp [registeredAt, hregistry, hloan.registered_of_rest (hrest loan hmem)]
  · simp [registeredAt, hregistry]

theorem Sound.leaked_eq {custody : Custody R} (hsound : custody.Sound)
    (hrest : custody.AtRest) {index : Nat} {detector : LeakDetector}
    (hdetector : custody.detectors[index]? = some detector) (henabled : detector.enabled = true) :
    detector.leaked = .ofNat (custody.outlived index) := by
  rw [hsound.leaked index detector hdetector, outlived]
  congr 1
  apply tally_eq_countP
  intro loan hmem
  by_cases hregistry : custody.registry? loan.pool = some index
  · have htracks : custody.tracks loan.pool = true := by
      rw [tracks, detector?_eq custody hregistry, hdetector, Option.any_some, henabled]
    simp [leaksAt, hregistry, htracks, Loan.leaks_of_rest (hrest loan hmem)]
  · simp [leaksAt, hregistry]

end Custody

end Pooling.Handles
