import Pooling.Proofs.Handles.Lending
import Pooling.Proofs.Handles.Registrations

/-!
The looks that a pool has for leaks when its owner shuts it down. Nothing else that happens to the
pool's calls is a look, or ends the process.
-/

namespace Pooling.Handles

variable {σ ε R : Type}

theorem LeakDetector.checkShutdown_eq (detector : LeakDetector) :
    detector.checkShutdown =
      (if detector.exitOnLeak ∧ 0 < detector.outstanding then .exit else .carryOn,
        detector.outstanding) := by
  unfold LeakDetector.checkShutdown LeakDetector.failFast
  split
  next hsome => simp [hsome]
  next hnone => simp [hnone]

namespace Custody

def looks (custody : Custody R) : List Check := custody.checks.filter fun check => check.pool = 0

/-- A look counts the handles that are outstanding; if there are any it is the end where the
detector is to exit on a leak, and nothing else comes of it. -/
theorem look_eq (custody : Custody R) {pool : Nat} {detector : LeakDetector}
    (hdetector : custody.detector? pool = some detector) :
    custody.look pool =
      { custody with
        checks := custody.checks ++ [⟨pool, detector.outstanding⟩]
        exited := detector.exitOnLeak && decide (0 < detector.outstanding) } := by
  simp only [look, hdetector, LeakDetector.checkShutdown_eq]
  congr 1
  by_cases hexits : detector.exitOnLeak ∧ 0 < detector.outstanding
  · simp [hexits]
  · simp only [if_neg hexits, reduceCtorEq, decide_false]
    simpa using hexits

theorem looks_look (custody : Custody R) {detector : LeakDetector}
    (hdetector : custody.detector? 0 = some detector) :
    (custody.look 0).looks = custody.looks ++ [⟨0, detector.outstanding⟩] := by
  rw [custody.look_eq hdetector, looks, List.filter_append]
  rfl

theorem looks_look_other (custody : Custody R) {pool : Nat} (hother : pool ≠ 0) :
    (custody.look pool).looks = custody.looks := by
  unfold look
  split
  next => simp [looks, hother]
  next => rfl

theorem length_onDetector (custody : Custody R) (pool : Nat)
    (change : LeakDetector → LeakDetector) :
    (custody.onDetector pool change).detectors.length = custody.detectors.length := by
  unfold onDetector
  split
  next => exact List.length_modify ..
  next => rfl

end Custody

namespace Transition

variable {custody next : Custody R} {event : Event R}

theorem looks_eq (htransition : Transition custody event next) (hother : event ≠ .check 0) :
    next.looks = custody.looks := by
  cases htransition with
  | checked pool =>
      refine custody.looks_look_other fun hzero => ?_
      exact hother (congrArg Event.check hzero)
  | _ => rfl

theorem same_detectors (htransition : Transition custody event next) :
    next.registries = custody.registries ∧
      next.detectors.length = custody.detectors.length := by
  cases htransition with
  | failed | abandoned => exact ⟨rfl, rfl⟩
  | lent pool => exact ⟨rfl, custody.length_onDetector pool _⟩
  | checked pool =>
      unfold Custody.look
      split <;> exact ⟨rfl, rfl⟩
  | acted handle => exact ⟨rfl, custody.length_onDetector _ _⟩

theorem isSome_detector? (htransition : Transition custody event next) (pool : Nat) :
    (next.detector? pool).isSome = (custody.detector? pool).isSome := by
  obtain ⟨hregistries, hlength⟩ := htransition.same_detectors
  unfold Custody.detector? Custody.registry?
  rw [hregistries]
  cases custody.registries[pool]?.join with
  | none => rfl
  | some index =>
      apply Bool.eq_iff_iff.mpr
      rw [Option.bind_some, Option.bind_some, isSome_getElem?, isSome_getElem?, hlength]

end Transition

/-- The answer to a handle that is giving asks nothing of its detector. -/
theorem Loan.verdict_of_answer {loan moved : Loan R} {alive : Bool} {outcome : Outcome R}
    {demand : Demand R} (hgiving : loan.stage.giving?.isSome)
    (hstep : loan.step? alive (answer outcome) = some (moved, demand)) (detector : LeakDetector) :
    demand.verdict detector = .carryOn := by
  obtain ⟨pool, origin, value, stage, fate⟩ := loan
  cases stage with
  | ending ending =>
      cases ending with
      | releasing resource tracker => cases outcome <;> cases hstep <;> rfl
      | _ => cases hgiving
  | _ => cases hgiving

namespace Lending

variable [DecidableEq R] {kind : Host σ ε R} {lending next : Lending σ R}

/-- The owner of the pool retires, which is when it looks for leaks. -/
def Retires (kind : Host σ ε R) (lending : Lending σ R) : Occasion ε R → Prop
  | .call event => kind.need? lending.host (kind.caller event) = some .retire
  | _ => False

theorem looks_of_change {occasion : Occasion ε R} (hchange : Change kind lending occasion next)
    (hretires : ¬ Retires kind lending occasion) :
    next.custody.looks = lending.custody.looks := by
  cases hchange with
  | handled event hfree hcustody =>
      refine (transition_of_step? hcustody).2.looks_eq ?_
      rintro rfl
      simp [Custody.isFree] at hfree
  | given | went => rfl
  | checked event hgives hhost hretire => exact absurd hretire hretires
  | answered event handle outcome hgives hhost hretire hserved hdone hcustody =>
      exact (transition_of_step? hcustody).2.looks_eq (by simp)
  | lent event resource hgives hhost hretire hserved hdone hcustody =>
      exact (transition_of_step? hcustody).2.looks_eq (by simp)

theorem isSome_detector?_of_change {occasion : Occasion ε R}
    (hchange : Change kind lending occasion next) (pool : Nat) :
    (next.custody.detector? pool).isSome = (lending.custody.detector? pool).isSome := by
  cases hchange with
  | given | went => rfl
  | handled _ _ hcustody | checked _ _ _ _ hcustody | answered _ _ _ _ _ _ _ _ hcustody
  | lent _ _ _ _ _ _ _ hcustody => exact (transition_of_step? hcustody).2.isSome_detector? pool

/-- Where handles that are served are giving, no call but the retiring one ends the process. -/
theorem running_of_change (htied : Tied lending.custody.loans lending.serving)
    (hrunning : lending.custody.exited = false) {event : ε}
    (hchange : Change kind lending (.call event) next)
    (hretires : ¬ Retires kind lending (.call event)) : next.custody.exited = false := by
  cases hchange with
  | checked event hgives hhost hretire => exact absurd hretire hretires
  | answered event handle outcome hgives hhost hretire hserved hdone hcustody =>
      obtain ⟨loan, hloan, -, hgiving⟩ := htied.giving _ handle hserved
      cases (transition_of_step? hcustody).2 with
      | acted _ _ hfound hstep =>
          cases hloan.symm.trans hfound
          have hverdict := Loan.verdict_of_answer hgiving hstep
          show (lending.custody.detector? _).any _ = false
          simp [hverdict]
  | lent event resource hgives hhost hretire hserved hdone hcustody =>
      cases (transition_of_step? hcustody).2 with
      | failed => exact hrunning
      | lent => exact hrunning
  | went => exact hrunning

theorem sound_of_change (hsound : lending.custody.Sound) {occasion : Occasion ε R}
    (hchange : Change kind lending occasion next) : next.custody.Sound := by
  cases hchange with
  | given | went => exact hsound
  | handled _ _ hcustody | checked _ _ _ _ hcustody | answered _ _ _ _ _ _ _ _ hcustody
  | lent _ _ _ _ _ _ _ hcustody => exact (transition_of_step? hcustody).2.sound hsound

end Lending

end Pooling.Handles
