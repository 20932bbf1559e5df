import Pooling.Proofs.Elastic.Unshared
import Pooling.Proofs.Fixed.System
import Pooling.Proofs.Handles.Shutdown

/-!
What the two kinds of pool make of leaks when they are closed. An elastic pool looks for them once,
when it is closed first; a fixed pool never does.
-/

namespace Pooling

open Handles

variable {R : Type} [DecidableEq R]

namespace Elastic

/-- One for a call that has closed the pool and is not through with that. -/
def Call.closes : Call R → Nat
  | .closing _ (.drain _) => 1
  | .after (.drain _) => 1
  | .retiring => 1
  | _ => 0

omit [DecidableEq R] in
@[simp] theorem Call.closes_woken (call : Call R) : call.woken.closes = call.closes := by
  cases call <;> rfl

/-- A call comes to be closing the pool as the pool is closed, and ceases to as it retires. -/
theorem Transition.closes_eq {move : Move R} {call : Call R} {pool : Pool R}
    {advanced : Call.Advanced R} (htransition : Transition move call pool advanced)
    (hconsistent : pool.Consistent) (hunraised : ∀ text, move ≠ .raise text) :
    pool.closed.toNat + advanced.call.closes + (if call.need = .retire then 1 else 0) =
      advanced.pool.closed.toNat + call.closes := by
  cases htransition with
  | begin request => cases request <;> rfl
  | cutShort now hopen hcount =>
      exact absurd hconsistent.available_length_le (Nat.not_le_of_lt hcount)
  | scanned =>
      rw [Pool.foldl_untrack_eq]
      rfl
  | shut now hopen =>
      rw [Pool.foldl_untrack_eq, hopen]
      rfl
  | disposed resource next => cases next <;> rfl
  | raised text => exact absurd rfl (hunraised text)
  | _ => rfl

namespace System

/-- How many calls are closing the pool. -/
def closers (system : System R) : Nat := tally (fun caller => caller.call.closes) system.callers

theorem Stepped.closers_eq {before after : System R} {event : Event R} {caller : Caller R}
    {advanced : Call.Advanced R} {counter : Counter}
    (hstepped : Stepped before event after caller advanced) (hsound : before.Sound counter)
    (hunraised : ∀ text, event.move ≠ .raise text) :
    before.pool.closed.toNat + after.closers + (if caller.call.need = .retire then 1 else 0) =
      after.pool.closed.toNat + before.closers := by
  have hmove := hstepped.transition.closes_eq hsound.consistent hunraised
  have htally := hstepped.tally_eq (fun caller => caller.call.closes)
    (fun caller => caller.call.closes_woken)
  simp only [Caller.call_follow] at htally
  rw [hstepped.pool_eq, closers, closers]
  omega

/-- The looks that a pool had for leaks, and the calls that have yet to look, are as many as the
times that it was closed. -/
def Looked (lending : Lending (System R) R) : Prop :=
  (lending.custody.detector? 0).isSome →
    lending.custody.looks.length + lending.host.closers = lending.host.pool.closed.toNat

variable {counter : Counter} {pending : List Nat} {lending next : Lending (System R) R}

omit [DecidableEq R] in
theorem looked_start (options : ElasticOptions) (counter : Counter) (count : Nat)
    (registries : List (Option Nat)) (detectors : List LeakDetector) :
    Looked (.start (start options counter count : System R) count registries detectors) := by
  have hnone : (start options counter count : System R).closers = 0 := by
    apply Tally.tally_eq_zero_iff.mpr
    intro caller hcaller
    rw [eq_of_mem_start hcaller]
    rfl
  exact fun _ => congrArg (0 + ·) hnone

theorem Looked.of_change (hlooked : Looked lending) (hkept : Kept counter pending lending)
    {occasion : Occasion (Event R) R} (hharmless : harmless lending occasion = true)
    (hchange : Change asHost lending occasion next) : Looked next := by
  intro hsome
  rw [Lending.isSome_detector?_of_change hchange] at hsome
  have hbefore := hlooked hsome
  have hsound := hkept.balanced.sound
  -- Only a call that retires has the detector look, and that call is a closer until then.
  by_cases hretires : Lending.Retires asHost lending occasion
  · cases hchange with
    | handled | given => cases hretires
    | answered _ _ _ _ _ hretire | lent _ _ _ _ hretire | went _ _ _ hretire =>
        exact absurd hretires hretire
    | @checked event host custody hgives hhost hretire hcustody =>
        obtain ⟨caller, advanced, hstepped⟩ := stepped_of_step? hhost
        obtain ⟨hscoped, -⟩ := Bool.and_eq_true_iff.mp hharmless
        have hclosers := hstepped.closers_eq hsound (Move.unraised_of_isScoped hscoped)
        have hneed := Option.some.inj (hstepped.need?_before.symm.trans hretire)
        obtain ⟨detector, hdetector⟩ := Option.isSome_iff_exists.mp hsome
        cases (transition_of_step? hcustody).2
        rw [Custody.looks_look _ hdetector, List.length_append, List.length_singleton]
        rw [if_pos hneed] at hclosers
        show lending.custody.looks.length + 1 + host.closers = host.pool.closed.toNat
        omega
  · rw [Lending.looks_of_change hchange hretires]
    rcases Lending.host_of_change hchange with hsame | ⟨event, hhost, hoccasion⟩
    · rw [hsame]
      exact hbefore
    · obtain ⟨caller, advanced, hstepped⟩ := stepped_of_step? hhost
      have hmild : (∀ text, event.move ≠ .raise text) ∧ caller.call.need ≠ .retire := by
        rcases hoccasion with rfl | ⟨handle, resource, rfl, hgives⟩
        · obtain ⟨hscoped, -⟩ := Bool.and_eq_true_iff.mp hharmless
          refine ⟨Move.unraised_of_isScoped hscoped, fun hretire => hretires ?_⟩
          exact hstepped.need?_before.trans (congrArg some hretire)
        · obtain ⟨now, outcome, hmove, hcall, -⟩ := hstepped.transition.of_gives hgives
          simp [hmove, hcall, Call.need]
      have hclosers := hstepped.closers_eq hsound hmild.1
      rw [if_neg hmild.2] at hclosers
      omega

/-- What an elastic pool does about the handles that are left as it is closed: it looks for them
once, and that look alone may end the process. -/
structure Watched (lending : Lending (System R) R) : Prop where
  looks_once : (lending.custody.detector? 0).isSome →
    lending.custody.looks.length + lending.host.closers = lending.host.pool.closed.toNat
  look_eq : ∀ (event : Event R) (next : Lending (System R) R) (detector : LeakDetector),
    lending.custody.detector? 0 = some detector →
    lending.step? asHost (.call event) = some next →
    Lending.Retires asHost lending (.call event) →
    next.custody = { lending.custody with
      checks := lending.custody.checks ++ [⟨0, detector.outstanding⟩]
      exited := detector.exitOnLeak && decide (0 < detector.outstanding) }
  carries_on : ∀ (event : Event R) (next : Lending (System R) R),
    lending.step? asHost (.call event) = some next →
    ¬ Lending.Retires asHost lending (.call event) →
    next.custody.exited = false ∧ next.custody.looks = lending.custody.looks
  outstanding_eq : lending.custody.AtRest → ∀ (index : Nat) (detector : LeakDetector),
    lending.custody.registry? 0 = some index → lending.custody.detector? 0 = some detector →
    detector.enabled = true → detector.outstanding = .ofNat (lending.custody.held index)

theorem Kept.watched (hkept : Kept counter pending lending) (hlooked : Looked lending) :
    Watched lending where
  looks_once := hlooked
  look_eq := by
    intro event next detector hdetector hstep hretires
    obtain ⟨-, hchange⟩ := Lending.change_of_step? hstep
    cases hchange with
    | answered _ _ _ _ _ hretire | lent _ _ _ _ hretire | went _ _ _ hretire =>
        exact absurd hretires hretire
    | checked event hgives hhost hretire hcustody =>
        cases (transition_of_step? hcustody).2
        exact lending.custody.look_eq hdetector
  carries_on := by
    intro event next hstep hretires
    obtain ⟨hrunning, hchange⟩ := Lending.change_of_step? hstep
    exact ⟨Lending.running_of_change hkept.tied hrunning hchange hretires,
      Lending.looks_of_change hchange hretires⟩
  outstanding_eq := by
    intro hrest index detector hregistry hdetector henabled
    rw [Custody.detector?_eq _ hregistry] at hdetector
    exact hkept.balanced.owing.sound.outstanding_eq hrest hdetector henabled

end System

end Elastic

namespace Fixed

/-- The resource that a caller gives back with the call it begins. -/
def Move.gives? : Move R → Option R
  | .begin (.release resource) _ => some resource
  | _ => none

namespace System

/-- A fixed pool as handles know it. -/
def asHost : Host (System R) (Event R) R where
  step? := step?
  caller := Event.caller
  need? system index := system.callers[index]?.map fun caller => caller.call.need
  gives? event := event.move.gives?

variable {lending : Lending (System R) R}

theorem not_retires (lending : Lending (System R) R) (occasion : Occasion (Event R) R) :
    ¬ Lending.Retires asHost lending occasion := by
  intro hretires
  cases occasion with
  | give | custody => exact hretires
  | call event =>
      obtain ⟨caller, -, hneed⟩ := Option.map_eq_some_iff.mp hretires
      cases hcall : caller.call <;> simp [hcall, Call.need] at hneed

/-- What a fixed pool does about the handles that are left as it is closed, which is nothing. -/
structure Unwatched (lending : Lending (System R) R) : Prop where
  never_looks : lending.custody.looks = []
  carries_on : ∀ (event : Event R) (next : Lending (System R) R),
    lending.step? asHost (.call event) = some next → next.custody.exited = false
  outstanding_eq : lending.custody.AtRest → ∀ (index : Nat) (detector : LeakDetector),
    lending.custody.registry? 0 = some index → lending.custody.detector? 0 = some detector →
    detector.enabled = true → detector.outstanding = .ofNat (lending.custody.held index)

theorem unwatched {system : System R} {count : Nat} {registries : List (Option Nat)}
    {detectors : List LeakDetector}
    (hreaches : Lending.Reaches asHost Lending.anyhow
      (.start system count registries detectors) lending) : Unwatched lending := by
  obtain ⟨hnone, htied, hsound⟩ := hreaches.invariant
    (fun lending => lending.custody.looks = [] ∧
      Tied lending.custody.loans lending.serving ∧ lending.custody.Sound)
    ⟨rfl, tied_start count, Custody.sound_start registries detectors⟩ <| by
      intro before after occasion hkept _ hstep
      obtain ⟨hnone, htied, hsound⟩ := hkept
      obtain ⟨-, hchange⟩ := Lending.change_of_step? hstep
      exact ⟨(Lending.looks_of_change hchange (not_retires _ _)).trans hnone,
        Lending.tied_of_change htied hchange, Lending.sound_of_change hsound hchange⟩
  constructor
  case never_looks => exact hnone
  case carries_on =>
    intro event next hstep
    obtain ⟨hrunning, hchange⟩ := Lending.change_of_step? hstep
    exact Lending.running_of_change htied hrunning hchange (not_retires _ _)
  case outstanding_eq =>
    intro hrest index detector hregistry hdetector henabled
    rw [Custody.detector?_eq _ hregistry] at hdetector
    exact hsound.outstanding_eq hrest hdetector henabled

end System

end Fixed

/-- An elastic pool looks for leaks once, as it is closed first; a fixed pool never does. -/
theorem watched_of_reaches {options : ElasticOptions} {counter : Counter} {maxCapacity : UInt64}
    {count : Nat} {registries : List (Option Nat)} {detectors : List LeakDetector}
    {elastic : Lending (Elastic.System R) R} {fixed : Lending (Fixed.System R) R}
    (helastic : Lending.Reaches Elastic.System.asHost Elastic.System.harmless
      (.start (.start options counter count) count registries detectors) elastic)
    (hfixed : Lending.Reaches Fixed.System.asHost Lending.anyhow
      (.start (.start maxCapacity count) count registries detectors) fixed) :
    Elastic.System.Watched elastic ∧ Fixed.System.Unwatched fixed := by
  constructor
  · obtain ⟨⟨pending, hkept⟩, hlooked⟩ := helastic.invariant
      (fun lending => (∃ pending, Elastic.System.Kept counter pending lending) ∧
        Elastic.System.Looked lending)
      ⟨⟨[], Elastic.System.kept_start options counter count registries detectors⟩,
        Elastic.System.looked_start options counter count registries detectors⟩ <| by
        rintro before after occasion ⟨⟨pending, hkept⟩, hlooked⟩ hharmless hstep
        obtain ⟨-, hchange⟩ := Lending.change_of_step? hstep
        exact ⟨hkept.of_change hharmless hchange, hlooked.of_change hkept hharmless hchange⟩
    exact hkept.watched hlooked
  · exact Fixed.System.unwatched hfixed

namespace Elastic.System

def closes (caller : Nat) : List (Occasion (Event Nat) Nat) :=
  [.call ⟨caller, .begin .close 0, 0⟩, .call ⟨caller, .turn 0, 0⟩, .call ⟨caller, .turn 0, 0⟩,
    .call ⟨caller, .retire, 0⟩]

/-- One handle is dropped, one is forgotten, and the pool is closed twice. -/
def forgetful : List (Occasion (Event Nat) Nat) :=
  acquires 0 1 ++ acquires 0 2 ++ drops 0 0 1 ++ [.custody (.act 1 .forget)] ++
    [.call ⟨0, .begin .close 0, 0⟩, .call ⟨0, .turn 0, 0⟩, .call ⟨0, .turn 0, 0⟩,
      .call ⟨0, .dispose, 0⟩, .call ⟨0, .turn 0, 0⟩, .call ⟨0, .retire, 0⟩,
      .call ⟨0, .begin .close 0, 0⟩, .call ⟨0, .turn 0, 0⟩]

end Elastic.System

namespace Fixed.System

def turns (caller count : Nat) : List (Occasion (Event Nat) Nat) :=
  List.replicate count (.call ⟨caller, .turn 0, 0⟩)

def acquires (caller resource : Nat) : List (Occasion (Event Nat) Nat) :=
  [.call ⟨caller, .begin .acquire 0, 0⟩] ++ turns caller 3 ++
    [.call ⟨caller, .make (.ok resource), 0⟩] ++ turns caller 1

def drops (caller handle value : Nat) : List (Occasion (Event Nat) Nat) :=
  [.custody (.act handle .leave), .custody (.act handle (.proceed (.ok ()))),
    .give ⟨caller, .begin (.release value) 0, 0⟩ handle] ++ turns caller 3 ++
    List.replicate 4 (.custody (.act handle (.proceed (.ok ()))))

def closes (caller : Nat) : List (Occasion (Event Nat) Nat) :=
  [.call ⟨caller, .begin .close 0, 0⟩] ++ turns caller 5

/-- As `Elastic.System.forgetful`, on a fixed pool. -/
def forgetful : List (Occasion (Event Nat) Nat) :=
  acquires 0 1 ++ acquires 0 2 ++ drops 0 0 1 ++ [.custody (.act 1 .forget)] ++
    [.call ⟨0, .begin .close 0, 0⟩] ++ turns 0 7 ++ [.call ⟨0, .dispose, 0⟩] ++ turns 0 1 ++
    [.call ⟨0, .begin .close 0, 0⟩] ++ turns 0 2

end Fixed.System

theorem watched_of_forgetful :
    ∃ (elastic : Lending (Elastic.System Nat) Nat) (fixed : Lending (Fixed.System Nat) Nat),
      Lending.run? Elastic.System.asHost Elastic.System.harmless Elastic.System.forgetful
          (.start (.start { maxCapacity := 2 } .silent 1) 1 [some 0] [⟨"", true, false, 0, 0⟩]) =
        some elastic ∧
      Lending.run? Fixed.System.asHost Lending.anyhow Fixed.System.forgetful
          (.start (.start 2 1) 1 [some 0] [⟨"", true, false, 0, 0⟩]) = some fixed ∧
      elastic.custody.checks = [⟨0, 1⟩] ∧ elastic.host.callers.map Elastic.Caller.call =
        [.done .closed] ∧ Elastic.System.Watched elastic ∧
      fixed.host.callers.map Fixed.Caller.call = [.done .closed] ∧
      Fixed.System.Unwatched fixed := by
  have helastic : (Lending.run? Elastic.System.asHost Elastic.System.harmless
      Elastic.System.forgetful
      (.start (.start { maxCapacity := 2 } .silent 1) 1 [some 0] [⟨"", true, false, 0, 0⟩])).map
        (fun lending => (lending.custody.checks, lending.host.callers.map Elastic.Caller.call)) =
      some ([⟨0, 1⟩], [.done .closed]) := by decide
  have hfixed : (Lending.run? Fixed.System.asHost Lending.anyhow Fixed.System.forgetful
      (.start (.start 2 1) 1 [some 0] [⟨"", true, false, 0, 0⟩])).map
        (fun lending => lending.host.callers.map Fixed.Caller.call) = some [.done .closed] := by
    decide
  obtain ⟨elastic, helastic, hshown⟩ := Option.map_eq_some_iff.mp helastic
  obtain ⟨fixed, hfixed, hclosed⟩ := Option.map_eq_some_iff.mp hfixed
  obtain ⟨hchecks, hdone⟩ := Prod.mk.inj hshown
  obtain ⟨hwatched, hunwatched⟩ := watched_of_reaches (Runs.reaches_of_run? helastic)
    (Runs.reaches_of_run? hfixed)
  exact ⟨elastic, fixed, helastic, hfixed, hchecks, hdone, hwatched, hclosed, hunwatched⟩

/-- Where a leak is to be the end, closing a pool with a forgotten handle is the end if the pool is
elastic, and goes by in silence if it is fixed. -/
theorem unwatched_of_forgetting :
    (∃ elastic : Lending (Elastic.System Nat) Nat,
      Lending.run? Elastic.System.asHost Elastic.System.harmless
          (Elastic.System.acquires 0 1 ++ [.custody (.act 0 .forget)] ++ Elastic.System.closes 0)
          (.start (.start { maxCapacity := 1 } .silent 1) 1 [some 0] [⟨"", true, true, 0, 0⟩]) =
        some elastic ∧
      elastic.host.pool.closed = true ∧ elastic.custody.checks = [⟨0, 1⟩] ∧
      elastic.custody.exited = true) ∧
    ∃ fixed : Lending (Fixed.System Nat) Nat,
      Lending.run? Fixed.System.asHost Lending.anyhow
          (Fixed.System.acquires 0 1 ++ [.custody (.act 0 .forget)] ++ Fixed.System.closes 0)
          (.start (.start 1 1) 1 [some 0] [⟨"", true, true, 0, 0⟩]) = some fixed ∧
      fixed.host.callers.map Fixed.Caller.call = [.done .closed] ∧
      fixed.custody.detectors.map LeakDetector.outstanding = [1] ∧ fixed.custody.checks = [] ∧
      fixed.custody.exited = false := by
  refine ⟨?elastic, ?fixed⟩
  case elastic =>
    have hruns : (Lending.run? Elastic.System.asHost Elastic.System.harmless
        (Elastic.System.acquires 0 1 ++ [.custody (.act 0 .forget)] ++ Elastic.System.closes 0)
        (.start (.start { maxCapacity := 1 } .silent 1) 1 [some 0] [⟨"", true, true, 0, 0⟩])).map
          (fun lending => (lending.host.pool.closed, lending.custody.checks,
            lending.custody.exited)) = some (true, [⟨0, 1⟩], true) := by decide
    obtain ⟨elastic, hrun, hshown⟩ := Option.map_eq_some_iff.mp hruns
    simp only [Prod.mk.injEq] at hshown
    exact ⟨elastic, hrun, hshown⟩
  case fixed =>
    have hruns : (Lending.run? Fixed.System.asHost Lending.anyhow
        (Fixed.System.acquires 0 1 ++ [.custody (.act 0 .forget)] ++ Fixed.System.closes 0)
        (.start (.start 1 1) 1 [some 0] [⟨"", true, true, 0, 0⟩])).map
          (fun lending => (lending.host.callers.map Fixed.Caller.call,
            lending.custody.detectors.map LeakDetector.outstanding, lending.custody.checks,
            lending.custody.exited)) = some ([.done .closed], [1], [], false) := by decide
    obtain ⟨fixed, hrun, hshown⟩ := Option.map_eq_some_iff.mp hruns
    simp only [Prod.mk.injEq] at hshown
    exact ⟨fixed, hrun, hshown⟩

end Pooling
