import Mathlib.Logic.Relation

/-!
Runs of a system whose state changes event by event.
-/

namespace Pooling.Runs

variable {σ : Type u} {ε : Type v} {step? : σ → ε → Option σ} {law : σ → ε → Bool}

def Steps (step? : σ → ε → Option σ) (law : σ → ε → Bool) (before after : σ) : Prop :=
  ∃ event, law before event = true ∧ step? before event = some after

def Reaches (step? : σ → ε → Option σ) (law : σ → ε → Bool) : σ → σ → Prop :=
  Relation.ReflTransGen (Steps step? law)

def run? (step? : σ → ε → Option σ) (law : σ → ε → Bool) : List ε → σ → Option σ
  | [], state => some state
  | event :: events, state =>
      if law state event then (step? state event).bind (run? step? law events) else none

theorem reaches_of_run? {events : List ε} {before after : σ}
    (hrun : run? step? law events before = some after) : Reaches step? law before after := by
  induction events generalizing before with
  | nil =>
      cases hrun
      exact Relation.ReflTransGen.refl
  | cons event events ih =>
      rw [run?] at hrun
      split at hrun
      next hlaw =>
        obtain ⟨middle, hstep, hrest⟩ := Option.bind_eq_some_iff.mp hrun
        exact Relation.ReflTransGen.head ⟨event, hlaw, hstep⟩ (ih hrest)
      next => cases hrun

theorem run?_append (early late : List ε) (state : σ) :
    run? step? law (early ++ late) state =
      (run? step? law early state).bind (run? step? law late) := by
  induction early generalizing state with
  | nil => rfl
  | cons event early ih =>
      rw [List.cons_append, run?, run?]
      split
      next =>
        rw [Option.bind_assoc]
        congr 1
        exact funext ih
      next => rfl

theorem run?_concat {events : List ε} {before state after : σ} {event : ε}
    (hrun : run? step? law events before = some state) (hlaw : law state event = true)
    (hstep : step? state event = some after) :
    run? step? law (events ++ [event]) before = some after := by
  rw [run?_append, hrun, Option.bind_some, run?, if_pos hlaw, hstep]
  rfl

theorem exists_of_run?_cons {early late : List ε} {event : ε} {before after : σ}
    (hrun : run? step? law (early ++ event :: late) before = some after) :
    ∃ state next, run? step? law early before = some state ∧ law state event = true ∧
      step? state event = some next ∧ run? step? law late next = some after := by
  rw [run?_append] at hrun
  obtain ⟨state, hearly, hrest⟩ := Option.bind_eq_some_iff.mp hrun
  rw [run?] at hrest
  split at hrest
  next hlaw =>
    obtain ⟨next, hstep, hlate⟩ := Option.bind_eq_some_iff.mp hrest
    exact ⟨state, next, hearly, hlaw, hstep, hlate⟩
  next => cases hrest

/-- What holds before anything has happened, and is kept as each event is added to those that have,
holds of a whole run. -/
theorem invariant_of_run? {events : List ε} {before after : σ}
    (hrun : run? step? law events before = some after) (holds : List ε → σ → Prop)
    (hstart : holds [] before)
    (hkept : ∀ {past : List ε} {state next : σ} {event : ε}, holds past state →
      law state event = true → step? state event = some next → holds (past ++ [event]) next) :
    holds events after := by
  have hmore : ∀ events past state, holds past state →
      run? step? law events state = some after → holds (past ++ events) after := by
    intro events
    induction events with
    | nil =>
        intro past state hholds hrun
        cases hrun
        rw [List.append_nil]
        exact hholds
    | cons event events ih =>
        intro past state hholds hrun
        rw [run?] at hrun
        split at hrun
        next hlaw =>
          obtain ⟨next, hstep, hrest⟩ := Option.bind_eq_some_iff.mp hrun
          rw [List.append_cons]
          exact ih (past ++ [event]) next (hkept hholds hlaw hstep) hrest
        next => cases hrun
  exact hmore events [] before hstart hrun

theorem Reaches.mono {other : σ → ε → Bool} {before after : σ}
    (hreaches : Reaches step? law before after)
    (hlaws : ∀ state event, law state event = true → other state event = true) :
    Reaches step? other before after := by
  induction hreaches with
  | refl => exact Relation.ReflTransGen.refl
  | tail _ hlast ih =>
      obtain ⟨event, hlaw, hstep⟩ := hlast
      exact ih.tail ⟨event, hlaws _ _ hlaw, hstep⟩

/-- What holds at the start of a run, and is kept by each step the law allows, holds at its end. -/
theorem Reaches.invariant {before after : σ} (hreaches : Reaches step? law before after)
    (holds : σ → Prop) (hstart : holds before)
    (hkept : ∀ {state next : σ} {event : ε}, holds state → law state event = true →
      step? state event = some next → holds next) : holds after := by
  induction hreaches with
  | refl => exact hstart
  | tail _ hlast ih =>
      obtain ⟨event, hlaw, hstep⟩ := hlast
      exact hkept ih hlaw hstep

/-- A run that uses something up with each step is no longer than there is of it. -/
theorem length_le_of_run? (weight : σ → Nat)
    (hless : ∀ {before after : σ} {event : ε}, law before event = true →
      step? before event = some after → weight after < weight before)
    {events : List ε} {before after : σ} (hrun : run? step? law events before = some after) :
    events.length + weight after ≤ weight before := by
  induction events generalizing before with
  | nil =>
      cases hrun
      exact Nat.le_of_eq (Nat.zero_add _)
  | cons event events ih =>
      rw [run?] at hrun
      split at hrun
      next hlaw =>
        obtain ⟨middle, hstep, hrest⟩ := Option.bind_eq_some_iff.mp hrun
        have hmiddle := hless hlaw hstep
        have hlater := ih hrest
        rw [List.length_cons]
        omega
      next => cases hrun

/-- What a run can add one by one as long as there is room, it can add until there is none. -/
theorem exists_filled (good : σ → Prop) (amount : σ → Nat) {bound : Nat}
    (hmore : ∀ state, good state → amount state < bound →
      ∃ next, Reaches step? law state next ∧ good next ∧ amount next = amount state + 1)
    {state : σ} (hgood : good state) (hle : amount state ≤ bound) :
    ∃ later, Reaches step? law state later ∧ amount later = bound := by
  obtain ⟨missing, hmissing⟩ := Nat.exists_eq_add_of_le hle
  induction missing generalizing state with
  | zero => exact ⟨state, .refl, hmissing.symm⟩
  | succ missing ih =>
      obtain ⟨next, hreaches, hnext, hamount⟩ := hmore state hgood (by omega)
      obtain ⟨later, hlater, hfull⟩ := ih hnext (by omega) (by omega)
      exact ⟨later, hreaches.trans hlater, hfull⟩

/-! Machines that answer each step, and may come to a halt with an answer. -/

variable {α : Type u'} {ν : Type v'} {τ : Type w'} {β : Type w}

/-- The answers to a list of steps, up to the halt if there is one. -/
def answers (perform : σ → α → β × Option α) : List σ → α → List β
  | [], _ => []
  | step :: steps, state =>
      (perform step state).1 :: (perform step state).2.elim [] (answers perform steps)

/-- What a machine answers can be read off another that shows what there is to see of it. -/
theorem answers_eq_of_view {perform : σ → α → β × Option α} {shown : τ → ν → β × Option ν}
    {label : σ → τ} {view : α → ν} (holds : List σ → α → Prop)
    (hstep : ∀ step steps state, holds (step :: steps) state →
      (perform step state).1 = (shown (label step) (view state)).1 ∧
        (perform step state).2.map view = (shown (label step) (view state)).2 ∧
        ∀ next, (perform step state).2 = some next → holds steps next)
    (steps : List σ) {state : α} (hstart : holds steps state) :
    answers perform steps state = answers shown (steps.map label) (view state) := by
  induction steps generalizing state with
  | nil => rfl
  | cons step steps ih =>
      obtain ⟨hanswer, hview, hkept⟩ := hstep step steps state hstart
      rw [List.map_cons, answers, answers, ← hanswer, ← hview]
      congr 1
      cases hnext : (perform step state).2 with
      | none => rfl
      | some next => exact ih (hkept next hnext)

end Pooling.Runs
