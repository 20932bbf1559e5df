import Pooling.Proofs.Elastic.Lending

/-!
Who gives back what: the calls that give a resource back to an elastic pool, and the handles that
they are made for.
-/

namespace Pooling.Elastic

open Handles

variable {R : Type}

namespace System

/-- Callers and handles agree on who gives back what: each such call is made for one handle, which
owes its resource until the pool has taken it. -/
structure Attended (loans : List (Loan R)) (serving : List (Option Nat)) (pending : List Nat)
    (system : System R) : Prop where
  attends : ∀ (index handle : Nat), serving[index]?.join = some handle →
    ∃ settled returned, system.stance? index = some (some settled, returned) ∧
      (∀ loan, loans[handle]? = some loan → ∀ given ∈ returned,
        loan.stage.giving? = some given) ∧
      (handle ∈ pending ↔ settled = false)
  served : ∀ (index : Nat) (settled : Bool) (returned : List R),
    system.stance? index = some (some settled, returned) →
    ∃ handle, serving[index]?.join = some handle
  waiting : ∀ (handle : Nat) (loan : Loan R), loans[handle]? = some loan → loan.pool = 0 →
    loan.stage.giving?.isSome → handle ∉ pending →
    ∃ index : Nat, serving[index]?.join = some handle

namespace Attended

variable {before after : System R} {loans : List (Loan R)} {serving : List (Option Nat)}
  {pending : List Nat}

/-- Nothing shows of a step that no resource is given back in. -/
theorem of_same_stances (hattended : Attended loans serving pending before)
    (hsame : ∀ index, after.stance? index = before.stance? index) :
    Attended loans serving pending after where
  attends := fun index => by
    rw [hsame]
    exact hattended.attends index
  served := fun index => by
    rw [hsame]
    exact hattended.served index
  waiting := hattended.waiting

theorem lend (hattended : Attended loans serving pending before) (htied : Tied loans serving)
    {loan : Loan R} (hgiving : loan.stage.giving? = none) {later : List Nat}
    (hlater : ∀ handle < loans.length, handle ∈ later ↔ handle ∈ pending) :
    Attended (loans ++ [loan]) serving later before where
  attends := by
    intro index handle hserved
    have hbound := htied.lt_length hserved
    rw [List.getElem?_append_left hbound, hlater handle hbound]
    exact hattended.attends index handle hserved
  served := hattended.served
  waiting := by
    intro handle kept hkept hpool hsome hnot
    rcases Nat.lt_or_ge handle loans.length with hlt | hge
    · rw [List.getElem?_append_left hlt] at hkept
      exact hattended.waiting handle kept hkept hpool hsome fun hmem =>
        hnot ((hlater handle hlt).mpr hmem)
    · rw [List.getElem?_append_right hge, List.getElem?_singleton] at hkept
      obtain ⟨-, heq⟩ := Option.ite_none_right_eq_some.mp hkept
      cases heq
      simp [hgiving] at hsome

/-- A handle goes on that is not giving back. -/
theorem act (hattended : Attended loans serving pending before) (htied : Tied loans serving)
    {handle : Nat} {loan moved : Loan R} (hloan : loans[handle]? = some loan)
    (hfree : loan.pool ≠ 0 ∨ loan.stage.giving? = none)
    (howes : moved.pool = 0 → moved.stage.giving?.isSome → handle ∈ pending) :
    Attended (loans.set handle moved) serving pending before where
  attends := by
    intro index other hserved
    rw [List.getElem?_set_ne (htied.ne_of_free hserved hloan hfree)]
    exact hattended.attends index other hserved
  served := hattended.served
  waiting := by
    intro other kept hkept hpool hsome hnot
    by_cases heq : handle = other
    · subst heq
      have hbound := (List.getElem?_eq_some_iff.mp hloan).1
      rw [List.getElem?_set_self hbound] at hkept
      cases hkept
      exact absurd (howes hpool hsome) hnot
    · rw [List.getElem?_set_ne heq] at hkept
      exact hattended.waiting other kept hkept hpool hsome hnot

/-- A caller begins to give back what a handle asks its pool to take. -/
theorem give (hattended : Attended loans serving pending before) {place handle : Nat}
    (hplace : serving[place]? = some none)
    (hfresh : ∀ index : Nat, serving[index]?.join ≠ some handle) {loan : Loan R}
    (hloan : loans[handle]? = some loan) (hpool : loan.pool = 0) {resource : R}
    (hgiving : loan.stage.giving? = some resource)
    (hstance : ∀ index, after.stance? index =
      if index = place then some (some false, [resource]) else before.stance? index) :
    Attended loans (serving.set place (some handle)) pending after where
  attends := by
    intro index other hserved
    rw [serving_set hplace] at hserved
    rw [hstance]
    split at hserved
    next =>
      cases hserved
      have howes : handle ∈ pending := by
        by_contra hnot
        obtain ⟨index, hserved⟩ :=
          hattended.waiting handle loan hloan hpool (by simp [hgiving]) hnot
        exact hfresh index hserved
      refine ⟨false, [resource], by simp [*], ?_, by simp [howes]⟩
      intro kept hkept given hmem
      cases hloan.symm.trans hkept
      rw [hgiving, List.mem_singleton.mp hmem]
    next hne =>
      rw [if_neg hne]
      exact hattended.attends index other hserved
  served := by
    intro index settled returned hat
    rw [hstance] at hat
    rw [serving_set hplace]
    split
    next => exact ⟨handle, rfl⟩
    next hne =>
      rw [if_neg hne] at hat
      exact hattended.served index settled returned hat
  waiting := by
    intro other kept hkept hfirst hsome hnot
    obtain ⟨index, hserved⟩ := hattended.waiting other kept hkept hfirst hsome hnot
    refine ⟨index, ?_⟩
    rw [serving_set hplace]
    split
    next heq =>
      subst heq
      rw [hplace] at hserved
      cases hserved
    next => exact hserved

/-- The pool has taken the resource that a caller gives back for a handle. -/
theorem bring (hattended : Attended loans serving pending before) (htied : Tied loans serving)
    {place handle : Nat} (hserved : serving[place]?.join = some handle) {later : List Nat}
    (hnot : handle ∉ later)
    (hlater : ∀ other, other ≠ handle → (other ∈ later ↔ other ∈ pending))
    (hstance : ∀ index, after.stance? index =
      if index = place then some (some true, []) else before.stance? index) :
    Attended loans serving later after where
  attends := by
    intro index other hother
    rw [hstance]
    split
    next heq =>
      subst heq
      cases hserved.symm.trans hother
      exact ⟨true, [], rfl, by simp, by simp [hnot]⟩
    next hne =>
      rw [hlater other (htied.ne_of_elsewhere hserved hne hother)]
      exact hattended.attends index other hother
  served := by
    intro index settled returned hat
    rw [hstance] at hat
    split at hat
    next heq => exact ⟨handle, heq ▸ hserved⟩
    next => exact hattended.served index settled returned hat
  waiting := by
    intro other loan hloan hpool hsome hgone
    by_cases heq : other = handle
    · exact ⟨place, heq ▸ hserved⟩
    · exact hattended.waiting other loan hloan hpool hsome fun hmem =>
        hgone ((hlater other heq).mpr hmem)

/-- The call that a caller made for a handle is over, and the handle has its answer. -/
theorem conclude (hattended : Attended loans serving pending before) (htied : Tied loans serving)
    {place handle : Nat} (hplace : serving[place]? = some (some handle)) {moved : Loan R}
    (hgiving : moved.stage.giving? = none) {later : List Nat}
    (hlater : ∀ other, other ≠ handle → (other ∈ later ↔ other ∈ pending))
    (hstance : ∀ index, after.stance? index =
      if index = place then some (none, []) else before.stance? index) :
    Attended (loans.set handle moved) (serving.set place none) later after where
  attends := by
    intro index other hother
    rw [serving_set hplace] at hother
    split at hother
    next => cases hother
    next hne =>
      have hserved : serving[place]?.join = some handle := by rw [hplace, Option.join_some]
      have hdiffer := htied.ne_of_elsewhere hserved hne hother
      rw [hstance, if_neg hne, List.getElem?_set_ne hdiffer.symm, hlater other hdiffer]
      exact hattended.attends index other hother
  served := by
    intro index settled returned hat
    rw [hstance] at hat
    rw [serving_set hplace]
    split at hat
    next => simp at hat
    next hne =>
      rw [if_neg hne]
      exact hattended.served index settled returned hat
  waiting := by
    intro other loan hloan hpool hsome hgone
    have hdiffer : other ≠ handle := by
      rintro rfl
      have hbound : other < loans.length := by
        have hlt := (List.getElem?_eq_some_iff.mp hloan).1
        rwa [List.length_set] at hlt
      rw [List.getElem?_set_self hbound] at hloan
      cases hloan
      simp [hgiving] at hsome
    rw [List.getElem?_set_ne hdiffer.symm] at hloan
    obtain ⟨index, hother⟩ := hattended.waiting other loan hloan hpool hsome fun hmem =>
      hgone ((hlater other hdiffer).mpr hmem)
    refine ⟨index, ?_⟩
    rw [serving_set hplace, if_neg, hother]
    rintro rfl
    rw [hplace, Option.join_some, Option.some.injEq] at hother
    exact hdiffer hother.symm

end Attended

end System

end Pooling.Elastic
