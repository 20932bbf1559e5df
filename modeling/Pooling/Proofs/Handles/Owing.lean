import Mathlib.Data.List.Perm.Basic
import Pooling.Proofs.Handles.Registrations

/-!
Which handles of the first pool still owe it the resource that it handed out. A handle that gives
back another value than it was made of never ceases to.
-/

namespace Pooling.Handles

variable {R : Type} [DecidableEq R]

/-- The handle has given back the resource that it was made of. -/
def Loan.isRestored (loan : Loan R) : Bool :=
  loan.fate = .returned && loan.value = loan.origin && loan.stage.giving?.isNone

omit [DecidableEq R] in
theorem Loan.Sound.of_giving {tracked : Bool} {loan : Loan R} (hsound : loan.Sound tracked)
    {resource : R} (hgiving : loan.stage.giving? = some resource) :
    loan.fate = .returned ∧ loan.value = resource := by
  obtain ⟨pool, origin, value, stage, fate⟩ := loan
  have hfits : Fits tracked value fate stage := hsound
  cases hfits with
  | releasing htracked =>
      cases hgiving
      exact ⟨rfl, rfl⟩
  | _ => cases hgiving

omit [DecidableEq R] in
theorem Loan.Sound.not_returned {tracked : Bool} {loan : Loan R} (hsound : loan.Sound tracked)
    (hheld : loan.stage.isHeld) : loan.fate ≠ .returned := by
  obtain ⟨pool, origin, value, stage, fate⟩ := loan
  have hfits : Fits tracked value fate stage := hsound
  rintro rfl
  cases hfits <;> cases hheld

theorem Loan.Stepped.isRestored_eq {tracked : Bool} {before after : Loan R} {demand : Demand R}
    (hstepped : Loan.Stepped tracked before demand after) (hbefore : before.isRestored = false)
    (hgiving : before.stage.giving? = none) : after.isRestored = false := by
  rcases hstepped.course with ⟨-, hfound⟩ | ⟨hfate, hvalue, -⟩
  -- A handle that has just found its pool is still giving.
  · by_cases hfate : after.fate = .returned
    · simp [isRestored, hfound hfate]
    · simp [isRestored, hfate]
  · simp only [isRestored, hgiving, Option.isNone_none, Bool.and_true] at hbefore
    simp [isRestored, hfate, hvalue, hstepped.origin_eq, hbefore]

namespace Custody

def origins (custody : Custody R) : List R := custody.loans.map Loan.origin

/-- The resources that handles stand for. -/
def owed (custody : Custody R) (pending : List Nat) : List R :=
  pending.filterMap fun handle => custody.origins[handle]?

/-- The handles of the first pool that still owe it their resource. -/
structure Owing (custody : Custody R) (pending : List Nat) : Prop where
  sound : custody.Sound
  nodup : pending.Nodup
  lent : ∀ handle ∈ pending, ∃ loan, custody.loans[handle]? = some loan ∧ loan.pool = 0 ∧
    loan.isRestored = false
  restored : ∀ (handle : Nat) (loan : Loan R), custody.loans[handle]? = some loan →
    loan.pool = 0 → handle ∉ pending → loan.fate = .returned ∧ loan.value = loan.origin

theorem owing_start (registries : List (Option Nat)) (detectors : List LeakDetector) :
    (start registries detectors : Custody R).Owing [] where
  sound := sound_start registries detectors
  nodup := List.nodup_nil
  lent := fun handle hmem => by cases hmem
  restored := fun handle loan hloan => by cases hloan

namespace Owing

variable {custody next : Custody R} {pending : List Nat}

theorem lt_of_mem (howing : custody.Owing pending) {handle : Nat} (hmem : handle ∈ pending) :
    handle < custody.loans.length := by
  obtain ⟨loan, hloan, -⟩ := howing.lent handle hmem
  exact (List.getElem?_eq_some_iff.mp hloan).1

theorem of_same_loans (howing : custody.Owing pending) (hsound : next.Sound)
    (hloans : next.loans = custody.loans) : next.Owing pending where
  sound := hsound
  nodup := howing.nodup
  lent := hloans ▸ howing.lent
  restored := hloans ▸ howing.restored

omit [DecidableEq R] in
theorem of_getElem?_lend {pool : Nat} {resource : R} {handle : Nat} {loan : Loan R}
    (hloan : (custody.lend pool resource).loans[handle]? = some loan) :
    custody.loans[handle]? = some loan ∨
      handle = custody.loans.length ∧ loan.pool = pool ∧ loan.fate = .undecided ∧
        loan.stage.giving? = none := by
  rcases Nat.lt_or_ge handle custody.loans.length with hlt | hge
  · exact .inl ((List.getElem?_append_left hlt).symm.trans hloan)
  · have hnew : [custody.newLoan pool resource][handle - custody.loans.length]? = some loan :=
      (List.getElem?_append_right hge).symm.trans hloan
    obtain ⟨hzero, hnew⟩ := Option.ite_none_right_eq_some.mp (List.getElem?_singleton ▸ hnew)
    cases hnew
    exact .inr ⟨by omega, rfl, rfl, rfl⟩

theorem lend_other (howing : custody.Owing pending) {pool : Nat} (hpool : pool ≠ 0)
    (resource : R) : (custody.lend pool resource).Owing pending where
  sound := howing.sound.lent pool resource
  nodup := howing.nodup
  lent := by
    intro handle hmem
    obtain ⟨loan, hloan, hkept⟩ := howing.lent handle hmem
    exact ⟨loan, (List.getElem?_append_left (howing.lt_of_mem hmem)).trans hloan, hkept⟩
  restored := by
    intro handle loan hloan hfirst hnot
    rcases of_getElem?_lend hloan with hloan | ⟨-, hother, -⟩
    · exact howing.restored handle loan hloan hfirst hnot
    · exact absurd (hother.symm.trans hfirst) hpool

theorem lend (howing : custody.Owing pending) (resource : R) :
    (custody.lend 0 resource).Owing (custody.loans.length :: pending) where
  sound := howing.sound.lent 0 resource
  nodup := by
    refine List.nodup_cons.mpr ⟨fun hmem => ?_, howing.nodup⟩
    exact Nat.lt_irrefl _ (howing.lt_of_mem hmem)
  lent := by
    intro handle hmem
    rcases List.mem_cons.mp hmem with rfl | hmem
    · exact ⟨_, List.getElem?_concat_length, rfl, rfl⟩
    · obtain ⟨loan, hloan, hkept⟩ := howing.lent handle hmem
      exact ⟨loan, (List.getElem?_append_left (howing.lt_of_mem hmem)).trans hloan, hkept⟩
  restored := by
    intro handle loan hloan hfirst hnot
    rcases of_getElem?_lend hloan with hloan | ⟨rfl, -⟩
    · exact howing.restored handle loan hloan hfirst fun hmem =>
        hnot (List.mem_cons_of_mem _ hmem)
    · exact absurd List.mem_cons_self hnot

theorem acted (howing : custody.Owing pending) {handle : Nat} {loan moved : Loan R}
    (hloan : custody.loans[handle]? = some loan) {demand : Demand R}
    (hstepped : Loan.Stepped (custody.tracks loan.pool) loan demand moved)
    (hmoved : handle ∈ pending → moved.isRestored = false) :
    ((custody.replace handle moved).heed handle loan.pool demand).Owing pending where
  sound := howing.sound.acted hloan hstepped
  nodup := howing.nodup
  lent := by
    intro other hmem
    obtain ⟨kept, hkept, hfirst, howes⟩ := howing.lent other hmem
    show ∃ loan, (custody.loans.set handle moved)[other]? = some loan ∧ _
    by_cases heq : handle = other
    · subst heq
      cases hloan.symm.trans hkept
      have hbound := (List.getElem?_eq_some_iff.mp hloan).1
      exact ⟨moved, List.getElem?_set_self hbound, hstepped.pool_eq.trans hfirst, hmoved hmem⟩
    · exact ⟨kept, (List.getElem?_set_ne heq).trans hkept, hfirst, howes⟩
  restored := by
    intro other kept hkept hfirst hnot
    have hkept : (custody.loans.set handle moved)[other]? = some kept := hkept
    by_cases heq : handle = other
    · subst heq
      have hbound := (List.getElem?_eq_some_iff.mp hloan).1
      cases (List.getElem?_set_self hbound).symm.trans hkept
      obtain ⟨hfate, hvalue⟩ :=
        howing.restored handle loan hloan (hstepped.pool_eq.symm.trans hfirst) hnot
      rcases hstepped.course with ⟨hundecided, -⟩ | ⟨hfate', hvalue', -⟩
      · cases hundecided.symm.trans hfate
      · exact ⟨hfate'.trans hfate, (hvalue'.trans hvalue).trans hstepped.origin_eq.symm⟩
    · rw [List.getElem?_set_ne heq] at hkept
      exact howing.restored other kept hkept hfirst hnot

/-- The pool has taken the resource of a handle back. -/
theorem take (howing : custody.Owing pending) {handle : Nat} {loan : Loan R}
    (hloan : custody.loans[handle]? = some loan) (hfate : loan.fate = .returned)
    (hvalue : loan.value = loan.origin) : custody.Owing (pending.erase handle) where
  sound := howing.sound
  nodup := howing.nodup.erase handle
  lent := fun other hmem => howing.lent other (List.mem_of_mem_erase hmem)
  restored := by
    intro other kept hkept hfirst hnot
    by_cases heq : other = handle
    · subst heq
      cases hloan.symm.trans hkept
      exact ⟨hfate, hvalue⟩
    · exact howing.restored other kept hkept hfirst fun hmem =>
        hnot ((List.mem_erase_of_ne heq).mpr hmem)

omit [DecidableEq R] in
theorem owed_of_same_origins (hsame : next.origins = custody.origins) :
    next.owed pending = custody.owed pending := by
  rw [owed, owed, hsame]

omit [DecidableEq R] in
theorem origins_acted {handle : Nat} {loan moved : Loan R}
    (hloan : custody.loans[handle]? = some loan) (horigin : moved.origin = loan.origin)
    (pool : Nat) (demand : Demand R) :
    ((custody.replace handle moved).heed handle pool demand).origins = custody.origins := by
  show (custody.loans.set handle moved).map Loan.origin = custody.loans.map Loan.origin
  apply List.ext_getElem?
  intro other
  rw [List.getElem?_map, List.getElem?_map]
  by_cases heq : handle = other
  · subst heq
    have hbound := (List.getElem?_eq_some_iff.mp hloan).1
    rw [List.getElem?_set_self hbound, hloan]
    exact congrArg some horigin
  · rw [List.getElem?_set_ne heq]

theorem owed_lend_other (howing : custody.Owing pending) (pool : Nat) (resource : R) :
    (custody.lend pool resource).owed pending = custody.owed pending := by
  apply List.filterMap_congr
  intro handle hmem
  have hlt := howing.lt_of_mem hmem
  show ((custody.loans ++ [custody.newLoan pool resource]).map Loan.origin)[handle]? = _
  rw [List.map_append, List.getElem?_append_left (by simpa using hlt)]
  rfl

theorem owed_lend (howing : custody.Owing pending) (resource : R) :
    (custody.lend 0 resource).owed (custody.loans.length :: pending) =
      resource :: custody.owed pending := by
  have hnew : (custody.lend 0 resource).origins[custody.loans.length]? = some resource := by
    show ((custody.loans ++ [custody.newLoan 0 resource]).map Loan.origin)[_]? = _
    simp [newLoan]
  rw [← howing.owed_lend_other 0 resource, owed, List.filterMap_cons_some hnew]
  rfl

omit [DecidableEq R] in
theorem mem_owed {handle : Nat} (hmem : handle ∈ pending) {loan : Loan R}
    (hloan : custody.loans[handle]? = some loan) : loan.origin ∈ custody.owed pending := by
  refine List.mem_filterMap.mpr ⟨handle, hmem, ?_⟩
  simp [origins, hloan]

theorem count_owed_erase {handle : Nat} (hmem : handle ∈ pending) {loan : Loan R}
    (hloan : custody.loans[handle]? = some loan) (resource : R) :
    (custody.owed (pending.erase handle)).count resource + [loan.origin].count resource =
      (custody.owed pending).count resource := by
  have hperm := (List.perm_cons_erase hmem).filterMap fun handle => custody.origins[handle]?
  have horigin : custody.origins[handle]? = some loan.origin := by simp [origins, hloan]
  rw [List.filterMap_cons_some horigin] at hperm
  have hcount := hperm.count_eq resource
  rw [List.count_cons] at hcount
  simp only [owed, List.count_singleton]
  exact hcount.symm

theorem handle_unique
    (honce : ∀ resource, (custody.owed pending).count resource ≤ 1) {first second : Nat}
    (hfirst : first ∈ pending) (hsecond : second ∈ pending) {loan other : Loan R}
    (hloan : custody.loans[first]? = some loan) (hother : custody.loans[second]? = some other)
    (hsame : loan.origin = other.origin) : first = second := by
  by_contra hne
  have hleft : second ∈ pending.erase first :=
    (List.mem_erase_of_ne fun heq => hne heq.symm).mpr hsecond
  have hpos := List.count_pos_iff.mpr (mem_owed hleft hother)
  have hcount := count_owed_erase hfirst hloan other.origin
  rw [hsame, List.count_singleton_self] at hcount
  have hle := honce other.origin
  omega

theorem length_owed (howing : custody.Owing pending) :
    (custody.owed pending).length = pending.length := by
  rw [owed, List.length_filterMap_eq_countP]
  apply List.countP_eq_length.mpr
  intro handle hmem
  obtain ⟨loan, hloan, -⟩ := howing.lent handle hmem
  simp [origins, hloan]

/-- Where no handle is giving back, those that owe are the ones that have not given back what they
were made of. -/
theorem length_pending (howing : custody.Owing pending)
    (hrest : ∀ (handle : Nat) (loan : Loan R), custody.loans[handle]? = some loan →
      loan.pool = 0 → handle ∉ pending → loan.isRestored = true) :
    pending.length = custody.loans.countP fun loan => loan.pool = 0 && !loan.isRestored := by
  let owes : Loan R → Bool := fun loan => loan.pool = 0 && !loan.isRestored
  have hindices : (List.range custody.loans.length).map (fun index => custody.loans[index]?) =
      custody.loans.map some :=
    List.ext_getElem (by simp) (by simp)
  have hperm : pending.Perm
      ((List.range custody.loans.length).filter fun index => custody.loans[index]?.any owes) := by
    apply (List.perm_ext_iff_of_nodup howing.nodup (List.nodup_range.filter _)).mpr
    intro handle
    rw [List.mem_filter, List.mem_range]
    constructor
    · intro hmem
      obtain ⟨loan, hloan, hpool, howes⟩ := howing.lent handle hmem
      exact ⟨howing.lt_of_mem hmem, by simp [owes, hloan, hpool, howes]⟩
    · rintro ⟨-, hany⟩
      cases hloan : custody.loans[handle]? with
      | none => simp [hloan] at hany
      | some loan =>
          simp only [owes, hloan, Option.any_some, Bool.and_eq_true, decide_eq_true_eq,
            Bool.not_eq_true'] at hany
          by_contra hnot
          cases hany.2.symm.trans (hrest handle loan hloan hany.1 hnot)
  calc
    pending.length =
        (List.range custody.loans.length).countP fun index => custody.loans[index]?.any owes := by
      rw [hperm.length_eq, List.countP_eq_length_filter]
    _ = (custody.loans.map some).countP (Option.any owes) := by
      rw [← hindices, List.countP_map]
      rfl
    _ = custody.loans.countP owes := by
      rw [List.countP_map]
      rfl

end Owing

end Custody

end Pooling.Handles
