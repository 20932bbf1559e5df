import Mathlib.Data.List.Perm.Subperm
import Pooling.Proofs.Elastic.Capacity

/-!
What an elastic pool keeps true of itself between any two sections: the available resources are
those tracked and not checked out, and the counter follows the number of the tracked.
-/

namespace Pooling.Elastic

variable {R : Type} [DecidableEq R]

/-- The resource that a call has taken out of the pool and has neither handed out nor given up. -/
def Call.vetted : Call R → List R
  | .checking _ resource => [resource]
  | .condemned _ resource => [resource]
  | _ => []

/-- The resource that a call is about to give up, because it failed its check. -/
def Call.rejected : Call R → List R
  | .condemned _ resource => [resource]
  | _ => []

omit [DecidableEq R] in
theorem Call.mem_vetted_of_rejected {call : Call R} {resource : R}
    (hrejected : resource ∈ call.rejected) : resource ∈ call.vetted := by
  cases call with
  | condemned patience rejected => exact hrejected
  | _ => cases hrejected

omit [DecidableEq R] in
@[simp] theorem Call.vetted_request (request : Request R) (now : Reading) :
    (request.call now).vetted = [] := by
  cases request <;> rfl

omit [DecidableEq R] in
@[simp] theorem Call.vetted_woken (call : Call R) : call.woken.vetted = call.vetted := by
  cases call <;> rfl

def Call.returned : Call R → List R
  | .returning resource _ => [resource]
  | _ => []

namespace Pool

/-- One for a resource that is checked out, and nothing for any other. -/
def out (pool : Pool R) (resource : R) : Nat :=
  if pool.checkedOut? resource = some true then 1 else 0

theorem out_of_same {pool other : Pool R} {resource : R}
    (hsame : other.checkedOut? resource = pool.checkedOut? resource) :
    other.out resource = pool.out resource := by
  rw [out, out, hsame]

theorem out_le_one (pool : Pool R) (resource : R) : pool.out resource ≤ 1 := by
  unfold out
  split <;> omega

theorem count_le_out {pool : Pool R} {chosen : R} (hout : pool.checkedOut? chosen = some true)
    (resource : R) : [chosen].count resource ≤ pool.out resource := by
  by_cases heq : chosen = resource
  · subst heq
    simp [out, hout]
  · simp [heq]

theorem out_checkOut {pool : Pool R} {chosen : R} (hidle : pool.checkedOut? chosen = some false)
    (rest : List R) (resource : R) :
    (pool.checkOut chosen rest).out resource = pool.out resource + [chosen].count resource := by
  rw [out, out, checkedOut?_checkOut]
  by_cases heq : resource = chosen
  · subst heq
    simp [hidle]
  · simp [heq, Ne.symm heq]

theorem out_track (pool : Pool R) {made : R} (hnew : pool.checkedOut? made = none) (now : Reading)
    (resource : R) :
    (pool.track made now).out resource = pool.out resource + [made].count resource := by
  rw [out, out, checkedOut?_track]
  by_cases heq : resource = made
  · subst heq
    simp [hnew]
  · simp [heq, Ne.symm heq]

theorem out_untrack (pool : Pool R) (gone resource : R) :
    (pool.untrack gone).out resource = pool.out resource - [gone].count resource := by
  have hle := pool.out_le_one resource
  by_cases heq : resource = gone
  · subst heq
    simp only [out, checkedOut?_untrack, List.count_singleton_self] at hle ⊢
    simp
    omega
  · simp [out, checkedOut?_untrack, heq, Ne.symm heq]

theorem out_markReturned (pool : Pool R) (returned : R) (now : Reading) (resource : R) :
    (pool.markReturned returned now).out resource =
      pool.out resource - [returned].count resource := by
  have hle := pool.out_le_one resource
  by_cases heq : resource = returned
  · subst heq
    simp only [out, checkedOut?_markReturned, List.count_singleton_self] at hle ⊢
    simp
    omega
  · simp [out, checkedOut?_markReturned, heq, Ne.symm heq]

/-- By how much the counter's balance is above the number of the tracked. -/
def surplus (pool : Pool R) : Int := pool.counter.balance - pool.size

omit [DecidableEq R] in
theorem surplus_of_same {pool other : Pool R} (hsize : other.size = pool.size)
    (hcounter : other.counter = pool.counter) : other.surplus = pool.surplus := by
  rw [surplus, surplus, hsize, hcounter]

theorem surplus_track (pool : Pool R) {resource : R} (hnew : pool.checkedOut? resource = none)
    (now : Reading) : (pool.track resource now).surplus = pool.surplus := by
  have hsize := pool.size_track hnew now
  have hbalance : (pool.track resource now).counter.balance = pool.counter.balance + 1 :=
    pool.counter.balance_up
  simp only [surplus]
  omega

theorem surplus_untrack {pool : Pool R} (hkeys : pool.tracked.keys.Nodup) {resource : R}
    (htracked : (pool.checkedOut? resource).isSome) :
    (pool.untrack resource).surplus = pool.surplus := by
  have hsize := size_untrack hkeys htracked
  have hbalance : (pool.untrack resource).counter.balance = pool.counter.balance - 1 :=
    pool.counter.balance_down
  simp only [surplus]
  omega

theorem surplus_foldl_untrack (pool : Pool R) {resources : List R}
    (hkeys : pool.tracked.keys.Nodup) (hnodup : resources.Nodup)
    (htracked : ∀ resource ∈ resources, (pool.checkedOut? resource).isSome) :
    (resources.foldl Pool.untrack pool).surplus = pool.surplus := by
  have hsize := size_foldl_untrack hkeys hnodup htracked
  have hbalance := balance_foldl_untrack resources pool
  simp only [surplus]
  omega

structure Consistent (pool : Pool R) : Prop where
  nodup_available : pool.available.Nodup
  mem_available_iff : ∀ resource,
    resource ∈ pool.available ↔ pool.checkedOut? resource = some false
  available_of_closed : pool.closed = true → pool.available = []

theorem consistent_start (options : ElasticOptions) (counter : Counter) :
    (start options counter : Pool R).Consistent where
  nodup_available := List.nodup_nil
  mem_available_iff := fun resource => by simp [start, checkedOut?, Table.get?]
  available_of_closed := fun _ => rfl

theorem Consistent.available_length_le {pool : Pool R} (hconsistent : pool.Consistent) :
    pool.available.length ≤ pool.size := by
  rw [size, ← Table.length_keys]
  apply List.Subperm.length_le
  apply List.subperm_of_subset hconsistent.nodup_available
  intro resource hmem
  have hidle := (hconsistent.mem_available_iff resource).mp hmem
  rw [← Table.contains_iff_mem_keys, contains_eq_isSome, hidle]
  rfl

theorem Consistent.of_same {pool other : Pool R} (hconsistent : pool.Consistent)
    (havailable : other.available = pool.available)
    (hout : ∀ resource, other.checkedOut? resource = pool.checkedOut? resource)
    (hclosed : other.closed = pool.closed) : other.Consistent where
  nodup_available := havailable ▸ hconsistent.nodup_available
  mem_available_iff := fun resource => by
    rw [havailable, hout, hconsistent.mem_available_iff]
  available_of_closed := fun h => by
    rw [havailable]
    exact hconsistent.available_of_closed (hclosed ▸ h)

theorem Consistent.checkOut {pool : Pool R} (hconsistent : pool.Consistent)
    (hopen : pool.closed = false) {resource : R} {rest : List R}
    (hchosen : pool.available.Perm (resource :: rest)) :
    (pool.checkOut resource rest).Consistent where
  nodup_available :=
    (List.nodup_cons.mp (hchosen.nodup_iff.mp hconsistent.nodup_available)).2
  mem_available_iff := by
    intro other
    have hnodup := hchosen.nodup_iff.mp hconsistent.nodup_available
    have hmem := hconsistent.mem_available_iff other
    rw [hchosen.mem_iff, List.mem_cons] at hmem
    rw [checkedOut?_checkOut]
    show other ∈ rest ↔ _
    split
    next heq =>
      subst heq
      simp [(List.nodup_cons.mp hnodup).1]
    next hne => simpa [hne] using hmem
  available_of_closed := fun hclosed => by
    have : pool.closed = true := hclosed
    simp [hopen] at this

theorem Consistent.out_foldl_untrack {pool : Pool R} (hconsistent : pool.Consistent)
    {taken : List R} (hidle : ∀ resource ∈ taken, resource ∈ pool.available) (resource : R) :
    (taken.foldl Pool.untrack pool).out resource = pool.out resource := by
  unfold out
  rw [checkedOut?_foldl_untrack]
  split
  next hmem =>
    have hfalse := (hconsistent.mem_available_iff resource).mp (hidle resource hmem)
    simp [hfalse]
  next => rfl

theorem Consistent.out_shut {pool : Pool R} (hconsistent : pool.Consistent) (resource : R) :
    (pool.available.foldl Pool.untrack { pool with closed := true, available := [] }).out
      resource = pool.out resource := by
  have hidle := hconsistent.out_foldl_untrack (fun _ hmem => hmem) resource
  exact (out_of_same (pool.checkedOut?_shut resource)).trans hidle

theorem Consistent.out_collect {pool : Pool R} (hconsistent : pool.Consistent)
    {taken left : List R} (hperm : pool.available.Perm (taken ++ left)) (resource : R) :
    (taken.foldl Pool.untrack pool).out resource = pool.out resource := by
  apply hconsistent.out_foldl_untrack
  intro other hmem
  rw [hperm.mem_iff]
  exact List.mem_append_left left hmem

/-- Resources that are not checked out, and no longer available, may be untracked. -/
theorem Consistent.untrackAll {pool : Pool R} (hconsistent : pool.Consistent)
    {taken left : List R} (hperm : pool.available.Perm (taken ++ left)) (closed : Bool)
    (hleft : closed = true → left = []) :
    ({ taken.foldl Pool.untrack pool with available := left, closed } : Pool R).Consistent where
  nodup_available :=
    (List.nodup_append.mp (hperm.nodup_iff.mp hconsistent.nodup_available)).2.1
  mem_available_iff := by
    intro other
    have hnodup := hperm.nodup_iff.mp hconsistent.nodup_available
    have hmem := hconsistent.mem_available_iff other
    rw [hperm.mem_iff, List.mem_append] at hmem
    show other ∈ left ↔ (taken.foldl Pool.untrack pool).checkedOut? other = some false
    rw [checkedOut?_foldl_untrack]
    split
    next htaken =>
      have hnot : other ∉ left := fun hother =>
        (List.nodup_append.mp hnodup).2.2 other htaken other hother rfl
      simp [hnot]
    next hnot => simpa [hnot] using hmem
  available_of_closed := hleft

theorem Consistent.track {pool : Pool R} (hconsistent : pool.Consistent) {resource : R}
    (hnew : pool.checkedOut? resource = none) (now : Reading) :
    (pool.track resource now).Consistent where
  nodup_available := hconsistent.nodup_available
  mem_available_iff := by
    intro other
    have hmem := hconsistent.mem_available_iff other
    rw [checkedOut?_track]
    show other ∈ pool.available ↔ _
    split
    next heq =>
      subst heq
      simp [hmem, hnew]
    next => exact hmem
  available_of_closed := hconsistent.available_of_closed

theorem Consistent.untrack {pool : Pool R} (hconsistent : pool.Consistent) (resource : R)
    (hnot : pool.checkedOut? resource ≠ some false) : (pool.untrack resource).Consistent where
  nodup_available := hconsistent.nodup_available
  mem_available_iff := by
    intro other
    have hmem := hconsistent.mem_available_iff other
    rw [checkedOut?_untrack]
    show other ∈ pool.available ↔ _
    split
    next heq =>
      subst heq
      simp [hmem, hnot]
    next => exact hmem
  available_of_closed := hconsistent.available_of_closed

theorem Consistent.giveBack {pool : Pool R} (hconsistent : pool.Consistent)
    (hopen : pool.closed = false) {resource : R}
    (hout : pool.checkedOut? resource = some true) (reading : Reading) :
    ({ pool.markReturned resource reading with
      available := resource :: pool.available } : Pool R).Consistent where
  nodup_available := by
    refine List.nodup_cons.mpr ⟨fun hmem => ?_, hconsistent.nodup_available⟩
    rw [hconsistent.mem_available_iff, hout] at hmem
    cases hmem
  mem_available_iff := by
    intro other
    have hmem := hconsistent.mem_available_iff other
    show other ∈ resource :: pool.available ↔
      (pool.markReturned resource reading).checkedOut? other = some false
    rw [checkedOut?_markReturned, List.mem_cons]
    split
    next heq =>
      subst heq
      simp [hout]
    next hne => simp [hne, hmem]
  available_of_closed := fun hclosed => by
    have : pool.closed = true := hclosed
    simp [hopen] at this

theorem Consistent.returnLate {pool : Pool R} (hconsistent : pool.Consistent)
    (hclosed : pool.closed = true) (resource : R) (reading : Reading) :
    ((pool.markReturned resource reading).untrack resource).Consistent where
  nodup_available := hconsistent.nodup_available
  mem_available_iff := by
    intro other
    have hmem := hconsistent.mem_available_iff other
    have hnone := hconsistent.available_of_closed hclosed
    rw [checkedOut?_untrack, checkedOut?_markReturned]
    show other ∈ pool.available ↔ _
    rw [hnone] at hmem ⊢
    split
    next => simp
    next => exact hmem
  available_of_closed := hconsistent.available_of_closed

theorem Consistent.shut {pool : Pool R} (hconsistent : pool.Consistent) :
    (pool.available.foldl Pool.untrack
      { pool with closed := true, available := [] }).Consistent := by
  have hperm : pool.available.Perm (pool.available ++ []) := by simp
  have huntracked := hconsistent.untrackAll hperm true fun _ => rfl
  refine huntracked.of_same ?_ (fun resource => ?_) ?_
  · rw [Pool.foldl_untrack_eq]
  · exact pool.checkedOut?_shut resource
  · rw [Pool.foldl_untrack_eq]

/-- What the parts of a pool say of each other: its list of available resources, its table, the
slots it has reserved, and the counter it was given. -/
structure Represents (pool : Pool R) (options : ElasticOptions) (counter : Counter) : Prop where
  nodup_available : pool.available.Nodup
  mem_available_iff : ∀ resource, resource ∈ pool.available ↔
    ∃ tracked, pool.tracked.get? resource = some tracked ∧ tracked.inUse = false
  nodup_keys : pool.tracked.keys.Nodup
  size_add_creating_le : pool.size + pool.creating ≤ options.maxCapacity
  counted : pool.counter.balance - counter.balance = pool.size
  available_of_closed : pool.closed = true → pool.available = []
  available_le_size : pool.available.length ≤ pool.size
  size_le : pool.size ≤ options.maxCapacity
  inUse_eq : pool.inUse = .ok (pool.size - pool.available.length)

theorem Consistent.represents {pool : Pool R} (hconsistent : pool.Consistent)
    (hwithin : pool.Within) {options : ElasticOptions} {counter : Counter}
    (hsurplus : pool.surplus = counter.balance) (hmax : pool.maxCapacity = options.maxCapacity) :
    pool.Represents options counter where
  nodup_available := hconsistent.nodup_available
  mem_available_iff := by
    intro resource
    rw [hconsistent.mem_available_iff, checkedOut?, Option.map_eq_some_iff]
  nodup_keys := hwithin.nodup_keys
  size_add_creating_le := hmax ▸ hwithin.size_le
  counted := by
    rw [← hsurplus, surplus]
    omega
  available_of_closed := hconsistent.available_of_closed
  available_le_size := hconsistent.available_length_le
  size_le := hmax ▸ Nat.le_of_add_right_le hwithin.size_le
  inUse_eq := by rw [inUse, if_pos hconsistent.available_length_le]

end Pool

namespace Transition

variable {move : Move R} {call : Call R} {pool : Pool R} {advanced : Call.Advanced R}

theorem consistent (htransition : Transition move call pool advanced)
    (hconsistent : pool.Consistent)
    (hrejected : ∀ resource ∈ call.rejected, resource ∉ pool.available) :
    advanced.pool.Consistent := by
  cases htransition with
  | granted patience waited now hopen hchosen => exact hconsistent.checkOut hopen hchosen
  | kept resource now hopen hnew =>
      have hsame : ({ pool with creating := pool.creating - 1 } : Pool R).Consistent :=
        hconsistent.of_same rfl (fun _ => rfl) rfl
      exact hsame.track hnew now
  | forgot patience resource now htracked =>
      have hnot := hrejected resource List.mem_cons_self
      rw [hconsistent.mem_available_iff] at hnot
      exact (hconsistent.untrack resource hnot).of_same rfl (fun _ => rfl) rfl
  | pooled resource reading now hopen hout => exact hconsistent.giveBack hopen hout reading
  | returnedLate resource reading now hclosed hout =>
      exact hconsistent.returnLate hclosed resource reading
  | @scanned now _ hopen taken left hperm hnodup htracked =>
      have huntracked := hconsistent.untrackAll hperm pool.closed (by simp [hopen])
      refine huntracked.of_same rfl (fun _ => rfl) ?_
      rw [Pool.foldl_untrack_eq]
  | shut now hopen hcount => exact hconsistent.shut
  -- The available are counted among the tracked, so the subtraction does not underflow.
  | cutShort now hopen hcount =>
      exact absurd hconsistent.available_length_le (Nat.not_le_of_lt hcount)
  | _ => exact hconsistent.of_same rfl (fun _ => rfl) rfl

/-- The counter is told of every resource that comes to be tracked, and of every one that ceases
to be. -/
theorem surplus (htransition : Transition move call pool advanced)
    (hkeys : pool.tracked.keys.Nodup) (hconsistent : pool.Consistent) :
    advanced.pool.surplus = pool.surplus := by
  cases htransition with
  | granted => exact Pool.surplus_of_same (Pool.size_checkOut _ _ _) rfl
  | kept resource now hopen hnew =>
      exact Pool.surplus_track { pool with creating := pool.creating - 1 } hnew now
  | forgot patience resource now htracked => exact Pool.surplus_untrack hkeys htracked
  | pooled => exact Pool.surplus_of_same (Pool.size_markReturned _ _ _) rfl
  | returnedLate resource reading now hclosed hout =>
      have hkeys : (pool.markReturned resource reading).tracked.keys.Nodup := by
        simpa [Pool.markReturned] using hkeys
      have htracked : ((pool.markReturned resource reading).checkedOut? resource).isSome := by
        simp [Pool.checkedOut?_markReturned, hout]
      calc
        ((pool.markReturned resource reading).untrack resource).surplus =
            (pool.markReturned resource reading).surplus := Pool.surplus_untrack hkeys htracked
        _ = pool.surplus := Pool.surplus_of_same (Pool.size_markReturned _ _ _) rfl
  | scanned now hopen hperm hnodup htracked =>
      exact Pool.surplus_foldl_untrack pool hkeys hnodup htracked
  | shut now hopen hcount =>
      refine Pool.surplus_foldl_untrack { pool with closed := true, available := [] }
        hkeys hconsistent.nodup_available (fun resource hmem => ?_)
      have hidle := (hconsistent.mem_available_iff resource).mp hmem
      show (pool.checkedOut? resource).isSome
      simp [hidle]
  | _ => rfl

/-- A call vets what it has taken out of the pool as checked out; no call but one that gives the
resource back takes that away from another. -/
theorem vetted_le (htransition : Transition move call pool advanced)
    (hconsistent : pool.Consistent) {resource : R} (hkeeps : resource ∉ call.returned) :
    pool.out resource + advanced.call.vetted.count resource ≤
      advanced.pool.out resource + call.vetted.count resource := by
  cases htransition with
  | begin request now outcome =>
      rw [Call.vetted_request]
      exact Nat.le_refl _
  | @granted patience waited now _ chosen rest hopen hchosen =>
      have hidle := (hconsistent.mem_available_iff chosen).mp (by simp [hchosen.mem_iff])
      have hout := Pool.out_checkOut hidle rest resource
      simp only [Call.vetted, List.count_nil]
      omega
  | kept made now hopen hnew =>
      have hout : (Pool.track { pool with creating := pool.creating - 1 } made now).out resource =
          pool.out resource + [made].count resource :=
        Pool.out_track { pool with creating := pool.creating - 1 } hnew now resource
      simp only [Call.vetted, List.count_nil]
      omega
  | forgot patience gone now htracked =>
      have hout := pool.out_untrack gone resource
      simp only [Call.vetted, List.count_nil]
      show pool.out resource + 0 ≤ (pool.untrack gone).out resource + _
      omega
  | pooled returned reading now hopen hout =>
      have hreturned := pool.out_markReturned returned reading resource
      have hnot : [returned].count resource = 0 := List.count_eq_zero_of_not_mem hkeeps
      show pool.out resource + 0 ≤ (pool.markReturned returned reading).out resource + 0
      omega
  | returnedLate returned reading now hclosed hout =>
      have hreturned := pool.out_markReturned returned reading resource
      have hgone := (pool.markReturned returned reading).out_untrack returned resource
      have hnot : [returned].count resource = 0 := List.count_eq_zero_of_not_mem hkeeps
      simp only [Call.vetted, List.count_nil]
      omega
  | @scanned now _ hopen taken left hperm hnodup htracked =>
      exact Nat.le_of_eq (congrArg (· + 0) (hconsistent.out_collect hperm resource).symm)
  | shut now hopen hcount =>
      exact Nat.le_of_eq (congrArg (· + 0) (hconsistent.out_shut resource).symm)
  | passed | forgotAgain | raised => exact Nat.le_add_right _ _
  | _ => exact Nat.le_refl _

theorem vetted_of_returned (htransition : Transition move call pool advanced) {resource : R}
    (hreturned : resource ∈ call.returned) : call.vetted = [] ∧ advanced.call.vetted = [] := by
  cases call with
  | returning returned reading => cases htransition <;> exact ⟨rfl, rfl⟩
  | _ => cases hreturned

end Transition

namespace System

def vetted (system : System R) : List R := system.callers.flatMap fun caller => caller.call.vetted

/-- No resource is given back while a call vets it. -/
def careful : Law R := fun system event =>
  match system.callers[event.caller]? with
  | some caller => caller.call.returned.all fun resource => resource ∉ system.vetted
  | none => true

structure Sound (counter : Counter) (system : System R) : Prop where
  bounded : system.Bounded
  consistent : system.pool.Consistent
  surplus_eq : system.pool.surplus = counter.balance
  vetted_le : ∀ resource, system.vetted.count resource ≤ system.pool.out resource

theorem count_vetted (system : System R) (resource : R) :
    system.vetted.count resource =
      tally (fun caller => caller.call.vetted.count resource) system.callers :=
  Tally.count_flatMap_eq_tally _ _ _

theorem sound_start (options : ElasticOptions) (counter : Counter) (count : Nat) :
    (start options counter count : System R).Sound counter where
  bounded := bounded_start options counter count
  consistent := Pool.consistent_start options counter
  surplus_eq := Int.sub_zero _
  vetted_le := fun resource => by
    rw [count_vetted]
    apply Nat.le_trans (Nat.le_of_eq (Tally.tally_eq_zero_iff.mpr ?_)) (Nat.zero_le _)
    intro caller hcaller
    rw [eq_of_mem_start hcaller]
    rfl

namespace Stepped

variable {before after : System R} {event : Event R} {caller : Caller R}
  {advanced : Call.Advanced R} {counter : Counter}

theorem checkedOut_of_vetted (hstepped : Stepped before event after caller advanced)
    (hsound : before.Sound counter) {resource : R} (hmem : resource ∈ caller.call.vetted) :
    before.pool.checkedOut? resource = some true := by
  have hpos : 0 < before.vetted.count resource := by
    apply List.count_pos_iff.mpr
    exact List.mem_flatMap.mpr ⟨caller, hstepped.mem_callers, hmem⟩
  have hle := hsound.vetted_le resource
  unfold Pool.out at hle
  split at hle
  next hout => exact hout
  next => omega

theorem sound (hstepped : Stepped before event after caller advanced)
    (hsound : before.Sound counter) (hcareful : careful before event = true) :
    after.Sound counter where
  bounded := hstepped.bounded hsound.bounded
  consistent := by
    rw [hstepped.pool_eq]
    apply hstepped.transition.consistent hsound.consistent
    intro resource hrejected
    rw [hsound.consistent.mem_available_iff,
      hstepped.checkedOut_of_vetted hsound (Call.mem_vetted_of_rejected hrejected)]
    nofun
  surplus_eq := by
    rw [hstepped.pool_eq, hstepped.transition.surplus hsound.bounded.within.nodup_keys
      hsound.consistent]
    exact hsound.surplus_eq
  vetted_le := by
    intro resource
    have htally := hstepped.tally_eq (fun caller => caller.call.vetted.count resource)
      (fun caller => congrArg (List.count resource) caller.call.vetted_woken)
    have hle := hsound.vetted_le resource
    rw [count_vetted] at hle ⊢
    rw [hstepped.pool_eq]
    simp only [Caller.follow] at htally
    -- Giving a resource back is the one move that lowers `out`; the law says nobody vets it then.
    by_cases hreturned : resource ∈ caller.call.returned
    · have hnot : resource ∉ before.vetted := by
        simp only [careful, hstepped.caller_at, List.all_eq_true, decide_eq_true_eq] at hcareful
        exact hcareful resource hreturned
      obtain ⟨hnone, hnext⟩ := hstepped.transition.vetted_of_returned hreturned
      have hzero := List.count_eq_zero_of_not_mem hnot
      rw [count_vetted] at hzero
      simp only [hnone, hnext, List.count_nil] at htally
      omega
    · have hmove := hstepped.transition.vetted_le hsound.consistent hreturned
      omega

end Stepped

theorem Reaches.sound {options : ElasticOptions} {counter : Counter} {count : Nat}
    {system : System R} (hreaches : Reaches careful (start options counter count) system) :
    system.Sound counter :=
  hreaches.stepwise (Sound counter) (sound_start options counter count)
    fun hsound hcareful hstepped => hstepped.sound hsound hcareful

/-- Between any two sections, and for good once the pool is closed, its parts tell the same story.
A release may name any resource but one that a call has taken out and is still vetting. -/
theorem represents_of_reaches {options : ElasticOptions} {counter : Counter} {count : Nat}
    {system : System R} (hreaches : Reaches careful (start options counter count) system) :
    system.pool.Represents options counter ∧
      (system.pool.closed = true → ∀ later, Reaches careful system later →
        later.pool.closed = true ∧ later.pool.available = []) := by
  have hsound := hreaches.sound
  constructor
  · exact hsound.consistent.represents hsound.bounded.within hsound.surplus_eq
      hreaches.maxCapacity_eq
  · intro hclosed later hlater
    have hstays := hlater.closed_of_closed hclosed
    have hsound := Reaches.sound (hreaches.trans hlater)
    exact ⟨hstays, hsound.consistent.available_of_closed hstays⟩

/-- Two callers for whom the factory makes the same resource. One gives back what it has and what
it has not, while the check of the other fails, and closes the pool with a resource still out. -/
def crossing : List (Event Nat) :=
  [⟨0, .begin .acquire 0, 0⟩, ⟨0, .turn 0, 0⟩, ⟨1, .begin .tryAcquire 0, 0⟩, ⟨1, .turn 0, 0⟩,
    ⟨0, .make (.ok 7), 0⟩, ⟨1, .make (.ok 7), 0⟩, ⟨0, .turn 0, 0⟩, ⟨1, .turn 0, 0⟩,
    ⟨0, .begin (.release 7) 1, 0⟩, ⟨0, .turn 1, 0⟩, ⟨1, .begin .tryAcquire 2, 0⟩, ⟨1, .turn 2, 0⟩,
    ⟨0, .begin (.release 8) 2, 0⟩, ⟨0, .turn 2, 0⟩, ⟨1, .check false, 0⟩, ⟨1, .turn 3, 0⟩,
    ⟨0, .begin .acquire 3, 0⟩, ⟨0, .turn 3, 0⟩, ⟨0, .make (.ok 8), 0⟩, ⟨0, .turn 3, 0⟩,
    ⟨0, .begin .close 4, 0⟩, ⟨0, .turn 4, 0⟩]

theorem represents_of_crossing : ∃ system : System Nat,
    run? careful crossing (start { maxCapacity := 2 } .silent 2) = some system ∧
      system.pool.Represents { maxCapacity := 2 } .silent ∧
      (system.pool.closed = true → ∀ later, Reaches careful system later →
        later.pool.closed = true ∧ later.pool.available = []) := by
  have hruns : (run? careful crossing (start { maxCapacity := 2 } .silent 2)).isSome := by decide
  obtain ⟨system, hrun⟩ := Option.isSome_iff_exists.mp hruns
  exact ⟨system, hrun, represents_of_reaches (Runs.reaches_of_run? hrun)⟩

end System

end Pooling.Elastic
