import Pooling.Proofs.Handles.Lingering
import Pooling.Proofs.Shutdown

/-!
Closing an elastic pool from which nothing is checked out. By then every handle on its resources has
given back, but some may still be registered: the look for leaks counts those that are as it is
taken, and no others.
-/

namespace Pooling.Elastic

open Handles

variable {R : Type} [DecidableEq R]

namespace Transition

variable {move : Move R} {call : Call R} {pool : Pool R} {advanced : Call.Advanced R}

/-- In an open pool there is something tracked for all that is available, that calls vet and that
they hand out. -/
theorem covers (htransition : Transition move call pool advanced)
    (hkeys : pool.tracked.keys.Nodup) (hbarren : call.Barren)
    (hopen : advanced.pool.closed = false) :
    advanced.pool.available.length + advanced.call.vetted.length +
        advanced.call.handed.length + pool.size ≤
      advanced.pool.size + pool.available.length + call.vetted.length + call.returned.length := by
  have hsame : ∀ available size : Nat, available + 0 + 0 + size ≤ size + available + 0 + 0 :=
    fun _ _ => by omega
  cases htransition with
  | begin request => cases request <;> exact hsame _ _
  | @granted patience waited now _ resource rest hwas hchosen =>
      have hlength := hchosen.length_eq
      have hsize := pool.size_checkOut resource rest
      show rest.length + 1 + 0 + pool.size ≤
        (pool.checkOut resource rest).size + pool.available.length + 0 + 0
      rw [List.length_cons] at hlength
      omega
  | @kept resource now _ hwas hnew =>
      have hsize := Pool.size_track { pool with creating := pool.creating - 1 } hnew now
      show pool.available.length + 0 + 1 + pool.size ≤
        (Pool.track { pool with creating := pool.creating - 1 } resource now).size +
          pool.available.length + 0 + 0
      have hcreating : ({ pool with creating := pool.creating - 1 } : Pool R).size = pool.size :=
        rfl
      omega
  | passed =>
      show pool.available.length + 0 + 1 + pool.size ≤ pool.size + pool.available.length + 1 + 0
      omega
  | condemned =>
      show pool.available.length + 1 + 0 + pool.size ≤ pool.size + pool.available.length + 1 + 0
      omega
  | @forgot patience resource now _ htracked =>
      have hsize := Pool.size_untrack hkeys htracked
      show pool.available.length + 0 + 0 + pool.size ≤
        (pool.untrack resource).size + pool.available.length + 1 + 0
      omega
  | forgotAgain =>
      show pool.available.length + 0 + 0 + pool.size ≤ pool.size + pool.available.length + 1 + 0
      omega
  | pooled resource reading now hwas hout =>
      have hsize := pool.size_markReturned resource reading
      show pool.available.length + 1 + 0 + 0 + pool.size ≤
        (pool.markReturned resource reading).size + pool.available.length + 0 + 1
      omega
  | refused => exact Nat.le_add_right_of_le (hsame _ _)
  | returnedLate resource reading now hclosed => cases hclosed.symm.trans hopen
  | @scanned now _ hwas taken left hperm hnodup htracked =>
      have hsize := Pool.size_foldl_untrack hkeys hnodup htracked
      have hlength := hperm.length_eq
      show left.length + 0 + 0 + pool.size ≤
        (taken.foldl Pool.untrack pool).size + pool.available.length + 0 + 0
      rw [List.length_append] at hlength
      omega
  | shut now hwas hcount =>
      rw [Pool.foldl_untrack_eq] at hopen
      cases hopen
  | cutShort => cases hopen
  | finished outcome now =>
      rw [Call.handed_eq_nil fun resource heq => hbarren resource (Call.done.inj heq)]
      exact hsame _ _
  | raised text _ _ hasked =>
      show pool.available.length + 0 + 0 + pool.size ≤
        pool.size + pool.available.length + call.vetted.length + call.returned.length
      omega
  | _ => exact hsame _ _

/-- A call that gives back is over with its turn in an open pool. -/
theorem done_of_returning {resource : R} {reading : Reading}
    (htransition : Transition move (.returning resource reading) pool advanced)
    (hopen : advanced.pool.closed = false) : ∃ outcome, advanced.call = .done outcome := by
  cases htransition with
  | pooled => exact ⟨_, rfl⟩
  | refused => exact ⟨_, rfl⟩
  | returnedLate _ _ now hclosed => cases hclosed.symm.trans hopen
  | raised => exact ⟨_, rfl⟩

theorem of_shutting (htransition : Transition move .shutting pool advanced)
    (hopen : pool.closed = false) {count : Nat} (hinUse : pool.inUse = .ok count) :
    advanced.pool.closed = true ∧ advanced.call = .after (.drain pool.available) := by
  cases htransition with
  | shut =>
      rw [Pool.foldl_untrack_eq]
      exact ⟨rfl, rfl⟩
  | shutAgain now hclosed => simp [hopen] at hclosed
  | cutShort now hwas hcount => simp [Pool.inUse, Nat.not_le_of_lt hcount] at hinUse
  | raised text _ _ hasked => simp at hasked

end Transition

omit [DecidableEq R] in
theorem Call.fruitless_of_vetted {call : Call R} (hbarren : call.Barren)
    (hvetted : call.vetted = []) : call.Fruitless := by
  cases call with
  | checking patience resource => cases hvetted
  | _ => exact hbarren

omit [DecidableEq R] in
theorem Call.returning_of_returned {call : Call R} (hreturned : call.returned ≠ []) :
    ∃ resource reading, call = .returning resource reading :=
  Call.returning_of_taken? (by_contra fun hnot => hreturned (Call.returned_of_taken? hnot))

omit [DecidableEq R] in
theorem Call.length_returned_le (call : Call R) : call.returned.length ≤ 1 := by
  cases call with
  | returning => exact Nat.le_refl 1
  | _ => exact Nat.zero_le 1

namespace System

/-- How many resources calls vet. -/
def vetting (system : System R) : Nat :=
  tally (fun caller => caller.call.vetted.length) system.callers

/-- Whoever gives back does so for a handle. -/
def Served (host : System R) (serving : List (Option Nat)) : Prop :=
  ∀ (index : Nat) (caller : Caller R), host.callers[index]? = some caller →
    caller.call.returned ≠ [] → (serving[index]?.join).isSome

/-- What every occasion keeps, whatever handles give back: as long as the pool is open, it tracks a
resource for each that is available or vetted and for each handle that has yet to give back. -/
structure Covered (lending : Lending (System R) R) : Prop where
  bounded : lending.host.Bounded
  sound : lending.custody.Sound
  tied : Tied lending.custody.loans lending.serving
  barren : ∀ caller ∈ lending.host.callers, caller.call.Barren
  served : Served lending.host lending.serving
  covered : lending.host.pool.closed = false →
    lending.host.pool.available.length + lending.host.vetting + lending.custody.unreturned ≤
      lending.host.pool.size

omit [DecidableEq R] in
theorem covered_start (options : ElasticOptions) (counter : Counter) (count : Nat)
    (registries : List (Option Nat)) (detectors : List LeakDetector) :
    Covered (.start (start options counter count : System R) count registries detectors) where
  bounded := bounded_start options counter count
  sound := Custody.sound_start registries detectors
  tied := tied_start count
  barren := by
    intro caller hcaller
    rw [eq_of_mem_start hcaller]
    trivial
  served := by
    intro index caller hcaller hreturned
    rw [eq_of_mem_start (List.mem_of_getElem? hcaller)] at hreturned
    exact absurd rfl hreturned
  covered := by
    intro _
    have hvetting : (start options counter count : System R).vetting = 0 := by
      apply Tally.tally_eq_zero_iff.mpr
      intro caller hcaller
      rw [eq_of_mem_start hcaller]
      rfl
    exact Nat.le_of_eq (congrArg (0 + · + 0) hvetting)

namespace Stepped

variable {before after : System R} {event : Event R} {caller : Caller R}
  {advanced : Call.Advanced R}

theorem covers (hstepped : Stepped before event after caller advanced)
    (hbounded : before.Bounded) (hbarren : caller.call.Barren)
    (hopen : after.pool.closed = false) :
    after.pool.available.length + after.vetting + advanced.call.handed.length +
        before.pool.size ≤
      after.pool.size + before.pool.available.length + before.vetting +
        caller.call.returned.length := by
  rw [hstepped.pool_eq] at hopen ⊢
  have hmove := hstepped.transition.covers hbounded.within.nodup_keys hbarren hopen
  have hvetted := hstepped.tally_eq (fun caller => caller.call.vetted.length)
    (fun caller => congrArg List.length caller.call.vetted_woken)
  simp only [Caller.call_follow] at hvetted
  unfold vetting
  omega

theorem open_before (hstepped : Stepped before event after caller advanced)
    (hopen : after.pool.closed = false) : before.pool.closed = false := by
  apply eq_false_of_ne_true
  intro hclosed
  rw [hstepped.pool_eq, hstepped.transition.closed_of_closed hclosed] at hopen
  cases hopen

end Stepped

namespace Served

variable {before after : System R} {event : Event R} {caller : Caller R}
  {advanced : Call.Advanced R} {serving : List (Option Nat)}

theorem of_stepped {later : List (Option Nat)} (hserved : Served before serving)
    (hstepped : Stepped before event after caller advanced)
    (hmover : advanced.call.returned ≠ [] → (later[event.caller]?.join).isSome)
    (hothers : ∀ index : Nat, index ≠ event.caller →
      later[index]?.join = serving[index]?.join) : Served after later := by
  intro index moved hmoved hreturned
  obtain ⟨mid, hmid, hawake⟩ := hstepped.caller_after hmoved
  have hsame : moved.call.returned = mid.call.returned := by
    rcases hawake with rfl | rfl
    · rfl
    · exact mid.call.returned_woken
  rw [hsame] at hreturned
  rcases hmid with ⟨rfl, rfl⟩ | ⟨hmid, hne⟩
  · exact hmover hreturned
  · rw [hothers index hne]
    exact hserved index mid hmid hreturned

theorem stays (hserved : Served before serving)
    (hstepped : Stepped before event after caller advanced)
    (hreturned : advanced.call.returned = []) : Served after serving :=
  hserved.of_stepped hstepped (absurd hreturned) fun _ _ => rfl

theorem set (hserved : Served before serving)
    (hstepped : Stepped before event after caller advanced) {old : Option Nat}
    (hplace : serving[event.caller]? = some old) (new : Option Nat)
    (hmover : advanced.call.returned ≠ [] → new.isSome) :
    Served after (serving.set event.caller new) := by
  refine hserved.of_stepped hstepped (fun hreturned => ?_) fun index hne => ?_
  · rw [serving_set hplace, if_pos rfl]
    exact hmover hreturned
  · rw [serving_set hplace, if_neg hne]

end Served

namespace Covered

variable {lending next : Lending (System R) R} {event : Event R} {host : System R}
  {caller : Caller R} {advanced : Call.Advanced R}

/-- A call goes on, and the handles that have yet to give back change by what it hands out and takes
back. -/
theorem follow (hcovered : Covered lending)
    (hstepped : Stepped lending.host event host caller advanced) {custody : Custody R}
    {serving : List (Option Nat)} (hsound : custody.Sound) (htied : Tied custody.loans serving)
    (hserved : Served host serving)
    (howed : host.pool.closed = false →
      custody.unreturned + caller.call.returned.length ≤
        lending.custody.unreturned + advanced.call.handed.length) :
    Covered ⟨host, custody, serving⟩ where
  bounded := hstepped.bounded hcovered.bounded
  sound := hsound
  tied := htied
  barren := by
    refine hstepped.forall_callers (fun caller hbarren => hbarren.woken) hcovered.barren ?_
    exact hstepped.transition.barren (hcovered.barren caller hstepped.mem_callers)
  served := hserved
  covered := by
    intro hopen
    have hcovers := hstepped.covers hcovered.bounded
      (hcovered.barren caller hstepped.mem_callers) hopen
    have hbefore := hcovered.covered (hstepped.open_before hopen)
    have howed := howed hopen
    show host.pool.available.length + host.vetting + custody.unreturned ≤ host.pool.size
    omega

/-- A caller that is not served gives nothing back. -/
theorem returned_eq_nil (hcovered : Covered lending)
    (hstepped : Stepped lending.host event host caller advanced)
    (hserved : lending.served? event.caller = none) : caller.call.returned = [] := by
  by_contra hreturned
  have hsome := hcovered.served event.caller caller hstepped.caller_at hreturned
  rw [← Lending.served?, hserved] at hsome
  cases hsome

/-- A call that gives back in an open pool is over at once, and a handle takes its answer. -/
theorem returned_of_quiet (hcovered : Covered lending)
    (hstepped : Stepped lending.host event host caller advanced)
    (hopen : host.pool.closed = false)
    (hquiet : (∃ outcome, asHost.need? lending.host event.caller = some (.done outcome)) ∨
      ∀ outcome, asHost.need? host event.caller = some (.done outcome) →
        lending.served? event.caller = none ∧ ∀ resource, outcome ≠ .acquired resource) :
    caller.call.returned = [] := by
  by_contra hgiving
  obtain ⟨resource, reading, hcall⟩ := Call.returning_of_returned hgiving
  rcases hquiet with ⟨outcome, hidle⟩ | hquiet
  · have hneed := Option.some.inj (hstepped.need?_before.symm.trans hidle)
    rw [hcall] at hneed
    cases hneed
  · have htransition := hstepped.transition
    rw [hcall] at htransition
    rw [hstepped.pool_eq] at hopen
    obtain ⟨outcome, hdone⟩ := htransition.done_of_returning hopen
    obtain ⟨hserved, -⟩ := hquiet outcome (hstepped.need?_of_done hdone)
    exact hgiving (hcovered.returned_eq_nil hstepped hserved)

theorem of_change (hcovered : Covered lending) {occasion : Occasion (Event R) R}
    (hchange : Change asHost lending occasion next) : Covered next := by
  have hsound := Lending.sound_of_change hcovered.sound hchange
  have htied := Lending.tied_of_change hcovered.tied hchange
  cases hchange with
  | handled event hfree hcustody =>
      have hsame := (transition_of_step? hcustody).2.unreturned_eq hcovered.sound hfree
      refine ⟨hcovered.bounded, hsound, htied, hcovered.barren, hcovered.served, ?_⟩
      intro hopen
      rw [hsame]
      exact hcovered.covered hopen
  | given event handle hgives hserve hhost =>
      obtain ⟨hplace, -, -⟩ := Lending.served_of_canServe hserve
      obtain ⟨caller, advanced, hstepped⟩ := stepped_of_step? hhost
      obtain ⟨now, outcome, -, hcall, -⟩ := hstepped.transition.of_gives hgives
      have hserved := hcovered.served.set hstepped hplace (some handle) fun _ => rfl
      refine hcovered.follow hstepped hsound htied hserved fun _ => ?_
      rw [hcall]
      exact Nat.le_add_right _ _
  | checked event hgives hhost hretire hcustody =>
      obtain ⟨caller, advanced, hstepped⟩ := stepped_of_step? hhost
      have hneed := Option.some.inj (hstepped.need?_before.symm.trans hretire)
      obtain ⟨-, hcall, -⟩ := hstepped.transition.of_retire hneed
      have hreturned := hstepped.transition.returned_eq_nil hgives
      refine hcovered.follow hstepped hsound htied (hcovered.served.stays hstepped hreturned)
        fun _ => ?_
      cases (transition_of_step? hcustody).2
      rw [hcall, Custody.unreturned, Custody.loans_look]
      exact Nat.le_add_right _ _
  | answered event handle outcome hgives hhost hretire hserved hdone hcustody =>
      obtain ⟨caller, advanced, hstepped⟩ := stepped_of_step? hhost
      have hreturned := hstepped.transition.returned_eq_nil hgives
      have hlater := hcovered.served.set hstepped (Option.join_eq_some_iff.mp hserved) none
        (absurd hreturned)
      refine hcovered.follow hstepped hsound htied hlater fun _ => ?_
      obtain ⟨loan, hloan, hpool, hgiving⟩ := hcovered.tied.giving _ handle hserved
      have hless := (transition_of_step? hcustody).2.unreturned_of_answer hcovered.sound hloan
        hpool hgiving
      -- One handle fewer has yet to give back, and the call gave back one resource at most.
      have hone := caller.call.length_returned_le
      omega
  | lent event resource hgives hhost hretire hserved hdone hcustody =>
      obtain ⟨caller, advanced, hstepped⟩ := stepped_of_step? hhost
      have hreturned := hstepped.transition.returned_eq_nil hgives
      refine hcovered.follow hstepped hsound htied (hcovered.served.stays hstepped hreturned)
        fun _ => ?_
      rw [hcovered.returned_eq_nil hstepped hserved, hstepped.call_eq_of_done hdone]
      cases (transition_of_step? hcustody).2 with
      | failed pool outcome howned hnot => exact absurd rfl (hnot resource)
      | lent => exact Nat.le_of_eq (lending.custody.unreturned_lend 0 resource)
  | went event hgives hhost hretire hquiet =>
      obtain ⟨caller, advanced, hstepped⟩ := stepped_of_step? hhost
      have hreturned := hstepped.transition.returned_eq_nil hgives
      refine hcovered.follow hstepped hsound htied (hcovered.served.stays hstepped hreturned)
        fun hopen => ?_
      rw [hcovered.returned_of_quiet hstepped hopen hquiet]
      exact Nat.le_add_right _ _

omit [DecidableEq R] in
/-- Nothing is checked out of an open pool: then every handle has given back, and no call vets
anything. -/
theorem settled (hcovered : Covered lending) (hopen : lending.host.pool.closed = false)
    (hinUse : lending.host.pool.inUse = .ok 0) :
    lending.host.vetting = 0 ∧ lending.custody.unreturned = 0 := by
  have hcount := hcovered.covered hopen
  unfold Pool.inUse at hinUse
  split at hinUse
  next =>
    have hnone := Except.ok.inj hinUse
    omega
  next => cases hinUse

end Covered

/-- A call closes the pool, which is open until then, while nothing is checked out. -/
structure ClosesQuiet (lending : Lending (System R) R) (event : Event R)
    (next : Lending (System R) R) : Prop where
  shutting : lending.host.callers[event.caller]?.map Caller.call = some .shutting
  opened : lending.host.pool.closed = false
  inUse_eq : lending.host.pool.inUse = .ok 0
  step_eq : lending.step? asHost (.call event) = some next

/-- What holds of a pool from its quiet closing on, which was after `before`. -/
structure Restored (before later : Lending (System R) R) : Prop where
  sound : later.custody.Sound
  tied : Tied later.custody.loans later.serving
  closed : later.host.pool.closed = true
  fruitless : ∀ caller ∈ later.host.callers, caller.call.Fruitless
  unreturned_eq : later.custody.unreturned = 0
  lingers_before : ∀ (handle : Nat) (loan : Loan R), later.custody.loans[handle]? = some loan →
    loan.isLingering = true →
    ∃ earlier, before.custody.loans[handle]? = some earlier ∧ earlier.isLingering = true

variable {before lending next : Lending (System R) R} {event : Event R}

omit [DecidableEq R] in
/-- No call has begun to give back for a handle where every handle has given back. -/
theorem not_served {loans : List (Loan R)} {serving : List (Option Nat)}
    (htied : Tied loans serving) (hnone : tally Loan.unreturned loans = 0) (index handle : Nat) :
    serving[index]?.join ≠ some handle := by
  intro hserved
  obtain ⟨loan, hloan, hpool, hgiving⟩ := htied.giving index handle hserved
  have hreturned := Tally.tally_eq_zero_iff.mp hnone loan (List.mem_of_getElem? hloan)
  rw [Loan.unreturned_of_giving hpool hgiving] at hreturned
  cases hreturned

theorem Covered.restored (hcovered : Covered lending) (hcloses : ClosesQuiet lending event next) :
    Restored lending next := by
  obtain ⟨hvetting, hunreturned⟩ := hcovered.settled hcloses.opened hcloses.inUse_eq
  obtain ⟨shutter, hshutter, hcall⟩ := Option.map_eq_some_iff.mp hcloses.shutting
  have hchange := (Lending.change_of_step? hcloses.step_eq).2
  have hsound := Lending.sound_of_change hcovered.sound hchange
  have htied := Lending.tied_of_change hcovered.tied hchange
  have hshut : ∀ {host : System R} {caller : Caller R} {advanced : Call.Advanced R},
      Stepped lending.host event host caller advanced → caller.call = .shutting ∧
        advanced.pool.closed = true ∧
        advanced.call = .after (.drain lending.host.pool.available) := by
    intro host caller advanced hstepped
    cases hshutter.symm.trans hstepped.caller_at
    exact ⟨hcall, (hcall ▸ hstepped.transition).of_shutting hcloses.opened hcloses.inUse_eq⟩
  cases hchange with
  | checked event hgives hhost hretire =>
      obtain ⟨caller, advanced, hstepped⟩ := stepped_of_step? hhost
      have hneed := Option.some.inj (hstepped.need?_before.symm.trans hretire)
      rw [(hshut hstepped).1] at hneed
      cases hneed
  | answered event handle outcome hgives hhost hretire hserved =>
      exact absurd hserved (not_served hcovered.tied hunreturned _ handle)
  | lent event resource hgives hhost hretire hserved hdone =>
      obtain ⟨caller, advanced, hstepped⟩ := stepped_of_step? hhost
      cases (hshut hstepped).2.2.symm.trans (hstepped.call_eq_of_done hdone)
  | went event hgives hhost =>
      obtain ⟨caller, advanced, hstepped⟩ := stepped_of_step? hhost
      obtain ⟨-, hclosed, hdrains⟩ := hshut hstepped
      refine ⟨hsound, htied, hstepped.pool_eq ▸ hclosed, ?_, hunreturned,
        fun _ loan hloan hlingers => ⟨loan, hloan, hlingers⟩⟩
      refine hstepped.forall_callers (fun caller hfruitless => hfruitless.woken) ?_ ?_
      · intro other hother
        have hlength := Tally.tally_eq_zero_iff.mp hvetting other hother
        exact Call.fruitless_of_vetted (hcovered.barren other hother)
          (List.eq_nil_of_length_eq_zero hlength)
      · rw [Caller.call_follow, hdrains]
        trivial

namespace Restored

/-- A call goes on in the closed pool, which concerns no handle. -/
theorem follow (hrestored : Restored before lending) {host : System R} {caller : Caller R}
    {advanced : Call.Advanced R} (hstepped : Stepped lending.host event host caller advanced)
    {custody : Custody R} {serving : List (Option Nat)} (hsound : custody.Sound)
    (htied : Tied custody.loans serving) (hloans : custody.loans = lending.custody.loans) :
    Restored before ⟨host, custody, serving⟩ where
  sound := hsound
  tied := htied
  closed := by
    show host.pool.closed = true
    rw [hstepped.pool_eq]
    exact hstepped.transition.closed_of_closed hrestored.closed
  fruitless := by
    refine hstepped.forall_callers (fun caller hfruitless => hfruitless.woken)
      hrestored.fruitless ?_
    have hfruitless := hrestored.fruitless caller hstepped.mem_callers
    exact (hstepped.transition.fruitless hrestored.closed hfruitless).1
  unreturned_eq := by
    show custody.unreturned = 0
    rw [Custody.unreturned, hloans]
    exact hrestored.unreturned_eq
  lingers_before := by
    show ∀ (handle : Nat) (loan : Loan R), custody.loans[handle]? = some loan → _
    rw [hloans]
    exact hrestored.lingers_before

theorem of_change (hrestored : Restored before lending) {occasion : Occasion (Event R) R}
    (hchange : Change asHost lending occasion next) : Restored before next := by
  have hsound := Lending.sound_of_change hrestored.sound hchange
  have htied := Lending.tied_of_change hrestored.tied hchange
  cases hchange with
  | handled event hfree hcustody =>
      have htransition := (transition_of_step? hcustody).2
      refine ⟨hsound, htied, hrestored.closed, hrestored.fruitless, ?_, ?_⟩
      · rw [htransition.unreturned_eq hrestored.sound hfree]
        exact hrestored.unreturned_eq
      · intro handle moved hmoved hlingers
        obtain ⟨loan, hloan, hloanLingers⟩ := htransition.lingers_before hrestored.sound hfree
          hrestored.unreturned_eq hmoved hlingers
        exact hrestored.lingers_before handle loan hloan hloanLingers
  | given event handle hgives hserve hhost =>
      obtain ⟨caller, advanced, hstepped⟩ := stepped_of_step? hhost
      exact hrestored.follow hstepped hsound htied rfl
  | checked event hgives hhost hretire hcustody =>
      obtain ⟨caller, advanced, hstepped⟩ := stepped_of_step? hhost
      cases (transition_of_step? hcustody).2
      exact hrestored.follow hstepped hsound htied (lending.custody.loans_look 0)
  | answered event handle outcome hgives hhost hretire hserved =>
      exact absurd hserved (not_served hrestored.tied hrestored.unreturned_eq _ handle)
  | lent event resource hgives hhost hretire hserved hdone =>
      -- A call that looked for a slot too late has nothing to hand out.
      obtain ⟨caller, advanced, hstepped⟩ := stepped_of_step? hhost
      have hfruitless := hrestored.fruitless caller hstepped.mem_callers
      have hnot := (hstepped.transition.fruitless hrestored.closed hfruitless).2
      exact absurd (hstepped.call_eq_of_done hdone) (hnot resource)
  | went event hgives hhost =>
      obtain ⟨caller, advanced, hstepped⟩ := stepped_of_step? hhost
      exact hrestored.follow hstepped hsound htied rfl

/-- What a look counts at any time after a quiet closing. -/
theorem look_eq (hrestored : Restored before lending) (hsole : lending.custody.Sole)
    {detector : LeakDetector} (hdetector : lending.custody.detector? 0 = some detector)
    (hstep : lending.step? asHost (.call event) = some next)
    (hretires : Lending.Retires asHost lending (.call event)) :
    next.custody = { lending.custody with
      checks := lending.custody.checks ++ [⟨0, .ofNat lending.custody.lingering⟩]
      exited := detector.exitOnLeak && decide (0 < UInt64.ofNat lending.custody.lingering) } := by
  cases (Lending.change_of_step? hstep).2 with
  | answered _ _ _ _ _ hretire | lent _ _ _ _ hretire | went _ _ _ hretire =>
      exact absurd hretires hretire
  | checked _ _ _ _ hcustody =>
      cases (transition_of_step? hcustody).2
      rw [← hrestored.sound.outstanding_of_returned hsole hrestored.unreturned_eq hdetector]
      exact lending.custody.look_eq hdetector

omit [DecidableEq R] in
theorem lingering_eq_zero (hrestored : Restored before lending)
    (hnone : before.custody.lingering = 0) : lending.custody.lingering = 0 := by
  apply List.countP_eq_zero.mpr
  intro loan hmem hlingers
  obtain ⟨handle, hhandle⟩ := List.mem_iff_getElem?.mp hmem
  obtain ⟨earlier, hearlier, hlingered⟩ := hrestored.lingers_before handle loan hhandle hlingers
  exact List.countP_eq_zero.mp hnone earlier (List.mem_of_getElem? hearlier) hlingered

end Restored

/-- What shows of handles and looks after `before`, when a pool was closed from which nothing was
checked out. -/
structure Hushed (before lending : Lending (System R) R) : Prop where
  given_back : ∀ loan ∈ lending.custody.loans, loan.pool = 0 → loan.isGivenBack
  lingers_before : ∀ (handle : Nat) (loan : Loan R), lending.custody.loans[handle]? = some loan →
    loan.isLingering = true →
    ∃ earlier, before.custody.loans[handle]? = some earlier ∧ earlier.isLingering = true
  look_eq : ∀ (event : Event R) (next : Lending (System R) R) (detector : LeakDetector),
    lending.custody.detector? 0 = some detector →
    lending.step? asHost (.call event) = some next →
    Lending.Retires asHost lending (.call event) →
    next.custody = { lending.custody with
      checks := lending.custody.checks ++ [⟨0, .ofNat lending.custody.lingering⟩]
      exited := detector.exitOnLeak && decide (0 < UInt64.ofNat lending.custody.lingering) }
  silent : before.custody.lingering = 0 ∨ lending.custody.lingering = 0 →
    ∀ (event : Event R) (next : Lending (System R) R) (detector : LeakDetector),
      lending.custody.detector? 0 = some detector →
      lending.step? asHost (.call event) = some next →
      Lending.Retires asHost lending (.call event) →
      next.custody = { lending.custody with
        checks := lending.custody.checks ++ [⟨0, 0⟩], exited := false }

/-- A pool from which nothing is checked out is closed without a leak, unless a handle has given
back and is still registered as the pool looks; then that handle is counted for one. -/
theorem hushed_of_reaches {options : ElasticOptions} {counter : Counter} {count : Nat}
    {registries : List (Option Nat)} {detectors : List LeakDetector}
    {closed later : Lending (System R) R}
    (hsole : ∀ pool index : Nat, registries[0]?.join = some index →
      registries[pool]?.join = some index → pool = 0)
    (hreaches : Lending.Reaches asHost Lending.anyhow
      (.start (start options counter count) count registries detectors) before)
    (hcloses : ClosesQuiet before event closed)
    (hlater : Lending.Reaches asHost Lending.anyhow closed later) : Hushed before later := by
  have hcovered : Covered before := Runs.Reaches.invariant hreaches Covered
    (covered_start options counter count registries detectors)
    fun hcovered _ hstep => hcovered.of_change (Lending.change_of_step? hstep).2
  have hrestored : Restored before later := Runs.Reaches.invariant hlater (Restored before)
    (hcovered.restored hcloses)
    fun hrestored _ hstep => hrestored.of_change (Lending.change_of_step? hstep).2
  have hregistries : later.custody.registries = registries := by
    rw [Lending.Reaches.registries_eq hlater,
      Lending.registries_of_change (Lending.change_of_step? hcloses.step_eq).2,
      Lending.Reaches.registries_eq hreaches]
    rfl
  have hsole : later.custody.Sole := by
    unfold Custody.Sole Custody.registry?
    rw [hregistries]
    exact hsole
  constructor
  case given_back =>
    intro loan hmem
    exact Loan.isGivenBack_of_unreturned
      (Tally.tally_eq_zero_iff.mp hrestored.unreturned_eq loan hmem)
  case lingers_before => exact hrestored.lingers_before
  case look_eq =>
    exact fun _ _ _ hdetector hstep hretires => hrestored.look_eq hsole hdetector hstep hretires
  case silent =>
    intro hnone _ _ detector hdetector hstep hretires
    have hnone := hnone.elim hrestored.lingering_eq_zero id
    rw [hrestored.look_eq hsole hdetector hstep hretires, hnone]
    simp

/-- A handle ends as far as its pool's answer. -/
def returns (caller handle value : Nat) : List (Occasion (Event Nat) Nat) :=
  [.custody (.act handle .leave)] ++ proceeds handle 1 ++
    [.give ⟨caller, .begin (.release value) 0, 0⟩ handle, .call ⟨caller, .turn 0, 0⟩]

/-- A call that has closed the pool disposes of one of those that were in it. -/
def drains (caller : Nat) : List (Occasion (Event Nat) Nat) :=
  [.call ⟨caller, .turn 0, 0⟩, .call ⟨caller, .dispose, 0⟩]

def retires (caller : Nat) : List (Occasion (Event Nat) Nat) :=
  [.call ⟨caller, .turn 0, 0⟩, .call ⟨caller, .retire, 0⟩]

/-- A closing amid two runs. -/
structure Closing where
  before : Lending (System Nat) Nat
  closed : Lending (System Nat) Nat
  later : Lending (System Nat) Nat

/-- The closing by a caller that has begun to close after the early run. -/
def closing? (law : Lending.Law (System Nat) (Event Nat) Nat) (caller capacity : Nat)
    (early late : List (Occasion (Event Nat) Nat)) : Option Closing :=
  (Lending.run? asHost law (early ++ [.call ⟨caller, .begin .close 0, 0⟩])
      (.start (start { maxCapacity := capacity } .silent 2) 2 [some 0]
        [⟨"", true, true, 0, 0⟩])).bind fun before =>
    (before.step? asHost (.call ⟨caller, .turn 0, 0⟩)).bind fun closed =>
      (Lending.run? asHost law late closed).map fun later => ⟨before, closed, later⟩

/-- What shows of a closing: how the pool was found, and how many handles lingered then and linger
in the end, when the looks for leaks may be over. -/
def Closing.shown (caller : Nat) (closing : Closing) :
    (Option (Call Nat) × Bool × Except Abort Nat) × (Nat × Nat) × List Check × Bool :=
  ((closing.before.host.callers[caller]?.map Caller.call, closing.before.host.pool.closed,
      closing.before.host.pool.inUse),
    (closing.before.custody.lingering, closing.later.custody.lingering),
    closing.later.custody.checks, closing.later.custody.exited)

theorem exists_closing {law : Lending.Law (System Nat) (Event Nat) Nat} {caller capacity : Nat}
    {early late : List (Occasion (Event Nat) Nat)}
    {outcome : (Nat × Nat) × List Check × Bool}
    (hruns : (closing? law caller capacity early late).map (Closing.shown caller) =
      some ((some .shutting, false, .ok 0), outcome)) :
    ∃ closing : Closing, closing? law caller capacity early late = some closing ∧
      ClosesQuiet closing.before ⟨caller, .turn 0, 0⟩ closing.closed ∧
      (closing.shown caller).2 = outcome ∧
      Lending.Reaches asHost law (.start (start { maxCapacity := capacity } .silent 2) 2 [some 0]
        [⟨"", true, true, 0, 0⟩]) closing.before ∧
      Lending.Reaches asHost law closing.closed closing.later := by
  obtain ⟨closing, hclosing, hshown⟩ := Option.map_eq_some_iff.mp hruns
  obtain ⟨hfound, houtcome⟩ := Prod.mk.inj hshown
  simp only [Prod.mk.injEq] at hfound
  obtain ⟨hshutting, hopen, hinUse⟩ := hfound
  obtain ⟨before, hbefore, hrest⟩ := Option.bind_eq_some_iff.mp hclosing
  obtain ⟨closed, hclosed, hrest⟩ := Option.bind_eq_some_iff.mp hrest
  obtain ⟨later, hlater, rfl⟩ := Option.map_eq_some_iff.mp hrest
  exact ⟨_, hclosing, ⟨hshutting, hopen, hinUse, hclosed⟩, houtcome,
    Runs.reaches_of_run? hbefore, Runs.reaches_of_run? hlater⟩

/-- Two handles end, and one of them lets go of its registration only as the pool is closed. -/
def belated : List (Occasion (Event Nat) Nat) :=
  acquires 0 1 ++ acquires 1 2 ++ drops 0 0 1 ++ returns 1 1 2 ++ proceeds 1 1

theorem hushed_of_belated : ∃ closing : Closing,
    closing? Lending.anyhow 0 2 belated (proceeds 1 2 ++ drains 0 ++ drains 0 ++ retires 0) =
        some closing ∧
      ClosesQuiet closing.before ⟨0, .turn 0, 0⟩ closing.closed ∧
      closing.before.custody.lingering = 1 ∧ closing.later.custody.lingering = 0 ∧
      closing.later.custody.checks = [⟨0, 0⟩] ∧ Hushed closing.before closing.later := by
  have hruns : (closing? Lending.anyhow 0 2 belated
      (proceeds 1 2 ++ drains 0 ++ drains 0 ++ retires 0)).map (Closing.shown 0) =
    some ((some .shutting, false, .ok 0), (1, 0), [⟨0, 0⟩], false) := by decide
  obtain ⟨closing, hclosing, hcloses, houtcome, hearly, hlate⟩ := exists_closing hruns
  simp only [Closing.shown, Prod.mk.injEq] at houtcome
  have hsole : ∀ pool index : Nat, ([some 0] : List (Option Nat))[0]?.join = some index →
      ([some 0] : List (Option Nat))[pool]?.join = some index → pool = 0 := by
    intro pool index _ hpool
    cases pool with
    | zero => rfl
    | succ pool => cases hpool
  obtain ⟨⟨hbefore, hafter⟩, hchecks, -⟩ := houtcome
  exact ⟨closing, hclosing, hcloses, hbefore, hafter, hchecks,
    hushed_of_reaches hsole hearly hcloses hlate⟩

/-- A handle that has given back is counted for a leak by a caller that closes the pool before the
handle has let go of its registration, and by the caller that gives back, when the owner is gone and
the handle's end is the last to have hold of the pool. -/
theorem unhushed_of_hasty :
    (∃ closing : Closing,
      closing? handlesOnly 1 1 (acquires 0 1 ++ returns 0 0 1 ++ proceeds 0 1)
          (drains 1 ++ retires 1) = some closing ∧
        ClosesQuiet closing.before ⟨1, .turn 0, 0⟩ closing.closed ∧
        closing.later.custody.checks = [⟨0, 1⟩] ∧ closing.later.custody.exited = true) ∧
    ∃ closing : Closing,
      closing? handlesOnly 0 1
          (acquires 0 1 ++ [.custody (.act 0 .leave)] ++ proceeds 0 1 ++
            [.custody (.abandon 0), .give ⟨0, .begin (.release 1) 0, 0⟩ 0,
              .call ⟨0, .turn 0, 0⟩])
          (drains 0 ++ retires 0) = some closing ∧
        ClosesQuiet closing.before ⟨0, .turn 0, 0⟩ closing.closed ∧
        closing.later.custody.checks = [⟨0, 1⟩] ∧ closing.later.custody.exited = true := by
  refine ⟨?another, ?last⟩
  case another =>
    have hruns : (closing? handlesOnly 1 1 (acquires 0 1 ++ returns 0 0 1 ++ proceeds 0 1)
        (drains 1 ++ retires 1)).map (Closing.shown 1) =
      some ((some .shutting, false, .ok 0), (1, 1), [⟨0, 1⟩], true) := by decide
    obtain ⟨closing, hclosing, hcloses, houtcome, -⟩ := exists_closing hruns
    simp only [Closing.shown, Prod.mk.injEq] at houtcome
    exact ⟨closing, hclosing, hcloses, houtcome.2⟩
  case last =>
    have hruns : (closing? handlesOnly 0 1
        (acquires 0 1 ++ [.custody (.act 0 .leave)] ++ proceeds 0 1 ++
          [.custody (.abandon 0), .give ⟨0, .begin (.release 1) 0, 0⟩ 0, .call ⟨0, .turn 0, 0⟩])
        (drains 0 ++ retires 0)).map (Closing.shown 0) =
      some ((some .shutting, false, .ok 0), (1, 1), [⟨0, 1⟩], true) := by decide
    obtain ⟨closing, hclosing, hcloses, houtcome, -⟩ := exists_closing hruns
    simp only [Closing.shown, Prod.mk.injEq] at houtcome
    exact ⟨closing, hclosing, hcloses, houtcome.2⟩

end System

end Pooling.Elastic
