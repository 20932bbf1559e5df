import Pooling.Proofs.Elastic.Acquiring
import Pooling.Proofs.Elastic.Deadlines

/-!
What a call that fails leaves behind, where no other goes on meanwhile: the pool as it was, less the
resources whose checks have failed on the way.
-/

namespace Pooling

/-- How many time-outs an error stands for. -/
def PoolError.timeouts : PoolError → UInt64
  | timeout _ => 1
  | _ => 0

variable {R : Type}

/-- A call that ends so returns an error. -/
def Outcome.isFailed : Outcome R → Bool
  | failed _ => true
  | _ => false

namespace Elastic

variable [DecidableEq R]

namespace Pool

/-- The pool without the first resources of its queue, which have failed their checks. The counter
is told of those that were tracked. -/
def shed (pool : Pool R) (failed left : List R) : Pool R :=
  { pool with
    available := pool.selection.order left
    tracked := failed.foldl Table.erase pool.tracked
    counter := { pool.counter with
      downs := pool.counter.downs +
        (pool.tracked.size - (failed.foldl Table.erase pool.tracked).size) }
    totals := { pool.totals with
      unhealthy := pool.totals.unhealthy + .ofNat failed.length } }

variable {pool : Pool R} {failed left : List R}

theorem shed_nil (hqueue : pool.queue = left) : pool.shed [] left = pool := by
  subst hqueue
  have hzero : pool.totals.unhealthy + .ofNat 0 = pool.totals.unhealthy := UInt64.add_zero _
  simp only [shed, queue, Selection.order_order, List.foldl_nil, List.length_nil, hzero,
    Nat.sub_self, Nat.add_zero]

theorem shed_shed (pool : Pool R) (failed more between left : List R) :
    (pool.shed failed between).shed more left = pool.shed (failed ++ more) left := by
  have hfailed := Table.size_foldl_erase_le pool.tracked failed
  have hmore := Table.size_foldl_erase_le (failed.foldl Table.erase pool.tracked) more
  have hdowns (downs : Nat) : downs +
      (pool.tracked.size - (failed.foldl Table.erase pool.tracked).size) +
      ((failed.foldl Table.erase pool.tracked).size -
        (more.foldl Table.erase (failed.foldl Table.erase pool.tracked)).size) =
      downs + (pool.tracked.size -
        (more.foldl Table.erase (failed.foldl Table.erase pool.tracked)).size) := by omega
  have hunhealthy : pool.totals.unhealthy + .ofNat failed.length + .ofNat more.length =
      pool.totals.unhealthy + .ofNat (failed ++ more).length := by
    rw [List.length_append, UInt64.ofNat_add, UInt64.add_assoc]
  simp only [shed, List.foldl_append, hdowns, hunhealthy]

/-- Where each of them is tracked, the counter is told of each. -/
theorem shed_eq_discard (hkeys : pool.tracked.keys.Nodup) (hnodup : failed.Nodup)
    (htracked : ∀ resource ∈ failed, (pool.checkedOut? resource).isSome) (left : List R) :
    pool.shed failed left = pool.discard failed left := by
  have hsize := size_discard hkeys hnodup htracked left
  have hlost : pool.tracked.size - (failed.foldl Table.erase pool.tracked).size =
      failed.length := by
    simp only [size, discard] at hsize
    omega
  rw [shed, hlost]
  rfl

/-- Whether another resource may be made. -/
def HasRoom (pool : Pool R) : Prop := pool.size + pool.creating < pool.maxCapacity

/-- What fails its check is given up, tracked or not. -/
theorem condemn_checkOut (hkeys : pool.tracked.keys.Nodup) (patience : Patience) (resource : R)
    (left : List R) :
    Call.condemn patience resource (pool.checkOut resource (pool.selection.order left)) =
      { pool := pool.shed [resource] left
        wake := .one
        call := .closing resource (.retry patience) } := by
  have hcontains := contains_eq_isSome (pool.checkOut resource (pool.selection.order left)) resource
  rw [checkedOut?_checkOut, if_pos rfl, Option.isSome_map] at hcontains
  rw [Call.condemn, forget, hcontains]
  cases hfound : pool.checkedOut? resource with
  | some inUse =>
      have htracked : ∀ other ∈ [resource], (pool.checkedOut? other).isSome := by
        simp [hfound]
      rw [shed_eq_discard hkeys (List.nodup_singleton resource) htracked, ← untrack_checkOut]
      rfl
  | none =>
      have hnone : pool.tracked.get? resource = none := Option.map_eq_none_iff.mp hfound
      simp only [shed, checkOut, record, Totals.countUnhealthy, List.foldl_cons, List.foldl_nil,
        Table.erase_of_get?_eq_none hnone, Table.modify_of_get?_eq_none hnone, Nat.sub_self]
      rfl

end Pool

/-- Which request waits how long. -/
def Request.Wants (request : Request R) : Patience → Prop
  | .never => request = .tryAcquire
  | .forever => request = .acquire
  | .until _ timeout => request = .acquireWithin timeout

/-- A call for a resource, begun on an open pool, after the checks of some resources have failed. -/
structure Going (failing : R → Bool) (before : Pool R) (request : Request R) (patience : Patience)
    (failed left : List R) : Prop where
  wants : request.Wants patience
  isOpen : before.closed = false
  queue_eq : before.queue = failed ++ left
  unhealthy : ∀ resource ∈ failed, failing resource = true

/-- How a call fails: what it asked for, what was made for it and what it discarded, its error, and
the pool that it leaves. -/
inductive Failure (failing : R → Bool) (before : Pool R) (request : Request R) :
    List R → List R → PoolError → Pool R → Prop
  | closed {patience : Patience} (hwants : request.Wants patience)
      (hclosed : before.closed = true) : Failure failing before request [] [] .closed before
  | timedOut {deadline : Reading} {timeout : Duration} {failed left : List R}
      (hgoing : Going failing before request (.until deadline timeout) failed left) :
      Failure failing before request [] failed (.timeout timeout)
        ((before.shed failed left).record .countTimeout)
  | uncreated {patience : Patience} (source : String)
      (hgoing : Going failing before request patience before.queue [])
      (hroom : (before.shed before.queue []).HasRoom) :
      Failure failing before request [] before.queue (.creation source)
        (before.shed before.queue [])
  | duplicate {patience : Patience} (resource : R)
      (hgoing : Going failing before request patience before.queue [])
      (hroom : (before.shed before.queue []).HasRoom)
      (hknown : ((before.shed before.queue []).checkedOut? resource).isSome) :
      Failure failing before request [resource] before.queue (.invalidArgument .alreadyTracked)
        (before.shed before.queue [])
  | refused {resource : R} (hrequest : request = .release resource)
      (hnot : before.checkedOut? resource ≠ some true) :
      Failure failing before request [] []
        (.invalidArgument (if (before.checkedOut? resource).isSome then .alreadyReleased
          else .notAcquired)) before

/-- What a move finds unfit. -/
def Move.condemns (move : Move R) (call : Call R) : List R :=
  match move, call with
  | .check false, .checking _ resource => [resource]
  | _, _ => []

/-- How far a call has come that nobody disturbs, and what it has made of the pool so far. -/
inductive Attempt (failing : R → Bool) (before : Pool R) (request : Request R) :
    List R → List R → Call R → Pool R → Prop
  | barred {patience : Patience} (hwants : request.Wants patience)
      (hclosed : before.closed = true) :
      Attempt failing before request [] [] (.seeking patience false) before
  | seeking {patience : Patience} {failed left : List R} (waited : Bool)
      (hgoing : Going failing before request patience failed left) :
      Attempt failing before request [] failed (.seeking patience waited) (before.shed failed left)
  | parked {patience : Patience} {failed left : List R}
      (hgoing : Going failing before request patience failed left) :
      Attempt failing before request [] failed (.parked patience) (before.shed failed left)
  | checking {patience : Patience} {failed left : List R} {resource : R}
      (hgoing : Going failing before request patience failed (resource :: left)) :
      Attempt failing before request [] failed (.checking patience resource)
        ((before.shed failed (resource :: left)).checkOut resource (before.selection.order left))
  | condemned {patience : Patience} {failed left : List R} {resource : R}
      (hgoing : Going failing before request patience failed (resource :: left))
      (hfails : failing resource = true) :
      Attempt failing before request [] failed (.condemned patience resource)
        ((before.shed failed (resource :: left)).checkOut resource (before.selection.order left))
  | closing {patience : Patience} {failed left : List R} {resource : R}
      (hgoing : Going failing before request patience failed (resource :: left))
      (hfails : failing resource = true) :
      Attempt failing before request [] failed (.closing resource (.retry patience))
        (before.shed (failed ++ [resource]) left)
  | after {patience : Patience} {failed left : List R}
      (hgoing : Going failing before request patience failed left) :
      Attempt failing before request [] failed (.after (.retry patience)) (before.shed failed left)
  | making {patience : Patience} (hgoing : Going failing before request patience before.queue [])
      (hroom : (before.shed before.queue []).HasRoom) :
      Attempt failing before request [] before.queue .making
        { before.shed before.queue [] with creating := before.creating + 1 }
  | registering {patience : Patience} (answer : Made R)
      (hgoing : Going failing before request patience before.queue [])
      (hroom : (before.shed before.queue []).HasRoom) :
      Attempt failing before request (Move.make answer).makes before.queue (.registering answer)
        { before.shed before.queue [] with creating := before.creating + 1 }
  | returning {resource : R} {reading : Reading} (hrequest : request = .release resource) :
      Attempt failing before request [] [] (.returning resource reading) before
  | failed {made discarded : List R} {error : PoolError} {pool : Pool R}
      (hfailure : Failure failing before request made discarded error pool) :
      Attempt failing before request made discarded (.done (.failed error)) pool

def Next.Faultless : Next R → Prop
  | .finish outcome => outcome.isFailed = false
  | .sweep _ _ | .drain _ => True
  | .retry _ => False

/-- The calls that will not fail, whatever comes. -/
def Call.Faultless : Call R → Prop
  | scanning | shutting | retiring => True
  | closing _ next | after next => next.Faultless
  | done outcome => outcome.isFailed = false
  | _ => False

/-- Where a call is that was begun on a pool and has been undisturbed since. -/
def Undisturbed (failing : R → Bool) (before : Pool R) (request : Request R)
    (made discarded : List R) (call : Call R) (pool : Pool R) : Prop :=
  call.Faultless ∨ Attempt failing before request made discarded call pool

section

variable {failing : R → Bool} {before pool : Pool R} {request : Request R}
  {made discarded failed left : List R}
  {call : Call R} {patience : Patience} {advanced : Call.Advanced R} {move : Move R}

theorem Transition.faultless (htransition : Transition move call pool advanced)
    (hcontinues : ∀ request now, move ≠ .begin request now) (hfaultless : call.Faultless) :
    advanced.call.Faultless := by
  cases htransition with
  | begin request now => exact absurd rfl (hcontinues request now)
  | disposed | finished => exact hfaultless
  | scannedNothing | scanned | shut | sweeps | drained | drains => trivial
  | shutAgain | cutShort | swept | retired | raised => exact rfl
  | _ => exact hfaultless.elim

omit [DecidableEq R] in
theorem Call.Faultless.woken (hfaultless : call.Faultless) : call.woken.Faultless := by
  cases call <;> exact hfaultless

theorem Attempt.woken (hattempt : Attempt failing before request made discarded call pool) :
    Attempt failing before request made discarded call.woken pool := by
  cases hattempt with
  | parked hgoing => exact .seeking true hgoing
  | barred hwants hclosed => exact .barred hwants hclosed
  | seeking waited hgoing => exact .seeking waited hgoing
  | checking hgoing => exact .checking hgoing
  | condemned hgoing hfails => exact .condemned hgoing hfails
  | closing hgoing hfails => exact .closing hgoing hfails
  | after hgoing => exact .after hgoing
  | making hgoing hroom => exact .making hgoing hroom
  | registering answer hgoing hroom => exact .registering answer hgoing hroom
  | returning hrequest => exact .returning hrequest
  | failed hfailure => exact .failed hfailure

theorem Undisturbed.woken
    (hundisturbed : Undisturbed failing before request made discarded call pool) :
    Undisturbed failing before request made discarded call.woken pool :=
  hundisturbed.imp Call.Faultless.woken Attempt.woken

theorem Undisturbed.seek (hgoing : Going failing before request patience failed left)
    (waited : Bool) (now : Reading) :
    Undisturbed failing before request [] failed
      (Call.seek patience waited now (before.shed failed left)).call
      (Call.seek patience waited now (before.shed failed left)).pool := by
  have hopen : (before.shed failed left).closed = false := hgoing.isOpen
  cases left with
  | cons resource left =>
      have hqueue : (before.shed failed (resource :: left)).queue = resource :: left :=
        Selection.order_order _ _
      rw [Call.seek, Pool.takeSlot_of_queue hopen hqueue]
      exact .inr (.checking hgoing)
  | nil =>
      have hall : failed = before.queue := by rw [hgoing.queue_eq, List.append_nil]
      subst hall
      have hnone : (before.shed before.queue []).available = [] :=
        (before.selection.order_perm []).eq_nil
      by_cases hroom : (before.shed before.queue []).HasRoom
      · rw [Call.seek, Pool.takeSlot_of_room hopen hnone hroom]
        exact .inr (.making hgoing hroom)
      · rw [Call.seek, Pool.takeSlot_of_full hopen hnone (Nat.not_lt.mp hroom)]
        cases patience with
        | never => exact .inl rfl
        | forever => exact .inr (.parked hgoing)
        | «until» deadline timeout =>
            simp only [Call.sleepOrGiveUp]
            split
            next => exact .inr (.failed (.timedOut hgoing))
            next => exact .inr (.parked hgoing)

theorem Undisturbed.enroll (hgoing : Going failing before request patience before.queue [])
    (hroom : (before.shed before.queue []).HasRoom) (answer : Made R) (now : Reading) :
    Undisturbed failing before request (Move.make answer).makes before.queue
      (Call.enroll answer now
        { before.shed before.queue [] with creating := before.creating + 1 }).call
      (Call.enroll answer now
        { before.shed before.queue [] with creating := before.creating + 1 }).pool := by
  have hopen : (before.shed before.queue []).closed = false := hgoing.isOpen
  obtain ⟨wake, outcome, after, henrolled, henroll⟩ := exists_enrolled hopen now answer
  have henroll : Call.enroll answer now
      { before.shed before.queue [] with creating := before.creating + 1 } =
        { pool := after, wake, call := .done outcome } := henroll
  rw [henroll]
  cases henrolled with
  | kept resource hnew => exact .inl rfl
  | duplicate resource hknown => exact .inr (.failed (.duplicate resource hgoing hroom hknown))
  | failed source => exact .inr (.failed (.uncreated source hgoing hroom))

theorem Undisturbed.giveBack {resource : R} (hrequest : request = .release resource)
    (reading : Reading) :
    Undisturbed failing before request [] [] (Call.giveBack resource reading before).call
      (Call.giveBack resource reading before).pool := by
  by_cases hout : before.checkedOut? resource = some true
  · rw [Call.giveBack, Pool.release_of_out hout]
    by_cases hclosed : before.closed = true
    · simp only [if_pos hclosed]
      exact .inl rfl
    · simp only [if_neg hclosed]
      exact .inl rfl
  · have hrefused : Failure failing before request _ _ _ before := .refused hrequest hout
    rw [Call.giveBack, Pool.release_of_not_out hout]
    exact .inr (.failed hrefused)

theorem Attempt.turn (hattempt : Attempt failing before request made discarded call pool)
    (hkeys : before.tracked.keys.Nodup) (hneed : call.need = .turn) (now : Reading) :
    Undisturbed failing before request made discarded (call.advance now pool).call
      (call.advance now pool).pool := by
  cases hattempt with
  | barred hwants hclosed =>
      rw [Call.advance, Call.seek, Pool.takeSlot_of_closed hclosed]
      exact .inr (.failed (.closed hwants hclosed))
  | seeking waited hgoing => exact Undisturbed.seek hgoing waited now
  | @condemned patience _ left resource hgoing hfails =>
      have hkeys : (before.shed discarded (resource :: left)).tracked.keys.Nodup :=
        Table.nodup_keys_foldl_erase hkeys discarded
      have hcondemn : (Call.condemned patience resource).advance now
          ((before.shed discarded (resource :: left)).checkOut resource
            (before.selection.order left)) = _ :=
        Pool.condemn_checkOut hkeys patience resource left
      rw [hcondemn, Pool.shed_shed]
      exact .inr (.closing hgoing hfails)
  | @after patience _ left hgoing =>
      cases patience with
      | never | forever => exact .inr (.seeking false hgoing)
      | «until» deadline timeout =>
          simp only [Call.advance, Call.proceed, Call.retry]
          split
          next => exact .inr (.failed (.timedOut hgoing))
          next => exact .inr (.seeking false hgoing)
  | registering answer hgoing hroom => exact Undisturbed.enroll hgoing hroom answer now
  | returning hrequest => exact Undisturbed.giveBack hrequest _
  | parked | checking | closing | making | failed => cases hneed

omit [DecidableEq R] in
theorem Going.discard {resource : R} (hgoing : Going failing before request patience failed
    (resource :: left)) (hfails : failing resource = true) :
    Going failing before request patience (failed ++ [resource]) left where
  wants := hgoing.wants
  isOpen := hgoing.isOpen
  queue_eq := by rw [hgoing.queue_eq, List.append_cons]
  unhealthy := by
    intro other hmem
    rcases List.mem_append.mp hmem with hmem | hmem
    · exact hgoing.unhealthy other hmem
    · exact List.mem_singleton.mp hmem ▸ hfails

theorem Undisturbed.step
    (hundisturbed : Undisturbed failing before request made discarded call pool)
    (hkeys : before.tracked.keys.Nodup) (hcontinues : ∀ request now, move ≠ .begin request now)
    (hcondemns : ∀ resource ∈ move.condemns call, failing resource = true)
    (hperform : move.perform? call pool = some advanced) :
    Undisturbed failing before request (made ++ move.makes) (discarded ++ move.disposes call)
      advanced.call advanced.pool := by
  rcases hundisturbed with hfaultless | hattempt
  · exact .inl ((transition_of_perform? hperform).faultless hcontinues hfaultless)
  unfold Move.perform? at hperform
  split at hperform
  next request now outcome hneed => exact absurd rfl (hcontinues request now)
  next now hneed =>
    cases hperform
    simp only [Move.makes, Move.disposes, List.append_nil]
    exact hattempt.turn hkeys hneed now
  next answer hneed =>
    cases hperform
    cases hattempt with
    | making hgoing hroom =>
        simp only [Move.disposes, List.append_nil]
        exact .inr (.registering answer hgoing hroom)
    | _ => cases hneed
  next healthy resource hneed =>
    cases hperform
    cases hattempt with
    | checking hgoing =>
        simp only [Move.makes, Move.disposes, List.append_nil]
        cases healthy with
        | true => exact .inl rfl
        | false => exact .inr (.condemned hgoing (hcondemns _ (List.mem_singleton_self _)))
    | _ => cases hneed
  next resource hneed =>
    cases hperform
    cases hattempt with
    | closing hgoing hfails => exact .inr (.after (hgoing.discard hfails))
    | _ => cases hneed
  next hneed =>
    cases hattempt with
    | parked hgoing =>
        obtain ⟨alarm, -, rfl⟩ := Option.map_eq_some_iff.mp hperform
        simp only [Move.makes, Move.disposes, List.append_nil]
        exact .inr (.seeking true hgoing)
    | _ => cases hneed
  next hneed => cases hattempt <;> cases hneed
  -- A factory that raises ends the call, and not with an error of the pool.
  next =>
    cases hperform
    exact .inl rfl
  next =>
    cases hperform
    exact .inl rfl
  next =>
    cases hperform
    exact .inl rfl
  next => cases hperform

theorem Undisturbed.begins (before : Pool R) (request : Request R) (now : Reading) :
    Undisturbed failing before request [] [] (request.call now) before := by
  have hseeks : ∀ patience, request.Wants patience →
      Undisturbed failing before request [] [] (.seeking patience false) before := by
    intro patience hwants
    by_cases hclosed : before.closed = true
    · exact .inr (.barred hwants hclosed)
    · have hgoing : Going failing before request patience [] before.queue :=
        ⟨hwants, eq_false_of_ne_true hclosed, rfl, by simp⟩
      have hseeking := Attempt.seeking false hgoing
      rw [Pool.shed_nil rfl] at hseeking
      exact .inr hseeking
  cases request with
  | tryAcquire | acquire | acquireWithin => exact hseeks _ rfl
  | release => exact .inr (.returning rfl)
  | collect | close => exact .inl trivial

end

/-- A call that fails undoes what it did, but for what it discarded. -/
structure Undone (failing : R → Bool) (before : Pool R) (request : Request R)
    (made discarded : List R) (error : PoolError) (after : Pool R) : Prop where
  cause : Failure failing before request made discarded error after
  pool_eq : ∃ left, before.queue = discarded ++ left ∧
    after = { before.shed discarded left with
      totals := { (before.shed discarded left).totals with
        timeouts := before.totals.timeouts + error.timeouts } }
  get?_eq : ∀ resource, after.tracked.get? resource =
    if resource ∈ discarded then none else before.tracked.get? resource
  unhealthy : ∀ resource ∈ discarded, failing resource = true
  -- Nothing is reserved any more, and the next call that wants a resource may make one.
  takeSlot_eq :
    (∃ source, error = .creation source) ∨ error = .invalidArgument .alreadyTracked →
      after.takeSlot.1 = .create
  -- What was made for the call, and known already, stays as it was.
  known : ∀ resource ∈ made, resource ∉ discarded ∧ (before.checkedOut? resource).isSome ∧
    after.tracked.get? resource = before.tracked.get? resource

namespace Failure

variable {failing : R → Bool} {before after : Pool R} {request : Request R}
  {made discarded : List R} {error : PoolError}

theorem pool_eq (hfailure : Failure failing before request made discarded error after) :
    ∃ left, before.queue = discarded ++ left ∧
      after = { before.shed discarded left with
        totals := { (before.shed discarded left).totals with
          timeouts := before.totals.timeouts + error.timeouts } } := by
  have hzero : before.totals.timeouts + 0 = before.totals.timeouts := UInt64.add_zero _
  have hwhole : before.shed [] before.queue = before := Pool.shed_nil rfl
  cases hfailure with
  | closed | refused =>
      refine ⟨before.queue, rfl, ?_⟩
      simp only [PoolError.timeouts, hwhole, hzero]
  | @timedOut deadline timeout _ left hgoing => exact ⟨left, hgoing.queue_eq, rfl⟩
  | uncreated source hgoing hroom | duplicate resource hgoing hroom hknown =>
      refine ⟨[], hgoing.queue_eq, ?_⟩
      simp only [PoolError.timeouts, hzero]
      rfl

theorem unhealthy (hfailure : Failure failing before request made discarded error after) :
    ∀ resource ∈ discarded, failing resource = true := by
  cases hfailure with
  | closed | refused => simp
  | timedOut hgoing => exact hgoing.unhealthy
  | uncreated source hgoing hroom => exact hgoing.unhealthy
  | duplicate resource hgoing hroom hknown => exact hgoing.unhealthy

theorem undone (hfailure : Failure failing before request made discarded error after) :
    Undone failing before request made discarded error after := by
  obtain ⟨left, hqueue, hafter⟩ := hfailure.pool_eq
  have hget : ∀ resource, after.tracked.get? resource =
      if resource ∈ discarded then none else before.tracked.get? resource := by
    intro resource
    rw [hafter]
    exact Table.get?_foldl_erase discarded before.tracked resource
  refine ⟨hfailure, ⟨left, hqueue, hafter⟩, hget, hfailure.unhealthy, ?_, ?_⟩
  · intro hsource
    cases hfailure with
    | closed | timedOut => simp at hsource
    | refused hrequest hnot =>
        rcases hsource with ⟨source, hsource⟩ | hsource
        · cases hsource
        · split at hsource <;> cases hsource
    | uncreated source hgoing hroom | duplicate resource hgoing hroom hknown =>
        have hopen : (before.shed before.queue []).closed = false := hgoing.isOpen
        have hnone : (before.shed before.queue []).available = [] :=
          (before.selection.order_perm []).eq_nil
        rw [Pool.takeSlot_of_room hopen hnone hroom]
  · intro resource hmade
    cases hfailure with
    | duplicate known hgoing hroom hknown =>
        cases List.mem_singleton.mp hmade
        have hspared : resource ∉ before.queue := by
          intro hmem
          rw [Pool.checkedOut?, hget, if_pos hmem] at hknown
          cases hknown
        rw [Pool.checkedOut?, hget, if_neg hspared] at hknown
        exact ⟨hspared, hknown, (hget resource).trans (if_neg hspared)⟩
    | _ => cases hmade

end Failure

/-- A move by which a call goes on that has begun. -/
def Move.continues : Move R → Bool
  | begin _ _ => false
  | _ => true

namespace System

/-- One caller goes on with the call it is in, and nobody else does anything. No other resources
fail their checks than the given ones. -/
def alone (index : Nat) (failing : R → Bool) : Law R := fun system event =>
  decide (event.caller = index) && event.move.continues &&
    match system.callers[event.caller]? with
    | some caller => (event.move.condemns caller.call).all failing
    | none => true

/-- What has come of a call since it was begun on a system, with nobody else going on. -/
def Tried (failing : R → Bool) (base : System R) (request : Request R) (index : Nat)
    (system : System R) : Prop :=
  ∃ call made discarded, system.callers[index]?.map Caller.call = some call ∧
    system.made = base.made ++ made ∧ system.disposed = base.disposed ++ discarded ∧
    Undisturbed failing base.pool request made discarded call system.pool

section

variable {failing : R → Bool} {base before after : System R} {event : Event R} {caller : Caller R}
  {advanced : Call.Advanced R} {request : Request R} {index : Nat}

/-- A call is where its moves have brought it, or has been woken there. -/
theorem Stepped.undisturbed (hstepped : Stepped before event after caller advanced)
    {made discarded : List R} {pool : Pool R}
    (hundisturbed : Undisturbed failing pool request made discarded advanced.call advanced.pool) :
    ∃ call, after.callers[event.caller]?.map Caller.call = some call ∧
      Undisturbed failing pool request made discarded call after.pool := by
  rw [hstepped.pool_eq]
  rcases hstepped.call_after hstepped.caller_at (if_pos rfl).symm with hcall | hcall
  · exact ⟨_, hcall, hundisturbed⟩
  · exact ⟨_, hcall, hundisturbed.woken⟩

theorem Stepped.tried (hstepped : Stepped before event after caller advanced)
    (hkeys : base.pool.tracked.keys.Nodup) (halone : alone index failing before event = true)
    (htried : Tried failing base request index before) :
    Tried failing base request index after := by
  obtain ⟨hcontinues, hcondemns⟩ := Bool.and_eq_true_iff.mp halone
  obtain ⟨hcaller, hmove⟩ := Bool.and_eq_true_iff.mp hcontinues
  cases of_decide_eq_true hcaller
  rw [hstepped.caller_at] at hcondemns
  have hcondemns := List.all_eq_true.mp hcondemns
  obtain ⟨call, made, discarded, hcall, hmade, hdisposed, hundisturbed⟩ := htried
  rw [hstepped.caller_at, Option.map_some, Option.some.injEq] at hcall
  subst hcall
  have hcontinues : ∀ request now, event.move ≠ .begin request now := by
    intro request now heq
    rw [heq] at hmove
    cases hmove
  obtain ⟨call, hcall, hundisturbed⟩ :=
    hstepped.undisturbed (hundisturbed.step hkeys hcontinues hcondemns hstepped.performed)
  refine ⟨call, _, _, hcall, ?_, ?_, hundisturbed⟩
  · rw [hstepped.made_eq, hmade, List.append_assoc]
  · rw [hstepped.disposed_eq, hdisposed, List.append_assoc]

theorem tried_of_begin {now : Reading} {sleeper : Nat} (failing : R → Bool)
    (hstep : base.step? ⟨index, .begin request now, sleeper⟩ = some after) :
    Tried failing base request index after := by
  obtain ⟨caller, advanced, hstepped⟩ := stepped_of_step? hstep
  have hbegun : Undisturbed failing base.pool request [] [] advanced.call advanced.pool := by
    have htransition := hstepped.transition
    generalize caller.call = call at htransition
    cases htransition with
    | begin => exact .begins base.pool request now
  obtain ⟨call, hcall, hundisturbed⟩ := hstepped.undisturbed hbegun
  exact ⟨call, [], [], hcall, hstepped.made_eq, hstepped.disposed_eq, hundisturbed⟩

end

end System

theorem Errand.exists_last_of_closing (answers : Answers R) {errand : Errand R} {resource : R}
    {outcome : Outcome R} (hclosing : errand.call = .closing resource (.finish outcome)) :
    ∃ last, last ∈ errand.run answers ∧ last.call = .done outcome := by
  obtain ⟨pool, _, turns, looks, checks, makings, disposed⟩ := errand
  subst hclosing
  -- The factory closes it, and the call comes to its end.
  exact ⟨_, (mem_run_of_step? rfl).mp ((mem_run_of_step? rfl).mp (mem_run_self (step?_done rfl))),
    rfl⟩

/-- A call that gives a resource back comes to its end, well if the resource was checked out. -/
theorem Errand.exists_released (answers : Answers R) (pool : Pool R) (resource : R)
    (reading : Reading) :
    ∃ last, last ∈ run answers { pool, call := .release resource reading } ∧
      last.call = .done (if pool.checkedOut? resource = some true then .released
        else .failed (.invalidArgument (if (pool.checkedOut? resource).isSome then
          .alreadyReleased else .notAcquired))) := by
  have hturn {advanced : Call.Advanced R}
      (hgiven : Call.giveBack resource reading pool = advanced) :
      step? answers { pool, call := .release resource reading } =
        some (follow { pool, call := .release resource reading } (.turn (answers.reading 0))
          advanced) := step?_turn rfl hgiven
  by_cases hout : pool.checkedOut? resource = some true
  · by_cases hclosed : pool.closed = true
    · have hgiven : Call.giveBack resource reading pool =
          { pool := (pool.markReturned resource reading).untrack resource
            call := .closing resource (.finish .released) } := by
        rw [Call.giveBack, Pool.release_of_out hout, if_pos hclosed]
      have hclosing : (follow { pool, call := .release resource reading }
          (.turn (answers.reading 0))
          { pool := (pool.markReturned resource reading).untrack resource
            call := .closing resource (.finish .released) }).call =
          .closing resource (.finish .released) := rfl
      obtain ⟨last, hlast, hdone⟩ := exists_last_of_closing answers hclosing
      exact ⟨last, (mem_run_of_step? (hturn hgiven)).mp hlast,
        hdone.trans (congrArg Call.done (if_pos hout).symm)⟩
    · have hgiven : Call.giveBack resource reading pool =
          { pool := { pool.markReturned resource reading with
              available := resource :: pool.available }
            wake := .one
            call := .done .released } := by
        rw [Call.giveBack, Pool.release_of_out hout, if_neg hclosed]
      exact ⟨_, (mem_run_of_step? (hturn hgiven)).mp (mem_run_self (step?_done rfl)),
        congrArg Call.done (if_pos hout).symm⟩
  · have hgiven : Call.giveBack resource reading pool =
        { pool
          call := .done (.failed (.invalidArgument (if (pool.checkedOut? resource).isSome then
            .alreadyReleased else .notAcquired))) } := by
      rw [Call.giveBack, Pool.release_of_not_out hout]
    exact ⟨_, (mem_run_of_step? (hturn hgiven)).mp (mem_run_self (step?_done rfl)),
      congrArg Call.done (if_neg hout).symm⟩

namespace System

/-- A call that fails, with nobody else going on meanwhile, leaves everything as it was but for what
it discarded; and a resource is taken back if and only if it is checked out. -/
theorem undone_of_reaches {options : ElasticOptions} {counter : Counter} {count : Nat}
    {system : System R} (hreaches : Reaches anyhow (start options counter count) system) :
    (∀ (resource : R) (reading : Reading) (answers : Answers R), ∃ last,
      last ∈ Errand.run answers { pool := system.pool, call := .release resource reading } ∧
        last.call = .done (if system.pool.checkedOut? resource = some true then .released
          else .failed (.invalidArgument (if (system.pool.checkedOut? resource).isSome then
            .alreadyReleased else .notAcquired)))) ∧
    ∀ (index : Nat) (request : Request R) (now : Reading) (sleeper : Nat) (failing : R → Bool)
      (begun later : System R) (error : PoolError),
      system.step? ⟨index, .begin request now, sleeper⟩ = some begun →
      Reaches (alone index failing) begun later →
      later.callers[index]?.map Caller.call = some (.done (.failed error)) →
      ∃ made discarded, later.made = system.made ++ made ∧
        later.disposed = system.disposed ++ discarded ∧
        Undone failing system.pool request made discarded error later.pool ∧
        -- Where no stale release has meddled with a check, what is discarded was tracked.
        (Reaches careful (start options counter count) system →
          discarded.Nodup ∧ later.pool.size + discarded.length = system.pool.size) := by
  refine ⟨fun resource reading answers =>
    Errand.exists_released answers system.pool resource reading, ?_⟩
  intro index request now sleeper failing begun later error hbegin hlater hfailed
  have hkeys := hreaches.bounded.within.nodup_keys
  have htried : Tried failing system request index later :=
    hlater.stepwise (Tried failing system request index) (tried_of_begin failing hbegin)
      fun htried halone hstepped => hstepped.tried hkeys halone htried
  obtain ⟨call, made, discarded, hcall, hmade, hdisposed, hundisturbed⟩ := htried
  rw [hfailed, Option.some.injEq] at hcall
  subst hcall
  have hundone : Undone failing system.pool request made discarded error later.pool := by
    rcases hundisturbed with hfaultless | hattempt
    · cases hfaultless
    · cases hattempt with
      | failed hfailure => exact hfailure.undone
  refine ⟨made, discarded, hmade, hdisposed, hundone, fun hcareful => ?_⟩
  obtain ⟨left, hqueue, hpool⟩ := hundone.pool_eq
  have hconsistent := hcareful.sound.consistent
  have hnodup := hconsistent.nodup_queue
  rw [hqueue, List.nodup_append] at hnodup
  have htracked : ∀ resource ∈ discarded, (system.pool.checkedOut? resource).isSome := by
    intro resource hmem
    apply hconsistent.isSome_of_queue
    rw [hqueue]
    exact List.mem_append_left left hmem
  refine ⟨hnodup.1, ?_⟩
  rw [hpool]
  exact Pool.size_discard hkeys hnodup.1 htracked left

/-- A caller has three resources made and gives two of them back. -/
def twoIdle : List (Event Nat) :=
  [1, 2, 3].flatMap (fun resource =>
      [⟨0, .begin .acquire 0, 0⟩, ⟨0, .turn 0, 0⟩, ⟨0, .make (.ok resource), 0⟩,
        ⟨0, .turn 0, 0⟩]) ++
    [1, 2].flatMap fun resource =>
      [⟨0, .begin (.release resource) 1, 0⟩, ⟨0, .turn 1, 0⟩]

/-- Two resources fail their checks, and the one that is made instead is in use already. -/
def fruitless : List (Event Nat) :=
  (List.replicate 2
      [⟨0, .turn 2, 0⟩, ⟨0, .check false, 0⟩, ⟨0, .turn 2, 0⟩, ⟨0, .dispose, 0⟩,
        ⟨0, .turn 2, 0⟩]).flatten ++
    [⟨0, .turn 2, 0⟩, ⟨0, .make (.ok 3), 0⟩, ⟨0, .turn 2, 0⟩]

theorem undone_of_fruitless : ∃ system begun later : System Nat,
    run? careful twoIdle (start { maxCapacity := 3 } .silent 1) = some system ∧
      system.step? ⟨0, .begin .tryAcquire 2, 0⟩ = some begun ∧
      run? (alone 0 (· < 3)) fruitless begun = some later ∧
      later.callers[0]?.map Caller.call =
        some (.done (.failed (.invalidArgument .alreadyTracked))) ∧
      Undone (· < 3) system.pool .tryAcquire [3] [2, 1] (.invalidArgument .alreadyTracked)
        later.pool ∧
      later.pool.size + 2 = system.pool.size ∧ later.pool.takeSlot.1 = .create := by
  let shown (system : System Nat) :=
    (system.callers.map Caller.call, system.made, system.disposed)
  have hruns : ((run? careful twoIdle (start { maxCapacity := 3 } .silent 1)).bind fun system =>
      (system.step? ⟨0, .begin .tryAcquire 2, 0⟩).bind fun begun =>
        (run? (alone 0 (· < 3)) fruitless begun).map fun later => (shown system, shown later)) =
      some (([.done .released], [1, 2, 3], []),
        [.done (.failed (.invalidArgument .alreadyTracked))], [1, 2, 3, 3], [2, 1]) := by
    decide
  obtain ⟨system, hrun, hrest⟩ := Option.bind_eq_some_iff.mp hruns
  obtain ⟨begun, hbegin, hrest⟩ := Option.bind_eq_some_iff.mp hrest
  obtain ⟨later, hlater, hshown⟩ := Option.map_eq_some_iff.mp hrest
  simp only [shown, Prod.mk.injEq] at hshown
  obtain ⟨⟨-, hmadeBefore, hdisposedBefore⟩, hcallers, hmadeAfter, hdisposedAfter⟩ := hshown
  have hcareful : Reaches careful (start { maxCapacity := 3 } .silent 1) system :=
    Runs.reaches_of_run? hrun
  have hreaches : Reaches anyhow (start { maxCapacity := 3 } .silent 1) system :=
    hcareful.mono fun _ _ _ => rfl
  have hfailed : later.callers[0]?.map Caller.call =
      some (.done (.failed (.invalidArgument .alreadyTracked))) := by
    rw [← List.getElem?_map, hcallers]
    rfl
  obtain ⟨made, discarded, hmade, hdisposed, hundone, hsize⟩ :=
    (undone_of_reaches hreaches).2 0 .tryAcquire 2 0 (· < 3) begun later _ hbegin
      (Runs.reaches_of_run? hlater) hfailed
  have hmade : made = [3] := by
    rw [hmadeBefore, hmadeAfter] at hmade
    simpa using hmade.symm
  have hdisposed : discarded = [2, 1] := by
    rw [hdisposedBefore, hdisposedAfter] at hdisposed
    simpa using hdisposed.symm
  subst hmade hdisposed
  exact ⟨system, begun, later, hrun, hbegin, hlater, hfailed, hundone, (hsize hcareful).2,
    hundone.takeSlot_eq (.inr rfl)⟩

end System

end Elastic

end Pooling
