import Pooling.Proofs.Elastic.StaleReturns

/-!
Sleeping callers of an elastic pool: as many of them have been woken as could find a slot, so none
sleeps through the one it waits for. Closing the pool wakes the rest, unless it is cut short.
-/

namespace Pooling.Elastic

variable {R : Type} [DecidableEq R]

namespace Call

/-- One for a call that sleeps until there is a slot. -/
def asleep : Call R → Nat
  | .parked _ => 1
  | _ => 0

def roused : Call R → Nat
  | .seeking _ true => 1
  | _ => 0

omit [DecidableEq R] in
theorem roused_le_one (call : Call R) : call.roused ≤ 1 := by
  unfold roused
  split <;> omega

omit [DecidableEq R] in
theorem asleep_woken (call : Call R) : call.woken.asleep = 0 := by
  cases call <;> rfl

end Call

namespace Pool

/-- The slots that a pool could give to callers at once: its available resources, and the room for
new ones. -/
def room (pool : Pool R) : Nat :=
  pool.available.length + (pool.maxCapacity - pool.size - pool.creating)

omit [DecidableEq R] in
theorem room_eq_zero {pool : Pool R} (hnone : pool.available = [])
    (hfull : pool.maxCapacity ≤ pool.size + pool.creating) : pool.room = 0 := by
  rw [room, hnone, List.length_nil]
  omega

theorem room_checkOut {pool : Pool R} {chosen : R} {rest : List R}
    (hchosen : pool.available.Perm (chosen :: rest)) :
    (pool.checkOut chosen rest).room + 1 = pool.room := by
  have hlength : pool.available.length = rest.length + 1 := by
    rw [hchosen.length_eq, List.length_cons]
  rw [room, room, size_checkOut]
  show rest.length + (pool.maxCapacity - pool.size - pool.creating) + 1 = _
  omega

theorem room_giveBack (pool : Pool R) (returned : R) (now : Reading) :
    ({ pool.markReturned returned now with
      available := returned :: pool.available } : Pool R).room = pool.room + 1 := by
  have hsize := pool.size_markReturned returned now
  show (returned :: pool.available).length +
    (pool.maxCapacity - (pool.markReturned returned now).size - pool.creating) = _
  rw [hsize, room, List.length_cons]
  omega

omit [DecidableEq R] in
theorem room_unreserve_le (pool : Pool R) :
    ({ pool with creating := pool.creating - 1 } : Pool R).room ≤ pool.room + 1 := by
  show pool.available.length + (pool.maxCapacity - pool.size - (pool.creating - 1)) ≤ _
  rw [room]
  omega

theorem room_untrack_le {pool : Pool R} (hkeys : pool.tracked.keys.Nodup) {gone : R}
    (htracked : (pool.checkedOut? gone).isSome) : (pool.untrack gone).room ≤ pool.room + 1 := by
  have hsize := size_untrack hkeys htracked
  show pool.available.length + (pool.maxCapacity - (pool.untrack gone).size - pool.creating) ≤ _
  rw [room]
  omega

theorem room_track_le {pool : Pool R} {made : R} (hnew : pool.checkedOut? made = none)
    (now : Reading) :
    (Pool.track { pool with creating := pool.creating - 1 } made now).room ≤ pool.room := by
  have hsize := size_track { pool with creating := pool.creating - 1 } hnew now
  rw [room, hsize]
  show pool.available.length + (pool.maxCapacity - (pool.size + 1) - (pool.creating - 1)) ≤ _
  rw [room]
  omega

theorem room_collect {pool : Pool R} (hwithin : pool.Within) {taken left : List R}
    (hperm : pool.available.Perm (taken ++ left)) (hnodup : taken.Nodup)
    (htracked : ∀ resource ∈ taken, (pool.checkedOut? resource).isSome) :
    ({ taken.foldl untrack pool with available := left } : Pool R).room = pool.room := by
  have hsize := size_foldl_untrack hwithin.nodup_keys hnodup htracked
  have hlength : pool.available.length = taken.length + left.length := by
    rw [hperm.length_eq, List.length_append]
  have hle := hwithin.size_le
  rw [foldl_untrack_eq, room]
  show left.length + (pool.maxCapacity - (taken.foldl untrack pool).size - pool.creating) = _
  rw [room]
  omega

end Pool

namespace Transition

variable {move : Move R} {call : Call R} {pool : Pool R} {advanced : Call.Advanced R}

/-- A move that wakes nobody makes no room that was not there, or leaves none at all. -/
theorem room_of_nobody (htransition : Transition move call pool advanced) (hwithin : pool.Within)
    (hopen : advanced.pool.closed = false) (hwake : advanced.wake = .nobody) :
    advanced.pool.room = 0 ∨ advanced.call.asleep = 0 ∧
      advanced.pool.room + call.roused ≤ pool.room + advanced.call.roused := by
  cases htransition with
  | begin request now outcome => cases request <;> exact .inr ⟨rfl, Nat.le_refl _⟩
  | barred patience waited now hclosed => simp [hclosed] at hopen
  | late resource now hclosed => simp [hclosed] at hopen
  | returnedLate resource reading now hclosed =>
      simp [Pool.untrack, Pool.markReturned, hclosed] at hopen
  | @granted patience waited now _ chosen rest hopen hchosen =>
      have hroom := Pool.room_checkOut hchosen
      have hle := (Call.seeking patience waited : Call R).roused_le_one
      refine .inr ⟨rfl, ?_⟩
      show (pool.checkOut chosen rest).room + _ ≤ pool.room + 0
      omega
  | reserved patience waited now hopen hnone hroom =>
      have hle := (Call.seeking patience waited : Call R).roused_le_one
      refine .inr ⟨rfl, ?_⟩
      simp only [Pool.room, Pool.size] at hroom ⊢
      omega
  | waits patience waited now hopen hnone hfull => exact .inl (Pool.room_eq_zero hnone hfull)
  | givesUp waited now hopen hnone hfull => exact .inl (Pool.room_eq_zero hnone hfull)
  | timesOut deadline timeout waited now hopen hnone hfull =>
      exact .inl (Pool.room_eq_zero hnone hfull)
  | kept made now hopen hnew =>
      exact .inr ⟨rfl, Pool.room_track_le hnew now⟩
  | scanned now hopen hperm hnodup htracked =>
      exact .inr ⟨rfl, Nat.le_of_eq (Pool.room_collect hwithin hperm hnodup htracked)⟩
  | overslept => exact .inr ⟨rfl, Nat.le_succ _⟩
  | raised text call pool hasked =>
      obtain rfl | ⟨patience, resource, rfl⟩ | ⟨resource, next, rfl⟩ := hasked <;>
        exact .inr ⟨rfl, Nat.le_refl _⟩
  | failed | duplicate | forgot | forgotAgain | pooled | shut => cases hwake
  | _ => exact .inr ⟨rfl, Nat.le_refl _⟩

theorem room_of_one (htransition : Transition move call pool advanced) (hwithin : pool.Within)
    (hwake : advanced.wake = .one) :
    advanced.call.asleep = call.asleep ∧ advanced.call.roused = call.roused ∧
      advanced.pool.room ≤ pool.room + 1 := by
  cases htransition with
  | failed | duplicate => exact ⟨rfl, rfl, pool.room_unreserve_le⟩
  | forgot patience gone now htracked =>
      exact ⟨rfl, rfl, Pool.room_untrack_le hwithin.nodup_keys htracked⟩
  | forgotAgain => exact ⟨rfl, rfl, Nat.le_succ _⟩
  | pooled returned reading now hopen hout =>
      exact ⟨rfl, rfl, Nat.le_of_eq (pool.room_giveBack returned reading)⟩
  | _ => cases hwake

/-- What closes a pool wakes everyone, unless more resources are available than tracked. -/
theorem wake_of_shut (htransition : Transition move call pool advanced)
    (hopen : pool.closed = false) (hclosed : advanced.pool.closed = true) :
    call.asleep = 0 ∧
      (pool.available.length ≤ pool.size ∧ advanced.wake = .everyone ∨
        pool.size < pool.available.length ∧ advanced.wake = .nobody ∧
          advanced.call = .done (.aborted .countUnderflow)) := by
  cases htransition with
  | shut now _ hcount => exact ⟨rfl, .inl ⟨hcount, rfl⟩⟩
  | cutShort now _ hcount => exact ⟨rfl, .inr ⟨hcount, rfl, rfl⟩⟩
  | scanned now _ hperm =>
      rw [Pool.foldl_untrack_eq] at hclosed
      cases hopen.symm.trans hclosed
  | _ => cases hopen.symm.trans hclosed

theorem asleep_of_closed (htransition : Transition move call pool advanced)
    (hclosed : pool.closed = true) : advanced.call.asleep = 0 := by
  cases htransition with
  | begin request => cases request <;> rfl
  | waits patience waited now hopen => simp [hopen] at hclosed
  | _ => rfl

end Transition

namespace System

/-- How many callers sleep until there is a slot for them. -/
def asleep (system : System R) : Nat := tally (fun caller => caller.call.asleep) system.callers

def roused (system : System R) : Nat := tally (fun caller => caller.call.roused) system.callers

/-- While anyone sleeps, every slot that is free is on its way to somebody who was woken. -/
structure Wakeful (system : System R) : Prop where
  bounded : system.Bounded
  room_le : system.pool.closed = false → 0 < system.asleep → system.pool.room ≤ system.roused

end System

omit [DecidableEq R] in
theorem tally_wake_one {sleeper : Nat} {callers awake : List (Caller R)}
    (hwoken : wake? .one sleeper callers = some awake) :
    tally (fun caller => caller.call.asleep) awake = 0 ∨
      tally (fun caller => caller.call.asleep) awake + 1 =
          tally (fun caller => caller.call.asleep) callers ∧
        tally (fun caller => caller.call.roused) awake =
          tally (fun caller => caller.call.roused) callers + 1 := by
  rw [wake?_eq] at hwoken
  rcases Waking.wake_one hwoken with ⟨hnone, rfl⟩ | ⟨caller, hsleeper, hparked, rfl⟩
  · left
    apply Tally.tally_eq_zero_iff.mpr
    intro caller hcaller
    have hawake := hnone caller hcaller
    obtain ⟨call, held⟩ := caller
    cases call with
    | parked patience => cases hawake
    | _ => rfl
  · obtain ⟨call, held⟩ := caller
    cases call with
    | parked patience =>
        have hasleep := Tally.tally_set (fun caller => caller.call.asleep) hsleeper
          (Caller.woken ⟨.parked patience, held⟩)
        have hroused := Tally.tally_set (fun caller => caller.call.roused) hsleeper
          (Caller.woken ⟨.parked patience, held⟩)
        exact .inr ⟨hasleep, hroused⟩
    | _ => cases hparked

omit [DecidableEq R] in
theorem tally_wake_everyone {sleeper : Nat} {callers awake : List (Caller R)}
    (hwoken : wake? .everyone sleeper callers = some awake) :
    tally (fun caller => caller.call.asleep) awake = 0 := by
  cases hwoken
  apply Tally.tally_eq_zero_iff.mpr
  intro caller hcaller
  obtain ⟨sleeper, -, rfl⟩ := List.mem_map.mp hcaller
  exact sleeper.call.asleep_woken

omit [DecidableEq R] in
theorem tally_wake_le {wake : Wake} {sleeper : Nat} {callers awake : List (Caller R)}
    (hwoken : wake? wake sleeper callers = some awake) :
    tally (fun caller => caller.call.asleep) awake ≤
      tally (fun caller => caller.call.asleep) callers := by
  cases wake with
  | nobody =>
      cases hwoken
      exact Nat.le_refl _
  | one =>
      rcases tally_wake_one hwoken with hzero | ⟨hless, -⟩
      · omega
      · omega
  | everyone =>
      rw [tally_wake_everyone hwoken]
      exact Nat.zero_le _

namespace System

omit [DecidableEq R] in
theorem wakeful_start (options : ElasticOptions) (counter : Counter) (count : Nat) :
    (start options counter count : System R).Wakeful where
  bounded := bounded_start options counter count
  room_le := by
    intro _ hasleep
    have hnone : (start options counter count : System R).asleep = 0 := by
      apply Tally.tally_eq_zero_iff.mpr
      intro caller hcaller
      rw [eq_of_mem_start hcaller]
      rfl
    omega

namespace Stepped

variable {before after : System R} {event : Event R} {caller : Caller R}
  {advanced : Call.Advanced R}

theorem wakeful (hstepped : Stepped before event after caller advanced)
    (hwakeful : before.Wakeful) : after.Wakeful where
  bounded := hstepped.bounded hwakeful.bounded
  room_le := by
    intro hopen hasleep
    have hbefore : before.pool.closed = false := by
      apply eq_false_of_ne_true
      intro hclosed
      have hstays := hstepped.transition.closed_of_closed hclosed
      rw [hstepped.pool_eq] at hopen
      cases hopen.symm.trans hstays
    have hroom := hwakeful.room_le hbefore
    have hwithin := hwakeful.bounded.within
    have hmoved := Tally.tally_set (fun caller => caller.call.asleep) hstepped.caller_at
      (caller.follow event.move advanced.call)
    have hlooked := Tally.tally_set (fun caller => caller.call.roused) hstepped.caller_at
      (caller.follow event.move advanced.call)
    have hwoken := hstepped.woken
    rw [hstepped.pool_eq] at hopen ⊢
    simp only [asleep, roused, Caller.call_follow] at hasleep hroom hmoved hlooked ⊢
    -- A call that goes to sleep finds no room at all; any other keeps the bound it found.
    cases hwake : advanced.wake with
    | nobody =>
        rw [hwake] at hwoken
        have hcallers := Option.some.inj hwoken
        rw [← hcallers] at hasleep ⊢
        rcases hstepped.transition.room_of_nobody hwithin hopen hwake with hzero | ⟨hawake, hle⟩
        · omega
        · omega
    | one =>
        rw [hwake] at hwoken
        obtain ⟨hsleeps, hlooks, hle⟩ := hstepped.transition.room_of_one hwithin hwake
        rcases tally_wake_one hwoken with hzero | ⟨hless, hmore⟩
        · omega
        · omega
    | everyone =>
        rw [hwake] at hwoken
        have hzero := tally_wake_everyone hwoken
        omega

theorem asleep_of_shut (hstepped : Stepped before event after caller advanced)
    (hopen : before.pool.closed = false) (hclosed : after.pool.closed = true) :
    before.pool.available.length ≤ before.pool.size ∧ after.asleep = 0 ∨
      before.pool.size < before.pool.available.length ∧ after.asleep = before.asleep ∧
        advanced.call = .done (.aborted .countUnderflow) := by
  have hwoken := hstepped.woken
  rw [hstepped.pool_eq] at hclosed
  obtain ⟨hawake, ⟨hcount, hwake⟩ | ⟨hcount, hwake, haborted⟩⟩ :=
    hstepped.transition.wake_of_shut hopen hclosed
  · rw [hwake] at hwoken
    exact .inl ⟨hcount, tally_wake_everyone hwoken⟩
  · rw [hwake] at hwoken
    have hcallers := Option.some.inj hwoken
    have hmoved := Tally.tally_set (fun caller => caller.call.asleep) hstepped.caller_at
      (caller.follow event.move advanced.call)
    have hdone : advanced.call.asleep = 0 := by rw [haborted]; rfl
    simp only [hcallers, Caller.call_follow] at hmoved
    refine .inr ⟨hcount, ?_, haborted⟩
    unfold asleep
    omega

theorem asleep_of_closed (hstepped : Stepped before event after caller advanced)
    (hclosed : before.pool.closed = true) (hawake : before.asleep = 0) : after.asleep = 0 := by
  have hmoved := Tally.tally_set (fun caller => caller.call.asleep) hstepped.caller_at
    (caller.follow event.move advanced.call)
  have hcall := hstepped.transition.asleep_of_closed hclosed
  have hle := tally_wake_le hstepped.woken
  simp only [asleep, Caller.call_follow] at hmoved hawake ⊢
  omega

end Stepped

theorem Reaches.wakeful {law : Law R} {options : ElasticOptions} {counter : Counter} {count : Nat}
    {system : System R} (hreaches : Reaches law (start options counter count) system) :
    system.Wakeful :=
  hreaches.stepwise Wakeful (wakeful_start options counter count)
    fun hwakeful _ hstepped => hstepped.wakeful hwakeful

theorem Reaches.asleep_of_closed {law : Law R} {system later : System R}
    (hreaches : Reaches law system later) (hclosed : system.pool.closed = true)
    (hawake : system.asleep = 0) : later.asleep = 0 := by
  refine (hreaches.stepwise (fun system => system.pool.closed = true ∧ system.asleep = 0)
    ⟨hclosed, hawake⟩ ?_).2
  intro before after event caller advanced hkept _ hstepped
  obtain ⟨hclosed, hawake⟩ := hkept
  refine ⟨hstepped.pool_eq ▸ hstepped.transition.closed_of_closed hclosed, ?_⟩
  exact hstepped.asleep_of_closed hclosed hawake

theorem Reaches.asleep_of_undisputed {options : ElasticOptions} {counter : Counter} {count : Nat}
    {system : System R} (hreaches : Reaches undisputed (start options counter count) system) :
    system.pool.closed = true → system.asleep = 0 := by
  refine (hreaches.stepwise
    (fun system => system.Untangled ∧ (system.pool.closed = true → system.asleep = 0))
    ⟨untangled_start options counter count, fun hclosed => by cases hclosed⟩ ?_).2
  intro before after event caller advanced hkept hundisputed hstepped
  obtain ⟨huntangled, hawake⟩ := hkept
  refine ⟨hstepped.untangled huntangled hundisputed, fun hclosed => ?_⟩
  cases hbefore : before.pool.closed with
  | true => exact hstepped.asleep_of_closed hbefore (hawake hbefore)
  | false =>
      have hcount := huntangled.consistent.available_length_le
      rcases hstepped.asleep_of_shut hbefore hclosed with ⟨-, hawake⟩ | ⟨hless, -⟩
      · exact hawake
      · omega

/-- No wakeup is lost: while anyone sleeps in an open pool, every slot that is free is matched by a
caller that was woken and has not looked at the pool again. Closing leaves nobody asleep, just as
long as no more resources are available than tracked; otherwise it wakes nobody at all. -/
theorem no_lost_wakeup {options : ElasticOptions} {counter : Counter} {count : Nat}
    {system : System R} (hreaches : Reaches anyhow (start options counter count) system) :
    (system.pool.closed = false → 0 < system.asleep →
      system.pool.available.length +
        (options.maxCapacity - system.pool.size - system.pool.creating) ≤ system.roused) ∧
    (system.pool.closed = false → 0 < system.asleep → system.roused = 0 →
      system.pool.available = [] ∧
        system.pool.size + system.pool.creating = options.maxCapacity) ∧
    (system.pool.closed = false → ∀ event after, system.step? event = some after →
      after.pool.closed = true →
      (system.pool.available.length ≤ system.pool.size →
        ∀ later, Reaches anyhow after later → later.asleep = 0) ∧
      (system.pool.size < system.pool.available.length →
        after.asleep = system.asleep ∧
          ∃ closer, after.callers[event.caller]? = some closer ∧
            closer.call = .done (.aborted .countUnderflow))) ∧
    (Reaches undisputed (start options counter count) system → system.pool.closed = true →
      system.asleep = 0) := by
  have hwakeful := hreaches.wakeful
  have hmax : system.pool.maxCapacity = options.maxCapacity := hreaches.maxCapacity_eq
  have hroom : system.pool.closed = false → 0 < system.asleep →
      system.pool.available.length +
        (options.maxCapacity - system.pool.size - system.pool.creating) ≤ system.roused :=
    hmax ▸ hwakeful.room_le
  refine ⟨hroom, ?_, ?_, ?_⟩
  · intro hopen hasleep hnone
    have hle := hroom hopen hasleep
    have hwithin := hwakeful.bounded.within.size_le
    refine ⟨List.eq_nil_of_length_eq_zero (by omega), by omega⟩
  · intro hopen event after hstep hclosed
    obtain ⟨caller, advanced, hstepped⟩ := stepped_of_step? hstep
    rcases hstepped.asleep_of_shut hopen hclosed with ⟨hcount, hawake⟩ | ⟨hcount, hsame, haborted⟩
    · refine ⟨fun _ later hlater => hlater.asleep_of_closed hclosed hawake, fun hless => ?_⟩
      omega
    · refine ⟨fun hle => ?_, fun _ => ⟨hsame, hstepped.done_after haborted⟩⟩
      omega
  · exact fun hundisputed => hundisputed.asleep_of_undisputed

/-- Two callers sleep while a third has the only resource; when it gives that back, one of them is
woken. It is about to close the pool then. -/
def handover : List (Event Nat) :=
  [⟨0, .begin .acquire 0, 0⟩, ⟨0, .turn 0, 0⟩, ⟨0, .make (.ok 7), 0⟩, ⟨0, .turn 0, 0⟩,
    ⟨1, .begin .acquire 1, 0⟩, ⟨1, .turn 1, 0⟩, ⟨2, .begin .acquire 1, 0⟩, ⟨2, .turn 1, 0⟩,
    ⟨0, .begin (.release 7) 2, 0⟩, ⟨0, .turn 2, 2⟩, ⟨0, .begin .close 3, 0⟩]

theorem no_lost_wakeup_at_handover : ∃ system after : System Nat,
    run? anyhow handover (start { maxCapacity := 1 } .silent 3) = some system ∧
      system.asleep = 1 ∧ system.roused = 1 ∧
      system.pool.available.length + (1 - system.pool.size - system.pool.creating) ≤ 1 ∧
      system.step? ⟨0, .turn 3, 0⟩ = some after ∧ after.pool.closed = true ∧
      ∀ later, Reaches anyhow after later → later.asleep = 0 := by
  have hruns : (run? anyhow handover (start { maxCapacity := 1 } .silent 3)).bind (fun system =>
      (system.step? ⟨0, .turn 3, 0⟩).map fun after =>
        ((system.pool.closed, after.pool.closed), (system.asleep, system.roused),
          decide (system.pool.available.length ≤ system.pool.size))) =
      some ((false, true), (1, 1), true) := by decide
  obtain ⟨system, hrun, hafter⟩ := Option.bind_eq_some_iff.mp hruns
  obtain ⟨after, hstep, hseen⟩ := Option.map_eq_some_iff.mp hafter
  simp only [Prod.mk.injEq, decide_eq_true_eq] at hseen
  obtain ⟨⟨hopen, hclosed⟩, ⟨hasleep, hroused⟩, hcount⟩ := hseen
  obtain ⟨hroom, -, hcloses, -⟩ := no_lost_wakeup (Runs.reaches_of_run? hrun)
  have hle := hroom hopen (by omega)
  have hawake := (hcloses hopen _ after hstep hclosed).1 hcount
  exact ⟨system, after, hrun, hasleep, hroused, hroused ▸ hle, hstep, hclosed, hawake⟩

end System

/-! A sleeper that is not woken when the pool closes may never be. -/

namespace Call

/-- A call that may come to wake others also after its pool is closed. -/
def mayWake : Call R → Bool
  | .making => true
  | .registering _ => true
  | .checking _ _ => true
  | .condemned _ _ => true
  | _ => false

omit [DecidableEq R] in
theorem mayWake_woken (call : Call R) : call.woken.mayWake = call.mayWake := by
  cases call <;> rfl

end Call

namespace Transition

variable {move : Move R} {call : Call R} {pool : Pool R} {advanced : Call.Advanced R}

theorem nobody_of_closed (htransition : Transition move call pool advanced)
    (hclosed : pool.closed = true) (hquiet : call.mayWake = false) :
    advanced.wake = .nobody ∧ advanced.call.mayWake = false := by
  cases htransition with
  | begin request now outcome => cases request <;> exact ⟨rfl, rfl⟩
  | granted _ _ _ hopen | reserved _ _ _ hopen | waits _ _ _ hopen | pooled _ _ _ hopen
  | shut _ hopen => cases hopen.symm.trans hclosed
  | made | failed | duplicate | passed | condemned | forgot | forgotAgain => cases hquiet
  | _ => exact ⟨rfl, rfl⟩

theorem not_parked_forever (htransition : Transition move call pool advanced) :
    call ≠ .parked .forever := by
  rintro rfl
  cases htransition with
  | raised text call pool hasked =>
      rcases hasked with hmaking | ⟨_, _, hchecking⟩ | ⟨_, _, hclosing⟩
      · cases hmaking
      · cases hchecking
      · cases hclosing

end Transition

namespace System

/-- The caller of a number sleeps without a deadline, and nobody is left who could wake it. -/
structure Forsaken (index : Nat) (system : System R) : Prop where
  closed : system.pool.closed = true
  quiet : ∀ caller ∈ system.callers, caller.call.mayWake = false
  parked : (system.callers[index]?).map Caller.call = some (.parked .forever)

theorem Stepped.forsaken {before after : System R} {event : Event R} {caller : Caller R}
    {advanced : Call.Advanced R} (hstepped : Stepped before event after caller advanced)
    {index : Nat} (hforsaken : before.Forsaken index) : after.Forsaken index := by
  have hquiet := hforsaken.quiet caller hstepped.mem_callers
  obtain ⟨hwake, hstays⟩ := hstepped.transition.nobody_of_closed hforsaken.closed hquiet
  constructor
  case closed => exact hstepped.pool_eq ▸ hstepped.transition.closed_of_closed hforsaken.closed
  case quiet =>
    refine hstepped.forall_callers (fun other hother => ?_) hforsaken.quiet hstays
    exact other.call.mayWake_woken.trans hother
  case parked =>
    have hwoken := hstepped.woken
    rw [hwake] at hwoken
    have hcallers := Option.some.inj hwoken
    have hne : event.caller ≠ index := by
      rintro rfl
      have hparked := hforsaken.parked
      rw [hstepped.caller_at] at hparked
      exact hstepped.transition.not_parked_forever (Option.some.inj hparked)
    rw [← hcallers, List.getElem?_set_ne hne]
    exact hforsaken.parked

omit [DecidableEq R] in
theorem Forsaken.asleep_pos {system : System R} {index : Nat} (hforsaken : system.Forsaken index) :
    0 < system.asleep := by
  obtain ⟨caller, hcaller, hcall⟩ := Option.map_eq_some_iff.mp hforsaken.parked
  have hle := Tally.le_tally (fun caller => caller.call.asleep) (List.mem_of_getElem? hcaller)
  rw [hcall] at hle
  exact hle

/-- Three callers sleep when the resource 7 is given back by one that has it no more, and the check
of 7 fails: that wakes two of them, and leaves 7 available and not tracked. -/
def disowned : List (Event Nat) :=
  [⟨0, .begin .acquire 0, 0⟩, ⟨0, .turn 0, 0⟩, ⟨0, .make (.ok 7), 0⟩, ⟨0, .turn 0, 0⟩,
    ⟨0, .begin (.release 7) 1, 0⟩, ⟨0, .turn 1, 0⟩, ⟨1, .begin .tryAcquire 1, 0⟩, ⟨1, .turn 1, 0⟩,
    ⟨2, .begin .acquire 1, 0⟩, ⟨2, .turn 1, 0⟩, ⟨3, .begin .acquire 1, 0⟩, ⟨3, .turn 1, 0⟩,
    ⟨4, .begin .acquire 1, 0⟩, ⟨4, .turn 1, 0⟩, ⟨0, .begin (.release 7) 2, 0⟩, ⟨0, .turn 2, 2⟩,
    ⟨1, .check false, 0⟩, ⟨1, .turn 3, 3⟩, ⟨5, .begin .close 4, 0⟩]

theorem forsaken_of_disowned : ∃ system after : System Nat,
    run? anyhow disowned (start { maxCapacity := 1 } .silent 6) = some system ∧
      system.pool.closed = false ∧ system.step? ⟨5, .turn 4, 0⟩ = some after ∧
      after.pool.closed = true ∧
      (after.callers[5]?).map Caller.call = some (.done (.aborted .countUnderflow)) ∧
      ∀ later, Reaches anyhow after later → 0 < later.asleep ∧
        (later.callers[4]?).map Caller.call = some (.parked .forever) := by
  have hruns : (run? anyhow disowned (start { maxCapacity := 1 } .silent 6)).bind (fun system =>
      (system.step? ⟨5, .turn 4, 0⟩).map fun after =>
        ((system.pool.closed, after.pool.closed),
          after.callers.all (fun caller => !caller.call.mayWake),
          (after.callers[4]?).map Caller.call, (after.callers[5]?).map Caller.call)) =
      some ((false, true), true, some (.parked .forever),
        some (.done (.aborted .countUnderflow))) := by decide
  obtain ⟨system, hrun, hafter⟩ := Option.bind_eq_some_iff.mp hruns
  obtain ⟨after, hstep, hseen⟩ := Option.map_eq_some_iff.mp hafter
  simp only [Prod.mk.injEq, List.all_eq_true, Bool.not_eq_true'] at hseen
  obtain ⟨⟨hopen, hclosed⟩, hquiet, hparked, haborted⟩ := hseen
  refine ⟨system, after, hrun, hopen, hstep, hclosed, haborted, fun later hlater => ?_⟩
  have hforsaken : later.Forsaken 4 := hlater.stepwise (Forsaken 4) ⟨hclosed, hquiet, hparked⟩
    fun hforsaken _ hstepped => hstepped.forsaken hforsaken
  exact ⟨hforsaken.asleep_pos, hforsaken.parked⟩

end System

end Pooling.Elastic
