import Pooling.Proofs.Fixed.Closing
import Pooling.Proofs.Fixed.Places

/-!
Sleeping callers of a fixed pool: whatever there is to have while somebody sleeps is matched by a
caller that was woken, or by one that failed to make a resource and is about to wake another.
-/

namespace Pooling.Fixed

variable {R : Type}

namespace Call

/-- One for a call that sleeps until it can have a resource or a slot. -/
def asleep : Call R → Nat
  | parked _ => 1
  | _ => 0

/-- One for a call that has the lock and found nothing: it times out or goes to sleep. -/
def drowsy : Call R → Nat
  | inside (.waiting _) => 1
  | _ => 0

/-- One for a call that has the lock and found the queue empty. -/
def dry : Call R → Nat
  | inside (.rereserving _) => 1
  | inside (.waiting _) => 1
  | _ => 0

/-- One for a call that has given up its slot, and has not told anybody yet. -/
def announcing : Call R → Nat
  | entering (.announcing _) => 1
  | inside (.announcing _) => 1
  | _ => 0

def within : Call R → Nat
  | inside _ => 1
  | _ => 0

/-- A call takes the lock only to begin with one of the things that are done under it. -/
def ByTheDoor : Call R → Prop
  | entering (.rechecking _) => True
  | entering (.announcing _) => True
  | entering (.deciding _) => True
  | entering .shutting => True
  | entering _ => False
  | _ => True

theorem ByTheDoor.woken {call : Call R} (hdoor : call.ByTheDoor) : call.woken.ByTheDoor := by
  cases call <;> exact hdoor

@[simp] theorem drowsy_woken (call : Call R) : call.woken.drowsy = call.drowsy := by
  cases call <;> rfl

@[simp] theorem dry_woken (call : Call R) : call.woken.dry = call.dry := by
  cases call <;> rfl

@[simp] theorem within_woken (call : Call R) : call.woken.within = call.within := by
  cases call <;> rfl

theorem drowsy_le_dry (call : Call R) : call.drowsy ≤ call.dry := by
  unfold drowsy
  split
  next => exact Nat.le_refl _
  next => exact Nat.zero_le _

theorem dry_le_within (call : Call R) : call.dry ≤ call.within := by
  unfold dry
  split
  next => exact Nat.le_refl _
  next => exact Nat.le_refl _
  next => exact Nat.zero_le _

theorem within_le_one (call : Call R) : call.within ≤ 1 := by
  unfold within
  split <;> omega

theorem within_eq_zero {call : Call R} (houtside : call.isInside = false) : call.within = 0 := by
  cases call with
  | inside => cases houtside
  | _ => rfl

end Call

namespace Caller

/-- One for a caller that a signal has woken, and that has not looked at the pool again. -/
def summoned (caller : Caller R) : Nat := if caller.called then 1 else 0

/-- A caller is marked as called only until it has looked. -/
def Attentive (caller : Caller R) : Prop := caller.called = true → caller.call.isLooking = true

theorem Attentive.woken {caller : Caller R} (hattentive : caller.Attentive) :
    caller.woken.Attentive := by
  obtain ⟨call, held, called⟩ := caller
  intro hcalled
  cases call with
  | parked patience => rfl
  | _ => exact hattentive (by simpa [Caller.woken, isParked, Call.isParked] using hcalled)

theorem attentive_follow [DecidableEq R] (caller : Caller R) (move : Move R) (call : Call R) :
    (caller.follow move call).Attentive :=
  fun hcalled => (Bool.and_eq_true_iff.mp hcalled).2

theorem Attentive.summoned_eq_zero {caller : Caller R} (hattentive : caller.Attentive)
    (hblind : caller.call.isLooking = false) : caller.summoned = 0 := by
  apply if_neg
  intro hcalled
  rw [hattentive hcalled] at hblind
  cases hblind

theorem summoned_le_one (caller : Caller R) : caller.summoned ≤ 1 := by
  unfold summoned
  split <;> omega

theorem summoned_le_follow [DecidableEq R] (caller : Caller R) (move : Move R) (call : Call R)
    (hattentive : caller.Attentive) (hkeeps : caller.call.isLooking = true → call.isLooking = true) :
    caller.summoned ≤ (caller.follow move call).summoned := by
  unfold summoned
  split
  next hcalled =>
    have hlooking := hkeeps (hattentive hcalled)
    simp [follow, hcalled, hlooking]
  next => exact Nat.zero_le _

/-- How many are woken for what a caller leaves to others. -/
def promise (caller : Caller R) : Nat := caller.summoned + caller.call.announcing

end Caller

namespace Pool

/-- What a pool could give to callers at once: its queue, and the room for new resources. -/
def room (pool : Pool R) : Nat := pool.queue.length + (pool.maxCapacity - pool.size)

theorem room_eq_zero {pool : Pool R} (hnone : pool.queue = [])
    (hfull : pool.maxCapacity ≤ pool.size) : pool.room = 0 := by
  rw [room, hnone, List.length_nil]
  omega

theorem room_pop {pool : Pool R} {resource : R} {rest : List R}
    (hqueue : pool.queue = resource :: rest) :
    ({ pool with queue := rest } : Pool R).room + 1 = pool.room := by
  rw [room, room, hqueue, List.length_cons]
  show rest.length + (pool.maxCapacity - pool.size) + 1 = _
  omega

theorem room_push (pool : Pool R) (resource : R) : (pool.push resource).room = pool.room + 1 := by
  show (pool.queue ++ [resource]).length + (pool.maxCapacity - pool.size) = _
  rw [room, List.length_append, List.length_singleton]
  omega

theorem room_reserve {pool : Pool R} (hroom : pool.size < pool.maxCapacity)
    (hmax : pool.maxCapacity < UInt64.size) :
    ({ pool with capacity := pool.capacity + 1 } : Pool R).room + 1 = pool.room := by
  have hsize := size_reserve hroom hmax
  rw [room, hsize, room]
  show pool.queue.length + (pool.maxCapacity - (pool.size + 1)) + 1 = _
  omega

theorem room_giveUpSlot_le {pool : Pool R} (hslot : 0 < pool.size) :
    pool.giveUpSlot.room ≤ pool.room + 1 := by
  have hsize := size_giveUpSlot hslot
  rw [room, room]
  show pool.queue.length + (pool.maxCapacity - pool.giveUpSlot.size) ≤ _
  omega

/-- The slots that are reserved are among those counted, and these are no more than there may be. -/
structure Within (pool : Pool R) (reserved : Nat) : Prop where
  reserved_le : reserved ≤ pool.size
  size_le : pool.size ≤ pool.maxCapacity

end Pool

namespace Transition

variable {move : Move R} {call : Call R} {pool : Pool R} {advanced : Call.Advanced R}

theorem open_of_open (htransition : Transition move call pool advanced)
    (hopen : advanced.pool.closed = false) : pool.closed = false := by
  apply eq_false_of_ne_true
  intro hclosed
  rw [htransition.closed_of_closed hclosed] at hopen
  cases hopen

/-- As long as a pool is open, only a creation that failed takes a slot back. -/
theorem reserved_le (htransition : Transition move call pool advanced)
    (hpast : call.PastShutting → pool.closed = true) (hopen : advanced.pool.closed = false)
    (hmax : pool.maxCapacity < UInt64.size) (hwithin : pool.Within call.reserved) :
    pool.size + advanced.call.reserved ≤ advanced.pool.size + call.reserved ∧
      advanced.pool.size ≤ pool.maxCapacity := by
  have hbefore := htransition.open_of_open hopen
  have hsame := hwithin.size_le
  cases htransition with
  | begin request => cases request <;> exact ⟨Nat.le_refl _, hsame⟩
  | reserved patience now hroom | rereserved patience now hroom =>
      rw [Pool.size_reserve hroom hmax]
      exact ⟨Nat.le_refl _, hroom⟩
  | failed source =>
      have hsize := Pool.size_giveUpSlot hwithin.reserved_le
      refine ⟨Nat.le_of_eq hsize.symm, ?_⟩
      show pool.giveUpSlot.size ≤ pool.maxCapacity
      omega
  | left | struckOff => simp [hpast trivial] at hbefore
  | kept => exact ⟨Nat.le_succ _, hsame⟩
  | raised => exact ⟨Nat.le_add_right _ _, hsame⟩
  | _ => exact ⟨Nat.le_refl _, hsame⟩

theorem within_le (htransition : Transition move call pool advanced)
    (houtside : call.isEntering = false) : advanced.call.within ≤ call.within := by
  cases htransition with
  | begin request => cases request <;> exact Nat.le_refl _
  | entered => cases houtside
  | raised => exact Nat.zero_le _
  | cancelled | repopped | rereserved | timesOut | sleeps | announced | pooled | late | shutAgain |
      dismissed => exact Nat.zero_le _
  | _ => exact Nat.le_refl _

theorem byTheDoor (htransition : Transition move call pool advanced) :
    advanced.call.ByTheDoor := by
  cases htransition with
  | begin request => cases request <;> trivial
  | _ => trivial

/-- A queue that was found empty stays so as long as the lock is held. -/
theorem dry_cases (htransition : Transition move call pool advanced) (hdoor : call.ByTheDoor) :
    advanced.pool.queue = [] ∨ call.within = 1 ∧ advanced.call.dry = 0 ∨
      advanced.call.dry ≤ call.dry ∧ advanced.pool.queue <:+ pool.queue := by
  cases htransition with
  | begin request => cases request <;> exact .inr (.inr ⟨Nat.le_refl _, List.suffix_refl _⟩)
  | popped patience now hqueue =>
      exact .inr (.inr ⟨Nat.le_refl _, hqueue ▸ List.suffix_cons _ _⟩)
  | entered locked =>
      cases locked with
      | rechecking | announcing | deciding | shutting =>
          exact .inr (.inr ⟨Nat.le_refl _, List.suffix_refl _⟩)
      | _ => exact hdoor.elim
  | stillDry patience now hnone => exact .inl hnone
  | stillFull => exact .inr (.inr ⟨Nat.le_refl _, List.suffix_refl _⟩)
  | cancelled | rechecked | repopped | rereserved | timesOut | sleeps | announced | pooled | late |
      shutAgain | shut | drew | emptied | struckOff | dismissed => exact .inr (.inl ⟨rfl, rfl⟩)
  | raised => exact .inr (.inr ⟨Nat.zero_le _, List.suffix_refl _⟩)
  | _ => exact .inr (.inr ⟨Nat.le_refl _, List.suffix_refl _⟩)

variable [DecidableEq R]

omit [DecidableEq R] in
/-- Who goes to sleep has found nothing to have, at a moment when he held the lock. -/
theorem sleepers_le (htransition : Transition move call pool advanced) (hdoor : call.ByTheDoor) :
    advanced.call.asleep + advanced.call.drowsy ≤ call.asleep + call.drowsy ∨
      0 < call.dry ∧ pool.maxCapacity ≤ pool.size ∧ advanced.pool = pool := by
  cases htransition with
  | begin request => cases request <;> exact .inl (Nat.le_refl _)
  | entered locked =>
      cases locked with
      | waiting => exact hdoor.elim
      | _ => exact .inl (Nat.le_refl _)
  | stillFull patience now hfull => exact .inr ⟨Nat.one_pos, hfull, rfl⟩
  | timesOut | overslept | raised => exact .inl (Nat.zero_le _)
  | _ => exact .inl (Nat.le_refl _)

/-- A move that wakes nobody makes no room without promising to wake somebody. -/
theorem room_of_nobody {caller : Caller R} (htransition : Transition move caller.call pool advanced)
    (hattentive : caller.Attentive) (hpast : caller.call.PastShutting → pool.closed = true)
    (hmax : pool.maxCapacity < UInt64.size) (hwithin : pool.Within caller.call.reserved)
    (hdry : 0 < caller.call.dry → pool.queue = []) (hopen : advanced.pool.closed = false)
    (hwake : advanced.wake = .nobody) :
    advanced.pool.room + caller.promise ≤
      pool.room + (caller.follow move advanced.call).promise ∨ advanced.pool.room = 0 := by
  have hbefore := htransition.open_of_open hopen
  have hkeeps := caller.summoned_le_follow move advanced.call hattentive
  have hone := caller.summoned_le_one
  simp only [Caller.promise, Caller.call_follow]
  generalize caller.summoned = summoned at *
  generalize (caller.follow move advanced.call).summoned = kept at *
  generalize caller.call = call at *
  cases htransition with
  | begin request =>
      have hsame := hkeeps nofun
      cases request <;> exact .inl (Nat.add_le_add_left hsame _)
  | @popped patience now _ resource rest hqueue =>
      have hroom := Pool.room_pop hqueue
      have hsame := hkeeps nofun
      left
      show ({ pool with queue := rest } : Pool R).room + (summoned + 0) ≤ pool.room + (kept + 0)
      omega
  | @repopped patience now _ resource rest hqueue =>
      have hroom := Pool.room_pop hqueue
      left
      show ({ pool with queue := rest } : Pool R).room + (summoned + 0) ≤ pool.room + (kept + 0)
      omega
  | reserved patience now hroom | rereserved patience now hroom =>
      have hroom := Pool.room_reserve hroom hmax
      left
      show ({ pool with capacity := pool.capacity + 1 } : Pool R).room + (summoned + 0) ≤
        pool.room + (kept + 0)
      omega
  | entered locked =>
      cases locked with
      | rechecking | repopping | rereserving =>
          exact .inl (Nat.add_le_add_left (hkeeps fun _ => rfl) _)
      | announcing => exact .inl (Nat.add_le_add_left (Nat.add_le_add_right (hkeeps nofun) 1) _)
      | _ => exact .inl (Nat.add_le_add_left (hkeeps nofun) _)
  | cancelled patience now hclosed | late resource now hclosed => simp [hbefore] at hclosed
  | rechecked | stillDry =>
      have hsame := hkeeps fun _ => rfl
      exact .inl (Nat.add_le_add_left hsame _)
  | stillFull patience now hfull => exact .inr (Pool.room_eq_zero (hdry Nat.one_pos) hfull)
  | failed source now =>
      have hroom := Pool.room_giveUpSlot_le hwithin.reserved_le
      have hsame := hkeeps nofun
      left
      show pool.giveUpSlot.room + (summoned + 0) ≤ pool.room + (kept + 1)
      omega
  | shut => cases hopen
  | left | drew | struckOff => simp [hpast trivial] at hbefore
  | overslept => exact .inl (Nat.add_le_add_left (hkeeps nofun) _)
  | raised text call pool hasked =>
      obtain rfl | ⟨resource, next, rfl⟩ := hasked <;>
        exact .inl (Nat.add_le_add_left (hkeeps nofun) _)
  | announced | pooled | dismissed => cases hwake
  | _ => exact .inl (Nat.add_le_add_left (hkeeps nofun) _)

/-- A move that wakes somebody is made under the lock, and makes room for one at most. -/
theorem room_of_one {caller : Caller R} (htransition : Transition move caller.call pool advanced)
    (hattentive : caller.Attentive) (hwake : advanced.wake = .one) :
    caller.call.within = 1 ∧ caller.call.asleep + caller.call.drowsy = 0 ∧
      advanced.call.asleep + advanced.call.drowsy = 0 ∧
      advanced.pool.room + caller.promise ≤
        pool.room + 1 + (caller.follow move advanced.call).promise := by
  have hblind := hattentive.summoned_eq_zero
  simp only [Caller.promise, Caller.call_follow]
  generalize caller.summoned = summoned at *
  generalize (caller.follow move advanced.call).summoned = kept at *
  generalize caller.call = call at *
  cases htransition with
  | announced source now =>
      have hnone := hblind rfl
      refine ⟨rfl, rfl, rfl, ?_⟩
      show pool.room + (summoned + 1) ≤ pool.room + 1 + (kept + 0)
      omega
  | pooled resource now =>
      have hnone := hblind rfl
      have hroom := pool.room_push resource
      refine ⟨rfl, rfl, rfl, ?_⟩
      show (pool.push resource).room + (summoned + 0) ≤ pool.room + 1 + (kept + 0)
      omega
  | _ => cases hwake

omit [DecidableEq R] in
theorem closed_of_everyone (htransition : Transition move call pool advanced)
    (hpast : call.PastShutting → pool.closed = true) (hwake : advanced.wake = .everyone) :
    advanced.pool.closed = true := by
  cases htransition with
  | dismissed => exact hpast trivial
  | _ => cases hwake

end Transition

theorem tally_wake_one {sleeper : Nat} {callers awake : List (Caller R)}
    (hattentive : ∀ caller ∈ callers, caller.Attentive)
    (hwoken : wake? .one sleeper callers = some awake) :
    tally (fun caller => caller.call.asleep) awake = 0 ∨
      tally (fun caller => caller.call.asleep) awake + 1 =
          tally (fun caller => caller.call.asleep) callers ∧
        tally Caller.promise awake = tally Caller.promise callers + 1 := by
  rcases Waking.wake_one hwoken with ⟨hnone, rfl⟩ | ⟨caller, hsleeper, hparked, rfl⟩
  · left
    apply Tally.tally_eq_zero_iff.mpr
    intro caller hcaller
    have hawake := hnone caller hcaller
    obtain ⟨call, held, called⟩ := caller
    cases call with
    | parked => cases hawake
    | _ => rfl
  · right
    have hasleep := Tally.tally_set (fun caller => caller.call.asleep) hsleeper caller.woken
    have hpromise := Tally.tally_set Caller.promise hsleeper caller.woken
    have hattentive := hattentive caller (List.mem_of_getElem? hsleeper)
    obtain ⟨call, held, called⟩ := caller
    cases call with
    | parked patience =>
        have hnone := hattentive.summoned_eq_zero rfl
        have hone : (Caller.woken ⟨.parked patience, held, called⟩).summoned = 1 := by
          simp [Caller.summoned, Caller.woken, Caller.isParked, Call.isParked]
        simp only [Caller.promise, hnone, hone] at hpromise
        exact ⟨hasleep, hpromise⟩
    | _ => cases hparked

namespace System

def asleep (system : System R) : Nat := tally (fun caller => caller.call.asleep) system.callers

def drowsy (system : System R) : Nat := tally (fun caller => caller.call.drowsy) system.callers

def summoned (system : System R) : Nat := tally Caller.summoned system.callers

def announcing (system : System R) : Nat :=
  tally (fun caller => caller.call.announcing) system.callers

theorem tally_promise (system : System R) :
    tally Caller.promise system.callers = system.summoned + system.announcing :=
  Tally.tally_add _ _ _

/-- While anyone sleeps, whatever there is to have is promised to somebody. -/
structure Wakeful (maxCapacity : UInt64) (system : System R) : Prop where
  maxCapacity_eq : system.pool.maxCapacity = maxCapacity.toNat
  within : system.pool.closed = false → system.pool.Within system.reserved
  attentive : ∀ caller ∈ system.callers, caller.Attentive
  doors : ∀ caller ∈ system.callers, caller.call.ByTheDoor
  past : ∀ caller ∈ system.callers, caller.call.PastShutting → system.pool.closed = true
  one_inside : tally (fun caller => caller.call.within) system.callers ≤ 1
  dry : 0 < tally (fun caller => caller.call.dry) system.callers → system.pool.queue = []
  room_le : system.pool.closed = false → 0 < system.asleep + system.drowsy →
    system.pool.room ≤ tally Caller.promise system.callers

theorem wakeful_start (maxCapacity : UInt64) (count : Nat) :
    (start maxCapacity count : System R).Wakeful maxCapacity := by
  have hidle : ∀ {measure : Caller R → Nat}, measure {} = 0 →
      tally measure (start maxCapacity count : System R).callers = 0 := by
    intro measure hnone
    apply Tally.tally_eq_zero_iff.mpr
    intro caller hcaller
    rw [eq_of_mem_start hcaller, hnone]
  constructor
  case maxCapacity_eq => rfl
  case within => exact fun _ => ⟨Nat.le_of_eq (hidle rfl), Nat.zero_le _⟩
  case attentive =>
    intro caller hcaller
    rw [eq_of_mem_start hcaller]
    exact nofun
  case doors =>
    intro caller hcaller
    rw [eq_of_mem_start hcaller]
    trivial
  case past =>
    intro caller hcaller hpast
    rw [eq_of_mem_start hcaller] at hpast
    cases hpast
  case one_inside => exact Nat.le_trans (Nat.le_of_eq (hidle rfl)) (Nat.zero_le _)
  case dry => exact fun _ => rfl
  case room_le =>
    intro _ hsleep
    simp only [asleep, drowsy] at hsleep
    rw [hidle rfl, hidle rfl] at hsleep
    cases hsleep

variable [DecidableEq R]

namespace Stepped

variable {before after : System R} {event : Event R} {caller : Caller R}
  {advanced : Call.Advanced R} {maxCapacity : UInt64}

theorem one_inside (hstepped : Stepped before event after caller advanced)
    (hbefore : tally (fun caller => caller.call.within) before.callers ≤ 1) :
    tally (fun caller => caller.call.within) after.callers ≤ 1 := by
  have hwithin := hstepped.tally_eq (fun caller => caller.call.within)
    fun caller => caller.call.within_woken
  simp only [Caller.call_follow] at hwithin
  cases hentering : caller.call.isEntering with
  | false =>
      have hle := hstepped.transition.within_le hentering
      omega
  | true =>
      have hfree := hstepped.lock_free hentering
      have hnone : tally (fun caller => caller.call.within) before.callers = 0 := by
        apply Tally.tally_eq_zero_iff.mpr
        intro other hother
        apply Call.within_eq_zero
        exact eq_false_of_ne_true fun hinside =>
          (Bool.eq_false_iff.mp hfree) (List.any_eq_true.mpr ⟨other, hother, hinside⟩)
      have hle := advanced.call.within_le_one
      omega

theorem dry (hstepped : Stepped before event after caller advanced)
    (hwakeful : before.Wakeful maxCapacity)
    (hdry : 0 < tally (fun caller => caller.call.dry) after.callers) : after.pool.queue = [] := by
  have htally := hstepped.tally_eq (fun caller => caller.call.dry)
    fun caller => caller.call.dry_woken
  simp only [Caller.call_follow] at htally
  rw [hstepped.pool_eq]
  rcases hstepped.transition.dry_cases (hwakeful.doors caller hstepped.mem_callers) with
    hnone | ⟨hinside, hleft⟩ | ⟨hle, hqueue⟩
  · exact hnone
  · have halone := Tally.tally_eq_of_alone (fun caller : Caller R => caller.call.dry_le_within)
      hstepped.caller_at (hinside ▸ hwakeful.one_inside)
    omega
  · rw [hwakeful.dry (by omega)] at hqueue
    exact List.suffix_nil.mp hqueue

theorem within (hstepped : Stepped before event after caller advanced)
    (hwakeful : before.Wakeful maxCapacity) (hopen : after.pool.closed = false) :
    after.pool.Within after.reserved := by
  have htally := hstepped.tally_eq (fun caller => caller.call.reserved)
    fun caller => caller.call.reserved_woken
  have hmem := hstepped.mem_callers
  have hmax := hwakeful.maxCapacity_eq ▸ maxCapacity.toNat_lt
  rw [hstepped.pool_eq] at hopen
  have hwithin := hwakeful.within (hstepped.transition.open_of_open hopen)
  have hcall := Nat.le_trans (Tally.le_tally (fun caller => caller.call.reserved) hmem)
    hwithin.reserved_le
  obtain ⟨hreserved, hsize⟩ := hstepped.transition.reserved_le (hwakeful.past caller hmem) hopen
    hmax ⟨hcall, hwithin.size_le⟩
  have hle := hwithin.reserved_le
  simp only [Caller.call_follow, reserved] at htally hle ⊢
  constructor
  · rw [hstepped.pool_eq]
    omega
  · rw [hstepped.pool_eq, hstepped.transition.same_maxCapacity]
    exact hsize

/-- A signal is given under the lock, by a caller that does not go to sleep on it. -/
theorem room_le_of_one (hstepped : Stepped before event after caller advanced)
    (hwakeful : before.Wakeful maxCapacity) (hopen : before.pool.closed = false)
    (hwake : advanced.wake = .one) (hsleep : 0 < after.asleep + after.drowsy) :
    after.pool.room ≤ tally Caller.promise after.callers := by
  have hwoken := hwake ▸ hstepped.woken
  have hdrowsy := hstepped.tally_eq (fun caller => caller.call.drowsy)
    fun caller => caller.call.drowsy_woken
  have hasleep := Tally.tally_set (fun caller => caller.call.asleep) hstepped.caller_at
    (caller.follow event.move advanced.call)
  have hpromise := Tally.tally_set Caller.promise hstepped.caller_at
    (caller.follow event.move advanced.call)
  simp only [Caller.call_follow] at hdrowsy hasleep
  obtain ⟨hinside, hawake, hstays, hroom⟩ := hstepped.transition.room_of_one
    (hwakeful.attentive caller hstepped.mem_callers) hwake
  have halone : tally (fun caller => caller.call.drowsy) before.callers = caller.call.drowsy :=
    Tally.tally_eq_of_alone
      (fun caller => Nat.le_trans caller.call.drowsy_le_dry caller.call.dry_le_within)
      hstepped.caller_at (hinside ▸ hwakeful.one_inside)
  have hattentive : ∀ other ∈ before.callers.set event.caller
      (caller.follow event.move advanced.call), other.Attentive := by
    intro other hother
    rcases List.mem_or_eq_of_mem_set hother with hother | rfl
    · exact hwakeful.attentive other hother
    · exact Caller.attentive_follow caller event.move advanced.call
  simp only [asleep, drowsy] at hsleep
  have hbefore := hwakeful.room_le hopen
  simp only [asleep, drowsy] at hbefore
  rw [hstepped.pool_eq]
  rcases tally_wake_one hattentive hwoken with hnone | ⟨hone, hmore⟩
  · omega
  · have hbefore := hbefore (by omega)
    omega

theorem room_le_of_nobody (hstepped : Stepped before event after caller advanced)
    (hwakeful : before.Wakeful maxCapacity) (hopen : after.pool.closed = false)
    (hwake : advanced.wake = .nobody) (hsleep : 0 < after.asleep + after.drowsy) :
    after.pool.room ≤ tally Caller.promise after.callers := by
  have hmem := hstepped.mem_callers
  have hmax := hwakeful.maxCapacity_eq ▸ maxCapacity.toNat_lt
  have hwoken : after.callers =
      before.callers.set event.caller (caller.follow event.move advanced.call) := by
    have hwoken := hstepped.woken
    rw [hwake] at hwoken
    exact (Option.some.inj hwoken).symm
  have hset := fun measure => Tally.tally_set measure hstepped.caller_at
    (caller.follow event.move advanced.call)
  rw [← hwoken] at hset
  have hasleep := hset fun caller => caller.call.asleep
  have hdrowsy := hset fun caller => caller.call.drowsy
  have hpromise := hset Caller.promise
  rw [hstepped.pool_eq] at hopen ⊢
  have hbefore := hstepped.transition.open_of_open hopen
  have hwithin := hwakeful.within hbefore
  have hcall := Nat.le_trans (Tally.le_tally (fun caller => caller.call.reserved) hmem)
    hwithin.reserved_le
  have hdry : 0 < caller.call.dry → before.pool.queue = [] := fun hpos =>
    hwakeful.dry (Nat.lt_of_lt_of_le hpos (Tally.le_tally (fun caller => caller.call.dry) hmem))
  simp only [asleep, drowsy, Caller.call_follow] at hsleep hasleep hdrowsy
  rcases hstepped.transition.room_of_nobody (hwakeful.attentive caller hmem)
    (hwakeful.past caller hmem) hmax ⟨hcall, hwithin.size_le⟩ hdry hopen hwake with hroom | hnone
  · rcases hstepped.transition.sleepers_le (hwakeful.doors caller hmem) with
      hle | ⟨hpos, hfull, hsame⟩
    · have hbefore := hwakeful.room_le hbefore
      simp only [asleep, drowsy] at hbefore
      have hbefore := hbefore (by omega)
      omega
    · rw [hsame, Pool.room_eq_zero (hdry hpos) hfull]
      exact Nat.zero_le _
  · rw [hnone]
    exact Nat.zero_le _

theorem wakeful (hstepped : Stepped before event after caller advanced)
    (hwakeful : before.Wakeful maxCapacity) : after.Wakeful maxCapacity := by
  have hmem := hstepped.mem_callers
  have htransition := hstepped.transition
  constructor
  case maxCapacity_eq =>
    rw [hstepped.pool_eq, htransition.same_maxCapacity, hwakeful.maxCapacity_eq]
  case within => exact hstepped.within hwakeful
  case attentive =>
    exact hstepped.forall_callers (fun _ => Caller.Attentive.woken) hwakeful.attentive
      (Caller.attentive_follow caller event.move advanced.call)
  case doors =>
    refine hstepped.forall_callers (fun _ hdoor => ?_) hwakeful.doors htransition.byTheDoor
    exact hdoor.woken
  case past => exact hstepped.closed_of_pastShutting hwakeful.past
  case one_inside => exact hstepped.one_inside hwakeful.one_inside
  case dry => exact hstepped.dry hwakeful
  case room_le =>
    intro hopen hsleep
    have hafter : advanced.pool.closed = false := hstepped.pool_eq ▸ hopen
    cases hwake : advanced.wake with
    | nobody => exact hstepped.room_le_of_nobody hwakeful hopen hwake hsleep
    | one =>
        exact hstepped.room_le_of_one hwakeful (htransition.open_of_open hafter) hwake hsleep
    | everyone =>
        have hclosed := htransition.closed_of_everyone (hwakeful.past caller hmem) hwake
        rw [hclosed] at hafter
        cases hafter

end Stepped

theorem Reaches.wakeful {law : Law R} {maxCapacity : UInt64} {count : Nat} {system : System R}
    (hreaches : Reaches law (start maxCapacity count) system) : system.Wakeful maxCapacity :=
  hreaches.stepwise (Wakeful maxCapacity) (wakeful_start maxCapacity count)
    fun hwakeful _ hstepped => hstepped.wakeful hwakeful

/-- While anyone sleeps in an open pool, every resource in its queue and every slot that is free is
matched by a caller that was woken and has not looked at the pool again, or by one that gave the
slot up and is about to wake somebody. -/
theorem room_le_of_asleep {maxCapacity : UInt64} {count : Nat} {system : System R}
    (hreaches : Reaches anyhow (start maxCapacity count) system)
    (hopen : system.pool.closed = false) (hasleep : 0 < system.asleep) :
    system.pool.queue.length + (maxCapacity.toNat - system.pool.size) ≤
        system.summoned + system.announcing ∧
      (system.summoned = 0 → system.announcing = 0 →
        system.pool.queue = [] ∧ system.pool.size = maxCapacity.toNat) ∧
      ∀ caller ∈ system.callers, caller.called = true → caller.call.isLooking = true := by
  have hwakeful := hreaches.wakeful
  have hroom := hwakeful.room_le hopen (by omega)
  have hwithin := (hwakeful.within hopen).size_le
  rw [tally_promise, Pool.room, hwakeful.maxCapacity_eq] at hroom
  rw [hwakeful.maxCapacity_eq] at hwithin
  refine ⟨hroom, ?_, hwakeful.attentive⟩
  intro hsummoned hannouncing
  exact ⟨List.eq_nil_of_length_eq_zero (by omega), by omega⟩

/-- Two callers sleep while two others make a resource each. Both creations fail: one of those that
made them has woken a sleeper already, the other is on its way to. -/
def letdown : List (Event Nat) :=
  [⟨0, .begin .acquire 0, 0⟩, ⟨0, .turn 0, 0⟩, ⟨0, .turn 0, 0⟩, ⟨0, .turn 0, 0⟩,
    ⟨1, .begin .acquire 0, 0⟩, ⟨1, .turn 0, 0⟩, ⟨1, .turn 0, 0⟩, ⟨1, .turn 0, 0⟩,
    ⟨2, .begin .acquire 1, 0⟩, ⟨2, .turn 1, 0⟩, ⟨2, .turn 1, 0⟩, ⟨2, .turn 1, 0⟩, ⟨2, .turn 1, 0⟩,
    ⟨2, .turn 1, 0⟩, ⟨2, .turn 1, 0⟩, ⟨2, .turn 1, 0⟩, ⟨2, .turn 1, 0⟩,
    ⟨3, .begin .acquire 1, 0⟩, ⟨3, .turn 1, 0⟩, ⟨3, .turn 1, 0⟩, ⟨3, .turn 1, 0⟩, ⟨3, .turn 1, 0⟩,
    ⟨3, .turn 1, 0⟩, ⟨3, .turn 1, 0⟩, ⟨3, .turn 1, 0⟩, ⟨3, .turn 1, 0⟩,
    ⟨0, .make (.failed "lost"), 0⟩, ⟨0, .turn 2, 0⟩, ⟨1, .make (.failed "lost"), 0⟩, ⟨0, .turn 2, 0⟩,
    ⟨0, .turn 2, 3⟩, ⟨1, .turn 3, 0⟩]

theorem room_le_of_letdown : ∃ system : System Nat,
    run? anyhow letdown (start 2 4) = some system ∧ system.asleep = 1 ∧ system.summoned = 1 ∧
      system.announcing = 1 ∧ system.pool.size = 0 ∧
      system.pool.queue.length + (2 - system.pool.size) ≤ 1 + 1 := by
  have hruns : (run? anyhow letdown (start 2 4)).map
      (fun system => (system.pool.closed, system.asleep, system.summoned, system.announcing,
        system.pool.size)) = some (false, 1, 1, 1, 0) := by decide
  obtain ⟨system, hrun, hcounts⟩ := Option.map_eq_some_iff.mp hruns
  obtain ⟨hopen, hasleep, hsummoned, hannouncing, hsize⟩ : system.pool.closed = false ∧
      system.asleep = 1 ∧ system.summoned = 1 ∧ system.announcing = 1 ∧ system.pool.size = 0 := by
    simpa using hcounts
  have hle := (room_le_of_asleep (Runs.reaches_of_run? hrun) hopen (by omega)).1
  rw [hsummoned, hannouncing] at hle
  exact ⟨system, hrun, hasleep, hsummoned, hannouncing, hsize, hle⟩

end System

end Pooling.Fixed
