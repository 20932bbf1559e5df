import Pooling.Fixed.Call
import Pooling.Proofs.Fixed.Places
import Pooling.Proofs.Solo

/-!
What each call on a fixed pool comes to where its caller is alone: the answer, the pool, and what
the caller holds afterwards.
-/

namespace Pooling.Fixed

variable {R : Type}

namespace Pool

/-- The pool once it is closed and nothing is left in its queue. -/
def emptied (pool : Pool R) : Pool R :=
  { pool with queue := [], capacity := pool.capacity - UInt64.ofNat pool.queue.length }

theorem emptied_of_nil {pool : Pool R} (hqueue : pool.queue = []) : pool.emptied = pool := by
  obtain ⟨maxCapacity, queue, capacity, closed, totals⟩ := pool
  cases hqueue
  simp [emptied]

theorem emptied_pop (pool : Pool R) {resource : R} {queue : List R}
    (hqueue : pool.queue = resource :: queue) :
    (giveUpSlot { pool with queue }).emptied = pool.emptied := by
  have hcapacity : pool.capacity - 1 - UInt64.ofNat queue.length =
      pool.capacity - UInt64.ofNat (queue.length + 1) := by
    rw [UInt64.ofNat_add]
    grind
  simp [emptied, giveUpSlot, hqueue, hcapacity]

theorem size_emptied {pool : Pool R} (hle : pool.queue.length ≤ pool.size) :
    pool.emptied.size = pool.size - pool.queue.length := by
  have hlt := pool.capacity.toNat_lt
  have hlength : (UInt64.ofNat pool.queue.length).toNat = pool.queue.length :=
    UInt64.toNat_ofNat_of_lt' (Nat.lt_of_le_of_lt hle hlt)
  have hfits : UInt64.ofNat pool.queue.length ≤ pool.capacity := by
    rw [UInt64.le_iff_toNat_le, hlength]
    exact hle
  rw [size, emptied, UInt64.toNat_sub_of_le _ _ hfits, hlength]
  rfl

theorem giveUpSlot_reserved (pool : Pool R) :
    giveUpSlot { pool with capacity := pool.capacity + 1 } = pool := by
  have hsame : pool.capacity + 1 - 1 = pool.capacity := by grind
  rw [giveUpSlot, hsame]

end Pool

namespace Call

def ofAsk? (now : Moment) : Ask R → Option (Call R)
  | .tryAcquire => some tryAcquire
  | .acquireNow => some (acquireWithin Duration.zero now)
  | .release resource => some (release resource)
  | .close => some close
  | .pause => none

theorem acquireWithin_zero {now : Moment} (hnow : now ≤ Moment.last) :
    (acquireWithin Duration.zero now : Call R) = opening (.until now Duration.zero) := by
  have hafter : now.after? Duration.zero = some now :=
    Moment.after?_eq_some_iff.mpr ⟨rfl, hnow⟩
  rw [acquireWithin, Patience.within, hafter]

def workings : Workings R Moment (Pool R) (Call R) where
  call? ask now := ofAsk? now ask
  need := need
  advance call now pool := ((call.advance now pool).pool, (call.advance now pool).call)
  made := factoryMade
  healthy call pool := (pool, call)
  disposed := disposed
  retired call := call
  size := Pool.size
  available pool := pool.queue.length
  totals := Pool.totals

theorem workings_advance {call next : Call R} {now : Moment} {pool after : Pool R} {wake : Wake}
    (hadvance : call.advance now pool = ⟨after, wake, next⟩) :
    workings.advance call now pool = (after, next) :=
  congrArg (fun advanced => (advanced.pool, advanced.call)) hadvance

section Ends

open Workings

variable {script : Script R} {clock : Clock Moment} {solo : Solo (Pool R) R} {looks : Nat}

theorem entering_inside (locked : Locked R) :
    workings.finish script clock ⟨solo, entering locked, looks⟩ =
      workings.finish script clock ⟨solo, inside locked, looks + 1⟩ :=
  finish_turn rfl rfl rfl

/-! How a call ends that tries to acquire. -/

section Opening

variable {patience : Patience}

theorem opening_closed (hclosed : solo.pool.closed = true) :
    workings.finish script clock ⟨solo, opening patience, looks⟩ =
      Part.some (.failed .closed, solo) := by
  have hopened : (opening patience).advance (clock.tells solo.calls looks) solo.pool =
      ⟨solo.pool, .nobody, done (.failed .closed)⟩ := by
    simp [advance, hclosed]
  exact finish_last rfl (workings_advance hopened) rfl

variable (hopen : solo.pool.closed = false)

include hopen

theorem opening_popping : workings.finish script clock ⟨solo, opening patience, looks⟩ =
    workings.finish script clock ⟨solo, popping patience, looks + 1⟩ := by
  have hopened : (opening patience).advance (clock.tells solo.calls looks) solo.pool =
      ⟨solo.pool, .nobody, popping patience⟩ := by
    simp [advance, hopen]
  exact finish_turn rfl (workings_advance hopened) rfl

theorem opening_popped {resource : R} {queue : List R}
    (hqueue : solo.pool.queue = resource :: queue) :
    workings.finish script clock ⟨solo, opening patience, looks⟩ =
      Part.some (.acquired resource, { solo with
        pool := Pool.record { solo.pool with queue } .countAcquired
        held := resource :: solo.held }) := by
  have hpopped : (popping patience).advance (clock.tells solo.calls (looks + 1)) solo.pool =
      ⟨Pool.record { solo.pool with queue } .countAcquired, .nobody,
        done (.acquired resource)⟩ := by
    simp [advance, Pool.pop?, hqueue, acquired]
  rw [opening_popping hopen]
  exact finish_last rfl (workings_advance hpopped) rfl

variable (hqueue : solo.pool.queue = [])

include hqueue

theorem opening_reserving : workings.finish script clock ⟨solo, opening patience, looks⟩ =
    workings.finish script clock ⟨solo, reserving patience, looks + 2⟩ := by
  have hpopped : (popping patience).advance (clock.tells solo.calls (looks + 1)) solo.pool =
      ⟨solo.pool, .nobody, reserving patience⟩ := by
    simp [advance, Pool.pop?, hqueue]
  rw [opening_popping hopen]
  exact finish_turn rfl (workings_advance hpopped) rfl

section Room

variable (hroom : solo.pool.size < solo.pool.maxCapacity)

include hroom

theorem opening_room : workings.finish script clock ⟨solo, opening patience, looks⟩ =
    workings.finish script clock
      ⟨{ solo with
          pool := { solo.pool with capacity := solo.pool.capacity + 1 }
          asked := solo.asked + 1 }, made (script.answer solo.asked), looks + 4⟩ := by
  have hreserved : (reserving patience).advance (clock.tells solo.calls (looks + 2)) solo.pool =
      ⟨{ solo.pool with capacity := solo.pool.capacity + 1 }, .nobody, making⟩ := by
    simp [advance, Pool.reserve?, hroom]
  rw [opening_reserving hopen hqueue, finish_turn rfl (workings_advance hreserved) rfl]
  exact finish_make rfl rfl

theorem opening_made {resource : R} (hmade : script.answer solo.asked = .ok resource) :
    workings.finish script clock ⟨solo, opening patience, looks⟩ =
      Part.some (.acquired resource, { solo with
        pool := ({ solo.pool with capacity := solo.pool.capacity + 1 }.record
          .countCreated).record .countAcquired
        held := resource :: solo.held
        asked := solo.asked + 1 }) := by
  rw [opening_room hopen hqueue hroom, hmade]
  exact finish_last rfl rfl rfl

theorem opening_failed {source : String} (hfailed : script.answer solo.asked = .failed source) :
    workings.finish script clock ⟨solo, opening patience, looks⟩ =
      Part.some (.failed (.creation source), { solo with asked := solo.asked + 1 }) := by
  have hanswered : (made (.failed source)).advance (clock.tells solo.calls (looks + 4))
      { solo.pool with capacity := solo.pool.capacity + 1 } =
        ⟨solo.pool, .nobody, entering (.announcing source)⟩ := by
    simp [advance, answered, Pool.giveUpSlot_reserved]
  rw [opening_room hopen hqueue hroom, hfailed, finish_turn rfl (workings_advance hanswered) rfl,
    entering_inside]
  exact finish_last rfl rfl rfl

end Room

variable (hfull : solo.pool.maxCapacity ≤ solo.pool.size)

include hfull

theorem opening_full : workings.finish script clock ⟨solo, opening .never, looks⟩ =
    Part.some (.nothing, solo) := by
  have hreserved : (reserving .never).advance (clock.tells solo.calls (looks + 2)) solo.pool =
      ⟨solo.pool, .nobody, done .nothing⟩ := by
    simp [advance, Pool.reserve?, Nat.not_lt.mpr hfull]
  rw [opening_reserving hopen hqueue]
  exact finish_last rfl (workings_advance hreserved) rfl

/-- Under the lock the pool is looked through once more before the deadline is. -/
theorem opening_late {deadline : Moment} {timeout : Duration}
    (hlate : deadline ≤ clock.tells solo.calls (looks + 7)) :
    workings.finish script clock ⟨solo, opening (.until deadline timeout), looks⟩ =
      Part.some (.failed (.timeout timeout),
        { solo with pool := solo.pool.record .countTimeout }) := by
  have hreserved : (reserving (.until deadline timeout)).advance
      (clock.tells solo.calls (looks + 2)) solo.pool =
        ⟨solo.pool, .nobody, entering (.rechecking (.until deadline timeout))⟩ := by
    simp [advance, Pool.reserve?, Nat.not_lt.mpr hfull]
  have hrechecked : (inside (.rechecking (.until deadline timeout))).advance
      (clock.tells solo.calls (looks + 4)) solo.pool =
        ⟨solo.pool, .nobody, inside (.repopping (.until deadline timeout))⟩ := by
    simp [advance, advanceLocked, hopen]
  have hrepopped : (inside (.repopping (.until deadline timeout))).advance
      (clock.tells solo.calls (looks + 5)) solo.pool =
        ⟨solo.pool, .nobody, inside (.rereserving (.until deadline timeout))⟩ := by
    simp [advance, advanceLocked, Pool.pop?, hqueue]
  have hrereserved : (inside (.rereserving (.until deadline timeout))).advance
      (clock.tells solo.calls (looks + 6)) solo.pool =
        ⟨solo.pool, .nobody, inside (.waiting (.until deadline timeout))⟩ := by
    simp [advance, advanceLocked, Pool.reserve?, Nat.not_lt.mpr hfull]
  have hwaited : (inside (.waiting (.until deadline timeout))).advance
      (clock.tells solo.calls (looks + 7)) solo.pool =
        ⟨solo.pool.record .countTimeout, .nobody, done (.failed (.timeout timeout))⟩ :=
    if_pos hlate
  rw [opening_reserving hopen hqueue, finish_turn rfl (workings_advance hreserved) rfl,
    entering_inside, finish_turn rfl (workings_advance hrechecked) rfl,
    finish_turn rfl (workings_advance hrepopped) rfl,
    finish_turn rfl (workings_advance hrereserved) rfl]
  exact finish_last rfl (workings_advance hwaited) rfl

end Opening

/-! How a call ends that gives a resource back. -/

theorem deciding (resource : R) :
    workings.finish script clock ⟨solo, returning resource, looks⟩ =
      workings.finish script clock
        ⟨{ solo with pool := solo.pool.record .countReleased }, inside (.deciding resource),
          looks + 2⟩ := by
  rw [finish_turn rfl rfl rfl]
  exact entering_inside _

theorem returning_open (hopen : solo.pool.closed = false) (resource : R) :
    workings.finish script clock ⟨solo, returning resource, looks⟩ =
      Part.some (.released, { solo with
        pool := (solo.pool.record .countReleased).push resource }) := by
  have hpushed : (inside (.deciding resource)).advance (clock.tells solo.calls (looks + 2))
      (solo.pool.record .countReleased) =
        ⟨(solo.pool.record .countReleased).push resource, .one, done .released⟩ := by
    simp [advance, advanceLocked, Pool.record, hopen]
  rw [deciding]
  exact finish_last rfl (workings_advance hpushed) rfl

theorem returning_closed (hclosed : solo.pool.closed = true) (resource : R) :
    workings.finish script clock ⟨solo, returning resource, looks⟩ =
      Part.some (.released, { solo with
        pool := (solo.pool.record .countReleased).giveUpSlot
        disposed := solo.disposed ++ [resource] }) := by
  have hleft : (inside (.deciding resource)).advance (clock.tells solo.calls (looks + 2))
      (solo.pool.record .countReleased) =
        ⟨solo.pool.record .countReleased, .nobody, leaving resource⟩ := by
    simp [advance, advanceLocked, Pool.record, hclosed]
  rw [deciding, finish_turn rfl (workings_advance hleft) rfl, finish_turn rfl rfl rfl,
    finish_close rfl rfl]
  exact finish_last rfl rfl rfl

/-! How closing ends. -/

theorem dismissed (resources : List R) (solo : Solo (Pool R) R) (looks : Nat) :
    workings.finish script clock ⟨solo, after (.drain resources), looks⟩ =
      Part.some (.closed, { solo with disposed := solo.disposed ++ resources }) := by
  induction resources generalizing solo looks with
  | nil =>
      rw [List.append_nil]
      exact finish_last rfl rfl rfl
  | cons resource rest ih =>
      rw [finish_turn rfl rfl rfl, finish_close rfl rfl]
      refine (ih _ _).trans ?_
      rw [List.append_assoc]
      rfl

theorem draining (queue taken : List R) (solo : Solo (Pool R) R) (hqueue : solo.pool.queue = queue)
    (looks : Nat) :
    workings.finish script clock ⟨solo, inside (.draining taken), looks⟩ =
      Part.some (.closed, { solo with
        pool := solo.pool.emptied
        disposed := solo.disposed ++ (taken ++ queue) }) := by
  induction queue generalizing taken solo looks with
  | nil =>
      have hdrained : (inside (.draining taken)).advance (clock.tells solo.calls looks) solo.pool =
          ⟨solo.pool, .nobody, inside (.dismissing taken)⟩ := by
        simp [advance, advanceLocked, Pool.pop?, hqueue]
      rw [finish_turn rfl (workings_advance hdrained) rfl, finish_turn rfl rfl rfl,
        Pool.emptied_of_nil hqueue,
        List.append_nil]
      exact dismissed _ _ _
  | cons resource queue ih =>
      have hdrained : (inside (.draining taken)).advance (clock.tells solo.calls looks) solo.pool =
          ⟨{ solo.pool with queue }, .nobody, inside (.drained resource taken)⟩ := by
        simp [advance, advanceLocked, Pool.pop?, hqueue]
      rw [finish_turn rfl (workings_advance hdrained) rfl, finish_turn rfl rfl rfl]
      refine (ih _ _ rfl _).trans ?_
      rw [List.append_assoc, ← solo.pool.emptied_pop hqueue]
      rfl

theorem shutting_closed (hclosed : solo.pool.closed = true) :
    workings.finish script clock ⟨solo, entering .shutting, looks⟩ =
      Part.some (.closed, solo) := by
  have hshut : (inside .shutting).advance (clock.tells solo.calls (looks + 1)) solo.pool =
      ⟨solo.pool, .nobody, done .closed⟩ := by
    simp [advance, advanceLocked, hclosed]
  rw [entering_inside]
  exact finish_last rfl (workings_advance hshut) rfl

theorem shutting_open (hopen : solo.pool.closed = false) :
    workings.finish script clock ⟨solo, entering .shutting, looks⟩ =
      Part.some (.closed, { solo with
        pool := solo.pool.markClosed.emptied
        disposed := solo.disposed ++ solo.pool.queue }) := by
  have hshut : (inside .shutting).advance (clock.tells solo.calls (looks + 1)) solo.pool =
      ⟨solo.pool.markClosed, .nobody, inside (.draining [])⟩ := by
    simp [advance, advanceLocked, hopen]
  rw [entering_inside, finish_turn rfl (workings_advance hshut) rfl]
  exact draining _ _ _ rfl _

end Ends

end Call

end Pooling.Fixed
