import Pooling.Proofs.Elastic.Sections
import Pooling.Proofs.Solo

/-!
What each call on an elastic pool comes to where its caller is alone: the answer, the pool, and what
the caller holds afterwards.
-/

namespace Pooling

theorem Reading.after_zero (now : Reading) : now.after Duration.zero.millis = now := by
  apply UInt64.toNat_inj.mp
  have hlt := now.toNat_lt
  have hzero : Duration.zero.millis.toNat = 0 := Duration.toNat_millis _
  rw [Reading.toNat_after, hzero]
  simp only [UInt64.size]
  omega

namespace Elastic

variable {R : Type} [DecidableEq R]

namespace Call

def ofAsk (now : Reading) : Ask R → Call R
  | .tryAcquire => tryAcquire
  | .acquireNow => acquireWithin Duration.zero now
  | .release resource => release resource now
  | .close => close
  | .pause => collect

def workings : Workings R Reading (Pool R) (Call R) where
  call? ask now := some (ofAsk now ask)
  need := need
  advance call now pool := ((call.advance now pool).pool, (call.advance now pool).call)
  made := made
  healthy call pool := call.checked true pool
  disposed := disposed
  retired := retired
  size := Pool.size
  available pool := pool.available.length
  totals := Pool.totals

theorem workings_advance {call next : Call R} {now : Reading} {pool after : Pool R} {wake : Wake}
    (hadvance : call.advance now pool = ⟨after, wake, next⟩) :
    workings.advance call now pool = (after, next) :=
  congrArg (fun advanced => (advanced.pool, advanced.call)) hadvance

section Ends

open Workings

variable {script : Script R} {clock : Clock Reading} {solo : Solo (Pool R) R} {looks : Nat}

/-! How a call ends that looks for a slot. -/

section Seeking

variable {patience : Patience} {waited : Bool}

theorem seeking_closed (hclosed : solo.pool.closed = true) :
    workings.finish script clock ⟨solo, seeking patience false, looks⟩ =
      Part.some (.failed .closed, solo) := by
  have hseek : (seeking patience false).advance (clock.tells solo.calls looks) solo.pool =
      ⟨solo.pool, .nobody, done (.failed .closed)⟩ := by
    rw [advance, seek, Pool.takeSlot_of_closed hclosed]
    rfl
  exact finish_last rfl (workings_advance hseek) rfl

variable (hopen : solo.pool.closed = false)

include hopen

theorem seeking_pooled {resource : R} {rest : List R}
    (hchoose : Pool.choose? solo.pool.selection solo.pool.available = some (resource, rest)) :
    workings.finish script clock ⟨solo, seeking patience waited, looks⟩ =
      Part.some (.acquired resource, { solo with
        pool := (solo.pool.checkOut resource rest).record .countAcquired
        held := resource :: solo.held }) := by
  have hseek : (seeking patience waited).advance (clock.tells solo.calls looks) solo.pool =
      ⟨solo.pool.checkOut resource rest, .nobody, checking patience resource⟩ := by
    rw [advance, seek, Pool.takeSlot_of_choose? hopen hchoose]
  rw [finish_turn rfl (workings_advance hseek) rfl]
  exact finish_check rfl rfl rfl

variable (hnone : solo.pool.available = [])

include hnone

section Room

variable (hroom : solo.pool.size + solo.pool.creating < solo.pool.maxCapacity)

include hroom

theorem seeking_room :
    workings.finish script clock ⟨solo, seeking patience waited, looks⟩ =
      workings.finish script clock
        ⟨{ solo with
            pool := { solo.pool with creating := solo.pool.creating + 1 }
            asked := solo.asked + 1 }, registering (script.answer solo.asked), looks + 2⟩ := by
  have hseek : (seeking patience waited).advance (clock.tells solo.calls looks) solo.pool =
      ⟨{ solo.pool with creating := solo.pool.creating + 1 }, .nobody, making⟩ := by
    rw [advance, seek, Pool.takeSlot_of_room hopen hnone hroom]
  rw [finish_turn rfl (workings_advance hseek) rfl]
  exact finish_make rfl rfl

theorem seeking_made {resource : R} (hmade : script.answer solo.asked = .ok resource)
    (hnew : solo.pool.tracked.contains resource = false) :
    workings.finish script clock ⟨solo, seeking patience waited, looks⟩ =
      Part.some (.acquired resource, { solo with
        pool := solo.pool.track resource (clock.tells solo.calls (looks + 2))
        held := resource :: solo.held
        asked := solo.asked + 1 }) := by
  have hkept : (registering (.ok resource)).advance (clock.tells solo.calls (looks + 2))
      { solo.pool with creating := solo.pool.creating + 1 } =
        ⟨solo.pool.track resource (clock.tells solo.calls (looks + 2)), .nobody,
          done (.acquired resource)⟩ := by
    simp [advance, enroll, Pool.register, Pool.track, hopen, hnew]
  rw [seeking_room hopen hnone hroom, hmade]
  exact finish_last rfl (workings_advance hkept) rfl

theorem seeking_failed {source : String} (hfailed : script.answer solo.asked = .failed source) :
    workings.finish script clock ⟨solo, seeking patience waited, looks⟩ =
      Part.some (.failed (.creation source), { solo with asked := solo.asked + 1 }) := by
  have hgone : (registering (.failed source)).advance (clock.tells solo.calls (looks + 2))
      { solo.pool with creating := solo.pool.creating + 1 } =
        ⟨solo.pool, .one, done (.failed (.creation source))⟩ := by
    simp [advance, enroll, Pool.register]
  rw [seeking_room hopen hnone hroom, hfailed]
  exact finish_last rfl (workings_advance hgone) rfl

end Room

variable (hfull : solo.pool.maxCapacity ≤ solo.pool.size + solo.pool.creating)

include hfull

theorem seeking_full :
    workings.finish script clock ⟨solo, seeking .never waited, looks⟩ =
      Part.some (.nothing, solo) := by
  have hseek : (seeking .never waited).advance (clock.tells solo.calls looks) solo.pool =
      ⟨solo.pool, .nobody, done .nothing⟩ := by
    rw [advance, seek, Pool.takeSlot_of_full hopen hnone hfull]
    rfl
  exact finish_last rfl (workings_advance hseek) rfl

theorem seeking_late {deadline : Reading} {timeout : Duration}
    (hlate : deadline ≤ clock.tells solo.calls looks) :
    workings.finish script clock ⟨solo, seeking (.until deadline timeout) waited, looks⟩ =
      Part.some (.failed (.timeout timeout),
        { solo with pool := solo.pool.record .countTimeout }) := by
  have hseek : (seeking (.until deadline timeout) waited).advance (clock.tells solo.calls looks)
      solo.pool =
      ⟨solo.pool.record .countTimeout, .nobody, done (.failed (.timeout timeout))⟩ := by
    rw [advance, seek, Pool.takeSlot_of_full hopen hnone hfull]
    exact if_pos hlate
  exact finish_last rfl (workings_advance hseek) rfl

end Seeking

/-! How a call ends that gives a resource back. -/

section Returning

variable {resource : R} {reading : Reading} (hout : solo.pool.checkedOut? resource = some true)

include hout

theorem returning_open (hopen : solo.pool.closed = false) :
    workings.finish script clock ⟨solo, returning resource reading, looks⟩ =
      Part.some (.released, { solo with
        pool := { solo.pool.markReturned resource reading with
          available := resource :: solo.pool.available } }) := by
  have hpooled : (returning resource reading).advance (clock.tells solo.calls looks) solo.pool =
      ⟨{ solo.pool.markReturned resource reading with
        available := resource :: solo.pool.available }, .one, done .released⟩ := by
    rw [advance, giveBack, Pool.release_of_out hout, hopen]
    rfl
  exact finish_last rfl (workings_advance hpooled) rfl

theorem returning_closed (hclosed : solo.pool.closed = true) :
    workings.finish script clock ⟨solo, returning resource reading, looks⟩ =
      Part.some (.released, { solo with
        pool := (solo.pool.markReturned resource reading).untrack resource
        disposed := solo.disposed ++ [resource] }) := by
  have hlate : (returning resource reading).advance (clock.tells solo.calls looks) solo.pool =
      ⟨(solo.pool.markReturned resource reading).untrack resource, .nobody,
        closing resource (.finish .released)⟩ := by
    rw [advance, giveBack, Pool.release_of_out hout, hclosed]
    rfl
  rw [finish_turn rfl (workings_advance hlate) rfl, finish_close rfl rfl]
  exact finish_last rfl rfl rfl

end Returning

/-! How closing and collecting end. -/

theorem draining (resources : List R) (solo : Solo (Pool R) R) (looks : Nat) :
    workings.finish script clock ⟨solo, after (.drain resources), looks⟩ =
      Part.some (.closed, { solo with disposed := solo.disposed ++ resources }) := by
  induction resources generalizing solo looks with
  | nil =>
      rw [finish_turn rfl rfl rfl, List.append_nil]
      exact finish_retire rfl rfl
  | cons resource rest ih =>
      rw [finish_turn rfl rfl rfl, finish_close rfl rfl]
      refine (ih _ _).trans ?_
      rw [List.append_assoc]
      rfl

theorem shutting_closed (hclosed : solo.pool.closed = true) :
    workings.finish script clock ⟨solo, shutting, looks⟩ = Part.some (.closed, solo) := by
  have hshut : shutting.advance (clock.tells solo.calls looks) solo.pool =
      ⟨solo.pool, .nobody, done .closed⟩ := by
    simp [advance, shut, Pool.shut, hclosed]
  exact finish_last rfl (workings_advance hshut) rfl

theorem shutting_open (hopen : solo.pool.closed = false)
    (hle : solo.pool.available.length ≤ solo.pool.size) :
    workings.finish script clock ⟨solo, shutting, looks⟩ = Part.some (.closed, { solo with
      pool := solo.pool.available.foldl Pool.untrack
        { solo.pool with closed := true, available := [] }
      disposed := solo.disposed ++ solo.pool.available }) := by
  have hshut : shutting.advance (clock.tells solo.calls looks) solo.pool =
      ⟨solo.pool.available.foldl Pool.untrack { solo.pool with closed := true, available := [] },
        .everyone, after (.drain solo.pool.available)⟩ := by
    simp [advance, shut, Pool.shut, hopen, Pool.inUse, hle]
  rw [finish_turn rfl (workings_advance hshut) rfl]
  exact draining _ _ _

theorem scanning_never (hnever : solo.pool.expiry = .never) :
    workings.finish script clock ⟨solo, scanning, looks⟩ = Part.some (.collected 0, solo) := by
  have hscan : scanning.advance (clock.tells solo.calls looks) solo.pool =
      ⟨solo.pool, .nobody, after (.sweep [] 0)⟩ := by
    rw [advance, scan, Pool.collect_never hnever]
    rfl
  rw [finish_turn rfl (workings_advance hscan) rfl]
  exact finish_last rfl rfl rfl

end Ends

end Call

end Elastic

end Pooling
