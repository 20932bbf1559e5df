import Pooling.Proofs.Schedule.Launching

/-!
Shutting a schedule down. A call to do so returns when the worker has ended, or when the worker is
at a run or past it, so that it ends before the next one.
-/

namespace Pooling.Schedule

/-- Whether the worker comes by the end of its loop before it begins a run. -/
def Phase.isSpent : Phase → Bool
  | .pruning _ => false
  | .choosing => false
  | .taken => false
  | _ => true

theorem Phase.isSpent_roused (phase : Phase) : phase.roused.isSpent = phase.isSpent := by
  cases phase <;> rfl

theorem Phase.roused_eq_ended {phase : Phase} : phase.roused = .ended ↔ phase = .ended := by
  cases phase <;> simp [roused]

def Event.isOfWorker : Event → Bool
  | turn => true
  | read _ => true
  | finish _ => true
  | _ => false

/-- Whether a call is one to shut down that has marked the schedule as stopped. -/
def Call.closes : Call → Bool
  | .alerting _ => true
  | .claiming _ => true
  | .joining => true
  | _ => false

theorem Call.closes_of_isInside {call : Call} (hinside : call.isInside = true) :
    call.closes = true := by
  cases call with
  | alerting | claiming => rfl
  | _ => cases hinside

namespace System

/-- No run will begin any more. -/
structure Halting (system : System) : Prop where
  stopped : system.queue.stopped = true
  spent : system.phase.isSpent = true

variable {before after : System} {event : Event}

theorem Shift.isSpent {system : System} {old new : Phase} (hshift : Shift system old new)
    (hstopped : system.queue.stopped = true) (hspent : old.isSpent = true) :
    new.isSpent = true := by
  cases hshift with
  | prune hgoes => cases hstopped.symm.trans hgoes
  | keep => cases hspent
  | _ => rfl

namespace Halting

theorem of_isSpent (hhalting : Halting before)
    (hstopped : after.queue.stopped = before.queue.stopped)
    (hspent : before.phase.isSpent = true → after.phase.isSpent = true) : Halting after :=
  ⟨hstopped.trans hhalting.stopped, hspent hhalting.spent⟩

theorem ne_of_not_isSpent (hhalting : Halting before) {phase : Phase}
    (hphase : phase.isSpent = false) : before.phase ≠ phase :=
  fun heq => Bool.eq_false_iff.mp hphase (heq ▸ hhalting.spent)

theorem step (hhalting : Halting before) (hstride : Stride before event after) :
    Halting after := by
  cases hstride with
  | touch htouch =>
      cases htouch with
      | drop hphase => exact absurd hphase (hhalting.ne_of_not_isSpent rfl)
      | take hphase => exact absurd hphase (hhalting.ne_of_not_isSpent rfl)
      | discard | restore => exact hhalting.of_isSpent rfl fun _ => rfl
      | schedule | enter => exact hhalting.of_isSpent rfl id
  | shift hshift hreading => exact hhalting.of_isSpent rfl (hshift.isSpent hhalting.stopped)
  | pruned hphase => exact absurd hphase (hhalting.ne_of_not_isSpent rfl)
  | early hphase => exact absurd hphase (hhalting.ne_of_not_isSpent rfl)
  | begin hphase => exact absurd hphase (hhalting.ne_of_not_isSpent rfl)
  | finish => exact hhalting.of_isSpent rfl fun _ => rfl
  | cancel | join | retire => exact hhalting.of_isSpent rfl id
  | shutdown => exact ⟨rfl, hhalting.spent⟩
  | signal | announce | alert =>
      exact hhalting.of_isSpent rfl fun hspent => (Phase.isSpent_roused _).trans hspent

end Halting

/-- What holds of the calls to shut down. -/
structure Closing (system : System) : Prop where
  stopped : ∀ call ∈ system.calls, call.closes = true → system.queue.stopped = true
  inside : ∀ call ∈ system.calls, call.isInside = true → system.phase = .running
  claimed : system.joinable = false → .joining ∈ system.calls ∨ Halting system
  shut : .shut ∈ system.log → Halting system

/-- A step that takes none of the calls to shut down further. -/
structure Aside (before after : System) : Prop where
  stopped_eq : after.queue.stopped = before.queue.stopped
  joinable_eq : after.joinable = before.joinable
  mem_calls : ∀ call, call.closes = true → call ∈ after.calls → call ∈ before.calls
  joining : .joining ∈ before.calls → .joining ∈ after.calls
  running : before.phase = .running → after.phase = .running ∨
    ∀ call ∈ before.calls, call.isInside = false
  shut : .shut ∈ after.log → .shut ∈ before.log

namespace Aside

theorem of_calls_eq (hstopped : after.queue.stopped = before.queue.stopped)
    (hjoinable : after.joinable = before.joinable) (hcalls : after.calls = before.calls)
    (hrunning : before.phase = .running → after.phase = .running)
    (hshut : .shut ∈ after.log → .shut ∈ before.log) : Aside before after :=
  ⟨hstopped, hjoinable, fun _ _ hmem => hcalls ▸ hmem, fun hmem => hcalls ▸ hmem,
    fun hphase => .inl (hrunning hphase), hshut⟩

theorem of_concat {new : Call} (hstopped : after.queue.stopped = before.queue.stopped)
    (hjoinable : after.joinable = before.joinable) (hcalls : after.calls = before.calls ++ [new])
    (hnew : new.closes = false) (hphase : after.phase = before.phase)
    (hlog : after.log = before.log) : Aside before after := by
  refine ⟨hstopped, hjoinable, fun call hcloses hmem => ?_, fun hmem => ?_,
    fun hrunning => .inl (hphase.trans hrunning), fun hshut => hlog ▸ hshut⟩
  · rw [hcalls, List.mem_append, List.mem_singleton] at hmem
    refine hmem.resolve_right fun heq => ?_
    exact Bool.eq_false_iff.mp hnew (heq ▸ hcloses)
  · rw [hcalls]
    exact List.mem_append_left _ hmem

theorem of_eraseIdx {index : Nat} {old : Call} (hcall : before.calls[index]? = some old)
    (hold : old.closes = false) (hstopped : after.queue.stopped = before.queue.stopped)
    (hjoinable : after.joinable = before.joinable)
    (hcalls : after.calls = before.calls.eraseIdx index)
    (hphase : after.phase = before.phase.roused)
    (hshut : .shut ∈ after.log → .shut ∈ before.log) : Aside before after := by
  refine ⟨hstopped, hjoinable, fun call _ hmem => ?_, fun hmem => ?_,
    fun hrunning => .inl ?_, hshut⟩
  · rw [hcalls] at hmem
    exact List.eraseIdx_subset hmem
  · rw [hcalls]
    refine (mem_eraseIdx_iff_of_ne hcall fun heq => ?_).mpr hmem
    exact Bool.eq_false_iff.mp hold (heq ▸ rfl)
  · rw [hphase, hrunning]
    rfl

end Aside

theorem Touch.aside (htouch : Touch before event after) : Aside before after := by
  cases htouch with
  | drop hphase => exact .of_calls_eq rfl rfl rfl id id
  | take hphase | discard hphase | restore hphase =>
      refine .of_calls_eq rfl rfl rfl (fun hrunning => ?_) (by simp [note])
      cases hphase.symm.trans hrunning
  | schedule delay interval => exact .of_concat rfl rfl rfl rfl rfl rfl
  | enter hcall hfree =>
      refine ⟨rfl, rfl, fun call hcloses hmem => ?_, fun hmem => ?_, .inl, by simp [note]⟩
      · refine (mem_set_iff_of_ne hcall ?_ ?_).mp hmem
        · exact fun heq => by cases heq; cases hcloses
        · exact fun heq => by cases heq; cases hcloses
      · exact (mem_set_iff_of_ne hcall (by simp) (by simp)).mpr hmem

theorem Shift.ne_running {system : System} {old new : Phase} (hshift : Shift system old new) :
    old ≠ .running := by
  cases hshift <;> exact nofun

namespace Closing

theorem start : Closing start :=
  ⟨nofun, nofun, nofun, nofun⟩

theorem aside (hclosing : Closing before) (haside : Aside before after)
    (hhalting : Halting before → Halting after) : Closing after where
  stopped call hcall hcloses := haside.stopped_eq.trans
    (hclosing.stopped call (haside.mem_calls call hcloses hcall) hcloses)
  inside call hcall hinside := by
    have hmem := haside.mem_calls call (Call.closes_of_isInside hinside) hcall
    refine (haside.running (hclosing.inside call hmem hinside)).resolve_right fun hnone => ?_
    exact Bool.eq_false_iff.mp (hnone call hmem) hinside
  claimed hclaimed := (hclosing.claimed (haside.joinable_eq.symm.trans hclaimed)).imp
    haside.joining hhalting
  shut hshut := hhalting (hclosing.shut (haside.shut hshut))

/-- When a call to shut down returns, no run will begin any more. -/
theorem halting_of_retires (hclosing : Closing before) {index : Nat} {call : Call}
    {joinable : Bool} (hcall : before.calls[index]? = some call)
    (hretires : Retires before call joinable) : Halting before := by
  have hmem := List.mem_of_getElem? hcall
  cases hretires with
  | joined hended => exact ⟨hclosing.stopped _ hmem rfl, by rw [hended]; rfl⟩
  | inside hfree hjoinable =>
      refine ⟨hclosing.stopped _ hmem rfl, ?_⟩
      rw [hclosing.inside _ hmem rfl]
      rfl
  | gone hfree hgone =>
      -- Whoever took the handle has waited for the worker, or was the task that runs.
      exact (hclosing.claimed hgone).resolve_left hfree

theorem step (hclosing : Closing before) (hstride : Stride before event after) :
    Closing after := by
  have hhalting (hbefore : Halting before) : Halting after := hbefore.step hstride
  cases hstride with
  | touch htouch => exact hclosing.aside htouch.aside hhalting
  | shift hshift hreading =>
      refine hclosing.aside (.of_calls_eq rfl rfl rfl (fun hrunning => ?_) id) hhalting
      exact absurd hrunning hshift.ne_running
  | pruned hphase | early hphase | begin hphase =>
      refine hclosing.aside (.of_calls_eq rfl rfl rfl (fun hrunning => ?_) (by simp [note]))
        hhalting
      cases hphase.symm.trans hrunning
  | finish hphase houtside hran =>
      exact hclosing.aside ⟨rfl, rfl, fun _ _ => id, id, fun _ => .inr houtside, id⟩ hhalting
  | cancel hbefore hentered =>
      exact hclosing.aside (.of_concat rfl rfl rfl rfl rfl rfl) hhalting
  | signal hcall =>
      exact hclosing.aside (.of_eraseIdx hcall rfl rfl rfl rfl rfl id) hhalting
  | announce hcall hfree =>
      exact hclosing.aside (.of_eraseIdx hcall rfl rfl rfl rfl rfl (by simp [note, wake, close]))
        hhalting
  | shutdown hinside =>
      refine ⟨fun _ _ _ => rfl, fun call hcall hcalled => ?_, fun hclaimed => ?_,
        fun hshut => hhalting (hclosing.shut hshut)⟩
      · rcases List.mem_append.mp hcall with hold | hnew
        · exact hclosing.inside call hold hcalled
        · cases List.mem_singleton.mp hnew
          exact hinside hcalled
      · exact (hclosing.claimed hclaimed).imp (List.mem_append_left _) hhalting
  | @alert index inside hcall hfree =>
      have hmem := List.mem_of_getElem? hcall
      refine ⟨fun _ _ _ => hclosing.stopped _ hmem rfl, fun call hother hcalled => ?_,
        fun hclaimed => ?_, fun hshut => hhalting (hclosing.shut hshut)⟩
      · have hrunning : before.phase = .running := by
          rcases (mem_set_iff hcall _ call).mp hother with rfl | hold
          · exact hclosing.inside _ hmem hcalled
          · exact hclosing.inside call (List.eraseIdx_subset hold) hcalled
        exact congrArg Phase.roused hrunning
      · exact (hclosing.claimed hclaimed).imp
          (mem_set_iff_of_ne hcall (by simp) (by simp)).mpr hhalting
  | @join index hcall hfree hjoinable =>
      have hmem := List.mem_of_getElem? hcall
      refine ⟨fun _ _ _ => hclosing.stopped _ hmem rfl, fun call hother hcalled => ?_,
        fun _ => .inl ?_, fun hshut => hhalting (hclosing.shut hshut)⟩
      · refine hclosing.inside call ((mem_set_iff_of_ne hcall ?_ ?_).mp hother) hcalled
        · exact fun heq => by cases heq; cases hcalled
        · exact fun heq => by cases heq; cases hcalled
      · exact (mem_set_iff hcall _ _).mpr (.inl rfl)
  | @retire index call joinable hcall hretires =>
      have hafter := hhalting (hclosing.halting_of_retires hcall hretires)
      refine ⟨fun _ _ _ => hafter.stopped, fun other hother hcalled => ?_, fun _ => .inr hafter,
        fun _ => hafter⟩
      exact hclosing.inside other (List.eraseIdx_subset hother) hcalled

end Closing

theorem Reaches.closing {law : Law} {system : System} (hreaches : Reaches law start system) :
    Closing system :=
  hreaches.stepwise Closing .start fun hclosing _ hstride => hclosing.step hstride

/-- Once no run will begin any more, none does. -/
theorem Halting.begun_notMem {law : Law} {records : List Record} (hhalting : Halting before)
    (hreaches : Reaches law before after) (hlog : after.log = before.log ++ records)
    (serial : Nat) : .begun serial ∉ records := by
  have hnone (now : Moment) : .chosen serial now ∉ records :=
    hreaches.chosen_notMem hlog Halting hhalting (fun hold hstride => hold.step hstride)
      (fun _ hold hphase => absurd hphase (hold.ne_of_not_isSpent rfl)) now
  have hcount := hreaches.count_begun_le hlog hnone
  rw [pending_of_ne (hhalting.ne_of_not_isSpent rfl)] at hcount
  exact List.count_eq_zero.mp (Nat.le_zero.mp hcount)

/-! As long as a schedule is not shut down, its worker goes on. -/

theorem Reaches.stopped_of_ended {law : Law} {system : System} (hreaches : Reaches law start system)
    (hended : system.phase = .ended) : system.queue.stopped = true := by
  refine hreaches.stepwise (fun system => system.phase = .ended → system.queue.stopped = true)
    nofun ?_ hended
  intro system next event hold _ hstride hended
  cases hstride with
  | touch htouch =>
      cases htouch with
      | drop | schedule | enter => exact hold hended
      | take | discard | restore => cases hended
  | shift hshift hreading =>
      generalize system.phase = old at hshift
      cases hshift with
      | stop hstopped => exact hstopped
      | _ => cases hended
  | pruned | early | begin | finish => cases hended
  | cancel | join | retire => exact hold hended
  | shutdown => rfl
  | signal | announce | alert => exact hold (Phase.roused_eq_ended.mp hended)

/-- Once the queue is gone through, the worker either sleeps or reads the clock. -/
theorem choose?_isSome {system : System} (hfound : earliest? system.queue.waiting ≠ none)
    (now : Moment) : (system.choose? now).isSome = true := by
  obtain ⟨⟨place, due⟩, hfound⟩ := Option.ne_none_iff_exists'.mp hfound
  obtain ⟨task, htask, -, -⟩ := exists_of_earliest? hfound
  rcases Nat.lt_or_ge now due with hearly | hlate
  · rw [choose?_early hfound hearly]
    rfl
  · rw [choose?_due hfound hlate htask]
    rfl

theorem exists_later (system : System) : ∃ now, increasing system (.read now) = true := by
  cases hlast : system.last? with
  | none => exact ⟨0, by rw [increasing, hlast]; rfl⟩
  | some last =>
      refine ⟨last + 1, ?_⟩
      rw [increasing, hlast]
      exact decide_eq_true (Nat.lt_succ_self last)

theorem Reaches.goes_on {law : Law} {system : System} (hreaches : Reaches law start system)
    (hgoes : system.queue.stopped = false) (hawake : system.phase ≠ .parked) :
    ∃ event, event.isOfWorker = true ∧ increasing system event = true ∧
      (system.step? event).isSome = true := by
  have hout := hreaches.sound.out
  have hturn (hnext : system.turn?.isSome = true) : ∃ event, event.isOfWorker = true ∧
      increasing system event = true ∧ (system.step? event).isSome = true :=
    ⟨.turn, rfl, rfl, hnext⟩
  obtain ⟨now, hnow⟩ := exists_later system
  have hread (hnext : (system.read? now).isSome = true) : ∃ event, event.isOfWorker = true ∧
      increasing system event = true ∧ (system.step? event).isSome = true :=
    ⟨.read now, rfl, hnow, hnext⟩
  cases hphase : system.phase with
  | locking | looking | pruning | returning => exact hturn (by rw [turn?, hphase]; rfl)
  | choosing =>
      by_cases hfound : earliest? system.queue.waiting = none
      · exact hturn (by rw [turn?, hphase, hfound]; rfl)
      · refine hread ?_
        rw [read?, hphase]
        exact choose?_isSome hfound now
  | parked => exact absurd hphase hawake
  | taken | judging =>
      rw [hphase] at hout
      exact hturn (by rw [turn?, hphase, Option.isSome_map]; exact hout)
  | running =>
      have houtside (call : Call) (hcall : call ∈ system.calls) : call.isInside = false := by
        refine Bool.eq_false_iff.mpr fun hinside => ?_
        have hstopped := hreaches.closing.stopped call hcall (Call.closes_of_isInside hinside)
        exact Bool.eq_false_iff.mp hgoes hstopped
      rw [hphase] at hout
      refine ⟨.finish false, rfl, rfl, ?_⟩
      show (system.finish? false).isSome = true
      rw [finish?, if_pos ⟨hphase, houtside⟩, Option.isSome_map]
      exact hout
  | restoring =>
      rw [hphase] at hout
      exact hread (by rw [read?, hphase, Option.isSome_map]; exact hout)
  | ended => exact absurd (hreaches.stopped_of_ended hphase) (Bool.eq_false_iff.mp hgoes)

end System

end Pooling.Schedule
