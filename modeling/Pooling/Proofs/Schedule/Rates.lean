import Mathlib.Data.List.Induction
import Pooling.Proofs.Schedule.Standing

/-!
The rate of the tasks on a schedule. From the moment it is scheduled until it is cancelled a task is
on the schedule once, none of its runs starts before its slot has come, and nothing but its own runs
moves the moment at which it is due.
-/

namespace Pooling.Schedule

namespace System

/-- When a task is due that was put back after runs that ended at certain readings. -/
def dueAfter (origin : Moment) (delay interval : Duration) (ends : List Moment) : Option Moment :=
  ends.foldl (fun due? ended => (due?.bind fun due => due.after? interval).map fun due =>
    max due ended) (origin.after? delay)

section

variable {origin : Moment} {delay interval : Duration} {ends : List Moment}

theorem due_renew {task : Task} (now : Moment) (hinterval : task.interval = interval)
    (hdue : task.due? = dueAfter origin delay interval ends) :
    (Queue.renew task now).due? = dueAfter origin delay interval (ends ++ [now]) := by
  rw [dueAfter, List.foldl_append]
  show (task.due?.bind fun due => due.after? task.interval).map _ = _
  rw [hinterval, hdue]
  rfl

theorem le_of_dueAfter {due : Moment} (hdue : dueAfter origin delay interval ends = some due) :
    origin + delay.nanos + ends.length * interval.nanos ≤ due := by
  induction ends using List.reverseRecOn generalizing due with
  | nil =>
      obtain ⟨heq, -⟩ := Moment.after?_eq_some_iff.mp hdue
      simp [heq]
  | append_singleton ends now ih =>
      rw [dueAfter, List.foldl_append] at hdue
      obtain ⟨next, hnext, rfl⟩ := Option.map_eq_some_iff.mp hdue
      obtain ⟨last, hlast, hafter⟩ := Option.bind_eq_some_iff.mp hnext
      obtain ⟨heq, -⟩ := Moment.after?_eq_some_iff.mp hafter
      rw [List.length_append, List.length_singleton, Nat.add_mul, Nat.one_mul, ← Nat.add_assoc]
      calc origin + delay.nanos + ends.length * interval.nanos + interval.nanos
        _ ≤ last + interval.nanos := Nat.add_le_add_right (ih hlast) _
        _ = next := heq
        _ ≤ max next now := Nat.le_max_left next now

end

/-- A task that was put on the schedule: its place there, and its runs so far. -/
structure Tended (serial : Nat) (origin : Moment) (delay interval : Duration) (system : System) :
    Prop where
  task_eq : ∀ task ∈ system.scheduled, task.serial = serial →
    task.interval = interval ∧
      task.due? = dueAfter origin delay interval (system.ends serial)
  waiting_runs : ∀ task ∈ system.queue.waiting, task.serial = serial →
    (system.starts serial).length = (system.ends serial).length
  running_runs : ∀ task ∈ system.queue.running?, task.serial = serial →
    (system.starts serial).length = (system.ends serial).length + 1
  slots : ∀ count now, (system.starts serial)[count]? = some now →
    origin + delay.nanos + count * interval.nanos ≤ now

namespace Tended

variable {before after : System} {event : Event} {serial : Nat} {origin : Moment}
  {delay interval : Duration}

theorem quiet (htended : Tended serial origin delay interval before)
    (hquiet : Quiet before after) : Tended serial origin delay interval after where
  task_eq := by
    rw [hquiet.scheduled_eq, hquiet.ends_eq]
    exact htended.task_eq
  waiting_runs := by
    rw [hquiet.waiting_eq, hquiet.starts_eq, hquiet.ends_eq]
    exact htended.waiting_runs
  running_runs := by
    rw [hquiet.running?_eq, hquiet.starts_eq, hquiet.ends_eq]
    exact htended.running_runs
  slots := by
    rw [hquiet.starts_eq]
    exact htended.slots

/-- The start of the next run is in its slot as well, as the task was due. -/
theorem slots_concat (htended : Tended serial origin delay interval before) {now due : Moment}
    {task : Task} (htask : task ∈ before.queue.waiting) (hserial : task.serial = serial)
    (hdue : task.due? = some due) (hlate : due ≤ now) {count : Nat} {start : Moment}
    (hstart : (before.starts serial ++ [now])[count]? = some start) :
    origin + delay.nanos + count * interval.nanos ≤ start := by
  rw [List.getElem?_append] at hstart
  split at hstart
  next => exact htended.slots count start hstart
  next houtside =>
    have hbound := (List.getElem?_eq_some_iff.mp hstart).1
    rw [List.length_singleton] at hbound
    -- The earlier runs have all ended, so that the ends tell the slot of this one.
    have hcount : count = (before.ends serial).length := by
      have hruns := htended.waiting_runs task htask hserial
      omega
    rw [show count - (before.starts serial).length = 0 by omega] at hstart
    cases hstart
    obtain ⟨-, heq⟩ := htended.task_eq task (List.mem_append_left _ htask) hserial
    rw [hcount]
    exact Nat.le_trans (le_of_dueAfter (heq.symm.trans hdue)) hlate

theorem take (htended : Tended serial origin delay interval before) (hsound : Sound before)
    {now due : Moment} {place : Nat} {task : Task} (hphase : before.phase = .choosing)
    (hlate : due ≤ now) (htask : before.queue.waiting[place]? = some task)
    (hdue : task.due? = some due) :
    Tended serial origin delay interval ({ before with
      queue := { before.queue with
        waiting := takeOut place before.queue.waiting, running? := some task }
      phase := .taken
      last? := some now }.note (.chosen task.serial now)) := by
  have hperm := hsound.scheduled_take hphase htask now (.chosen task.serial now)
  have hwaiting := List.mem_of_getElem? htask
  have hscheduled : task ∈ before.scheduled := List.mem_append_left _ hwaiting
  generalize hafter : System.note _ _ = after at hperm ⊢
  have hends : after.ends serial = before.ends serial := by
    rw [← hafter, ends_note]
    exact List.append_nil _
  have hstarts : after.starts serial =
      before.starts serial ++ if task.serial = serial then [now] else [] := by
    rw [← hafter, starts_note, Record.start?]
    split <;> rfl
  have htaken : after.queue.running? = some task := by rw [← hafter]; rfl
  have hleft : after.queue.waiting = takeOut place before.queue.waiting := by rw [← hafter]; rfl
  refine ⟨fun other hother hserial => ?_, fun other hother hserial => ?_,
    fun other hother hserial => ?_, fun count start hstart => ?_⟩
  · rw [hends]
    exact htended.task_eq other (hperm.subset hother) hserial
  · rw [hleft] at hother
    have hne : task.serial ≠ serial := hserial ▸ hsound.serial_ne_of_takeOut htask hother
    rw [hstarts, if_neg hne, List.append_nil, hends]
    exact htended.waiting_runs other (mem_takeOut htask hother) hserial
  · cases htaken.symm.trans hother
    rw [hstarts, if_pos hserial, List.length_append, hends]
    exact congrArg (· + 1) (htended.waiting_runs task hwaiting hserial)
  · rw [hstarts] at hstart
    split at hstart
    next hserial => exact htended.slots_concat hwaiting hserial hdue hlate hstart
    next =>
      rw [List.append_nil] at hstart
      exact htended.slots count start hstart

theorem restore (htended : Tended serial origin delay interval before) (hsound : Sound before)
    {now : Moment} {task : Task} (htask : before.queue.running? = some task) :
    Tended serial origin delay interval ({ before with
      queue := before.queue.restore task now
      phase := .looking
      last? := some now }.note (.restored task.serial now)) := by
  have hscheduled : task ∈ before.scheduled := by simp [scheduled, htask]
  generalize hafter : System.note _ _ = after
  have hstarts : after.starts serial = before.starts serial := by
    rw [← hafter, starts_note]
    exact List.append_nil _
  have hends : after.ends serial =
      before.ends serial ++ if task.serial = serial then [now] else [] := by
    rw [← hafter, ends_note, Record.end?]
    split <;> rfl
  have hnone : after.queue.running? = none := by rw [← hafter]; rfl
  have hwaiting : after.queue.waiting = before.queue.waiting ++ [Queue.renew task now] := by
    rw [← hafter]
    rfl
  have hmem (other : Task) : other ∈ after.scheduled ↔
      other ∈ before.queue.waiting ∨ other = Queue.renew task now := by
    rw [scheduled, hwaiting, hnone]
    simp
  refine ⟨fun other hother hserial => ?_, fun other hother hserial => ?_,
    fun other hother hserial => ?_, fun count start hstart => ?_⟩
  · rcases (hmem other).mp hother with hold | rfl
    · have hne : task.serial ≠ serial :=
        fun heq => hsound.serial_ne_of_running? htask hold (hserial.trans heq.symm)
      rw [hends, if_neg hne, List.append_nil]
      exact htended.task_eq other (List.mem_append_left _ hold) hserial
    · have hserial : task.serial = serial := hserial
      obtain ⟨hinterval, hdue⟩ := htended.task_eq task hscheduled hserial
      rw [hends, if_pos hserial]
      exact ⟨hinterval, due_renew now hinterval hdue⟩
  · rw [hwaiting] at hother
    rcases List.mem_append.mp hother with hold | hnew
    · have hne : task.serial ≠ serial :=
        fun heq => hsound.serial_ne_of_running? htask hold (hserial.trans heq.symm)
      rw [hstarts, hends, if_neg hne, List.append_nil]
      exact htended.waiting_runs other hold hserial
    · cases List.mem_singleton.mp hnew
      have hserial : task.serial = serial := hserial
      rw [hstarts, hends, if_pos hserial, List.length_append]
      exact htended.running_runs task htask hserial
  · rw [hnone] at hother
    cases hother
  · rw [hstarts] at hstart
    exact htended.slots count start hstart

/-- A task is taken off the schedule, or one is put there that is another one. -/
theorem others (htended : Tended serial origin delay interval before)
    (hwaiting : ∀ task ∈ after.queue.waiting, task.serial = serial →
      task ∈ before.queue.waiting)
    (hrunning : ∀ task ∈ after.queue.running?, task ∈ before.queue.running?)
    (hstarts : after.starts serial = before.starts serial)
    (hends : after.ends serial = before.ends serial) :
    Tended serial origin delay interval after where
  task_eq task htask hserial := by
    rw [hends]
    refine htended.task_eq task ?_ hserial
    rcases List.mem_append.mp htask with hwaits | hout
    · exact List.mem_append_left _ (hwaiting task hwaits hserial)
    · exact List.mem_append_right _
        (Option.mem_toList.mpr (hrunning task (Option.mem_toList.mp hout)))
  waiting_runs task htask hserial := by
    rw [hstarts, hends]
    exact htended.waiting_runs task (hwaiting task htask hserial) hserial
  running_runs task htask hserial := by
    rw [hstarts, hends]
    exact htended.running_runs task (hrunning task htask) hserial
  slots := hstarts ▸ htended.slots

theorem touch (htended : Tended serial origin delay interval before) (hsound : Sound before)
    (hentering : serial ∉ before.entering) (htouch : Touch before event after) :
    Tended serial origin delay interval after := by
  cases htouch with
  | drop hphase htask hcancelled =>
      exact htended.others (fun _ hother _ => List.eraseIdx_subset hother) (fun _ => id) rfl rfl
  | take hphase hfound hlate htask hdue => exact htended.take hsound hphase hlate htask hdue
  | discard hphase htask hcancelled =>
      exact htended.others (fun _ hother _ => hother) (fun _ hother => nomatch hother) rfl rfl
  | restore hphase htask => exact htended.restore hsound htask
  | schedule delay interval =>
      exact htended.others (fun _ hother _ => hother) (fun _ => id) rfl rfl
  | @enter index claimed now otherDelay otherInterval hcall hfree =>
      have hclaimed : claimed ∈ before.entering :=
        List.mem_filterMap.mpr ⟨_, List.mem_of_getElem? hcall, rfl⟩
      refine htended.others (fun other hother hserial => ?_) (fun _ => id) ?_ ?_
      · rcases List.mem_append.mp hother with hold | hnew
        · exact hold
        · cases List.mem_singleton.mp hnew
          exact absurd (hserial ▸ hclaimed) hentering
      · rw [starts_note]
        exact List.append_nil _
      · rw [ends_note]
        exact List.append_nil _

theorem enter (hsound : Sound before) {index : Nat}
    (hcall : before.calls[index]? = some (.entering serial delay interval)) (now : Moment) :
    Tended serial now delay interval ({ before with
      queue := before.queue.enter serial now delay interval
      calls := before.calls.set index .signalling
      last? := some now }.note (.entered serial now delay interval)) := by
  have hentering : serial ∈ before.entering :=
    List.mem_filterMap.mpr ⟨_, List.mem_of_getElem? hcall, rfl⟩
  have hother (task : Task) (htask : task ∈ before.scheduled) : task.serial ≠ serial :=
    fun heq => (hsound.known htask).2 (heq ▸ hentering)
  have hnew (task : Task) (htask : task ∈ (before.queue.enter serial now delay interval).waiting)
      (hserial : task.serial = serial) : task = ⟨serial, now.after? delay, interval⟩ := by
    rcases List.mem_append.mp htask with hold | hnew
    · exact absurd hserial (hother task (List.mem_append_left _ hold))
    · exact List.mem_singleton.mp hnew
  generalize hafter : System.note _ _ = after
  have hstarts : after.starts serial = [] := by
    rw [← hafter, starts_note]
    exact (List.append_nil _).trans (hsound.starts_eq_nil hentering)
  have hends : after.ends serial = [] := by
    rw [← hafter, ends_note]
    exact (List.append_nil _).trans (hsound.ends_eq_nil hentering)
  refine ⟨fun task htask hserial => ?_, fun _ _ _ => ?_, fun task htask hserial => ?_,
    fun count start hstart => ?_⟩
  · rw [← hafter] at htask
    rcases List.mem_append.mp htask with hwaiting | hout
    · cases hnew task hwaiting hserial
      rw [hends]
      exact ⟨rfl, rfl⟩
    · exact absurd hserial (hother task (List.mem_append_right _ hout))
  · rw [hstarts, hends]
  · rw [← hafter] at htask
    exact absurd hserial (hother task (List.mem_append_right _ (Option.mem_toList.mpr htask)))
  · rw [hstarts] at hstart
    cases hstart

end Tended

/-- A task on the schedule was there before, but for when it is due, or is put there by a call. -/
theorem Stride.exists_origin {before after : System} {event : Event}
    (hstride : Stride before event after) (hsound : Sound before) {task : Task}
    (htask : task ∈ after.scheduled) :
    (∃ other ∈ before.scheduled, other.serial = task.serial ∧ other.interval = task.interval) ∨
      ∃ origin delay, .entered task.serial origin delay task.interval ∈ after.log := by
  have hsame (hold : task ∈ before.scheduled) :
      ∃ other ∈ before.scheduled, other.serial = task.serial ∧ other.interval = task.interval :=
    ⟨task, hold, rfl, rfl⟩
  rcases hstride.touch_or_quiet with htouch | hquiet
  · cases htouch with
    | drop hphase hdropped hcancelled =>
        refine .inl (hsame ?_)
        exact (List.mem_append.mp htask).elim
          (fun hleft => List.mem_append_left _ (List.eraseIdx_subset hleft))
          (List.mem_append_right _)
    | take hphase hfound hlate htaken hdue =>
        exact .inl (hsame ((hsound.scheduled_take hphase htaken _ _).subset htask))
    | discard hphase hran hcancelled =>
        exact .inl (hsame (List.mem_append_left _
          (List.append_nil before.queue.waiting ▸ htask)))
    | @restore now ran hphase hran =>
        rcases List.mem_append.mp htask with hwaiting | hnone
        · rcases List.mem_append.mp hwaiting with hold | hnew
          · exact .inl (hsame (List.mem_append_left _ hold))
          · cases List.mem_singleton.mp hnew
            exact .inl ⟨ran, List.mem_append_right _ (Option.mem_toList.mpr hran), rfl, rfl⟩
        · cases hnone
    | schedule delay interval => exact .inl (hsame htask)
    | @enter index serial now delay interval hcall hfree =>
        rcases List.mem_append.mp htask with hwaiting | hout
        · rcases List.mem_append.mp hwaiting with hold | hnew
          · exact .inl (hsame (List.mem_append_left _ hold))
          · cases List.mem_singleton.mp hnew
            exact .inr ⟨now, delay, List.mem_append_right _ (List.mem_singleton_self _)⟩
        · exact .inl (hsame (List.mem_append_right _ hout))
  · exact .inl (hsame (hquiet.scheduled_eq ▸ htask))

/-- Each task on the schedule was put there by a call, and each task that a call has put there is
tended. -/
structure Registered (system : System) : Prop extends Sound system where
  tended : ∀ serial origin delay interval, .entered serial origin delay interval ∈ system.log →
    Tended serial origin delay interval system
  enrolled : ∀ task ∈ system.scheduled, ∃ origin delay,
    .entered task.serial origin delay task.interval ∈ system.log

namespace Registered

variable {before after : System} {event : Event}

theorem start : Registered System.start :=
  ⟨.start, fun _ _ _ _ hrecord => (nomatch hrecord), fun _ htask => (nomatch htask)⟩

theorem tended_of_stride (hregistered : Registered before) (hstride : Stride before event after)
    {serial : Nat} {origin : Moment} {delay interval : Duration}
    (hrecord : .entered serial origin delay interval ∈ after.log) :
    Tended serial origin delay interval after := by
  have hsound := hregistered.toSound
  rcases hstride.touch_or_quiet with htouch | hquiet
  · have hkept (hold : .entered serial origin delay interval ∈ before.log) :
        Tended serial origin delay interval after :=
      (hregistered.tended serial origin delay interval hold).touch hsound
        (hsound.logged _ hold serial rfl).2 htouch
    cases htouch with
    | enter hcall hfree =>
        rcases List.mem_append.mp hrecord with hold | hnew
        · exact hkept hold
        · cases List.mem_singleton.mp hnew
          exact .enter hsound hcall origin
    | _ =>
        refine hkept ?_
        simpa [note, System.schedule] using hrecord
  · have hold := (hquiet.mem_log_iff rfl).mp hrecord
    exact (hregistered.tended serial origin delay interval hold).quiet hquiet

theorem step (hregistered : Registered before) (hstride : Stride before event after) :
    Registered after where
  toSound := hregistered.toSound.step hstride
  tended _ _ _ _ := hregistered.tended_of_stride hstride
  enrolled task htask := by
    rcases hstride.exists_origin hregistered.toSound htask with ⟨other, hother, heq⟩ | hnew
    · obtain ⟨origin, delay, hrecord⟩ := hregistered.enrolled other hother
      obtain ⟨records, hlog⟩ := hstride.grows.1
      rw [heq.1, heq.2] at hrecord
      exact ⟨origin, delay, hlog ▸ List.mem_append_left _ hrecord⟩
    · exact hnew

end Registered

theorem Reaches.registered {law : Law} {system : System} (hreaches : Reaches law start system) :
    Registered system :=
  hreaches.stepwise Registered .start fun hregistered _ hstride => hregistered.step hstride

/-- The worker goes through two tasks of the queue. -/
def round : List Event := List.replicate 4 .turn

end System

end Pooling.Schedule
