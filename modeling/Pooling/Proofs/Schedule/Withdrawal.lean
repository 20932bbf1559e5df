import Mathlib.Data.List.InsertIdx
import Pooling.Proofs.Schedule.Stopping

/-!
Cancelling a task is final. The flag of a task is set without the lock, but the call returns only
when the lock has been free since, so that whatever the worker has looked at by then under the lock
was found without that flag, or is gone.
-/

namespace Pooling.Schedule

namespace System

/-- The tasks that the worker has found not to be cancelled, and relies on it, since it has the
lock. -/
def cleared (system : System) : List Task :=
  match system.phase with
  | .pruning kept => system.queue.waiting.take kept
  | .choosing => system.queue.waiting
  | .restoring => system.queue.running?.toList
  | _ => []

theorem cleared_of_free {system : System} (hfree : system.phase.holds = false) :
    system.cleared = [] := by
  unfold cleared
  cases hphase : system.phase with
  | pruning | choosing | restoring =>
      rw [hphase] at hfree
      cases hfree
  | _ => rfl

theorem cleared_wake (system : System) : system.wake.cleared = system.cleared := by
  unfold cleared wake
  cases system.phase <;> rfl

section

variable {before after : System} {event : Event} {task : Task}

theorem Touch.cleared (htouch : Touch before event after) (htask : task ∈ after.cleared) :
    task ∈ before.cleared := by
  cases htouch with
  | @drop kept dropped hphase hdropped hcancelled =>
      rw [System.cleared, hphase] at htask ⊢
      dsimp only at htask ⊢
      rwa [List.take_eraseIdx_eq_take_of_le _ _ _ (Nat.le_refl kept)] at htask
  | take | discard | restore => cases htask
  | schedule delay interval => exact htask
  | enter hcall hfree =>
      generalize hafter : System.note _ _ = after at htask
      rw [cleared_of_free (by rw [← hafter]; exact hfree)] at htask
      cases htask

/-- Whatever the worker comes to rely on was not cancelled when it looked. -/
theorem Shift.cleared {system : System} {phase : Phase}
    (hshift : Shift system system.phase phase)
    (htask : task ∈ ({ system with phase } : System).cleared) :
    task ∈ system.cleared ∨ task.serial ∉ system.queue.cancelled := by
  generalize hold : system.phase = old at hshift
  cases hshift with
  | @keep kept found hfound hkept =>
      rw [System.cleared, hold]
      rw [System.cleared] at htask
      dsimp only at htask ⊢
      rw [List.take_add_one, hfound, Option.toList_some] at htask
      rcases List.mem_append.mp htask with hearlier | hnow
      · exact .inl hearlier
      · exact .inr (List.mem_singleton.mp hnow ▸ hkept)
  | @spare found hfound hspared =>
      rw [System.cleared] at htask
      dsimp only at htask
      rw [hfound] at htask
      exact .inr (List.mem_singleton.mp htask ▸ hspared)
  | _ => cases htask

theorem Stride.cleared (hstride : Stride before event after) (htask : task ∈ after.cleared) :
    task ∈ before.cleared ∨ task.serial ∉ before.queue.cancelled := by
  cases hstride with
  | touch htouch => exact .inl (htouch.cleared htask)
  | shift hshift hreading => exact hshift.cleared htask
  | @pruned kept hphase hall =>
      rw [System.cleared, hphase]
      dsimp only
      rw [List.take_of_length_le hall]
      exact .inl htask
  | early | begin | finish => cases htask
  | cancel | shutdown | join | retire => exact .inl htask
  | signal | announce | alert => exact .inl (cleared_wake _ ▸ htask)

/-- A task comes into the queue only from a call or from the worker that puts it back. -/
theorem Stride.waiting (hstride : Stride before event after) (htask : task ∈ after.queue.waiting) :
    task ∈ before.queue.waiting ∨ task.serial ∈ before.entering ∨
      ∃ other ∈ before.cleared, other.serial = task.serial := by
  rcases hstride.touch_or_quiet with htouch | hquiet
  · cases htouch with
    | drop hphase hdropped hcancelled => exact .inl (List.eraseIdx_subset htask)
    | take hphase hfound hlate htaken hdue => exact .inl (mem_takeOut htaken htask)
    | discard | schedule => exact .inl htask
    | @restore now ran hphase hran =>
        refine (List.mem_append.mp htask).imp_right fun hnew => .inr ⟨ran, ?_, ?_⟩
        · rw [System.cleared, hphase]
          exact Option.mem_toList.mpr hran
        · rw [List.mem_singleton.mp hnew]
          rfl
    | enter hcall hfree =>
        refine (List.mem_append.mp htask).imp_right fun hnew => .inl ?_
        rw [List.mem_singleton.mp hnew]
        exact List.mem_filterMap.mpr ⟨_, List.mem_of_getElem? hcall, rfl⟩
  · exact .inl (hquiet.waiting_eq ▸ htask)

theorem Stride.entered (hstride : Stride before event after) {serial : Nat}
    (hlt : serial < before.queue.nextSerial) (hentered : serial ∉ before.entering) :
    serial < after.queue.nextSerial ∧ serial ∉ after.entering := by
  rcases hstride.touch_or_quiet with htouch | hquiet
  · cases htouch with
    | drop | take | discard | restore => exact ⟨hlt, hentered⟩
    | schedule delay interval =>
        refine ⟨Nat.lt_succ_of_lt hlt, fun hmem => ?_⟩
        rw [show (before.schedule delay interval).entering = _ from entering_concat _ _] at hmem
        rcases List.mem_append.mp hmem with hold | hnew
        · exact hentered hold
        · exact Nat.ne_of_lt hlt (List.mem_singleton.mp hnew)
    | enter hcall hfree =>
        exact ⟨hlt, fun hmem =>
          hentered ((entering_perm hcall rfl rfl).subset (List.mem_cons_of_mem _ hmem))⟩
  · rw [hquiet.nextSerial_eq, hquiet.entering_eq]
    exact ⟨hlt, hentered⟩

end

/-- What holds of the tasks that calls have cancelled. -/
structure Revoking (system : System) : Prop where
  entered : ∀ serial ∈ system.queue.cancelled,
    serial < system.queue.nextSerial ∧ serial ∉ system.entering
  called : ∀ serial, serial ∈ system.queue.cancelled ↔
    .cancelled serial ∈ system.log ∨ .announcing serial ∈ system.calls
  uncleared : ∀ serial, .cancelled serial ∈ system.log →
    ∀ task ∈ system.cleared, task.serial ≠ serial

namespace Revoking

variable {before after : System} {event : Event}

theorem start : Revoking start where
  entered _ hmem := nomatch hmem
  called _ := ⟨nofun, fun hcalled => hcalled.elim nofun nofun⟩
  uncleared _ hmem := nomatch hmem

theorem uncleared_of_stride (hrevoking : Revoking before) (hstride : Stride before event after)
    {serial : Nat} (hcancelled : .cancelled serial ∈ before.log) {task : Task}
    (htask : task ∈ after.cleared) : task.serial ≠ serial := by
  rcases hstride.cleared htask with hearlier | hspared
  · exact hrevoking.uncleared serial hcancelled task hearlier
  · -- The flag was set before the call returned, so the worker would have seen it.
    exact fun heq => hspared (heq ▸ (hrevoking.called serial).mpr (.inl hcancelled))

/-- A step that takes none of the calls to cancel a task further. -/
theorem aside (hrevoking : Revoking before) (hstride : Stride before event after)
    (hcancelled : after.queue.cancelled = before.queue.cancelled)
    (hlog : ∀ serial, .cancelled serial ∈ after.log ↔ .cancelled serial ∈ before.log)
    (hcalls : ∀ serial, .announcing serial ∈ after.calls ↔ .announcing serial ∈ before.calls) :
    Revoking after where
  entered serial hmem := by
    obtain ⟨hlt, hentered⟩ := hrevoking.entered serial (hcancelled ▸ hmem)
    exact hstride.entered hlt hentered
  called serial := by
    rw [hcancelled, hlog, hcalls]
    exact hrevoking.called serial
  uncleared serial hmem task htask :=
    hrevoking.uncleared_of_stride hstride ((hlog serial).mp hmem) htask

theorem touch (hrevoking : Revoking before) (htouch : Touch before event after) :
    Revoking after := by
  have hstride : Stride before event after := .touch htouch
  cases htouch with
  | drop | discard => exact hrevoking.aside hstride rfl (fun _ => .rfl) fun _ => .rfl
  | take | restore => exact hrevoking.aside hstride rfl (by simp [note]) fun _ => .rfl
  | schedule delay interval =>
      exact hrevoking.aside hstride rfl (fun _ => .rfl) (by simp [System.schedule])
  | enter hcall hfree =>
      exact hrevoking.aside hstride rfl (by simp [note]) fun _ =>
        mem_set_iff_of_ne hcall (by simp) (by simp)

theorem cancel (hrevoking : Revoking before) {serial : Nat}
    (hbefore : serial < before.queue.nextSerial)
    (hentered : ∀ call ∈ before.calls, call.entering? ≠ some serial) :
    Revoking { before with
      queue := before.queue.cancel serial
      calls := before.calls ++ [.announcing serial] } := by
  have hstride : Stride before _ _ := .cancel hbefore hentered
  refine ⟨fun other hmem => ?_, fun other => ?_, fun other hmem task htask => ?_⟩
  · rcases List.mem_cons.mp hmem with rfl | hold
    · refine hstride.entered hbefore fun hentering => ?_
      obtain ⟨call, hcall, heq⟩ := List.mem_filterMap.mp hentering
      exact hentered call hcall heq
    · obtain ⟨hlt, hnot⟩ := hrevoking.entered other hold
      exact hstride.entered hlt hnot
  · show other ∈ serial :: _ ↔ _
    rw [List.mem_cons, hrevoking.called other, List.mem_append, List.mem_singleton,
      Call.announcing.injEq]
    tauto
  · exact hrevoking.uncleared_of_stride hstride hmem htask

/-- A call to cancel a task returns while the worker relies on nothing. -/
theorem announce (hrevoking : Revoking before) {index serial : Nat}
    (hcall : before.calls[index]? = some (.announcing serial))
    (hfree : before.phase.holds = false) :
    Revoking ((before.close index).wake.note (.cancelled serial)) := by
  have hstride : Stride before _ _ := .announce hcall hfree
  refine ⟨fun other hmem => ?_, fun other => ?_, fun other hmem task htask => ?_⟩
  · obtain ⟨hlt, hnot⟩ := hrevoking.entered other hmem
    exact hstride.entered hlt hnot
  · show other ∈ before.queue.cancelled ↔
      .cancelled other ∈ before.log ++ [_] ∨ .announcing other ∈ before.calls.eraseIdx index
    rw [hrevoking.called other, mem_iff_eraseIdx hcall, List.mem_append, List.mem_singleton,
      Record.cancelled.injEq, Call.announcing.injEq, or_assoc]
  · have hnone : before.cleared = [] := cleared_of_free hfree
    have htask : task ∈ before.cleared := cleared_wake (before.close index) ▸ htask
    rw [hnone] at htask
    cases htask

theorem step (hrevoking : Revoking before) (hstride : Stride before event after) :
    Revoking after := by
  cases hstride with
  | touch htouch => exact hrevoking.touch htouch
  | cancel hbefore hentered => exact hrevoking.cancel hbefore hentered
  | announce hcall hfree => exact hrevoking.announce hcall hfree
  | shift hshift hreading =>
      exact hrevoking.aside (.shift hshift hreading) rfl (fun _ => .rfl) fun _ => .rfl
  | pruned hphase hall =>
      exact hrevoking.aside (.pruned hphase hall) rfl (by simp [note]) fun _ => .rfl
  | early hphase hfound hearly =>
      exact hrevoking.aside (.early hphase hfound hearly) rfl (fun _ => .rfl) fun _ => .rfl
  | begin hphase htask =>
      exact hrevoking.aside (.begin hphase htask) rfl (by simp [note]) fun _ => .rfl
  | finish hphase houtside hran =>
      exact hrevoking.aside (.finish hphase houtside hran) rfl (fun _ => .rfl) fun _ => .rfl
  | shutdown hinside =>
      exact hrevoking.aside (.shutdown hinside) rfl (fun _ => .rfl) (by simp)
  | signal hcall =>
      exact hrevoking.aside (.signal hcall) rfl (fun _ => .rfl) fun _ =>
        mem_eraseIdx_iff_of_ne hcall (by simp)
  | alert hcall hfree =>
      exact hrevoking.aside (.alert hcall hfree) rfl (fun _ => .rfl) fun _ =>
        mem_set_iff_of_ne hcall (by simp) (by simp)
  | join hcall hfree hjoinable =>
      exact hrevoking.aside (.join hcall hfree hjoinable) rfl (fun _ => .rfl) fun _ =>
        mem_set_iff_of_ne hcall (by simp) (by simp)
  | retire hcall hretires =>
      refine hrevoking.aside (.retire hcall hretires) rfl (by simp [note, close]) fun _ =>
        mem_eraseIdx_iff_of_ne hcall ?_
      cases hretires <;> simp

end Revoking

theorem Reaches.revoking {law : Law} {system : System} (hreaches : Reaches law start system) :
    Revoking system :=
  hreaches.stepwise Revoking .start fun hrevoking _ hstride => hrevoking.step hstride

/-- A call to cancel a task has returned. -/
structure Withdrawn (serial : Nat) (system : System) : Prop extends Revoking system where
  returned : .cancelled serial ∈ system.log

namespace Withdrawn

variable {before after : System} {event : Event} {serial : Nat}

theorem step (hwithdrawn : Withdrawn serial before) (hstride : Stride before event after) :
    Withdrawn serial after := by
  obtain ⟨records, hlog⟩ := hstride.grows.1
  exact ⟨hwithdrawn.toRevoking.step hstride, hlog ▸ List.mem_append_left _ hwithdrawn.returned⟩

theorem serial_ne_of_choosing (hwithdrawn : Withdrawn serial before)
    (hphase : before.phase = .choosing) {task : Task} (htask : task ∈ before.queue.waiting) :
    task.serial ≠ serial := by
  refine hwithdrawn.uncleared serial hwithdrawn.returned task ?_
  rw [cleared, hphase]
  exact htask

theorem serial_ne_of_stride (hwithdrawn : Withdrawn serial before)
    (hstride : Stride before event after)
    (hgone : ∀ task ∈ before.queue.waiting, task.serial ≠ serial) {task : Task}
    (htask : task ∈ after.queue.waiting) : task.serial ≠ serial := by
  rcases hstride.waiting htask with hold | hentering | ⟨other, hother, heq⟩
  · exact hgone task hold
  · have hcancelled := (hwithdrawn.called serial).mpr (.inl hwithdrawn.returned)
    exact fun heq => (hwithdrawn.entered serial hcancelled).2 (heq ▸ hentering)
  · exact heq ▸ hwithdrawn.uncleared serial hwithdrawn.returned other hother

end Withdrawn

theorem Stride.choosing_of_pruned {before after : System} {event : Event}
    (hstride : Stride before event after) : ∃ records, after.log = before.log ++ records ∧
      (.pruned ∈ records → after.phase = .choosing) := by
  have hsame : before.log = before.log ++ [] := (List.append_nil _).symm
  cases hstride with
  | touch htouch =>
      cases htouch with
      | drop | discard | schedule => exact ⟨[], hsame, nofun⟩
      | take | restore | enter => exact ⟨_, rfl, by simp⟩
  | pruned hphase hall => exact ⟨_, rfl, fun _ => rfl⟩
  | shift | early | finish | cancel | shutdown | signal | alert | join => exact ⟨[], hsame, nofun⟩
  | begin | announce | retire => exact ⟨_, rfl, by simp⟩

section

variable {law : Law} {before after : System} {records : List Record} {serial : Nat}

theorem Withdrawn.chosen_notMem (hwithdrawn : Withdrawn serial before)
    (hreaches : Reaches law before after) (hlog : after.log = before.log ++ records)
    (now : Moment) : .chosen serial now ∉ records :=
  hreaches.chosen_notMem hlog (Withdrawn serial) hwithdrawn (fun hold hstride => hold.step hstride)
    (fun _ hold hphase _ htask => hold.serial_ne_of_choosing hphase htask) now

/-- Once the worker has gone through its queue, the task is not in it. -/
theorem Withdrawn.serial_ne_of_pruned (hwithdrawn : Withdrawn serial before)
    (hreaches : Reaches law before after) (hlog : after.log = before.log ++ records)
    (hpruned : .pruned ∈ records) {task : Task} (htask : task ∈ after.queue.waiting) :
    task.serial ≠ serial := by
  refine (hreaches.history hlog (fun since system => Withdrawn serial system ∧
    (.pruned ∈ since → ∀ task ∈ system.queue.waiting, task.serial ≠ serial))
    ⟨hwithdrawn, nofun⟩ ?_).2 hpruned task htask
  rintro since system next event ⟨hold, hgone⟩ _ hstride
  obtain ⟨more, hmore, hchoosing⟩ := hstride.choosing_of_pruned
  refine ⟨more, hmore, hold.step hstride, fun hpruned task htask => ?_⟩
  rcases List.mem_append.mp hpruned with hearlier | hnow
  · exact hold.serial_ne_of_stride hstride (hgone hearlier) htask
  · exact (hold.step hstride).serial_ne_of_choosing (hchoosing hnow) htask

end

variable {before after : System}

/-- What is final, whatever happens afterwards. After a call to cancel a task has returned, the task
is not taken out any more; one run of it begins at most, if the worker had taken it out before; and
from when the worker has gone through its queue on, it is not in it. Any task that no call cancels
stays on the schedule, and only its own runs change it. After a call to shut down has returned, no
run begins. -/
theorem final_of_reaches {records : List Record} (hbefore : Reaches anyhow start before)
    (hafter : Reaches anyhow before after) (hlog : after.log = before.log ++ records) :
    (∀ serial, .cancelled serial ∈ before.log →
      (∀ now, .chosen serial now ∉ records) ∧ records.count (.begun serial) ≤ 1 ∧
        (.begun serial ∈ records → before.phase = .taken ∧
          ∃ task, before.queue.running? = some task ∧ task.serial = serial) ∧
        (.pruned ∈ records → ∀ task ∈ after.queue.waiting, task.serial ≠ serial)) ∧
      (∀ task ∈ before.scheduled, .cancelled task.serial ∉ after.log →
        .announcing task.serial ∉ after.calls → task.through records ∈ after.scheduled) ∧
      (.shut ∈ before.log → ∀ serial, .begun serial ∉ records) := by
  refine ⟨fun serial hreturned => ?_, fun task htask hnone hcalls => ?_, fun hshut serial => ?_⟩
  · have hwithdrawn : Withdrawn serial before := ⟨hbefore.revoking, hreturned⟩
    have hchosen := hwithdrawn.chosen_notMem hafter hlog
    have hcount := hafter.count_begun_le hlog hchosen
    refine ⟨hchosen, Nat.le_trans hcount (pending_le_one before _), fun hbegun => ?_,
      fun hpruned task htask => hwithdrawn.serial_ne_of_pruned hafter hlog hpruned htask⟩
    exact exists_of_pending_pos (Nat.lt_of_lt_of_le (List.count_pos_iff.mpr hbegun) hcount)
  · have hreaches : Reaches anyhow start after := hbefore.trans hafter
    refine hafter.through hlog hbefore.sound htask fun hcancelled => ?_
    exact ((hreaches.revoking.called _).mp hcancelled).elim hnone hcalls
  · exact (hbefore.closing.shut hshut).begun_notMem hafter hlog serial

/-- Two tasks are scheduled, and the first one is cancelled when it has been taken out. -/
def dismissal : List Event :=
  [.schedule .zero .zero, .enter 0 100, .advance 0, .schedule .zero .zero, .enter 0 101,
    .advance 0] ++ List.replicate 5 .turn ++ [.read 103, .cancel 0, .advance 0]

/-- It runs all the same; then the second one does, and shuts the schedule down. -/
def farewell : List Event :=
  [.turn, .finish false] ++ List.replicate 5 .turn ++
    [.read 104, .turn, .shutdown true, .advance 0, .advance 0]

/-- The second one is put back, and the worker ends. -/
def closure : List Event := [.finish false, .turn, .turn, .read 105, .turn]

/-- The first task has run once more and is gone, and the second one stays but does not run again. -/
theorem final_of_farewell : ∃ before middle after : System,
    run? anyhow dismissal start = some before ∧ run? anyhow farewell before = some middle ∧
      run? anyhow closure middle = some after ∧ ∃ records more,
        middle.log = before.log ++ records ∧ after.log = middle.log ++ more ∧
        .begun 0 ∈ records ∧ records.count (.begun 0) ≤ 1 ∧
        (∀ task ∈ middle.queue.waiting, task.serial ≠ 0) ∧ (∀ serial, .begun serial ∉ more) ∧
        ⟨1, some 105, .zero⟩ ∈ after.scheduled := by
  have hlogs : ((run? anyhow dismissal start).bind fun before =>
      (run? anyhow farewell before).bind fun middle => (run? anyhow closure middle).map fun after =>
        (before.log, middle.log.drop before.log.length, after.log.drop middle.log.length)) =
      some ([.entered 0 100 .zero .zero, .entered 1 101 .zero .zero, .pruned, .chosen 0 103,
          .cancelled 0],
        [.begun 0, .pruned, .chosen 1 104, .begun 1, .shut], [.restored 1 105]) := by
    decide +kernel
  have hends : ((run? anyhow dismissal start).bind fun before =>
      (run? anyhow farewell before).bind fun middle => (run? anyhow closure middle).map fun after =>
        (before.queue.waiting, after.calls)) = some ([⟨1, some 101, .zero⟩], []) := by
    decide +kernel
  obtain ⟨before, hbefore, hlogs⟩ := Option.bind_eq_some_iff.mp hlogs
  obtain ⟨middle, hmiddle, hlogs⟩ := Option.bind_eq_some_iff.mp hlogs
  obtain ⟨after, hafter, hlogs⟩ := Option.map_eq_some_iff.mp hlogs
  rw [hbefore, Option.bind_some, hmiddle, Option.bind_some, hafter, Option.map_some,
    Option.some.injEq] at hends
  simp only [Prod.mk.injEq] at hlogs hends
  obtain ⟨hfirst, hrecords, hmore⟩ := hlogs
  obtain ⟨hwaiting, hcalls⟩ := hends
  have hopening : Reaches anyhow start before := Runs.reaches_of_run? hbefore
  have hparting : Reaches anyhow before middle := Runs.reaches_of_run? hmiddle
  have hclosing : Reaches anyhow middle after := Runs.reaches_of_run? hafter
  obtain ⟨records, hmiddleLog⟩ := hparting.log_eq
  obtain ⟨more, hafterLog⟩ := hclosing.log_eq
  rw [hmiddleLog, List.drop_left] at hrecords
  rw [hafterLog, List.drop_left] at hmore
  have hlog : after.log = before.log ++ (records ++ more) := by
    rw [hafterLog, hmiddleLog, List.append_assoc]
  obtain ⟨-, hcount, -, hgone⟩ :=
    (final_of_reaches hopening hparting hmiddleLog).1 0 (by rw [hfirst]; decide)
  have hnone := (final_of_reaches (hopening.trans hparting) hclosing hafterLog).2.2
    (by rw [hmiddleLog, hrecords]; simp)
  have hstays := (final_of_reaches hopening (hparting.trans hclosing) hlog).2.1 ⟨1, some 101, .zero⟩
    (by simp [scheduled, hwaiting]) (by rw [hlog, hfirst, hrecords, hmore]; decide) (by simp [hcalls])
  refine ⟨before, middle, after, hbefore, hmiddle, hafter, records, more, hmiddleLog, hafterLog,
    ?_, hcount, hgone ?_, hnone, ?_⟩
  · rw [hrecords]
    decide
  · rw [hrecords]
    decide
  · rw [hrecords, hmore] at hstays
    exact hstays

end System

end Pooling.Schedule
