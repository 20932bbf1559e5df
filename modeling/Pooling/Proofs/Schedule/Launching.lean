import Pooling.Proofs.Schedule.Standing

/-!
A run begins only of a task that the worker has taken out of the queue, and once each time.
-/

namespace Pooling.Schedule

namespace Record

/-- Whether a run begins, of one of certain tasks. -/
def begins (among : Nat → Bool) : Record → Bool
  | begun serial => among serial
  | _ => false

/-- Whether one of certain tasks is taken out to run. -/
def chooses (among : Nat → Bool) : Record → Bool
  | chosen serial _ => among serial
  | _ => false

end Record

namespace System

/-- One if one of certain tasks has been taken out and its run has not begun. -/
def pending (system : System) (among : Nat → Bool) : Nat :=
  if system.phase = .taken then
    system.queue.running?.toList.countP fun task => among task.serial
  else 0

theorem pending_of_ne {system : System} (hphase : system.phase ≠ .taken) (among : Nat → Bool) :
    system.pending among = 0 :=
  if_neg hphase

theorem pending_of_taken {system : System} {task : Task} (hphase : system.phase = .taken)
    (htask : system.queue.running? = some task) (among : Nat → Bool) :
    system.pending among = if among task.serial then 1 else 0 := by
  rw [pending, if_pos hphase, htask, Option.toList_some, List.countP_singleton]

theorem pending_idle {before after : System} (hbefore : before.phase ≠ .taken)
    (hafter : after.phase ≠ .taken) (among : Nat → Bool) :
    after.pending among = before.pending among := by
  rw [pending_of_ne hbefore, pending_of_ne hafter]

theorem pending_wake (system : System) (among : Nat → Bool) :
    system.wake.pending among = system.pending among := by
  unfold pending wake
  cases system.phase <;> rfl

section

variable {before after : System} {event : Event}

theorem Touch.balance (htouch : Touch before event after) (among : Nat → Bool) :
    ∃ records, after.log = before.log ++ records ∧
      records.countP (Record.begins among) + after.pending among =
        before.pending among + records.countP (Record.chooses among) := by
  cases htouch with
  | drop hphase hdropped hcancelled => exact ⟨[], (List.append_nil _).symm, Nat.zero_add _⟩
  | @take now due place task hphase hfound hlate htask hdue =>
      refine ⟨_, rfl, ?_⟩
      -- Nothing was about to begin while the worker selected.
      have hnone := pending_of_ne (show before.phase ≠ .taken by simp [hphase]) among
      generalize hafter : System.note _ _ = after
      have htaken : after.pending among = if among task.serial then 1 else 0 :=
        pending_of_taken (by rw [← hafter]; rfl) (by rw [← hafter]; rfl) among
      simp only [hnone, htaken, List.countP_singleton]
      rfl
  | discard hphase hran hcancelled =>
      refine ⟨[], (List.append_nil _).symm, (Nat.zero_add _).trans ?_⟩
      exact pending_idle (by simp [hphase]) (by simp) among
  | restore hphase hran =>
      refine ⟨_, rfl, (Nat.zero_add _).trans ?_⟩
      exact pending_idle (by simp [hphase]) (by simp [note]) among
  | schedule delay interval => exact ⟨[], (List.append_nil _).symm, Nat.zero_add _⟩
  | enter hcall hfree => exact ⟨_, rfl, Nat.zero_add _⟩

theorem Shift.pending_eq {system : System} {phase : Phase}
    (hshift : Shift system system.phase phase) (among : Nat → Bool) :
    ({ system with phase } : System).pending among = system.pending among := by
  unfold pending
  generalize system.phase = old at hshift
  cases hshift <;> rfl

/-- What has been taken out to run either has begun to, or is about to. -/
theorem Stride.balance (hstride : Stride before event after) (among : Nat → Bool) :
    ∃ records, after.log = before.log ++ records ∧
      records.countP (Record.begins among) + after.pending among =
        before.pending among + records.countP (Record.chooses among) := by
  have hsame : before.log = before.log ++ [] := (List.append_nil _).symm
  cases hstride with
  | touch htouch => exact htouch.balance among
  | shift hshift hreading =>
      exact ⟨[], hsame, (Nat.zero_add _).trans (hshift.pending_eq among)⟩
  | pruned hphase hall =>
      refine ⟨_, rfl, (Nat.zero_add _).trans ?_⟩
      exact pending_idle (by simp [hphase]) (by simp [note]) among
  | early hphase hfound hearly =>
      refine ⟨[], hsame, (Nat.zero_add _).trans ?_⟩
      exact pending_idle (by simp [hphase]) (by simp) among
  | begin hphase htask =>
      refine ⟨_, rfl, ?_⟩
      rw [pending_of_taken hphase htask]
      exact List.countP_singleton
  | finish hphase houtside hran =>
      refine ⟨[], hsame, (Nat.zero_add _).trans ?_⟩
      exact pending_idle (by simp [hphase]) (by simp) among
  | cancel hbefore hentered => exact ⟨[], hsame, Nat.zero_add _⟩
  | shutdown hinside => exact ⟨[], hsame, Nat.zero_add _⟩
  | signal hcall => exact ⟨[], hsame, (Nat.zero_add _).trans (pending_wake _ among)⟩
  | announce hcall hfree => exact ⟨_, rfl, (Nat.zero_add _).trans (pending_wake _ among)⟩
  | alert hcall hfree => exact ⟨[], hsame, (Nat.zero_add _).trans (pending_wake _ among)⟩
  | join hcall hfree hjoinable => exact ⟨[], hsame, Nat.zero_add _⟩
  | retire hcall hretires => exact ⟨_, rfl, Nat.zero_add _⟩

end

theorem Reaches.balance {law : Law} {before after : System} {records : List Record}
    (hreaches : Reaches law before after) (hlog : after.log = before.log ++ records)
    (among : Nat → Bool) : records.countP (Record.begins among) + after.pending among =
      before.pending among + records.countP (Record.chooses among) := by
  refine hreaches.history hlog (fun since system =>
    since.countP (Record.begins among) + system.pending among =
      before.pending among + since.countP (Record.chooses among)) (Nat.zero_add _) ?_
  intro since system next event hold _ hstride
  obtain ⟨more, hmore, hnew⟩ := hstride.balance among
  refine ⟨more, hmore, ?_⟩
  rw [List.countP_append, List.countP_append]
  omega

theorem countP_begins_eq (serial : Nat) (records : List Record) :
    records.countP (Record.begins (· == serial)) = records.count (.begun serial) := by
  refine List.countP_congr fun record _ => ?_
  cases record <;> simp [Record.begins]

theorem countP_chooses_eq_zero {serial : Nat} {records : List Record}
    (hnone : ∀ now, .chosen serial now ∉ records) :
    records.countP (Record.chooses (· == serial)) = 0 := by
  refine List.countP_eq_zero.mpr fun record hrecord hchooses => ?_
  cases record with
  | chosen other now => exact hnone now (beq_iff_eq.mp hchooses ▸ hrecord)
  | _ => cases hchooses

/-- The run of a task that is not taken out any more begins only if it was about to. -/
theorem Reaches.count_begun_le {law : Law} {before after : System} {records : List Record}
    (hreaches : Reaches law before after) (hlog : after.log = before.log ++ records) {serial : Nat}
    (hnone : ∀ now, .chosen serial now ∉ records) :
    records.count (.begun serial) ≤ before.pending (· == serial) := by
  have hbalance := hreaches.balance hlog (· == serial)
  rw [countP_begins_eq, countP_chooses_eq_zero hnone] at hbalance
  omega

theorem pending_le_one (system : System) (among : Nat → Bool) : system.pending among ≤ 1 := by
  unfold pending
  split
  · refine Nat.le_trans List.countP_le_length ?_
    cases system.queue.running? <;> simp
  · exact Nat.zero_le 1

theorem exists_of_pending_pos {system : System} {serial : Nat}
    (hpending : 0 < system.pending (· == serial)) : system.phase = .taken ∧
      ∃ task, system.queue.running? = some task ∧ task.serial = serial := by
  unfold pending at hpending
  split at hpending
  next hphase =>
    obtain ⟨task, htask, hserial⟩ := List.countP_pos_iff.mp hpending
    exact ⟨hphase, task, Option.mem_toList.mp htask, beq_iff_eq.mp hserial⟩
  next => cases hpending

/-- A task is taken out only while the worker selects, and of those that wait. -/
theorem Stride.waits_of_chosen {before after : System} {event : Event}
    (hstride : Stride before event after) :
    ∃ records, after.log = before.log ++ records ∧ ∀ serial now, .chosen serial now ∈ records →
      before.phase = .choosing ∧ ∃ task ∈ before.queue.waiting, task.serial = serial := by
  rcases hstride.touch_or_quiet with htouch | hquiet
  · cases htouch with
    | drop | discard | schedule => exact ⟨[], (List.append_nil _).symm, nofun⟩
    | restore | enter => exact ⟨_, rfl, by simp⟩
    | @take now due place task hphase hfound hlate htask hdue =>
        refine ⟨_, rfl, fun serial other hchosen => ?_⟩
        cases List.mem_singleton.mp hchosen
        exact ⟨hphase, task, List.mem_of_getElem? htask, rfl⟩
  · obtain ⟨records, hlog, hnone⟩ := hquiet.log_eq
    exact ⟨records, hlog, fun serial now hchosen => nomatch hnone _ hchosen⟩

/-- A task that is not among those that wait whenever the worker selects is not taken out. -/
theorem Reaches.chosen_notMem {law : Law} {before after : System} {records : List Record}
    (hreaches : Reaches law before after) (hlog : after.log = before.log ++ records)
    (holds : System → Prop) (hstart : holds before)
    (hkept : ∀ {system next : System} {event : Event}, holds system → Stride system event next →
      holds next) {serial : Nat}
    (hgone : ∀ system, holds system → system.phase = .choosing →
      ∀ task ∈ system.queue.waiting, task.serial ≠ serial) (now : Moment) :
    .chosen serial now ∉ records := by
  refine (hreaches.history hlog (fun since system => .chosen serial now ∉ since ∧ holds system)
    ⟨nofun, hstart⟩ ?_).1
  rintro since system next event ⟨hnone, hholds⟩ _ hstride
  obtain ⟨more, hmore, hwaits⟩ := hstride.waits_of_chosen
  refine ⟨more, hmore, ?_, hkept hholds hstride⟩
  rw [List.mem_append, not_or]
  refine ⟨hnone, fun hchosen => ?_⟩
  obtain ⟨hphase, task, htask, hserial⟩ := hwaits serial now hchosen
  exact hgone system hholds hphase task htask hserial

end System

end Pooling.Schedule
