import Pooling.Proofs.Schedule.Stopping

/-!
How often a task that is due is overtaken. As each run puts a task off to a later reading, whatever
is due no later than that task at the selection that finds it due runs at most once before it, and
whatever comes to be due afterwards not at all.
-/

namespace Pooling.Schedule

def Task.isDueBy (task : Task) (moment : Moment) : Bool := task.due?.any fun due => due ≤ moment

theorem Task.isDueBy_iff {task : Task} {moment : Moment} :
    task.isDueBy moment = true ↔ ∃ due, task.due? = some due ∧ due ≤ moment := by
  rw [isDueBy, Option.any_eq_true]
  simp

theorem Task.isDueBy_eq_false {task : Task} {moment : Moment}
    (hlater : ∀ due, task.due? = some due → moment < due) : task.isDueBy moment = false := by
  refine Bool.eq_false_iff.mpr fun hdue => ?_
  obtain ⟨due, hsome, hle⟩ := Task.isDueBy_iff.mp hdue
  exact Nat.not_le.mpr (hlater due hsome) hle

namespace System

/-- How many of certain tasks wait and are due by a moment. -/
def ahead (system : System) (due : Moment) (among : Nat → Bool) : Nat :=
  system.queue.waiting.countP fun task => among task.serial && task.isDueBy due

/-- A task that is due waits for its run to begin. What others have been taken out meanwhile and
what may still be taken out before it are no more than tasks that were due when it was found due. -/
structure Awaits (task : Task) (due : Moment) (queued : List Task) (records : List Record)
    (system : System) : Prop where
  clock : ∃ last, system.last? = some last ∧ due ≤ last
  held : system.phase = .taken ∧ system.queue.running? = some task ∨
    task ∈ system.queue.waiting ∧ system.phase ≠ .parked
  budget : ∀ among : Nat → Bool, among task.serial = false →
    records.countP (Record.chooses among) + system.ahead due among ≤
      queued.countP fun other => among other.serial && other.isDueBy due

section

variable {before after : System} {task : Task} {due now : Moment}

theorem ahead_take {place : Nat} {taken : Task} (hwaiting : before.queue.waiting[place]? = some taken)
    (hafter : after.queue.waiting = takeOut place before.queue.waiting)
    (hdue : taken.isDueBy due = true) (among : Nat → Bool) :
    after.ahead due among + (if among taken.serial then 1 else 0) = before.ahead due among := by
  rw [ahead, ahead, hafter, ← (takeOut_perm hwaiting).countP_eq, List.countP_cons, hdue,
    Bool.and_true]

theorem ahead_concat {late : Task}
    (hafter : after.queue.waiting = before.queue.waiting ++ [late])
    (hlate : late.isDueBy due = false) (among : Nat → Bool) :
    after.ahead due among = before.ahead due among := by
  rw [ahead, ahead, hafter, List.countP_append, List.countP_singleton, hlate, Bool.and_false]
  rfl

theorem le_of_earliest? {place : Nat} {found : Moment} (htask : task ∈ before.queue.waiting)
    (hdue : task.due? = some due)
    (hfound : earliest? before.queue.waiting = some (place, found)) : found ≤ due := by
  obtain ⟨-, -, -, hfirst⟩ := exists_of_earliest? hfound
  exact hfirst task htask due hdue

theorem lt_of_increasing {system : System} {event : Event} {last : Moment}
    (hlaw : increasing system event = true) (hreading : event.reading? = some now)
    (hlast : system.last? = some last) : last < now := by
  rw [increasing, hreading, hlast] at hlaw
  exact of_decide_eq_true hlaw

end

/-- A step at which no run begins, and none is about to begin that was not before. -/
structure Passes (before after : System) : Prop where
  taken_iff : after.phase = .taken ↔ before.phase = .taken
  running?_eq : after.phase = .taken → after.queue.running? = before.queue.running?
  awake : after.phase = .parked → before.phase = .parked

namespace Passes

variable {before after : System}

theorem of_phase_eq (hphase : after.phase = before.phase)
    (hrunning : after.queue.running? = before.queue.running?) : Passes before after :=
  ⟨by rw [hphase], fun _ => hrunning, fun hparked => hphase ▸ hparked⟩

theorem of_phase_ne (hbefore : before.phase ≠ .taken) (hafter : after.phase ≠ .taken)
    (hawake : after.phase ≠ .parked) : Passes before after :=
  ⟨iff_of_false hafter hbefore, fun htaken => absurd htaken hafter,
    fun hparked => absurd hparked hawake⟩

theorem of_roused (hphase : after.phase = before.phase.roused)
    (hrunning : after.queue.running? = before.queue.running?) : Passes before after := by
  cases hbefore : before.phase with
  | parked =>
      rw [hbefore] at hphase
      exact .of_phase_ne (by simp [hbefore]) (by simp [hphase, Phase.roused])
        (by simp [hphase, Phase.roused])
  | _ => exact .of_phase_eq (by rw [hphase, hbefore]; rfl) hrunning

end Passes

namespace Awaits

variable {system next : System} {event : Event} {task : Task} {due : Moment} {queued : List Task}
  {records more : List Record}

theorem lt_of_reading (hawaits : Awaits task due queued records system) {now : Moment}
    (hlaw : ∀ last, system.last? = some last → last < now) : due < now := by
  obtain ⟨last, hlast, hle⟩ := hawaits.clock
  exact Nat.lt_of_le_of_lt hle (hlaw last hlast)

theorem waits_of_ne (hawaits : Awaits task due queued records system)
    (hphase : system.phase ≠ .taken) : task ∈ system.queue.waiting :=
  hawaits.held.elim (fun htaken => absurd htaken.1 hphase) And.left

theorem pass (hawaits : Awaits task due queued records system) (hpasses : Passes system next)
    (hclock : ∃ last, next.last? = some last ∧ due ≤ last)
    (hstays : task ∈ system.queue.waiting → task ∈ next.queue.waiting)
    (hsilent : ∀ among, more.countP (Record.chooses among) = 0)
    (hahead : ∀ among, next.ahead due among ≤ system.ahead due among) :
    Awaits task due queued (records ++ more) next := by
  refine ⟨hclock, ?_, fun among hamong => ?_⟩
  · rcases hawaits.held with ⟨hphase, hout⟩ | ⟨hmem, hawake⟩
    · have htaken := hpasses.taken_iff.mpr hphase
      exact .inl ⟨htaken, (hpasses.running?_eq htaken).trans hout⟩
    · exact .inr ⟨hstays hmem, fun hparked => hawake (hpasses.awake hparked)⟩
  · rw [List.countP_append, hsilent]
    exact Nat.le_trans (Nat.add_le_add_left (hahead among) _) (hawaits.budget among hamong)

theorem keep (hawaits : Awaits task due queued records system) (hpasses : Passes system next)
    (hwaiting : next.queue.waiting = system.queue.waiting) (hlast : next.last? = system.last?)
    (hsilent : ∀ among, more.countP (Record.chooses among) = 0) :
    Awaits task due queued (records ++ more) next := by
  refine hawaits.pass hpasses (hlast ▸ hawaits.clock) (fun hmem => hwaiting ▸ hmem) hsilent
    fun among => Nat.le_of_eq ?_
  rw [ahead, ahead, hwaiting]

theorem join {late : Task} {now : Moment} (hawaits : Awaits task due queued records system)
    (hpasses : Passes system next) (hlaw : ∀ last, system.last? = some last → last < now)
    (hwaiting : next.queue.waiting = system.queue.waiting ++ [late])
    (hlate : ∀ moment, late.due? = some moment → now ≤ moment) (hlast : next.last? = some now)
    (hsilent : ∀ among, more.countP (Record.chooses among) = 0) :
    Awaits task due queued (records ++ more) next := by
  have hnow := hawaits.lt_of_reading hlaw
  have hbehind : late.isDueBy due = false :=
    Task.isDueBy_eq_false fun moment hmoment => Nat.lt_of_lt_of_le hnow (hlate moment hmoment)
  refine hawaits.pass hpasses ⟨now, hlast, Nat.le_of_lt hnow⟩ (fun hmem => ?_) hsilent
    fun among => Nat.le_of_eq (ahead_concat hwaiting hbehind among)
  rw [hwaiting]
  exact List.mem_append_left _ hmem

/-- The worker takes a task out while one is due that waits. -/
theorem of_take {now found : Moment} {place : Nat} {taken : Task} (hdue : task.due? = some due)
    (hlate : due ≤ now) (hmem : task ∈ system.queue.waiting)
    (hbudget : ∀ among : Nat → Bool, among task.serial = false →
      records.countP (Record.chooses among) + system.ahead due among ≤
        queued.countP fun other => among other.serial && other.isDueBy due)
    (hfound : earliest? system.queue.waiting = some (place, found))
    (hplace : system.queue.waiting[place]? = some taken) (htaken : taken.due? = some found) :
    Awaits task due queued (records ++ [.chosen taken.serial now]) ({ system with
      queue := { system.queue with
        waiting := takeOut place system.queue.waiting, running? := some taken }
      phase := .taken
      last? := some now }.note (.chosen taken.serial now)) := by
  refine ⟨⟨now, rfl, hlate⟩, ?_, fun among hamong => ?_⟩
  · rcases List.mem_cons.mp ((takeOut_perm hplace).symm.subset hmem) with rfl | hleft
    · exact .inl ⟨rfl, rfl⟩
    · exact .inr ⟨hleft, nofun⟩
  · -- The task taken out goes from those ahead to those chosen.
    have hearlier : taken.isDueBy due = true :=
      Task.isDueBy_iff.mpr ⟨found, htaken, le_of_earliest? hmem hdue hfound⟩
    have hbudget := hbudget among hamong
    generalize hnext : System.note _ _ = next
    have hahead : next.ahead due among + (if among taken.serial then 1 else 0) =
        system.ahead due among :=
      ahead_take hplace (by rw [← hnext]; rfl) hearlier among
    rw [List.countP_append, List.countP_singleton, Record.chooses]
    omega

/-- The task that was taken out begins to run; it is the one that waits, or one of the others. -/
theorem begin {taken : Task} (hawaits : Awaits task due queued records system)
    (htaken : system.queue.running? = some taken) :
    .begun task.serial ∈ [Record.begun taken.serial] ∨
      Awaits task due queued (records ++ [.begun taken.serial])
        ({ system with phase := .running }.note (.begun taken.serial)) := by
  rcases hawaits.held with ⟨-, hout⟩ | ⟨hmem, -⟩
  · cases htaken.symm.trans hout
    exact .inl (List.mem_singleton_self _)
  · refine .inr ⟨hawaits.clock, .inr ⟨hmem, nofun⟩, fun among hamong => ?_⟩
    rw [List.countP_append]
    exact hawaits.budget among hamong

theorem touch (hawaits : Awaits task due queued records system) (hdue : task.due? = some due)
    (hlaw : increasing system event = true) (htouch : Touch system event next) :
    ∃ more, next.log = system.log ++ more ∧
      (task.serial ∈ next.queue.cancelled ∨ Awaits task due queued (records ++ more) next) := by
  cases htouch with
  | @drop kept dropped hphase hdropped hcancelled =>
      refine ⟨[], (List.append_nil _).symm, ?_⟩
      by_cases heq : task = dropped
      · exact .inl (heq ▸ hcancelled)
      · refine .inr (hawaits.pass (.of_phase_eq rfl rfl) hawaits.clock (fun hmem => ?_)
          (fun _ => rfl) fun among => ?_)
        · exact ((mem_iff_eraseIdx hdropped task).mp hmem).resolve_left heq
        · exact (List.eraseIdx_sublist ..).countP_le
  | take hphase hfound hlate htaken hearlier =>
      have hmem := hawaits.waits_of_ne (by simp [hphase])
      have hnow := hawaits.lt_of_reading fun _ => lt_of_increasing hlaw rfl
      exact ⟨_, rfl, .inr (.of_take hdue (Nat.le_of_lt hnow) hmem hawaits.budget hfound htaken
        hearlier)⟩
  | discard hphase hran hcancelled =>
      refine ⟨[], (List.append_nil _).symm, .inr (hawaits.keep ?_ rfl rfl fun _ => rfl)⟩
      exact .of_phase_ne (by simp [hphase]) nofun nofun
  | restore hphase hran =>
      -- The clock has gone on since the selection, and the task is due no earlier than now.
      refine ⟨_, rfl, .inr (hawaits.join (.of_phase_ne (by simp [hphase]) nofun nofun)
        (fun _ => lt_of_increasing hlaw rfl) rfl (fun _ => Queue.le_of_due_renew) rfl fun _ => rfl)⟩
  | schedule delay interval =>
      refine ⟨[], (List.append_nil _).symm, .inr (hawaits.keep ?_ rfl rfl fun _ => rfl)⟩
      exact .of_phase_eq rfl rfl
  | enter hcall hfree =>
      refine ⟨_, rfl, .inr (hawaits.join (.of_phase_eq rfl rfl)
        (fun _ => lt_of_increasing hlaw rfl) rfl (fun moment hmoment => ?_) rfl fun _ => rfl)⟩
      obtain ⟨heq, -⟩ := Moment.after?_eq_some_iff.mp hmoment
      exact Nat.le_trans (Nat.le_add_right _ _) (Nat.le_of_eq heq)

theorem shift {phase : Phase} (hawaits : Awaits task due queued records system)
    (hdue : task.due? = some due) (hshift : Shift system system.phase phase) :
    Awaits task due queued (records ++ []) { system with phase } := by
  refine hawaits.keep ?_ rfl rfl fun _ => rfl
  generalize hold : system.phase = old at hshift
  cases hshift with
  | idle hnone =>
      have hmem := hawaits.waits_of_ne (by simp [hold])
      rw [earliest?_eq_none_iff.mp hnone task hmem] at hdue
      cases hdue
  | _ => exact .of_phase_ne (by simp [hold]) nofun nofun

theorem step (hawaits : Awaits task due queued records system) (hdue : task.due? = some due)
    (hlaw : increasing system event = true) (hstride : Stride system event next) :
    ∃ more, next.log = system.log ++ more ∧
      (task.serial ∈ next.queue.cancelled ∨ .begun task.serial ∈ more ∨
        Awaits task due queued (records ++ more) next) := by
  have hsame : system.log = system.log ++ [] := (List.append_nil _).symm
  have hkeep {next : System} {more : List Record} (hpasses : Passes system next)
      (hwaiting : next.queue.waiting = system.queue.waiting) (hlast : next.last? = system.last?)
      (hsilent : ∀ among, more.countP (Record.chooses among) = 0) :
      task.serial ∈ next.queue.cancelled ∨ .begun task.serial ∈ more ∨
        Awaits task due queued (records ++ more) next :=
    .inr (.inr (hawaits.keep hpasses hwaiting hlast hsilent))
  cases hstride with
  | touch htouch =>
      obtain ⟨more, hlog, hnext⟩ := hawaits.touch hdue hlaw htouch
      exact ⟨more, hlog, hnext.imp_right .inr⟩
  | shift hshift hreading => exact ⟨[], hsame, .inr (.inr (hawaits.shift hdue hshift))⟩
  | pruned hphase hall =>
      refine ⟨_, rfl, hkeep ?_ rfl rfl fun _ => rfl⟩
      exact .of_phase_ne (by simp [hphase]) nofun nofun
  | early hphase hfound hearly =>
      -- The task that waits is due by now.
      have hmem := hawaits.waits_of_ne (by simp [hphase])
      have hnow := hawaits.lt_of_reading fun _ => lt_of_increasing hlaw rfl
      have hfirst := le_of_earliest? hmem hdue hfound
      exact absurd (Nat.lt_of_lt_of_le hearly hfirst) (Nat.not_lt.mpr (Nat.le_of_lt hnow))
  | begin hphase htaken => exact ⟨_, rfl, .inr (hawaits.begin htaken)⟩
  | finish hphase houtside hran =>
      refine ⟨[], hsame, hkeep ?_ rfl rfl fun _ => rfl⟩
      exact .of_phase_ne (by simp [hphase]) nofun nofun
  | cancel hbefore hentered =>
      exact ⟨[], hsame, hkeep (.of_phase_eq rfl rfl) rfl rfl fun _ => rfl⟩
  | shutdown hinside => exact ⟨[], hsame, hkeep (.of_phase_eq rfl rfl) rfl rfl fun _ => rfl⟩
  | signal hcall => exact ⟨[], hsame, hkeep (.of_roused rfl rfl) rfl rfl fun _ => rfl⟩
  | announce hcall hfree => exact ⟨_, rfl, hkeep (.of_roused rfl rfl) rfl rfl fun _ => rfl⟩
  | alert hcall hfree => exact ⟨[], hsame, hkeep (.of_roused rfl rfl) rfl rfl fun _ => rfl⟩
  | join hcall hfree hjoinable =>
      exact ⟨[], hsame, hkeep (.of_phase_eq rfl rfl) rfl rfl fun _ => rfl⟩
  | retire hcall hretires => exact ⟨_, rfl, hkeep (.of_phase_eq rfl rfl) rfl rfl fun _ => rfl⟩

theorem of_reaches {before after : System} (hawaits : Awaits task due queued records before)
    (hdue : task.due? = some due) (hreaches : Reaches increasing before after)
    (hlog : after.log = before.log ++ more) :
    task.serial ∈ after.queue.cancelled ∨ .begun task.serial ∈ more ∨
      Awaits task due queued (records ++ more) after := by
  refine hreaches.history hlog (fun since system => task.serial ∈ system.queue.cancelled ∨
    .begun task.serial ∈ since ∨ Awaits task due queued (records ++ since) system)
    (.inr (.inr ((List.append_nil _).symm ▸ hawaits))) ?_
  intro since system next event hsystem hlaw hstride
  obtain ⟨⟨further, hnext⟩, hcancelled⟩ := hstride.grows
  rcases hsystem with hgone | hbegun | hstill
  · exact ⟨further, hnext, .inl (hcancelled _ hgone)⟩
  · exact ⟨further, hnext, .inr (.inl (List.mem_append_left _ hbegun))⟩
  · obtain ⟨last, hlast, hend⟩ := hstill.step hdue hlaw hstride
    refine ⟨last, hlast, hend.imp_right (Or.imp (List.mem_append_right _) fun hawaits => ?_)⟩
    rwa [← List.append_assoc]

theorem awake (hawaits : Awaits task due queued records system) : system.phase ≠ .parked := by
  rcases hawaits.held with ⟨hphase, -⟩ | ⟨-, hawake⟩
  · simp [hphase]
  · exact hawake

/-- A selection at which a task is due takes out that task, or one that is due no later. -/
theorem of_selection {before : System} {now : Moment} (hphase : before.phase = .choosing)
    (hwaits : task ∈ before.queue.waiting) (hdue : task.due? = some due) (hlate : due ≤ now)
    (hstride : Stride before (.read now) next) :
    ∃ records, next.log = before.log ++ records ∧
      Awaits task due before.queue.waiting records next := by
  cases hstride with
  | shift hshift hreading => cases hreading
  | early hchoosing hfound hearly =>
      have hfirst := le_of_earliest? hwaits hdue hfound
      exact absurd (Nat.lt_of_lt_of_le hearly hfirst) (Nat.not_lt.mpr hlate)
  | touch htouch =>
      cases htouch with
      | restore hrestoring hran => cases hphase.symm.trans hrestoring
      | take hchoosing hfound hearlier htaken hfirst =>
          refine ⟨[] ++ [_], rfl, .of_take hdue hlate hwaits (fun among _ => ?_) hfound htaken
            hfirst⟩
          exact Nat.le_of_eq (Nat.zero_add _)

end Awaits

theorem countP_begins_ne {serial : Nat} {records : List Record}
    (hnone : .begun serial ∉ records) : records.countP (Record.begins (· != serial)) =
      records.countP (Record.begins fun _ => true) := by
  refine List.countP_congr fun record hrecord => ?_
  cases record with
  | begun other =>
      have hne : other ≠ serial := fun heq => hnone (heq ▸ hrecord)
      simp [Record.begins, hne]
  | _ => rfl

/-- Of the tasks that are due by a moment, the others are fewer. -/
theorem countP_ne_lt {tasks : List Task} {task : Task} {due : Moment} (htask : task ∈ tasks)
    (hdue : task.isDueBy due = true) :
    tasks.countP (fun other => other.serial != task.serial && other.isDueBy due) <
      tasks.countP fun other => other.isDueBy due := by
  have hsplit := List.countP_eq_countP_filter_add tasks (fun other => other.isDueBy due)
    fun other => other.serial != task.serial
  have hself : 0 < (tasks.filter fun other => !(other.serial != task.serial)).countP
      fun other => other.isDueBy due :=
    List.countP_pos_iff.mpr ⟨task, List.mem_filter.mpr ⟨htask, by simp⟩, hdue⟩
  rw [List.countP_filter] at hsplit
  simp only [Bool.and_comm] at hsplit ⊢
  omega

/-- From a selection at which a task is due, as long as that task neither runs nor is cancelled, each
run of another task is the only one of that task, which was in the queue and due no later; all of
them and the task that waits are no more than were due then; and the worker does not sleep, and goes
on unless the schedule is shut down. -/
theorem overtaken_of_reaches {before chosen after : System} {task : Task} {due now : Moment}
    {records : List Record} (hbefore : Reaches increasing start before)
    (hphase : before.phase = .choosing) (hwaits : task ∈ before.queue.waiting)
    (hdue : task.due? = some due) (hlate : due ≤ now)
    (hchoice : before.step? (.read now) = some chosen) (hafter : Reaches increasing chosen after)
    (hspared : task.serial ∉ after.queue.cancelled) (hlog : after.log = before.log ++ records)
    (hnone : .begun task.serial ∉ records) :
    (∀ serial, records.count (.begun serial) ≤ 1 ∧
      (.begun serial ∈ records → ∃ other ∈ before.queue.waiting, other.serial = serial ∧
        ∃ moment, other.due? = some moment ∧ moment ≤ due)) ∧
      records.countP (Record.begins fun _ => true) <
        before.queue.waiting.countP (fun other => other.isDueBy due) ∧
      after.phase ≠ .parked ∧
      (after.queue.stopped = false → ∃ event, event.isOfWorker = true ∧
        increasing after event = true ∧ (after.step? event).isSome = true) := by
  obtain ⟨first, hfirst, hchosen⟩ :=
    Awaits.of_selection hphase hwaits hdue hlate (stride_of_step? hchoice)
  obtain ⟨more, hmore⟩ := hafter.log_eq
  have hend := hchosen.of_reaches hdue hafter hmore
  have hrecords : first ++ more = records := by
    rw [hmore, hfirst, List.append_assoc] at hlog
    exact List.append_cancel_left hlog
  have hawaits : Awaits task due before.queue.waiting records after := by
    rw [← hrecords] at hnone ⊢
    exact (hend.resolve_left hspared).resolve_left fun hbegun =>
      hnone (List.mem_append_right _ hbegun)
  have hreaches : Reaches anyhow before after :=
    .head ⟨.read now, rfl, hchoice⟩ (hafter.mono fun _ _ _ => rfl)
  -- Nothing was about to begin at the selection, so what begins has been taken out since.
  have hruns (among : Nat → Bool) (hamong : among task.serial = false) :
      records.countP (Record.begins among) ≤
        before.queue.waiting.countP fun other => among other.serial && other.isDueBy due := by
    have hbalance := hreaches.balance hlog among
    have hbudget := hawaits.budget among hamong
    have hidle := pending_of_ne (show before.phase ≠ .taken by simp [hphase]) among
    omega
  have hwhole : Reaches anyhow start after := (hbefore.mono fun _ _ _ => rfl).trans hreaches
  refine ⟨fun serial => ?_, ?_, hawaits.awake, fun hgoes => hwhole.goes_on hgoes hawaits.awake⟩
  · by_cases hserial : serial = task.serial
    · rw [hserial, List.count_eq_zero.mpr hnone]
      exact ⟨Nat.zero_le 1, fun hbegun => absurd hbegun hnone⟩
    · have hbudget := hruns (· == serial) (beq_eq_false_iff_ne.mpr (Ne.symm hserial))
      rw [countP_begins_eq] at hbudget
      refine ⟨?_, fun hbegun => ?_⟩
      · refine Nat.le_trans hbudget (Nat.le_trans ?_ (hbefore.sound.countP_waiting_le serial))
        exact List.countP_mono_left fun other _ hother => (Bool.and_eq_true_iff.mp hother).1
      · have hpos := Nat.lt_of_lt_of_le (List.count_pos_iff.mpr hbegun) hbudget
        obtain ⟨other, hother, hboth⟩ := List.countP_pos_iff.mp hpos
        obtain ⟨heq, hearlier⟩ := Bool.and_eq_true_iff.mp hboth
        exact ⟨other, hother, beq_iff_eq.mp heq, Task.isDueBy_iff.mp hearlier⟩
  · have hbudget := hruns (· != task.serial) (bne_self_eq_false _)
    have hself : task.isDueBy due = true := Task.isDueBy_iff.mpr ⟨due, hdue, Nat.le_refl due⟩
    rw [countP_begins_ne hnone] at hbudget
    exact Nat.lt_of_le_of_lt hbudget (countP_ne_lt hwaits hself)

/-- Two tasks that are due all the time; the worker comes to where it selects. -/
def rivals : List Event :=
  [.schedule .zero .zero, .enter 0 100, .advance 0, .schedule .zero .zero, .enter 0 101,
    .advance 0] ++ List.replicate 5 .turn

/-- The first one is run and put back, and a third one is scheduled meanwhile. -/
def rivalry : List Event :=
  [.turn, .schedule .zero .zero, .enter 0 104, .finish false, .turn, .turn, .read 105] ++
    List.replicate 5 .turn ++ [.read 106]

/-- The second one has been overtaken once when it is taken out. -/
theorem overtaken_of_rivals : ∃ before chosen after : System,
    run? increasing rivals start = some before ∧ before.step? (.read 103) = some chosen ∧
      run? increasing rivalry chosen = some after ∧ ∃ records, after.log = before.log ++ records ∧
        .begun 0 ∈ records ∧ after.queue.running?.map Task.serial = some 1 ∧
        (∀ serial, records.count (.begun serial) ≤ 1) ∧ after.phase ≠ .parked := by
  have hcourse : ((run? increasing rivals start).bind fun before =>
      (before.step? (.read 103)).bind fun chosen => (run? increasing rivalry chosen).map fun after =>
        (before.phase, before.queue.waiting, before.log, after.log)) =
      some (.choosing, [⟨0, some 100, .zero⟩, ⟨1, some 101, .zero⟩],
        [.entered 0 100 .zero .zero, .entered 1 101 .zero .zero, .pruned],
        [.entered 0 100 .zero .zero, .entered 1 101 .zero .zero, .pruned, .chosen 0 103, .begun 0,
          .entered 2 104 .zero .zero, .restored 0 105, .pruned, .chosen 1 106]) := by
    decide +kernel
  have hend : ((run? increasing rivals start).bind fun before =>
      (before.step? (.read 103)).bind fun chosen => (run? increasing rivalry chosen).map fun after =>
        (after.queue.running?.map Task.serial, after.queue.cancelled)) = some (some 1, []) := by
    decide +kernel
  obtain ⟨before, hbefore, hcourse⟩ := Option.bind_eq_some_iff.mp hcourse
  obtain ⟨chosen, hchosen, hcourse⟩ := Option.bind_eq_some_iff.mp hcourse
  obtain ⟨after, hafter, hcourse⟩ := Option.map_eq_some_iff.mp hcourse
  rw [hbefore, Option.bind_some, hchosen, Option.bind_some, hafter, Option.map_some,
    Option.some.injEq] at hend
  simp only [Prod.mk.injEq] at hcourse hend
  obtain ⟨hphase, hwaiting, hearlier, hlater⟩ := hcourse
  obtain ⟨htaken, hcancelled⟩ := hend
  have hlog : after.log = before.log ++ after.log.drop 3 := by rw [hearlier, hlater]; rfl
  have hwaits : (⟨1, some 101, .zero⟩ : Task) ∈ before.queue.waiting := by simp [hwaiting]
  have hbound := overtaken_of_reaches (Runs.reaches_of_run? hbefore) hphase hwaits rfl (by decide)
    hchosen (Runs.reaches_of_run? hafter) (by simp [hcancelled]) hlog (by rw [hlater]; decide)
  refine ⟨before, chosen, after, hbefore, hchosen, hafter, _, hlog, ?_, htaken,
    fun serial => (hbound.1 serial).1, hbound.2.2.1⟩
  rw [hlater]
  decide

end System

end Pooling.Schedule
