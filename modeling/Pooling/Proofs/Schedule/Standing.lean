import Pooling.Proofs.Schedule.System

/-!
The tasks on a schedule, in its queue or out of it to run: every step either leaves them as they are
or touches one of them, and no task is ever on the schedule twice.
-/

namespace Pooling.Schedule

def Phase.isOut : Phase → Bool
  | .taken => true
  | .running => true
  | .returning => true
  | .judging => true
  | .restoring => true
  | _ => false

theorem Phase.isOut_roused (phase : Phase) : phase.roused.isOut = phase.isOut := by
  cases phase <;> rfl

/-- The task whose time a record is about. -/
def Record.serial? : Record → Option Nat
  | .entered serial _ _ _ => some serial
  | .chosen serial _ => some serial
  | .restored serial _ => some serial
  | _ => none

namespace System

/-- The serials of the tasks that are about to be put into the queue. -/
def entering (system : System) : List Nat := system.calls.filterMap Call.entering?

def serials (system : System) : List Nat :=
  system.scheduled.map Task.serial ++ system.entering

section

variable {system : System}

theorem starts_note (record : Record) (serial : Nat) : (system.note record).starts serial =
    system.starts serial ++ (record.start? serial).toList := by
  rw [starts, note, List.filterMap_append]
  cases h : record.start? serial with
  | none => simp [starts, h]
  | some now => simp [starts, h]

theorem ends_note (record : Record) (serial : Nat) : (system.note record).ends serial =
    system.ends serial ++ (record.end? serial).toList := by
  rw [ends, note, List.filterMap_append]
  cases h : record.end? serial with
  | none => simp [ends, h]
  | some now => simp [ends, h]

theorem exists_split {items : List α} {index : Nat} {item : α} (hitem : items[index]? = some item) :
    ∃ front back, items = front ++ item :: back ∧ items.eraseIdx index = front ++ back ∧
      ∀ other, items.set index other = front ++ other :: back := by
  obtain ⟨hbound, rfl⟩ := List.getElem?_eq_some_iff.mp hitem
  refine ⟨items.take index, items.drop (index + 1), ?_, List.eraseIdx_eq_take_drop_succ _ _,
    fun other => ?_⟩
  · rw [List.getElem_cons_drop, List.take_append_drop]
  · rw [List.set_eq_take_append_cons_drop, if_pos hbound]

theorem mem_iff_eraseIdx {items : List α} {index : Nat} {item : α}
    (hitem : items[index]? = some item) (other : α) :
    other ∈ items ↔ other = item ∨ other ∈ items.eraseIdx index := by
  obtain ⟨front, back, hitems, herase, -⟩ := exists_split hitem
  rw [herase, hitems, List.mem_append, List.mem_cons, List.mem_append]
  exact or_left_comm

theorem mem_set_iff {items : List α} {index : Nat} {item : α} (hitem : items[index]? = some item)
    (new other : α) : other ∈ items.set index new ↔ other = new ∨ other ∈ items.eraseIdx index := by
  obtain ⟨front, back, -, herase, hset⟩ := exists_split hitem
  rw [herase, hset, List.mem_append, List.mem_cons, List.mem_append]
  exact or_left_comm

theorem mem_eraseIdx_iff_of_ne {items : List α} {index : Nat} {item other : α}
    (hitem : items[index]? = some item) (hother : other ≠ item) :
    other ∈ items.eraseIdx index ↔ other ∈ items :=
  (or_iff_right hother).symm.trans (mem_iff_eraseIdx hitem other).symm

theorem mem_set_iff_of_ne {items : List α} {index : Nat} {item new other : α}
    (hitem : items[index]? = some item) (hother : other ≠ item) (hnew : other ≠ new) :
    other ∈ items.set index new ↔ other ∈ items := by
  rw [mem_set_iff hitem, or_iff_right hnew, mem_eraseIdx_iff_of_ne hitem hother]

variable {index : Nat} {call : Call}

theorem entering_eraseIdx (hcall : system.calls[index]? = some call)
    (hnone : call.entering? = none) :
    (system.calls.eraseIdx index).filterMap Call.entering? = system.entering := by
  obtain ⟨front, back, hcalls, herase, -⟩ := exists_split hcall
  rw [herase, entering, hcalls]
  simp [hnone]

theorem entering_set {other : Call} (hcall : system.calls[index]? = some call)
    (hnone : call.entering? = none) (hother : other.entering? = none) :
    (system.calls.set index other).filterMap Call.entering? = system.entering := by
  obtain ⟨front, back, hcalls, -, hset⟩ := exists_split hcall
  rw [hset, entering, hcalls]
  simp [hnone, hother]

theorem entering_perm {serial : Nat} {other : Call} (hcall : system.calls[index]? = some call)
    (hentering : call.entering? = some serial) (hother : other.entering? = none) :
    (serial :: (system.calls.set index other).filterMap Call.entering?).Perm system.entering := by
  obtain ⟨front, back, hcalls, -, hset⟩ := exists_split hcall
  rw [hset, entering, hcalls]
  simpa [hentering, hother] using List.perm_middle.symm

end

/-- A step that leaves the tasks on the schedule as they are, but may cancel one. -/
structure Quiet (before after : System) : Prop where
  waiting_eq : after.queue.waiting = before.queue.waiting
  running?_eq : after.queue.running? = before.queue.running?
  nextSerial_eq : after.queue.nextSerial = before.queue.nextSerial
  cancelled_mono : ∀ serial ∈ before.queue.cancelled, serial ∈ after.queue.cancelled
  isOut_eq : after.phase.isOut = before.phase.isOut
  entering_eq : after.entering = before.entering
  log_eq : ∃ records, after.log = before.log ++ records ∧
    ∀ record ∈ records, record.serial? = none

theorem Shift.isOut_eq {system : System} {old new : Phase} (hshift : Shift system old new) :
    new.isOut = old.isOut := by
  cases hshift <;> rfl

theorem Retires.entering?_eq {system : System} {call : Call} {joinable : Bool}
    (hretires : Retires system call joinable) : call.entering? = none := by
  cases hretires <;> rfl

theorem entering_concat (system : System) (call : Call) :
    (system.calls ++ [call]).filterMap Call.entering? =
      system.entering ++ call.entering?.toList := by
  rw [List.filterMap_append, entering]
  cases h : call.entering? with
  | none => simp [h]
  | some serial => simp [h]

theorem Stride.touch_or_quiet {before after : System} {event : Event}
    (hstride : Stride before event after) : Touch before event after ∨ Quiet before after := by
  cases hstride with
  | touch htouch => exact .inl htouch
  | shift hshift hreading =>
      exact .inr ⟨rfl, rfl, rfl, fun _ => id, hshift.isOut_eq, rfl, [], by simp, by simp⟩
  | pruned hphase hall =>
      refine .inr ⟨rfl, rfl, rfl, fun _ => id, ?_, rfl, [.pruned], rfl, by simp [Record.serial?]⟩
      rw [hphase]
      rfl
  | early hphase hfound hearly =>
      refine .inr ⟨rfl, rfl, rfl, fun _ => id, ?_, rfl, [], by simp, by simp⟩
      rw [hphase]
      rfl
  | @begin task hphase htask =>
      refine .inr ⟨rfl, rfl, rfl, fun _ => id, ?_, rfl, [.begun task.serial], rfl,
        by simp [Record.serial?]⟩
      rw [hphase]
      rfl
  | finish hphase houtside htask =>
      refine .inr ⟨rfl, rfl, rfl, fun _ => id, ?_, rfl, [], by simp, by simp⟩
      rw [hphase]
      rfl
  | cancel hbefore hentered =>
      refine .inr ⟨rfl, rfl, rfl, fun _ => List.mem_cons_of_mem _, rfl, ?_, [], by simp, by simp⟩
      exact (entering_concat _ _).trans (List.append_nil _)
  | shutdown hinside =>
      refine .inr ⟨rfl, rfl, rfl, fun _ => id, rfl, ?_, [], by simp, by simp⟩
      exact (entering_concat _ _).trans (List.append_nil _)
  | signal hcall =>
      exact .inr ⟨rfl, rfl, rfl, fun _ => id, Phase.isOut_roused _, entering_eraseIdx hcall rfl, [],
        by simp [wake, close], by simp⟩
  | @announce _ serial hcall hfree =>
      exact .inr ⟨rfl, rfl, rfl, fun _ => id, Phase.isOut_roused _, entering_eraseIdx hcall rfl,
        [.cancelled serial], rfl, by simp [Record.serial?]⟩
  | alert hcall hfree =>
      refine .inr ⟨rfl, rfl, rfl, fun _ => id, Phase.isOut_roused _, ?_, [], by simp [wake], by simp⟩
      exact entering_set hcall rfl rfl
  | join hcall hfree hjoinable =>
      refine .inr ⟨rfl, rfl, rfl, fun _ => id, rfl, ?_, [], by simp, by simp⟩
      exact entering_set hcall rfl rfl
  | retire hcall hretires =>
      exact .inr ⟨rfl, rfl, rfl, fun _ => id, rfl, entering_eraseIdx hcall hretires.entering?_eq,
        [.shut], rfl, by simp [Record.serial?]⟩

theorem Stride.grows {before after : System} {event : Event}
    (hstride : Stride before event after) : (∃ records, after.log = before.log ++ records) ∧
      ∀ serial ∈ before.queue.cancelled, serial ∈ after.queue.cancelled := by
  rcases hstride.touch_or_quiet with htouch | hquiet
  · have hsame : ∃ records, before.log = before.log ++ records := ⟨[], (List.append_nil _).symm⟩
    cases htouch with
    | drop => exact ⟨hsame, fun _ => id⟩
    | take => exact ⟨⟨_, rfl⟩, fun _ => id⟩
    | discard => exact ⟨hsame, fun _ => id⟩
    | restore => exact ⟨⟨_, rfl⟩, fun _ => id⟩
    | schedule => exact ⟨hsame, fun _ => id⟩
    | enter => exact ⟨⟨_, rfl⟩, fun _ => id⟩
  · obtain ⟨records, hlog, -⟩ := hquiet.log_eq
    exact ⟨⟨records, hlog⟩, hquiet.cancelled_mono⟩

theorem Reaches.log_eq {law : Law} {before after : System} (hreaches : Reaches law before after) :
    ∃ records, after.log = before.log ++ records :=
  hreaches.stepwise (fun system => ∃ records, system.log = before.log ++ records)
    ⟨[], (List.append_nil _).symm⟩ fun ⟨since, hsince⟩ _ hstride => by
      obtain ⟨more, hmore⟩ := hstride.grows.1
      exact ⟨since ++ more, by rw [hmore, hsince, List.append_assoc]⟩

namespace Quiet

variable {before after : System}

theorem scheduled_eq (hquiet : Quiet before after) : after.scheduled = before.scheduled := by
  rw [scheduled, scheduled, hquiet.waiting_eq, hquiet.running?_eq]

theorem serials_eq (hquiet : Quiet before after) : after.serials = before.serials := by
  rw [serials, serials, hquiet.scheduled_eq, hquiet.entering_eq]

theorem filterMap_log (hquiet : Quiet before after) {view : Record → Option α}
    (hview : ∀ record, record.serial? = none → view record = none) :
    after.log.filterMap view = before.log.filterMap view := by
  obtain ⟨records, hlog, hnone⟩ := hquiet.log_eq
  have hnil : records.filterMap view = [] :=
    List.filterMap_eq_nil_iff.mpr fun record hrecord => hview record (hnone record hrecord)
  rw [hlog, List.filterMap_append, hnil, List.append_nil]

theorem starts_eq (hquiet : Quiet before after) (serial : Nat) :
    after.starts serial = before.starts serial :=
  hquiet.filterMap_log fun record hnone => by cases record <;> first | rfl | cases hnone

theorem ends_eq (hquiet : Quiet before after) (serial : Nat) :
    after.ends serial = before.ends serial :=
  hquiet.filterMap_log fun record hnone => by cases record <;> first | rfl | cases hnone

theorem mem_log_iff (hquiet : Quiet before after) {record : Record} {serial : Nat}
    (hserial : record.serial? = some serial) : record ∈ after.log ↔ record ∈ before.log := by
  obtain ⟨records, hlog, hnone⟩ := hquiet.log_eq
  rw [hlog, List.mem_append]
  refine or_iff_left fun hmem => ?_
  rw [hnone record hmem] at hserial
  cases hserial

end Quiet

/-- Every task is on the schedule at most once, and none before it is put there. -/
structure Sound (system : System) : Prop where
  out : system.queue.running?.isSome = system.phase.isOut
  distinct : system.serials.Nodup
  lt : ∀ serial ∈ system.serials, serial < system.queue.nextSerial
  logged : ∀ record ∈ system.log, ∀ serial, record.serial? = some serial →
    serial < system.queue.nextSerial ∧ serial ∉ system.entering

theorem count_serials (system : System) (serial : Nat) : system.serials.count serial =
    (system.scheduled.map Task.serial).count serial + system.entering.count serial :=
  List.count_append

namespace Sound

variable {system : System}

theorem nodup (hsound : Sound system) : (system.scheduled.map Task.serial).Nodup :=
  (List.nodup_append.mp hsound.distinct).1

theorem known (hsound : Sound system) {task : Task} (htask : task ∈ system.scheduled) :
    task.serial < system.queue.nextSerial ∧ task.serial ∉ system.entering := by
  have hmem : task.serial ∈ system.scheduled.map Task.serial := List.mem_map_of_mem htask
  refine ⟨hsound.lt _ (List.mem_append_left _ hmem), fun hentering => ?_⟩
  exact (List.nodup_append.mp hsound.distinct).2.2 _ hmem _ hentering rfl

theorem running?_eq_none (hsound : Sound system) (hphase : system.phase.isOut = false) :
    system.queue.running? = none :=
  Option.isNone_iff_eq_none.mp (Option.isSome_eq_false_iff.mp (hsound.out.trans hphase))

theorem countP_waiting_le (hsound : Sound system) (serial : Nat) :
    system.queue.waiting.countP (fun task => task.serial == serial) ≤ 1 := by
  have hnodup := hsound.nodup
  rw [scheduled, List.map_append] at hnodup
  have hcount := List.nodup_iff_count.mp (List.nodup_append.mp hnodup).1 serial
  rwa [List.count, List.countP_map] at hcount

theorem filterMap_log_eq_nil (hsound : Sound system) {serial : Nat}
    (hentering : serial ∈ system.entering) {view : Record → Option α}
    (hview : ∀ record, record.serial? ≠ some serial → view record = none) :
    system.log.filterMap view = [] := by
  refine List.filterMap_eq_nil_iff.mpr fun record hrecord => hview record fun hserial => ?_
  exact (hsound.logged record hrecord serial hserial).2 hentering

theorem starts_eq_nil (hsound : Sound system) {serial : Nat}
    (hentering : serial ∈ system.entering) : system.starts serial = [] := by
  refine hsound.filterMap_log_eq_nil hentering fun record hother => ?_
  cases record with
  | chosen other now => exact if_neg fun heq => hother (congrArg some heq)
  | _ => rfl

theorem ends_eq_nil (hsound : Sound system) {serial : Nat}
    (hentering : serial ∈ system.entering) : system.ends serial = [] := by
  refine hsound.filterMap_log_eq_nil hentering fun record hother => ?_
  cases record with
  | restored other now => exact if_neg fun heq => hother (congrArg some heq)
  | _ => rfl

theorem start : Sound System.start where
  out := rfl
  distinct := .nil
  lt _ hmem := nomatch hmem
  logged _ hrecord := nomatch hrecord

variable {before after : System} {event : Event}

theorem quiet (hsound : Sound before) (hquiet : Quiet before after) : Sound after where
  out := by rw [hquiet.running?_eq, hquiet.isOut_eq, hsound.out]
  distinct := hquiet.serials_eq ▸ hsound.distinct
  lt := by
    rw [hquiet.serials_eq, hquiet.nextSerial_eq]
    exact hsound.lt
  logged record hrecord serial hserial := by
    rw [hquiet.nextSerial_eq, hquiet.entering_eq]
    exact hsound.logged record ((hquiet.mem_log_iff hserial).mp hrecord) serial hserial

/-- A step that at most moves tasks and drops some, and may note something of one of them. -/
theorem moved (hsound : Sound before) (hout : after.queue.running?.isSome = after.phase.isOut)
    (hcount : ∀ serial, (after.scheduled.map Task.serial).count serial ≤
      (before.scheduled.map Task.serial).count serial)
    (hnext : after.queue.nextSerial = before.queue.nextSerial)
    (hentering : after.entering = before.entering)
    (hlog : ∀ record ∈ after.log, record ∈ before.log ∨
      ∃ task ∈ before.scheduled, record.serial? = some task.serial) : Sound after := by
  have hserials (serial : Nat) : after.serials.count serial ≤ before.serials.count serial := by
    rw [count_serials, count_serials, hentering]
    exact Nat.add_le_add_right (hcount serial) _
  refine ⟨hout, ?_, fun serial hmem => ?_, fun record hrecord serial hserial => ?_⟩
  · exact List.nodup_iff_count.mpr fun serial =>
      Nat.le_trans (hserials serial) (List.nodup_iff_count.mp hsound.distinct serial)
  · rw [hnext]
    exact hsound.lt serial (List.count_pos_iff.mp
      (Nat.lt_of_lt_of_le (List.count_pos_iff.mpr hmem) (hserials serial)))
  · rw [hnext, hentering]
    rcases hlog record hrecord with hold | ⟨task, htask, heq⟩
    · exact hsound.logged record hold serial hserial
    · cases heq.symm.trans hserial
      exact hsound.known htask

theorem schedule (hsound : Sound before) (delay interval : Duration) :
    Sound (before.schedule delay interval) := by
  have hentering : (before.schedule delay interval).entering =
      before.entering ++ [before.queue.nextSerial] := entering_concat _ _
  have hserials : (before.schedule delay interval).serials =
      before.serials ++ [before.queue.nextSerial] := by
    rw [serials, hentering, ← List.append_assoc]
    rfl
  have hnext : (before.schedule delay interval).queue.nextSerial =
      before.queue.nextSerial + 1 := rfl
  refine ⟨hsound.out, ?_, fun serial hmem => ?_, fun record hrecord serial hserial => ?_⟩
  · rw [hserials]
    refine List.nodup_append.mpr ⟨hsound.distinct, by simp, ?_⟩
    rintro serial hmem _ hlast rfl
    exact Nat.ne_of_lt (hsound.lt serial hmem) (List.mem_singleton.mp hlast)
  · rw [hserials, List.mem_append, List.mem_singleton] at hmem
    rw [hnext]
    rcases hmem with hold | rfl
    · exact Nat.lt_succ_of_lt (hsound.lt serial hold)
    · exact Nat.lt_succ_self _
  · obtain ⟨hlt, hnot⟩ := hsound.logged record hrecord serial hserial
    rw [hentering, hnext, List.mem_append, List.mem_singleton, not_or]
    exact ⟨Nat.lt_succ_of_lt hlt, hnot, Nat.ne_of_lt hlt⟩

theorem enter (hsound : Sound before) {index serial : Nat} {delay interval : Duration}
    (hcall : before.calls[index]? = some (.entering serial delay interval)) (now : Moment) :
    Sound ({ before with
      queue := before.queue.enter serial now delay interval
      calls := before.calls.set index .signalling
      last? := some now }.note (.entered serial now delay interval)) := by
  generalize hafter : System.note _ _ = after
  have hentering : (serial :: after.entering).Perm before.entering := by
    rw [← hafter]
    exact entering_perm hcall rfl rfl
  -- The serial goes from the call to the task.
  have hserials : after.serials.Perm before.serials := by
    refine List.perm_iff_count.mpr fun other => ?_
    rw [count_serials, count_serials, ← hentering.count_eq other, ← hafter]
    simp [scheduled, note, Queue.enter, List.count_cons]
    omega
  have hdistinct := hserials.nodup_iff.mpr hsound.distinct
  have hsplit := List.nodup_append.mp hsound.distinct
  have hnext : after.queue.nextSerial = before.queue.nextSerial := by rw [← hafter]; rfl
  refine ⟨?_, hdistinct, fun other hmem => ?_, fun record hrecord other hother => ?_⟩
  · rw [← hafter]
    exact hsound.out
  · rw [hnext]
    exact hsound.lt other (hserials.subset hmem)
  · rw [hnext]
    have hrecord : record ∈ before.log ∨ record = .entered serial now delay interval := by
      rw [← hafter] at hrecord
      exact (List.mem_append.mp hrecord).imp_right List.mem_singleton.mp
    rcases hrecord with hold | rfl
    · obtain ⟨hlt, hnot⟩ := hsound.logged record hold other hother
      exact ⟨hlt, fun hmem => hnot (hentering.subset (List.mem_cons_of_mem _ hmem))⟩
    · cases hother
      refine ⟨hsound.lt serial (List.mem_append_right _ (hentering.subset List.mem_cons_self)), ?_⟩
      exact (List.nodup_cons.mp (hentering.nodup_iff.mpr hsplit.2.1)).1

theorem scheduled_take (hsound : Sound before) {place : Nat} {task : Task}
    (hphase : before.phase = .choosing) (htask : before.queue.waiting[place]? = some task)
    (now : Moment) (record : Record) :
    ({ before with
      queue := { before.queue with
        waiting := takeOut place before.queue.waiting, running? := some task }
      phase := .taken
      last? := some now }.note record).scheduled.Perm before.scheduled := by
  have hnone := hsound.running?_eq_none (hphase ▸ rfl)
  rw [scheduled, scheduled, hnone]
  refine (List.perm_append_singleton _ _).trans ((takeOut_perm htask).trans ?_)
  rw [Option.toList_none, List.append_nil]

theorem serial_ne_of_takeOut (hsound : Sound before) {place : Nat} {task other : Task}
    (htask : before.queue.waiting[place]? = some task)
    (hother : other ∈ takeOut place before.queue.waiting) : task.serial ≠ other.serial := by
  have hnodup := (((takeOut_perm htask).map Task.serial).append_right
    (before.queue.running?.toList.map Task.serial)).nodup_iff.mpr
      (List.map_append ▸ hsound.nodup)
  rw [List.map_cons, List.cons_append, List.nodup_cons] at hnodup
  exact fun heq => hnodup.1 (List.mem_append_left _ (heq ▸ List.mem_map_of_mem hother))

theorem serial_ne_of_running? (hsound : Sound before) {task other : Task}
    (htask : before.queue.running? = some task) (hother : other ∈ before.queue.waiting) :
    other.serial ≠ task.serial := by
  have hnodup := hsound.nodup
  rw [scheduled, htask, List.map_append] at hnodup
  exact (List.nodup_append.mp hnodup).2.2 _ (List.mem_map_of_mem hother) _ (by simp)

theorem touch (hsound : Sound before) (htouch : Touch before event after) : Sound after := by
  cases htouch with
  | drop hphase htask hcancelled =>
      refine hsound.moved hsound.out (fun serial => ?_) rfl rfl fun _ => .inl
      exact (((List.eraseIdx_sublist ..).append_right _).map _).count_le serial
  | @take now due place task hphase hfound hlate htask hdue =>
      have hperm := hsound.scheduled_take hphase htask now (.chosen task.serial now)
      refine hsound.moved rfl (fun serial => Nat.le_of_eq ((hperm.map _).count_eq serial)) rfl rfl ?_
      intro record hrecord
      rcases List.mem_append.mp hrecord with hold | hnew
      · exact .inl hold
      · cases List.mem_singleton.mp hnew
        exact .inr ⟨task, List.mem_append_left _ (List.mem_of_getElem? htask), rfl⟩
  | discard hphase htask hcancelled =>
      refine hsound.moved rfl (fun serial => ?_) rfl rfl fun _ => .inl
      exact ((List.Sublist.append_left (List.nil_sublist _) _).map _).count_le serial
  | @restore now task hphase htask =>
      refine hsound.moved rfl (fun serial => Nat.le_of_eq ?_) rfl rfl fun record hrecord => ?_
      · rw [scheduled, scheduled, htask]
        simp [note, Queue.restore]
      · rcases List.mem_append.mp hrecord with hold | hnew
        · exact .inl hold
        · cases List.mem_singleton.mp hnew
          refine .inr ⟨task, List.mem_append_right _ ?_, rfl⟩
          rw [htask]
          exact List.mem_singleton_self task
  | schedule delay interval => exact hsound.schedule delay interval
  | enter hcall hfree => exact hsound.enter hcall _

theorem step (hsound : Sound before) (hstride : Stride before event after) : Sound after :=
  hstride.touch_or_quiet.elim hsound.touch hsound.quiet

end Sound

theorem Reaches.sound {law : Law} {system : System} (hreaches : Reaches law start system) :
    Sound system :=
  hreaches.stepwise Sound .start fun hsound _ hstride => hsound.step hstride

end System

/-- A task after each of its runs among the records. -/
def Task.through (task : Task) (records : List Record) : Task :=
  (records.filterMap (Record.end? task.serial)).foldl Queue.renew task

namespace Task

variable {task : Task}

theorem serial_foldl_renew (ends : List Moment) :
    (ends.foldl Queue.renew task).serial = task.serial := by
  induction ends generalizing task with
  | nil => rfl
  | cons now ends ih => exact ih

theorem through_append (records more : List Record) :
    task.through (records ++ more) = (task.through records).through more := by
  rw [through, List.filterMap_append, List.foldl_append, through, through, serial_foldl_renew]

theorem through_eq {records : List Record}
    (hnone : ∀ record ∈ records, record.end? task.serial = none) :
    task.through records = task := by
  rw [through, List.filterMap_eq_nil_iff.mpr hnone]
  rfl

end Task

namespace System

variable {before after : System} {event : Event} {task : Task}

/-- A task that is not cancelled stays on the schedule, and only its own runs change it. -/
theorem Touch.through (htouch : Touch before event after) (hsound : Sound before)
    (htask : task ∈ before.scheduled) (hspared : task.serial ∉ before.queue.cancelled) :
    ∃ records, after.log = before.log ++ records ∧ task.through records ∈ after.scheduled := by
  have hsame : before.log = before.log ++ [] := (List.append_nil _).symm
  cases htouch with
  | @drop kept dropped hphase hdropped hcancelled =>
      refine ⟨[], hsame, ?_⟩
      rcases List.mem_append.mp htask with hwaits | hout
      · have hne : task ≠ dropped := fun heq => hspared (heq ▸ hcancelled)
        exact List.mem_append_left _ ((mem_eraseIdx_iff_of_ne hdropped hne).mpr hwaits)
      · exact List.mem_append_right _ hout
  | @take now due place taken hphase hfound hlate htaken hdue =>
      refine ⟨[.chosen taken.serial now], rfl, ?_⟩
      exact (hsound.scheduled_take hphase htaken now _).symm.subset htask
  | discard hphase hran hcancelled =>
      refine ⟨[], hsame, ?_⟩
      rcases List.mem_append.mp htask with hwaits | hout
      · exact List.mem_append_left _ hwaits
      · rw [hran] at hout
        exact absurd (List.mem_singleton.mp hout ▸ hcancelled) hspared
  | @restore now ran hphase hran =>
      refine ⟨[.restored ran.serial now], rfl, List.mem_append_left _ ?_⟩
      rcases List.mem_append.mp htask with hwaits | hout
      · have hne := hsound.serial_ne_of_running? hran hwaits
        rw [Task.through_eq (by simpa [Record.end?] using hne.symm)]
        exact List.mem_append_left _ hwaits
      · rw [hran] at hout
        cases List.mem_singleton.mp hout
        refine List.mem_append_right _ (List.mem_singleton.mpr ?_)
        simp [Task.through, Record.end?]
  | schedule delay interval => exact ⟨[], hsame, htask⟩
  | @enter index serial now delay interval hcall hfree =>
      refine ⟨[.entered serial now delay interval], rfl, ?_⟩
      rcases List.mem_append.mp htask with hwaits | hout
      · exact List.mem_append_left _ (List.mem_append_left _ hwaits)
      · exact List.mem_append_right _ hout

theorem Stride.through (hstride : Stride before event after) (hsound : Sound before)
    (htask : task ∈ before.scheduled) (hspared : task.serial ∉ before.queue.cancelled) :
    ∃ records, after.log = before.log ++ records ∧ task.through records ∈ after.scheduled := by
  rcases hstride.touch_or_quiet with htouch | hquiet
  · exact htouch.through hsound htask hspared
  · obtain ⟨records, hlog, hnone⟩ := hquiet.log_eq
    refine ⟨records, hlog, ?_⟩
    rw [Task.through_eq fun record hrecord => ?_, hquiet.scheduled_eq]
    · exact htask
    · have hserial := hnone record hrecord
      cases record with
      | restored serial now => cases hserial
      | _ => rfl

theorem Reaches.through {law : Law} {records : List Record} (hreaches : Reaches law before after)
    (hlog : after.log = before.log ++ records) (hsound : Sound before)
    (htask : task ∈ before.scheduled) (hspared : task.serial ∉ after.queue.cancelled) :
    task.through records ∈ after.scheduled := by
  refine (hreaches.history hlog (fun since system => Sound system ∧
    (task.serial ∈ system.queue.cancelled ∨ task.through since ∈ system.scheduled))
    ⟨hsound, .inr htask⟩ ?_).2.resolve_left hspared
  rintro since system next event ⟨hsystem, hold⟩ _ hstride
  have hserial : (task.through since).serial = task.serial := Task.serial_foldl_renew _
  by_cases hcancelled : task.serial ∈ system.queue.cancelled
  · obtain ⟨more, hmore⟩ := hstride.grows.1
    exact ⟨more, hmore, hsystem.step hstride, .inl (hstride.grows.2 _ hcancelled)⟩
  · obtain ⟨more, hmore, hnext⟩ := hstride.through hsystem (hold.resolve_left hcancelled)
      (hserial ▸ hcancelled)
    exact ⟨more, hmore, hsystem.step hstride, .inr (Task.through_append since more ▸ hnext)⟩

end System

end Pooling.Schedule
