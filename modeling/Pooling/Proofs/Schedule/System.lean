import Pooling.Proofs.Runs
import Pooling.Proofs.Schedule.Selection

/-!
A schedule at work, step by step: its worker, which has the lock of the queue except while it
sleeps or runs a task, and callers who schedule tasks, cancel them and shut the schedule down. Each
section of a caller under the lock is one step; the flags of a task and of the schedule are set
without it.
-/

namespace Pooling.Schedule

/-- Where the worker is. -/
inductive Phase where
  | locking
  /-- It has the lock, and looks whether it is to stop. -/
  | looking
  /-- It goes through the queue for what was cancelled, and has kept so many tasks. -/
  | pruning (kept : Nat)
  | choosing
  | parked
  /-- It has taken a task out and let go of the lock; the run has not begun. -/
  | taken
  | running
  | returning
  /-- It has the lock again, and looks whether the task was cancelled. -/
  | judging
  | restoring
  | ended
  deriving DecidableEq

namespace Phase

/-- Whether the worker has the lock. -/
def holds : Phase → Bool
  | looking => true
  | pruning _ => true
  | choosing => true
  | judging => true
  | restoring => true
  | _ => false

def roused : Phase → Phase
  | parked => locking
  | phase => phase

end Phase

/-- A call that is not yet through. -/
inductive Call where
  | entering (serial : Nat) (delay interval : Duration)
  | signalling
  /-- The task is marked as cancelled, and the worker is to be told. -/
  | announcing (serial : Nat)
  /-- The schedule is marked as stopped, by the task that runs if `inside`. -/
  | alerting (inside : Bool)
  /-- It wants the handle of the worker. -/
  | claiming (inside : Bool)
  /-- It has the handle, and the lock of it, until the worker has ended. -/
  | joining
  deriving DecidableEq

namespace Call

def entering? : Call → Option Nat
  | entering serial _ _ => some serial
  | _ => none

/-- Whether a call is one to shut down that the task that runs has made. -/
def isInside : Call → Bool
  | alerting inside => inside
  | claiming inside => inside
  | _ => false

end Call

/-- What is remembered of the steps. -/
inductive Record where
  | entered (serial : Nat) (now : Moment) (delay interval : Duration)
  | chosen (serial : Nat) (now : Moment)
  | begun (serial : Nat)
  | restored (serial : Nat) (now : Moment)
  /-- The worker has gone through the whole queue. -/
  | pruned
  /-- A call to cancel a task has returned. -/
  | cancelled (serial : Nat)
  /-- A call to shut down has returned. -/
  | shut
  deriving DecidableEq

namespace Record

def start? (serial : Nat) : Record → Option Moment
  | chosen other now => if other = serial then some now else none
  | _ => none

def end? (serial : Nat) : Record → Option Moment
  | restored other now => if other = serial then some now else none
  | _ => none

end Record

inductive Event where
  | turn
  | read (now : Moment)
  | finish (raised : Bool)
  /-- A sleep ends by itself. -/
  | rouse
  | schedule (delay interval : Duration)
  | cancel (serial : Nat)
  | shutdown (inside : Bool)
  | enter (index : Nat) (now : Moment)
  | advance (index : Nat)
  deriving DecidableEq

def Event.reading? : Event → Option Moment
  | read now => some now
  | enter _ now => some now
  | _ => none

structure System where
  queue : Queue := {}
  phase : Phase := .locking
  calls : List Call := []
  /-- The handle of the worker is still there to be taken. -/
  joinable : Bool := true
  /-- The tasks that were noted for having panicked, the latest first. -/
  complaints : List Nat := []
  /-- The last reading of the clock. -/
  last? : Option Moment := none
  /-- What has happened, the latest last. -/
  log : List Record := []

namespace System

def start : System := {}

/-- The tasks of the queue, and the one that is out of it. -/
def scheduled (system : System) : List Task :=
  system.queue.waiting ++ system.queue.running?.toList

/-- The readings at which the runs of a task start, the first one first. -/
def starts (system : System) (serial : Nat) : List Moment :=
  system.log.filterMap (Record.start? serial)

/-- The readings at the ends of the runs after which a task was put back. -/
def ends (system : System) (serial : Nat) : List Moment :=
  system.log.filterMap (Record.end? serial)

def note (system : System) (record : Record) : System :=
  { system with log := system.log ++ [record] }

def wake (system : System) : System := { system with phase := system.phase.roused }

def close (system : System) (index : Nat) : System :=
  { system with calls := system.calls.eraseIdx index }

/-- Whether there is a handle by which a task can be cancelled. -/
def knows (system : System) (serial : Nat) : Bool :=
  serial < system.queue.nextSerial && system.calls.all fun call => call.entering? ≠ some serial

def prune (system : System) (kept : Nat) : System :=
  match system.queue.waiting[kept]? with
  | none => { system with phase := .choosing }.note .pruned
  | some task =>
      if system.queue.isCancelled task.serial then
        { system with queue := { system.queue with waiting := system.queue.waiting.eraseIdx kept } }
      else { system with phase := .pruning (kept + 1) }

def turn? (system : System) : Option System :=
  match system.phase with
  | .locking => some { system with phase := .looking }
  | .looking => some { system with phase := if system.queue.stopped then .ended else .pruning 0 }
  | .pruning kept => some (system.prune kept)
  | .choosing =>
      if (earliest? system.queue.waiting).isNone then some { system with phase := .parked }
      else none
  | .taken => system.queue.running?.map fun task =>
      { system with phase := .running }.note (.begun task.serial)
  | .returning => some { system with phase := .judging }
  | .judging => system.queue.running?.map fun task =>
      if system.queue.isCancelled task.serial then
        { system with queue := system.queue.discard, phase := .looking }
      else { system with phase := .restoring }
  | _ => none

def choose? (system : System) (now : Moment) : Option System :=
  if (earliest? system.queue.waiting).isNone then none
  else
    match system.queue.pick now with
    | (.run task, queue) =>
        some ({ system with queue, phase := .taken, last? := some now }.note
          (.chosen task.serial now))
    | (_, queue) => some { system with queue, phase := .parked, last? := some now }

def read? (system : System) (now : Moment) : Option System :=
  match system.phase with
  | .choosing => system.choose? now
  | .restoring => system.queue.running?.map fun task =>
      { system with
        queue := system.queue.restore task now
        phase := .looking
        last? := some now }.note (.restored task.serial now)
  | _ => none

/-- A run ends. Whether by a panic or not, the worker goes on. -/
def finish? (system : System) (raised : Bool) : Option System :=
  if system.phase = .running ∧ ∀ call ∈ system.calls, call.isInside = false then
    system.queue.running?.map fun task =>
      { system with
        phase := .returning
        complaints :=
          if raised then task.serial :: system.complaints else system.complaints }
  else none

def schedule (system : System) (delay interval : Duration) : System :=
  { system with
    queue := system.queue.claim.2
    calls := system.calls ++ [.entering system.queue.claim.1 delay interval] }

def cancel? (system : System) (serial : Nat) : Option System :=
  if system.knows serial then
    some { system with
      queue := system.queue.cancel serial
      calls := system.calls ++ [.announcing serial] }
  else none

def shutdown? (system : System) (inside : Bool) : Option System :=
  if inside = true → system.phase = .running then
    some { system with
      queue := system.queue.stop
      calls := system.calls ++ [.alerting inside] }
  else none

def enter? (system : System) (index : Nat) (now : Moment) : Option System :=
  match system.calls[index]? with
  | some (.entering serial delay interval) =>
      if system.phase.holds then none
      else some ({ system with
        queue := system.queue.enter serial now delay interval
        calls := system.calls.set index .signalling
        last? := some now }.note (.entered serial now delay interval))
  | _ => none

def advance? (system : System) (index : Nat) : Option System := do
  match ← system.calls[index]? with
  | .entering _ _ _ => none
  | .signalling => some (system.close index).wake
  | .announcing serial =>
      if system.phase.holds then none
      else some ((system.close index).wake.note (.cancelled serial))
  | .alerting inside =>
      if system.phase.holds then none
      else some { system with calls := system.calls.set index (.claiming inside) }.wake
  | .claiming inside =>
      if .joining ∈ system.calls then none
      else if system.joinable then
        -- The worker cannot wait for its own end.
        if inside then some ({ system with joinable := false }.close index |>.note .shut)
        else some { system with joinable := false, calls := system.calls.set index .joining }
      else some (system.close index |>.note .shut)
  | .joining =>
      if system.phase = .ended then some (system.close index |>.note .shut) else none

def step? (system : System) : Event → Option System
  | .turn => system.turn?
  | .read now => system.read? now
  | .finish raised => system.finish? raised
  | .rouse => if system.phase = .parked then some { system with phase := .locking } else none
  | .schedule delay interval => some (system.schedule delay interval)
  | .cancel serial => system.cancel? serial
  | .shutdown inside => system.shutdown? inside
  | .enter index now => system.enter? index now
  | .advance index => system.advance? index

abbrev Law := System → Event → Bool

def anyhow : Law := fun _ _ => true

def increasing : Law := fun system event =>
  event.reading?.all fun now => system.last?.all fun last => last < now

abbrev Reaches (law : Law) : System → System → Prop := Runs.Reaches step? law

abbrev run? (law : Law) : List Event → System → Option System := Runs.run? step? law

/-- A step of the worker, or the end of its sleep, that changes nothing but its phase. -/
inductive Shift (system : System) : Phase → Phase → Prop where
  | lock : Shift system .locking .looking
  | stop (hstopped : system.queue.stopped = true) : Shift system .looking .ended
  | prune (hgoes : system.queue.stopped = false) : Shift system .looking (.pruning 0)
  | keep {kept : Nat} {task : Task} (htask : system.queue.waiting[kept]? = some task)
      (hkept : task.serial ∉ system.queue.cancelled) :
      Shift system (.pruning kept) (.pruning (kept + 1))
  | idle (hnone : earliest? system.queue.waiting = none) : Shift system .choosing .parked
  | rouse : Shift system .parked .locking
  | judge : Shift system .returning .judging
  | spare {task : Task} (htask : system.queue.running? = some task)
      (hspared : task.serial ∉ system.queue.cancelled) : Shift system .judging .restoring

/-- How a call to shut down comes to its end: the worker has ended, it is the task that runs and
nobody else has the worker's handle, or the handle is gone. -/
inductive Retires (system : System) : Call → Bool → Prop where
  | joined (hended : system.phase = .ended) : Retires system .joining system.joinable
  | inside (hfree : .joining ∉ system.calls) (hjoinable : system.joinable = true) :
      Retires system (.claiming true) false
  | gone {inside : Bool} (hfree : .joining ∉ system.calls) (hgone : system.joinable = false) :
      Retires system (.claiming inside) false

/-- A step that puts a task on the schedule, takes it off or changes it. -/
inductive Touch (system : System) : Event → System → Prop where
  | drop {kept : Nat} {task : Task} (hphase : system.phase = .pruning kept)
      (htask : system.queue.waiting[kept]? = some task)
      (hcancelled : task.serial ∈ system.queue.cancelled) :
      Touch system .turn { system with
        queue := { system.queue with waiting := system.queue.waiting.eraseIdx kept } }
  | take {now due : Moment} {place : Nat} {task : Task} (hphase : system.phase = .choosing)
      (hfound : earliest? system.queue.waiting = some (place, due)) (hlate : due ≤ now)
      (htask : system.queue.waiting[place]? = some task) (hdue : task.due? = some due) :
      Touch system (.read now) ({ system with
        queue := { system.queue with
          waiting := takeOut place system.queue.waiting, running? := some task }
        phase := .taken
        last? := some now }.note (.chosen task.serial now))
  | discard {task : Task} (hphase : system.phase = .judging)
      (htask : system.queue.running? = some task)
      (hcancelled : task.serial ∈ system.queue.cancelled) :
      Touch system .turn { system with queue := system.queue.discard, phase := .looking }
  | restore {now : Moment} {task : Task} (hphase : system.phase = .restoring)
      (htask : system.queue.running? = some task) :
      Touch system (.read now) ({ system with
        queue := system.queue.restore task now
        phase := .looking
        last? := some now }.note (.restored task.serial now))
  | schedule (delay interval : Duration) :
      Touch system (.schedule delay interval) (system.schedule delay interval)
  | enter {index serial : Nat} {now : Moment} {delay interval : Duration}
      (hcall : system.calls[index]? = some (.entering serial delay interval))
      (hfree : system.phase.holds = false) :
      Touch system (.enter index now) ({ system with
        queue := system.queue.enter serial now delay interval
        calls := system.calls.set index .signalling
        last? := some now }.note (.entered serial now delay interval))

/-- All that a step can do. -/
inductive Stride (system : System) : Event → System → Prop where
  | touch {event : Event} {next : System} (htouch : Touch system event next) :
      Stride system event next
  | shift {event : Event} {phase : Phase} (hshift : Shift system system.phase phase)
      (hreading : event.reading? = none) : Stride system event { system with phase }
  | pruned {kept : Nat} (hphase : system.phase = .pruning kept)
      (hall : system.queue.waiting.length ≤ kept) :
      Stride system .turn ({ system with phase := .choosing }.note .pruned)
  | early {now due : Moment} {place : Nat} (hphase : system.phase = .choosing)
      (hfound : earliest? system.queue.waiting = some (place, due)) (hearly : now < due) :
      Stride system (.read now) { system with phase := .parked, last? := some now }
  | begin {task : Task} (hphase : system.phase = .taken)
      (htask : system.queue.running? = some task) :
      Stride system .turn ({ system with phase := .running }.note (.begun task.serial))
  | finish {raised : Bool} {task : Task} (hphase : system.phase = .running)
      (houtside : ∀ call ∈ system.calls, call.isInside = false)
      (htask : system.queue.running? = some task) :
      Stride system (.finish raised) { system with
        phase := .returning
        complaints := if raised then task.serial :: system.complaints else system.complaints }
  | cancel {serial : Nat} (hbefore : serial < system.queue.nextSerial)
      (hentered : ∀ call ∈ system.calls, call.entering? ≠ some serial) :
      Stride system (.cancel serial) { system with
        queue := system.queue.cancel serial
        calls := system.calls ++ [.announcing serial] }
  | shutdown {inside : Bool} (hinside : inside = true → system.phase = .running) :
      Stride system (.shutdown inside) { system with
        queue := system.queue.stop
        calls := system.calls ++ [.alerting inside] }
  | signal {index : Nat} (hcall : system.calls[index]? = some .signalling) :
      Stride system (.advance index) (system.close index).wake
  | announce {index serial : Nat} (hcall : system.calls[index]? = some (.announcing serial))
      (hfree : system.phase.holds = false) :
      Stride system (.advance index) ((system.close index).wake.note (.cancelled serial))
  | alert {index : Nat} {inside : Bool}
      (hcall : system.calls[index]? = some (.alerting inside))
      (hfree : system.phase.holds = false) :
      Stride system (.advance index)
        { system with calls := system.calls.set index (.claiming inside) }.wake
  | join {index : Nat} (hcall : system.calls[index]? = some (.claiming false))
      (hfree : .joining ∉ system.calls) (hjoinable : system.joinable = true) :
      Stride system (.advance index)
        { system with joinable := false, calls := system.calls.set index .joining }
  | retire {index : Nat} {call : Call} {joinable : Bool}
      (hcall : system.calls[index]? = some call) (hretires : Retires system call joinable) :
      Stride system (.advance index)
        (({ system with joinable }.close index).note .shut)

section

variable {system next : System}

theorem stride_of_turn? (hstep : system.turn? = some next) : Stride system .turn next := by
  unfold turn? at hstep
  split at hstep
  next hphase =>
    cases hstep
    exact .shift (hphase ▸ .lock) rfl
  next hphase =>
    cases hstep
    cases hstopped : system.queue.stopped with
    | true => exact .shift (hphase ▸ .stop hstopped) rfl
    | false => exact .shift (hphase ▸ .prune hstopped) rfl
  next kept hphase =>
    cases hstep
    unfold prune
    split
    next hnone => exact .pruned hphase (List.getElem?_eq_none_iff.mp hnone)
    next task htask =>
      split
      next hcancelled => exact .touch (.drop hphase htask (Queue.isCancelled_iff.mp hcancelled))
      next hkept =>
        exact .shift (hphase ▸ .keep htask fun hmem => hkept (Queue.isCancelled_iff.mpr hmem)) rfl
  next hphase =>
    split at hstep
    next hnone =>
      cases hstep
      exact .shift (hphase ▸ .idle (Option.isNone_iff_eq_none.mp hnone)) rfl
    next => cases hstep
  next hphase =>
    obtain ⟨task, htask, rfl⟩ := Option.map_eq_some_iff.mp hstep
    exact .begin hphase htask
  next hphase =>
    cases hstep
    exact .shift (hphase ▸ .judge) rfl
  next hphase =>
    obtain ⟨task, htask, heq⟩ := Option.map_eq_some_iff.mp hstep
    split at heq
    next hcancelled =>
      cases heq
      exact .touch (.discard hphase htask (Queue.isCancelled_iff.mp hcancelled))
    next hspared =>
      cases heq
      exact .shift (hphase ▸ .spare htask fun hmem => hspared (Queue.isCancelled_iff.mpr hmem)) rfl
  next => cases hstep

theorem choose?_of_none (hnone : earliest? system.queue.waiting = none) (now : Moment) :
    system.choose? now = none := by
  rw [choose?, hnone]
  rfl

theorem choose?_early {now due : Moment} {place : Nat}
    (hfound : earliest? system.queue.waiting = some (place, due)) (hearly : now < due) :
    system.choose? now = some { system with phase := .parked, last? := some now } := by
  rw [choose?, Queue.pick_early hfound hearly, hfound]
  rfl

theorem choose?_due {now due : Moment} {place : Nat} {task : Task}
    (hfound : earliest? system.queue.waiting = some (place, due)) (hlate : due ≤ now)
    (htask : system.queue.waiting[place]? = some task) :
    system.choose? now = some ({ system with
      queue := { system.queue with
        waiting := takeOut place system.queue.waiting, running? := some task }
      phase := .taken
      last? := some now }.note (.chosen task.serial now)) := by
  rw [choose?, Queue.pick_due hfound hlate htask, hfound]
  rfl

theorem stride_of_read? {now : Moment} (hstep : system.read? now = some next) :
    Stride system (.read now) next := by
  unfold read? at hstep
  split at hstep
  next hphase =>
    cases hfound : earliest? system.queue.waiting with
    | none =>
        rw [choose?_of_none hfound] at hstep
        cases hstep
    | some found =>
        obtain ⟨place, due⟩ := found
        obtain ⟨task, htask, hdue, -⟩ := exists_of_earliest? hfound
        rcases Nat.lt_or_ge now due with hearly | hlate
        · rw [choose?_early hfound hearly] at hstep
          cases hstep
          exact .early hphase hfound hearly
        · rw [choose?_due hfound hlate htask] at hstep
          cases hstep
          exact .touch (.take hphase hfound hlate htask hdue)
  next hphase =>
    obtain ⟨task, htask, rfl⟩ := Option.map_eq_some_iff.mp hstep
    exact .touch (.restore hphase htask)
  next => cases hstep

theorem stride_of_enter? {index : Nat} {now : Moment} (hstep : system.enter? index now = some next) :
    Stride system (.enter index now) next := by
  unfold enter? at hstep
  split at hstep
  next serial delay interval hcall =>
    split at hstep
    next => cases hstep
    next hfree =>
      cases hstep
      exact .touch (.enter hcall (Bool.eq_false_iff.mpr hfree))
  next => cases hstep

theorem stride_of_advance? {index : Nat} (hstep : system.advance? index = some next) :
    Stride system (.advance index) next := by
  obtain ⟨call, hcall, hstep⟩ := Option.bind_eq_some_iff.mp hstep
  cases call with
  | entering serial delay interval => cases hstep
  | signalling =>
      cases hstep
      exact .signal hcall
  | announcing serial =>
      dsimp only at hstep
      split at hstep
      next => cases hstep
      next hfree =>
        cases hstep
        exact .announce hcall (Bool.eq_false_iff.mpr hfree)
  | alerting inside =>
      dsimp only at hstep
      split at hstep
      next => cases hstep
      next hfree =>
        cases hstep
        exact .alert hcall (Bool.eq_false_iff.mpr hfree)
  | claiming inside =>
      dsimp only at hstep
      split at hstep
      next => cases hstep
      next hfree =>
        split at hstep
        next hjoinable =>
          cases inside with
          | true =>
              cases hstep
              exact .retire hcall (.inside hfree hjoinable)
          | false =>
              cases hstep
              exact .join hcall hfree hjoinable
        next hgone =>
          have hgone := Bool.eq_false_iff.mpr hgone
          cases hstep
          have hsame : ({ system with joinable := false } : System) = system := by
            rw [← hgone]
          have hretire : Stride system _ _ := .retire hcall (.gone hfree hgone)
          rwa [hsame] at hretire
  | joining =>
      dsimp only at hstep
      split at hstep
      next hended =>
        cases hstep
        exact .retire hcall (.joined hended)
      next => cases hstep

theorem stride_of_step? {event : Event} (hstep : system.step? event = some next) :
    Stride system event next := by
  cases event with
  | turn => exact stride_of_turn? hstep
  | read now => exact stride_of_read? hstep
  | finish raised =>
      obtain ⟨⟨hphase, houtside⟩, hstep⟩ := Option.ite_none_right_eq_some.mp hstep
      obtain ⟨task, htask, rfl⟩ := Option.map_eq_some_iff.mp hstep
      exact .finish hphase houtside htask
  | rouse =>
      obtain ⟨hphase, hstep⟩ := Option.ite_none_right_eq_some.mp hstep
      cases hstep
      exact .shift (hphase ▸ .rouse) rfl
  | schedule delay interval =>
      cases hstep
      exact .touch (.schedule delay interval)
  | cancel serial =>
      obtain ⟨hknows, hstep⟩ := Option.ite_none_right_eq_some.mp hstep
      cases hstep
      obtain ⟨hbefore, hentered⟩ := Bool.and_eq_true_iff.mp hknows
      refine .cancel (of_decide_eq_true hbefore) fun call hcall => ?_
      exact of_decide_eq_true (List.all_eq_true.mp hentered call hcall)
  | shutdown inside =>
      obtain ⟨hinside, hstep⟩ := Option.ite_none_right_eq_some.mp hstep
      cases hstep
      exact .shutdown hinside
  | enter index now => exact stride_of_enter? hstep
  | advance index => exact stride_of_advance? hstep

end

theorem Reaches.stepwise {law : Law} {before after : System} (hreaches : Reaches law before after)
    (holds : System → Prop) (hstart : holds before)
    (hkept : ∀ {system next : System} {event : Event}, holds system → law system event = true →
      Stride system event next → holds next) : holds after :=
  hreaches.invariant holds hstart fun hholds hlaw hstep => hkept hholds hlaw (stride_of_step? hstep)

theorem Reaches.history {law : Law} {before after : System} {records : List Record}
    (hreaches : Reaches law before after) (hlog : after.log = before.log ++ records)
    (holds : List Record → System → Prop) (hstart : holds [] before)
    (hkept : ∀ {since : List Record} {system next : System} {event : Event}, holds since system →
      law system event = true → Stride system event next →
        ∃ more, next.log = system.log ++ more ∧ holds (since ++ more) next) :
    holds records after := by
  obtain ⟨since, hsince, hholds⟩ := hreaches.stepwise
    (fun system => ∃ since, system.log = before.log ++ since ∧ holds since system)
    ⟨[], (List.append_nil _).symm, hstart⟩
    fun ⟨since, hsince, hholds⟩ hlaw hstride => by
      obtain ⟨more, hmore, hnext⟩ := hkept hholds hlaw hstride
      exact ⟨since ++ more, by rw [hmore, hsince, List.append_assoc], hnext⟩
  cases List.append_cancel_left (hlog.symm.trans hsince)
  exact hholds

/-! Without anyone in between, the steps of the worker make up the sections of the queue. -/

theorem reaches_turn {before after : System} (hturn : before.turn? = some after) :
    Reaches anyhow before after :=
  .single ⟨.turn, rfl, hturn⟩

theorem reaches_read {before after : System} (now : Moment)
    (hread : before.read? now = some after) : Reaches anyhow before after :=
  .single ⟨.read now, rfl, hread⟩

section

variable {system : System} {kept : Nat} {task : Task}

theorem prune_end (hall : system.queue.waiting[kept]? = none) :
    system.prune kept = { system with phase := .choosing }.note .pruned := by
  rw [prune, hall]

theorem prune_cancelled (htask : system.queue.waiting[kept]? = some task)
    (hcancelled : system.queue.isCancelled task.serial = true) :
    system.prune kept = { system with
      queue := { system.queue with waiting := system.queue.waiting.eraseIdx kept } } := by
  rw [prune, htask]
  exact if_pos hcancelled

theorem prune_kept (htask : system.queue.waiting[kept]? = some task)
    (hkept : system.queue.isCancelled task.serial = false) :
    system.prune kept = { system with phase := .pruning (kept + 1) } := by
  rw [prune, htask]
  exact if_neg (Bool.eq_false_iff.mp hkept)

end

def withWaiting (system : System) (waiting : List Task) (phase : Phase) : System :=
  { system with queue := { system.queue with waiting }, phase }

theorem reaches_prune (system : System) (waiting : List Task) (kept : Nat) :
    Reaches anyhow (system.withWaiting waiting (.pruning kept))
      ((system.withWaiting waiting (.pruning kept)).prune kept) :=
  reaches_turn rfl

theorem reaches_pruned (system : System) (kept left : List Task) :
    Reaches anyhow (system.withWaiting (kept ++ left) (.pruning kept.length))
      ((system.withWaiting (kept ++ left.filter fun task => !system.queue.isCancelled task.serial)
        .choosing).note .pruned) := by
  -- The worker has been through those it has kept; the induction is on those that are left.
  induction left generalizing kept with
  | nil =>
      have hprune := reaches_prune system (kept ++ []) kept.length
      rwa [prune_end (by simp [withWaiting])] at hprune
  | cons task left ih =>
      have hprune := reaches_prune system (kept ++ task :: left) kept.length
      have htask : (system.withWaiting (kept ++ task :: left)
          (.pruning kept.length)).queue.waiting[kept.length]? = some task := by simp [withWaiting]
      cases hcancelled : system.queue.isCancelled task.serial with
      | true =>
          rw [prune_cancelled htask hcancelled] at hprune
          rw [List.filter_cons_of_neg (by simp [hcancelled])]
          refine hprune.trans ?_
          have herase : (kept ++ task :: left).eraseIdx kept.length = kept ++ left := by
            simp [List.eraseIdx_append_of_length_le]
          have hrest := ih kept
          rw [← herase] at hrest
          exact hrest
      | false =>
          rw [prune_kept htask hcancelled] at hprune
          rw [List.filter_cons_of_pos (by simp [hcancelled])]
          refine hprune.trans ?_
          have hrest := ih (kept ++ [task])
          rwa [List.append_assoc, List.append_assoc, List.length_append] at hrest

end System

/-- Where the worker goes with what the queue tells it. -/
def Order.phase : Order → Phase
  | stop => .ended
  | sleep => .parked
  | sleepUntil _ => .parked
  | run _ => .taken

namespace System

/-- A caller's section, or one of the worker's, has come to a queue and a phase. -/
def Comes (before : System) (queue : Queue) (phase : Phase) : Prop :=
  ∃ after, Reaches anyhow before after ∧ after.queue = queue ∧ after.phase = phase

theorem comes_pick {system : System} (now : Moment) (hphase : system.phase = .choosing) :
    system.Comes (system.queue.pick now).2 (system.queue.pick now).1.phase := by
  have hread {after : System} (hchoose : system.choose? now = some after) :
      Reaches anyhow system after := by
    refine reaches_read now ?_
    rw [read?, hphase]
    exact hchoose
  cases hfound : earliest? system.queue.waiting with
  | none =>
      rw [Queue.pick_of_none hfound]
      refine ⟨{ system with phase := .parked }, reaches_turn ?_, rfl, rfl⟩
      rw [turn?, hphase]
      exact if_pos (Option.isNone_iff_eq_none.mpr hfound)
  | some found =>
      obtain ⟨place, due⟩ := found
      obtain ⟨task, htask, -, -⟩ := exists_of_earliest? hfound
      rcases Nat.lt_or_ge now due with hearly | hlate
      · have hchoose := hread (choose?_early hfound hearly)
        rw [Queue.pick_early hfound hearly]
        exact ⟨_, hchoose, rfl, rfl⟩
      · have hchoose := hread (choose?_due hfound hlate htask)
        rw [Queue.pick_due hfound hlate htask]
        exact ⟨_, hchoose, rfl, rfl⟩

theorem comes_next {system : System} (now : Moment) (hphase : system.phase = .looking) :
    system.Comes (system.queue.next now).2 (system.queue.next now).1.phase := by
  have hlook : Reaches anyhow system
      { system with phase := if system.queue.stopped then .ended else .pruning 0 } := by
    refine reaches_turn ?_
    rw [turn?, hphase]
  unfold Queue.next
  split
  next hstopped =>
    rw [if_pos hstopped] at hlook
    exact ⟨_, hlook, rfl, rfl⟩
  next hgoes =>
    rw [if_neg hgoes] at hlook
    have hpruned := reaches_pruned system [] system.queue.waiting
    obtain ⟨after, hpick, hqueue, hafter⟩ :=
      @comes_pick ((system.withWaiting system.queue.prune.waiting .choosing).note .pruned) now rfl
    exact ⟨after, (hlook.trans hpruned).trans hpick, hqueue, hafter⟩

theorem comes_putBack {system : System} {task : Task} (now : Moment)
    (hphase : system.phase = .judging) (htask : system.queue.running? = some task) :
    system.Comes (system.queue.putBack now) .looking := by
  rw [Queue.putBack, htask]
  dsimp only
  split
  next hcancelled =>
    refine ⟨{ system with queue := system.queue.discard, phase := .looking },
      reaches_turn ?_, rfl, rfl⟩
    rw [turn?, hphase, htask]
    exact congrArg some (if_pos hcancelled)
  next hspared =>
    have hjudge : Reaches anyhow system { system with phase := .restoring } := by
      refine reaches_turn ?_
      rw [turn?, hphase, htask]
      exact congrArg some (if_neg hspared)
    have hrestore : { system with phase := .restoring }.read? now =
        some ({ system with
          queue := system.queue.restore task now
          phase := .looking
          last? := some now }.note (.restored task.serial now)) := by
      rw [read?, htask]
      rfl
    exact ⟨_, hjudge.trans (reaches_read now hrestore), rfl, rfl⟩

theorem comes_schedule {system : System} (now : Moment) (delay interval : Duration)
    (hfree : system.phase.holds = false) :
    system.Comes (system.queue.schedule now delay interval).2 system.phase := by
  have hcall : (system.schedule delay interval).calls[system.calls.length]? =
      some (.entering system.queue.claim.1 delay interval) := List.getElem?_concat_length
  have hclaim : Reaches anyhow system (system.schedule delay interval) :=
    .single ⟨.schedule delay interval, rfl, rfl⟩
  have henter : (system.schedule delay interval).enter? system.calls.length now =
      some ({ system.schedule delay interval with
        queue := (system.queue.schedule now delay interval).2
        calls := (system.schedule delay interval).calls.set system.calls.length .signalling
        last? := some now }.note (.entered system.queue.claim.1 now delay interval)) := by
    rw [enter?, hcall]
    exact if_neg (Bool.eq_false_iff.mp hfree)
  exact ⟨_, hclaim.tail ⟨.enter system.calls.length now, rfl, henter⟩, rfl, rfl⟩

end System

end Pooling.Schedule
