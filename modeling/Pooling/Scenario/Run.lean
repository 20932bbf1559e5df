import Pooling.Scenario.Actions

/-!
Running a script. A call goes on by itself until it sleeps or ends; the factory runs the script's
hooks wherever it is asked; and whoever is awake comes to rest before the next step. While the
script's own caller sleeps, time passes to the next moment at which someone goes on.
-/

namespace Pooling.Scenario.Run

variable {σ κ : Type} [Managed σ κ]

mutual

def makeResource (fuel : Nat) : Run σ κ (Made UInt32) :=
  match fuel with
  | 0 => throw .stuck
  | fuel + 1 => do
      let (making, hook) := (← get).factory.nextMaking
      modify fun world =>
        { world with factory := { world.factory with plan := world.factory.plan.tail } }
      runHook fuel hook
      match making.failure?, making.raise? with
      | some source, _ =>
          modify (World.log · (.made none))
          return .failed source
      | none, some text => throw (.abort (.raised text))
      | none, none =>
          let (id, factory) := (← get).factory.number making
          modify fun world => { world with factory }
          modify (World.log · (.made (some id)))
          return .ok id
termination_by structural fuel

/-- Checks a resource; the check takes its time by the hand clock. What it finds is settled before
its hook runs. -/
def checkHealth (fuel : Nat) (id : UInt32) : Run σ κ Bool :=
  match fuel with
  | 0 => throw .stuck
  | fuel + 1 => do
      modify fun world => world.advanceHand world.factory.checkCost
      let healthy := (← get).factory.isHealthy id
      let hook := (← get).factory.checkHooks.headD []
      modify fun world =>
        { world with factory := { world.factory with checkHooks := world.factory.checkHooks.tail } }
      runHook fuel hook
      modify (World.log · (.checked id healthy))
      return healthy
termination_by structural fuel

def closeResource (fuel : Nat) (id : UInt32) : Run σ κ Unit :=
  match fuel with
  | 0 => throw .stuck
  | fuel + 1 => do
      let hook := (← get).factory.closeHooks.headD []
      modify fun world =>
        { world with factory := { world.factory with closeHooks := world.factory.closeHooks.tail } }
      runHook fuel hook
      modify (World.log · (.closed id))
termination_by structural fuel

/-- Runs the steps of a hook, also after one that was abandoned. -/
def runHook (fuel : Nat) (hook : List Step) : Run σ κ Unit :=
  match fuel, hook with
  | 0, _ => throw .stuck
  | _, [] => pure ()
  | fuel + 1, step :: rest => do
      match ← observe fuel step with
      | .error abort => modify (World.log · (.hookAborted abort))
      | .ok (reply, status) => modify (World.log · (.hooked reply status))
      runHook fuel rest
termination_by structural fuel

/-- Performs a step, lets everybody come to rest, and looks at the pool; either of them may be
abandoned. -/
def observe (fuel : Nat) (step : Step) : Run σ κ (Except Abort (Reply × Status)) :=
  match fuel with
  | 0 => throw .stuck
  | fuel + 1 => do
      let result ← attempt (perform fuel step)
      settle fuel
      match result with
      | .error (.abort abort) => return .error abort
      | .error stop => throw stop
      | .ok reply => return (← get).status.map fun status => (reply, status)
termination_by structural fuel

def drive (fuel : Nat) (call : κ) : Run σ κ κ :=
  match fuel with
  | 0 => throw .stuck
  | fuel + 1 =>
      match Managed.need σ call with
      | .turn => do drive fuel (← turn call)
      | .make => do drive fuel (Managed.made σ call (← makeResource fuel))
      | .check id => do drive fuel (← answerCheck call (← checkHealth fuel id))
      | .close id => do
          closeResource fuel id
          drive fuel (Managed.disposed σ call)
      | .retire => do
          retire
          drive fuel (Managed.retired σ call)
      | .sleep => return call
      | .done _ => return call
termination_by structural fuel

def finish (fuel : Nat) (call : κ) : Run σ κ (Outcome UInt32) :=
  match fuel with
  | 0 => throw .stuck
  | fuel + 1 => do
      let call ← drive fuel call
      match Managed.need σ call with
      | .done (.aborted abort) => throw (.abort abort)
      | .done outcome => return outcome
      | _ =>
          modify fun world =>
            { world with sleepers := world.sleepers ++ [.caller], callerAwake := false }
          awaitWake fuel (Managed.alarm? σ call (← get).now)
          finish fuel (Managed.woken σ call)
termination_by structural fuel

def awaitWake (fuel : Nat) (alarm? : Option Nat) : Run σ κ Unit :=
  match fuel with
  | 0 => throw .stuck
  | fuel + 1 => do
      settle fuel
      let world ← get
      if world.callerAwake then return
      match alarm?, world.nextAlarm? with
      | some own, some (moment, worker) =>
          if own ≤ moment then set ((world.passTo own).wakeSleeper .caller)
          else
            ring fuel moment worker
            awaitWake fuel alarm?
      | some own, none => set ((world.passTo own).wakeSleeper .caller)
      | none, some (moment, worker) =>
          ring fuel moment worker
          awaitWake fuel alarm?
      | none, none => throw .stuck
termination_by structural fuel

def ring (fuel : Nat) (moment : Nat) (worker : Worker κ) : Run σ κ Unit :=
  match fuel with
  | 0 => throw .stuck
  | fuel + 1 => do
      modify (World.passTo · moment)
      match worker.state with
      | .polling _ _ => poll fuel worker
      | _ => modify (World.wakeSleeper · (.worker worker.number))
termination_by structural fuel

def poll (fuel : Nat) (worker : Worker κ) : Run σ κ Unit :=
  match fuel with
  | 0 => throw .stuck
  | fuel + 1 => do
      match worker.state, Managed.tryAcquire? (σ := σ) with
      | .polling deadline timeout, some call =>
          modify (World.setWorker · worker.number .running)
          match ← attempt (onThread true (finish fuel call)) with
          | .ok .nothing =>
              if deadline ≤ (← get).time.elapsed then
                endWorker fuel worker.number (← timeOut timeout)
              else modify (World.setWorker · worker.number worker.state)
          | .ok outcome => endWorker fuel worker.number (.ofOutcome outcome)
          | .error (.abort abort) => endWorker fuel worker.number (.aborted abort)
          | .error stop => throw stop
      | _, _ => pure ()
termination_by structural fuel

/-- Runs whoever is awake in the background, until all of them sleep or are done. -/
def settle (fuel : Nat) : Run σ κ Unit :=
  match fuel with
  | 0 => throw .stuck
  | fuel + 1 => do
      match (← get).readyWorker? with
      | none => pure ()
      | some (number, call) =>
          work fuel number call
          settle fuel
termination_by structural fuel

def work (fuel : Nat) (number : Nat) (call : κ) : Run σ κ Unit :=
  match fuel with
  | 0 => throw .stuck
  | fuel + 1 => do
      modify (World.setWorker · number .running)
      match ← attempt (onThread false (drive fuel call)) with
      | .ok call =>
          match Managed.need σ call with
          | .done outcome => endWorker fuel number (.ofOutcome outcome)
          | _ => modify (World.putToSleep · number call)
      | .error (.abort abort) => endWorker fuel number (.aborted abort)
      | .error stop => throw stop
termination_by structural fuel

/-- A worker that is done lets go of the pool; what is abandoned then is its own. -/
def endWorker (fuel : Nat) (number : Nat) (reply : Reply) : Run σ κ Unit :=
  match fuel with
  | 0 => throw .stuck
  | fuel + 1 => do
      modify (World.setWorker · number (.finished reply))
      match ← attempt (bury fuel) with
      | .error (.abort abort) => modify (World.setWorker · number (.finished (.aborted abort)))
      | .error stop => throw stop
      | .ok _ => pure ()
termination_by structural fuel

def bury (fuel : Nat) : Run σ κ Unit :=
  match fuel with
  | 0 => throw .stuck
  | fuel + 1 => do
      let world ← get
      if !world.isHeld && !world.buried && Managed.isObservable σ then
        set { world with buried := true }
        let _ ← finish fuel (Managed.close (σ := σ))
      else pure ()
termination_by structural fuel

/-- Lends the pool to a part of a run: it is held as long as the part lasts. -/
def lend (fuel : Nat) (part : Run σ κ Reply) : Run σ κ Reply :=
  match fuel with
  | 0 => throw .stuck
  | fuel + 1 => do
      modify fun world => { world with borrowers := world.borrowers + 1 }
      let result ← attempt part
      modify fun world => { world with borrowers := world.borrowers - 1 }
      bury fuel
      resume result
termination_by structural fuel

def endHandle (fuel : Nat) (ending : Ending UInt32) : Run σ κ (Except PoolError Unit) :=
  match fuel with
  | 0 => throw .stuck
  | fuel + 1 => do
      match ending with
      | .upgrading _ _ =>
          let alive := (← get).isHeld
          if alive then modify fun world => { world with borrowers := world.borrowers + 1 }
          endHandle fuel (ending.upgraded alive)
      | .releasing id tracker =>
          match ← attempt (finish fuel (Managed.release σ id (← get).now)) with
          | .ok (.failed error) => endHandle fuel (ending.released (.error error))
          | .ok _ => endHandle fuel (ending.released (.ok ()))
          | .error stop =>
              modify fun world => { world with borrowers := world.borrowers - 1 }
              bury fuel
              modify (World.untrack · tracker)
              throw stop
      | .lettingGo _ _ =>
          modify fun world => { world with borrowers := world.borrowers - 1 }
          bury fuel
          endHandle fuel ending.letGone
      | .reporting =>
          reportLeak
          endHandle fuel ending.reported
      | .untracking _ tracker =>
          modify (World.untrack · tracker)
          endHandle fuel ending.untracked
      | .done result => return result
termination_by structural fuel

def endHandle? (fuel : Nat) (name : String) : Run σ κ (Option (Except PoolError Unit)) :=
  match fuel with
  | 0 => throw .stuck
  | fuel + 1 => do
      match (← get).handles.get? name with
      | none => return none
      | some handle =>
          modify (World.removeHandle · name)
          return some (← endHandle fuel (.start handle))
termination_by structural fuel

/-- Keeps an acquired resource in a handle; a handle of the same name ends. -/
def keep (fuel : Nat) (name : String) (id : UInt32) : Run σ κ Unit :=
  match fuel with
  | 0 => throw .stuck
  | fuel + 1 => do
      let (handle, world) := (← get).makeHandle id
      set (world.setHandle name handle)
      match world.handles.get? name with
      | some replaced =>
          let _ ← endHandle fuel (.start replaced)
      | none => pure ()
termination_by structural fuel

/-- Lets time pass to a moment, for workers that go on by then. -/
def elapse (fuel : Nat) (last : Nat) : Run σ κ Unit :=
  match fuel with
  | 0 => throw .stuck
  | fuel + 1 => do
      settle fuel
      match (← get).dueAlarm? last with
      | some (moment, worker) =>
          ring fuel moment worker
          elapse fuel last
      | none => modify (World.passTo · last)
termination_by structural fuel

/-- A collection in the background. It is put off when it is over, also if it was abandoned. -/
def collect (fuel : Nat) (moment : Nat) : Run σ κ Unit :=
  match fuel with
  | 0 => throw .stuck
  | fuel + 1 => do
      match Managed.collect? (σ := σ) with
      | none => pure ()
      | some call =>
          modify fun world => { world.passTo moment with sweeping := true }
          let result ← attempt (onThread false (finish fuel call))
          modify fun world => { world.scheduleCollection moment with sweeping := false }
          match result with
          | .error (.abort _) => pure ()
          | .error stop => throw stop
          | .ok _ => pure ()
termination_by structural fuel

/-- Lets time pass, for collections and for workers, until the pool is small enough or the time is
over. -/
def awaitSize (fuel : Nat) (size : Nat) (last : Nat) : Run σ κ Reply :=
  match fuel with
  | 0 => throw .stuck
  | fuel + 1 => do
      settle fuel
      let world ← get
      if Managed.size world.pool ≤ size then return .truth true
      else
        match world.dueCollection? last, world.dueAlarm? last with
        | some moment, some (other, worker) =>
            if moment ≤ other then collect fuel moment else ring fuel other worker
            awaitSize fuel size last
        | some moment, none =>
            collect fuel moment
            awaitSize fuel size last
        | none, some (moment, worker) =>
            ring fuel moment worker
            awaitSize fuel size last
        | none, none =>
            elapse fuel last
            return .truth false
termination_by structural fuel

def begin (fuel : Nat) (name : String) (taking : Taking) : Run σ κ Reply :=
  match fuel with
  | 0 => throw .stuck
  | fuel + 1 => do
      let world ← get
      match taking with
      | .waiting =>
          set (world.addWorker name false (.ready (Managed.acquire (σ := σ)))).2
          settle fuel
          return .nothing
      | .within timeout =>
          let call := Managed.acquireWithin σ timeout world.now
          set (world.addWorker name false (.ready call)).2
          settle fuel
          return .nothing
      | .polling timeout =>
          if (Managed.timedOut? (σ := σ)).isSome then
            let deadline := world.time.elapsed + timeout.nanos
            let (worker, world) := world.addWorker name true (.polling deadline timeout)
            set world
            poll fuel worker
            return .nothing
          else return .unfit .unknownStep
termination_by structural fuel

/-- Waits for a worker's end; workers that poll try once more before time passes. -/
def join (fuel : Nat) (name : String) : Run σ κ Reply :=
  match fuel with
  | 0 => throw .stuck
  | fuel + 1 => do
      settle fuel
      let world ← get
      match world.worker? name with
      | none => return .nothing
      | some worker =>
          match worker.state, world.nextAlarm? with
          | .finished reply, _ =>
              set (world.removeWorker worker.number)
              return reply
          | _, some (moment, next) =>
              ring fuel moment next
              join fuel name
          | _, none => throw .stuck
termination_by structural fuel

def pollAll (fuel : Nat) (workers : List (Worker κ)) : Run σ κ Unit :=
  match fuel, workers with
  | 0, _ => throw .stuck
  | _, [] => pure ()
  | fuel + 1, worker :: rest => do
      poll fuel worker
      pollAll fuel rest
termination_by structural fuel

def joinAll (fuel : Nat) (names : List String) : Run σ κ (List Reply) :=
  match fuel, names with
  | 0, _ => throw .stuck
  | _, [] => return []
  | fuel + 1, name :: rest => do
      let reply ← join fuel name
      return reply :: (← joinAll fuel rest)
termination_by structural fuel

def performOnPool (fuel : Nat) (step : Step) : Run σ κ Reply :=
  match fuel with
  | 0 => throw .stuck
  | fuel + 1 => do
      let world ← get
      match step with
      | .acquire => return .ofOutcome (← finish fuel (Managed.acquire (σ := σ)))
      | .acquireWithin timeout =>
          return .ofOutcome (← finish fuel (Managed.acquireWithin σ timeout world.now))
      | .tryAcquire =>
          match Managed.tryAcquire? (σ := σ) with
          | some call => return .ofTry (← finish fuel call)
          | none => return .unfit .unknownStep
      | .poll timeout =>
          match Managed.timedOut? (σ := σ), Managed.tryAcquire? (σ := σ) with
          | some _, some call =>
              if world.polling then throw (.abort .nestedPolling)
              match ← onThread true (finish fuel call) with
              | .nothing =>
                  elapse fuel (world.time.elapsed + timeout.nanos)
                  timeOut timeout
              | outcome => return .ofOutcome outcome
          | _, _ => return .unfit .unknownStep
      | .release id => return .ofOutcome (← finish fuel (Managed.release σ id world.now))
      | .collect =>
          match Managed.collect? (σ := σ) with
          | some call => return .ofOutcome (← finish fuel call)
          | none =>
              return if Managed.isObservable σ then .nothing else .unfit .unknownStep
      | .close => return .ofOutcome (← finish fuel (Managed.close (σ := σ)))
      | .awaitSize size millis =>
          modify (World.advanceHand · millis)
          awaitSize fuel size (world.time.elapsed + longestPause)
      | .scoped name timeout? =>
          let call :=
            match timeout? with
            | some timeout => Managed.acquireWithin σ timeout world.now
            | none => Managed.acquire (σ := σ)
          match ← finish fuel call with
          | .acquired id =>
              keep fuel name id
              return .acquired id
          | outcome => return .ofOutcome outcome
      | .start name taking => begin fuel name taking
      | step => return (world.look? step).getD (.unfit .unknownStep)
termination_by structural fuel

def perform (fuel : Nat) (step : Step) : Run σ κ Reply :=
  match fuel with
  | 0 => throw .stuck
  | fuel + 1 => do
      let world ← get
      match step with
      | .dropHandle name => return .truth (← endHandle? fuel name).isSome
      | .forgetHandle name =>
          set (world.removeHandle name)
          return .truth (world.handles.contains name)
      | .releaseHandle name =>
          return ((← endHandle? fuel name).map Reply.ofEnding).getD .nothing
      | .intoInner name =>
          match world.handles.get? name with
          | none => return .nothing
          | some handle =>
              set ((world.removeHandle name).untrack handle.tracker)
              return .number handle.resource.toNat
      | .setValue name id =>
          set { world with handles := world.handles.modify name fun handle => handle.write id }
          return .nothing
      | .value name =>
          match world.handles.get? name with
          | none => return .nothing
          | some handle => return .number handle.resource.toNat
      | .describeHandle name =>
          match world.handles.get? name with
          | none => return .nothing
          | some handle => return .text (handle.describeResource fun id => toString id.toNat)
      | .peek name =>
          match world.worker? name with
          | none => return .nothing
          | some worker => return .waiting !worker.isFinished
      | .join name =>
          pollAll fuel world.workers
          join fuel name
      | .joinAll =>
          pollAll fuel world.workers
          let named := world.workers.filter fun worker => !worker.detached
          return .replies (← joinAll fuel (named.map Worker.name))
      | .dropPool =>
          set { world with owned := false }
          bury fuel
          return .nothing
      | step =>
          match world.prepare? step with
          | some world =>
              set world
              return .nothing
          | none =>
              if world.owned then lend fuel (performOnPool fuel step)
              else return .unfit .poolDropped
termination_by structural fuel

end

end Pooling.Scenario.Run
