import Pooling.Metrics.Exposition
import Pooling.Scenario.World

/-!
The parts of a scripted run that happen at once: preparing the factory, looking at the pool and
at the handles, and one part of a call.
-/

namespace Pooling.Scenario

namespace ScriptedFactory

/-- What the factory does the next time it is asked for a resource. -/
def nextMaking (factory : ScriptedFactory) : Making × List Step :=
  factory.plan.headD ({}, [])

def number (factory : ScriptedFactory) (making : Making) : UInt32 × ScriptedFactory :=
  match making.id? with
  | some id => (id, factory)
  | none => (factory.nextId, { factory with nextId := factory.nextId + 1 })

def isHealthy (factory : ScriptedFactory) (id : UInt32) : Bool := !factory.unhealthy.contains id

end ScriptedFactory

namespace World

variable {σ κ : Type}

def log (world : World σ κ) (event : Event) : World σ κ :=
  { world with events := world.events ++ [event] }

def advanceHand (world : World σ κ) (millis : UInt64) : World σ κ :=
  { world with time := world.time.advance millis }

/-- The world after a step that prepares the factory or moves the hand clock. -/
def prepare? (world : World σ κ) : Step → Option (World σ κ)
  | .plan makings =>
      some { world with factory := { world.factory with plan := world.factory.plan ++ makings } }
  | .unhealthy ids =>
      some { world with
        factory := { world.factory with unhealthy := world.factory.unhealthy ++ ids } }
  | .healthy => some { world with factory := { world.factory with unhealthy := [] } }
  | .failClose _ => some world
  | .checkCost millis => some { world with factory := { world.factory with checkCost := millis } }
  | .checkHook hook =>
      some { world with
        factory := { world.factory with checkHooks := world.factory.checkHooks ++ [hook] } }
  | .closeHook hook =>
      some { world with
        factory := { world.factory with closeHooks := world.factory.closeHooks ++ [hook] } }
  | .advance millis => some (world.advanceHand millis)
  | .set reading => some { world with time := world.time.set reading }
  | _ => none

def look? [Managed σ κ] (world : World σ κ) (step : Step) : Option Reply :=
  if Managed.isObservable σ then
    match step with
    | .capacity => some (.numbers (Managed.capacity world.pool))
    | .describe => some (.text (Managed.describe world.pool))
    | .metrics => some (.snapshot (Managed.snapshot world.pool))
    | .exported => some (.fields (Managed.snapshot world.pool).exported)
    | .exposition pool tags =>
        some (.text (Exposition.render (Managed.snapshot world.pool) pool tags))
    | _ => none
  else none

def setHandle (world : World σ κ) (name : String) (handle : Handle UInt32) : World σ κ :=
  { world with handles := world.handles.insert name handle }

def removeHandle (world : World σ κ) (name : String) : World σ κ :=
  { world with handles := world.handles.erase name }

def setDetector (world : World σ κ) (detector : LeakDetector) : World σ κ :=
  { world with detector? := some detector }

/-- A new handle on an acquired resource, registered where handles are. -/
def makeHandle (world : World σ κ) (id : UInt32) : Handle UInt32 × World σ κ :=
  match world.detector? with
  | none => (⟨id, none⟩, world)
  | some detector => (⟨id, detector.track.1⟩, world.setDetector detector.track.2)

def untrack (world : World σ κ) (tracker : Option LeakTracker) : World σ κ :=
  { world with detector? := world.detector?.map fun detector => detector.untrack? tracker }

end World

def Reply.ofOutcome : Outcome UInt32 → Reply
  | .acquired id => .acquired id
  | .nothing => .tried none
  | .released => .done
  | .collected count => .number count
  | .closed => .nothing
  | .failed error => .failed error
  | .aborted abort => .aborted abort

def Reply.ofTry : Outcome UInt32 → Reply
  | .acquired id => .tried (some id)
  | outcome => .ofOutcome outcome

def Reply.ofEnding : Except PoolError Unit → Reply
  | .ok _ => .done
  | .error error => .failed error

namespace Run

variable {σ κ : Type}

def attempt {α : Type} (part : Run σ κ α) : Run σ κ (Except Stop α) := ExceptT.lift part.run

def resume {α : Type} (result : Except Stop α) : Run σ κ α := ExceptT.mk (pure result)

/-- Runs a part of a run on a thread that polls, or on one that does not. -/
def onThread {α : Type} (polling : Bool) (part : Run σ κ α) : Run σ κ α := do
  let before := (← get).polling
  modify fun world => { world with polling }
  let result ← attempt part
  modify fun world => { world with polling := before }
  resume result

def heed (verdict : Verdict) : Run σ κ Unit :=
  match verdict with
  | .carryOn => pure ()
  | .exit => throw .exit

/-- What the owner of a pool does last when it closes: collections stop, and handles still alive
are counted. -/
def retire : Run σ κ Unit := do
  modify fun world => { world with collecting := false }
  match (← get).detector? with
  | some detector => heed detector.checkShutdown.1
  | none => pure ()

def reportLeak : Run σ κ Unit := do
  match (← get).detector? with
  | some detector =>
      modify fun world => world.setDetector detector.report.2
      heed detector.report.1
  | none => pure ()

variable [Managed σ κ]

def turn (call : κ) : Run σ κ κ := do
  let world ← get
  let advanced := Managed.advance call world.now world.pool
  let world := { world with pool := advanced.pool, events := world.events ++ advanced.events }
  set (world.applyWake advanced.wake)
  return advanced.call

def answerCheck (call : κ) (healthy : Bool) : Run σ κ κ := do
  let world ← get
  let (pool, call) := Managed.checked call healthy world.pool
  set { world with pool }
  return call

def timeOut (timeout : Duration) : Run σ κ Reply := do
  match Managed.timedOut? (σ := σ) with
  | some note => modify fun world => { world with pool := note world.pool }
  | none => pure ()
  return .failed (.timeout timeout)

end Run

end Pooling.Scenario
