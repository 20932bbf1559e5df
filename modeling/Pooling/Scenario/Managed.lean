import Pooling.Elastic.Call
import Pooling.Fixed.Call
import Pooling.Scenario.Step

/-!
The pools that a script can run, seen alike: how their calls begin, go on and end, and what can be
seen of them.
-/

namespace Pooling.Scenario

/-- The two clocks at a moment of a run: the pool's reading and real time in nanoseconds. -/
structure Instants where
  reading : Reading
  moment : Nat

structure Advanced (σ κ : Type) where
  pool : σ
  wake : Wake := .nobody
  events : List Event := []
  call : κ

/-- A kind of pool `σ` and its calls `κ`. -/
class Managed (σ : Type) (κ : outParam Type) where
  acquire : κ
  acquireWithin : Duration → Instants → κ
  tryAcquire? : Option κ
  release : UInt32 → Instants → κ
  collect? : Option κ
  /-- How a caller that polls notes that its time is over, where the pool lets callers poll. -/
  timedOut? : Option (σ → σ)
  close : κ
  need : κ → Need UInt32
  advance : κ → Instants → σ → Advanced σ κ
  made : κ → Made UInt32 → κ
  checked : κ → Bool → σ → σ × κ
  disposed : κ → κ
  woken : κ → κ
  retired : κ → κ
  /-- The moment at which a sleeping call looks again by itself. -/
  alarm? : κ → Instants → Option Nat
  view : σ → Except Abort PoolView
  /-- Whether the pool reports more than its kind. -/
  isObservable : Bool
  /-- Whether the pool lets resources go in the background. -/
  collects : Bool
  size : σ → Nat
  capacity : σ → List Nat
  describe : σ → String
  snapshot : σ → Snapshot

/-- Real time at which a hand clock would show a reading if it moved by itself. -/
def momentOf (deadline : Reading) (now : Instants) : Nat :=
  now.moment + (deadline.since now.reading).toNat * 1000000

instance : Managed (Elastic.Pool UInt32) (Elastic.Call UInt32) where
  acquire := .acquire
  acquireWithin timeout now := .acquireWithin timeout now.reading
  tryAcquire? := some .tryAcquire
  release id now := .release id now.reading
  collect? := some .collect
  timedOut? := some fun pool => pool.record .countTimeout
  close := .close
  need := Elastic.Call.need
  advance call now pool :=
    let advanced := call.advance now.reading pool
    { pool := advanced.pool, wake := advanced.wake, call := advanced.call }
  made := .made
  checked := Elastic.Call.checked
  disposed := .disposed
  woken := .woken
  retired := .retired
  alarm? call now := call.alarm?.map fun deadline => momentOf deadline now
  view pool := do
    let inUse ← pool.inUse
    return {
      size := pool.size
      available := pool.available.length
      closed := pool.closed
      inUse? := some inUse
      counter? := some pool.counter.value }
  isObservable := true
  collects := true
  size pool := pool.size
  capacity pool := [pool.minCapacity, pool.maxCapacity]
  describe pool := pool.describe
  snapshot pool := pool.snapshot

instance : Managed (Fixed.Pool UInt32) (Fixed.Call UInt32) where
  acquire := .acquire
  acquireWithin timeout now := .acquireWithin timeout now.moment
  tryAcquire? := some .tryAcquire
  release id _ := .release id
  collect? := none
  timedOut? := none
  close := .close
  need := Fixed.Call.need
  advance call now pool :=
    let advanced := call.advance now.moment pool
    { pool := advanced.pool, wake := advanced.wake, call := advanced.call }
  made := .factoryMade
  checked call _ pool := (pool, call)
  disposed := .disposed
  woken := .woken
  retired call := call
  alarm? call _ := call.alarm?
  view pool := .ok { size := pool.size, available := pool.queue.length, closed := pool.closed }
  isObservable := true
  collects := false
  size pool := pool.size
  capacity pool := [pool.maxCapacity]
  describe pool := pool.describe
  snapshot pool := pool.snapshot

/-! A relay is the least that can be a pool: it hands on what the factory makes, and refuses one
resource when it is given back. -/

structure Relay where

inductive RelayCall where
  | making
  | returning (id : UInt32)
  | shutting
  | done (outcome : Outcome UInt32)

namespace Relay

def size : Nat := 7

def refused : UInt32 := 99

def need : RelayCall → Need UInt32
  | .making => .make
  | .done outcome => .done outcome
  | _ => .turn

def giveBack (id : UInt32) : Outcome UInt32 :=
  if id = refused then .failed .cancelled else .released

def advance (call : RelayCall) (relay : Relay) : Advanced Relay RelayCall :=
  match call with
  | .returning id => { pool := relay, events := [.released id], call := .done (giveBack id) }
  | .shutting => { pool := relay, events := [.closedPool], call := .done .closed }
  | call => { pool := relay, call }

def outcomeOf : Made UInt32 → Outcome UInt32
  | .ok id => .acquired id
  | .failed source => .failed (.creation source)

instance : Managed Relay RelayCall where
  acquire := .making
  acquireWithin timeout _ := if timeout.isZero then .done (.failed (.timeout timeout)) else .making
  tryAcquire? := none
  release id _ := .returning id
  collect? := none
  timedOut? := none
  close := .shutting
  need := need
  advance call _ relay := advance call relay
  made _ answer := .done (outcomeOf answer)
  checked call _ relay := (relay, call)
  disposed call := call
  woken call := call
  retired call := call
  alarm? _ _ := none
  view _ := .ok { size := size, available := 0, closed := false }
  isObservable := false
  collects := false
  size _ := size
  capacity _ := []
  describe _ := ""
  snapshot _ := Snapshot.take {} size 0 0

end Relay

end Pooling.Scenario
