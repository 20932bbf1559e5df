import Pooling.Time.Duration

/-!
Clock readings in milliseconds, and the two sources of time: the system's own clock and a clock
moved by hand whose sleeper moves it.
-/

namespace Pooling

/-- Milliseconds since the origin of a clock. -/
abbrev Reading := UInt64

namespace Reading

def after (start : Reading) (millis : UInt64) : Reading :=
  UInt64.ofNatClamp (start.toNat + millis.toNat)

/-- The milliseconds from an earlier reading to this one, none if it is later. -/
def since (now earlier : Reading) : UInt64 := if earlier ≤ now then now - earlier else 0

@[simp] theorem toNat_after (start : Reading) (millis : UInt64) :
    (start.after millis).toNat = min (start.toNat + millis.toNat) (UInt64.size - 1) :=
  Word.toNat_clamp _

@[simp] theorem toNat_since (now earlier : Reading) :
    (now.since earlier).toNat = now.toNat - earlier.toNat := by
  unfold since
  split
  next h => exact UInt64.toNat_sub_of_le _ _ h
  next h =>
    rw [UInt64.le_iff_toNat_le] at h
    simp
    omega

theorem since_le_since {first second : Reading} (hle : first ≤ second) (now : Reading) :
    now.since second ≤ now.since first := by
  rw [UInt64.le_iff_toNat_le] at hle ⊢
  rw [toNat_since, toNat_since]
  omega

end Reading

inductive ClockSource where
  | system
  | hand
  deriving DecidableEq

/-- How a caller is put to sleep: for real, or by moving the hand clock and noting the request. -/
inductive Sleeper where
  | thread
  | recording
  deriving DecidableEq

structure TimeContext where
  clock : ClockSource
  sleeper : Sleeper
  deriving DecidableEq

namespace TimeContext

def system : TimeContext := ⟨.system, .thread⟩

def hand : TimeContext := ⟨.hand, .recording⟩

end TimeContext

/-- The time a program lives in: the reading of its hand clock, the sleeps its recording sleeper
was asked for (oldest first), and the nanoseconds of real time gone by. -/
structure Timeline where
  hand : Reading := 0
  slept : List Duration := []
  elapsed : Nat := 0

namespace Timeline

def systemReading (time : Timeline) : Reading :=
  UInt64.ofNatClamp (time.elapsed / 1000000)

def read (time : Timeline) : ClockSource → Reading
  | .system => time.systemReading
  | .hand => time.hand

def advance (time : Timeline) (millis : UInt64) : Timeline :=
  { time with hand := time.hand.after millis }

def set (time : Timeline) (reading : Reading) : Timeline := { time with hand := reading }

def pass (time : Timeline) (nanos : Nat) : Timeline := { time with elapsed := time.elapsed + nanos }

def clearSlept (time : Timeline) : Timeline := { time with slept := [] }

def sleep (time : Timeline) (span : Duration) : Sleeper → Timeline
  | .thread => time.pass span.nanos
  | .recording => { time.advance span.millis with slept := time.slept ++ [span] }

@[simp] theorem hand_sleep_recording (time : Timeline) (span : Duration) :
    (time.sleep span .recording).hand = time.hand.after span.millis := rfl

@[simp] theorem slept_sleep_recording (time : Timeline) (span : Duration) :
    (time.sleep span .recording).slept = time.slept ++ [span] := rfl

@[simp] theorem hand_sleep_thread (time : Timeline) (span : Duration) :
    (time.sleep span .thread).hand = time.hand := rfl

end Timeline

end Pooling
