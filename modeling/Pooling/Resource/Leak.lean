import Pooling.Text.Describe

/-!
Leak detection for handles: a count of the handles alive, and of those that outlived their pool.
-/

namespace Pooling

structure LeakDetector where
  resourceType : String
  enabled : Bool := true
  exitOnLeak : Bool := false
  outstanding : UInt64 := 0
  leaked : UInt64 := 0
  deriving DecidableEq

structure LeakTracker where
  deriving DecidableEq

/-- What a report or a shutdown check means for the process. -/
inductive Verdict where
  | carryOn
  | exit
  deriving DecidableEq

namespace LeakDetector

def track (detector : LeakDetector) : Option LeakTracker × LeakDetector :=
  if detector.enabled then
    (some {}, { detector with outstanding := detector.outstanding + 1 })
  else (none, detector)

def untrack (detector : LeakDetector) : LeakDetector :=
  { detector with outstanding := detector.outstanding - 1 }

def untrack? (detector : LeakDetector) : Option LeakTracker → LeakDetector
  | some _ => detector.untrack
  | none => detector

def failFast (detector : LeakDetector) : Verdict :=
  if detector.exitOnLeak then .exit else .carryOn

def report (detector : LeakDetector) : Verdict × LeakDetector :=
  let detector := { detector with leaked := detector.leaked + 1 }
  (detector.failFast, detector)

def checkShutdown (detector : LeakDetector) : Verdict × UInt64 :=
  if 0 < detector.outstanding then (detector.failFast, detector.outstanding)
  else (.carryOn, detector.outstanding)

def describe (detector : LeakDetector) : String :=
  Describe.record "LeakDetector"
    [("resource_type", Describe.quoted detector.resourceType),
      ("enabled", Describe.bool detector.enabled),
      ("exit_on_leak", Describe.bool detector.exitOnLeak),
      ("outstanding", toString detector.outstanding.toNat),
      ("leaked", toString detector.leaked.toNat)]

end LeakDetector

end Pooling
