import Pooling.Resource.Leak
import Pooling.Table

/-!
Scripts on a leak detector, with named registrations.
-/

namespace Pooling.Scenario

inductive LeakStep where
  | track (name : String)
  | drop (name : String)
  | forget (name : String)
  | report (name : String)
  | shutdown
  | describe
  | unknown

inductive LeakReply where
  | unfit
  | truth (value : Bool)
  | count (value : UInt64)
  | text (text : String)

structure LeakWorld where
  detector : LeakDetector
  trackers : Table String LeakTracker := {}

/-- The answer of a step, and what can be seen of the detector after it. -/
structure LeakAnswer where
  reply : LeakReply
  detector : LeakDetector

namespace LeakWorld

def drop (world : LeakWorld) (name : String) : LeakWorld where
  detector := world.detector.untrack? (world.trackers.get? name)
  trackers := world.trackers.erase name

/-- Registers under a name; a registration that had the name ends afterwards. -/
def track (world : LeakWorld) (name : String) : Bool × LeakWorld :=
  match world.detector.track with
  | (none, detector) => (false, { world with detector })
  | (some tracker, detector) =>
      (true,
        { detector := detector.untrack? (world.trackers.get? name)
          trackers := world.trackers.insert name tracker })

def perform (world : LeakWorld) : LeakStep → Verdict × LeakReply × LeakWorld
  | .track name =>
      let (given, world) := world.track name
      (.carryOn, .truth given, world)
  | .drop name => (.carryOn, .truth (world.trackers.contains name), world.drop name)
  | .forget name =>
      (.carryOn, .truth (world.trackers.contains name),
        { world with trackers := world.trackers.erase name })
  | .report name =>
      if world.trackers.contains name then
        let (verdict, detector) := world.detector.report
        (verdict, .truth true, { world with detector }.drop name)
      else (.carryOn, .truth false, world)
  | .shutdown =>
      let (verdict, count) := world.detector.checkShutdown
      (verdict, .count count, world)
  | .describe => (.carryOn, .text world.detector.describe, world)
  | .unknown => (.carryOn, .unfit, world)

/-- The answers of a script's steps, and whether the process ended in one. -/
def script : List LeakStep → LeakWorld → List LeakAnswer × Bool
  | [], _ => ([], false)
  | step :: rest, world =>
      match world.perform step with
      | (.exit, _, _) => ([], true)
      | (.carryOn, reply, world) =>
          let (answers, exited) := script rest world
          (⟨reply, world.detector⟩ :: answers, exited)

end LeakWorld

end Pooling.Scenario
