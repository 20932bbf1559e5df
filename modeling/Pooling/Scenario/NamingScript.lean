import Pooling.Naming

/-!
Scripts on names for threads. Sources of names that were copied from one another share their
numbers.
-/

namespace Pooling.Scenario

inductive NamingStep where
  | next
  | spawn
  | copy
  | describe
  | unknown

inductive NamingReply where
  | unfit
  | text (text : String)
  | place (place : Nat)
  | aborted (abort : Abort)

structure NamingWorld where
  names : ThreadNames
  /-- How many sources share the names. -/
  sources : Nat := 1

namespace NamingWorld

def spawn (world : NamingWorld) : NamingReply × NamingWorld :=
  match world.names.spawn with
  | (.ok name, names) => (.text name, { world with names })
  | (.error abort, names) => (.aborted abort, { world with names })

def perform (world : NamingWorld) : NamingStep → NamingReply × NamingWorld
  | .next => (.text world.names.next.1, { world with names := world.names.next.2 })
  | .spawn => world.spawn
  | .copy => (.place world.sources, { world with sources := world.sources + 1 })
  | .describe => (.text world.names.describe, world)
  | .unknown => (.unfit, world)

def script : List (Nat × NamingStep) → NamingWorld → List NamingReply
  | [], _ => []
  | (place, step) :: rest, world =>
      if place < world.sources then
        let (reply, world) := world.perform step
        reply :: script rest world
      else .aborted (.noSuchPlace world.sources place) :: script rest world

end NamingWorld

end Pooling.Scenario
