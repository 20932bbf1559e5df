import Pooling.Options

/-!
The room that a lock pool asks for before it has a key. Its table comes in parts, as many as a
power of two, which share the capacity evenly; each part keeps an eighth of its places free.
-/

namespace Pooling.LockPool

def maxObjectSize : Nat := UInt64.size / 2 - 1

def partSize : Nat := 128

/-- The bytes that an entry takes in a part, without the byte that marks its place. -/
def entrySize : Nat := 32

/-- Places are marked, and their entries laid out, in groups of this many bytes. -/
def groupSize : Nat := 16

/-- As many parts as callers at work at once, rounded up to a power of two, but not only one. -/
def partCount (concurrency : Nat) : Nat := max 2 concurrency.nextPowerOfTwo

def share (capacity parts : Nat) : Nat := (capacity + (parts - 1)) / parts

def placeCount (entries : Nat) : Nat := (entries * 8 / 7).nextPowerOfTwo

/-- Whether the places of a part can be counted and addressed. -/
def isRoomFor (entries : Nat) : Bool :=
  let places := placeCount entries
  entries * 8 < UInt64.size &&
    places * entrySize + places + groupSize ≤ maxObjectSize - (groupSize - 1)

def reserve (options : LockPoolOptions) : Except Abort Unit :=
  let parts := partCount options.concurrencyLevel
  if UInt64.size ≤ parts then .error .countOverflow
  else if options.initialCapacity ≠ 0 && UInt64.size ≤ options.initialCapacity + (parts - 1) then
    .error .countOverflow
  else if maxObjectSize < parts * partSize then .error .capacityOverflow
  else if !isRoomFor (share options.initialCapacity parts) then .error .tableOverflow
  else .ok ()

end Pooling.LockPool
