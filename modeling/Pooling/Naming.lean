import Pooling.Error
import Pooling.Text.Describe

/-!
Names for background threads: every place for a number in a format gets the next number.
-/

namespace Pooling

structure ThreadNames where
  format : String
  counter : UInt64 := 0
  deriving DecidableEq

namespace ThreadNames

def place : List Char := ['%', 'd']

def fill (digits : List Char) : List Char → List Char
  | '%' :: 'd' :: rest => digits ++ fill digits rest
  | char :: rest => char :: fill digits rest
  | [] => []

def hasPlace : List Char → Bool
  | '%' :: 'd' :: _ => true
  | _ :: rest => hasPlace rest
  | [] => false

/-- A format without a place is a name as it stands, and takes no number. -/
def next (names : ThreadNames) : String × ThreadNames :=
  if hasPlace names.format.toList then
    (String.ofList (fill (toString names.counter.toNat).toList names.format.toList),
      { names with counter := names.counter + 1 })
  else (names.format, names)

/-- A thread takes the next name, unless it cannot bear it; its number is used up all the same. -/
def spawn (names : ThreadNames) : Except Abort String × ThreadNames :=
  let (name, names) := names.next
  (if name.toList.contains '\x00' then .error (.unusableName name) else .ok name, names)

def describe (names : ThreadNames) : String :=
  Describe.record "ThreadFactory"
    [("name_format", Describe.quoted names.format), ("counter", toString names.counter.toNat)]

end ThreadNames

end Pooling
