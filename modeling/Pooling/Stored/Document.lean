import Pooling.Number.Binary64

/-!
Documents: the values that options and snapshots are stored as.
-/

namespace Pooling

/-- A whole number has 64 bits, with or without a sign; any other number is a double. -/
inductive Document where
  | null
  | bool (value : Bool)
  | whole (value : Nat)
  | negative (magnitude : Nat)
  | real (value : Binary64)
  | text (value : String)
  | list (items : List Document)
  | table (entries : List (String × Document))

namespace Document

instance : Inhabited Document := ⟨null⟩

def ofInt : Int → Document
  | .ofNat value => whole value
  | .negSucc magnitude => negative (magnitude + 1)

def get? (document : Document) (name : String) : Option Document :=
  match document with
  | table entries => entries.reverse.lookup name
  | _ => none

def whole? : Document → Option Nat
  | whole value => some value
  | _ => none

def real? : Document → Option Binary64
  | whole value => some (Binary64.ofRatio false value 1)
  | negative magnitude => some (Binary64.ofRatio true magnitude 1)
  | real value => some value
  | _ => none

def text? : Document → Option String
  | text value => some value
  | _ => none

def bool? : Document → Option Bool
  | bool value => some value
  | _ => none

def list? : Document → Option (List Document)
  | list items => some items
  | _ => none

def entries? : Document → Option (List (String × Document))
  | table entries => some entries
  | _ => none

end Document

end Pooling
