import Pooling.Stored.Document
import Pooling.Text.Describe

/-!
Writing a document as text.
-/

namespace Pooling.DocumentText

def hexUnit (code : Nat) : String :=
  String.ofList ((Nat.toDigits 16 (0x10000 + code)).drop 1)

def escape (char : Char) : String :=
  if char = '"' then "\\\""
  else if char = '\\' then "\\\\"
  else if char = '\n' then "\\n"
  else if char = '\t' then "\\t"
  else if char = '\r' then "\\r"
  else if char.toNat < 0x20 then "\\u" ++ hexUnit char.toNat
  else String.singleton char

def quote (text : String) : String := "\"" ++ String.join (text.toList.map escape) ++ "\""

def real (value : Binary64) : String :=
  let (digits, places) := value.decimal
  (if value.negative then "-" else "") ++ toString digits ++ "e-" ++ toString places

mutual

def write : Document → String
  | .null => "null"
  | .bool value => if value then "true" else "false"
  | .whole value => toString value
  | .negative magnitude => "-" ++ toString magnitude
  | .real value => real value
  | .text value => quote value
  | .list items => "[" ++ ",".intercalate (writeItems items) ++ "]"
  | .table entries => "\x7b" ++ ",".intercalate (writeEntries entries) ++ "\x7d"

def writeItems : List Document → List String
  | [] => []
  | item :: items => write item :: writeItems items

def writeEntries : List (String × Document) → List String
  | [] => []
  | (name, value) :: entries => (quote name ++ ":" ++ write value) :: writeEntries entries

end

end Pooling.DocumentText
