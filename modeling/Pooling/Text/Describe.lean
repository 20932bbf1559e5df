import Pooling.Text.Hidden

/-!
Descriptions of values for people: a record with named fields, a tuple, a quoted text, a choice
that may be absent.
-/

namespace Pooling.Describe

/-- The lower-case hexadecimal digits of a character's number. -/
def codePoint (char : Char) : String := String.ofList (Nat.toDigits 16 char.toNat)

def quotedChar (char : Char) : String :=
  if char = '"' then "\\\""
  else if char = '\\' then "\\\\"
  else if char = '\n' then "\\n"
  else if char = '\t' then "\\t"
  else if char = '\r' then "\\r"
  else if char = '\x00' then "\\0"
  else if isHidden char then "\\u\x7b" ++ codePoint char ++ "\x7d"
  else String.singleton char

def quoted (text : String) : String :=
  "\"" ++ String.join (text.toList.map quotedChar) ++ "\""

def field (name value : String) : String := name ++ ": " ++ value

def record (name : String) (fields : List (String × String)) : String :=
  name ++ " \x7b " ++ ", ".intercalate (fields.map fun pair => field pair.1 pair.2) ++ " \x7d"

def tuple (name : String) (value : String) : String := name ++ "(" ++ value ++ ")"

def optional : Option String → String
  | none => "None"
  | some value => tuple "Some" value

def bool (value : Bool) : String := if value then "true" else "false"

end Pooling.Describe
