import Pooling.Stored.Numeral

/-!
Reading a document from its text: braces, brackets, quoted texts, numbers and the three words.
-/

namespace Pooling.DocumentText

def isBlank (char : Char) : Bool :=
  char = ' ' || char = '\n' || char = '\t' || char = '\r'

def skipBlanks (text : List Char) : List Char := text.dropWhile isBlank

def takeWord : List Char → List Char → Option (List Char)
  | [], text => some text
  | char :: word, next :: text => if char = next then takeWord word text else none
  | _ :: _, [] => none

def hexValue? (char : Char) : Option Nat :=
  if char.isDigit then some (digitValue char)
  else if 'a' ≤ char ∧ char ≤ 'f' then some (char.toNat - 'a'.toNat + 10)
  else if 'A' ≤ char ∧ char ≤ 'F' then some (char.toNat - 'A'.toNat + 10)
  else none

def hexUnit? : Reader Nat
  | first :: second :: third :: fourth :: rest => do
      let first ← hexValue? first
      let second ← hexValue? second
      let third ← hexValue? third
      let fourth ← hexValue? fourth
      some (((first * 16 + second) * 16 + third) * 16 + fourth, rest)
  | _ => none

def isHighSurrogate (code : Nat) : Bool := 0xd800 ≤ code && code < 0xdc00

def isLowSurrogate (code : Nat) : Bool := 0xdc00 ≤ code && code < 0xe000

/-- The character after `\u`: one unit, or two that together stand for a high one. -/
def escapedUnit? : Reader Char := fun text => do
  let (unit, rest) ← hexUnit? text
  if isHighSurrogate unit then
    let rest ← takeWord ['\\', 'u'] rest
    let (low, rest) ← hexUnit? rest
    if isLowSurrogate low then
      some (Char.ofNat (0x10000 + (unit - 0xd800) * 0x400 + (low - 0xdc00)), rest)
    else none
  else if isLowSurrogate unit then none
  else some (Char.ofNat unit, rest)

def escaped? : Reader Char
  | '"' :: rest => some ('"', rest)
  | '\\' :: rest => some ('\\', rest)
  | '/' :: rest => some ('/', rest)
  | 'b' :: rest => some ('\x08', rest)
  | 'f' :: rest => some ('\x0c', rest)
  | 'n' :: rest => some ('\n', rest)
  | 'r' :: rest => some ('\r', rest)
  | 't' :: rest => some ('\t', rest)
  | 'u' :: rest => escapedUnit? rest
  | _ => none

def quotedRest? : Nat → List Char → Reader (List Char)
  | 0, _, _ => none
  | _ + 1, taken, '"' :: rest => some (taken.reverse, rest)
  | fuel + 1, taken, '\\' :: rest => do
      let (char, rest) ← escaped? rest
      quotedRest? fuel (char :: taken) rest
  | fuel + 1, taken, char :: rest =>
      if char.toNat < 0x20 then none else quotedRest? fuel (char :: taken) rest
  | _ + 1, _, [] => none

mutual

def value? : Nat → Reader Document
  | 0, _ => none
  | fuel + 1, text =>
      match skipBlanks text with
      | 'n' :: rest => (takeWord ['u', 'l', 'l'] rest).map fun rest => (.null, rest)
      | 't' :: rest => (takeWord ['r', 'u', 'e'] rest).map fun rest => (.bool true, rest)
      | 'f' :: rest => (takeWord ['a', 'l', 's', 'e'] rest).map fun rest => (.bool false, rest)
      | '"' :: rest =>
          (quotedRest? (rest.length + 1) [] rest).map fun pair =>
            (.text (String.ofList pair.1), pair.2)
      | '-' :: rest => number? true rest
      | '[' :: rest =>
          match skipBlanks rest with
          | ']' :: rest => some (.list [], rest)
          | rest => items? fuel [] rest
      | '\x7b' :: rest =>
          match skipBlanks rest with
          | '\x7d' :: rest => some (.table [], rest)
          | rest => entries? fuel [] rest
      | rest => number? false rest

def items? : Nat → List Document → Reader Document
  | 0, _, _ => none
  | fuel + 1, taken, text => do
      let (item, rest) ← value? fuel text
      match skipBlanks rest with
      | ',' :: rest => items? fuel (item :: taken) rest
      | ']' :: rest => some (.list (item :: taken).reverse, rest)
      | _ => none

def entries? : Nat → List (String × Document) → Reader Document
  | 0, _, _ => none
  | fuel + 1, taken, text =>
      match skipBlanks text with
      | '"' :: rest => do
          let (name, rest) ← quotedRest? (rest.length + 1) [] rest
          match skipBlanks rest with
          | ':' :: rest => do
              let (value, rest) ← value? fuel rest
              let taken := (String.ofList name, value) :: taken
              match skipBlanks rest with
              | ',' :: rest => entries? fuel taken rest
              | '\x7d' :: rest => some (.table taken.reverse, rest)
              | _ => none
          | _ => none
      | _ => none

end

def parse? (text : String) : Option Document :=
  match value? (text.length + 1) text.toList with
  | some (document, rest) => if (skipBlanks rest).isEmpty then some document else none
  | none => none

end Pooling.DocumentText
