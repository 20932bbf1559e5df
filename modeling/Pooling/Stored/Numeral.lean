import Pooling.Stored.Document

/-!
Reading a number from its text. The significand keeps as many leading digits as fit a word; it is
rounded to a double, and so is every power of ten that it is multiplied with or divided by.
-/

namespace Pooling.DocumentText

/-- A reader takes a value off the front of a text. -/
abbrev Reader (α : Type) := List Char → Option (α × List Char)

def digitValue (char : Char) : Nat := char.toNat - '0'.toNat

def numberOf (digits : List Char) : Nat :=
  digits.foldl (fun value digit => 10 * value + digitValue digit) 0

/-- Digits of a number's whole part: no idle zeros in front. -/
def wholePart? : Reader (List Char)
  | '0' :: rest => some (['0'], rest)
  | text =>
      let digits := text.takeWhile Char.isDigit
      if digits.isEmpty then none else some (digits, text.dropWhile Char.isDigit)

def fractionPart? : Reader (Option (List Char))
  | '.' :: rest =>
      let digits := rest.takeWhile Char.isDigit
      if digits.isEmpty then none else some (some digits, rest.dropWhile Char.isDigit)
  | text => some (none, text)

def exponentDigits? (negative : Bool) : Reader Int := fun text =>
  let digits := text.takeWhile Char.isDigit
  if digits.isEmpty then none
  else
    let value : Int := numberOf digits
    some (if negative then -value else value, text.dropWhile Char.isDigit)

def exponentSign? : Reader Int
  | '-' :: rest => exponentDigits? true rest
  | '+' :: rest => exponentDigits? false rest
  | rest => exponentDigits? false rest

def exponentPart? : Reader (Option Int)
  | 'e' :: rest => (exponentSign? rest).map fun pair => (some pair.1, pair.2)
  | 'E' :: rest => (exponentSign? rest).map fun pair => (some pair.1, pair.2)
  | text => some (none, text)

/-- Adds digits to a significand while it fits a word; the digits left over come second. -/
def fitDigits (significand : Nat) : List Char → Nat × List Char
  | [] => (significand, [])
  | digit :: rest =>
      let next := 10 * significand + digitValue digit
      if next < UInt64.size then fitDigits next rest else (significand, digit :: rest)

/-- The greatest exponent of a power of ten that a double comes near to. -/
def maxPower : Nat := 308

def powerOfTen (exponent : Nat) : Nat := Rounding.significant (Nat.pow 10 exponent)

/-- A double over a power of ten, in steps that a double comes near to. -/
def shrink (value : Binary64) (exponent : Nat) : Binary64 :=
  if exponent ≤ maxPower then value.divide (powerOfTen exponent)
  else if value.isZero then value
  else shrink (value.divide (powerOfTen maxPower)) (exponent - maxPower)
termination_by exponent
decreasing_by simp only [maxPower] at *; omega

/-- A double times a power of ten, unless that is beyond every double. -/
def grow? (value : Binary64) (exponent : Nat) : Option Binary64 :=
  if value.isZero then some value
  else if exponent ≤ maxPower then
    let grown := value.multiply (powerOfTen exponent)
    if grown.isInfinite then none else some grown
  else none

def scale? (value : Binary64) (exponent : Int) : Option Binary64 :=
  if 0 ≤ exponent then grow? value exponent.toNat else some (shrink value (-exponent).toNat)

def real? (negative : Bool) (whole fraction : List Char) (exponent : Int) : Option Binary64 :=
  let (significand, dropped) := fitDigits 0 whole
  let (significand, idle) := fitDigits significand fraction
  let shift : Int := dropped.length + idle.length - fraction.length
  scale? (Binary64.ofRatio negative significand 1) (exponent + shift)

/-- The number of a whole part alone, if it is one of 64 bits. -/
def whole? (negative : Bool) (value : Nat) : Option Document :=
  if negative then if 0 < value ∧ value ≤ 1 <<< 63 then some (.negative value) else none
  else if value < UInt64.size then some (.whole value) else none

def number? (negative : Bool) : Reader Document := fun text => do
  let (whole, rest) ← wholePart? text
  let (fraction?, rest) ← fractionPart? rest
  let (exponent?, rest) ← exponentPart? rest
  match fraction?, exponent?, whole? negative (numberOf whole) with
  | none, none, some document => some (document, rest)
  | _, _, _ =>
      let value ← real? negative whole (fraction?.getD []) (exponent?.getD 0)
      some (.real value, rest)

end Pooling.DocumentText
