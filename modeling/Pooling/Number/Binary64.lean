import Pooling.Number.Rounding

/-!
Double-precision numbers as words of 64 bits: the double nearest to a quotient, products and
quotients with whole numbers, and the exact decimal value of a double.
-/

namespace Pooling

structure Binary64 where
  bits : UInt64
  deriving DecidableEq

namespace Binary64

def infinityMagnitude : Nat := 2047 <<< 52

def ofParts (negative : Bool) (magnitude : Nat) : Binary64 :=
  ⟨UInt64.ofNat (magnitude + if negative then 1 <<< 63 else 0)⟩

def zero : Binary64 := ofParts false 0

instance : Inhabited Binary64 := ⟨zero⟩

def negative (value : Binary64) : Bool := 1 <<< 63 ≤ value.bits.toNat

def magnitude (value : Binary64) : Nat := value.bits.toNat % (1 <<< 63)

def isInfinite (value : Binary64) : Bool := value.magnitude = infinityMagnitude

def isNaN (value : Binary64) : Bool := infinityMagnitude < value.magnitude

/-- The exponent of the greatest power of two at most `num / den`. -/
def scaleOf (num den : Nat) : Int :=
  let guess : Int := (num.log2 : Int) - den.log2
  let reaches :=
    if 0 ≤ guess then den <<< guess.toNat ≤ num else den ≤ num <<< (-guess).toNat
  if reaches then guess else guess - 1

/-- The bits of the double nearest to `num / den`, halfway cases to even, without its sign. -/
def magnitudeOfRatio (num den : Nat) : Nat :=
  if num = 0 then 0
  else
    let unit : Int := max (scaleOf num den - 52) (-1074)
    let units :=
      if 0 ≤ unit then Rounding.halfEven num (den <<< unit.toNat)
      else Rounding.halfEven (num <<< (-unit).toNat) den
    min ((unit + 1074).toNat <<< 52 + units) infinityMagnitude

def ofRatio (negative : Bool) (num den : Nat) : Binary64 :=
  ofParts negative (magnitudeOfRatio num den)

/-- The absolute value of a finite double as an exact quotient. -/
def ratio (value : Binary64) : Nat × Nat :=
  let exponent : Nat := value.magnitude >>> 52
  let fraction : Nat := value.magnitude % (1 <<< 52)
  let significand := if exponent = 0 then fraction else 1 <<< 52 + fraction
  let power : Int := if exponent = 0 then -1074 else (exponent : Int) - 1075
  if 0 ≤ power then (significand <<< power.toNat, 1) else (significand, 1 <<< (-power).toNat)

def isZero (value : Binary64) : Bool := value.magnitude = 0

/-- The double nearest to a finite double times a whole number. -/
def multiply (value : Binary64) (factor : Nat) : Binary64 :=
  ofRatio value.negative (value.ratio.1 * factor) value.ratio.2

/-- The double nearest to a finite double over a whole number. -/
def divide (value : Binary64) (divisor : Nat) : Binary64 :=
  ofRatio value.negative value.ratio.1 (value.ratio.2 * divisor)

/-- The absolute value of a finite double as digits and the number of places among them. -/
def decimal (value : Binary64) : Nat × Nat :=
  let (num, den) := value.ratio
  let shared := Nat.gcd num den
  let places := (den / shared).log2
  (num / shared * Nat.pow 5 places, places)

/-- The quotient of two counts, each first rounded to a double. -/
def quotient (num den : Nat) : Binary64 :=
  ofRatio false (Rounding.significant num) (Rounding.significant den)

/-- Writes the exact value with two places, halfway cases to even; the sign of zero is kept. -/
def twoPlaces (value : Binary64) : String :=
  if value.isNaN then "NaN"
  else
    let sign := if value.negative then "-" else ""
    if value.isInfinite then sign ++ "inf"
    else
      let hundredths := Rounding.halfEven (value.ratio.1 * 100) value.ratio.2
      let places := (Nat.toDigits 10 (100 + hundredths % 100)).drop 1
      sign ++ toString (hundredths / 100) ++ "." ++ String.ofList places

end Binary64

end Pooling
