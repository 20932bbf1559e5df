import Pooling.Number.Word

/-!
Spans of time: whole nanoseconds up to a fixed greatest span, and their written form.
-/

namespace Pooling

/-- The nanoseconds of the longest span: one less than those of `2 ^ 64` seconds. -/
def Duration.maxNanos : Nat := UInt64.size * 1000000000 - 1

structure Duration where
  nanos : Nat
  le_max : nanos ≤ Duration.maxNanos
  deriving DecidableEq

namespace Duration

theorem ext_nanos {first second : Duration} (h : first.nanos = second.nanos) : first = second := by
  cases first; cases second; cases h; rfl

instance : LE Duration := ⟨fun first second => first.nanos ≤ second.nanos⟩

instance : LT Duration := ⟨fun first second => first.nanos < second.nanos⟩

instance (first second : Duration) : Decidable (first ≤ second) :=
  inferInstanceAs (Decidable (first.nanos ≤ second.nanos))

instance (first second : Duration) : Decidable (first < second) :=
  inferInstanceAs (Decidable (first.nanos < second.nanos))

instance : Min Duration := minOfLe

instance : Max Duration := maxOfLe

def ofNanos (nanos : Nat) : Duration := ⟨min nanos maxNanos, Nat.min_le_right _ _⟩

def zero : Duration := ⟨0, Nat.zero_le _⟩

def longest : Duration := ⟨maxNanos, Nat.le_refl _⟩

instance : Inhabited Duration := ⟨zero⟩

def ofMillis (millis : UInt64) : Duration :=
  ⟨millis.toNat * 1000000, by
    have := millis.toNat_lt
    unfold maxNanos UInt64.size
    omega⟩

def ofSeconds (seconds : UInt64) : Duration :=
  ⟨seconds.toNat * 1000000000, by
    have := seconds.toNat_lt
    unfold maxNanos UInt64.size
    omega⟩

def seconds (span : Duration) : Nat := span.nanos / 1000000000

def subsecondNanos (span : Duration) : Nat := span.nanos % 1000000000

def millis (span : Duration) : UInt64 := UInt64.ofNatClamp (span.nanos / 1000000)

def isZero (span : Duration) : Bool := span.nanos = 0

def doubled (span : Duration) : Duration := ofNanos (2 * span.nanos)

/-- The sum of two spans, unless it is longer than the longest. -/
def add? (first second : Duration) : Option Duration :=
  if h : first.nanos + second.nanos ≤ maxNanos then some ⟨first.nanos + second.nanos, h⟩ else none

theorem le_iff {first second : Duration} : first ≤ second ↔ first.nanos ≤ second.nanos := Iff.rfl

theorem lt_iff {first second : Duration} : first < second ↔ first.nanos < second.nanos := Iff.rfl

@[simp] theorem nanos_ofMillis (millis : UInt64) :
    (ofMillis millis).nanos = millis.toNat * 1000000 := rfl

@[simp] theorem nanos_ofNanos (nanos : Nat) : (ofNanos nanos).nanos = min nanos maxNanos := rfl

@[simp] theorem nanos_doubled (span : Duration) :
    span.doubled.nanos = min (2 * span.nanos) maxNanos := rfl

theorem nanos_min (first second : Duration) :
    (min first second).nanos = min first.nanos second.nanos := by
  show (if first ≤ second then first else second).nanos = _
  split
  next h => rw [le_iff] at h; omega
  next h => rw [le_iff] at h; omega

theorem nanos_max (first second : Duration) :
    (max first second).nanos = max first.nanos second.nanos := by
  show (if first ≤ second then second else first).nanos = _
  split
  next h => rw [le_iff] at h; omega
  next h => rw [le_iff] at h; omega

theorem toNat_millis (span : Duration) :
    span.millis.toNat = min (span.nanos / 1000000) (UInt64.size - 1) :=
  Word.toNat_clamp _

/-! The written form takes the largest unit that leaves a whole part and drops idle zeros. -/

/-- The digits after the point of `part / unit`, for a power of ten, without trailing zeros. -/
def fractionDigits (part unit : Nat) : List Char :=
  (((Nat.toDigits 10 (unit + part)).drop 1).reverse.dropWhile (· = '0')).reverse

def writeIn (nanos unit : Nat) (suffix : String) : String :=
  let digits := fractionDigits (nanos % unit) unit
  let fraction := if digits.isEmpty then "" else "." ++ String.ofList digits
  toString (nanos / unit) ++ fraction ++ suffix

def text (span : Duration) : String :=
  if 1000000000 ≤ span.nanos then writeIn span.nanos 1000000000 "s"
  else if 1000000 ≤ span.nanos then writeIn span.nanos 1000000 "ms"
  else if 1000 ≤ span.nanos then writeIn span.nanos 1000 "µs"
  else toString span.nanos ++ "ns"

end Duration

end Pooling
