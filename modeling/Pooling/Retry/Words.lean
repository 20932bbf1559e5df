import Pooling.Number.Rounding

/-!
Random words, and what is drawn from them: a factor between a power of two and its double, and up
to a tenth of a span.
-/

namespace Pooling

/-- A source of random words that starts over at the end of its list. -/
structure Words where
  list : List UInt64 := []
  used : Nat := 0

namespace Words

def next (words : Words) : UInt64 × Words :=
  ((words.list[words.used % words.list.length]?).getD 0, { words with used := words.used + 1 })

@[simp] theorem used_next (words : Words) : words.next.2.used = words.used + 1 := rfl

@[simp] theorem list_next (words : Words) : words.next.2.list = words.list := rfl

end Words

/-- A factor in `[2 ^ exponent, 2 ^ (exponent + 1))`: the first bits of the word choose it. -/
def bandFactor (exponent : Nat) (word : UInt64) : Nat :=
  1 <<< exponent + word.toNat >>> (64 - exponent)

theorem le_bandFactor (exponent : Nat) (word : UInt64) :
    1 <<< exponent ≤ bandFactor exponent word :=
  Nat.le_add_right ..

theorem bandFactor_lt {exponent : Nat} (hexponent : exponent ≤ 64) (word : UInt64) :
    bandFactor exponent word < 1 <<< (exponent + 1) := by
  have hword : word.toNat < 2 ^ exponent * 2 ^ (64 - exponent) := by
    rw [← Nat.pow_add]
    have : exponent + (64 - exponent) = 64 := by omega
    rw [this]
    exact word.toNat_lt
  have := (Nat.div_lt_iff_lt_mul (Nat.two_pow_pos (64 - exponent))).mpr hword
  rw [bandFactor, Nat.one_shiftLeft, Nat.one_shiftLeft, Nat.shiftRight_eq_div_pow, Nat.pow_succ]
  omega

/-! A tenth is the double nearest to it, `tenth / 2 ^ 55`; the first 52 bits of a word, over
`2 ^ 52`, times a tenth is the share, and the share of a span is rounded to whole milliseconds.
Each product is rounded to a double before the next. -/

def tenth : Nat := 3602879701896397

def jitterShare (word : UInt64) : Nat := Rounding.significant (word.toNat >>> 12 * tenth)

/-- Between nothing and a tenth of `millis`, to the nearest millisecond. -/
def jitter (millis word : UInt64) : UInt64 :=
  UInt64.ofNatClamp (Rounding.halfUp
    (Rounding.significant (jitterShare word * Rounding.significant millis.toNat)) (1 <<< 107))

end Pooling
