import Mathlib.Algebra.Ring.Nat
import Pooling.Retry.Backoff

/-!
The random pauses of an exponential schedule: whatever factors are drawn, a later attempt waits no
less than an earlier one, up to the greatest exponent, and none waits longer than the cap.
-/

namespace Pooling.Backoff

/-- The bounds that a factor is drawn between, the upper one excluded, shifted as words are. -/
def bounds (attempts : UInt32) : UInt64 × UInt64 :=
  let low : UInt64 := 1 <<< UInt64.ofNat (exponent attempts)
  (low, low <<< 1)

def InBand (attempts : UInt32) (factor : Nat) : Prop :=
  (bounds attempts).1.toNat ≤ factor ∧ factor < (bounds attempts).2.toNat

theorem exponent_le (attempts : UInt32) : exponent attempts ≤ 30 := Nat.min_le_right _ _

theorem exponent_of_le {attempts : UInt32} (hle : attempts ≤ 30) :
    exponent attempts = attempts.toNat :=
  Nat.min_eq_left (UInt32.le_iff_toNat_le.mp hle)

theorem exponent_of_ge {attempts : UInt32} (hge : 30 ≤ attempts) : exponent attempts = 30 :=
  Nat.min_eq_right (UInt32.le_iff_toNat_le.mp hge)

theorem toNat_low (attempts : UInt32) : (bounds attempts).1.toNat = 2 ^ exponent attempts := by
  have hlt : exponent attempts < 64 := Nat.lt_of_le_of_lt (exponent_le attempts) (by decide)
  have hword : (UInt64.ofNat (exponent attempts)).toNat = exponent attempts :=
    UInt64.toNat_ofNat_of_lt' (Nat.lt_trans hlt (by decide))
  rw [bounds, UInt64.toNat_shiftLeft, hword, Nat.mod_eq_of_lt hlt, UInt64.toNat_one,
    Nat.one_shiftLeft]
  exact Nat.mod_eq_of_lt (Nat.pow_lt_pow_right (by decide) hlt)

theorem toNat_high (attempts : UInt32) :
    (bounds attempts).2.toNat = 2 ^ (exponent attempts + 1) := by
  have hlow := toNat_low attempts
  have hlt : exponent attempts + 1 < 64 :=
    Nat.lt_of_le_of_lt (Nat.succ_le_succ (exponent_le attempts)) (by decide)
  show ((bounds attempts).1 <<< 1).toNat = _
  rw [UInt64.toNat_shiftLeft, hlow, UInt64.toNat_one, Nat.shiftLeft_eq, ← Nat.pow_add]
  exact Nat.mod_eq_of_lt (Nat.pow_lt_pow_right (by decide) hlt)

/-- No shift loses a bit, so that the bounds are a power of two and its double. -/
theorem inBand_iff {attempts : UInt32} {factor : Nat} : InBand attempts factor ↔
    2 ^ exponent attempts ≤ factor ∧ factor < 2 ^ (exponent attempts + 1) := by
  rw [InBand, toNat_low, toNat_high]

theorem inBand_bandFactor (attempts : UInt32) (word : UInt64) :
    InBand attempts (bandFactor (exponent attempts) word) := by
  have hle := exponent_le attempts
  rw [inBand_iff, ← Nat.one_shiftLeft, ← Nat.one_shiftLeft]
  exact ⟨le_bandFactor _ word, bandFactor_lt (by omega) word⟩

/-- Bands of different exponents do not overlap. -/
theorem lt_of_inBand {early late : UInt32} {low high : Nat}
    (hlt : exponent early < exponent late) (hlow : InBand early low) (hhigh : InBand late high) :
    low < high := by
  have hpow : 2 ^ (exponent early + 1) ≤ 2 ^ exponent late := Nat.pow_le_pow_right (by decide) hlt
  exact Nat.lt_of_lt_of_le (inBand_iff.mp hlow).2 (Nat.le_trans hpow (inBand_iff.mp hhigh).1)

section

variable (base cap : Duration)

theorem nanos_scaled (factor : Nat) : (scaled base cap factor).nanos =
    min (min (min (base.nanos / 1000000) (2 ^ 64 - 1) * factor) (2 ^ 64 - 1) * 1000000)
      cap.nanos := by
  have hsize : UInt64.size = 2 ^ 64 := rfl
  rw [scaled, Duration.nanos_min, Duration.nanos_ofMillis, Word.toNat_clamp, Duration.toNat_millis,
    hsize]

theorem scaled_le (factor : Nat) : scaled base cap factor ≤ cap := by
  rw [Duration.le_iff, nanos_scaled]
  exact Nat.min_le_right _ _

theorem scaled_mono {low high : Nat} (hle : low ≤ high) :
    scaled base cap low ≤ scaled base cap high := by
  have hproduct : min (base.nanos / 1000000) (2 ^ 64 - 1) * low ≤
      min (base.nanos / 1000000) (2 ^ 64 - 1) * high := Nat.mul_le_mul_left _ hle
  rw [Duration.le_iff, nanos_scaled, nanos_scaled]
  omega

/-- A random pause is the base in whole milliseconds times a factor, below the longest count of
milliseconds and the cap; the factor is drawn from a power of two up to its double, and never from
nothing. Up to the greatest exponent, the pause after more attempts is no shorter, whichever factors
are drawn; from there on all attempts draw from one band. -/
theorem banded_of_draws :
    (∀ attempts words, ∃ factor, InBand attempts factor ∧
      pause attempts (.exponential base cap words) =
        (scaled base cap factor, .exponential base cap words.next.2)) ∧
    (∀ attempts factor, InBand attempts factor ↔
      2 ^ min attempts.toNat 30 ≤ factor ∧ factor < 2 ^ (min attempts.toNat 30 + 1)) ∧
    (∀ factor, scaled base cap factor ≤ cap ∧ (scaled base cap factor).nanos =
      min (min (min (base.nanos / 1000000) (2 ^ 64 - 1) * factor) (2 ^ 64 - 1) * 1000000)
        cap.nanos) ∧
    (∀ early late, early < late → late ≤ 30 → ∀ low high, InBand early low → InBand late high →
      scaled base cap low ≤ scaled base cap high) ∧
    ∀ early late, 30 ≤ early → 30 ≤ late → ∀ factor,
      (InBand early factor ↔ InBand late factor) := by
  refine ⟨fun attempts words => ?_, fun attempts factor => inBand_iff, fun factor => ?_,
    fun early late hlt hlate low high hlow hhigh => ?_, fun early late hearly hlate factor => ?_⟩
  · exact ⟨_, inBand_bandFactor attempts words.next.1, rfl⟩
  · exact ⟨scaled_le base cap factor, nanos_scaled base cap factor⟩
  · have hearly : early ≤ 30 := UInt32.le_trans (UInt32.le_of_lt hlt) hlate
    apply scaled_mono
    apply Nat.le_of_lt
    apply lt_of_inBand _ hlow hhigh
    rw [exponent_of_le hearly, exponent_of_le hlate]
    exact UInt32.lt_iff_toNat_lt.mp hlt
  · rw [inBand_iff, inBand_iff, exponent_of_ge hearly, exponent_of_ge hlate]

end

/-- Half of its millisecond is lost, and its product with any factor above one is too many. -/
def hugeBase : Duration := .ofNanos (2 ^ 63 * 1000000 + 500000)

theorem banded_of_hugeBase :
    (2 : UInt32) < 3 ∧ (3 : UInt32) ≤ 30 ∧ InBand 2 7 ∧ InBand 3 8 ∧
      scaled (.ofMillis 10) (.ofMillis 75) 7 ≤ scaled (.ofMillis 10) (.ofMillis 75) 8 ∧
      (scaled (.ofMillis 10) (.ofMillis 75) 8).nanos = 75000000 ∧
      (InBand 30 (2 ^ 31 - 1) ↔ InBand 4294967295 (2 ^ 31 - 1)) ∧
      (∀ words, ∃ factor, InBand 0 factor ∧ pause 0 (.exponential hugeBase .longest words) =
        (scaled hugeBase .longest factor, .exponential hugeBase .longest words.next.2)) ∧
      (scaled hugeBase .longest 1).nanos = 2 ^ 63 * 1000000 ∧
      (scaled hugeBase .longest 3).nanos = (2 ^ 64 - 1) * 1000000 := by
  obtain ⟨-, hband, hscaled, hmono, hshared⟩ := banded_of_draws (.ofMillis 10) (.ofMillis 75)
  obtain ⟨hdrawn, -, hhuge, -⟩ := banded_of_draws hugeBase .longest
  have hseven : InBand 2 7 := (hband 2 7).mpr (by decide)
  have height : InBand 3 8 := (hband 3 8).mpr (by decide)
  exact ⟨by decide, by decide, hseven, height, hmono 2 3 (by decide) (by decide) 7 8 hseven height,
    (hscaled 8).2.trans (by decide), hshared 30 4294967295 (by decide) (by decide) _, hdrawn 0,
    (hhuge 1).2.trans (by decide), (hhuge 3).2.trans (by decide)⟩

end Pooling.Backoff
