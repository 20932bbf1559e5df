import Mathlib.Tactic.Ring
import Pooling.Retry.Words
import Pooling.Time.Duration

/-!
How much jitter a span can get: a tenth of it to the nearest millisecond and no more, although the
share and both products are rounded to doubles on the way.
-/

namespace Pooling

namespace Rounding

theorem halfEven_mono {den : Nat} (hden : 0 < den) {first second : Nat} (hle : first ≤ second) :
    halfEven first den ≤ halfEven second den := by
  by_contra hreversed
  have hfirst : 2 * (halfEven first den * den) ≤ 2 * first + den := (halfEven_near hden).2
  have hsecond : 2 * second ≤ 2 * (halfEven second den * den) + den := (halfEven_near hden).1
  have hgap : (halfEven second den + 1) * den ≤ halfEven first den * den :=
    Nat.mul_le_mul_right den (Nat.lt_of_not_le hreversed)
  rw [Nat.add_mul] at hgap
  -- Only the half between two neighbours is as near to both, and it is rounded in one way.
  have hsame : first = second := by omega
  exact hreversed (Nat.le_of_eq (congrArg (halfEven · den) hsame))

theorem halfEven_mul {den : Nat} (hden : 0 < den) (count : Nat) :
    halfEven (count * den) den = count := by
  simp [halfEven, Nat.mul_mod_left, Nat.mul_div_cancel _ hden, hden]

/-- The distance between two neighbours of a number among those with 53 digits. -/
def unit (value : Nat) : Nat := 1 <<< (value.log2 - 52)

theorem unit_pos (value : Nat) : 0 < unit value := by
  rw [unit, Nat.one_shiftLeft]
  exact Nat.two_pow_pos _

theorem significant_eq (value : Nat) :
    significant value = halfEven value (unit value) * unit value := rfl

theorem two_pow_log2 {value : Nat} (hlarge : 52 ≤ value.log2) :
    2 ^ value.log2 = 2 ^ 52 * unit value := by
  rw [unit, Nat.one_shiftLeft, ← Nat.pow_add, Nat.add_sub_cancel' hlarge]

theorem two_pow_log2_le_significant {value : Nat} (hvalue : value ≠ 0) :
    2 ^ value.log2 ≤ significant value := by
  have hle := Nat.log2_self_le hvalue
  rcases Nat.le_total value.log2 52 with hsmall | hlarge
  · rwa [significant_of_log2_le hsmall]
  · rw [two_pow_log2 hlarge] at hle ⊢
    have hdigits := halfEven_mono (unit_pos value) hle
    rw [halfEven_mul (unit_pos value)] at hdigits
    exact Nat.mul_le_mul_right _ hdigits

theorem significant_le_two_pow (value : Nat) : significant value ≤ 2 ^ (value.log2 + 1) := by
  have hlt : value < 2 ^ (value.log2 + 1) := Nat.lt_log2_self
  rcases Nat.le_total value.log2 52 with hsmall | hlarge
  · rw [significant_of_log2_le hsmall]
    exact Nat.le_of_lt hlt
  · have hpow : 2 ^ (value.log2 + 1) = 2 ^ 53 * unit value := by
      rw [Nat.pow_succ, two_pow_log2 hlarge]
      omega
    rw [hpow] at hlt ⊢
    have hdigits := halfEven_mono (unit_pos value) (Nat.le_of_lt hlt)
    rw [halfEven_mul (unit_pos value)] at hdigits
    exact Nat.mul_le_mul_right _ hdigits

theorem significant_mono {first second : Nat} (hle : first ≤ second) :
    significant first ≤ significant second := by
  rcases Nat.eq_zero_or_pos first with rfl | hpos
  · exact Nat.zero_le _
  have hfirst := Nat.ne_of_gt hpos
  have hsecond := Nat.ne_of_gt (Nat.lt_of_lt_of_le hpos hle)
  have hlog : first.log2 ≤ second.log2 :=
    (Nat.le_log2 hsecond).mpr ((Nat.log2_self_le hfirst).trans hle)
  rcases Nat.eq_or_lt_of_le hlog with hsame | hlower
  · have hunit : unit first = unit second := by rw [unit, unit, hsame]
    rw [significant_eq, significant_eq, hunit]
    exact Nat.mul_le_mul_right _ (halfEven_mono (unit_pos second) hle)
  · calc
      significant first ≤ 2 ^ (first.log2 + 1) := significant_le_two_pow first
      _ ≤ 2 ^ second.log2 := Nat.pow_le_pow_right Nat.two_pos hlower
      _ ≤ significant second := two_pow_log2_le_significant hsecond

/-- Rounding adds no more than one part in `2 ^ 53`. -/
theorem significant_near (value : Nat) :
    2 ^ 53 * significant value ≤ (2 ^ 53 + 1) * value := by
  rcases Nat.le_total value.log2 52 with hsmall | hlarge
  · rw [significant_of_log2_le hsmall]
    omega
  · have hvalue : value ≠ 0 := by
      rintro rfl
      cases hlarge
    have hle := Nat.log2_self_le hvalue
    have hnear : 2 * significant value ≤ 2 * value + unit value :=
      (halfEven_near (unit_pos value)).2
    rw [two_pow_log2 hlarge] at hle
    omega

theorem halfUp_le_halfUp {num den num' den' : Nat} (hden : 0 < den) (hden' : 0 < den')
    (hle : num * den' ≤ num' * den) : halfUp num den ≤ halfUp num' den' := by
  rw [halfUp, halfUp, Nat.le_div_iff_mul_le (by omega)]
  have hdiv := Nat.div_mul_le_self (2 * num + den) (2 * den)
  generalize (2 * num + den) / (2 * den) = whole at hdiv ⊢
  apply Nat.le_of_mul_le_mul_right _ hden
  calc
    whole * (2 * den') * den = whole * (2 * den) * den' := by ac_rfl
    _ ≤ (2 * num + den) * den' := Nat.mul_le_mul_right den' hdiv
    _ = 2 * (num * den') + den' * den := by rw [Nat.add_mul, Nat.mul_assoc, Nat.mul_comm den]
    _ ≤ 2 * (num' * den) + den' * den := by omega
    _ = (2 * num' + den') * den := by rw [Nat.add_mul, Nat.mul_assoc]

end Rounding

open Rounding

/-- The greatest share is less than a tenth of `2 ^ 107`, by one part in `2 ^ 52`. -/
theorem jitterShare_le (word : UInt64) : jitterShare word ≤ (2 ^ 56 - 16) / 10 * 2 ^ 51 := by
  have hword : word.toNat >>> 12 ≤ 2 ^ 52 - 1 := by
    have := word.toNat_lt
    rw [Nat.shiftRight_eq_div_pow]
    omega
  have hgreatest : significant ((2 ^ 52 - 1) * tenth) = (2 ^ 56 - 16) / 10 * 2 ^ 51 := by
    decide +kernel
  rw [jitterShare, ← hgreatest]
  exact significant_mono (Nat.mul_le_mul_right tenth hword)

/-- The product of the share and the milliseconds, for all its rounding, is at most a tenth. -/
theorem product_le (millis word : UInt64) :
    significant (jitterShare word * significant millis.toNat) * 10 ≤ millis.toNat * 2 ^ 107 := by
  have hproduct := significant_near (jitterShare word * significant millis.toNat)
  have hmillis := significant_near millis.toNat
  have hshare := jitterShare_le word
  generalize significant (jitterShare word * significant millis.toNat) = product at hproduct ⊢
  generalize significant millis.toNat = rounded at hproduct hmillis
  generalize jitterShare word = share at hproduct hshare
  generalize millis.toNat = exact at hmillis ⊢
  apply Nat.le_of_mul_le_mul_left _ (Nat.two_pow_pos 106)
  calc
    2 ^ 106 * (product * 10) = 10 * 2 ^ 53 * (2 ^ 53 * product) := by omega
    _ ≤ 10 * 2 ^ 53 * ((2 ^ 53 + 1) * (share * rounded)) := Nat.mul_le_mul_left _ hproduct
    _ = 10 * (2 ^ 53 + 1) * (share * (2 ^ 53 * rounded)) := by ring
    _ ≤ 10 * (2 ^ 53 + 1) * ((2 ^ 56 - 16) / 10 * 2 ^ 51 * ((2 ^ 53 + 1) * exact)) :=
      Nat.mul_le_mul_left _ (Nat.mul_le_mul hshare hmillis)
    _ ≤ 2 ^ 106 * (exact * 2 ^ 107) := by omega

theorem jitter_le_tenth (millis word : UInt64) :
    (jitter millis word).toNat ≤ halfUp millis.toNat 10 := by
  rw [jitter, Word.toNat_clamp]
  apply (Nat.min_le_left _ _).trans
  apply halfUp_le_halfUp (Nat.two_pow_pos 107) (by decide)
  exact product_le millis word

@[simp] theorem jitter_zero (word : UInt64) : (jitter 0 word).toNat = 0 := by
  have hle := jitter_le_tenth 0 word
  exact Nat.eq_zero_of_le_zero hle

namespace Duration

/-- The nanoseconds of a span and of a tenth of it, the tenth to the nearest millisecond. -/
def withTenth (span : Duration) : Nat := span.nanos + halfUp span.nanos 10000000 * 1000000

theorem withTenth_mono {first second : Duration} (hle : first ≤ second) :
    first.withTenth ≤ second.withTenth := by
  have htenth : halfUp first.nanos 10000000 ≤ halfUp second.nanos 10000000 :=
    halfUp_le_halfUp (by decide) (by decide) (Nat.mul_le_mul_right _ hle)
  have hle := le_iff.mp hle
  rw [withTenth, withTenth]
  omega

theorem jitter_le_withTenth (span : Duration) (word : UInt64) :
    span.nanos + (jitter span.millis word).toNat * 1000000 ≤ span.withTenth := by
  have hwhole : span.millis.toNat * 10000000 ≤ span.nanos * 10 := by
    rw [toNat_millis]
    omega
  have htenth := (jitter_le_tenth span.millis word).trans
    (halfUp_le_halfUp (by decide) (by decide) hwhole)
  rw [withTenth]
  omega

end Duration

end Pooling
