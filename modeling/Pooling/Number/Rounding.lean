/-!
Rounding of exact quotients, and of whole numbers to 53 significant binary digits.
-/

namespace Pooling.Rounding

/-- The whole number nearest to `num / den`; halfway cases go to the even one. -/
def halfEven (num den : Nat) : Nat :=
  let quotient := num / den
  let rest := num % den
  if 2 * rest < den then quotient
  else if den < 2 * rest then quotient + 1
  else if quotient % 2 = 0 then quotient else quotient + 1

/-- The whole number nearest to `num / den`; halfway cases go up. -/
def halfUp (num den : Nat) : Nat := (2 * num + den) / (2 * den)

/-- The nearest whole number with at most 53 significant binary digits; halfway cases go to the
one whose last kept digit is zero. -/
def significant (value : Nat) : Nat :=
  let unit := 1 <<< (value.log2 - 52)
  halfEven value unit * unit

theorem halfEven_one (num : Nat) : halfEven num 1 = num := by
  simp [halfEven, Nat.mod_one]

theorem significant_of_log2_le {value : Nat} (h : value.log2 ≤ 52) : significant value = value := by
  have : value.log2 - 52 = 0 := by omega
  simp [significant, this, halfEven_one]

theorem halfEven_near {num den : Nat} (hden : 0 < den) :
    2 * num ≤ 2 * (halfEven num den * den) + den ∧
      2 * (halfEven num den * den) ≤ 2 * num + den := by
  have hsplit := Nat.div_add_mod num den
  have hrest := Nat.mod_lt num hden
  have hcomm : den * (num / den) = num / den * den := Nat.mul_comm ..
  simp only [halfEven]
  split
  · omega
  · split
    · rw [Nat.add_mul]; omega
    · split
      · omega
      · rw [Nat.add_mul]; omega

end Pooling.Rounding
