/-!
Counts kept in words of 64 bits: the greatest word stands for every count that does not fit.
-/

namespace Pooling.Word

/-- A count is kept in a word as long as it fits, and as the greatest word beyond. -/
theorem toNat_clamp (count : Nat) :
    (UInt64.ofNatClamp count).toNat = min count (UInt64.size - 1) := by
  unfold UInt64.ofNatClamp
  split
  next h => rw [UInt64.toNat_ofNatLT]; omega
  next h => rw [UInt64.toNat_ofNatLT]; omega

/-- Adding one more than a count is adding one, and then the count. -/
theorem add_ofNat_succ (word : UInt64) (count : Nat) :
    word + .ofNat (count + 1) = word + 1 + .ofNat count := by
  rw [UInt64.ofNat_add, UInt64.add_assoc, UInt64.add_comm (.ofNat count)]
  rfl

end Pooling.Word
