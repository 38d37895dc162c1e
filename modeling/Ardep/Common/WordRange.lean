import Mathlib.Data.BitVec
import Mathlib.Order.Interval.Set.LinearOrder
/-!
# Ranges in word arithmetic

An address and a length are words; the cells they stand for are numbers.
`wordRange` is those cells, over unbounded numbers. A sum of words is the
sum of the numbers unless it wraps, and `not_allOnes_sub_lt_iff` is the
test for that which does not wrap itself.
-/

namespace Ardep

section WordRange

variable {w : ℕ} {a b n m : BitVec w}

/-- **The cells of a range**: as many as its length, from its address on. -/
def wordRange (a n : BitVec w) : Set ℕ := Set.Ico a.toNat (a.toNat + n.toNat)

/-- A range that is not empty lies in another by its two ends. -/
theorem wordRange_subset_iff (hn : n ≠ 0) :
    wordRange a n ⊆ wordRange b m ↔
      b.toNat ≤ a.toNat ∧ a.toNat + n.toNat ≤ b.toNat + m.toNat := by
  have hpos : 0 < n.toNat := by
    rw [Nat.pos_iff_ne_zero]
    exact fun hzero => hn (BitVec.eq_of_toNat_eq (by simpa using hzero))
  exact Set.Ico_subset_Ico_iff (by omega)

/-- **The test for a sum that wraps**, by a difference that does not. -/
theorem not_allOnes_sub_lt_iff : ¬ BitVec.allOnes w - n < a ↔ a.toNat + n.toNat < 2 ^ w := by
  have ha := a.isLt
  have hn := n.isLt
  have hle : n ≤ BitVec.allOnes w := by
    rw [BitVec.le_def, BitVec.toNat_allOnes]
    omega
  rw [BitVec.lt_def, BitVec.toNat_sub_of_le hle, BitVec.toNat_allOnes]
  omega

/-- A sum that does not wrap is the sum of the numbers. -/
theorem toNat_add_of_fits (h : a.toNat + n.toNat < 2 ^ w) :
    (a + n).toNat = a.toNat + n.toNat := by
  rw [BitVec.toNat_add, Nat.mod_eq_of_lt h]

/-- **A comparison with a sum that may wrap** is the comparison of numbers,
or one with the sum less a whole turn. -/
theorem add_le_iff :
    a + n ≤ m ↔ a.toNat + n.toNat ≤ m.toNat ∨
      2 ^ w ≤ a.toNat + n.toNat ∧ a.toNat + n.toNat - 2 ^ w ≤ m.toNat := by
  have ha := a.isLt
  have hn := n.isLt
  have hm := m.isLt
  rw [BitVec.le_def, BitVec.toNat_add]
  rcases Nat.lt_or_ge (a.toNat + n.toNat) (2 ^ w) with hlt | hge
  · rw [Nat.mod_eq_of_lt hlt]
    omega
  · rw [Nat.mod_eq_sub_mod hge, Nat.mod_eq_of_lt (by omega)]
    omega

end WordRange

end Ardep
