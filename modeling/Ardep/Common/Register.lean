import Mathlib.Data.Nat.Notation
import Mathlib.Logic.Basic
import Mathlib.Tactic.SplitIfs
/-!
# Registers — words read and written bit by bit

A driver sets, clears and replaces bits of a word by masks. Each of these
is read here one bit at a time: the bit that was named has its new value,
and the others are as they were.
-/

namespace Ardep

namespace Register

variable {w : ℕ}

/-- Setting a bit. -/
@[simp] theorem getLsbD_or_twoPow (r : BitVec w) {i : ℕ} (hi : i < w) (j : ℕ) :
    (r ||| BitVec.twoPow w i).getLsbD j = if i = j then true else r.getLsbD j := by
  rw [BitVec.getLsbD_or, BitVec.getLsbD_twoPow, decide_eq_true hi, Bool.true_and]
  by_cases hij : i = j
  · simp [hij]
  · simp [hij]

/-- Clearing a bit. -/
@[simp] theorem getLsbD_and_not_twoPow (r : BitVec w) {i : ℕ} (hi : i < w) (j : ℕ) :
    (r &&& ~~~BitVec.twoPow w i).getLsbD j = if i = j then false else r.getLsbD j := by
  rw [BitVec.getLsbD_and, BitVec.getLsbD_not, BitVec.getLsbD_twoPow, decide_eq_true hi,
    Bool.true_and]
  by_cases hij : i = j
  · simp [hij]
  · have hlt := BitVec.lt_of_getLsbD (x := r) (i := j)
    cases hr : r.getLsbD j with
    | false => simp [hij]
    | true => simp [hij, hlt hr]

/-- Testing a bit. -/
theorem twoPow_and_ne_zero_iff (r : BitVec w) {i : ℕ} (hi : i < w) :
    BitVec.twoPow w i &&& r ≠ 0#w ↔ r.getLsbD i = true := by
  rw [BitVec.twoPow_and]
  split_ifs with hbit
  · refine iff_of_true (fun hzero => ?_) hbit
    have hset := getLsbD_or_twoPow (0#w) hi i
    rw [hzero, if_pos rfl, BitVec.or_zero, BitVec.getLsbD_zero] at hset
    cases hset
  · exact iff_of_false (not_not.mpr rfl) hbit

/-- Replacing the bits of a mask. -/
theorem getLsbD_replace (r mask value : BitVec w) (j : ℕ) :
    (r &&& ~~~mask ||| value &&& mask).getLsbD j =
      if mask.getLsbD j then value.getLsbD j else r.getLsbD j := by
  rw [BitVec.getLsbD_or, BitVec.getLsbD_and, BitVec.getLsbD_and, BitVec.getLsbD_not]
  have hlt := BitVec.lt_of_getLsbD (x := r) (i := j)
  cases mask.getLsbD j with
  | true => simp
  | false =>
    cases hr : r.getLsbD j with
    | false => simp
    | true => simp [hlt hr]

/-- A field of consecutive bits, masked out and moved to the lowest bits of
a wider word. -/
theorem getLsbD_field (r mask : BitVec w) {v b len : ℕ} (hv : len ≤ v) (hw : b + len ≤ w)
    (hmask : ∀ j < w, mask.getLsbD j = decide (b ≤ j ∧ j < b + len)) (j : ℕ) :
    (((r &&& mask) >>> b).setWidth v).getLsbD j = (decide (j < len) && r.getLsbD (b + j)) := by
  rw [BitVec.getLsbD_setWidth, BitVec.getLsbD_ushiftRight, BitVec.getLsbD_and]
  by_cases hj : j < len
  · rw [hmask _ (by omega), decide_eq_true hj, decide_eq_true (by omega : j < v),
      decide_eq_true (by omega : b ≤ b + j ∧ b + j < b + len), Bool.and_true]
  · rw [decide_eq_false hj, Bool.false_and]
    by_cases hb : b + j < w
    · rw [hmask _ hb, decide_eq_false (by omega : ¬ (b ≤ b + j ∧ b + j < b + len)), Bool.and_false,
        Bool.and_false]
    · rw [BitVec.getLsbD_of_ge _ _ (by omega), Bool.false_and, Bool.and_false]

/-- The same for one bit. -/
theorem getLsbD_lowest (r : BitVec w) {v : ℕ} (hv : 0 < v) (b j : ℕ) :
    ((r >>> b &&& 1#w).setWidth v).getLsbD j = (decide (j = 0) && r.getLsbD b) := by
  rw [BitVec.getLsbD_setWidth, BitVec.getLsbD_and, BitVec.getLsbD_ushiftRight, BitVec.getLsbD_one]
  by_cases hj : j = 0
  · subst hj
    cases hr : r.getLsbD b with
    | false => simp
    | true =>
      have hlt := BitVec.lt_of_getLsbD hr
      simp [hv]
      omega
  · simp [hj]

end Register

end Ardep
