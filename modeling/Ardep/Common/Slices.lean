import Mathlib.Data.List.Basic
/-!
# Slices — a list cut into pieces of one length

`slices n xs` is what a loop over `range(0, len(xs), n)` cuts out of a
list: pieces of `n`, and a shorter one at the end where the length is not
a multiple. The lemmas take a piece off the front, which is how the loops
that use them go.
-/

namespace Ardep

section Slices

variable {α : Type*} {n : ℕ} {xs piece : List α}

/-- The number of pieces. -/
def sliceCount (n len : ℕ) : ℕ := (len + n - 1) / n

def slices (n : ℕ) (xs : List α) : List (List α) :=
  (List.range (sliceCount n xs.length)).map fun k => (xs.drop (k * n)).take n

@[simp] theorem length_slices : (slices n xs).length = sliceCount n xs.length := by
  simp [slices]

theorem sliceCount_zero (hn : 0 < n) : sliceCount n 0 = 0 := by
  unfold sliceCount
  exact Nat.div_eq_of_lt (by omega)

/-- One piece more. -/
theorem sliceCount_eq_succ {len : ℕ} (hn : 0 < n) (hlen : 0 < len) :
    sliceCount n len = sliceCount n (len - n) + 1 := by
  unfold sliceCount
  rcases Nat.le_total n len with hle | hle
  · have hsplit : len + n - 1 = (len - n + n - 1) + n := by omega
    rw [hsplit, Nat.add_div_right _ hn]
  · have hzero : (len - n + n - 1) / n = 0 := Nat.div_eq_of_lt (by omega)
    have hone : (len + n - 1) / n = 1 :=
      Nat.div_eq_of_lt_le (by omega) (by omega)
    rw [hzero, hone]

/-- The pieces cover the list. -/
theorem le_sliceCount_mul {len : ℕ} (hn : 0 < n) : len ≤ sliceCount n len * n := by
  unfold sliceCount
  have hmod := Nat.mod_lt (len + n - 1) hn
  have hdiv := Nat.div_add_mod (len + n - 1) n
  rw [Nat.mul_comm] at hdiv
  omega

@[simp] theorem slices_nil (hn : 0 < n) : slices n ([] : List α) = [] := by
  unfold slices
  rw [List.length_nil, sliceCount_zero hn]
  rfl

/-- **The first piece and the rest.** -/
theorem slices_of_ne_nil (hn : 0 < n) (hxs : xs ≠ []) :
    slices n xs = xs.take n :: slices n (xs.drop n) := by
  unfold slices
  rw [sliceCount_eq_succ hn (List.length_pos_iff.mpr hxs), List.range_succ_eq_map, List.map_cons,
    List.map_map, List.length_drop]
  congr 1
  · rw [Nat.zero_mul, List.drop_zero]
  · refine List.map_congr_left fun k _ => ?_
    simp only [Function.comp_apply, List.drop_drop]
    congr 2
    rw [Nat.succ_mul, Nat.add_comm]

/-- **What the pieces say together is the list.** -/
theorem flatten_slices (hn : 0 < n) (xs : List α) : (slices n xs).flatten = xs := by
  induction hlen : xs.length using Nat.strongRecOn generalizing xs with
  | _ len ih =>
    by_cases hxs : xs = []
    · rw [hxs, slices_nil hn, List.flatten_nil]
    · have hpos := List.length_pos_iff.mpr hxs
      have hrest := ih (xs.drop n).length (by rw [List.length_drop]; omega) (xs.drop n) rfl
      rw [slices_of_ne_nil hn hxs, List.flatten_cons, hrest, List.take_append_drop]

/-- Several lists, each cut by itself. -/
theorem flatten_flatMap_slices (hn : 0 < n) (lists : List (List α)) :
    (lists.flatMap (slices n)).flatten = lists.flatten := by
  induction lists with
  | nil => rfl
  | cons xs lists ih =>
    rw [List.flatMap_cons, List.flatten_append, flatten_slices hn, ih, List.flatten_cons]

/-- The first pieces together are the front of the list. -/
theorem flatten_take_slices (hn : 0 < n) (k : ℕ) (xs : List α) :
    ((slices n xs).take k).flatten = xs.take (n * k) := by
  induction k generalizing xs with
  | zero => rw [List.take_zero, Nat.mul_zero, List.take_zero, List.flatten_nil]
  | succ k ih =>
    by_cases hxs : xs = []
    · rw [hxs, slices_nil hn, List.take_nil, List.take_nil, List.flatten_nil]
    · rw [slices_of_ne_nil hn hxs, List.take_succ_cons, List.flatten_cons, ih, ← List.take_add,
        Nat.mul_succ, Nat.add_comm]

/-- A piece follows a number of others. -/
theorem exists_of_mem_slices (h : piece ∈ slices n xs) :
    ∃ k, piece = (xs.drop (n * k)).take n := by
  unfold slices at h
  obtain ⟨k, -, rfl⟩ := List.mem_map.mp h
  exact ⟨k, by rw [Nat.mul_comm]⟩

theorem length_le_of_mem_slices (h : piece ∈ slices n xs) : piece.length ≤ n := by
  obtain ⟨k, rfl⟩ := exists_of_mem_slices h
  exact List.length_take_le _ _

end Slices

end Ardep
