import Mathlib.Data.List.Basic
import Mathlib.Tactic.Ring
/-!
# Cell stores — ranges read and written in an addressed memory

A memory is a function from addresses to cells. `readRange` lists a
range of it and `store` overwrites one; the lemmas are the ones a proof
about a cursor moving through such a memory uses. `roundUp` is the length
a range has once it is filled up to whole blocks.
-/

namespace Ardep

section CellStore

variable {α : Type*}

/-- The `len` cells from `off` on. -/
def readRange (c : ℕ → α) (off len : ℕ) : List α :=
  (List.range len).map fun i => c (off + i)

/-- The memory with the cells from `off` on overwritten. -/
def store (c : ℕ → α) (off : ℕ) (cells : List α) : ℕ → α :=
  fun i => if off ≤ i then cells.getD (i - off) (c i) else c i

variable {c d : ℕ → α} {off len m n i : ℕ} {cells : List α}

@[simp] theorem length_readRange : (readRange c off len).length = len := by simp [readRange]

/-- A range splits at any point of it. -/
theorem readRange_add : readRange c off (m + n) = readRange c off m ++ readRange c (off + m) n := by
  simp only [readRange, List.range_add, List.map_append, List.map_map]
  congr 1
  refine List.map_congr_left fun i _ => ?_
  simp [Nat.add_assoc]

/-- Memories agreeing on a range list the same cells there. -/
theorem readRange_congr (h : ∀ i, off ≤ i → i < off + len → c i = d i) :
    readRange c off len = readRange d off len := by
  refine List.map_congr_left fun i hi => ?_
  have := List.mem_range.mp hi
  exact h _ (by omega) (by omega)

/-- A range of equal cells. -/
theorem readRange_eq_replicate {x : α} (h : ∀ i, off ≤ i → i < off + len → c i = x) :
    readRange c off len = List.replicate len x := by
  refine List.eq_replicate_iff.mpr ⟨length_readRange, fun y hy => ?_⟩
  obtain ⟨i, hi, rfl⟩ := List.mem_map.mp hy
  have := List.mem_range.mp hi
  exact h _ (by omega) (by omega)

/-- The first cells of a range are the range cut short. -/
theorem readRange_take (h : m ≤ len) : (readRange c off len).take m = readRange c off m := by
  obtain ⟨n, rfl⟩ := Nat.exists_eq_add_of_le h
  rw [readRange_add, List.take_left' length_readRange]

/-- What follows the first cells of a range is a range further on. -/
theorem readRange_drop_take (h : m + n ≤ len) :
    ((readRange c off len).drop m).take n = readRange c (off + m) n := by
  obtain ⟨k, rfl⟩ := Nat.exists_eq_add_of_le h
  rw [Nat.add_assoc, readRange_add, List.drop_left' length_readRange, readRange_add,
    List.take_left' length_readRange]

@[simp] theorem store_nil : store c off [] = c := by
  funext i
  simp [store]

theorem store_of_lt (h : i < off) : store c off cells i = c i := by
  rw [store, if_neg (by omega)]

theorem store_of_ge (h : off + cells.length ≤ i) : store c off cells i = c i := by
  rw [store, if_pos (by omega), List.getD_eq_getElem?_getD, List.getElem?_eq_none (by omega),
    Option.getD_none]

/-- **A range copied from another memory**, cell by cell. -/
theorem store_readRange {src : ℕ} :
    store c off (readRange d src len) i =
      if off ≤ i ∧ i < off + len then d (src + (i - off)) else c i := by
  by_cases hin : off ≤ i ∧ i < off + len
  · obtain ⟨hlow, hhigh⟩ := hin
    have hindex : i - off < len := by omega
    rw [if_pos ⟨hlow, hhigh⟩, store, if_pos hlow, List.getD_eq_getElem?_getD,
      List.getElem?_eq_getElem (by rwa [length_readRange]), Option.getD_some]
    simp [readRange]
  · rw [if_neg hin]
    rcases Nat.lt_or_ge i off with hlt | hge
    · exact store_of_lt hlt
    · exact store_of_ge (by rw [length_readRange]; omega)

/-- What was written does not depend on what was there. -/
theorem store_congr (hlow : off ≤ i) (hhigh : i < off + cells.length) :
    store c off cells i = store d off cells i := by
  have hin : i - off < cells.length := by omega
  unfold store
  rw [if_pos hlow, if_pos hlow, List.getD_eq_getElem?_getD, List.getD_eq_getElem?_getD,
    List.getElem?_eq_getElem hin, Option.getD_some, Option.getD_some]

/-- The overwritten range lists what was written. -/
theorem readRange_store_self (h : cells.length = len) :
    readRange (store c off cells) off len = cells := by
  subst h
  refine List.ext_getElem (by simp) fun i hi hi' => ?_
  simp [readRange, store, hi']

/-- Two writes, the second where the first ended, are one. -/
theorem store_append {more : List α} :
    store (store c off cells) (off + cells.length) more = store c off (cells ++ more) := by
  funext i
  rcases Nat.lt_or_ge i off with hlt | hge
  · rw [store_of_lt hlt, store_of_lt (by omega), store_of_lt hlt]
  · obtain ⟨k, rfl⟩ := Nat.exists_eq_add_of_le hge
    unfold store
    rcases Nat.lt_or_ge k cells.length with hfirst | hsecond
    · rw [if_neg (by omega), if_pos (by omega), if_pos (by omega)]
      simp [List.getElem?_append_left hfirst, hfirst]
    · rw [if_pos (by omega), if_pos (by omega), if_pos (by omega)]
      have hindex : off + k - (off + cells.length) = k - cells.length := by omega
      rw [hindex]
      simp [List.getElem?_append_right hsecond, List.getElem?_eq_none hsecond]

end CellStore

section RoundUp

/-- The least multiple of `w` that is at least `n`. -/
def roundUp (n w : ℕ) : ℕ := (n + w - 1) / w * w

variable {n m t w : ℕ}

theorem roundUp_mono (h : n ≤ t) : roundUp n w ≤ roundUp t w :=
  Nat.mul_le_mul_right w (Nat.div_le_div_right (by omega))

/-- Whole blocks in front are not rounded. -/
theorem roundUp_add (hw : 0 < w) (h : w ∣ n) : roundUp (n + m) w = n + roundUp m w := by
  obtain ⟨k, rfl⟩ := h
  have hshift : w * k + m + w - 1 = m + w - 1 + w * k := by omega
  unfold roundUp
  rw [hshift, Nat.add_mul_div_left _ _ hw]
  ring

/-- A part of a block is rounded to a whole one. -/
theorem roundUp_of_lt (h0 : 0 < n) (h : n < w) : roundUp n w = w := by
  have hdiv : (n + w - 1) / w = 1 :=
    Nat.div_eq_of_lt_le (by omega) (by omega)
  rw [roundUp, hdiv, Nat.one_mul]

theorem dvd_roundUp : w ∣ roundUp n w := Nat.dvd_mul_left w _

/-- Whole blocks are not rounded. -/
theorem roundUp_of_dvd (hw : 0 < w) (h : w ∣ n) : roundUp n w = n := by
  have hzero : roundUp 0 w = 0 := by
    rw [roundUp, Nat.div_eq_of_lt (by omega), Nat.zero_mul]
  have hsum := roundUp_add (m := 0) hw h
  rw [hzero] at hsum
  exact hsum

theorem le_roundUp (hw : 0 < w) : n ≤ roundUp n w := by
  have hmod := Nat.mod_lt (n + w - 1) hw
  have hdiv := Nat.div_add_mod (n + w - 1) w
  rw [Nat.mul_comm] at hdiv
  unfold roundUp
  omega

/-- Rounding goes to the next multiple and no further. -/
theorem roundUp_le_of_dvd (hw : 0 < w) (hle : n ≤ t) (h : w ∣ t) : roundUp n w ≤ t := by
  have hmono := roundUp_mono (w := w) hle
  rwa [roundUp_of_dvd hw h] at hmono

end RoundUp

end Ardep
