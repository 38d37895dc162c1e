import Mathlib.Data.Nat.Notation
import Mathlib.Logic.Function.Basic
import Mathlib.Tactic.SplitIfs
import Ardep.Common.Register
/-!
# Register files — bytes behind an address that counts up

A device with `n` byte registers takes bursts: an address, and bytes that
go to that register and the following ones. An access past the last
register has no result here.

A burst that stays inside has one (`write_eq_some`, `read_eq_some`), and
after it every register has its byte of the burst or what it had before
(`byteAt_write`). Two neighbours make a word, lower byte first, and a word
that is written is the word that is read (`word_writeWord`).
-/

namespace Ardep

/-- `n` registers of a byte. -/
abbrev RegFile (n : ℕ) : Type := Fin n → UInt8

namespace RegFile

variable {n : ℕ} {r r' : RegFile n} {a i : ℕ}

/-- A burst of writes from an address on. -/
def write (r : RegFile n) : ℕ → List UInt8 → Option (RegFile n)
  | _, [] => some r
  | a, b :: bs => if h : a < n then write (Function.update r ⟨a, h⟩ b) (a + 1) bs else none

/-- A burst of reads from an address on. -/
def read (r : RegFile n) : ℕ → ℕ → Option (List UInt8)
  | _, 0 => some []
  | a, len + 1 => if h : a < n then (read r (a + 1) len).map (r ⟨a, h⟩ :: ·) else none

/-- The byte of a register, 0 where there is none. -/
def byteAt (r : RegFile n) (a : ℕ) : UInt8 := if h : a < n then r ⟨a, h⟩ else 0

theorem byteAt_update (h : a < n) (b : UInt8) :
    byteAt (Function.update r ⟨a, h⟩ b) i = if i = a then b else r.byteAt i := by
  unfold byteAt
  by_cases hi : i = a
  · subst hi
    rw [dif_pos h, if_pos rfl, Function.update_self]
  · rw [if_neg hi]
    split_ifs with hn
    · exact Function.update_of_ne (fun heq => hi (Fin.mk.inj heq)) ..
    · rfl

/-- A burst that stays inside is written. -/
theorem write_eq_some : ∀ (bs : List UInt8) (r : RegFile n) (a : ℕ), a + bs.length ≤ n →
    ∃ r', r.write a bs = some r'
  | [], r, a, _ => ⟨r, rfl⟩
  | b :: bs, r, a, h => by
    rw [List.length_cons] at h
    rw [write, dif_pos (by omega)]
    exact write_eq_some bs _ _ (by omega)

/-- **What a burst leaves**: its bytes where it went, and elsewhere what
there was. -/
theorem byteAt_write : ∀ {bs : List UInt8} {r : RegFile n} {a : ℕ}, r.write a bs = some r' →
    r'.byteAt i = if a ≤ i ∧ i < a + bs.length then bs.getD (i - a) 0 else r.byteAt i
  | [], r, a, h => by
    cases h
    rw [if_neg (by simp)]
  | b :: bs, r, a, h => by
    rw [write] at h
    split_ifs at h with ha
    rw [byteAt_write h, byteAt_update, List.length_cons]
    by_cases hi : i = a
    · subst hi
      rw [if_neg (by omega), if_pos rfl, if_pos (by omega), Nat.sub_self]
      rfl
    · by_cases hin : a + 1 ≤ i ∧ i < a + 1 + bs.length
      · rw [if_pos hin, if_pos (by omega), show i - a = (i - (a + 1)) + 1 by omega]
        rfl
      · rw [if_neg hin, if_neg hi, if_neg (by omega)]

/-- A burst that stays inside is read. -/
theorem read_eq_some (r : RegFile n) : ∀ a len : ℕ, a + len ≤ n →
    r.read a len = some ((List.range len).map fun i => r.byteAt (a + i))
  | _, 0, _ => rfl
  | a, len + 1, h => by
    rw [read, dif_pos (by omega), read_eq_some r _ len (by omega), List.range_succ_eq_map, List.map_cons,
      List.map_map, Option.map_some, byteAt, dif_pos (by omega)]
    refine congrArg some (congrArg _ (List.map_congr_left fun i _ => ?_))
    rw [Function.comp_apply, show a + 1 + i = a + i.succ by omega]

/-! ## Words -/

/-- The word of two bytes, the lower one first. -/
def leWord (lo hi : UInt8) : BitVec 16 :=
  lo.toBitVec.setWidth 16 ||| hi.toBitVec.setWidth 16 <<< 8

/-- Its lower byte. -/
def loByte (v : BitVec 16) : UInt8 := ⟨(v &&& 0xFF).setWidth 8⟩

/-- Its upper byte. -/
def hiByte (v : BitVec 16) : UInt8 := ⟨(v >>> 8 &&& 0xFF).setWidth 8⟩

theorem getLsbD_lowByte (v : BitVec 16) (j : ℕ) :
    ((v &&& 0xFF).setWidth 8).getLsbD j = (decide (j < 8) && v.getLsbD j) := by
  have hfield : (((v &&& 0xFF) >>> 0).setWidth 8).getLsbD j =
      (decide (j < 8) && v.getLsbD (0 + j)) :=
    Register.getLsbD_field v 0xFF (by decide) (by decide) (by decide) j
  rwa [Nat.zero_add, BitVec.ushiftRight_zero] at hfield

theorem leWord_bytes (v : BitVec 16) : leWord (loByte v) (hiByte v) = v := by
  have hlo : ∀ j, ((loByte v).toBitVec.setWidth 16).getLsbD j =
      (decide (j < 16) && (decide (j < 8) && v.getLsbD j)) := by
    intro j
    rw [BitVec.getLsbD_setWidth]
    exact congrArg _ (getLsbD_lowByte v j)
  have hhi : ∀ j, ((hiByte v).toBitVec.setWidth 16).getLsbD j =
      (decide (j < 16) && (decide (j < 8) && v.getLsbD (8 + j))) := by
    intro j
    rw [BitVec.getLsbD_setWidth, ← BitVec.getLsbD_ushiftRight]
    exact congrArg _ (getLsbD_lowByte (v >>> 8) j)
  refine BitVec.eq_of_getLsbD_eq fun i hi => ?_
  unfold leWord
  rw [BitVec.getLsbD_or, BitVec.getLsbD_shiftLeft, hlo, hhi, decide_eq_true hi]
  by_cases hlow : i < 8
  · simp [hlow]
  · rw [decide_eq_false hlow, decide_eq_true (by omega : i - 8 < 16),
      decide_eq_true (by omega : i - 8 < 8), show 8 + (i - 8) = i by omega]
    simp

/-- The word in a register and the next one. -/
def word (r : RegFile n) (a : ℕ) : BitVec 16 := leWord (r.byteAt a) (r.byteAt (a + 1))

/-- **A word that is written** is the word that is there, and every word
that does not overlap it is as it was. -/
theorem word_write {v : BitVec 16} (h : r.write a [loByte v, hiByte v] = some r') (b : ℕ)
    (hb : b = a ∨ b + 1 < a ∨ a + 1 < b) : r'.word b = if b = a then v else r.word b := by
  have hbyte : ∀ i, r'.byteAt i =
      if a ≤ i ∧ i < a + 2 then [loByte v, hiByte v].getD (i - a) 0 else r.byteAt i :=
    fun i => byteAt_write h
  unfold word
  rcases hb with rfl | hb
  · rw [if_pos rfl, hbyte, hbyte, if_pos (by omega), if_pos (by omega), Nat.sub_self,
      Nat.add_sub_cancel_left]
    exact leWord_bytes v
  · rw [if_neg (by omega), hbyte, hbyte, if_neg (by omega), if_neg (by omega)]

end RegFile

end Ardep
