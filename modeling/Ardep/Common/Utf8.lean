import Mathlib.Data.Nat.Notation
/-!
# UTF-8 — a text cut into pieces

The bytes of a text are cut somewhere and the pieces are decoded one by
one. A piece is valid if it begins and ends between two characters
(`isValidUTF8_between`), and a place that valid pieces lead up to is
between two characters (`isValid_length`).
-/

namespace Ardep

namespace Utf8

variable {text : String} {a m z : List UInt8} {pieces : List (List UInt8)}

theorem fromUTF8?_of_valid {b : ByteArray} (h : b.IsValidUTF8) :
    String.fromUTF8? b = some (String.fromUTF8 b h) := dif_pos h

theorem fromUTF8?_of_not_valid {b : ByteArray} (h : ¬ b.IsValidUTF8) : String.fromUTF8? b = none :=
  dif_neg h

/-- A piece that is not valid has a byte. -/
theorem ne_nil_of_not_valid (h : ¬ m.toByteArray.IsValidUTF8) : m ≠ [] := by
  rintro rfl
  exact h ByteArray.isValidUTF8_empty

/-- Valid pieces one after the other are valid. -/
theorem isValidUTF8_flatten (h : ∀ piece ∈ pieces, piece.toByteArray.IsValidUTF8) :
    pieces.flatten.toByteArray.IsValidUTF8 := by
  induction pieces with
  | nil => exact ByteArray.isValidUTF8_empty
  | cons piece pieces ih =>
    rw [List.flatten_cons, List.toByteArray_append]
    exact (h piece List.mem_cons_self).append (ih fun p hp => h p (List.mem_cons_of_mem _ hp))

/-- **A valid beginning ends between two characters.** -/
theorem isValid_length (htext : (a ++ z).toByteArray = text.toUTF8) (ha : a.toByteArray.IsValidUTF8) :
    (⟨a.length⟩ : String.Pos.Raw).IsValid text := by
  rw [String.toUTF8_eq_toByteArray, List.toByteArray_append] at htext
  refine String.Pos.Raw.isValid_iff_isValidUTF8_extract_zero.mpr ⟨?_, ?_⟩
  · rw [String.Pos.Raw.le_iff, String.byteIdx_rawEndPos, ← String.size_toByteArray, ← htext,
      ByteArray.size_append, List.size_toByteArray]
    exact Nat.le_add_right _ _
  · rw [← htext, ByteArray.extract_append_eq_left List.size_toByteArray.symm]
    exact ha

/-- **What is between two such places is valid.** -/
theorem isValidUTF8_between (htext : (a ++ m ++ z).toByteArray = text.toUTF8)
    (ha : (⟨a.length⟩ : String.Pos.Raw).IsValid text)
    (hm : (⟨(a ++ m).length⟩ : String.Pos.Raw).IsValid text) : m.toByteArray.IsValidUTF8 := by
  have hmiddle : text.toByteArray.extract a.length (a ++ m).length = m.toByteArray := by
    rw [← String.toUTF8_eq_toByteArray, ← htext, List.toByteArray_append,
      ← List.size_toByteArray (l := a ++ m), ByteArray.extract_append_size_left,
      List.toByteArray_append]
    exact ByteArray.extract_append_eq_right List.size_toByteArray.symm ByteArray.size_append
  have hle : (⟨a.length⟩ : String.Pos.Raw) ≤ ⟨(a ++ m).length⟩ := by
    rw [String.Pos.Raw.le_iff, List.length_append]
    exact Nat.le_add_right _ _
  rw [← hmiddle]
  exact (String.Pos.Raw.isValidUTF8_extract_iff _ _ hle hm.le_rawEndPos).mpr (Or.inr ⟨ha, hm⟩)

/-! ## Decoding piece by piece -/

/-- The pieces up to the first that is not valid. -/
def decodable (pieces : List (List UInt8)) : List (List UInt8) :=
  pieces.takeWhile fun piece => piece.toByteArray.IsValidUTF8

theorem decodable_cons_of_valid (h : m.toByteArray.IsValidUTF8) :
    decodable (m :: pieces) = m :: decodable pieces := by
  unfold decodable
  rw [List.takeWhile_cons, decide_eq_true h]
  rfl

theorem decodable_cons_of_not_valid (h : ¬ m.toByteArray.IsValidUTF8) :
    decodable (m :: pieces) = [] := by
  unfold decodable
  rw [List.takeWhile_cons, decide_eq_false h]
  rfl

/-- **The decodable pieces are the whole** only if all are valid. -/
theorem flatten_decodable_iff :
    (decodable pieces).flatten = pieces.flatten ↔
      ∀ piece ∈ pieces, piece.toByteArray.IsValidUTF8 := by
  induction pieces with
  | nil => exact iff_of_true rfl fun _ h => absurd h List.not_mem_nil
  | cons piece pieces ih =>
    by_cases hvalid : piece.toByteArray.IsValidUTF8
    · rw [decodable_cons_of_valid hvalid, List.flatten_cons, List.flatten_cons,
        List.append_right_inj, ih, List.forall_mem_cons, and_iff_right hvalid]
    · -- the piece that fails has a byte that is missing
      rw [decodable_cons_of_not_valid hvalid, List.flatten_nil, List.flatten_cons]
      refine iff_of_false (fun heq => ?_) fun h => hvalid (h piece List.mem_cons_self)
      exact ne_nil_of_not_valid hvalid (List.append_eq_nil_iff.mp heq.symm).1

end Utf8

end Ardep
