import Ardep.Uds.Read.Slices
/-!
# Read — a memory range longer than a copy counts

A copy function counts in sixteen bits, and the default memory action
hands it the size it was asked for, of whatever width. The range is
narrowed on the way, and the answer of the copy is the answer of the read.

`collected` is what either copy function has taken; `runCopy_spec` is one
call of it.
-/

open Ardep.Uds.Dynamic

namespace Ardep

namespace Uds

namespace Read

variable {F α : Type} {env : Env F α} {fuel memAddr memSize : ℕ}

/-! ## One call of a copy function -/

/-- What a copy function has taken. -/
def collected : CopyFn → ReadState α → List UInt8
  | .request, st => st.sent
  | .udsCopy, st => st.tempBuffer

/-- The status a copy function gives to a block. -/
def copyStatus (A : Application F α) (copy : CopyFn) (st : ReadState α) (src : List UInt8) :
    UInt8 :=
  match copy with
  | .request => A.copy st.sent src
  | .udsCopy => if src.length ≤ tempBufferSize - st.tempBuffer.length then 0 else 0x14

/-- **A call of a copy function** returns its status, and has taken the
block where that is zero. -/
theorem runCopy_spec (A : Application F α) (copy : CopyFn) (src : List UInt8)
    (st : ReadState α) :
    ∃ st', runCopy A copy src st = some (copyStatus A copy st src, st') ∧
      (copyStatus A copy st src = 0 → collected copy st' = collected copy st ++ src) := by
  cases copy with
  | request =>
    simp only [runCopy, copyStatus, collected]
    refine ⟨_, rfl, fun hzero => ?_⟩
    rw [if_pos hzero]
  | udsCopy =>
    simp only [runCopy, copyStatus, collected]
    by_cases hroom : src.length ≤ tempBufferSize - st.tempBuffer.length
    · rw [if_pos hroom, if_pos hroom]
      exact ⟨_, rfl, fun _ => rfl⟩
    · rw [if_neg hroom, if_neg hroom]
      exact ⟨st, rfl, fun hzero => absurd hzero (by decide)⟩

/-! ## The two ways to read a range -/

/-- How a memory range is read: by the service, or as an element of a
defined identifier, whose copy function may be either. -/
inductive MemoryRead
  | direct
  | element (copy : CopyFn)

/-- The copy function the read is handed. -/
def MemoryRead.copy : MemoryRead → CopyFn
  | .direct => .request
  | .element copy => copy

/-- The read itself. -/
def MemoryRead.run (env : Env F α) (fuel memAddr memSize : ℕ) : MemoryRead → ReadM α UDSErr
  | .direct => raise env (fuel + 1) .readMemByAddr (.readMemByAddr memAddr memSize .request)
  | .element copy => readElements env.app (raise env (fuel + 1)) copy [.memory memAddr memSize]

/-- The range as it reaches the copy function. -/
def narrowed (env : Env F α) (memAddr memSize : ℕ) (st : ReadState α) : List UInt8 :=
  readRange (env.app.memory st.app) memAddr (memSize % 2 ^ 16)

/-- **Either way to read an admitted range** hands the narrowed one to the
copy function, once, and is answered with what that returns. -/
theorem memoryRead_spec (hmemory : DefaultMemory env.statics)
    (hvalid : RangeValid env.app memAddr memSize) (fuel : ℕ) (way : MemoryRead) (st : ReadState α) :
    ∃ st', way.run env fuel memAddr memSize st = some
        (if copyStatus env.app way.copy st (narrowed env memAddr memSize st) = 0 then
          .positiveResponse else .requestOutOfRange, st') ∧
      (copyStatus env.app way.copy st (narrowed env memAddr memSize st) = 0 →
        collected way.copy st' = collected way.copy st ++ narrowed env memAddr memSize st) := by
  obtain ⟨st', hcopy, htaken⟩ := runCopy_spec env.app way.copy (narrowed env memAddr memSize st) st
  refine ⟨st', ?_, htaken⟩
  have hraise : raise env (fuel + 1) .readMemByAddr (.readMemByAddr memAddr memSize way.copy) st =
      some (if copyStatus env.app way.copy st (narrowed env memAddr memSize st) = 0 then
        .positiveResponse else .requestOutOfRange, st') := by
    rw [raise_memory hmemory, if_pos hvalid]
    show (runCopy env.app way.copy (narrowed env memAddr memSize st) st).bind _ = _
    rw [hcopy]
    show some (_, st') = _
    by_cases hzero : copyStatus env.app way.copy st (narrowed env memAddr memSize st) = 0
    · rw [if_neg (not_not.mpr hzero), if_pos hzero]
    · rw [if_pos hzero, if_neg hzero]
  cases way with
  | direct => exact hraise
  | element copy =>
    show (raise env (fuel + 1) .readMemByAddr
      (.readMemByAddr memAddr memSize (MemoryRead.element copy).copy) st).bind _ = _
    rw [hraise]
    by_cases hzero : copyStatus env.app (MemoryRead.element copy).copy st
        (narrowed env memAddr memSize st) = 0
    · rw [if_pos hzero]
      rfl
    · rw [if_neg hzero]
      rfl

/-- **The whole range or a refusal.** A positive answer means that the copy
function was handed the bytes of the range and no others, and so is not
given for a range longer than it counts. -/
structure CopiesWhole (env : Env F α) (fuel memAddr memSize : ℕ) (way : MemoryRead)
    (st : ReadState α) : Prop where
  exact : ∀ st', way.run env fuel memAddr memSize st = some (.positiveResponse, st') →
    collected way.copy st' =
      collected way.copy st ++ readRange (env.app.memory st.app) memAddr memSize
  refused : 2 ^ 16 ≤ memSize → ∀ ret st',
    way.run env fuel memAddr memSize st = some (ret, st') → ret ≠ .positiveResponse

/-- **A range is copied whole exactly where its size survives the
narrowing**, or where the copy function refuses what is left of it: for
every admitted range, either way to read it and every state of the read. -/
theorem copiesWhole_iff (hmemory : DefaultMemory env.statics)
    (hvalid : RangeValid env.app memAddr memSize) (way : MemoryRead) (st : ReadState α) :
    CopiesWhole env fuel memAddr memSize way st ↔
      memSize < 2 ^ 16 ∨
        copyStatus env.app way.copy st (narrowed env memAddr memSize st) ≠ 0 := by
  obtain ⟨st', hrun, htaken⟩ := memoryRead_spec hmemory hvalid fuel way st
  constructor
  · intro h
    by_contra hno
    rw [not_or, not_not] at hno
    obtain ⟨hlong, hzero⟩ := hno
    rw [if_pos hzero] at hrun
    exact h.refused (not_lt.mp hlong) _ _ hrun rfl
  · rintro (hshort | hrefused)
    · refine ⟨fun t ht => ?_, fun hlong => absurd hshort (not_lt.mpr hlong)⟩
      rw [hrun, Option.some.injEq, Prod.mk.injEq] at ht
      obtain ⟨hpositive, rfl⟩ := ht
      have hzero : copyStatus env.app way.copy st (narrowed env memAddr memSize st) = 0 := by
        by_contra hne
        rw [if_neg hne] at hpositive
        exact absurd hpositive (by decide)
      rw [htaken hzero, narrowed, Nat.mod_eq_of_lt hshort]
    · have hnever : ∀ ret t, way.run env fuel memAddr memSize st = some (ret, t) →
          ret ≠ .positiveResponse := by
        intro ret t ht hpositive
        rw [hrun, if_neg hrefused, Option.some.injEq, Prod.mk.injEq] at ht
        rw [← ht.1] at hpositive
        exact absurd hpositive (by decide)
      exact ⟨fun t ht => absurd rfl (hnever _ _ ht), fun _ => hnever⟩

/-- The reads of an instance with the default memory handler, in
simulation: each address holds its own last byte. -/
def memoryEnv : Env ℕ Unit := Env.ofState twoSources twoHandlers setUp

/-- Three bytes are copied whole, by either way. -/
theorem copiesWhole_iff_three :
    CopiesWhole memoryEnv 0 0x20 3 .direct ⟨(), [], []⟩ ∧
      CopiesWhole memoryEnv 0 0x20 3 (.element .udsCopy) ⟨(), [], []⟩ :=
  ⟨(copiesWhole_iff defaultMemory_twoSources (by decide) .direct _).mpr (.inl (by decide)),
    (copiesWhole_iff defaultMemory_twoSources (by decide) (.element .udsCopy) _).mpr
      (.inl (by decide))⟩

/-- 65537 bytes are answered positively and one byte is copied. -/
theorem not_copiesWhole_long :
    RangeValid memoryEnv.app 0x20 0x10001 ∧
      MemoryRead.direct.run memoryEnv 0 0x20 0x10001 ⟨(), [], []⟩ =
        some (.positiveResponse, ⟨(), [], [0x20]⟩) ∧
      ¬ CopiesWhole memoryEnv 0 0x20 0x10001 .direct ⟨(), [], []⟩ := by
  refine ⟨by decide, rfl, fun h => ?_⟩
  exact h.refused (by decide) .positiveResponse _ rfl rfl

end Read

end Uds

end Ardep
