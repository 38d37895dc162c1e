import Ardep.Common.WordRange
import Ardep.Uds.Read.Model
/-!
# Memory — which ranges the default checks admit

`is_memory_address_valid` in the machine's own arithmetic: `uintptr_t` and
`size_t` are words of one width, the end of a region is a sum of words, and
so is the end of the range asked for. A guard comes first that refuses a
range whose end would wrap, and after it the comparisons mean what they say
(`isMemoryAddressValid_iff`).

The reads of the dispatcher take the same check over unbounded numbers;
`isMemoryAddressValid_toNat` is that the two agree.
-/

namespace Ardep

namespace Uds

namespace Memory

/-- **A chosen memory node of the devicetree**: `DT_REG_ADDR` and
`DT_REG_SIZE`. Its end is a word. -/
structure Region (w : ℕ) where
  base : BitVec w
  size : BitVec w
  fits : base.toNat + size.toNat ≤ 2 ^ w - 1

/-- `ram_end` and `flash_end`. -/
def Region.last {w : ℕ} (R : Region w) : BitVec w := R.base + R.size

/-- The build: whether it is `CONFIG_BOARD_NATIVE_SIM`, and the chosen SRAM
and flash where there is one with a `reg`. -/
structure MemoryLayout (w : ℕ) where
  nativeSim : Bool
  ram : Option (Region w)
  flash : Option (Region w)

section Check

variable {w : ℕ} (M : MemoryLayout w)

/-- The comparison with one region's two ends. -/
def withinRegion (region : Option (Region w)) (addr size : BitVec w) : Bool :=
  match region with
  | some R => decide (R.base ≤ addr) && decide (addr + size ≤ R.last)
  | none => false

/-- `is_memory_address_valid`. -/
def isMemoryAddressValid (addr size : BitVec w) (readonly : Bool) : Bool :=
  -- `UINTPTR_MAX - size`
  if BitVec.allOnes w - size < addr then false
  else if M.nativeSim then true
  else if withinRegion M.ram addr size then true
  else if readonly then withinRegion M.flash addr size
  else false

/-- The two default checks, which differ in the switch alone: the answer
and what they leave in `apply_action`. -/
def udsCheckDefaultMemoryByAddr (readonly : Bool) (memAddr memSize : BitVec w)
    (applyAction : Bool) : UDSErr × Bool :=
  if memAddr = 0 then (.requestOutOfRange, applyAction)
  else if memSize = 0 then (.requestOutOfRange, applyAction)
  else if isMemoryAddressValid M memAddr memSize readonly = false then
    (.requestOutOfRange, applyAction)
  else (.ok, true)

/-- `uds_check_default_memory_by_addr_read`. -/
def udsCheckDefaultMemoryByAddrRead (memAddr memSize : BitVec w) (applyAction : Bool) :
    UDSErr × Bool :=
  udsCheckDefaultMemoryByAddr M true memAddr memSize applyAction

/-- `uds_check_default_memory_by_addr_write`. -/
def udsCheckDefaultMemoryByAddrWrite (memAddr memSize : BitVec w) (applyAction : Bool) :
    UDSErr × Bool :=
  udsCheckDefaultMemoryByAddr M false memAddr memSize applyAction

end Check

/-! ## What is admitted -/

section Admitted

variable {w : ℕ} {M : MemoryLayout w} {addr size : BitVec w}

/-- The range lies entirely in the region, if there is one. -/
def LiesIn (addr size : BitVec w) (region : Option (Region w)) : Prop :=
  ∃ R, region = some R ∧ wordRange addr size ⊆ wordRange R.base R.size

/-- A region's end does not wrap. -/
theorem Region.toNat_last (R : Region w) : R.last.toNat = R.base.toNat + R.size.toNat := by
  have hpos := Nat.two_pow_pos w
  have hfits := R.fits
  rw [Region.last, toNat_add_of_fits (by omega)]

/-- Where the end of the range does not wrap, the comparison decides
whether the range lies in the region. -/
theorem withinRegion_iff {region : Option (Region w)} (hsize : size ≠ 0)
    (hfits : addr.toNat + size.toNat < 2 ^ w) :
    withinRegion region addr size = true ↔ LiesIn addr size region := by
  cases region with
  | none => simp [withinRegion, LiesIn]
  | some R =>
    simp only [withinRegion, LiesIn, Bool.and_eq_true, decide_eq_true_eq, Option.some.injEq,
      exists_eq_left']
    rw [wordRange_subset_iff hsize, BitVec.le_def, BitVec.le_def, toNat_add_of_fits hfits,
      R.toNat_last]

/-- A range in a region has an end that does not wrap. -/
theorem LiesIn.fits {region : Option (Region w)} (hsize : size ≠ 0)
    (h : LiesIn addr size region) : addr.toNat + size.toNat < 2 ^ w := by
  obtain ⟨R, -, hsub⟩ := h
  have hend := ((wordRange_subset_iff hsize).mp hsub).2
  have hfits := R.fits
  have hpos := Nat.two_pow_pos w
  omega

/-- **What the comparisons and their guard come to**, for a range that is
not empty. -/
theorem isMemoryAddressValid_iff (hsim : M.nativeSim = false) (hsize : size ≠ 0)
    (readonly : Bool) :
    isMemoryAddressValid M addr size readonly = true ↔
      LiesIn addr size M.ram ∨ readonly = true ∧ LiesIn addr size M.flash := by
  rw [isMemoryAddressValid, hsim]
  by_cases hwrap : BitVec.allOnes w - size < addr
  · -- no region reaches that far
    rw [if_pos hwrap]
    refine iff_of_false (by decide) ?_
    have hover := mt not_allOnes_sub_lt_iff.mpr (not_not.mpr hwrap)
    rintro (hram | ⟨-, hflash⟩)
    · exact hover (hram.fits hsize)
    · exact hover (hflash.fits hsize)
  · have hfits := not_allOnes_sub_lt_iff.mp hwrap
    rw [if_neg hwrap, if_neg (by decide), ← withinRegion_iff hsize hfits,
      ← withinRegion_iff hsize hfits]
    cases withinRegion M.ram addr size <;> cases readonly <;> simp

/-- Either check, by what its switch admits. -/
theorem udsCheckDefaultMemoryByAddr_spec (hsim : M.nativeSim = false) (addr size : BitVec w)
    (readonly flag : Bool) :
    (udsCheckDefaultMemoryByAddr M readonly addr size flag = (.ok, true) ↔
        addr ≠ 0 ∧ size ≠ 0 ∧
          (LiesIn addr size M.ram ∨ readonly = true ∧ LiesIn addr size M.flash)) ∧
      (udsCheckDefaultMemoryByAddr M readonly addr size flag = (.ok, true) ∨
        udsCheckDefaultMemoryByAddr M readonly addr size flag = (.requestOutOfRange, flag)) := by
  rw [udsCheckDefaultMemoryByAddr]
  by_cases haddr : addr = 0
  · simp [haddr]
  · by_cases hsize : size = 0
    · simp [hsize]
    · rw [if_neg haddr, if_neg hsize, ← isMemoryAddressValid_iff hsim hsize,
        and_iff_right (show addr ≠ 0 from haddr), and_iff_right (show size ≠ 0 from hsize)]
      cases isMemoryAddressValid M addr size readonly <;> simp

/-- **The default checks decide ranges, not sums.** A read is admitted
exactly for an address and a size that are not zero and a range that lies,
over unbounded numbers, entirely in RAM or entirely in flash; a write
exactly for one in RAM. Any other is answered out of range, the action
flag as it was. -/
theorem udsCheckDefaultMemoryByAddr_iff (hsim : M.nativeSim = false) (addr size : BitVec w)
    (flag : Bool) :
    (udsCheckDefaultMemoryByAddrRead M addr size flag = (.ok, true) ↔
        addr ≠ 0 ∧ size ≠ 0 ∧ (LiesIn addr size M.ram ∨ LiesIn addr size M.flash)) ∧
      (udsCheckDefaultMemoryByAddrRead M addr size flag = (.requestOutOfRange, flag) ↔
        ¬ (addr ≠ 0 ∧ size ≠ 0 ∧ (LiesIn addr size M.ram ∨ LiesIn addr size M.flash))) ∧
      (udsCheckDefaultMemoryByAddrWrite M addr size flag = (.ok, true) ↔
        addr ≠ 0 ∧ size ≠ 0 ∧ LiesIn addr size M.ram) ∧
      (udsCheckDefaultMemoryByAddrWrite M addr size flag = (.requestOutOfRange, flag) ↔
        ¬ (addr ≠ 0 ∧ size ≠ 0 ∧ LiesIn addr size M.ram)) := by
  have hcodes : ((.requestOutOfRange, flag) : UDSErr × Bool) ≠ (.ok, true) := by simp
  obtain ⟨hread, hreads⟩ := udsCheckDefaultMemoryByAddr_spec hsim addr size true flag
  obtain ⟨hwrite, hwrites⟩ := udsCheckDefaultMemoryByAddr_spec hsim addr size false flag
  simp only [true_and] at hread
  simp only [Bool.false_eq_true, false_and, or_false] at hwrite
  refine ⟨hread, ?_, hwrite, ?_⟩
  · rw [← hread]
    rcases hreads with hok | hno
    · exact iff_of_false (fun h => hcodes (h.symm.trans hok)) (not_not.mpr hok)
    · exact iff_of_true hno (fun h => hcodes (hno.symm.trans h))
  · rw [← hwrite]
    rcases hwrites with hok | hno
    · exact iff_of_false (fun h => hcodes (h.symm.trans hok)) (not_not.mpr hok)
    · exact iff_of_true hno (fun h => hcodes (hno.symm.trans h))

/-! ## Over unbounded numbers -/

/-- The layout as the reads of the dispatcher have it. -/
def MemoryLayout.toMap (M : MemoryLayout w) : Read.MemoryMap where
  uintptrMax := 2 ^ w - 1
  nativeSim := M.nativeSim
  ram := M.ram.map fun R => (R.base.toNat, R.last.toNat)
  flash := M.flash.map fun R => (R.base.toNat, R.last.toNat)

theorem withinRegion_toNat (region : Option (Region w))
    (hfits : addr.toNat + size.toNat < 2 ^ w) :
    withinRegion region addr size =
      match region.map fun R => (R.base.toNat, R.last.toNat) with
      | some (first, last) => decide (first ≤ addr.toNat ∧ addr.toNat + size.toNat ≤ last)
      | none => false := by
  cases region with
  | none => rfl
  | some R =>
    simp only [withinRegion, Option.map_some, BitVec.le_def, toNat_add_of_fits hfits,
      Bool.decide_and]

/-- **The reads' check is this one**, on addresses and sizes of the
machine's width. -/
theorem isMemoryAddressValid_toNat (readonly : Bool) :
    Read.isMemoryAddressValid M.toMap addr.toNat size.toNat readonly =
      isMemoryAddressValid M addr size readonly := by
  have hsize := size.isLt
  have hguard : M.toMap.uintptrMax - size.toNat < addr.toNat ↔
      BitVec.allOnes w - size < addr := by
    have hiff := not_congr (not_allOnes_sub_lt_iff (a := addr) (n := size))
    rw [not_not] at hiff
    rw [hiff]
    show 2 ^ w - 1 - size.toNat < addr.toNat ↔ _
    omega
  rw [Read.isMemoryAddressValid, isMemoryAddressValid]
  by_cases hwrap : BitVec.allOnes w - size < addr
  · rw [if_pos hwrap, if_pos (hguard.mpr hwrap)]
  · have hfits := not_allOnes_sub_lt_iff.mp hwrap
    have hram := withinRegion_toNat M.ram hfits
    have hflash := withinRegion_toNat M.flash hfits
    rw [if_neg hwrap, if_neg (mt hguard.mp hwrap), hram, hflash]
    obtain ⟨nativeSim, ram, flash⟩ := M
    cases ram <;> cases flash <;> cases readonly <;> simp [MemoryLayout.toMap]

end Admitted

/-- 128 KiB of RAM and 512 KiB of flash. -/
def boardLayout : MemoryLayout 32 where
  nativeSim := false
  ram := some ⟨0x20000000, 0x20000, by decide⟩
  flash := some ⟨0x08000000, 0x80000, by decide⟩

/-- The last byte of RAM may be written, and with the one after it it may
not. -/
theorem udsCheckDefaultMemoryByAddr_iff_last :
    udsCheckDefaultMemoryByAddrWrite boardLayout 0x2001FFFF 1 false = (.ok, true) ∧
      udsCheckDefaultMemoryByAddrWrite boardLayout 0x2001FFFF 2 false =
        (.requestOutOfRange, false) := by
  refine ⟨(udsCheckDefaultMemoryByAddr_iff (M := boardLayout) rfl 0x2001FFFF 1 false).2.2.1.mpr
    ⟨by decide, by decide, _, rfl, (wordRange_subset_iff (by decide)).mpr (by decide)⟩,
    (udsCheckDefaultMemoryByAddr_iff (M := boardLayout) rfl 0x2001FFFF 2 false).2.2.2.mpr ?_⟩
  rintro ⟨-, -, R, hR, hsub⟩
  cases hR
  exact absurd ((wordRange_subset_iff (by decide)).mp hsub).2 (by decide)

end Memory

end Uds

end Ardep
