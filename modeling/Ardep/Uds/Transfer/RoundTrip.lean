import Ardep.Common.CellStore
import Ardep.Uds.Transfer.Start
/-!
# Transfer — what is downloaded is what is uploaded

A download block is written as whole write blocks and one padded tail,
and the cursor moves by the unpadded length. Padding never lands on data
because of the driver: a block that follows a partial one starts at an
offset that is no multiple of the write block size, and the write there
fails. `Downloading` and `Uploading` say what the flash holds part-way
through each direction; `continueDownload_downloading` and
`continueUpload_uploading` are their steps.
-/

namespace Ardep

namespace Uds

namespace Transfer

/-- **What is asked of the flash driver.** `contents` is the flash as the
platform's state has it. A write off the block grid or out of the device
fails and does nothing, a successful write to erased cells stores its
bytes, and a read inside the device returns what is stored. -/
structure Platform.FlashLawful {w : ℕ} {σ : Type} (P : Platform w σ)
    (contents : σ → ℕ → UInt8) (size : ℕ) : Prop where
  size_lt : size < 2 ^ w
  write_refused : ∀ off bytes t,
    (¬ P.flashWriteBlockSize ∣ off ∨ ¬ P.flashWriteBlockSize ∣ bytes.length ∨
      size < off + bytes.length) →
    (P.flashWrite off bytes t).1 ≠ 0 ∧ contents (P.flashWrite off bytes t).2 = contents t
  write_stores : ∀ off bytes t, (P.flashWrite off bytes t).1 = 0 →
    (∀ i, off ≤ i → i < off + bytes.length → contents t i = 0xFF) →
    contents (P.flashWrite off bytes t).2 = store (contents t) off bytes
  read_returns : ∀ off len t, off + len ≤ size →
    (P.flashRead off len t).1 = .ok (readRange (contents t) off len) ∧
      contents (P.flashRead off len t).2 = contents t

variable {cfg : Config} {σ : Type} {P : Platform cfg.wordBits σ}
variable {s s' : System cfg.wordBits σ}
variable {contents : σ → ℕ → UInt8} {size : ℕ}

/-- The handler as a step function. -/
abbrev step (cfg : Config) {σ : Type} (P : Platform cfg.wordBits σ)
    (s : System cfg.wordBits σ) (e : Event cfg.wordBits) :
    Option (Answer × System cfg.wordBits σ) :=
  udsActionUploadDownload cfg P e s

/-- A successful write is on the grid and in the device. -/
theorem Platform.FlashLawful.of_write {w : ℕ} {P : Platform w σ} (h : P.FlashLawful contents size)
    {off : ℕ} {bytes : List UInt8} {t t' : σ} (hw : P.flashWrite off bytes t = (0, t')) :
    P.flashWriteBlockSize ∣ off ∧ P.flashWriteBlockSize ∣ bytes.length ∧
      off + bytes.length ≤ size := by
  by_contra hc
  have hrc : (P.flashWrite off bytes t).1 = 0 := by rw [hw]
  refine (h.write_refused off bytes t ?_).1 hrc
  by_cases h1 : P.flashWriteBlockSize ∣ off
  · by_cases h2 : P.flashWriteBlockSize ∣ bytes.length
    · exact Or.inr (Or.inr (by by_contra hle; exact hc ⟨h1, h2, by omega⟩))
    · exact Or.inr (Or.inl h2)
  · exact Or.inl h1

/-- A successful write to erased cells stores its bytes. -/
theorem Platform.FlashLawful.contents_of_write {w : ℕ} {P : Platform w σ}
    (h : P.FlashLawful contents size) {off : ℕ} {bytes : List UInt8} {t t' : σ}
    (hw : P.flashWrite off bytes t = (0, t'))
    (herased : ∀ i, off ≤ i → i < off + bytes.length → i < size → contents t i = 0xFF) :
    contents t' = store (contents t) off bytes := by
  have hin := (h.of_write hw).2.2
  have hstored := h.write_stores off bytes t (by rw [hw])
    fun i h1 h2 => herased i h1 h2 (by omega)
  rwa [hw] at hstored

/-- A cursor moved by a length, as a number, where the sum does not wrap. -/
theorem toNat_add_ofNat {w : ℕ} {off : BitVec w} {len : ℕ} (h : off.toNat + len < 2 ^ w) :
    (off + BitVec.ofNat w len).toNat = off.toNat + len := by
  rw [BitVec.toNat_add, BitVec.toNat_ofNat, Nat.mod_eq_of_lt (a := len) (by omega),
    Nat.mod_eq_of_lt h]

/-! ## One download block -/

/-- The writes of one block from `off` on: its whole write blocks, then
the padded tail, each left out where it is empty. -/
def BlockWritten {w : ℕ} (P : Platform w σ) (blockSize : ℕ) (off : BitVec w)
    (data : List UInt8) (t t' : σ) : Prop :=
  let overflow := data.length % blockSize
  let first := data.length - overflow
  ∃ t₁,
    (first = 0 ∧ t₁ = t ∨
      0 < first ∧ P.flashWrite off.toNat (data.take first) t = (0, t₁)) ∧
    (overflow = 0 ∧ t' = t₁ ∨
      overflow ≠ 0 ∧ P.flashWrite (off + BitVec.ofNat w first).toNat
        (lastBytes blockSize (data.drop first)) t₁ = (0, t'))

/-- **A positively answered block** is in range, its writes have all
succeeded, and the cursor has moved by its length. -/
theorem continueDownload_ok {args : TransferDataArgs}
    (h : (continueDownload cfg P args s).1.code = .ok) :
    0 < args.data.length ∧
      s.updown.currentAddress + BitVec.ofNat cfg.wordBits args.data.length ≤
        s.updown.startAddress + s.updown.totalSize ∧
      ∃ world, BlockWritten P s.updown.writeBlockSize s.updown.currentAddress args.data
          s.world world ∧
        (continueDownload cfg P args s).2 =
          { s with
            updown := { s.updown with
              currentAddress :=
                s.updown.currentAddress + BitVec.ofNat cfg.wordBits args.data.length }
            world := world } := by
  unfold continueDownload at h ⊢
  by_cases hrange : args.data.length = 0 ∨ s.updown.startAddress + s.updown.totalSize <
      s.updown.currentAddress + BitVec.ofNat cfg.wordBits args.data.length
  · simp only [if_pos hrange] at h
    exact absurd h (by decide)
  · set overflow := args.data.length % s.updown.writeBlockSize with ho
    set first := args.data.length - overflow with hf
    -- the two writes, each left out where it has no bytes
    rcases hw1 : (if 0 < first then
        P.flashWrite s.updown.currentAddress.toNat (args.data.take first) s.world
      else (0, s.world)) with ⟨rc1, t₁⟩
    rcases hw2 : (if overflow ≠ 0 then
        P.flashWrite (s.updown.currentAddress + BitVec.ofNat cfg.wordBits first).toNat
          (lastBytes s.updown.writeBlockSize (args.data.drop first)) t₁
      else (0, t₁)) with ⟨rc2, t₂⟩
    simp only [if_neg hrange, ← ho, ← hf, hw1] at h ⊢
    by_cases hrc1 : rc1 = 0
    · subst hrc1
      simp only [ne_eq, not_true_eq_false, if_false] at hw2 h ⊢
      simp only [hw2] at h ⊢
      by_cases hrc2 : rc2 = 0
      · subst hrc2
        rw [not_or] at hrange
        simp only [not_true_eq_false, if_false]
        refine ⟨Nat.pos_of_ne_zero hrange.1, BitVec.not_lt.mp hrange.2, t₂, ⟨t₁, ?_, ?_⟩, rfl⟩
        · by_cases hpos : 0 < first
          · rw [if_pos hpos] at hw1
            exact Or.inr ⟨hpos, hw1⟩
          · rw [if_neg hpos] at hw1
            exact Or.inl ⟨by omega, (Prod.mk.inj hw1).2.symm⟩
        · by_cases hzero : overflow = 0
          · rw [if_neg (not_not.mpr hzero)] at hw2
            exact Or.inl ⟨hzero, (Prod.mk.inj hw2).2.symm⟩
          · rw [if_pos hzero] at hw2
            exact Or.inr ⟨hzero, hw2⟩
      · simp [hrc2] at h
    · simp [hrc1] at h

/-- And a block in range whose writes all succeed is answered so. -/
theorem continueDownload_of_blockWritten {args : TransferDataArgs} {world : σ}
    (hpos : 0 < args.data.length)
    (hrange : s.updown.currentAddress + BitVec.ofNat cfg.wordBits args.data.length ≤
      s.updown.startAddress + s.updown.totalSize)
    (h : BlockWritten P s.updown.writeBlockSize s.updown.currentAddress args.data s.world world) :
    continueDownload cfg P args s =
      ({ code := .ok }, { s with
        updown := { s.updown with
          currentAddress := s.updown.currentAddress + BitVec.ofNat cfg.wordBits args.data.length }
        world := world }) := by
  obtain ⟨t₁, hfirst, hlast⟩ := h
  unfold continueDownload
  set overflow := args.data.length % s.updown.writeBlockSize with ho
  set first := args.data.length - overflow with hf
  have hw1 : (if 0 < first then
      P.flashWrite s.updown.currentAddress.toNat (args.data.take first) s.world
      else (0, s.world)) = (0, t₁) := by
    rcases hfirst with ⟨hnone, rfl⟩ | ⟨hsome, hwrite⟩
    · exact if_neg hnone.not_gt
    · rw [if_pos hsome, hwrite]
  have hw2 : (if overflow ≠ 0 then
      P.flashWrite (s.updown.currentAddress + BitVec.ofNat cfg.wordBits first).toNat
        (lastBytes s.updown.writeBlockSize (args.data.drop first)) t₁
      else (0, t₁)) = (0, world) := by
    rcases hlast with ⟨hnone, rfl⟩ | ⟨hsome, hwrite⟩
    · exact if_neg (not_not_intro hnone)
    · rw [if_pos hsome, hwrite]
  have hin : ¬ (args.data.length = 0 ∨ s.updown.startAddress + s.updown.totalSize <
      s.updown.currentAddress + BitVec.ofNat cfg.wordBits args.data.length) :=
    not_or.mpr ⟨hpos.ne', BitVec.not_lt.mpr hrange⟩
  simp only [if_neg hin, ← ho, ← hf, hw1, hw2]
  rfl

theorem length_lastBytes {n : ℕ} {rest : List UInt8} (h : rest.length ≤ n) :
    (lastBytes n rest).length = n := by
  simp [lastBytes, h]

/-! ## Bytes filled up to whole write blocks -/

/-- Bytes filled up to whole write blocks. -/
def padded (w : ℕ) (data : List UInt8) : List UInt8 :=
  data ++ List.replicate (roundUp data.length w - data.length) 0xFF

theorem length_padded {w : ℕ} (hw : 0 < w) (data : List UInt8) :
    (padded w data).length = roundUp data.length w := by
  have hle := le_roundUp (n := data.length) hw
  unfold padded
  rw [List.length_append, List.length_replicate]
  omega

/-- Whole write blocks in front are not padded. -/
theorem padded_append {w : ℕ} (hw : 0 < w) {front rest : List UInt8} (h : w ∣ front.length) :
    padded w (front ++ rest) = front ++ padded w rest := by
  unfold padded
  rw [List.length_append, roundUp_add hw h, List.append_assoc]
  congr 3
  omega

@[simp] theorem padded_nil {w : ℕ} (hw : 0 < w) : padded w [] = [] := by
  unfold padded
  rw [List.length_nil, roundUp_of_dvd hw (Nat.dvd_zero w)]
  rfl

/-- Whole write blocks are not padded. -/
theorem padded_of_dvd {w : ℕ} (hw : 0 < w) {data : List UInt8} (h : w ∣ data.length) :
    padded w data = data := by
  have happend : padded w (data ++ []) = data ++ padded w [] := padded_append hw h
  rwa [List.append_nil, padded_nil hw, List.append_nil] at happend

/-- The two writes of a block are its padded bytes. -/
theorem padded_eq {w : ℕ} (hw : 0 < w) (data : List UInt8) :
    padded w data = data.take (data.length - data.length % w) ++
      if data.length % w ≠ 0 then lastBytes w (data.drop (data.length - data.length % w))
      else [] := by
  have hmod := Nat.mod_lt data.length hw
  have hle := Nat.mod_le data.length w
  have hdvd : w ∣ data.length - data.length % w := Nat.dvd_sub_mod data.length
  have htake : (data.take (data.length - data.length % w)).length =
      data.length - data.length % w := by
    rw [List.length_take]
    omega
  have hdrop : (data.drop (data.length - data.length % w)).length = data.length % w := by
    rw [List.length_drop]
    omega
  conv_lhs => rw [← List.take_append_drop (data.length - data.length % w) data]
  rw [padded_append hw (by rw [htake]; exact hdvd)]
  congr 1
  unfold padded lastBytes
  rw [hdrop]
  split_ifs with hzero
  · rw [roundUp_of_lt (by omega) hmod]
  · have hnil : data.drop (data.length - data.length % w) = [] :=
      List.length_eq_zero_iff.mp (by omega)
    rw [hnil, not_not.mp hzero, roundUp_of_dvd hw (Nat.dvd_zero w)]
    rfl

/-- The second write of a block, left out where there is no tail. -/
theorem length_padded_tail {w : ℕ} (hw : 0 < w) (data : List UInt8) :
    data.length - data.length % w +
      (if data.length % w ≠ 0 then lastBytes w (data.drop (data.length - data.length % w))
        else []).length = roundUp data.length w := by
  have htake : (data.take (data.length - data.length % w)).length =
      data.length - data.length % w := by
    rw [List.length_take]
    omega
  have hlength := congrArg List.length (padded_eq hw data)
  rw [length_padded hw, List.length_append, htake] at hlength
  exact hlength.symm

/-- Written one after the other they are stored as one. -/
theorem store_padded {w : ℕ} (hw : 0 < w) (c : ℕ → UInt8) (off : ℕ) (data : List UInt8) :
    store (store c off (data.take (data.length - data.length % w)))
        (off + (data.length - data.length % w))
        (if data.length % w ≠ 0 then lastBytes w (data.drop (data.length - data.length % w))
          else []) =
      store c off (padded w data) := by
  have htake : (data.take (data.length - data.length % w)).length =
      data.length - data.length % w := by
    rw [List.length_take]
    omega
  rw [padded_eq hw, ← store_append, htake]

/-! ## What a block stores -/

section Block

variable {off : BitVec cfg.wordBits} {data : List UInt8} {t t' : σ}

/-- **Where a block can be written.** Its offset is on the write block
grid and its bytes are in the device, whichever of the two writes was
made; so the tail's offset does not wrap. -/
theorem BlockWritten.placed (hlaw : P.FlashLawful contents size) (hpos : 0 < data.length)
    (h : BlockWritten P P.flashWriteBlockSize off data t t') :
    P.flashWriteBlockSize ∣ off.toNat ∧ off.toNat + data.length ≤ size ∧
      (off + BitVec.ofNat cfg.wordBits
        (data.length - data.length % P.flashWriteBlockSize)).toNat =
        off.toNat + (data.length - data.length % P.flashWriteBlockSize) := by
  obtain ⟨t₁, hw1, hw2⟩ := h
  set b := P.flashWriteBlockSize
  set r := data.length % b
  set f := data.length - r
  have hrb : r < b := Nat.mod_lt _ P.flashWriteBlockSize_pos
  have hrL : r ≤ data.length := Nat.mod_le _ _
  have hbf : b ∣ f := Nat.dvd_sub_mod data.length
  have hsize := hlaw.size_lt
  have hfirst : 0 < f → b ∣ off.toNat ∧ off.toNat + f ≤ size := by
    intro hfpos
    obtain ⟨h0, -⟩ | ⟨-, hw⟩ := hw1
    · omega
    · obtain ⟨hgrid, -, hin⟩ := hlaw.of_write hw
      rw [List.length_take, Nat.min_eq_left (by omega)] at hin
      exact ⟨hgrid, hin⟩
  have hoff : (off + BitVec.ofNat cfg.wordBits f).toNat = off.toNat + f := by
    refine toNat_add_ofNat ?_
    rcases Nat.eq_zero_or_pos f with h0 | hfpos
    · have := off.isLt
      omega
    · have := (hfirst hfpos).2
      omega
  -- without a tail there was a first write; a tail was written at a whole number of blocks
  by_cases hr0 : r = 0
  · obtain ⟨hgrid, hin⟩ := hfirst (by omega)
    exact ⟨hgrid, by omega, hoff⟩
  · obtain ⟨h0, -⟩ | ⟨-, hw⟩ := hw2
    · exact absurd h0 hr0
    · obtain ⟨hgrid, -, hin⟩ := hlaw.of_write hw
      rw [hoff] at hgrid hin
      rw [length_lastBytes (by rw [List.length_drop]; omega)] at hin
      exact ⟨(Nat.dvd_add_left hbf).mp hgrid, by omega, hoff⟩

/-- **A block stores its padded bytes**, over erased cells. -/
theorem BlockWritten.contents_eq (hlaw : P.FlashLawful contents size) (hpos : 0 < data.length)
    (h : BlockWritten P P.flashWriteBlockSize off data t t')
    (herased : ∀ i, off.toNat ≤ i → i < off.toNat + roundUp data.length P.flashWriteBlockSize →
      i < size → contents t i = 0xFF) :
    contents t' = store (contents t) off.toNat (padded P.flashWriteBlockSize data) := by
  obtain ⟨-, -, hoff⟩ := h.placed hlaw hpos
  obtain ⟨t₁, hw1, hw2⟩ := h
  have hbpos := P.flashWriteBlockSize_pos
  have htail := length_padded_tail hbpos data
  have htake : (data.take (data.length - data.length % P.flashWriteBlockSize)).length =
      data.length - data.length % P.flashWriteBlockSize := by
    rw [List.length_take]
    omega
  have hround := le_roundUp (n := data.length) hbpos
  have hfront : contents t₁ = store (contents t) off.toNat
      (data.take (data.length - data.length % P.flashWriteBlockSize)) := by
    obtain ⟨h0, rfl⟩ | ⟨-, hw⟩ := hw1
    · rw [h0, List.take_zero, store_nil]
    · exact hlaw.contents_of_write hw fun i h1 h2 =>
        herased i h1 (by rw [htake] at h2; omega)
  -- the tail is written behind the whole write blocks, where the cells are still erased
  rw [← store_padded hbpos, ← hfront]
  obtain ⟨h0, rfl⟩ | ⟨hr0, hw⟩ := hw2
  · rw [if_neg (not_not.mpr h0), store_nil]
  · rw [hoff] at hw
    rw [if_pos hr0] at htail ⊢
    refine hlaw.contents_of_write hw fun i h1 h2 hi => ?_
    rw [hfront, store_of_ge (by rw [htake]; exact h1)]
    exact herased i (by omega) (by omega) hi

/-- **What a block leaves in the flash**, written over erased cells: its
bytes at its offset, nothing changed before it, and nothing after it
where it is a whole number of write blocks. -/
theorem BlockWritten.stored (hlaw : P.FlashLawful contents size) (hpos : 0 < data.length)
    (h : BlockWritten P P.flashWriteBlockSize off data t t')
    (herased : ∀ i, off.toNat ≤ i → i < off.toNat + roundUp data.length P.flashWriteBlockSize →
      i < size → contents t i = 0xFF) :
    readRange (contents t') off.toNat data.length = data ∧
      (∀ i, i < off.toNat → contents t' i = contents t i) ∧
      (P.flashWriteBlockSize ∣ data.length → ∀ i, off.toNat + data.length ≤ i →
        contents t' i = contents t i) := by
  have hbpos := P.flashWriteBlockSize_pos
  rw [h.contents_eq hlaw hpos herased]
  refine ⟨?_, fun i hi => store_of_lt hi, fun hdvd i hi => ?_⟩
  · have hround := le_roundUp (n := data.length) hbpos
    rw [← readRange_take hround, readRange_store_self (length_padded hbpos data), padded,
      List.take_left]
  · rw [padded_of_dvd hbpos hdvd, store_of_ge hi]

end Block

/-! ## A download in progress -/

/-- **Part-way through a download.** The bytes `d` answered positively so
far lie at the start address and the cursor stands after them. While they
are a whole number of write blocks, the rest of the range up to the end
of its last write block is still erased. -/
structure Downloading (P : Platform cfg.wordBits σ) (contents : σ → ℕ → UInt8) (size : ℕ)
    (addr total : BitVec cfg.wordBits) (d : List UInt8) (s : System cfg.wordBits σ) : Prop where
  state : s.updown.state = .downloadInProgress
  file : s.file.mode = .idle
  closed : s.file.fileOpen = false
  start : s.updown.startAddress = addr
  announced : s.updown.totalSize = total
  block : s.updown.writeBlockSize = P.flashWriteBlockSize
  cursor : s.updown.currentAddress.toNat = addr.toNat + d.length
  stored : readRange (contents s.world) addr.toNat d.length = d
  fits : d ≠ [] → P.flashWriteBlockSize ∣ addr.toNat ∧ addr.toNat + d.length ≤ size
  erased : P.flashWriteBlockSize ∣ d.length → ∀ i, addr.toNat + d.length ≤ i →
    i < addr.toNat + roundUp total.toNat P.flashWriteBlockSize → i < size →
    contents s.world i = 0xFF

/-- **A positively answered block extends what is stored.** It starts on
the write block grid, so the bytes before it are whole write blocks and
the cells it covers are erased; and its padding lies past its own bytes. -/
theorem continueDownload_downloading (hlaw : P.FlashLawful contents size)
    {addr total : BitVec cfg.wordBits} {d : List UInt8} {args : TransferDataArgs}
    (hd : Downloading P contents size addr total d s)
    (hok : (continueDownload cfg P args s).1.code = .ok) :
    Downloading P contents size addr total (d ++ args.data) (continueDownload cfg P args s).2 := by
  obtain ⟨hpos, hrange, world, hwritten, heq⟩ := continueDownload_ok hok
  rw [heq]
  rw [hd.start, hd.announced] at hrange
  rw [hd.block] at hwritten
  have hbpos := P.flashWriteBlockSize_pos
  obtain ⟨hgrid, hin, -⟩ := hwritten.placed hlaw hpos
  rw [hd.cursor] at hgrid hin
  have hgridd : P.flashWriteBlockSize ∣ addr.toNat ∧ P.flashWriteBlockSize ∣ d.length := by
    by_cases hnil : d = []
    · subst hnil; simpa using hgrid
    · have haddr := (hd.fits hnil).1
      exact ⟨haddr, (Nat.dvd_add_right haddr).mp hgrid⟩
  have hcursor : (s.updown.currentAddress + BitVec.ofNat cfg.wordBits args.data.length).toNat =
      addr.toNat + d.length + args.data.length := by
    have hwrap := lt_of_le_of_lt hin hlaw.size_lt
    rw [toNat_add_ofNat (by rw [hd.cursor]; exact hwrap), hd.cursor]
  -- the block ends inside the announced range, which does not wrap below it
  have htotal : d.length + args.data.length ≤ total.toNat := by
    have hle := BitVec.le_def.mp hrange
    rw [hcursor, BitVec.toNat_add] at hle
    have := Nat.mod_le (addr.toNat + total.toNat) (2 ^ cfg.wordBits)
    omega
  have hround : d.length + roundUp args.data.length P.flashWriteBlockSize ≤
      roundUp total.toNat P.flashWriteBlockSize := by
    rw [← roundUp_add hbpos hgridd.2]
    exact roundUp_mono htotal
  obtain ⟨hblock, hbefore, hafter⟩ := hwritten.stored hlaw hpos
    (fun i h1 h2 hi => hd.erased hgridd.2 i (by rw [hd.cursor] at h1; exact h1)
      (by rw [hd.cursor] at h2; omega) hi)
  rw [hd.cursor] at hblock hbefore hafter
  refine ⟨hd.state, hd.file, hd.closed, hd.start, hd.announced, hd.block, ?_, ?_, ?_, ?_⟩
  · show (s.updown.currentAddress + BitVec.ofNat cfg.wordBits args.data.length).toNat = _
    rw [hcursor, List.length_append]; omega
  · show readRange (contents world) addr.toNat (d ++ args.data).length = d ++ args.data
    rw [List.length_append, readRange_add, hblock,
      readRange_congr (d := contents s.world) (fun i _ hi => hbefore i hi), hd.stored]
  · intro _
    rw [List.length_append]
    exact ⟨hgridd.1, by omega⟩
  · intro hdvd i h1 h2 hi
    rw [List.length_append] at hdvd h1
    show contents world i = 0xFF
    rw [hafter ((Nat.dvd_add_right hgridd.2).mp hdvd) i (by omega)]
    exact hd.erased hgridd.2 i (by omega) h2 hi

/-- While a flash download runs, a TransferData event is the download's. -/
theorem step_transferData_download (hs : s.updown.state = .downloadInProgress)
    (hf : s.file.mode = .idle) (args : TransferDataArgs) :
    step cfg P s (.transferData args) = some (continueDownload cfg P args s) := by
  simp [step, udsActionUploadDownload, Event.isStart, udsFileTransferIsActive, hs, hf]

/-- **A run of positively answered blocks** leaves their concatenation in
the flash. -/
theorem runs_downloading (hlaw : P.FlashLawful contents size) {addr total : BitVec cfg.wordBits} :
    ∀ (blocks : List TransferDataArgs) (d : List UInt8) (s s' : System cfg.wordBits σ)
      (as : List Answer),
      Downloading P contents size addr total d s →
      runs (step cfg P) s (blocks.map Event.transferData) = some (as, s') →
      (∀ a ∈ as, a.code = .ok) →
      Downloading P contents size addr total (d ++ (blocks.map (·.data)).flatten) s' := by
  intro blocks
  induction blocks with
  | nil =>
    intro d s s' as hd hrun _
    simp only [List.map_nil, runs_nil, Option.some.injEq, Prod.mk.injEq] at hrun
    obtain ⟨-, rfl⟩ := hrun
    simpa using hd
  | cons args blocks ih =>
    intro d s s' as hd hrun hok
    rw [List.map_cons, runs_cons_eq_some] at hrun
    obtain ⟨a, s1, as', hstep, hrest, rfl⟩ := hrun
    rw [step_transferData_download hd.state hd.file, Option.some.injEq] at hstep
    have ha : (continueDownload cfg P args s).1.code = .ok := by
      rw [hstep]; exact hok a List.mem_cons_self
    have hd' := continueDownload_downloading hlaw hd ha
    rw [hstep] at hd'
    have := ih _ _ _ _ hd' hrest fun b hb => hok b (List.mem_cons_of_mem _ hb)
    simpa using this

/-! ## An upload in progress -/

/-- **Part-way through an upload** of the bytes `d`: `m` of them have been
handed over and the cursor stands after them. -/
structure Uploading (contents : σ → ℕ → UInt8) (size : ℕ) (d : List UInt8) (m : ℕ)
    (s : System cfg.wordBits σ) : Prop where
  state : s.updown.state = .uploadInProgress
  file : s.file.mode = .idle
  announced : s.updown.totalSize.toNat = d.length
  cursor : s.updown.currentAddress.toNat = s.updown.startAddress.toNat + m
  le : m ≤ d.length
  fits : s.updown.startAddress.toNat + d.length ≤ size
  stored : readRange (contents s.world) s.updown.startAddress.toNat d.length = d

/-- The cells from the cursor on are the bytes still to be handed over. -/
theorem Uploading.readRange_cursor {d : List UInt8} {m k : ℕ} (hu : Uploading contents size d m s)
    (hk : m + k ≤ d.length) :
    readRange (contents s.world) s.updown.currentAddress.toNat k = (d.drop m).take k := by
  have hslice : ((readRange (contents s.world) s.updown.startAddress.toNat d.length).drop m).take
      k = readRange (contents s.world) (s.updown.startAddress.toNat + m) k :=
    readRange_drop_take hk
  rw [hu.cursor, ← hslice, hu.stored]

/-- The length of the next block of an upload. -/
def uploadChunk (cfg : Config) (args : TransferDataArgs) (remaining : ℕ) : ℕ :=
  min cfg.uploadMaxPayloadSize (min args.maxRespLen.toNat remaining)

/-- What is left of the range from the cursor on, as the handler computes
it. -/
def uploadLeft {w : ℕ} (u : UploadDownloadState w) : BitVec w :=
  u.startAddress + u.totalSize - u.currentAddress

/-- A block of a running upload, by what the flash driver gives. -/
theorem continueUpload_eq (hs : s.updown.state = .uploadInProgress) (r : TransferDataArgs) :
    continueUpload cfg P r s =
      if s.updown.startAddress + s.updown.totalSize ≤ s.updown.currentAddress then
        ({ code := .requestSequenceError }, s)
      else
        match P.flashRead s.updown.currentAddress.toNat
          (uploadChunk cfg r (uploadLeft s.updown).toNat) s.world with
        | (.error _, world) => ({ code := .generalProgrammingFailure }, { s with world := world })
        | (.ok buffer, world) =>
          match r.copyResponse with
          | none => ({ code := .misuse }, { s with world := world })
          | some _ =>
            ({ code := .ok, copied := some buffer },
              { s with
                updown := { s.updown with
                  currentAddress := s.updown.currentAddress +
                    BitVec.ofNat _ (uploadChunk cfg r (uploadLeft s.updown).toNat) }
                world := world }) := by
  simp only [continueUpload, hs, ne_eq, not_true_eq_false, if_false]
  rfl

/-- **A step of an upload.** Past the end it is answered out of sequence;
before it, the next bytes are handed over and the cursor moves past
them. -/
theorem continueUpload_uploading (hlaw : P.FlashLawful contents size) {d : List UInt8} {m : ℕ}
    {args : TransferDataArgs} (hu : Uploading contents size d m s)
    (hcopy : args.copyResponse.isSome) :
    (m = d.length ∧
      continueUpload cfg P args s = ({ code := .requestSequenceError }, s)) ∨
    (m < d.length ∧ ∃ s',
      continueUpload cfg P args s =
        ({ code := .ok, copied := some ((d.drop m).take (uploadChunk cfg args (d.length - m))) },
          s') ∧
      Uploading contents size d (m + uploadChunk cfg args (d.length - m)) s') := by
  have hsize := hlaw.size_lt
  have hfits := hu.fits
  have hend : (s.updown.startAddress + s.updown.totalSize).toNat =
      s.updown.startAddress.toNat + d.length := by
    rw [BitVec.toNat_add, hu.announced]
    exact Nat.mod_eq_of_lt (by omega)
  rcases Nat.eq_or_lt_of_le hu.le with hm | hm
  · refine Or.inl ⟨hm, ?_⟩
    have hpast : s.updown.startAddress + s.updown.totalSize ≤ s.updown.currentAddress := by
      rw [BitVec.le_def, hend, hu.cursor, hm]
    rw [continueUpload_eq hu.state, if_pos hpast]
  · refine Or.inr ⟨hm, ?_⟩
    have hbefore : ¬ s.updown.startAddress + s.updown.totalSize ≤ s.updown.currentAddress := by
      rw [BitVec.le_def, hend, hu.cursor]; omega
    have hleft : (uploadLeft s.updown).toNat = d.length - m := by
      have hle : s.updown.currentAddress ≤ s.updown.startAddress + s.updown.totalSize := by
        rw [BitVec.le_def, hend, hu.cursor]; omega
      rw [uploadLeft, BitVec.toNat_sub_of_le hle, hend, hu.cursor]
      omega
    have hk : uploadChunk cfg args (d.length - m) ≤ d.length - m := by
      unfold uploadChunk; omega
    obtain ⟨hread, hsame⟩ := hlaw.read_returns s.updown.currentAddress.toNat
      (uploadChunk cfg args (d.length - m)) s.world (by rw [hu.cursor]; omega)
    obtain ⟨f, hf⟩ := Option.isSome_iff_exists.mp hcopy
    rcases hpair : P.flashRead s.updown.currentAddress.toNat (uploadChunk cfg args (d.length - m))
      s.world with ⟨res, world⟩
    rw [hpair] at hread hsame
    simp only at hread hsame
    subst hread
    have hbytes := hu.readRange_cursor (k := uploadChunk cfg args (d.length - m)) (by omega)
    refine ⟨{ s with
        updown := { s.updown with
          currentAddress := s.updown.currentAddress +
            BitVec.ofNat _ (uploadChunk cfg args (d.length - m)) }
        world := world }, ?_, ?_⟩
    · rw [continueUpload_eq hu.state, if_neg hbefore, hleft, hpair, hf, hbytes]
    · refine ⟨hu.state, hu.file, hu.announced, ?_, by omega, hu.fits, ?_⟩
      · show (s.updown.currentAddress + BitVec.ofNat _ _).toNat = s.updown.startAddress.toNat + _
        rw [toNat_add_ofNat (by rw [hu.cursor]; omega), hu.cursor]
        omega
      · show readRange (contents world) s.updown.startAddress.toNat d.length = d
        rw [hsame]
        exact hu.stored

/-- While a flash upload runs, a TransferData event is the upload's. -/
theorem step_transferData_upload (hs : s.updown.state = .uploadInProgress)
    (hf : s.file.mode = .idle) (args : TransferDataArgs) :
    step cfg P s (.transferData args) = some (continueUpload cfg P args s) := by
  simp [step, udsActionUploadDownload, Event.isStart, udsFileTransferIsActive, hs, hf]

/-- The blocks a run handed to `copyResponse`, joined. -/
def copiedBytes (as : List Answer) : List UInt8 := (as.filterMap (·.copied)).flatten

/-- **A run of an upload** hands over the bytes in order, and each request
with room for a byte takes at least one while there are any left. -/
theorem runs_uploading (hlaw : P.FlashLawful contents size) {d : List UInt8} :
    ∀ (reqs : List TransferDataArgs) (m : ℕ) (s s' : System cfg.wordBits σ) (as : List Answer),
      Uploading contents size d m s →
      (∀ r ∈ reqs, r.copyResponse.isSome) →
      runs (step cfg P) s (reqs.map Event.transferData) = some (as, s') →
      ∃ m', Uploading contents size d m' s' ∧ m ≤ m' ∧
        copiedBytes as = (d.drop m).take (m' - m) ∧
        (0 < cfg.uploadMaxPayloadSize → (∀ r ∈ reqs, 1 ≤ r.maxRespLen.toNat) →
          min d.length (m + reqs.length) ≤ m') := by
  intro reqs
  induction reqs with
  | nil =>
    intro m s s' as hu _ hrun
    simp only [List.map_nil, runs_nil, Option.some.injEq, Prod.mk.injEq] at hrun
    obtain ⟨rfl, rfl⟩ := hrun
    exact ⟨m, hu, le_rfl, by simp [copiedBytes], fun _ _ => by simp⟩
  | cons r reqs ih =>
    intro m s s' as hu hcopy hrun
    rw [List.map_cons, runs_cons_eq_some] at hrun
    obtain ⟨a, s1, as', hstep, hrest, rfl⟩ := hrun
    rw [step_transferData_upload hu.state hu.file, Option.some.injEq] at hstep
    have hcopy' : ∀ q ∈ reqs, q.copyResponse.isSome :=
      fun q hq => hcopy q (List.mem_cons_of_mem _ hq)
    rcases continueUpload_uploading hlaw hu (hcopy r List.mem_cons_self) with
      ⟨hm, heq⟩ | ⟨hm, s2, heq, hu'⟩
    · rw [heq, Prod.mk.injEq] at hstep
      obtain ⟨rfl, rfl⟩ := hstep
      obtain ⟨m', hu', hmm, hbytes, -⟩ := ih m s s' as' hu hcopy' hrest
      refine ⟨m', hu', hmm, by simpa [copiedBytes] using hbytes, fun _ _ => ?_⟩
      omega
    · rw [heq, Prod.mk.injEq] at hstep
      obtain ⟨rfl, rfl⟩ := hstep
      obtain ⟨m', hu'', hmm, hbytes, hprog⟩ := ih _ s2 s' as' hu' hcopy' hrest
      set k := uploadChunk cfg r (d.length - m) with hk
      refine ⟨m', hu'', by omega, ?_, fun hpay hroom => ?_⟩
      · have hsplit : m' - m = k + (m' - (m + k)) := by omega
        rw [hsplit, List.take_add, List.drop_drop, ← hbytes]
        simp [copiedBytes]
      · have := hprog hpay fun q hq => hroom q (List.mem_cons_of_mem _ hq)
        have hone : 1 ≤ k := by
          have := hroom r List.mem_cons_self
          rw [hk, uploadChunk]
          omega
        rw [List.length_cons]
        omega

/-! ## Download, exit, upload -/

/-- What an accepted download request has set. -/
theorem startDownload_ok (args : RequestDownloadArgs cfg.wordBits)
    (h : (startDownload cfg P args s).1.code = .ok) :
    (startDownload cfg P args s).2 =
      { s with updown :=
        ⟨.downloadInProgress, normalizeAddress cfg args.addr, normalizeAddress cfg args.addr,
          args.size, P.flashWriteBlockSize⟩ } := by
  revert h
  simp only [startDownload]
  split_ifs <;> intro h <;> first | rfl | exact absurd h (by dsimp only; decide)

/-- What an accepted upload request has set. -/
theorem startUpload_ok (args : RequestUploadArgs cfg.wordBits)
    (h : (startUpload cfg P args s).1.code = .ok) :
    args.size ≠ 0 ∧ (startUpload cfg P args s).2 =
      { s with updown :=
        { s.updown with
          startAddress := normalizeAddress cfg args.addr
          currentAddress := normalizeAddress cfg args.addr
          totalSize := args.size
          state := .uploadInProgress } } := by
  revert h
  simp only [startUpload]
  split_ifs with h1 h2 h3 h4 <;> intro h <;>
    first | exact ⟨h3, rfl⟩ | exact absurd h (by dsimp only; decide)

/-- **An accepted download request** starts a download of nothing yet. -/
theorem step_requestDownload (hexc : Exclusive cfg s) {args : RequestDownloadArgs cfg.wordBits}
    {a : Answer} (hstep : step cfg P s (.requestDownload args) = some (a, s')) (hok : a.code = .ok)
    (herased : ∀ i, (normalizeAddress cfg args.addr).toNat ≤ i →
      i < (normalizeAddress cfg args.addr).toNat +
        roundUp args.size.toNat P.flashWriteBlockSize → i < size → contents s'.world i = 0xFF) :
    Downloading P contents size (normalizeAddress cfg args.addr) args.size [] s' := by
  obtain ⟨s1, hidle, -, hstart⟩ := exists_start_of_ok hexc rfl hstep hok
  have hdownload : startDownload cfg P args s1 = (a, s') := hstart
  have hset := startDownload_ok (P := P) (s := s1) args (by rw [hdownload]; exact hok)
  rw [hdownload] at hset
  simp only at hset
  subst hset
  exact ⟨rfl, hidle.file, hidle.closed, rfl, rfl, rfl, by simp, rfl,
    fun h => absurd rfl h, fun _ i h1 h2 hi => herased i (by simpa using h1) h2 hi⟩

/-- The exit of a flash download resets its record and touches nothing
else. -/
theorem transferExit_of_download (hs : s.updown.state = .downloadInProgress)
    (hf : s.file.mode = .idle) :
    transferExit cfg P s = some (.ok, { s with updown :=
      { s.updown with
        state := .idle, startAddress := 0, currentAddress := 0, totalSize := 0 } }) := by
  have hreset : udsUploadDownloadReset s =
      (.ok, { s with updown :=
        { s.updown with
          state := .idle, startAddress := 0, currentAddress := 0, totalSize := 0 } }) := by
    rw [udsUploadDownloadReset, if_neg (by rw [hs]; decide)]
  cases hcfg : cfg.fileTransfer <;>
    simp [transferExit, udsFileTransferExit, hcfg, hreset, hf, UDSErr.ok,
      UDSErr.requestSequenceError]

/-- **Leaving a download** resets the record and touches nothing else. -/
theorem step_requestTransferExit {addr total : BitVec cfg.wordBits} {d : List UInt8} {a : Answer}
    (hd : Downloading P contents size addr total d s)
    (hstep : step cfg P s .requestTransferExit = some (a, s')) :
    BothIdle s' ∧ s'.world = s.world := by
  have hexit := transferExit_of_download (P := P) hd.state hd.file
  simp only [step, udsActionUploadDownload, Event.isStart, Bool.false_eq_true, if_false, ne_eq,
    not_true_eq_false, false_and, hexit, Option.some.injEq, Prod.mk.injEq] at hstep
  obtain ⟨-, rfl⟩ := hstep
  exact ⟨⟨rfl, hd.file, hd.closed⟩, rfl⟩

/-- **An accepted upload request** for what a download has stored. -/
theorem step_requestUpload (hidle : BothIdle s) {args : RequestUploadArgs cfg.wordBits}
    {a : Answer} {d : List UInt8}
    (hstep : step cfg P s (.requestUpload args) = some (a, s')) (hok : a.code = .ok)
    (hsize : args.size.toNat = d.length)
    (hfits : d ≠ [] → (normalizeAddress cfg args.addr).toNat + d.length ≤ size)
    (hstored : readRange (contents s.world) (normalizeAddress cfg args.addr).toNat d.length = d) :
    Uploading contents size d 0 s' := by
  simp only [step, udsActionUploadDownload, Event.isStart, if_true,
    transferExit_of_bothIdle hidle, ne_eq, not_true_eq_false, and_false, if_false,
    Option.some.injEq] at hstep
  obtain ⟨hne, hset⟩ :=
    startUpload_ok (P := P) (s := s) args (by rw [hstep]; exact hok)
  rw [hstep] at hset
  simp only at hset
  subst hset
  have hdne : d ≠ [] := by
    rintro rfl
    exact hne (BitVec.eq_of_toNat_eq (by simpa using hsize))
  exact ⟨rfl, hidle.file, hsize, rfl, Nat.zero_le _, hfits hdne, hstored⟩

/-- **What is downloaded is what is uploaded.** From any reachable state:
an accepted download request over erased flash, blocks of any lengths that
are all answered positively, a transfer exit, an accepted upload request
of as many bytes at the same address, and requests with room for a byte.
What they hand over is a prefix of the downloaded bytes, and all of them
once the upload is past its end, or after as many requests as there are
bytes. -/
theorem uploaded_eq_downloaded (hlaw : P.FlashLawful contents size)
    {s0 s1 s2 s3 s4 s5 : System cfg.wordBits σ} {a1 a3 a4 : Answer} {as bs : List Answer}
    (down : RequestDownloadArgs cfg.wordBits) (up : RequestUploadArgs cfg.wordBits)
    (blocks reqs : List TransferDataArgs) (hreach : (machine cfg P).Reachable s0)
    (hdown : step cfg P s0 (.requestDownload down) = some (a1, s1)) (hdownok : a1.code = .ok)
    (herased : ∀ i, (normalizeAddress cfg down.addr).toNat ≤ i →
      i < (normalizeAddress cfg down.addr).toNat +
        roundUp down.size.toNat P.flashWriteBlockSize → i < size → contents s1.world i = 0xFF)
    (hblocks : runs (step cfg P) s1 (blocks.map .transferData) = some (as, s2))
    (hblocksok : ∀ a ∈ as, a.code = .ok)
    (hexit : step cfg P s2 .requestTransferExit = some (a3, s3))
    (hup : step cfg P s3 (.requestUpload up) = some (a4, s4)) (hupok : a4.code = .ok)
    (haddr : up.addr = down.addr)
    (hsize : up.size.toNat = (blocks.map (·.data)).flatten.length)
    (hreqs : runs (step cfg P) s4 (reqs.map .transferData) = some (bs, s5))
    (hroom : ∀ r ∈ reqs, 1 ≤ r.maxRespLen.toNat) (hcopy : ∀ r ∈ reqs, r.copyResponse.isSome) :
    copiedBytes bs <+: (blocks.map (·.data)).flatten ∧
      ((∃ r a s6, r.copyResponse.isSome ∧ step cfg P s5 (.transferData r) = some (a, s6) ∧
          a.code = .requestSequenceError) →
        copiedBytes bs = (blocks.map (·.data)).flatten) ∧
      (0 < cfg.uploadMaxPayloadSize → (blocks.map (·.data)).flatten.length ≤ reqs.length →
        copiedBytes bs = (blocks.map (·.data)).flatten) := by
  have hd1 := step_requestDownload (exclusive_of_reachable hreach) hdown hdownok herased
  have hd2 := runs_downloading hlaw blocks [] s1 s2 as hd1 hblocks hblocksok
  rw [List.nil_append] at hd2
  set d := (blocks.map (·.data)).flatten
  obtain ⟨hidle, hworld⟩ := step_requestTransferExit hd2 hexit
  have hu : Uploading contents size d 0 s4 := step_requestUpload hidle hup hupok hsize
    (by rw [haddr]; exact fun hne => (hd2.fits hne).2)
    (by rw [haddr, hworld]; exact hd2.stored)
  obtain ⟨m, hu5, -, hbytes, hprog⟩ := runs_uploading hlaw reqs 0 s4 s5 bs hu hcopy hreqs
  rw [List.drop_zero, Nat.sub_zero] at hbytes
  have hall : d.length ≤ m → copiedBytes bs = d := fun hm => by
    rw [hbytes, List.take_of_length_le hm]
  refine ⟨hbytes ▸ List.take_prefix m d, ?_, fun hpay hlen => hall ?_⟩
  · rintro ⟨r, a, s6, hcp, hstep, hcode⟩
    rw [step_transferData_upload hu5.state hu5.file, Option.some.injEq] at hstep
    rcases continueUpload_uploading hlaw hu5 hcp with ⟨hm, -⟩ | ⟨-, t, heq, -⟩
    · exact hall hm.ge
    · rw [heq, Prod.mk.injEq] at hstep
      rw [← hstep.1] at hcode
      exact absurd hcode (by dsimp only; decide)
  · have := hprog hpay hroom
    omega

theorem flashSimulator_flashLawful (size : ℕ) (h : size < 2 ^ 32) :
    (flashSimulator size).FlashLawful id size where
  size_lt := h
  write_refused off bytes t hbad := by
    have hno : ¬ (4 ∣ off ∧ 4 ∣ bytes.length ∧ off + bytes.length ≤ size) := by
      rintro ⟨h1, h2, h3⟩
      rcases hbad with hb | hb | hb
      · exact hb h1
      · exact hb h2
      · omega
    simp [flashSimulator, hno, EINVAL]
  write_stores off bytes t hok _ := by
    by_cases hin : 4 ∣ off ∧ 4 ∣ bytes.length ∧ off + bytes.length ≤ size
    · simp [flashSimulator, hin]
    · simp [flashSimulator, hin, EINVAL] at hok
  read_returns off len t hin := by simp [flashSimulator, hin]

/-- Seven bytes in two blocks, the second with a padded tail, read back
in blocks of five and two. -/
theorem uploaded_eq_downloaded_seven :
    ∃ (s1 s2 s3 s4 s5 : System 32 (ℕ → UInt8)) (a1 a3 a4 : Answer) (as bs : List Answer),
      step simulatorConfig (flashSimulator 64) (System.initial fun _ => 0xFF)
          (.requestDownload ⟨8, 7, 0⟩) = some (a1, s1) ∧
        runs (step simulatorConfig (flashSimulator 64)) s1
          [.transferData ⟨[1, 2, 3, 4], by decide, 0, none⟩,
            .transferData ⟨[5, 6, 7], by decide, 0, none⟩] = some (as, s2) ∧
        step simulatorConfig (flashSimulator 64) s2 .requestTransferExit = some (a3, s3) ∧
        step simulatorConfig (flashSimulator 64) s3 (.requestUpload ⟨8, 7, 100⟩) =
          some (a4, s4) ∧
        runs (step simulatorConfig (flashSimulator 64)) s4
          [.transferData ⟨[], by decide, 5, some fun _ => 0⟩,
            .transferData ⟨[], by decide, 5, some fun _ => 0⟩] = some (bs, s5) ∧
        copiedBytes bs = [1, 2, 3, 4, 5, 6, 7] := by
  refine ⟨_, _, _, _, _, _, _, _, _, _, rfl, rfl, rfl, rfl, rfl, ?_⟩
  refine (uploaded_eq_downloaded (flashSimulator_flashLawful 64 (by decide)) ⟨8, 7, 0⟩ ⟨8, 7, 100⟩
    [⟨[1, 2, 3, 4], by decide, 0, none⟩, ⟨[5, 6, 7], by decide, 0, none⟩]
    [⟨[], by decide, 5, some fun _ => 0⟩, ⟨[], by decide, 5, some fun _ => 0⟩]
    (Machine.Reachable.init ⟨_, rfl⟩ : (machine simulatorConfig (flashSimulator 64)).Reachable _)
    rfl rfl (fun _ _ _ _ => rfl) rfl ?_ rfl rfl rfl rfl rfl rfl ?_ ?_).2.1 ?_
  · decide
  · decide
  · decide
  · exact ⟨⟨[], by decide, 5, some fun _ => 0⟩, _, _, rfl, rfl, rfl⟩

end Transfer

end Uds

end Ardep
