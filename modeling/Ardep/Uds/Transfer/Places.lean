import Ardep.Common.Sharing
import Ardep.Uds.Transfer.RoundTrip
/-!
# Transfer — the places a transfer uses

A flash transfer uses the cells of its range, a download those of the
write blocks the range meets; a file transfer uses its file. `Confines`
asks of the platform that a call touches the places it names, and the
lemmas here say that the functions of the handler then keep to the places
of the transfer that runs: `FlashCall` for the two directions of a flash
transfer and `FileCall` for those of a file transfer.

`boardSimulator` is such a platform, with a flash and a file system.
-/

namespace Ardep

namespace Uds

namespace Transfer

/-! ## Places -/

/-- A place of the platform that a transfer can use. -/
inductive Place where
  | cell (i : ℕ)
  | file (path : List UInt8)
  deriving DecidableEq

/-- What a place holds. -/
def look {σ : Type} (contents : σ → ℕ → UInt8) (view : FileView σ) (t : σ) :
    Place → UInt8 ⊕ Option (List UInt8)
  | .cell i => .inl (contents t i)
  | .file path => .inr ((view t).contents path)

/-- A range of the flash. -/
def cells (off len : ℕ) : Set Place := {l | ∃ i, l = .cell i ∧ off ≤ i ∧ i < off + len}

/-- The write blocks of `w` bytes that a range meets. -/
def writeBlocks (w off len : ℕ) : Set Place :=
  {l | ∃ i j, l = .cell j ∧ j / w = i / w ∧ off ≤ i ∧ i < off + len}

theorem cells_subset_writeBlocks {w off len : ℕ} : cells off len ⊆ writeBlocks w off len := by
  rintro _ ⟨i, rfl, hlow, hhigh⟩
  exact ⟨i, i, rfl, rfl, hlow, hhigh⟩

theorem cells_subset_cells {off off' len len' : ℕ} (hlow : off' ≤ off)
    (hhigh : off + len ≤ off' + len') : cells off len ⊆ cells off' len' := by
  rintro _ ⟨i, rfl, h1, h2⟩
  exact ⟨i, rfl, by omega, by omega⟩

/-- A write block on the grid is one the range meets, if it starts in it. -/
theorem cells_subset_writeBlocks_of_dvd {w off off' len : ℕ} (hw : 0 < w) (hgrid : w ∣ off)
    (hlow : off' ≤ off) (hhigh : off < off' + len) : cells off w ⊆ writeBlocks w off' len := by
  rintro _ ⟨j, rfl, h1, h2⟩
  refine ⟨off, j, rfl, ?_, hlow, hhigh⟩
  obtain ⟨k, rfl⟩ := hgrid
  rw [Nat.mul_div_cancel_left k hw]
  exact Nat.div_eq_of_lt_le (by rw [Nat.mul_comm]; exact h1)
    (by rw [Nat.add_mul, Nat.mul_comm, Nat.one_mul]; exact h2)

/-- The open file and the position in it. -/
def OpenAt {σ : Type} (view : FileView σ) (path : List UInt8) (pos : ℕ) (t : σ) : Prop :=
  (view t).handle = some (path, pos)

/-- A call, and where it leaves the open file. -/
def withHandle {σ β : Type} (view : FileView σ) (f : σ → β × σ) :
    σ → (β × Option (List UInt8 × ℕ)) × σ :=
  fun t => (((f t).1, (view (f t).2).handle), (f t).2)

/-- **What is asked of the platform**: a call reads and changes the places
it names. A flash access is confined to its range, and one off the grid or
out of the device is refused whatever the flash holds; a file call is
confined to its file, which for `fs_read`, `fs_write` and `fs_close` is
the open one. The device ends a write block before the addresses do, and
is ready always or never. -/
structure Platform.Confines {w : ℕ} {σ : Type} (P : Platform w σ) (contents : σ → ℕ → UInt8)
    (view : FileView σ) (size : ℕ) : Prop where
  size_le : size + P.flashWriteBlockSize ≤ 2 ^ w
  flashReady : ∀ t t', P.flashReady t = P.flashReady t'
  flashWrite : ∀ off bytes, Confined (look contents view) (fun _ => True)
    (cells off bytes.length) (P.flashWrite off bytes)
  flashWrite_refused : ∀ off bytes,
    (¬ P.flashWriteBlockSize ∣ off ∨ ¬ P.flashWriteBlockSize ∣ bytes.length ∨
      size < off + bytes.length) →
    Confined (look contents view) (fun _ => True) ∅ (P.flashWrite off bytes) ∧
      ∀ t, (P.flashWrite off bytes t).1 ≠ 0
  flashRead : ∀ off len, Confined (look contents view) (fun _ => True) (cells off len)
    (P.flashRead off len)
  fsOpen : ∀ path flags, Confined (look contents view) (fun _ => True) {.file path}
    (fun t => P.fsOpen path flags (P.fsFileTInit t))
  fsOpen_handle : ∀ path flags t, 0 ≤ (P.fsOpen path flags (P.fsFileTInit t)).1 →
    OpenAt view path 0 (P.fsOpen path flags (P.fsFileTInit t)).2
  fsStat : ∀ path, Confined (look contents view) (fun _ => True) {.file path} (P.fsStat path)
  fsStat_handle : ∀ path t, (view (P.fsStat path t).2).handle = (view t).handle
  fsUnlink : ∀ path, Confined (look contents view) (fun _ => True) {.file path} (P.fsUnlink path)
  fsRead : ∀ path pos n, Confined (look contents view) (OpenAt view path pos) {.file path}
    (withHandle view (P.fsRead n))
  fsRead_handle : ∀ path pos n t, OpenAt view path pos t →
    ∃ pos', OpenAt view path pos' (P.fsRead n t).2
  fsWrite : ∀ path pos data, Confined (look contents view) (OpenAt view path pos) {.file path}
    (withHandle view (P.fsWrite data))
  fsWrite_handle : ∀ path pos data t, OpenAt view path pos t →
    ∃ pos', OpenAt view path pos' (P.fsWrite data t).2
  fsClose : ∀ path pos, Confined (look contents view) (OpenAt view path pos) {.file path}
    (fun t => ((), P.fsClose t))

variable {cfg : Config} {σ : Type} {P : Platform cfg.wordBits σ}
variable {s t : System cfg.wordBits σ}
variable {contents : σ → ℕ → UInt8} {view : FileView σ} {size : ℕ} {X : Set Place}

/-! ## Flash transfers in their range -/

/-- **A flash transfer uses some places**: its write blocks or its range are
among them, and the cursor has not gone back. -/
structure FlashWithin (P : Platform cfg.wordBits σ) (X : Set Place)
    (u : UploadDownloadState cfg.wordBits) : Prop where
  cursor : u.state ≠ .idle → u.startAddress.toNat ≤ u.currentAddress.toNat
  download : u.state = .downloadInProgress → u.writeBlockSize = P.flashWriteBlockSize ∧
    writeBlocks P.flashWriteBlockSize u.startAddress.toNat u.totalSize.toNat ⊆ X
  upload : u.state = .uploadInProgress → cells u.startAddress.toNat u.totalSize.toNat ⊆ X

/-- **A function of the handler as a call of the platform**: from a record
of the flash transfer to its answer and the next cursor, confined to some
places. The write block size in the record matters to a download only. -/
def FlashCall (P : Platform cfg.wordBits σ) (contents : σ → ℕ → UInt8) (view : FileView σ)
    (X : Set Place) (u : UploadDownloadState cfg.wordBits)
    (h : System cfg.wordBits σ → Answer × System cfg.wordBits σ) : Prop :=
  ∃ call : σ → (Answer × BitVec cfg.wordBits) × σ,
    Confined (look contents view) (fun _ => True) X call ∧
    (∀ t, u.startAddress.toNat ≤ (call t).1.2.toNat) ∧
    ∀ block, (u.state = .downloadInProgress → block = P.flashWriteBlockSize) →
      ∀ file t, h ⟨{ u with writeBlockSize := block }, file, t⟩ =
        ((call t).1.1,
          ⟨{ u with writeBlockSize := block, currentAddress := (call t).1.2 }, file, (call t).2⟩)

/-- A write off the grid or out of the device touches nothing and fails. -/
theorem Platform.Confines.refused (hP : P.Confines contents view size) (off : ℕ)
    (bytes : List UInt8)
    (h : ¬ (P.flashWriteBlockSize ∣ off ∧ off + bytes.length ≤ size)) :
    Confined (look contents view) (fun _ => True) ∅ (P.flashWrite off bytes) ∧
      ∀ t, (P.flashWrite off bytes t).1 ≠ 0 := by
  refine hP.flashWrite_refused off bytes ?_
  by_cases hgrid : P.flashWriteBlockSize ∣ off
  · have hout : ¬ off + bytes.length ≤ size := fun hin => h ⟨hgrid, hin⟩
    exact .inr (.inr (by omega))
  · exact .inl hgrid

/-- A write that is not refused is confined to any places it is in. -/
theorem Platform.Confines.flashWrite_within (hP : P.Confines contents view size) {off : ℕ}
    {bytes : List UInt8}
    (h : P.flashWriteBlockSize ∣ off → off + bytes.length ≤ size → cells off bytes.length ⊆ X) :
    Confined (look contents view) (fun _ => True) X (P.flashWrite off bytes) := by
  by_cases hplaced : P.flashWriteBlockSize ∣ off ∧ off + bytes.length ≤ size
  · exact (hP.flashWrite off bytes).mono (h hplaced.1 hplaced.2)
  · exact (hP.refused off bytes hplaced).1.mono (Set.empty_subset X)

/-- A write that succeeds is on the grid and in the device. -/
theorem Platform.Confines.of_flashWrite (hP : P.Confines contents view size) {off : ℕ}
    {bytes : List UInt8} {t : σ} (h : (P.flashWrite off bytes t).1 = 0) :
    P.flashWriteBlockSize ∣ off ∧ off + bytes.length ≤ size := by
  by_contra hplaced
  exact (hP.refused off bytes hplaced).2 t h

section Flash

variable {u : UploadDownloadState cfg.wordBits} {args : TransferDataArgs}

/-- A block that passes the check of its end, and does not wrap, ends in
the announced range. -/
theorem le_of_not_outOfRange {len : ℕ} (hwrap : u.currentAddress.toNat + len < 2 ^ cfg.wordBits)
    (h : ¬ u.startAddress + u.totalSize < u.currentAddress + BitVec.ofNat cfg.wordBits len) :
    u.currentAddress.toNat + len ≤ u.startAddress.toNat + u.totalSize.toNat := by
  rw [BitVec.lt_def, toNat_add_ofNat hwrap, BitVec.toNat_add] at h
  have := Nat.mod_le (u.startAddress.toNat + u.totalSize.toNat) (2 ^ cfg.wordBits)
  omega

/-- A call that may be left out. -/
theorem confined_ite {c : Prop} [Decidable c] {f : σ → ℤ × σ}
    (h : c → Confined (look contents view) (fun _ => True) X f) :
    Confined (look contents view) (fun _ => True) X fun t => if c then f t else (0, t) := by
  by_cases hc : c
  · simp only [if_pos hc]
    exact h hc
  · simp only [if_neg hc]
    exact confined_pure 0

/-- Two calls with a return code, the second made if the first succeeds. -/
def twoCalls {β : Type} (f g : σ → ℤ × σ) (failed done : β) : σ → β × σ := fun t =>
  if (f t).1 ≠ 0 then (failed, (f t).2)
  else if (g (f t).2).1 ≠ 0 then (failed, (g (f t).2).2)
  else (done, (g (f t).2).2)

theorem confined_twoCalls {β : Type} {f g : σ → ℤ × σ} {failed done : β}
    (hf : Confined (look contents view) (fun _ => True) X f)
    (hg : Confined (look contents view) (fun _ => True) X g) :
    Confined (look contents view) (fun _ => True) X (twoCalls f g failed done) := by
  have hrest : ∀ rc : ℤ, Confined (look contents view) (fun _ => True) X fun t =>
      if rc ≠ 0 then (failed, t)
      else if (g t).1 ≠ 0 then (failed, (g t).2)
      else (done, (g t).2) := by
    intro rc
    by_cases hrc : rc ≠ 0
    · simp only [if_pos hrc]
      exact confined_pure failed
    · refine hg.map (fun rc => if rc ≠ 0 then failed else done) fun t => ?_
      rw [if_neg hrc]
      split_ifs <;> rfl
  exact hf.bind hrest

/-- Where the first call always fails, the second does not matter. -/
theorem confined_twoCalls_of_fails {β : Type} {f g : σ → ℤ × σ} {failed done : β}
    (hf : Confined (look contents view) (fun _ => True) X f) (hfails : ∀ t, (f t).1 ≠ 0) :
    Confined (look contents view) (fun _ => True) X (twoCalls f g failed done) :=
  hf.map (fun _ => failed) fun t => if_pos (hfails t)

theorem continueDownload_updown_of_ne (h : (continueDownload cfg P args s).1.code ≠ .ok) :
    (continueDownload cfg P args s).2.updown = s.updown := by
  revert h
  unfold continueDownload
  dsimp only
  split_ifs <;> first | exact fun _ => rfl | exact fun h => absurd rfl h

/-- A block of a download moves the cursor forward, without wrapping. -/
theorem le_continueDownload (hP : P.Confines contents view size)
    (hblock : s.updown.writeBlockSize = P.flashWriteBlockSize)
    (hcursor : s.updown.startAddress.toNat ≤ s.updown.currentAddress.toNat)
    (args : TransferDataArgs) :
    s.updown.startAddress.toNat ≤
      (continueDownload cfg P args s).2.updown.currentAddress.toNat := by
  by_cases hok : (continueDownload cfg P args s).1.code = .ok
  · obtain ⟨hlen, -, world, ⟨t₁, hfirst, hlast⟩, heq⟩ := continueDownload_ok hok
    rw [hblock] at hfirst hlast
    have hsize := hP.size_le
    have hmodLt := Nat.mod_lt args.data.length P.flashWriteBlockSize_pos
    have hmodLe := Nat.mod_le args.data.length P.flashWriteBlockSize
    have hwrap : s.updown.currentAddress.toNat + args.data.length < 2 ^ cfg.wordBits := by
      rcases hfirst with ⟨hzero, -⟩ | ⟨hsome, hwrite⟩
      · rcases hlast with ⟨hnone, -⟩ | ⟨-, hwrite⟩
        · omega
        · have hplaced := (hP.of_flashWrite (by rw [hwrite])).2
          rw [hzero, toNat_add_ofNat (by have := s.updown.currentAddress.isLt; omega),
            length_lastBytes (by rw [List.length_drop]; omega)] at hplaced
          omega
      · have hplaced := (hP.of_flashWrite (by rw [hwrite])).2
        rw [List.length_take, Nat.min_eq_left (by omega)] at hplaced
        omega
    rw [heq]
    show s.updown.startAddress.toNat ≤
      (s.updown.currentAddress + BitVec.ofNat cfg.wordBits args.data.length).toNat
    rw [toNat_add_ofNat hwrap]
    omega
  · rw [continueDownload_updown_of_ne hok]
    exact hcursor

/-- The writes of a block that passes the check of its range, with the
answer and the cursor they lead to. -/
def twoWrites (P : Platform cfg.wordBits σ) (u : UploadDownloadState cfg.wordBits)
    (args : TransferDataArgs) : σ → (Answer × BitVec cfg.wordBits) × σ :=
  let overflow := args.data.length % P.flashWriteBlockSize
  let first := args.data.length - overflow
  twoCalls
    (fun t => if 0 < first then
      P.flashWrite u.currentAddress.toNat (args.data.take first) t else (0, t))
    (fun t => if overflow ≠ 0 then
      P.flashWrite (u.currentAddress + BitVec.ofNat cfg.wordBits first).toNat
        (lastBytes P.flashWriteBlockSize (args.data.drop first)) t else (0, t))
    ({ code := .generalProgrammingFailure }, u.currentAddress)
    ({ code := .ok }, u.currentAddress + BitVec.ofNat cfg.wordBits args.data.length)

theorem continueDownload_eq_twoWrites
    (hrange : ¬ (args.data.length = 0 ∨ u.startAddress + u.totalSize <
      u.currentAddress + BitVec.ofNat cfg.wordBits args.data.length))
    (file : FileTransferState cfg.wordBits) (t : σ) :
    continueDownload cfg P args
        ⟨{ u with writeBlockSize := P.flashWriteBlockSize }, file, t⟩ =
      ((twoWrites P u args t).1.1,
        ⟨{ u with
            writeBlockSize := P.flashWriteBlockSize
            currentAddress := (twoWrites P u args t).1.2 }, file, (twoWrites P u args t).2⟩) := by
  simp only [continueDownload, twoWrites, twoCalls, if_neg hrange]
  split_ifs <;> rfl

/-- **The writes stay in the write blocks of the range.** The first is in
the range if it is not refused, since then the block does not wrap. The
padded one is made only after it, and starts in the range. -/
theorem confined_twoWrites (hP : P.Confines contents view size)
    (hX : writeBlocks P.flashWriteBlockSize u.startAddress.toNat u.totalSize.toNat ⊆ X)
    (hcursor : u.startAddress.toNat ≤ u.currentAddress.toNat)
    (hend : ¬ u.startAddress + u.totalSize <
      u.currentAddress + BitVec.ofNat cfg.wordBits args.data.length) :
    Confined (look contents view) (fun _ => True) X (twoWrites P u args) := by
  have hsize := hP.size_le
  have hpos := P.flashWriteBlockSize_pos
  have hmodLt := Nat.mod_lt args.data.length hpos
  have hmodLe := Nat.mod_le args.data.length P.flashWriteBlockSize
  unfold twoWrites
  set overflow := args.data.length % P.flashWriteBlockSize
  set first := args.data.length - overflow
  have htake : (args.data.take first).length = first := by
    rw [List.length_take]
    omega
  have hlast : (lastBytes P.flashWriteBlockSize (args.data.drop first)).length =
      P.flashWriteBlockSize := length_lastBytes (by rw [List.length_drop]; omega)
  by_cases hplaced : 0 < first → u.currentAddress.toNat + first ≤ size
  · have hoff : (u.currentAddress + BitVec.ofNat cfg.wordBits first).toNat =
        u.currentAddress.toNat + first := by
      refine toNat_add_ofNat ?_
      have := u.currentAddress.isLt
      omega
    refine confined_twoCalls (confined_ite fun hsome => ?_) (confined_ite fun hrest => ?_)
    · have hin := le_of_not_outOfRange (by omega) hend
      refine hP.flashWrite_within fun _ _ => ?_
      rw [htake]
      exact ((cells_subset_cells hcursor (by omega)).trans cells_subset_writeBlocks).trans hX
    · refine hP.flashWrite_within fun hgrid hfits => ?_
      rw [hoff] at hgrid hfits ⊢
      rw [hlast] at hfits ⊢
      have hin := le_of_not_outOfRange (by omega) hend
      exact (cells_subset_writeBlocks_of_dvd hpos hgrid (by omega) (by omega)).trans hX
  · -- the first write is out of the device
    obtain ⟨hsome, hout⟩ := Classical.not_imp.mp hplaced
    obtain ⟨hconfined, hfails⟩ := hP.refused u.currentAddress.toNat (args.data.take first)
      fun h => hout (by rw [← htake]; exact h.2)
    refine confined_twoCalls_of_fails (confined_ite fun _ => hconfined.mono (Set.empty_subset X))
      fun t => ?_
    rw [if_pos hsome]
    exact hfails t

/-- **A block of a download stays in its write blocks**, and moves the
cursor forward. -/
theorem flashCall_continueDownload (hP : P.Confines contents view size) (hu : FlashWithin P X u)
    (hstate : u.state = .downloadInProgress) :
    FlashCall P contents view X u (continueDownload cfg P args) := by
  obtain ⟨-, hX⟩ := hu.download hstate
  have hcursor := hu.cursor (by rw [hstate]; decide)
  by_cases hrange : args.data.length = 0 ∨ u.startAddress + u.totalSize <
      u.currentAddress + BitVec.ofNat cfg.wordBits args.data.length
  · refine ⟨fun t => (({ code := .requestOutOfRange }, u.currentAddress), t), confined_pure _,
      fun _ => hcursor, fun block _ file t => ?_⟩
    simp only [continueDownload, if_pos hrange]
  · refine ⟨twoWrites P u args, confined_twoWrites hP hX hcursor (not_or.mp hrange).2,
      fun t => ?_, fun block hown file t => ?_⟩
    · have hforward := le_continueDownload hP
        (s := ⟨{ u with writeBlockSize := P.flashWriteBlockSize }, ⟨.idle, false, 0, 0, 0⟩, t⟩)
        rfl hcursor args
      rw [continueDownload_eq_twoWrites hrange] at hforward
      exact hforward
    · rw [hown hstate]
      exact continueDownload_eq_twoWrites hrange file t

/-- What an upload's block makes of the result of its `flash_read`. -/
def uploadResult {w : ℕ} (cursor : BitVec w) (args : TransferDataArgs) (len : ℕ) :
    Except ℤ (List UInt8) → Answer × BitVec w
  | .error _ => ({ code := .generalProgrammingFailure }, cursor)
  | .ok buffer =>
    match args.copyResponse with
    | none => ({ code := .misuse }, cursor)
    | some _ => ({ code := .ok, copied := some buffer }, cursor + BitVec.ofNat w len)

/-- **A block of an upload stays in its range**, and moves the cursor
forward in it. -/
theorem flashCall_continueUpload (hP : P.Confines contents view size) (hu : FlashWithin P X u)
    (hstate : u.state = .uploadInProgress) :
    FlashCall P contents view X u (continueUpload cfg P args) := by
  have hcursor := hu.cursor (by rw [hstate]; decide)
  by_cases hpast : u.startAddress + u.totalSize ≤ u.currentAddress
  · refine ⟨fun t => (({ code := .requestSequenceError }, u.currentAddress), t), confined_pure _,
      fun _ => hcursor, fun block _ file t => ?_⟩
    simp [continueUpload, hstate, hpast]
  · have hlt := BitVec.lt_def.mp (BitVec.not_le.mp hpast)
    have hleft : (u.startAddress + u.totalSize - u.currentAddress).toNat =
        (u.startAddress + u.totalSize).toNat - u.currentAddress.toNat :=
      BitVec.toNat_sub_of_le (BitVec.le_of_lt (BitVec.not_le.mp hpast))
    have hword := (u.startAddress + u.totalSize).isLt
    have hend : (u.startAddress + u.totalSize).toNat ≤
        u.startAddress.toNat + u.totalSize.toNat := by
      rw [BitVec.toNat_add]
      exact Nat.mod_le _ _
    set len := min cfg.uploadMaxPayloadSize (min args.maxRespLen.toNat
      (u.startAddress + u.totalSize - u.currentAddress).toNat) with hlen
    have hread : Confined (look contents view) (fun _ => True) X
        (P.flashRead u.currentAddress.toNat len) :=
      (hP.flashRead _ _).mono
        ((cells_subset_cells hcursor (by omega)).trans (hu.upload hstate))
    have hmoved : u.startAddress.toNat ≤ (u.currentAddress + BitVec.ofNat _ len).toNat := by
      rw [toNat_add_ofNat (by omega)]
      omega
    refine ⟨fun t => (uploadResult u.currentAddress args len
        (P.flashRead u.currentAddress.toNat len t).1,
      (P.flashRead u.currentAddress.toNat len t).2), hread.map _ fun _ => rfl, fun t => ?_,
      fun block _ file t => ?_⟩
    · dsimp only [uploadResult]
      split
      · exact hcursor
      · split
        · exact hcursor
        · exact hmoved
    · simp only [continueUpload, hstate, hpast, ne_eq, not_true_eq_false, if_false, ← hlen]
      rcases P.flashRead u.currentAddress.toNat len t with ⟨_ | buffer, world⟩
      · rfl
      · unfold uploadResult
        cases args.copyResponse <;> rfl

end Flash

/-! ## File transfers in their file -/

/-- A function of the handler as a call on the open file: from a record of
the file transfer to its answer and the record it leaves. -/
def FileCall (contents : σ → ℕ → UInt8) (view : FileView σ) (path : List UInt8) (pos : ℕ)
    (file : FileTransferState cfg.wordBits)
    (h : System cfg.wordBits σ → Answer × System cfg.wordBits σ) : Prop :=
  ∃ call : σ → (Answer × FileTransferState cfg.wordBits) × σ,
    Confined (look contents view) (OpenAt view path pos) {.file path} (withHandle view call) ∧
    (∀ t, OpenAt view path pos t → ∃ pos', OpenAt view path pos' (call t).2) ∧
    ∀ u t, h ⟨u, file, t⟩ = ((call t).1.1, ⟨u, (call t).1.2, (call t).2⟩)

section File

variable {file : FileTransferState cfg.wordBits} {path : List UInt8} {pos : ℕ}
variable {h : System cfg.wordBits σ → Answer × System cfg.wordBits σ}

/-- A function that makes no call. -/
theorem fileCall_pure {a : Answer} (heq : ∀ u t, h ⟨u, file, t⟩ = (a, ⟨u, file, t⟩)) :
    FileCall contents view path pos file h := by
  refine ⟨fun t => ((a, file), t), ⟨fun t t' ht ht' hagree => ⟨?_, hagree⟩, fun _ _ => .refl⟩,
    fun t ht => ⟨pos, ht⟩, heq⟩
  exact Prod.ext rfl (ht.trans ht'.symm)

/-- A function that makes one call on the open file. -/
theorem fileCall_map {β : Type} {f : σ → β × σ}
    (hf : Confined (look contents view) (OpenAt view path pos) {.file path} (withHandle view f))
    (hopen : ∀ t, OpenAt view path pos t → ∃ pos', OpenAt view path pos' (f t).2)
    (k : β → Answer × FileTransferState cfg.wordBits)
    (heq : ∀ u t, h ⟨u, file, t⟩ = ((k (f t).1).1, ⟨u, (k (f t).1).2, (f t).2⟩)) :
    FileCall contents view path pos file h :=
  ⟨fun t => (k (f t).1, (f t).2), hf.map (fun r => (k r.1, r.2)) fun _ => rfl, hopen, heq⟩

/-- What a written block makes of the result of its `fs_write`. -/
def writeResult (file : FileTransferState cfg.wordBits) (args : TransferDataArgs) (rc : ℤ) :
    Answer × FileTransferState cfg.wordBits :=
  if rc < 0 then ({ code := fsErrorToNrc rc }, file)
  else if rc ≠ args.data.length then ({ code := .uploadDownloadNotAccepted }, file)
  else ({ code := .ok }, { file with
    transferred := file.transferred + BitVec.ofNat cfg.wordBits args.data.length })

theorem fileCall_udsFileTransferWrite (hP : P.Confines contents view size)
    (args : TransferDataArgs) :
    FileCall contents view path pos file (udsFileTransferWrite cfg P args) := by
  by_cases hempty : args.data.length = 0
  · refine fileCall_pure (a := { code := .requestOutOfRange }) fun u t => ?_
    simp only [udsFileTransferWrite, if_pos hempty]
  by_cases hover : 0 < file.expectedSize ∧
      file.expectedSize < file.transferred + BitVec.ofNat cfg.wordBits args.data.length
  · refine fileCall_pure (a := { code := .requestOutOfRange }) fun u t => ?_
    simp only [udsFileTransferWrite, if_neg hempty, if_pos hover]
  · refine fileCall_map (hP.fsWrite path pos args.data) (hP.fsWrite_handle path pos args.data)
      (writeResult file args) fun u t => ?_
    simp only [udsFileTransferWrite, if_neg hempty, if_neg hover, writeResult]
    split_ifs <;> rfl

/-- What a read block makes of the result of its `fs_read`. -/
def readResult (file : FileTransferState cfg.wordBits) (copyResponse : List UInt8 → UInt8) :
    Except ℤ (List UInt8) → Answer × FileTransferState cfg.wordBits
  | .error rc => ({ code := fsErrorToNrc rc }, file)
  | .ok bytes =>
    if bytes.length = 0 then ({ code := .requestSequenceError }, file)
    else if copyResponse bytes ≠ 0 then
      ({ code := .ofByte (copyResponse bytes), copied := some bytes }, file)
    else ({ code := .ok, copied := some bytes }, { file with
      transferred := file.transferred + BitVec.ofNat cfg.wordBits bytes.length })

theorem fileCall_udsFileTransferRead (hP : P.Confines contents view size)
    (args : TransferDataArgs) :
    FileCall contents view path pos file (udsFileTransferRead cfg P args) := by
  cases hcopy : args.copyResponse with
  | none =>
    refine fileCall_pure (a := { code := .misuse }) fun u t => ?_
    simp only [udsFileTransferRead, hcopy]
  | some copyResponse =>
    by_cases hleft : remaining file = 0
    · refine fileCall_pure (a := { code := .requestSequenceError }) fun u t => ?_
      rw [udsFileTransferRead_eq hcopy, if_pos hleft]
    · refine fileCall_map
        (hP.fsRead path pos (min args.maxRespLen.toNat (remaining file).toNat))
        (hP.fsRead_handle path pos (min args.maxRespLen.toNat (remaining file).toNat))
        (readResult file copyResponse) fun u t => ?_
      rw [udsFileTransferRead_eq hcopy, if_neg hleft]
      dsimp only
      rcases P.fsRead (min args.maxRespLen.toNat (remaining file).toNat) t with ⟨rc | bytes, world⟩
      · rfl
      · simp only [readResult]
        split_ifs <;> rfl

/-- **A block of a file transfer stays in its file.** -/
theorem fileCall_udsFileTransferContinue (hP : P.Confines contents view size)
    (args : TransferDataArgs) :
    FileCall contents view path pos file (udsFileTransferContinue cfg P (some args)) := by
  cases hmode : file.mode with
  | idle =>
    refine fileCall_pure (a := { code := .requestSequenceError }) fun u t => ?_
    simp only [udsFileTransferContinue, hmode]
  | write =>
    have hwrite : FileCall contents view path pos file (udsFileTransferWrite cfg P args) :=
      fileCall_udsFileTransferWrite hP args
    obtain ⟨call, hconfined, hopen, heq⟩ := hwrite
    refine ⟨call, hconfined, hopen, fun u t => ?_⟩
    simp only [udsFileTransferContinue, hmode, heq]
  | read =>
    have hread : FileCall contents view path pos file (udsFileTransferRead cfg P args) :=
      fileCall_udsFileTransferRead hP args
    obtain ⟨call, hconfined, hopen, heq⟩ := hread
    refine ⟨call, hconfined, hopen, fun u t => ?_⟩
    simp only [udsFileTransferContinue, hmode, heq]

end File

/-! ## A board to run it on -/

section Board

variable {size : ℕ}

/-- A call of the flash alone. -/
theorem confined_of_flash {β : Type} {X : Set Place}
    {f : (ℕ → UInt8) × Files (List UInt8) UInt8 → β × (ℕ → UInt8) × Files (List UInt8) UInt8}
    (hfiles : ∀ t, (f t).2.2 = t.2)
    (hsame : ∀ t t' : (ℕ → UInt8) × Files (List UInt8) UInt8,
      (∀ i, .cell i ∈ X → t.1 i = t'.1 i) →
      (f t).1 = (f t').1 ∧ ∀ i, .cell i ∈ X → (f t).2.1 i = (f t').2.1 i)
    (hframe : ∀ t i, .cell i ∉ X → (f t).2.1 i = t.1 i) :
    Confined (look (·.1) (·.2)) (fun _ => True) X f := by
  refine ⟨fun t t' _ _ hagree => ?_, fun t _ l hl => ?_⟩
  · obtain ⟨hresult, hafter⟩ := hsame t t' fun i hi => Sum.inl.inj (hagree (.cell i) hi)
    refine ⟨hresult, fun l hl => ?_⟩
    cases l with
    | cell i => exact congrArg Sum.inl (hafter i hl)
    | file path =>
      have := hagree (.file path) hl
      simp only [look, hfiles] at this ⊢
      exact this
  · cases l with
    | cell i => exact congrArg Sum.inl (hframe t i hl)
    | file path => simp only [look, hfiles]

/-- A call of the file system alone, on one file. -/
theorem confined_of_files {β : Type} {path : List UInt8}
    {I : (ℕ → UInt8) × Files (List UInt8) UInt8 → Prop}
    {f : (ℕ → UInt8) × Files (List UInt8) UInt8 → β × (ℕ → UInt8) × Files (List UInt8) UInt8}
    (hflash : ∀ t, (f t).2.1 = t.1)
    (hsame : ∀ t t', I t → I t' → t.2.contents path = t'.2.contents path →
      (f t).1 = (f t').1 ∧ (f t).2.2.contents path = (f t').2.2.contents path)
    (hframe : ∀ t, I t → ∀ p, p ≠ path → (f t).2.2.contents p = t.2.contents p) :
    Confined (look (·.1) (·.2)) I {.file path} f := by
  refine ⟨fun t t' ht ht' hagree => ?_, fun t ht l hl => ?_⟩
  · obtain ⟨hresult, hafter⟩ := hsame t t' ht ht' (Sum.inr.inj (hagree (.file path) rfl))
    refine ⟨hresult, fun l hl => ?_⟩
    obtain rfl : l = .file path := hl
    exact congrArg Sum.inr hafter
  · cases l with
    | cell i => simp only [look, hflash]
    | file p =>
      exact congrArg Sum.inr (hframe t ht p fun h => hl (congrArg Place.file h))

theorem flashWrite_boardSimulator {off : ℕ} {bytes : List UInt8}
    (h : 4 ∣ off ∧ 4 ∣ bytes.length ∧ off + bytes.length ≤ size)
    (t : (ℕ → UInt8) × Files (List UInt8) UInt8) :
    (boardSimulator size).flashWrite off bytes t = (0, store t.1 off bytes, t.2) := by
  simp [boardSimulator, flashSimulator, h]

theorem flashWrite_boardSimulator_refused {off : ℕ} {bytes : List UInt8}
    (h : ¬ (4 ∣ off ∧ 4 ∣ bytes.length ∧ off + bytes.length ≤ size))
    (t : (ℕ → UInt8) × Files (List UInt8) UInt8) :
    (boardSimulator size).flashWrite off bytes t = (-EINVAL, t) := by
  simp [boardSimulator, flashSimulator, h]

theorem flashRead_boardSimulator (off len : ℕ) (t : (ℕ → UInt8) × Files (List UInt8) UInt8) :
    (boardSimulator size).flashRead off len t =
      (if off + len ≤ size then .ok (readRange t.1 off len) else .error (-EINVAL), t) := by
  by_cases hin : off + len ≤ size <;> simp [boardSimulator, flashSimulator, hin]

/-- A write changes the cells it writes, if any. -/
theorem confined_flashWrite_boardSimulator (off : ℕ) (bytes : List UInt8) :
    Confined (look (·.1) (·.2)) (fun _ => True) (cells off bytes.length)
      ((boardSimulator size).flashWrite off bytes) := by
  by_cases hok : 4 ∣ off ∧ 4 ∣ bytes.length ∧ off + bytes.length ≤ size
  · have heq := flashWrite_boardSimulator hok
    refine confined_of_flash (fun t => by rw [heq]) (fun t t' _ => ?_) (fun t i hi => ?_)
    · rw [heq, heq]
      refine ⟨rfl, ?_⟩
      rintro i ⟨_, hi, hlow, hhigh⟩
      cases hi
      exact store_congr hlow hhigh
    · rw [heq]
      rcases Nat.lt_or_ge i off with hlt | hge
      · exact store_of_lt hlt
      · refine store_of_ge ?_
        by_contra hin
        exact hi ⟨i, rfl, hge, by omega⟩
  · exact (confined_pure (-EINVAL : ℤ)).map id (flashWrite_boardSimulator_refused hok)

/-- A read needs the cells it reads and changes none. -/
theorem confined_flashRead_boardSimulator (off len : ℕ) :
    Confined (look (·.1) (·.2)) (fun _ => True) (cells off len)
      ((boardSimulator size).flashRead off len) := by
  have heq : ∀ t, (boardSimulator size).flashRead off len t = _ := flashRead_boardSimulator off len
  refine confined_of_flash (fun t => by rw [heq]) (fun t t' hagree => ?_)
    (fun t i _ => by rw [heq])
  rw [heq, heq]
  refine ⟨?_, hagree⟩
  have hread : readRange t.1 off len = readRange t'.1 off len :=
    readRange_congr fun i hlow hhigh => hagree i ⟨i, rfl, hlow, hhigh⟩
  rw [hread]

/-- Opening a file for reading leaves the contents of all. -/
theorem contents_fsOpen_boardSimulator (path : List UInt8)
    (t : (ℕ → UInt8) × Files (List UInt8) UInt8) :
    ((boardSimulator size).fsOpen path .read t).2.2.contents = t.2.contents := by
  by_cases hsome : (t.2.contents path).isSome <;>
    simp [boardSimulator, fileSimulator, hsome, Files.openRead]

theorem confined_fsOpen_boardSimulator (path : List UInt8) (flags : OpenFlags) :
    Confined (look (·.1) (·.2)) (fun _ => True) {.file path}
      ((boardSimulator size).fsOpen path flags) := by
  cases flags with
  | createTruncRdwr =>
    refine confined_of_files (fun _ => rfl) (fun t t' _ _ _ => ⟨rfl, ?_⟩) (fun t _ p hp => ?_)
    · simp [boardSimulator, fileSimulator, Files.create]
    · simp [boardSimulator, fileSimulator, Files.create, hp]
  | read =>
    refine confined_of_files (fun _ => rfl) (fun t t' _ _ h => ⟨?_, ?_⟩) (fun t _ p _ => ?_)
    · simp only [boardSimulator, fileSimulator, h]
      split_ifs <;> rfl
    · rw [contents_fsOpen_boardSimulator, contents_fsOpen_boardSimulator, h]
    · rw [contents_fsOpen_boardSimulator]

/-- A write off the grid or out of the device is refused whatever the flash
holds. -/
theorem flashWrite_boardSimulator_off_grid {off : ℕ} {bytes : List UInt8}
    (hbad : ¬ 4 ∣ off ∨ ¬ 4 ∣ bytes.length ∨ size < off + bytes.length) :
    Confined (look (·.1) (·.2)) (fun _ => True) ∅ ((boardSimulator size).flashWrite off bytes) ∧
      ∀ t, ((boardSimulator size).flashWrite off bytes t).1 ≠ 0 := by
  have hno : ¬ (4 ∣ off ∧ 4 ∣ bytes.length ∧ off + bytes.length ≤ size) := by
    rintro ⟨h1, h2, h3⟩
    rcases hbad with hb | hb | hb
    · exact hb h1
    · exact hb h2
    · omega
  have heq := flashWrite_boardSimulator_refused hno
  refine ⟨(confined_pure (-EINVAL : ℤ)).map id heq, fun t => ?_⟩
  rw [heq]
  exact (by decide : (-EINVAL : ℤ) ≠ 0)

/-- A file that was opened is open at its start. -/
theorem openAt_fsOpen_boardSimulator {path : List UInt8} {flags : OpenFlags}
    {t : (ℕ → UInt8) × Files (List UInt8) UInt8}
    (h : 0 ≤ ((boardSimulator size).fsOpen path flags t).1) :
    OpenAt (·.2) path 0 ((boardSimulator size).fsOpen path flags t).2 := by
  cases flags with
  | createTruncRdwr => rfl
  | read =>
    have hsome : (t.2.contents path).isSome := by
      by_contra hnone
      simp [boardSimulator, fileSimulator, hnone, ENOENT] at h
    simp [OpenAt, boardSimulator, fileSimulator, hsome, Files.openRead]

/-- Asking for the size of a file keeps everything. -/
theorem fsStat_boardSimulator_snd (path : List UInt8)
    (t : (ℕ → UInt8) × Files (List UInt8) UInt8) :
    ((boardSimulator size).fsStat path t).2 = t := by
  cases h : t.2.contents path <;> simp [boardSimulator, fileSimulator, h]

theorem confined_fsStat_boardSimulator (path : List UInt8) :
    Confined (look (·.1) (·.2)) (fun _ => True) {.file path}
      ((boardSimulator size).fsStat path) := by
  refine confined_of_files (fun t => by rw [fsStat_boardSimulator_snd])
    (fun t t' _ _ h => ⟨?_, ?_⟩) (fun t _ p _ => by rw [fsStat_boardSimulator_snd])
  · cases h' : t'.2.contents path <;> simp [boardSimulator, fileSimulator, h, h']
  · rw [fsStat_boardSimulator_snd, fsStat_boardSimulator_snd]
    exact h

theorem confined_fsUnlink_boardSimulator (path : List UInt8) :
    Confined (look (·.1) (·.2)) (fun _ => True) {.file path}
      ((boardSimulator size).fsUnlink path) := by
  refine confined_of_files (fun _ => rfl) (fun t t' _ _ h => ?_) (fun t _ p hp => ?_)
  · cases h' : t'.2.contents path <;> simp [boardSimulator, fileSimulator, h, h']
  · cases h' : t.2.contents path <;> simp [boardSimulator, fileSimulator, h', hp]

/-! On an open file, the calls are those of `Files`. -/

theorem fsRead_boardSimulator {path : List UInt8} {pos : ℕ}
    {t : (ℕ → UInt8) × Files (List UInt8) UInt8} (h : OpenAt (·.2) path pos t) (n : ℕ) :
    (boardSimulator size).fsRead n t = (.ok (t.2.read n).1, t.1, (t.2.read n).2) := by
  unfold OpenAt at h
  simp [boardSimulator, fileSimulator, h]

theorem fsWrite_boardSimulator {path : List UInt8} {pos : ℕ}
    {t : (ℕ → UInt8) × Files (List UInt8) UInt8} (h : OpenAt (·.2) path pos t)
    (data : List UInt8) :
    (boardSimulator size).fsWrite data t = ((data.length : ℤ), t.1, t.2.write data) := by
  unfold OpenAt at h
  simp [boardSimulator, fileSimulator, allBytes, h]

theorem confined_fsRead_boardSimulator (path : List UInt8) (pos n : ℕ) :
    Confined (look (·.1) (·.2)) (OpenAt (·.2) path pos) {.file path}
      (withHandle (·.2) ((boardSimulator size).fsRead n)) := by
  refine confined_of_files (fun _ => rfl) (fun t t' ht ht' h => ?_) (fun t ht p _ => ?_)
  · rw [withHandle, withHandle, fsRead_boardSimulator ht, fsRead_boardSimulator ht']
    unfold OpenAt at ht ht'
    simp [Files.read, ht, ht', h]
  · rw [withHandle, fsRead_boardSimulator ht]
    unfold OpenAt at ht
    simp [Files.read, ht]

theorem confined_fsWrite_boardSimulator (path : List UInt8) (pos : ℕ) (data : List UInt8) :
    Confined (look (·.1) (·.2)) (OpenAt (·.2) path pos) {.file path}
      (withHandle (·.2) ((boardSimulator size).fsWrite data)) := by
  refine confined_of_files (fun _ => rfl) (fun t t' ht ht' h => ?_) (fun t ht p hp => ?_)
  · rw [withHandle, withHandle, fsWrite_boardSimulator ht, fsWrite_boardSimulator ht']
    unfold OpenAt at ht ht'
    simp [Files.write, ht, ht', h]
  · rw [withHandle, fsWrite_boardSimulator ht]
    unfold OpenAt at ht
    simp [Files.write, ht, hp]

theorem boardSimulator_confines (hsize : size + 4 ≤ 2 ^ 32) :
    (boardSimulator size).Confines (·.1) (·.2) size where
  size_le := hsize
  flashReady := fun _ _ => rfl
  flashWrite := confined_flashWrite_boardSimulator
  flashWrite_refused := fun _ _ => flashWrite_boardSimulator_off_grid
  flashRead := confined_flashRead_boardSimulator
  fsOpen := confined_fsOpen_boardSimulator
  fsOpen_handle := fun _ _ _ => openAt_fsOpen_boardSimulator
  fsStat := confined_fsStat_boardSimulator
  fsStat_handle := fun path t => by rw [fsStat_boardSimulator_snd]
  fsUnlink := confined_fsUnlink_boardSimulator
  fsRead := confined_fsRead_boardSimulator
  fsRead_handle := by
    intro path pos n t h
    refine ⟨pos + (((t.2.contents path).getD []).drop pos |>.take n).length, ?_⟩
    rw [fsRead_boardSimulator h]
    unfold OpenAt at h ⊢
    simp [Files.read, h]
  fsWrite := confined_fsWrite_boardSimulator
  fsWrite_handle := by
    intro path pos data t h
    refine ⟨pos + data.length, ?_⟩
    rw [fsWrite_boardSimulator h]
    unfold OpenAt at h ⊢
    simp [Files.write, h]
  fsClose := by
    intro path pos
    exact confined_of_files (fun _ => rfl) (fun _ _ _ _ h => ⟨rfl, h⟩) (fun _ _ _ _ => rfl)

end Board

end Transfer

end Uds

end Ardep
