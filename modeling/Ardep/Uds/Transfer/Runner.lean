import Ardep.Common.Slices
import Ardep.Uds.Transfer.RoundTrip
/-!
# Transfer — flashing an image with the runner

The `west` runner of `ardep-uds.py` cuts an image into blocks, announces
as many whole blocks as there are, and sends the last one as short as it
is. The handler counts bytes, pads to its write block size and works with
addresses from the start of the flash. `flashed_uploadFirmware` puts the
two together: on erased flash every request is answered positively, and
what the flash then holds is the image, erased bytes up to the end of the
announced range, and outside of it what was there.

The requests reach the handler in order and unchanged; what the server
library adds to a TransferData request (`maxRespLen`, `copyResponse`) is
arbitrary, and a TesterPresent is no event of the handler.
-/

namespace Ardep

namespace Uds

namespace Transfer

/-! ## The runner -/

/-- The requests the runner sends. -/
inductive RunnerRequest where
  | requestDownload (address memorysize : ℕ)
  | transferData (sequenceNumber : UInt8) (data : List UInt8)
  | testerPresent
  | requestTransferExit
  deriving DecidableEq, Repr

/-- `read_and_split_firmware_into_blocks`, for the bytes of the hex file
from its first address on. -/
def readAndSplitFirmwareIntoBlocks (blockSize : ℕ) (firmwareData : List UInt8) :
    List (List UInt8) :=
  slices blockSize firmwareData

/-- The loop of `upload_firmware`, from the block of index `i` on. -/
def transferBlocks : ℕ → List (List UInt8) → List RunnerRequest
  | _, [] => []
  | i, block :: blocks =>
    .transferData (UInt8.ofNat ((i + 1) % 256)) block :: .testerPresent ::
      transferBlocks (i + 1) blocks

/-- `upload_firmware`. -/
def uploadFirmware (blockSize : ℕ) (blocks : List (List UInt8)) (baseAddress : ℕ) :
    List RunnerRequest :=
  .requestDownload baseAddress (blocks.length * blockSize) ::
    (transferBlocks 0 blocks ++ [.requestTransferExit])

/-- The event a request raises at the handler. A block is at most the
65535 bytes the length of a TransferData request can say. -/
def RunnerRequest.event (w : ℕ) (maxRespLen : UInt16) (copyResponse : Option (List UInt8 → UInt8)) :
    RunnerRequest → Option (Event w)
  | .requestDownload address memorysize =>
    some (.requestDownload ⟨BitVec.ofNat w address, BitVec.ofNat w memorysize, 0x00⟩)
  | .transferData _ data =>
    if h : data.length < 2 ^ 16 then some (.transferData ⟨data, h, maxRespLen, copyResponse⟩)
    else none
  | .testerPresent => none
  | .requestTransferExit => some .requestTransferExit

/-! ## One block on the grid -/

/-- **The driver stores what is on its grid**: a write of whole write
blocks to erased cells of the device. -/
def Platform.FlashStores {w : ℕ} {σ : Type} (P : Platform w σ) (contents : σ → ℕ → UInt8)
    (size : ℕ) : Prop :=
  ∀ off bytes t, P.flashWriteBlockSize ∣ off → P.flashWriteBlockSize ∣ bytes.length →
    off + bytes.length ≤ size → (∀ i, off ≤ i → i < off + bytes.length → contents t i = 0xFF) →
      (P.flashWrite off bytes t).1 = 0 ∧
        contents (P.flashWrite off bytes t).2 = store (contents t) off bytes

variable {cfg : Config} {σ : Type} {P : Platform cfg.wordBits σ}
variable {s s' : System cfg.wordBits σ}
variable {contents : σ → ℕ → UInt8} {size : ℕ}

/-- A write of whole write blocks, left out where it has none. -/
theorem Platform.FlashStores.write_or_skip {w : ℕ} {P : Platform w σ}
    (h : P.FlashStores contents size) (off : ℕ) (bytes : List UInt8) (t : σ) {c : Prop}
    (hc : ¬ c → bytes = []) (hoff : P.flashWriteBlockSize ∣ off)
    (hlen : P.flashWriteBlockSize ∣ bytes.length) (hin : off + bytes.length ≤ size)
    (herased : ∀ i, off ≤ i → i < off + bytes.length → contents t i = 0xFF) :
    ∃ t', (¬ c ∧ t' = t ∨ c ∧ P.flashWrite off bytes t = (0, t')) ∧
      contents t' = store (contents t) off bytes := by
  by_cases hdo : c
  · obtain ⟨hrc, hstored⟩ := h off bytes t hoff hlen hin herased
    exact ⟨(P.flashWrite off bytes t).2, .inr ⟨hdo, Prod.ext hrc rfl⟩, hstored⟩
  · refine ⟨t, .inl ⟨hdo, rfl⟩, ?_⟩
    rw [hc hdo, store_nil]

/-- **The writes of a block on the grid succeed** and store it with its
padding. -/
theorem Platform.FlashStores.blockWritten {w : ℕ} {P : Platform w σ}
    (h : P.FlashStores contents size) {off : BitVec w} {cur : ℕ} {data : List UInt8} {t : σ}
    (hcur : off.toNat = cur) (hword : cur + data.length < 2 ^ w)
    (hgrid : P.flashWriteBlockSize ∣ cur)
    (hin : cur + roundUp data.length P.flashWriteBlockSize ≤ size)
    (herased : ∀ i, cur ≤ i → i < cur + roundUp data.length P.flashWriteBlockSize →
      contents t i = 0xFF) :
    ∃ t', BlockWritten P P.flashWriteBlockSize off data t t' ∧
      contents t' = store (contents t) cur (padded P.flashWriteBlockSize data) := by
  have hpos := P.flashWriteBlockSize_pos
  have hround := le_roundUp (n := data.length) hpos
  have hmodLt := Nat.mod_lt data.length hpos
  have hmodLe := Nat.mod_le data.length P.flashWriteBlockSize
  have hdvd : P.flashWriteBlockSize ∣ data.length - data.length % P.flashWriteBlockSize :=
    Nat.dvd_sub_mod data.length
  have htailLen := length_padded_tail hpos data
  have hjoin := store_padded hpos (contents t) cur data
  unfold BlockWritten
  set block := P.flashWriteBlockSize
  set overflow := data.length % block
  set first := data.length - overflow
  have htake : (data.take first).length = first := by
    rw [List.length_take]
    omega
  -- the whole write blocks
  obtain ⟨t₁, hwrite1, hstored1⟩ := h.write_or_skip cur (data.take first) t (c := 0 < first)
    (fun hzero => by rw [Nat.eq_zero_of_not_pos hzero, List.take_zero])
    hgrid (by rw [htake]; exact hdvd) (by rw [htake]; omega)
    (fun i h1 h2 => herased i h1 (by rw [htake] at h2; omega))
  -- the padded tail
  set tail := if overflow ≠ 0 then lastBytes block (data.drop first) else [] with htail
  obtain ⟨t₂, hwrite2, hstored2⟩ := h.write_or_skip (cur + first) tail t₁
    (c := overflow ≠ 0) (fun hzero => by rw [htail, if_neg hzero])
    (Nat.dvd_add hgrid hdvd) ((Nat.dvd_add_right hdvd).mp (by rw [htailLen]; exact dvd_roundUp))
    (by omega)
    (fun i h1 h2 => by
      rw [hstored1, store_of_ge (by rw [htake]; exact h1)]
      exact herased i (by omega) (by omega))
  refine ⟨t₂, ⟨t₁, ?_, ?_⟩, by rw [hstored2, hstored1, hjoin]⟩
  · rw [hcur]
    exact hwrite1.imp_left fun hskip => ⟨Nat.eq_zero_of_not_pos hskip.1, hskip.2⟩
  · rw [toNat_add_ofNat (by omega), hcur]
    rcases hwrite2 with ⟨hzero, hsame⟩ | ⟨hsome, hwrite⟩
    · exact .inl ⟨not_not.mp hzero, hsame⟩
    · rw [htail, if_pos hsome] at hwrite
      exact .inr ⟨hsome, hwrite⟩

/-- **A block on the grid is answered positively**: it is stored with its
padding, and the cursor moves by the bytes it has. -/
theorem continueDownload_grid (hstores : P.FlashStores contents size)
    {args : TransferDataArgs} {cur : ℕ} (hne : args.data ≠ [])
    (hblock : s.updown.writeBlockSize = P.flashWriteBlockSize)
    (hcur : s.updown.currentAddress.toNat = cur) (hgrid : P.flashWriteBlockSize ∣ cur)
    (hend : cur + args.data.length ≤ (s.updown.startAddress + s.updown.totalSize).toNat)
    (hin : cur + roundUp args.data.length P.flashWriteBlockSize ≤ size)
    (herased : ∀ i, cur ≤ i → i < cur + roundUp args.data.length P.flashWriteBlockSize →
      contents s.world i = 0xFF) :
    ∃ world, continueDownload cfg P args s =
        ({ code := .ok }, { s with
          updown := { s.updown with
            currentAddress :=
              s.updown.currentAddress + BitVec.ofNat cfg.wordBits args.data.length }
          world := world }) ∧
      contents world =
        store (contents s.world) cur (padded P.flashWriteBlockSize args.data) := by
  have hword : cur + args.data.length < 2 ^ cfg.wordBits :=
    hend.trans_lt (s.updown.startAddress + s.updown.totalSize).isLt
  obtain ⟨world, hwritten, hstored⟩ := hstores.blockWritten hcur hword hgrid hin herased
  rw [← hblock] at hwritten
  refine ⟨world, continueDownload_of_blockWritten (List.length_pos_iff.mpr hne) ?_ hwritten,
    hstored⟩
  rw [BitVec.le_def, toNat_add_ofNat (by rwa [hcur]), hcur]
  exact hend

/-! ## The blocks of an image -/

/-- **Part-way through the runner's download**: the cursor stands at `cur`
and the announced range ends at `stop`. -/
structure Programming (P : Platform cfg.wordBits σ) (cur stop : ℕ)
    (s : System cfg.wordBits σ) : Prop where
  state : s.updown.state = .downloadInProgress
  file : s.file.mode = .idle
  block : s.updown.writeBlockSize = P.flashWriteBlockSize
  cursor : s.updown.currentAddress.toNat = cur
  stops : (s.updown.startAddress + s.updown.totalSize).toNat = stop

/-- **One block of the runner.** -/
theorem step_programming (hstores : P.FlashStores contents size) {cur stop : ℕ}
    (hs : Programming P cur stop s) (args : TransferDataArgs) (hne : args.data ≠ [])
    (hgrid : P.flashWriteBlockSize ∣ cur) (hend : cur + args.data.length ≤ stop)
    (hin : cur + roundUp args.data.length P.flashWriteBlockSize ≤ size)
    (herased : ∀ i, cur ≤ i → i < cur + roundUp args.data.length P.flashWriteBlockSize →
      contents s.world i = 0xFF) :
    ∃ s', step cfg P s (.transferData args) = some ({ code := .ok }, s') ∧
      Programming P (cur + args.data.length) stop s' ∧
      contents s'.world =
        store (contents s.world) cur (padded P.flashWriteBlockSize args.data) := by
  obtain ⟨world, heq, hstored⟩ := continueDownload_grid hstores hne hs.block hs.cursor hgrid
    (by rw [hs.stops]; exact hend) hin herased
  have hstep := step_transferData_download (P := P) hs.state hs.file args
  rw [heq] at hstep
  refine ⟨_, hstep, ⟨hs.state, hs.file, hs.block, ?_, hs.stops⟩, hstored⟩
  have hword := (s.updown.startAddress + s.updown.totalSize).isLt
  have hcursor := hs.cursor
  have hstops := hs.stops
  show (s.updown.currentAddress + BitVec.ofNat cfg.wordBits args.data.length).toNat = _
  rw [toNat_add_ofNat (by omega), hcursor]

/-- **The end of the download.** -/
theorem step_programming_exit {cur stop : ℕ} (hs : Programming P cur stop s) :
    ∃ s', step cfg P s .requestTransferExit = some ({ code := .ok }, s') ∧ s'.world = s.world := by
  have hexit := transferExit_of_download (P := P) hs.state hs.file
  refine ⟨{ s with updown :=
      { s.updown with
        state := .idle, startAddress := 0, currentAddress := 0, totalSize := 0 } }, ?_, rfl⟩
  simp only [step, udsActionUploadDownload, Event.isStart, Bool.false_eq_true, if_false, ne_eq,
    not_true_eq_false, false_and, hexit]

/-- A block and what follows it, each stored with its padding, are the
image stored with its own. -/
theorem store_padded_take_drop {w blockSize cur : ℕ} {c : ℕ → UInt8} {image : List UInt8}
    (hw : 0 < w) (hdvd : w ∣ blockSize) :
    store (store c cur (padded w (image.take blockSize)))
        (cur + (image.take blockSize).length) (padded w (image.drop blockSize)) =
      store c cur (padded w image) := by
  rcases Nat.lt_or_ge blockSize image.length with hmore | hlast
  · have htake : w ∣ (image.take blockSize).length := by
      rw [List.length_take, Nat.min_eq_left (by omega)]
      exact hdvd
    rw [padded_of_dvd hw htake, store_append, ← padded_append hw htake, List.take_append_drop]
  · rw [List.take_of_length_le hlast, List.drop_of_length_le hlast, padded_nil hw, store_nil]

/-- A block with a successor is a whole one, and ends on the grid. -/
theorem roundUp_take_drop {w blockSize : ℕ} {image : List UInt8} (hw : 0 < w)
    (hdvd : w ∣ blockSize) (h : image.drop blockSize ≠ []) :
    (image.take blockSize).length = blockSize ∧
      blockSize + roundUp (image.drop blockSize).length w = roundUp image.length w := by
  have hpos := List.length_pos_iff.mpr h
  have hdrop : (image.drop blockSize).length = image.length - blockSize := List.length_drop
  have hsplit : image.length = blockSize + (image.drop blockSize).length := by omega
  refine ⟨?_, ?_⟩
  · rw [List.length_take]
    omega
  · rw [hsplit, roundUp_add hw hdvd]

/-- A block stored with its padding leaves what the blocks after it need
erased: one that has a successor is whole, and has no padding. -/
theorem erased_store_padded_take {w blockSize cur : ℕ} {c : ℕ → UInt8} {image : List UInt8}
    (hw : 0 < w) (hdvd : w ∣ blockSize)
    (herased : ∀ i, cur ≤ i → i < cur + roundUp image.length w → c i = 0xFF) (k : ℕ)
    (hlow : cur + (image.take blockSize).length ≤ k)
    (hhigh : k < cur + (image.take blockSize).length + roundUp (image.drop blockSize).length w) :
    store c cur (padded w (image.take blockSize)) k = 0xFF := by
  have hrest : image.drop blockSize ≠ [] := by
    intro hnil
    rw [hnil, List.length_nil, roundUp_of_dvd hw (Nat.dvd_zero _)] at hhigh
    omega
  obtain ⟨htakeLen, hround⟩ := roundUp_take_drop hw hdvd hrest
  rw [padded_of_dvd hw (by rw [htakeLen]; exact hdvd), store_of_ge hlow]
  exact herased k (by omega) (by omega)

/-- What an erased range holds after bytes are stored with their padding at
its start: the padding is not told from the rest. -/
theorem readRange_store_padded {w off total : ℕ} {c : ℕ → UInt8} {image : List UInt8} (hw : 0 < w)
    (hround : roundUp image.length w ≤ total)
    (herased : ∀ i, off ≤ i → i < off + total → c i = 0xFF) :
    readRange (store c off (padded w image)) off total =
      image ++ List.replicate (total - image.length) 0xFF := by
  have hle := le_roundUp (n := image.length) hw
  have hlength := length_padded hw image
  obtain ⟨k, rfl⟩ := Nat.exists_eq_add_of_le hround
  have hrest : readRange (store c off (padded w image)) (off + roundUp image.length w) k =
      List.replicate k 0xFF := by
    refine readRange_eq_replicate fun i h1 h2 => ?_
    rw [store_of_ge (by omega)]
    exact herased i (by omega) (by omega)
  rw [readRange_add, readRange_store_self hlength, hrest]
  unfold padded
  rw [List.append_assoc, List.replicate_append_replicate]
  congr 2
  omega

/-- **The blocks of an image from `cur` on, and the exit.** Every answer is
positive, and what is stored is the image with its padding. The induction
is on the length of the image: a block is cut off its front, and one that
has a successor is whole, so the next starts on the grid. -/
theorem runs_transferBlocks (hstores : P.FlashStores contents size) {blockSize stop : ℕ}
    (hblock : 0 < blockSize) (hmax : blockSize ≤ 65535) (hdvd : P.flashWriteBlockSize ∣ blockSize)
    (maxRespLen : UInt16) (copyResponse : Option (List UInt8 → UInt8)) (hstop : stop ≤ size) :
    ∀ (n : ℕ) (image : List UInt8) (i cur : ℕ) (s : System cfg.wordBits σ), image.length = n →
      Programming P cur stop s → (image ≠ [] → P.flashWriteBlockSize ∣ cur) →
      (image ≠ [] → cur + roundUp image.length P.flashWriteBlockSize ≤ stop) →
      (∀ i, cur ≤ i → i < cur + roundUp image.length P.flashWriteBlockSize →
        contents s.world i = 0xFF) →
      ∃ as s', runs (step cfg P) s
          ((transferBlocks i (slices blockSize image) ++
            [RunnerRequest.requestTransferExit]).filterMap
            (RunnerRequest.event cfg.wordBits maxRespLen copyResponse)) = some (as, s') ∧
        as.length = (slices blockSize image).length + 1 ∧ (∀ a ∈ as, a.code = .ok) ∧
        contents s'.world = store (contents s.world) cur (padded P.flashWriteBlockSize image) := by
  have hpos := P.flashWriteBlockSize_pos
  intro n
  induction n using Nat.strongRecOn with
  | _ n ih =>
    intro image i cur s hn hs hgrid hend herased
    by_cases himage : image = []
    · obtain ⟨s', hstep, hworld⟩ := step_programming_exit (P := P) hs
      refine ⟨[{ code := .ok }], s', ?_, ?_, ?_, ?_⟩
      · rw [himage, slices_nil hblock]
        exact runs_cons_eq_some.mpr ⟨_, _, _, hstep, runs_nil, rfl⟩
      · rw [himage, slices_nil hblock, List.length_nil, List.length_singleton]
      · intro a ha
        rw [List.mem_singleton.mp ha]
      · rw [hworld, himage, padded_nil hpos, store_nil]
    · have hlen := List.length_pos_iff.mpr himage
      have hfirst : (image.take blockSize).length ≤ blockSize := List.length_take_le _ _
      have htake : (image.take blockSize).length ≤ image.length := List.length_take_le' _ _
      have hshort : (image.take blockSize).length < 2 ^ 16 := by omega
      have hroundTake := roundUp_mono (w := P.flashWriteBlockSize) htake
      have hroundLe := le_roundUp (n := (image.take blockSize).length) hpos
      have hendImage := hend himage
      obtain ⟨s1, hstep, hs1, hstored⟩ := step_programming hstores hs
        ⟨image.take blockSize, hshort, maxRespLen, copyResponse⟩
        (List.ne_nil_of_length_pos (by rw [List.length_take]; omega)) (hgrid himage)
        (by dsimp only; omega) (by dsimp only; omega)
        (fun k h1 h2 => herased k h1 (by dsimp only at h2; omega))
      dsimp only at hs1 hstored
      have hdrop : (image.drop blockSize).length = image.length - blockSize := List.length_drop
      have hwhole := fun hrest : image.drop blockSize ≠ [] =>
        roundUp_take_drop hpos hdvd hrest
      obtain ⟨as, s', hruns, hcount, hok, hcontents⟩ := ih (image.drop blockSize).length (by omega)
        (image.drop blockSize) (i + 1) (cur + (image.take blockSize).length) s1 rfl hs1
        (fun hrest => by
          rw [(hwhole hrest).1]
          exact Nat.dvd_add (hgrid himage) hdvd)
        (fun hrest => by
          have := hwhole hrest
          omega)
        (fun k h1 h2 => by
          rw [hstored]
          exact erased_store_padded_take hpos hdvd herased k h1 h2)
      refine ⟨{ code := .ok } :: as, s', ?_, ?_, ?_, ?_⟩
      · rw [slices_of_ne_nil hblock himage]
        simp only [transferBlocks, List.cons_append, List.filterMap_cons, RunnerRequest.event,
          dif_pos hshort]
        exact runs_cons_eq_some.mpr ⟨_, _, _, hstep, hruns, rfl⟩
      · rw [slices_of_ne_nil hblock himage, List.length_cons, List.length_cons, hcount]
      · intro a ha
        rcases List.mem_cons.mp ha with rfl | hrest
        · rfl
        · exact hok a hrest
      · rw [hcontents, hstored, store_padded_take_drop hpos hdvd]

/-! ## The whole upload -/

/-- An absolute address becomes one from the start of the flash. -/
theorem toNat_normalizeAddress {baseAddress : ℕ} (hword : baseAddress < 2 ^ cfg.wordBits)
    (hbase : cfg.flashBaseAddress.toNat < baseAddress) :
    (normalizeAddress cfg (BitVec.ofNat cfg.wordBits baseAddress)).toNat =
      baseAddress - cfg.flashBaseAddress.toNat := by
  have hnat : (BitVec.ofNat cfg.wordBits baseAddress).toNat = baseAddress := by
    rw [BitVec.toNat_ofNat, Nat.mod_eq_of_lt hword]
  have hlt : cfg.flashBaseAddress < BitVec.ofNat cfg.wordBits baseAddress := by
    rw [BitVec.lt_def, hnat]
    exact hbase
  unfold normalizeAddress
  rw [if_pos hlt, BitVec.toNat_sub_of_le (BitVec.le_of_lt hlt), hnat]

/-- **The announcement of the blocks is accepted.** -/
theorem step_programming_start {baseAddress memorysize : ℕ} (hidle : BothIdle s)
    (hready : P.flashReady s.world = true) (hw : P.flashWriteBlockSize ≤ 32)
    (hword : baseAddress < 2 ^ cfg.wordBits) (hbase : cfg.flashBaseAddress.toNat < baseAddress)
    (hsize : 0 < memorysize)
    (hin : baseAddress - cfg.flashBaseAddress.toNat + memorysize ≤ cfg.flashMaxSize.toNat) :
    ∃ s', step cfg P s (.requestDownload
        ⟨BitVec.ofNat cfg.wordBits baseAddress, BitVec.ofNat cfg.wordBits memorysize, 0x00⟩) =
        some ({ code := .ok }, s') ∧
      Programming P (baseAddress - cfg.flashBaseAddress.toNat)
        (baseAddress - cfg.flashBaseAddress.toNat + memorysize) s' ∧
      s'.world = s.world := by
  have hmax := cfg.flashMaxSize.isLt
  have haddr := toNat_normalizeAddress hword hbase
  set addr := normalizeAddress cfg (BitVec.ofNat cfg.wordBits baseAddress) with haddrDef
  have hstop : (addr + BitVec.ofNat cfg.wordBits memorysize).toNat =
      baseAddress - cfg.flashBaseAddress.toNat + memorysize := by
    rw [toNat_add_ofNat (by omega), haddr]
  have hnonzero : BitVec.ofNat cfg.wordBits memorysize ≠ 0 := by
    intro hzero
    have := congrArg BitVec.toNat hzero
    rw [BitVec.toNat_ofNat, Nat.mod_eq_of_lt (by omega)] at this
    simp at this
    omega
  have hfits : ¬ cfg.flashMaxSize < addr + BitVec.ofNat cfg.wordBits memorysize := by
    rw [BitVec.lt_def, hstop]
    omega
  have hblock : ¬ maximumFlashWriteBlockSize < P.flashWriteBlockSize := by
    unfold maximumFlashWriteBlockSize
    omega
  refine ⟨{ s with updown :=
      ⟨.downloadInProgress, addr, addr, BitVec.ofNat cfg.wordBits memorysize,
        P.flashWriteBlockSize⟩ }, ?_, ⟨rfl, hidle.file, rfl, haddr, hstop⟩, rfl⟩
  simp only [step, udsActionUploadDownload, Event.isStart, if_true,
    transferExit_of_bothIdle hidle, ne_eq, not_true_eq_false, and_false, if_false, startDownload,
    hready, Bool.true_eq_false, hnonzero, ← haddrDef, hfits, hblock]

/-- **The runner's upload flashes the image.** For an image of any length
and blocks of whole write blocks, with the blocks' range inside the erased
flash: every request of `upload_firmware` is answered positively, and
after the exit the range holds the image and then erased bytes, with
every byte outside of it as it was. -/
theorem flashed_uploadFirmware (hstores : P.FlashStores contents cfg.flashMaxSize.toNat)
    (image : List UInt8) (himage : image ≠ []) (blockSize : ℕ) (hblock : 0 < blockSize)
    (hmax : blockSize ≤ 65535) (hdvd : P.flashWriteBlockSize ∣ blockSize)
    (hw : P.flashWriteBlockSize ≤ 32) (baseAddress : ℕ) (hword : baseAddress < 2 ^ cfg.wordBits)
    (hbase : cfg.flashBaseAddress.toNat < baseAddress)
    (hgrid : P.flashWriteBlockSize ∣ baseAddress - cfg.flashBaseAddress.toNat)
    (hin : baseAddress - cfg.flashBaseAddress.toNat +
      (readAndSplitFirmwareIntoBlocks blockSize image).length * blockSize ≤
        cfg.flashMaxSize.toNat)
    (hidle : BothIdle s) (hready : P.flashReady s.world = true)
    (herased : ∀ i, baseAddress - cfg.flashBaseAddress.toNat ≤ i →
      i < baseAddress - cfg.flashBaseAddress.toNat +
        (readAndSplitFirmwareIntoBlocks blockSize image).length * blockSize →
      contents s.world i = 0xFF)
    (maxRespLen : UInt16) (copyResponse : Option (List UInt8 → UInt8)) :
    ∃ as s', runs (step cfg P) s
        ((uploadFirmware blockSize (readAndSplitFirmwareIntoBlocks blockSize image)
          baseAddress).filterMap (RunnerRequest.event cfg.wordBits maxRespLen copyResponse)) =
        some (as, s') ∧
      as.length = (readAndSplitFirmwareIntoBlocks blockSize image).length + 2 ∧
      (∀ a ∈ as, a.code = .ok) ∧
      readRange (contents s'.world) (baseAddress - cfg.flashBaseAddress.toNat)
          ((readAndSplitFirmwareIntoBlocks blockSize image).length * blockSize) =
        image ++ List.replicate
          ((readAndSplitFirmwareIntoBlocks blockSize image).length * blockSize - image.length)
          0xFF ∧
      ∀ i, i < baseAddress - cfg.flashBaseAddress.toNat ∨
          baseAddress - cfg.flashBaseAddress.toNat +
            (readAndSplitFirmwareIntoBlocks blockSize image).length * blockSize ≤ i →
        contents s'.world i = contents s.world i := by
  have hpos := P.flashWriteBlockSize_pos
  set off := baseAddress - cfg.flashBaseAddress.toNat
  set total := (readAndSplitFirmwareIntoBlocks blockSize image).length * blockSize with htotal
  have hlen := List.length_pos_iff.mpr himage
  have hcover : image.length ≤ total := by
    rw [htotal, readAndSplitFirmwareIntoBlocks, length_slices]
    exact le_sliceCount_mul hblock
  have hround : roundUp image.length P.flashWriteBlockSize ≤ total :=
    roundUp_le_of_dvd hpos hcover (Nat.dvd_mul_left_of_dvd hdvd _)
  obtain ⟨s1, hstart, hs1, hworld⟩ := step_programming_start hidle hready hw hword hbase
    (by omega) hin
  obtain ⟨as, s', hruns, hcount, hok, hstored⟩ := runs_transferBlocks hstores hblock hmax hdvd
    maxRespLen copyResponse hin image.length image 0 off s1 rfl
    hs1 (fun _ => hgrid) (fun _ => by omega)
    (fun i h1 h2 => by rw [hworld]; exact herased i h1 (by omega))
  rw [hworld] at hstored
  have hpadded := length_padded hpos image
  refine ⟨{ code := .ok } :: as, s', ?_, ?_, ?_, ?_, ?_⟩
  · exact runs_cons_eq_some.mpr ⟨_, _, _, hstart, hruns, rfl⟩
  · rw [List.length_cons, hcount, readAndSplitFirmwareIntoBlocks]
  · intro a ha
    rcases List.mem_cons.mp ha with rfl | hrest
    · rfl
    · exact hok a hrest
  · rw [hstored]
    exact readRange_store_padded hpos hround herased
  · intro i hi
    rw [hstored]
    rcases hi with hlt | hge
    · exact store_of_lt hlt
    · exact store_of_ge (by omega)

theorem flashSimulator_flashStores (size : ℕ) : (flashSimulator size).FlashStores id size := by
  intro off bytes t hoff hlen hin _
  have hwrite : (flashSimulator size).flashWrite off bytes t = (0, store t off bytes) :=
    if_pos ⟨hoff, hlen, hin⟩
  rw [hwrite]
  exact ⟨rfl, rfl⟩

/-- Eleven bytes in blocks of eight: the second block has three, is
padded to a write block, and leaves another erased. -/
theorem flashed_uploadFirmware_eleven :
    ∃ as s', runs (step simulatorConfig (flashSimulator 64)) (System.initial fun _ => 0xFF)
        ((uploadFirmware 8 (readAndSplitFirmwareIntoBlocks 8 [1, 2, 3, 4, 5, 6, 7, 8, 9, 10, 11])
          16).filterMap (RunnerRequest.event 32 0 none)) = some (as, s') ∧
      as.length = 4 ∧ (∀ a ∈ as, a.code = .ok) ∧
      readRange s'.world 16 16 =
        [1, 2, 3, 4, 5, 6, 7, 8, 9, 10, 11, 0xFF, 0xFF, 0xFF, 0xFF, 0xFF] := by
  obtain ⟨as, s', hruns, hcount, hok, hrange, -⟩ :=
    @flashed_uploadFirmware simulatorConfig _ (flashSimulator 64)
      (System.initial fun _ => 0xFF) id (flashSimulator_flashStores 64)
      [1, 2, 3, 4, 5, 6, 7, 8, 9, 10, 11] (by decide) 8 (by decide) (by decide) (by decide)
      (by decide) 16 (by decide) (by decide) (by decide) (by decide) ⟨rfl, rfl, rfl⟩ rfl
      (fun _ _ _ => rfl) 0 none
  exact ⟨as, s', hruns, hcount, hok, hrange⟩

end Transfer

end Uds

end Ardep
