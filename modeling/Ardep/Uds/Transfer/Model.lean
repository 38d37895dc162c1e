import Ardep.Common.CellStore
import Ardep.Common.Files
import Ardep.Uds.Err
import Mathlib.Data.BitVec
import Mathlib.Data.List.Basic
/-!
# Transfer — the upload/download handler

`upload_download.c` and `upload_download_file_transfer.c`: two global
records, the flash transfer and the file transfer, moved by five events.
The flash driver and the file system are Zephyr's, so they enter as a
`Platform` whose calls return whatever they like; `uintptr_t` and `size_t`
are bit vectors of the machine's word width and wrap as they do in C.

An event gives `none` where the assertion in `transfer_exit` fails.
-/

namespace Ardep

namespace Uds

namespace Transfer

/-! ## The build and the platform -/

/-- What the build fixes: the devicetree's flash node, the Kconfig
symbols and the word width. -/
structure Config where
  /-- The width of `uintptr_t` and of `size_t`. -/
  wordBits : ℕ
  /-- A `uint16_t` promotes to `size_t` without loss. -/
  wordBits_ge : 16 ≤ wordBits
  /-- `FLASH_BASE_ADDRESS`. -/
  flashBaseAddress : BitVec wordBits
  /-- `FLASH_MAX_SIZE`. -/
  flashMaxSize : BitVec wordBits
  /-- `CONFIG_UDS_UPLOAD_MAX_PAYLOAD_SIZE`. -/
  uploadMaxPayloadSize : ℕ
  /-- `UDS_TP_MTU`. -/
  tpMtu : UInt16
  /-- `CONFIG_UDS_FILE_TRANSFER`. -/
  fileTransfer : Bool

/-- The flags `fs_open` is called with. -/
inductive OpenFlags
  /-- `FS_O_CREATE | FS_O_TRUNC | FS_O_RDWR`. -/
  | createTruncRdwr
  /-- `FS_O_READ`. -/
  | read
  deriving DecidableEq, Repr

/-- The part of `struct fs_dirent` the handler reads. -/
structure Dirent (w : ℕ) where
  /-- `entry.type == FS_DIR_ENTRY_FILE`. -/
  isFile : Bool
  size : BitVec w

/-- **The flash driver and the file system**, over a state of their own.
A call takes that state to a result and a next state; a read returns its
error code or the bytes it stored. The file system keeps the one
`struct fs_file_t` of the handler. -/
structure Platform (w : ℕ) (σ : Type) where
  /-- `flash_controller != NULL && device_is_ready(flash_controller)`. -/
  flashReady : σ → Bool
  /-- `flash_get_write_block_size`. -/
  flashWriteBlockSize : ℕ
  /-- A write block holds at least one byte. -/
  flashWriteBlockSize_pos : 0 < flashWriteBlockSize
  flashWrite : ℕ → List UInt8 → σ → ℤ × σ
  flashRead : ℕ → ℕ → σ → Except ℤ (List UInt8) × σ
  fsFileTInit : σ → σ
  fsOpen : List UInt8 → OpenFlags → σ → ℤ × σ
  fsStat : List UInt8 → σ → (ℤ × Dirent w) × σ
  fsRead : ℕ → σ → Except ℤ (List UInt8) × σ
  fsWrite : List UInt8 → σ → ℤ × σ
  fsClose : σ → σ
  fsUnlink : List UInt8 → σ → ℤ × σ

/-! ## The globals -/

/-- `enum UploadDownloadState`. -/
inductive UpDownMode
  | idle
  | downloadInProgress
  | uploadInProgress
  deriving DecidableEq, Repr

/-- `struct upload_download_state`. -/
structure UploadDownloadState (w : ℕ) where
  state : UpDownMode
  startAddress : BitVec w
  currentAddress : BitVec w
  totalSize : BitVec w
  writeBlockSize : ℕ
  deriving DecidableEq

/-- `enum FileTransferMode`. -/
inductive FileTransferMode
  | idle
  | write
  | read
  deriving DecidableEq, Repr

/-- `struct file_transfer_state`, less the file handle the platform keeps. -/
structure FileTransferState (w : ℕ) where
  mode : FileTransferMode
  fileOpen : Bool
  expectedSize : BitVec w
  transferred : BitVec w
  blockLength : UInt16
  deriving DecidableEq

/-- The two globals and the platform's state. -/
structure System (w : ℕ) (σ : Type) where
  updown : UploadDownloadState w
  file : FileTransferState w
  world : σ

/-- The globals as they are initialised. -/
def System.initial {w : ℕ} {σ : Type} (world : σ) : System w σ where
  updown := ⟨.idle, 0, 0, 0, 0⟩
  file := ⟨.idle, false, 0, 0, 0⟩
  world := world

/-! ## The requests -/

/-- `UDSRequestDownloadArgs_t`. -/
structure RequestDownloadArgs (w : ℕ) where
  addr : BitVec w
  size : BitVec w
  dataFormatIdentifier : UInt8

/-- `UDSRequestUploadArgs_t`; the handler does not read the format. -/
structure RequestUploadArgs (w : ℕ) where
  addr : BitVec w
  size : BitVec w
  maxNumberOfBlockLength : UInt16

/-- `modeOfOperation` of a file transfer request. -/
inductive ModeOfOperation
  | addFile
  | delFile
  | replFile
  | rdFile
  | other (code : UInt8)
  deriving DecidableEq, Repr

/-- `UDSRequestFileTransferArgs_t`; `filePath` is `none` for a null
pointer and else the `filePathLen` bytes it points to. -/
structure RequestFileTransferArgs (w : ℕ) where
  modeOfOperation : ModeOfOperation
  filePath : Option (List UInt8)
  fileSizeCompressed : BitVec w
  maxNumberOfBlockLength : UInt16

/-- `UDSTransferDataArgs_t`. The length is a `uint16_t`; `copyResponse` is
`none` for a null pointer and else says which status the copy of a block
gets. -/
structure TransferDataArgs where
  data : List UInt8
  len_lt : data.length < 2 ^ 16
  maxRespLen : UInt16
  copyResponse : Option (List UInt8 → UInt8)

/-- The five events the handler is registered for. -/
inductive Event (w : ℕ)
  | requestDownload (args : RequestDownloadArgs w)
  | requestUpload (args : RequestUploadArgs w)
  | requestFileTransfer (args : RequestFileTransferArgs w)
  | transferData (args : TransferDataArgs)
  | requestTransferExit

/-- What an event gives back: the code, the `maxNumberOfBlockLength` it
left in the arguments where it wrote that field, and the block it handed
to `copyResponse`. -/
structure Answer where
  code : UDSErr
  maxNumberOfBlockLength : Option UInt16 := none
  copied : Option (List UInt8) := none
  deriving DecidableEq

/-! ## Flash transfers -/

section Flash

variable (cfg : Config) {σ : Type} (P : Platform cfg.wordBits σ)

/-- `MAXIMUM_FLASH_WRITE_BLOCK_SIZE`. -/
def maximumFlashWriteBlockSize : ℕ := 32

/-- `UDS_0X36_RESP_BASE_LEN`. -/
def udsRespBaseLen : ℕ := 2

/-- Normalize an address to start at 0, not at the flash base address. -/
def normalizeAddress (addr : BitVec cfg.wordBits) : BitVec cfg.wordBits :=
  if cfg.flashBaseAddress < addr then addr - cfg.flashBaseAddress else addr

/-- `start_download`. -/
def startDownload (args : RequestDownloadArgs cfg.wordBits) (s : System cfg.wordBits σ) :
    Answer × System cfg.wordBits σ :=
  if P.flashReady s.world = false then ({ code := .uploadDownloadNotAccepted }, s)
  else if args.size = 0 then ({ code := .requestOutOfRange }, s)
  else
    let addr := normalizeAddress cfg args.addr
    if cfg.flashMaxSize < addr + args.size then ({ code := .requestOutOfRange }, s)
    else if args.dataFormatIdentifier ≠ 0x00 then ({ code := .requestOutOfRange }, s)
    else
      let s := { s with updown :=
        { s.updown with
          startAddress := addr
          currentAddress := addr
          totalSize := args.size
          writeBlockSize := P.flashWriteBlockSize } }
      -- the addresses stay behind when the block size is refused
      if maximumFlashWriteBlockSize < P.flashWriteBlockSize then
        ({ code := .uploadDownloadNotAccepted }, s)
      else
        ({ code := .ok }, { s with updown := { s.updown with state := .downloadInProgress } })

/-- `start_upload`. -/
def startUpload (args : RequestUploadArgs cfg.wordBits) (s : System cfg.wordBits σ) :
    Answer × System cfg.wordBits σ :=
  if s.updown.state ≠ .idle then ({ code := .requestSequenceError }, s)
  else if P.flashReady s.world = false then ({ code := .uploadDownloadNotAccepted }, s)
  else if args.size = 0 then ({ code := .requestOutOfRange }, s)
  else
    let addr := normalizeAddress cfg args.addr
    if cfg.flashMaxSize < addr + args.size then ({ code := .requestOutOfRange }, s)
    else
      ({ code := .ok
         maxNumberOfBlockLength := some (UInt16.ofNat
           (min (cfg.uploadMaxPayloadSize + udsRespBaseLen) args.maxNumberOfBlockLength.toNat)) },
        { s with updown :=
          { s.updown with
            startAddress := addr
            currentAddress := addr
            totalSize := args.size
            state := .uploadInProgress } })

/-- The last write block of a download: the bytes past the whole blocks,
padded with `0xFF`. -/
def lastBytes (writeBlockSize : ℕ) (rest : List UInt8) : List UInt8 :=
  rest ++ List.replicate (writeBlockSize - rest.length) 0xFF

/-- `continue_download`. -/
def continueDownload (args : TransferDataArgs) (s : System cfg.wordBits σ) :
    Answer × System cfg.wordBits σ :=
  let u := s.updown
  let len := BitVec.ofNat cfg.wordBits args.data.length
  if args.data.length = 0 ∨ u.startAddress + u.totalSize < u.currentAddress + len then
    ({ code := .requestOutOfRange }, s)
  else
    let overflowSize := args.data.length % u.writeBlockSize
    let firstWrite := args.data.length - overflowSize
    let (rc, world) :=
      if 0 < firstWrite then
        P.flashWrite u.currentAddress.toNat (args.data.take firstWrite) s.world
      else (0, s.world)
    if rc ≠ 0 then ({ code := .generalProgrammingFailure }, { s with world := world })
    else
      let (rc, world) :=
        if overflowSize ≠ 0 then
          P.flashWrite (u.currentAddress + BitVec.ofNat cfg.wordBits firstWrite).toNat
            (lastBytes u.writeBlockSize (args.data.drop firstWrite)) world
        else (0, world)
      if rc ≠ 0 then ({ code := .generalProgrammingFailure }, { s with world := world })
      else
        ({ code := .ok },
          { s with updown := { u with currentAddress := u.currentAddress + len }, world := world })

/-- `continue_upload`. What `copyResponse` returns is not looked at. -/
def continueUpload (args : TransferDataArgs) (s : System cfg.wordBits σ) :
    Answer × System cfg.wordBits σ :=
  let u := s.updown
  if u.state ≠ .uploadInProgress then ({ code := .requestSequenceError }, s)
  else if u.startAddress + u.totalSize ≤ u.currentAddress then
    ({ code := .requestSequenceError }, s)
  else
    let lenToCopy := min cfg.uploadMaxPayloadSize
      (min args.maxRespLen.toNat (u.startAddress + u.totalSize - u.currentAddress).toNat)
    match P.flashRead u.currentAddress.toNat lenToCopy s.world with
    | (.error _, world) => ({ code := .generalProgrammingFailure }, { s with world := world })
    | (.ok buffer, world) =>
      match args.copyResponse with
      | none => ({ code := .misuse }, { s with world := world })
      | some _ =>
        ({ code := .ok, copied := some buffer },
          { s with
            updown := { u with currentAddress := u.currentAddress + BitVec.ofNat _ lenToCopy }
            world := world })

/-- `uds_upload_download_reset`. -/
def udsUploadDownloadReset {w : ℕ} (s : System w σ) : UDSErr × System w σ :=
  if s.updown.state = .idle then (.requestSequenceError, s)
  else
    (.ok, { s with updown :=
      { s.updown with state := .idle, startAddress := 0, currentAddress := 0, totalSize := 0 } })

end Flash

/-! ## File transfers -/

section File

variable (cfg : Config) {σ : Type} (P : Platform cfg.wordBits σ)

/-- `UDS_FILE_TRANSFER_MAX_PATH`. -/
def udsFileTransferMaxPath : ℕ := 256

/-- `uds_file_transfer_block_length`. -/
def udsFileTransferBlockLength (requested : UInt16) : UInt16 :=
  if 0 < requested ∧ requested < cfg.tpMtu then requested else cfg.tpMtu

/-- `fs_error_to_nrc`. -/
def fsErrorToNrc (err : ℤ) : UDSErr :=
  if -err = ENOENT then .requestOutOfRange
  else if -err = EPERM ∨ -err = EACCES then .securityAccessDenied
  else .uploadDownloadNotAccepted

/-- The C string a buffer of path bytes holds once terminated: it ends at
the first zero byte. -/
def cString (bytes : List UInt8) : List UInt8 := bytes.takeWhile (· ≠ 0)

/-- `uds_file_transfer_reset`. -/
def udsFileTransferReset (s : System cfg.wordBits σ) : System cfg.wordBits σ :=
  { s with
    file := ⟨.idle, false, 0, 0, 0⟩
    world := if s.file.fileOpen then P.fsClose s.world else s.world }

/-- `uds_file_transfer_begin_write`. -/
def udsFileTransferBeginWrite (path : List UInt8) (expectedSize : BitVec cfg.wordBits)
    (args : RequestFileTransferArgs cfg.wordBits) (s : System cfg.wordBits σ) :
    Answer × System cfg.wordBits σ :=
  let (rc, world) := P.fsOpen path .createTruncRdwr (P.fsFileTInit s.world)
  if rc < 0 then ({ code := fsErrorToNrc rc }, { s with world := world })
  else
    let blockLength := udsFileTransferBlockLength cfg args.maxNumberOfBlockLength
    ({ code := .ok, maxNumberOfBlockLength := some blockLength },
      { s with file := ⟨.write, true, expectedSize, 0, blockLength⟩, world := world })

/-- `uds_file_transfer_begin_read`. The reset on the two failure branches
runs before `file_open` is set. -/
def udsFileTransferBeginRead (path : List UInt8) (args : RequestFileTransferArgs cfg.wordBits)
    (s : System cfg.wordBits σ) : Answer × System cfg.wordBits σ :=
  let (rc, world) := P.fsOpen path .read (P.fsFileTInit s.world)
  if rc < 0 then ({ code := fsErrorToNrc rc }, { s with world := world })
  else
    let ((rc, entry), world) := P.fsStat path world
    let s := { s with world := world }
    if rc < 0 then ({ code := fsErrorToNrc rc }, udsFileTransferReset cfg P s)
    else if entry.isFile = false then
      ({ code := .requestOutOfRange }, udsFileTransferReset cfg P s)
    else
      let blockLength := udsFileTransferBlockLength cfg args.maxNumberOfBlockLength
      ({ code := .ok, maxNumberOfBlockLength := some blockLength },
        { s with file := ⟨.read, true, entry.size, 0, blockLength⟩ })

/-- `uds_file_transfer_delete`. -/
def udsFileTransferDelete (path : List UInt8) (s : System cfg.wordBits σ) :
    UDSErr × System cfg.wordBits σ :=
  let (rc, world) := P.fsUnlink path s.world
  (if rc < 0 then fsErrorToNrc rc else .ok, { s with world := world })

/-- `uds_file_transfer_request`. -/
def udsFileTransferRequest (arg : Option (RequestFileTransferArgs cfg.wordBits))
    (s : System cfg.wordBits σ) : Answer × System cfg.wordBits σ :=
  match arg with
  | none => ({ code := .misuse }, s)
  | some args =>
    match args.filePath with
    | none => ({ code := .requestOutOfRange }, s)
    | some filePath =>
      if filePath.length = 0 ∨ udsFileTransferMaxPath ≤ filePath.length then
        ({ code := .requestOutOfRange }, s)
      else
        let path := cString filePath
        match args.modeOfOperation with
        | .addFile | .replFile =>
          udsFileTransferBeginWrite cfg P path args.fileSizeCompressed args s
        | .delFile =>
          let (err, s) := udsFileTransferDelete cfg P path s
          ({ code := err, maxNumberOfBlockLength := some 0 }, s)
        | .rdFile => udsFileTransferBeginRead cfg P path args s
        | .other _ => ({ code := .requestOutOfRange }, s)

/-- `uds_file_transfer_write`. -/
def udsFileTransferWrite (args : TransferDataArgs) (s : System cfg.wordBits σ) :
    Answer × System cfg.wordBits σ :=
  let f := s.file
  let len := BitVec.ofNat cfg.wordBits args.data.length
  if args.data.length = 0 then ({ code := .requestOutOfRange }, s)
  else if 0 < f.expectedSize ∧ f.expectedSize < f.transferred + len then
    ({ code := .requestOutOfRange }, s)
  else
    let (rc, world) := P.fsWrite args.data s.world
    let s := { s with world := world }
    if rc < 0 then ({ code := fsErrorToNrc rc }, s)
    else if rc ≠ args.data.length then ({ code := .uploadDownloadNotAccepted }, s)
    else ({ code := .ok }, { s with file := { f with transferred := f.transferred + len } })

/-- `uds_file_transfer_read`. -/
def udsFileTransferRead (args : TransferDataArgs) (s : System cfg.wordBits σ) :
    Answer × System cfg.wordBits σ :=
  let f := s.file
  match args.copyResponse with
  | none => ({ code := .misuse }, s)
  | some copyResponse =>
    let remaining := if f.transferred ≤ f.expectedSize then f.expectedSize - f.transferred else 0
    if remaining = 0 then ({ code := .requestSequenceError }, s)
    else
      match P.fsRead (min args.maxRespLen.toNat remaining.toNat) s.world with
      | (.error rc, world) => ({ code := fsErrorToNrc rc }, { s with world := world })
      | (.ok bytes, world) =>
        let s := { s with world := world }
        if bytes.length = 0 then ({ code := .requestSequenceError }, s)
        else
          let copyStatus := copyResponse bytes
          if copyStatus ≠ 0 then ({ code := .ofByte copyStatus, copied := some bytes }, s)
          else
            ({ code := .ok, copied := some bytes },
              { s with file :=
                { f with transferred := f.transferred + BitVec.ofNat _ bytes.length } })

/-- `uds_file_transfer_continue`. -/
def udsFileTransferContinue (arg : Option TransferDataArgs) (s : System cfg.wordBits σ) :
    Answer × System cfg.wordBits σ :=
  match arg with
  | none => ({ code := .misuse }, s)
  | some args =>
    match s.file.mode with
    | .write => udsFileTransferWrite cfg P args s
    | .read => udsFileTransferRead cfg P args s
    | .idle => ({ code := .requestSequenceError }, s)

/-- `uds_file_transfer_exit`. -/
def udsFileTransferExit (s : System cfg.wordBits σ) : UDSErr × System cfg.wordBits σ :=
  if s.file.mode = .idle then (.requestSequenceError, s)
  else
    let complete :=
      ¬ (s.file.mode = .write ∧ 0 < s.file.expectedSize ∧
        s.file.transferred ≠ s.file.expectedSize)
    (if complete then .ok else .generalProgrammingFailure, udsFileTransferReset cfg P s)

/-- `uds_file_transfer_is_active`. -/
def udsFileTransferIsActive {w : ℕ} (s : System w σ) : Bool := s.file.mode ≠ .idle

end File

/-! ## The handler -/

section Handler

variable (cfg : Config) {σ : Type} (P : Platform cfg.wordBits σ)

/-- `transfer_exit`: `none` where its assertion fails. -/
def transferExit (s : System cfg.wordBits σ) : Option (UDSErr × System cfg.wordBits σ) :=
  if cfg.fileTransfer then
    let (ret1, s) := udsUploadDownloadReset s
    let (ret2, s) := udsFileTransferExit cfg P s
    -- at least one must return out of sequence error, not both can be running
    if ret1 = .requestSequenceError ∨ ret2 = .requestSequenceError then
      some (if ret1 = .requestSequenceError then ret2 else ret1, s)
    else none
  else some (udsUploadDownloadReset s)

/-- The three events that start a transfer. -/
def Event.isStart {w : ℕ} : Event w → Bool
  | .requestDownload _ => true
  | .requestUpload _ => true
  | .requestFileTransfer _ => true
  | .transferData _ => false
  | .requestTransferExit => false

/-- `uds_action_upload_download`. -/
def udsActionUploadDownload (e : Event cfg.wordBits) (s : System cfg.wordBits σ) :
    Option (Answer × System cfg.wordBits σ) :=
  -- reset state before start requests (as timeouts are not reported)
  match if e.isStart then transferExit cfg P s else some (.ok, s) with
  | none => none
  | some (err, s) =>
    if err ≠ .ok ∧ err ≠ .requestSequenceError then some ({ code := err }, s)
    else
      match e with
      | .requestDownload args => some (startDownload cfg P args s)
      | .requestUpload args => some (startUpload cfg P args s)
      | .requestFileTransfer args =>
        if cfg.fileTransfer then some (udsFileTransferRequest cfg P (some args) s)
        else some ({ code := .serviceNotSupported }, s)
      | .transferData args =>
        if cfg.fileTransfer ∧ udsFileTransferIsActive s then
          some (udsFileTransferContinue cfg P (some args) s)
        else if s.updown.state = .downloadInProgress then some (continueDownload cfg P args s)
        else if s.updown.state = .uploadInProgress then some (continueUpload cfg P args s)
        else some ({ code := .requestSequenceError }, s)
      | .requestTransferExit =>
        match transferExit cfg P s with
        | none => none
        | some (err, s) => some ({ code := err }, s)

end Handler

/-! ## Devices to run it on -/

/-- A build for the flash simulator: 64 bytes from address 0, no file
transfer. -/
def simulatorConfig : Config where
  wordBits := 32
  wordBits_ge := by decide
  flashBaseAddress := 0
  flashMaxSize := 64
  uploadMaxPayloadSize := 128
  tpMtu := 4095
  fileTransfer := false

/-- A flash of `size` bytes in write blocks of four, its state being its
contents, and no file system: a file call fails. -/
def flashSimulator (size : ℕ) : Platform 32 (ℕ → UInt8) where
  flashReady := fun _ => true
  flashWriteBlockSize := 4
  flashWriteBlockSize_pos := by decide
  flashWrite := fun off bytes t =>
    if 4 ∣ off ∧ 4 ∣ bytes.length ∧ off + bytes.length ≤ size then (0, store t off bytes)
    else (-EINVAL, t)
  flashRead := fun off len t =>
    if off + len ≤ size then (.ok (readRange t off len), t) else (.error (-EINVAL), t)
  fsFileTInit := id
  fsOpen := fun _ _ t => (-ENOENT, t)
  fsStat := fun _ t => ((-ENOENT, ⟨false, 0⟩), t)
  fsRead := fun _ t => (.error (-ENOENT), t)
  fsWrite := fun _ t => (-ENOENT, t)
  fsClose := id
  fsUnlink := fun _ t => (-ENOENT, t)

/-- A build with file transfers. -/
def fileConfig : Config := { simulatorConfig with fileTransfer := true }

/-- A file system that is its files, and no flash. A write of `len` bytes
at position `pos` takes `accepts pos len` of them. -/
def fileSimulator (accepts : ℕ → ℕ → ℕ) : Platform 32 (Files (List UInt8) UInt8) where
  flashReady := fun _ => false
  flashWriteBlockSize := 1
  flashWriteBlockSize_pos := Nat.one_pos
  flashWrite := fun _ _ t => (-EINVAL, t)
  flashRead := fun _ _ t => (.error (-EINVAL), t)
  fsFileTInit := id
  fsOpen := fun path flags t =>
    match flags with
    | .createTruncRdwr => (0, t.create path)
    | .read => if (t.contents path).isSome then (0, t.openRead path) else (-ENOENT, t)
  fsStat := fun path t =>
    match t.contents path with
    | some file => ((0, ⟨true, BitVec.ofNat 32 file.length⟩), t)
    | none => ((-ENOENT, ⟨false, 0⟩), t)
  fsRead := fun n t =>
    match t.handle with
    | some _ => (.ok (t.read n).1, (t.read n).2)
    | none => (.error (-EINVAL), t)
  fsWrite := fun data t =>
    match t.handle with
    | some (_, pos) =>
      ((min (accepts pos data.length) data.length : ℕ),
        t.write (data.take (min (accepts pos data.length) data.length)))
    | none => (-EINVAL, t)
  fsClose := Files.close
  fsUnlink := fun path t =>
    match t.contents path with
    | some _ => (0, { t with contents := Function.update t.contents path none })
    | none => (-ENOENT, t)

/-- A file system that takes every byte it is given. -/
def allBytes : ℕ → ℕ → ℕ := fun _ len => len

/-- No file yet, and none open. -/
def noFiles : Files (List UInt8) UInt8 := ⟨fun _ => none, none⟩

/-- The flash simulator and the file simulator side by side. -/
def boardSimulator (size : ℕ) : Platform 32 ((ℕ → UInt8) × Files (List UInt8) UInt8) where
  flashReady := fun _ => true
  flashWriteBlockSize := 4
  flashWriteBlockSize_pos := (flashSimulator size).flashWriteBlockSize_pos
  flashWrite := fun off bytes t =>
    let (rc, flash) := (flashSimulator size).flashWrite off bytes t.1
    (rc, flash, t.2)
  flashRead := fun off len t =>
    let (r, flash) := (flashSimulator size).flashRead off len t.1
    (r, flash, t.2)
  fsFileTInit := id
  fsOpen := fun path flags t =>
    let (rc, files) := (fileSimulator allBytes).fsOpen path flags t.2
    (rc, t.1, files)
  fsStat := fun path t =>
    let (r, files) := (fileSimulator allBytes).fsStat path t.2
    (r, t.1, files)
  fsRead := fun n t =>
    let (r, files) := (fileSimulator allBytes).fsRead n t.2
    (r, t.1, files)
  fsWrite := fun data t =>
    let (rc, files) := (fileSimulator allBytes).fsWrite data t.2
    (rc, t.1, files)
  fsClose := fun t => (t.1, t.2.close)
  fsUnlink := fun path t =>
    let (rc, files) := (fileSimulator allBytes).fsUnlink path t.2
    (rc, t.1, files)

end Transfer

end Uds

end Ardep
