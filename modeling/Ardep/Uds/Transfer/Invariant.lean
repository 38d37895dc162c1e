import Ardep.Common.Machine
import Ardep.Uds.Transfer.Model
/-!
# Transfer — one transfer at a time

Nothing in the handler checks that a flash transfer and a file transfer
do not run together. It follows from every start request resetting both
first: `transferExit` leaves both idle from any state in which at most
one runs, and a start request that fails half-way has started nothing.
`Exclusive` is the invariant, and with it the assertion in
`transfer_exit` cannot fail.

`Platform.traced` is the platform with every flash and file call logged,
for the results that say no call is made.
-/

namespace Ardep

namespace Uds

namespace Transfer

/-! ## The machine and the traced platform -/

/-- The handler as a machine. An event finds the platform in any state,
whatever the rest of the system has done to it since the last one. -/
def machine (cfg : Config) {σ : Type} (P : Platform cfg.wordBits σ) :
    Machine (System cfg.wordBits σ) (σ × Event cfg.wordBits) where
  init s := ∃ world, s = System.initial world
  Step s e s' := ∃ a, udsActionUploadDownload cfg P e.2 { s with world := e.1 } = some (a, s')

/-- One call of the flash driver or the file system, with the result of
an `fs_open`. -/
inductive Access
  | flashWrite (offset len : ℕ)
  | flashRead (offset len : ℕ)
  | fsOpen (path : List UInt8) (flags : OpenFlags) (rc : ℤ)
  | fsStat (path : List UInt8)
  | fsRead (len : ℕ)
  | fsWrite (len : ℕ)
  | fsClose
  | fsUnlink (path : List UInt8)
  deriving DecidableEq

/-- The platform with its calls logged beside its state. -/
def Platform.traced {w : ℕ} {σ : Type} (P : Platform w σ) : Platform w (σ × List Access) where
  flashReady := fun t => P.flashReady t.1
  flashWriteBlockSize := P.flashWriteBlockSize
  flashWriteBlockSize_pos := P.flashWriteBlockSize_pos
  flashWrite := fun off bytes t =>
    let (rc, world) := P.flashWrite off bytes t.1
    (rc, world, t.2 ++ [.flashWrite off bytes.length])
  flashRead := fun off len t =>
    let (r, world) := P.flashRead off len t.1
    (r, world, t.2 ++ [.flashRead off len])
  fsFileTInit := fun t => (P.fsFileTInit t.1, t.2)
  fsOpen := fun path flags t =>
    let (rc, world) := P.fsOpen path flags t.1
    (rc, world, t.2 ++ [.fsOpen path flags rc])
  fsStat := fun path t =>
    let (r, world) := P.fsStat path t.1
    (r, world, t.2 ++ [.fsStat path])
  fsRead := fun len t =>
    let (r, world) := P.fsRead len t.1
    (r, world, t.2 ++ [.fsRead len])
  fsWrite := fun bytes t =>
    let (rc, world) := P.fsWrite bytes t.1
    (rc, world, t.2 ++ [.fsWrite bytes.length])
  fsClose := fun t => (P.fsClose t.1, t.2 ++ [.fsClose])
  fsUnlink := fun path t =>
    let (rc, world) := P.fsUnlink path t.1
    (rc, world, t.2 ++ [.fsUnlink path])

/-- The same globals over another platform state. -/
def System.onWorld {w : ℕ} {σ τ : Type} (s : System w σ) (world : τ) : System w τ :=
  ⟨s.updown, s.file, world⟩

/-! ## The invariant -/

variable {cfg : Config} {σ : Type} {P : Platform cfg.wordBits σ}
variable {s s' : System cfg.wordBits σ}

/-- **At most one transfer runs**, the file is open exactly while one of
its transfers does, and a build without file transfers has none. -/
structure Exclusive (cfg : Config) (s : System cfg.wordBits σ) : Prop where
  one : s.updown.state = .idle ∨ s.file.mode = .idle
  open_iff : s.file.fileOpen = true ↔ s.file.mode ≠ .idle
  disabled : cfg.fileTransfer = false → s.file.mode = .idle

/-- Both transfers idle, no file open. -/
structure BothIdle (s : System cfg.wordBits σ) : Prop where
  updown : s.updown.state = .idle
  file : s.file.mode = .idle
  closed : s.file.fileOpen = false

theorem BothIdle.exclusive (h : BothIdle s) : Exclusive cfg s :=
  ⟨Or.inl h.updown, by simp [h.file, h.closed], fun _ => h.file⟩

theorem Exclusive.bothIdle (h : Exclusive cfg s) (hu : s.updown.state = .idle)
    (hf : s.file.mode = .idle) : BothIdle s := by
  refine ⟨hu, hf, ?_⟩
  by_contra hopen
  exact h.open_iff.mp (by simpa using hopen) hf

theorem exclusive_initial (world : σ) : Exclusive cfg (System.initial world) :=
  BothIdle.exclusive ⟨rfl, rfl, rfl⟩

/-- The invariant does not read the platform's state. -/
theorem Exclusive.congr (h : Exclusive cfg s) (hu : s'.updown.state = s.updown.state)
    (hm : s'.file.mode = s.file.mode) (ho : s'.file.fileOpen = s.file.fileOpen) :
    Exclusive cfg s' :=
  ⟨by rw [hu, hm]; exact h.one, by rw [hm, ho]; exact h.open_iff,
    fun hd => by rw [hm]; exact h.disabled hd⟩

/-- Starting a flash transfer with the file side idle keeps the invariant. -/
theorem exclusive_of_file_idle (hm : s.file.mode = .idle) (ho : s.file.fileOpen = false) :
    Exclusive cfg s :=
  ⟨Or.inr hm, by simp [hm, ho], fun _ => hm⟩

/-! ## The exit -/

/-- The flash side's reset leaves it idle and the file side alone. -/
theorem udsUploadDownloadReset_spec {ret : UDSErr} (h : udsUploadDownloadReset s = (ret, s')) :
    s'.updown.state = .idle ∧ s'.file = s.file ∧ s'.world = s.world ∧
      (ret = .requestSequenceError ↔ s.updown.state = .idle) := by
  unfold udsUploadDownloadReset at h
  split at h <;> obtain ⟨rfl, rfl⟩ := Prod.mk.inj h <;> simp_all

/-- The file side's exit leaves it idle and closed, and answers out of
sequence exactly where no file transfer was running. -/
theorem udsFileTransferExit_spec {ret : UDSErr}
    (hopen : s.file.fileOpen = true ↔ s.file.mode ≠ .idle)
    (h : udsFileTransferExit cfg P s = (ret, s')) :
    s'.file.mode = .idle ∧ s'.file.fileOpen = false ∧ s'.updown = s.updown ∧
      (ret = .requestSequenceError ↔ s.file.mode = .idle) := by
  unfold udsFileTransferExit at h
  split at h
  · next hidle =>
    obtain ⟨rfl, rfl⟩ := Prod.mk.inj h
    refine ⟨hidle, ?_, rfl, by simp [hidle]⟩
    by_contra hc
    exact hopen.mp (by simpa using hc) hidle
  · next hidle =>
    obtain ⟨rfl, rfl⟩ := Prod.mk.inj h
    refine ⟨rfl, rfl, rfl, ?_⟩
    simp only [hidle, iff_false]
    split <;> decide

/-- **Where at most one transfer runs, the exit's assertion holds** and
both are idle afterwards. -/
theorem exists_transferExit (h : Exclusive cfg s) :
    ∃ err s', transferExit cfg P s = some (err, s') ∧ BothIdle s' := by
  unfold transferExit
  rcases hu : udsUploadDownloadReset s with ⟨ret1, s1⟩
  obtain ⟨h1, hfile, -, hret1⟩ := udsUploadDownloadReset_spec hu
  split
  · rcases hf : udsFileTransferExit cfg P s1 with ⟨ret2, s2⟩
    have hopen : s1.file.fileOpen = true ↔ s1.file.mode ≠ .idle := by
      rw [hfile]; exact h.open_iff
    obtain ⟨h2, hclosed, hup, hret2⟩ := udsFileTransferExit_spec hopen hf
    -- the side that is idle is the one that answers out of sequence
    have hassert : ret1 = .requestSequenceError ∨ ret2 = .requestSequenceError :=
      h.one.imp hret1.mpr fun hm => hret2.mpr (by rw [hfile]; exact hm)
    simp only [hf, if_pos hassert]
    exact ⟨_, s2, rfl, by rw [hup]; exact h1, h2, hclosed⟩
  · next hd =>
    have hm : s.file.mode = .idle := h.disabled (by simpa using hd)
    refine ⟨ret1, s1, rfl, h1, by rw [hfile]; exact hm, ?_⟩
    rw [hfile]
    by_contra hc
    exact h.open_iff.mp (by simpa using hc) hm

/-- From idle the exit answers out of sequence and does nothing. -/
theorem transferExit_of_bothIdle (h : BothIdle s) :
    transferExit cfg P s = some (.requestSequenceError, s) := by
  have hu : udsUploadDownloadReset s = (.requestSequenceError, s) := by
    simp [udsUploadDownloadReset, h.updown]
  have hf : udsFileTransferExit cfg P s = (.requestSequenceError, s) := by
    simp [udsFileTransferExit, h.file]
  unfold transferExit
  split <;> simp [hu, hf]

/-! ## The starts, from idle -/

theorem startDownload_file (args : RequestDownloadArgs cfg.wordBits) :
    (startDownload cfg P args s).2.file = s.file := by
  unfold startDownload
  dsimp only
  split_ifs <;> rfl

theorem startUpload_file (args : RequestUploadArgs cfg.wordBits) :
    (startUpload cfg P args s).2.file = s.file := by
  unfold startUpload
  dsimp only
  split_ifs <;> rfl

/-- A file transfer request leaves the flash side alone, and whatever
branch it returns from, the file is open exactly where a transfer of it
has started. -/
theorem udsFileTransferRequest_spec (h : BothIdle s)
    (arg : Option (RequestFileTransferArgs cfg.wordBits)) :
    (udsFileTransferRequest cfg P arg s).2.updown = s.updown ∧
      ((udsFileTransferRequest cfg P arg s).2.file.fileOpen = true ↔
        (udsFileTransferRequest cfg P arg s).2.file.mode ≠ .idle) := by
  have hidle : s.file.fileOpen = true ↔ s.file.mode ≠ .idle := by simp [h.file, h.closed]
  unfold udsFileTransferRequest
  cases arg with
  | none => exact ⟨rfl, hidle⟩
  | some args =>
    cases hp : args.filePath with
    | none => simp only [hp]; exact ⟨trivial, hidle⟩
    | some filePath =>
      simp only [hp]
      split
      · exact ⟨rfl, hidle⟩
      · cases args.modeOfOperation with
        | addFile | replFile =>
          simp only [udsFileTransferBeginWrite]
          split <;> simp [hidle]
        | delFile => simp [udsFileTransferDelete, hidle]
        | rdFile =>
          simp only [udsFileTransferBeginRead, udsFileTransferReset]
          split_ifs <;> simp [hidle]
        | other code => exact ⟨rfl, hidle⟩

/-! ## The continuations -/

theorem continueDownload_frame (args : TransferDataArgs) :
    (continueDownload cfg P args s).2.updown.state = s.updown.state ∧
      (continueDownload cfg P args s).2.file = s.file := by
  unfold continueDownload
  dsimp only
  split_ifs <;> exact ⟨rfl, rfl⟩

theorem continueUpload_frame (args : TransferDataArgs) :
    (continueUpload cfg P args s).2.updown.state = s.updown.state ∧
      (continueUpload cfg P args s).2.file = s.file := by
  unfold continueUpload
  dsimp only
  split_ifs
  · exact ⟨rfl, rfl⟩
  · exact ⟨rfl, rfl⟩
  · split
    · exact ⟨rfl, rfl⟩
    · split <;> exact ⟨rfl, rfl⟩

/-- Neither direction of a file transfer starts or ends one. -/
theorem udsFileTransferContinue_frame (arg : Option TransferDataArgs) :
    (udsFileTransferContinue cfg P arg s).2.updown = s.updown ∧
      (udsFileTransferContinue cfg P arg s).2.file.mode = s.file.mode ∧
      (udsFileTransferContinue cfg P arg s).2.file.fileOpen = s.file.fileOpen := by
  unfold udsFileTransferContinue
  cases arg with
  | none => exact ⟨rfl, rfl, rfl⟩
  | some args =>
    cases hm : s.file.mode with
    | idle => simp [hm]
    | write =>
      simp only [udsFileTransferWrite]
      split_ifs <;> simp [hm]
    | read =>
      simp only [udsFileTransferRead]
      cases args.copyResponse with
      | none => simp [hm]
      | some f =>
        dsimp only
        split_ifs
        · simp [hm]
        · split
          · simp [hm]
          · split_ifs <;> simp [hm]
        · simp [hm]
        · split
          · simp [hm]
          · split_ifs <;> simp [hm]

/-! ## The whole handler -/

/-- What an event does to a state in which at most one transfer runs: it
is answered, and the next state is such a state again. -/
theorem exists_udsActionUploadDownload (h : Exclusive cfg s) (e : Event cfg.wordBits) :
    ∃ a s', udsActionUploadDownload cfg P e s = some (a, s') ∧ Exclusive cfg s' := by
  -- a start and an exit both go through the exit of whatever runs
  obtain ⟨err, s1, hexit, hidle⟩ := exists_transferExit (P := P) h
  unfold udsActionUploadDownload
  cases e with
  | requestDownload args =>
    simp only [Event.isStart, if_true, hexit]
    split_ifs
    · exact ⟨_, s1, rfl, hidle.exclusive⟩
    · refine ⟨(startDownload cfg P args s1).1, (startDownload cfg P args s1).2, rfl,
        exclusive_of_file_idle ?_ ?_⟩ <;> rw [startDownload_file]
      · exact hidle.file
      · exact hidle.closed
  | requestUpload args =>
    simp only [Event.isStart, if_true, hexit]
    split_ifs
    · exact ⟨_, s1, rfl, hidle.exclusive⟩
    · refine ⟨(startUpload cfg P args s1).1, (startUpload cfg P args s1).2, rfl,
        exclusive_of_file_idle ?_ ?_⟩ <;> rw [startUpload_file]
      · exact hidle.file
      · exact hidle.closed
  | requestFileTransfer args =>
    simp only [Event.isStart, if_true, hexit]
    split_ifs with herr hcfg
    · exact ⟨_, s1, rfl, hidle.exclusive⟩
    · obtain ⟨hup, hopen⟩ := udsFileTransferRequest_spec (P := P) hidle (some args)
      exact ⟨(udsFileTransferRequest cfg P (some args) s1).1,
        (udsFileTransferRequest cfg P (some args) s1).2, rfl,
        Or.inl (by rw [hup]; exact hidle.updown), hopen, by simp [hcfg]⟩
    · exact ⟨_, s1, rfl, hidle.exclusive⟩
  | transferData args =>
    simp only [Event.isStart, Bool.false_eq_true, if_false, ne_eq, not_true_eq_false,
      false_and]
    split_ifs
    · obtain ⟨hup, hm, ho⟩ := udsFileTransferContinue_frame (P := P) (s := s) (some args)
      exact ⟨(udsFileTransferContinue cfg P (some args) s).1,
        (udsFileTransferContinue cfg P (some args) s).2, rfl, h.congr (by rw [hup]) hm ho⟩
    · obtain ⟨hup, hf⟩ := continueDownload_frame (P := P) (s := s) args
      exact ⟨(continueDownload cfg P args s).1, (continueDownload cfg P args s).2, rfl,
        h.congr hup (by rw [hf]) (by rw [hf])⟩
    · obtain ⟨hup, hf⟩ := continueUpload_frame (P := P) (s := s) args
      exact ⟨(continueUpload cfg P args s).1, (continueUpload cfg P args s).2, rfl,
        h.congr hup (by rw [hf]) (by rw [hf])⟩
    · exact ⟨_, s, rfl, h⟩
  | requestTransferExit =>
    simp only [Event.isStart, Bool.false_eq_true, if_false, ne_eq, not_true_eq_false,
      false_and, hexit]
    exact ⟨_, s1, rfl, hidle.exclusive⟩

/-- **The invariant along every run.** -/
theorem exclusive_of_reachable (h : (machine cfg P).Reachable s) : Exclusive cfg s := by
  refine h.invariant ?_ ?_
  · rintro _ ⟨world, rfl⟩
    exact exclusive_initial world
  · rintro s ⟨world, e⟩ s' hs ⟨a, hstep⟩
    obtain ⟨a', t, ht, hexc⟩ := exists_udsActionUploadDownload (P := P)
      (s := { s with world := world }) (hs.congr rfl rfl rfl) e
    rw [ht, Option.some.injEq, Prod.mk.injEq] at hstep
    exact hstep.2 ▸ hexc

/-- With both transfers idle there is nothing to continue and nothing to
exit. -/
theorem udsActionUploadDownload_of_bothIdle (h : BothIdle s) {e : Event cfg.wordBits}
    (he : e.isStart = false) :
    udsActionUploadDownload cfg P e s = some ({ code := .requestSequenceError }, s) := by
  unfold udsActionUploadDownload
  cases e with
  | requestDownload | requestUpload | requestFileTransfer => cases he
  | transferData args => simp [Event.isStart, udsFileTransferIsActive, h.file, h.updown]
  | requestTransferExit => simp [Event.isStart, transferExit_of_bothIdle h]

/-- **One transfer at a time.** In every reachable state at most one of
the two transfers runs and the file is open exactly while its transfer
does; no event, in any state of the platform, makes the assertion of
`transfer_exit` fail; and where both are idle a TransferData or a
RequestTransferExit is answered out of sequence with no call of the
flash driver or the file system, the log of the traced platform staying
as it was. -/
theorem reachable_one_transfer (h : (machine cfg P).Reachable s) :
    (s.updown.state = .idle ∨ s.file.mode = .idle) ∧
      (s.file.fileOpen = true ↔ s.file.mode ≠ .idle) ∧
      (∀ (world : σ) (e : Event cfg.wordBits),
        udsActionUploadDownload cfg P e { s with world := world } ≠ none) ∧
      (s.updown.state = .idle → s.file.mode = .idle →
        ∀ (world : σ) (log : List Access) (e : Event cfg.wordBits), e.isStart = false →
          udsActionUploadDownload cfg P.traced e (s.onWorld (world, log)) =
            some ({ code := .requestSequenceError }, s.onWorld (world, log))) := by
  have hexc := exclusive_of_reachable h
  refine ⟨hexc.one, hexc.open_iff, fun world e hnone => ?_, fun hu hf world log e he => ?_⟩
  · obtain ⟨a, t, ht, -⟩ := exists_udsActionUploadDownload (P := P)
      (s := { s with world := world }) (hexc.congr rfl rfl rfl) e
    rw [ht] at hnone
    cases hnone
  · have hidle := hexc.bothIdle hu hf
    have htraced : BothIdle (s.onWorld (world, log) : System cfg.wordBits (σ × List Access)) :=
      ⟨hidle.updown, hidle.file, hidle.closed⟩
    exact udsActionUploadDownload_of_bothIdle htraced he

/-- An upload is given up for a file of which two bytes came: the file
transfer is the one that runs. -/
theorem reachable_one_transfer_adding :
    ∃ s, (machine fileConfig (boardSimulator 64)).Reachable s ∧
      s.file.mode = .write ∧ s.file.transferred = 2 ∧ s.updown.state = .idle ∧
      s.file.fileOpen = true := by
  have hupload : (machine fileConfig (boardSimulator 64)).Reachable _ :=
    .step (e := ((fun _ => 0xFF, noFiles), .requestUpload ⟨8, 4, 100⟩))
      (.init ⟨(fun _ => 0xFF, noFiles), rfl⟩) ⟨_, rfl⟩
  have hadd : (machine fileConfig (boardSimulator 64)).Reachable _ :=
    .step (e := ((fun _ => 0xFF, noFiles), .requestFileTransfer ⟨.addFile, some [0x61], 4, 0⟩))
      hupload ⟨_, rfl⟩
  have hwrite : (machine fileConfig (boardSimulator 64)).Reachable _ :=
    .step (e := ((fun _ => 0xFF, noFiles.create [0x61]),
      .transferData ⟨[1, 2], by decide, 100, none⟩)) hadd ⟨_, rfl⟩
  obtain ⟨hone, hopen, -⟩ := reachable_one_transfer hwrite
  refine ⟨_, hwrite, rfl, rfl, ?_, hopen.mpr (by decide)⟩
  rcases hone with hup | hfile
  · exact hup
  · cases hfile

end Transfer

end Uds

end Ardep
