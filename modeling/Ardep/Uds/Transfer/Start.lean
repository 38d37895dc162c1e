import Ardep.Uds.Transfer.FileSystem
/-!
# Transfer — starting over an abandoned transfer

A start request first leaves whatever still runs, since nobody reports the
timeout of a transfer. `transferExit_spec` is what that leaves behind and
which of its results the request returns: only the one for a file write
that was not finished. The rest of the request looks at nothing of the
transfer before it (`start_answer_eq`).
-/

namespace Ardep

namespace Uds

namespace Transfer

variable {cfg : Config} {σ : Type} {P : Platform cfg.wordBits σ}
variable {s s' : System cfg.wordBits σ}

/-! ## Leaving a transfer -/

/-- A file write with an announced size that it has not come to. -/
def Incomplete {w : ℕ} (s : System w σ) : Prop :=
  s.file.mode = .write ∧ 0 < s.file.expectedSize ∧ s.file.transferred ≠ s.file.expectedSize

instance {w : ℕ} (s : System w σ) : Decidable (Incomplete s) :=
  inferInstanceAs (Decidable (_ ∧ _))

/-- The platform with the transfer's file closed, if one is open. -/
def closedWorld (P : Platform cfg.wordBits σ) (s : System cfg.wordBits σ) : σ :=
  if s.file.fileOpen then P.fsClose s.world else s.world

/-- **Leaving whatever runs**: both transfers are idle, the file is closed,
and the result is a refusal exactly for an incomplete file write. Out of
sequence it is only where no file transfer runs. -/
theorem transferExit_spec (h : Exclusive cfg s) :
    ∃ err s', transferExit cfg P s = some (err, s') ∧ BothIdle s' ∧
      s'.world = closedWorld P s ∧
      (if Incomplete s then err = .generalProgrammingFailure
        else err = .ok ∨ err = .requestSequenceError) ∧
      (s.file.mode ≠ .idle → err ≠ .requestSequenceError) := by
  obtain ⟨err, s', hexit, hidle⟩ := exists_transferExit (P := P) h
  refine ⟨err, s', hexit, hidle, ?_⟩
  unfold transferExit at hexit
  rcases hu : udsUploadDownloadReset s with ⟨ret1, s1⟩
  obtain ⟨-, hfile, hworld, hret1⟩ := udsUploadDownloadReset_spec hu
  have hret1ok : ret1 = .ok ∨ ret1 = .requestSequenceError := by
    unfold udsUploadDownloadReset at hu
    split at hu
    · exact .inr (Prod.mk.inj hu).1.symm
    · exact .inl (Prod.mk.inj hu).1.symm
  by_cases hm : s.file.mode = .idle
  · -- no file transfer: the result is the flash side's, and nothing is closed
    have hclosed : s.file.fileOpen = false := by
      by_contra hopen
      exact h.open_iff.mp (by simpa using hopen) hm
    have hcomplete : ¬ Incomplete s := fun hi => by
      rw [hi.1] at hm
      cases hm
    have hres : err = ret1 ∧ s' = s1 := by
      have hf : udsFileTransferExit cfg P s1 = (.requestSequenceError, s1) := by
        simp [udsFileTransferExit, hfile, hm]
      simp only [hu, hf, or_true, if_true] at hexit
      split at hexit
      · rw [Option.some.injEq, Prod.mk.injEq] at hexit
        obtain ⟨herr, rfl⟩ := hexit
        refine ⟨?_, rfl⟩
        split at herr
        · next heq => exact herr.symm.trans heq.symm
        · exact herr.symm
      · rw [Option.some.injEq, Prod.mk.injEq] at hexit
        exact ⟨hexit.1.symm, hexit.2.symm⟩
    obtain ⟨rfl, rfl⟩ := hres
    rw [if_neg hcomplete, hworld, closedWorld, if_neg (by simp [hclosed])]
    exact ⟨rfl, hret1ok, fun hne => absurd hm hne⟩
  · -- a file transfer: the flash side is idle, and the file is closed
    have hopen : s.file.fileOpen = true := h.open_iff.mpr hm
    have hcfg : cfg.fileTransfer = true := by
      by_contra hno
      exact hm (h.disabled (by simpa using hno))
    have hseq : ret1 = .requestSequenceError := hret1.mpr (h.one.resolve_right hm)
    simp only [hcfg, if_true, hu, hseq, true_or, udsFileTransferExit, hfile, if_neg hm,
      udsFileTransferReset, hopen, hworld, Option.some.injEq, Prod.mk.injEq] at hexit
    obtain ⟨rfl, rfl⟩ := hexit
    refine ⟨by simp [closedWorld, hopen], ?_, fun _ => ?_⟩
    · by_cases hi : Incomplete s
      · rw [if_pos hi]
        exact if_neg (not_not.mpr hi)
      · rw [if_neg hi]
        exact .inl (if_pos hi)
    · split <;> decide

/-! ## What follows -/

/-- The path a file transfer request names, where it names a valid one. -/
def filePath? {w : ℕ} (args : RequestFileTransferArgs w) : Option (List UInt8) :=
  args.filePath.bind fun filePath =>
    if filePath.length = 0 ∨ udsFileTransferMaxPath ≤ filePath.length then none
    else some (cString filePath)

/-- A file transfer request, by its path and its mode of operation. -/
theorem udsFileTransferRequest_eq (args : RequestFileTransferArgs cfg.wordBits) :
    udsFileTransferRequest cfg P (some args) s =
      match filePath? args with
      | none => ({ code := .requestOutOfRange }, s)
      | some path =>
        match args.modeOfOperation with
        | .addFile | .replFile =>
          udsFileTransferBeginWrite cfg P path args.fileSizeCompressed args s
        | .delFile =>
          ({ code := (udsFileTransferDelete cfg P path s).1, maxNumberOfBlockLength := some 0 },
            (udsFileTransferDelete cfg P path s).2)
        | .rdFile => udsFileTransferBeginRead cfg P path args s
        | .other _ => ({ code := .requestOutOfRange }, s) := by
  cases hp : args.filePath with
  | none => simp only [udsFileTransferRequest, filePath?, hp, Option.bind_none]
  | some filePath =>
    simp only [udsFileTransferRequest, filePath?, hp, Option.bind_some]
    by_cases hlen : filePath.length = 0 ∨ udsFileTransferMaxPath ≤ filePath.length
    · have hpath : (if filePath.length = 0 ∨ udsFileTransferMaxPath ≤ filePath.length then none
          else some (cString filePath)) = none := if_pos hlen
      rw [hpath]
      exact if_pos hlen
    · have hpath : (if filePath.length = 0 ∨ udsFileTransferMaxPath ≤ filePath.length then none
          else some (cString filePath)) = some (cString filePath) := if_neg hlen
      rw [hpath]
      exact if_neg hlen

/-- A start request once both transfers are idle. -/
def start (cfg : Config) {σ : Type} (P : Platform cfg.wordBits σ) (e : Event cfg.wordBits)
    (s : System cfg.wordBits σ) : Answer × System cfg.wordBits σ :=
  match e with
  | .requestDownload args => startDownload cfg P args s
  | .requestUpload args => startUpload cfg P args s
  | .requestFileTransfer args =>
    if cfg.fileTransfer then udsFileTransferRequest cfg P (some args) s
    else ({ code := .serviceNotSupported }, s)
  | .transferData _ => ({ code := .requestSequenceError }, s)
  | .requestTransferExit => ({ code := .requestSequenceError }, s)

/-- **A start request** leaves whatever runs, and returns what came of
that if it is a refusal; else it starts. -/
theorem udsActionUploadDownload_of_start {e : Event cfg.wordBits} (he : e.isStart = true)
    {err : UDSErr} (hexit : transferExit cfg P s = some (err, s')) :
    udsActionUploadDownload cfg P e s = some
      (if err ≠ .ok ∧ err ≠ .requestSequenceError then ({ code := err }, s')
        else start cfg P e s') := by
  unfold udsActionUploadDownload
  cases e with
  | requestDownload | requestUpload =>
    simp only [Event.isStart, if_true, hexit, start]
    split_ifs <;> rfl
  | requestFileTransfer args =>
    simp only [Event.isStart, if_true, hexit, start]
    split_ifs <;> rfl
  | transferData | requestTransferExit => cases he

/-- **A start request, once**: it leaves whatever runs behind, and goes on
from there unless that was an incomplete file write. -/
theorem exists_start (hexc : Exclusive cfg s) :
    ∃ s1, BothIdle s1 ∧ s1.world = closedWorld P s ∧ ∀ e : Event cfg.wordBits, e.isStart = true →
      udsActionUploadDownload cfg P e s = some
        (if Incomplete s then ({ code := .generalProgrammingFailure }, s1)
          else start cfg P e s1) := by
  obtain ⟨err, s1, hexit, hidle, hworld, herr, -⟩ := transferExit_spec (P := P) hexc
  refine ⟨s1, hidle, hworld, fun e he => ?_⟩
  rw [udsActionUploadDownload_of_start he hexit]
  by_cases hi : Incomplete s
  · rw [if_pos hi] at herr
    subst herr
    rw [if_pos hi, if_pos ⟨by decide, by decide⟩]
  · rw [if_neg hi] at herr
    rw [if_neg hi, if_neg fun hne => herr.elim hne.1 hne.2]

/-- **An accepted start request** starts with both transfers idle. -/
theorem exists_start_of_ok (hexc : Exclusive cfg s) {e : Event cfg.wordBits} (he : e.isStart = true)
    {a : Answer} (hrun : udsActionUploadDownload cfg P e s = some (a, s')) (hok : a.code = .ok) :
    ∃ s1, BothIdle s1 ∧ s1.world = closedWorld P s ∧ start cfg P e s1 = (a, s') := by
  obtain ⟨s1, hidle, hworld, hstart⟩ := exists_start (P := P) hexc
  rw [hstart e he, Option.some.injEq] at hrun
  split at hrun
  · rw [Prod.mk.injEq] at hrun
    rw [← hrun.1] at hok
    exact absurd hok (by dsimp only; decide)
  · exact ⟨s1, hidle, hworld, hrun⟩

/-- A transfer exit is answered with what leaving gives. -/
theorem udsActionUploadDownload_of_exit {err : UDSErr}
    (hexit : transferExit cfg P s = some (err, s')) :
    udsActionUploadDownload cfg P .requestTransferExit s = some ({ code := err }, s') := by
  simp only [udsActionUploadDownload, Event.isStart, Bool.false_eq_true, if_false, ne_eq,
    not_true_eq_false, false_and, hexit]

/-- While a file transfer runs, a TransferData request is the file's. -/
theorem udsActionUploadDownload_of_file (hcfg : cfg.fileTransfer = true)
    (hm : s.file.mode ≠ .idle) (args : TransferDataArgs) :
    udsActionUploadDownload cfg P (.transferData args) s =
      some (udsFileTransferContinue cfg P (some args) s) := by
  simp [udsActionUploadDownload, Event.isStart, udsFileTransferIsActive, hcfg, hm]

/-- **A start looks at nothing of the transfer before it**: from idle
states over the same platform the answer is the same. -/
theorem start_answer_eq {t : System cfg.wordBits σ} (hs : BothIdle s) (ht : BothIdle t)
    (hworld : s.world = t.world) (e : Event cfg.wordBits) :
    (start cfg P e s).1 = (start cfg P e t).1 := by
  cases e with
  | requestDownload args =>
    simp only [start, startDownload, hworld]
    split_ifs <;> rfl
  | requestUpload args =>
    simp only [start, startUpload, hworld, hs.updown, ht.updown]
    split_ifs <;> rfl
  | requestFileTransfer args =>
    simp only [start]
    split_ifs
    · rw [udsFileTransferRequest_eq, udsFileTransferRequest_eq]
      cases filePath? args with
      | none => rfl
      | some path =>
        cases args.modeOfOperation with
        | addFile | replFile =>
          simp only [udsFileTransferBeginWrite, hworld]
          split <;> rfl
        | delFile => simp only [udsFileTransferDelete, hworld]
        | rdFile =>
          simp only [udsFileTransferBeginRead, hworld]
          split_ifs <;> rfl
        | other code => rfl
    · rfl
  | transferData | requestTransferExit => rfl

theorem fsErrorToNrc_ne_generalProgrammingFailure (err : ℤ) :
    fsErrorToNrc err ≠ .generalProgrammingFailure := by
  unfold fsErrorToNrc
  split_ifs <;> decide

/-- A start never answers what an incomplete write is refused with. -/
theorem start_code_ne (e : Event cfg.wordBits) :
    (start cfg P e s).1.code ≠ .generalProgrammingFailure := by
  cases e with
  | requestDownload args =>
    simp only [start, startDownload]
    split_ifs <;> simp
  | requestUpload args =>
    simp only [start, startUpload]
    split_ifs <;> simp
  | requestFileTransfer args =>
    simp only [start]
    split_ifs
    · rw [udsFileTransferRequest_eq]
      cases filePath? args with
      | none => simp
      | some path =>
        cases args.modeOfOperation with
        | addFile | replFile =>
          simp only [udsFileTransferBeginWrite]
          split
          · exact fsErrorToNrc_ne_generalProgrammingFailure _
          · simp
        | delFile =>
          simp only [udsFileTransferDelete]
          split
          · exact fsErrorToNrc_ne_generalProgrammingFailure _
          · simp
        | rdFile =>
          simp only [udsFileTransferBeginRead]
          split_ifs
          · exact fsErrorToNrc_ne_generalProgrammingFailure _
          · exact fsErrorToNrc_ne_generalProgrammingFailure _
          · simp
          · simp
        | other code => simp
    · simp
  | transferData | requestTransferExit => simp [start]

/-! ## Two runs -/

/-- The same state with both transfers idle, and so with no file open. -/
def idled (P : Platform cfg.wordBits σ) (s : System cfg.wordBits σ) : System cfg.wordBits σ where
  updown := { s.updown with state := .idle }
  file := { s.file with mode := .idle, fileOpen := false }
  world := closedWorld P s

theorem bothIdle_idled : BothIdle (idled P s) := ⟨rfl, rfl, rfl⟩

/-- **An abandoned transfer does not show**, except as an incomplete file
write. In every reachable state and over any state of the platform, a
start request is answered as it would be with both transfers idle if and
only if no file write with an announced size is left incomplete. -/
theorem start_answer_iff (h : (machine cfg P).Reachable s) (world : σ) {e : Event cfg.wordBits}
    (he : e.isStart = true) :
    (∃ a s' t', udsActionUploadDownload cfg P e { s with world := world } = some (a, s') ∧
      udsActionUploadDownload cfg P e (idled P { s with world := world }) = some (a, t')) ↔
      ¬ (s.file.mode = .write ∧ 0 < s.file.expectedSize ∧
        s.file.transferred ≠ s.file.expectedSize) := by
  have hexc : Exclusive cfg { s with world := world } :=
    (exclusive_of_reachable h).congr rfl rfl rfl
  obtain ⟨s', hidle, hworld, hstart⟩ := exists_start (P := P) hexc
  have htwin : udsActionUploadDownload cfg P e (idled P { s with world := world }) =
      some (start cfg P e (idled P { s with world := world })) := by
    rw [udsActionUploadDownload_of_start he (transferExit_of_bothIdle bothIdle_idled),
      if_neg (fun hc => hc.2 rfl)]
  rw [hstart e he, htwin]
  have hanswer : (start cfg P e s').1 = (start cfg P e (idled P { s with world := world })).1 :=
    start_answer_eq hidle bothIdle_idled hworld e
  show _ ↔ ¬ Incomplete { s with world := world }
  by_cases hi : Incomplete { s with world := world }
  · simp only [hi, not_true_eq_false, iff_false]
    rintro ⟨a, s1, t1, hs1, ht1⟩
    rw [if_true, Option.some.injEq, Prod.mk.injEq] at hs1
    refine start_code_ne (P := P) (s := idled P { s with world := world }) e ?_
    rw [Option.some.inj ht1, ← hs1.1]
  · simp only [hi, not_false_eq_true, iff_true, if_false]
    refine ⟨(start cfg P e s').1, (start cfg P e s').2,
      (start cfg P e (idled P { s with world := world })).2, rfl, ?_⟩
    rw [hanswer]

/-- A request to add a one-letter file of a given size. -/
def addFile (name : UInt8) (size : BitVec 32) : Event 32 :=
  .requestFileTransfer ⟨.addFile, some [name], size, 0⟩

/-- The state once a file of four bytes was announced. -/
def announced : System 32 (Files (List UInt8) UInt8) :=
  ⟨⟨.idle, 0, 0, 0, 0⟩, ⟨.write, true, 4, 0, 4095⟩, noFiles.create [0x61]⟩

theorem reachable_announced :
    (machine fileConfig (fileSimulator allBytes)).Reachable announced :=
  .step (e := (noFiles, addFile 0x61 4)) (.init ⟨noFiles, rfl⟩) ⟨_, rfl⟩

/-- On the board a request is answered as with both transfers idle. -/
def AnsweredAlike (e : Event 32) (s : System 32 ((ℕ → UInt8) × Files (List UInt8) UInt8)) : Prop :=
  ∃ a s' t', udsActionUploadDownload fileConfig (boardSimulator 64) e s = some (a, s') ∧
    udsActionUploadDownload fileConfig (boardSimulator 64) e
      (@idled fileConfig _ (boardSimulator 64) s) = some (a, t')

/-- A download, a file written without an announced size and a file being
read, each given up, and the request after it. -/
theorem start_answer_iff_abandoned :
    (∃ s, (machine fileConfig (boardSimulator 64)).Reachable s ∧
      s.updown.state = .downloadInProgress ∧ s.updown.totalSize = 8 ∧
      AnsweredAlike (addFile 0x62 4) s) ∧
    (∃ s, (machine fileConfig (boardSimulator 64)).Reachable s ∧
      s.file.mode = .write ∧ s.file.expectedSize = 0 ∧ s.file.transferred = 2 ∧
      AnsweredAlike (.requestUpload ⟨8, 4, 100⟩) s) ∧
    ∃ s, (machine fileConfig (boardSimulator 64)).Reachable s ∧
      s.file.mode = .read ∧ s.file.transferred = 1 ∧
      AnsweredAlike (.requestDownload ⟨8, 4, 0⟩) s := by
  have hdownload : (machine fileConfig (boardSimulator 64)).Reachable _ :=
    .step (e := ((fun _ => 0xFF, noFiles), .requestDownload ⟨8, 8, 0⟩))
      (.init ⟨(fun _ => 0xFF, noFiles), rfl⟩) ⟨_, rfl⟩
  have hadd : (machine fileConfig (boardSimulator 64)).Reachable _ :=
    .step (e := ((fun _ => 0xFF, noFiles), addFile 0x61 0))
      (.init ⟨(fun _ => 0xFF, noFiles), rfl⟩) ⟨_, rfl⟩
  have hwrite : (machine fileConfig (boardSimulator 64)).Reachable _ :=
    .step (e := ((fun _ => 0xFF, noFiles.create [0x61]),
      .transferData ⟨[1, 2], by decide, 100, none⟩)) hadd ⟨_, rfl⟩
  have hopen : (machine fileConfig (boardSimulator 64)).Reachable _ :=
    .step (e := ((fun _ => 0xFF, ⟨fun _ => some [1, 2], none⟩),
      .requestFileTransfer ⟨.rdFile, some [0x61], 0, 0⟩)) hwrite ⟨_, rfl⟩
  have hread : (machine fileConfig (boardSimulator 64)).Reachable _ :=
    .step (e := ((fun _ => 0xFF, ⟨fun _ => some [1, 2], some ([0x61], 0)⟩),
      .transferData ⟨[], by decide, 1, some fun _ => 0⟩)) hopen ⟨_, rfl⟩
  refine ⟨⟨_, hdownload, rfl, rfl, (start_answer_iff hdownload _ rfl).mpr fun h => ?_⟩,
    ⟨_, hwrite, rfl, rfl, rfl, (start_answer_iff hwrite _ rfl).mpr fun h => ?_⟩,
    ⟨_, hread, rfl, rfl, (start_answer_iff hread _ rfl).mpr fun h => ?_⟩⟩
  · cases h.1
  · exact absurd h.2.1 (by decide)
  · cases h.1

/-- A file of four bytes of which none came, and then another file: the
second request is refused for the first. -/
theorem start_answer_announced :
    ¬ ∀ s, (machine fileConfig (fileSimulator allBytes)).Reachable s →
      ∀ world e, e.isStart = true → ∃ a s' t',
        udsActionUploadDownload fileConfig (fileSimulator allBytes) e { s with world := world } =
          some (a, s') ∧
        udsActionUploadDownload fileConfig (fileSimulator allBytes) e
          (@idled fileConfig _ (fileSimulator allBytes) { s with world := world }) =
            some (a, t') := by
  intro hall
  obtain ⟨a, s', t', hs, ht⟩ :=
    hall announced reachable_announced announced.world (addFile 0x62 4) rfl
  have hrefused : a.code = .generalProgrammingFailure := by
    have := congrArg (Option.map (·.1.code)) hs
    exact (Option.some.inj this).symm
  have haccepted : a.code = .ok := by
    have := congrArg (Option.map (·.1.code)) ht
    exact (Option.some.inj this).symm
  rw [hrefused] at haccepted
  cases haccepted

end Transfer

end Uds

end Ardep
