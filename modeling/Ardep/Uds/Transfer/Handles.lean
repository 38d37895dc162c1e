import Ardep.Uds.Transfer.Start
/-!
# Transfer — the file handles a run leaves open

The handler opens a file before it records that it did, and the reset that
closes it goes by the record. `openHandles` counts the successful
`fs_open` calls of a run that no `fs_close` followed. It is one while a
file transfer runs and none otherwise, as long as no request opens a file
for reading of which `fs_stat` then fails (`Leaks`): there the reset comes
between the opening and the record.
-/

namespace Ardep

namespace Uds

namespace Transfer

variable {cfg : Config} {σ : Type} {P : Platform cfg.wordBits σ}

/-! ## Counting -/

/-- What a call does to the number of open handles. -/
def Access.handles : Access → ℤ
  | .fsOpen _ _ rc => if rc < 0 then 0 else 1
  | .fsClose => -1
  | _ => 0

/-- The handles opened and not closed in a log. -/
def openHandles (log : List Access) : ℤ := (log.map Access.handles).sum

@[simp] theorem openHandles_nil : openHandles [] = 0 := rfl

@[simp] theorem openHandles_append (log log' : List Access) :
    openHandles (log ++ log') = openHandles log + openHandles log' := by
  simp [openHandles]

@[simp] theorem openHandles_cons (a : Access) (log : List Access) :
    openHandles (a :: log) = a.handles + openHandles log := by
  simp [openHandles]

section Traced

variable {w : ℕ} {Q : Platform w σ} (t : σ × List Access)

@[simp] theorem traced_flashWrite (off : ℕ) (bytes : List UInt8) :
    Q.traced.flashWrite off bytes t = ((Q.flashWrite off bytes t.1).1,
      (Q.flashWrite off bytes t.1).2, t.2 ++ [.flashWrite off bytes.length]) := rfl

@[simp] theorem traced_flashRead (off len : ℕ) :
    Q.traced.flashRead off len t = ((Q.flashRead off len t.1).1,
      (Q.flashRead off len t.1).2, t.2 ++ [.flashRead off len]) := rfl

@[simp] theorem traced_fsFileTInit :
    Q.traced.fsFileTInit t = (Q.fsFileTInit t.1, t.2) := rfl

@[simp] theorem traced_fsOpen (path : List UInt8) (flags : OpenFlags) :
    Q.traced.fsOpen path flags t = ((Q.fsOpen path flags t.1).1, (Q.fsOpen path flags t.1).2,
      t.2 ++ [.fsOpen path flags (Q.fsOpen path flags t.1).1]) := rfl

@[simp] theorem traced_fsStat (path : List UInt8) :
    Q.traced.fsStat path t = ((Q.fsStat path t.1).1, (Q.fsStat path t.1).2,
      t.2 ++ [.fsStat path]) := rfl

@[simp] theorem traced_fsRead (len : ℕ) :
    Q.traced.fsRead len t = ((Q.fsRead len t.1).1, (Q.fsRead len t.1).2,
      t.2 ++ [.fsRead len]) := rfl

@[simp] theorem traced_fsWrite (bytes : List UInt8) :
    Q.traced.fsWrite bytes t = ((Q.fsWrite bytes t.1).1, (Q.fsWrite bytes t.1).2,
      t.2 ++ [.fsWrite bytes.length]) := rfl

@[simp] theorem traced_fsClose :
    Q.traced.fsClose t = (Q.fsClose t.1, t.2 ++ [.fsClose]) := rfl

@[simp] theorem traced_fsUnlink (path : List UInt8) :
    Q.traced.fsUnlink path t = ((Q.fsUnlink path t.1).1, (Q.fsUnlink path t.1).2,
      t.2 ++ [.fsUnlink path]) := rfl

end Traced

/-- The handler as a machine over the traced platform: an event finds the
platform in any state, and the log as the events before it left it. -/
def tracedMachine (cfg : Config) {σ : Type} (P : Platform cfg.wordBits σ) :
    Machine (System cfg.wordBits (σ × List Access)) (σ × Event cfg.wordBits) where
  init s := ∃ world, s = System.initial (world, [])
  Step s e s' := ∃ a, udsActionUploadDownload cfg P.traced e.2
    { s with world := (e.1, s.world.2) } = some (a, s')

/-- One handle is open while a file transfer runs, and none otherwise. -/
def HandlesRecorded (s : System cfg.wordBits (σ × List Access)) : Prop :=
  openHandles s.world.2 = if s.file.mode = .idle then 0 else 1

/-- **The handle is accounted for**, and at most one transfer runs. -/
structure Accounted (cfg : Config) (s : System cfg.wordBits (σ × List Access)) : Prop where
  exclusive : Exclusive cfg s
  handles : HandlesRecorded s

/-! ## What leaks -/

/-- The file opens for reading, and then has no status or is no regular
file. -/
def OpensUnread {w : ℕ} (P : Platform w σ) (path : List UInt8) (t : σ) : Prop :=
  0 ≤ (P.fsOpen path .read (P.fsFileTInit t)).1 ∧
    ((P.fsStat path (P.fsOpen path .read (P.fsFileTInit t)).2).1.1 < 0 ∨
      (P.fsStat path (P.fsOpen path .read (P.fsFileTInit t)).2).1.2.isFile = false)

instance {w : ℕ} (P : Platform w σ) (path : List UInt8) (t : σ) :
    Decidable (OpensUnread P path t) := inferInstanceAs (Decidable (_ ∧ _))

/-- The request is to read a file, and the file is one of `OpensUnread`. -/
def ReadsUnread (cfg : Config) (P : Platform cfg.wordBits σ) (t : σ) (e : Event cfg.wordBits) :
    Prop :=
  cfg.fileTransfer = true ∧ ∃ args path, e = .requestFileTransfer args ∧
    args.modeOfOperation = .rdFile ∧ filePath? args = some path ∧ OpensUnread P path t

/-- **The event opens a file that it does not record**: leaving the
transfer before does not refuse it, and it reads a file of
`OpensUnread`. -/
def Leaks (cfg : Config) (P : Platform cfg.wordBits σ) (s : System cfg.wordBits σ)
    (e : Event cfg.wordBits) : Prop :=
  ¬ Incomplete s ∧ ReadsUnread cfg P (closedWorld P s) e

/-! ## The steps -/

section Steps

variable {s s' : System cfg.wordBits (σ × List Access)}

/-- Leaving a transfer closes its file. -/
theorem openHandles_closedWorld (h : Accounted cfg s) :
    openHandles (closedWorld P.traced s).2 = 0 := by
  have hhandles : openHandles s.world.2 = if s.file.mode = .idle then 0 else 1 := h.handles
  by_cases hm : s.file.mode = .idle
  · have hopen : s.file.fileOpen = false := by
      by_contra hopen
      exact h.exclusive.open_iff.mp (by simpa using hopen) hm
    rw [if_pos hm] at hhandles
    simpa [closedWorld, hopen] using hhandles
  · have hopen : s.file.fileOpen = true := h.exclusive.open_iff.mpr hm
    rw [if_neg hm] at hhandles
    simp [closedWorld, hopen, hhandles, Access.handles]

theorem startDownload_world {τ : Type} {Q : Platform cfg.wordBits τ} {t : System cfg.wordBits τ}
    (args : RequestDownloadArgs cfg.wordBits) :
    (startDownload cfg Q args t).2.world = t.world := by
  unfold startDownload
  dsimp only
  split_ifs <;> rfl

theorem startUpload_world {τ : Type} {Q : Platform cfg.wordBits τ} {t : System cfg.wordBits τ}
    (args : RequestUploadArgs cfg.wordBits) :
    (startUpload cfg Q args t).2.world = t.world := by
  unfold startUpload
  dsimp only
  split_ifs <;> rfl

/-- **Opening for reading, from idle**: the handle is recorded, or it is
one of `OpensUnread` and nothing is. -/
theorem beginRead_handles (hidle : BothIdle s) (hnone : openHandles s.world.2 = 0)
    (path : List UInt8) (args : RequestFileTransferArgs cfg.wordBits) :
    if OpensUnread P path s.world.1 then
      (udsFileTransferBeginRead cfg P.traced path args s).2.file.mode = .idle ∧
        openHandles (udsFileTransferBeginRead cfg P.traced path args s).2.world.2 = 1
    else HandlesRecorded (udsFileTransferBeginRead cfg P.traced path args s).2 := by
  by_cases hopen : (P.fsOpen path .read (P.fsFileTInit s.world.1)).1 < 0
  · rw [if_neg fun h => absurd h.1 (not_le.mpr hopen)]
    simp [HandlesRecorded, udsFileTransferBeginRead, hopen, hidle.file, hnone, Access.handles]
  · by_cases hstat : OpensUnread P path s.world.1
    · rw [if_pos hstat]
      obtain ⟨-, hrc | hdir⟩ := hstat
      · simp [udsFileTransferBeginRead, udsFileTransferReset, hopen, hidle.closed, hnone,
          Access.handles, hrc]
      · simp only [udsFileTransferBeginRead, udsFileTransferReset, traced_fsOpen, traced_fsStat,
          traced_fsFileTInit, hopen, if_false, hdir, if_true, hidle.closed]
        split <;> simp [hnone, Access.handles, hopen]
    · rw [if_neg hstat]
      have hread : ¬ (P.fsStat path (P.fsOpen path .read (P.fsFileTInit s.world.1)).2).1.1 < 0 ∧
          ¬ (P.fsStat path (P.fsOpen path .read (P.fsFileTInit s.world.1)).2).1.2.isFile =
            false := by
        rw [← not_or]
        exact fun h => hstat ⟨not_lt.mp hopen, h⟩
      simp [HandlesRecorded, udsFileTransferBeginRead, hopen, hnone, Access.handles, hread]

/-- The condition on a file transfer request, by its arguments. -/
theorem readsUnread_requestFileTransfer {args : RequestFileTransferArgs cfg.wordBits} {t : σ} :
    ReadsUnread cfg P t (.requestFileTransfer args) ↔
      cfg.fileTransfer = true ∧ args.modeOfOperation = .rdFile ∧
        ∃ path, filePath? args = some path ∧ OpensUnread P path t := by
  constructor
  · rintro ⟨hcfg, args', path, he, hmode, hpath, hopens⟩
    obtain rfl := Event.requestFileTransfer.inj he
    exact ⟨hcfg, hmode, path, hpath, hopens⟩
  · rintro ⟨hcfg, hmode, path, hpath, hopens⟩
    exact ⟨hcfg, args, path, rfl, hmode, hpath, hopens⟩

/-- **A start, from idle**: the handle it opens is recorded, unless it
reads a file of `OpensUnread`. -/
theorem start_handles (hidle : BothIdle s) (hnone : openHandles s.world.2 = 0)
    (e : Event cfg.wordBits) :
    (¬ ReadsUnread cfg P s.world.1 e → HandlesRecorded (start cfg P.traced e s).2) ∧
    (ReadsUnread cfg P s.world.1 e → (start cfg P.traced e s).2.file.mode = .idle ∧
      openHandles (start cfg P.traced e s).2.world.2 = 1) := by
  -- what leaves the record and the log as they were has opened nothing
  have hsame : ∀ t : System cfg.wordBits (σ × List Access), t.file = s.file →
      t.world = s.world → HandlesRecorded t := by
    intro t hfile hworld
    rw [HandlesRecorded, hfile, hworld, if_pos hidle.file, hnone]
  have hother : (∀ args, e ≠ .requestFileTransfer args) → ¬ ReadsUnread cfg P s.world.1 e := by
    rintro hne ⟨-, args, -, he, -⟩
    exact hne args he
  cases e with
  | requestDownload args =>
    exact ⟨fun _ => hsame _ (startDownload_file args) (startDownload_world args),
      fun h => absurd h (hother (by rintro _ ⟨⟩))⟩
  | requestUpload args =>
    exact ⟨fun _ => hsame _ (startUpload_file args) (startUpload_world args),
      fun h => absurd h (hother (by rintro _ ⟨⟩))⟩
  | transferData | requestTransferExit =>
    exact ⟨fun _ => hsame _ rfl rfl, fun h => absurd h (hother (by rintro _ ⟨⟩))⟩
  | requestFileTransfer args =>
    rw [readsUnread_requestFileTransfer]
    simp only [start]
    by_cases hcfg : cfg.fileTransfer = true
    · rw [if_pos hcfg, udsFileTransferRequest_eq]
      cases hp : filePath? args with
      | none => exact ⟨fun _ => hsame _ rfl rfl, by rintro ⟨-, -, _, ⟨⟩, -⟩⟩
      | some path =>
        cases hmode : args.modeOfOperation with
        | addFile | replFile =>
          refine ⟨fun _ => ?_, by rintro ⟨-, ⟨⟩, -⟩⟩
          simp only [udsFileTransferBeginWrite, traced_fsOpen, traced_fsFileTInit]
          split_ifs with hrc
          · simp [HandlesRecorded, hidle.file, hnone, Access.handles, hrc]
          · simp [HandlesRecorded, hnone, Access.handles, hrc]
        | delFile =>
          refine ⟨fun _ => ?_, by rintro ⟨-, ⟨⟩, -⟩⟩
          simp [HandlesRecorded, udsFileTransferDelete, hidle.file, hnone, Access.handles]
        | other code => exact ⟨fun _ => hsame _ rfl rfl, by rintro ⟨-, ⟨⟩, -⟩⟩
        | rdFile =>
          have hread := beginRead_handles (P := P) hidle hnone path args
          by_cases hopens : OpensUnread P path s.world.1
          · rw [if_pos hopens] at hread
            exact ⟨fun h => absurd ⟨hcfg, rfl, path, rfl, hopens⟩ h, fun _ => hread⟩
          · rw [if_neg hopens] at hread
            refine ⟨fun _ => hread, ?_⟩
            rintro ⟨-, -, path', hpath, hopens'⟩
            rw [Option.some.injEq] at hpath
            exact absurd (hpath ▸ hopens') hopens
    · rw [if_neg hcfg]
      exact ⟨fun _ => hsame _ rfl rfl, fun h => absurd h.1 hcfg⟩

/-- The flash side of a TransferData request calls no file function. -/
theorem continueDownload_handles (args : TransferDataArgs) :
    openHandles (continueDownload cfg P.traced args s).2.world.2 = openHandles s.world.2 := by
  unfold continueDownload
  dsimp only
  split_ifs <;> simp [Access.handles]

theorem continueUpload_handles (args : TransferDataArgs) :
    openHandles (continueUpload cfg P.traced args s).2.world.2 = openHandles s.world.2 := by
  unfold continueUpload
  dsimp only
  split_ifs
  · rfl
  · rfl
  · rw [traced_flashRead]
    split
    · next heq => rw [← (Prod.mk.inj heq).2]; simp [Access.handles]
    · next heq => rw [← (Prod.mk.inj heq).2]; split <;> simp [Access.handles]

/-- The file side of one neither opens nor closes. -/
theorem udsFileTransferContinue_handles (arg : Option TransferDataArgs) :
    openHandles (udsFileTransferContinue cfg P.traced arg s).2.world.2 =
      openHandles s.world.2 := by
  unfold udsFileTransferContinue
  cases arg with
  | none => rfl
  | some args =>
    cases s.file.mode with
    | idle => rfl
    | write =>
      simp only [udsFileTransferWrite]
      split_ifs <;> simp [Access.handles]
    | read =>
      cases hcopy : args.copyResponse with
      | none => simp only [udsFileTransferRead, hcopy]
      | some copyResponse =>
        simp only [udsFileTransferRead_eq hcopy, traced_fsRead]
        split
        · rfl
        · split
          · next heq => rw [← (Prod.mk.inj heq).2]; simp [Access.handles]
          · next heq =>
            rw [← (Prod.mk.inj heq).2]
            split_ifs <;> simp [Access.handles]

/-- A TransferData request keeps the handles and the mode. -/
theorem transferData_handles {args : TransferDataArgs} {a : Answer}
    (hrun : udsActionUploadDownload cfg P.traced (.transferData args) s = some (a, s')) :
    openHandles s'.world.2 = openHandles s.world.2 ∧ s'.file.mode = s.file.mode := by
  simp only [udsActionUploadDownload, Event.isStart, Bool.false_eq_true, if_false, ne_eq,
    not_true_eq_false, false_and] at hrun
  split_ifs at hrun
  · have hend : _ = s' := congrArg Prod.snd (Option.some.inj hrun)
    rw [← hend]
    exact ⟨udsFileTransferContinue_handles _, (udsFileTransferContinue_frame _).2.1⟩
  · have hend : _ = s' := congrArg Prod.snd (Option.some.inj hrun)
    rw [← hend]
    exact ⟨continueDownload_handles _, by rw [(continueDownload_frame _).2]⟩
  · have hend : _ = s' := congrArg Prod.snd (Option.some.inj hrun)
    rw [← hend]
    exact ⟨continueUpload_handles _, by rw [(continueUpload_frame _).2]⟩
  · have hend : _ = s' := congrArg Prod.snd (Option.some.inj hrun)
    rw [← hend]
    exact ⟨rfl, rfl⟩

/-- **An event accounts for the handle**, unless it leaks one. -/
theorem accounted_event (h : Accounted cfg s) {e : Event cfg.wordBits} {a : Answer}
    (hrun : udsActionUploadDownload cfg P.traced e s = some (a, s')) :
    (¬ Leaks cfg P (s.onWorld s.world.1) e → Accounted cfg s') ∧
      (Leaks cfg P (s.onWorld s.world.1) e →
        s'.file.mode = .idle ∧ openHandles s'.world.2 = 1) := by
  obtain ⟨a', t, ht, hexc⟩ := exists_udsActionUploadDownload (P := P.traced) h.exclusive e
  rw [hrun, Option.some.injEq, Prod.mk.injEq] at ht
  rw [← ht.2] at hexc
  obtain ⟨err, s1, hexit, hidle, hworld, herr, -⟩ :=
    transferExit_spec (P := P.traced) h.exclusive
  have hnone : openHandles s1.world.2 = 0 := by
    rw [hworld]
    exact openHandles_closedWorld h
  have hleft : HandlesRecorded s1 := by
    rw [HandlesRecorded, hnone, if_pos hidle.file]
  -- the platform under the trace is left in the same state
  have hclosed : s1.world.1 = closedWorld P (s.onWorld s.world.1) := by
    rw [hworld]
    unfold closedWorld
    show (if s.file.fileOpen = true then _ else _ : σ × List Access).1 =
      if s.file.fileOpen = true then _ else _
    split <;> rfl
  by_cases he : e.isStart = true
  · rw [udsActionUploadDownload_of_start he hexit, Option.some.injEq] at hrun
    have hincomplete : Incomplete (s.onWorld s.world.1 : System cfg.wordBits σ) ↔ Incomplete s :=
      Iff.rfl
    by_cases hi : Incomplete s
    · rw [if_pos hi] at herr
      subst herr
      rw [if_pos ⟨by decide, by decide⟩, Prod.mk.injEq] at hrun
      rw [← hrun.2]
      exact ⟨fun _ => ⟨hidle.exclusive, hleft⟩, fun hl => absurd (hincomplete.mpr hi) hl.1⟩
    · rw [if_neg hi] at herr
      have hgo : ¬ (err ≠ .ok ∧ err ≠ .requestSequenceError) := by
        rintro ⟨hok, hseq⟩
        exact herr.elim hok hseq
      rw [if_neg hgo] at hrun
      obtain ⟨hrec, hleak⟩ := start_handles (P := P) hidle hnone e
      rw [hrun, hclosed] at hrec hleak
      refine ⟨fun hl => ⟨hexc, hrec fun hu => hl ⟨mt hincomplete.mp hi, hu⟩⟩, fun hl => ?_⟩
      exact hleak hl.2
  · have hnot : ¬ Leaks cfg P (s.onWorld s.world.1) e := by
      rintro ⟨-, -, args, -, rfl, -⟩
      exact he rfl
    refine ⟨fun _ => ⟨hexc, ?_⟩, fun hl => absurd hl hnot⟩
    cases e with
    | requestDownload | requestUpload | requestFileTransfer => exact absurd rfl he
    | requestTransferExit =>
      rw [udsActionUploadDownload_of_exit hexit, Option.some.injEq, Prod.mk.injEq] at hrun
      rw [← hrun.2]
      exact hleft
    | transferData args =>
      have hkeep := transferData_handles hrun
      rw [HandlesRecorded, hkeep.1, hkeep.2]
      exact h.handles

end Steps

/-! ## Runs -/

/-- The handler's runs in which no event leaks a handle. -/
def soundMachine (cfg : Config) {σ : Type} (P : Platform cfg.wordBits σ) :
    Machine (System cfg.wordBits (σ × List Access)) (σ × Event cfg.wordBits) :=
  (tracedMachine cfg P).guard fun s e => ¬ Leaks cfg P (s.onWorld e.1) e.2

theorem accounted_of_reachable {s : System cfg.wordBits (σ × List Access)}
    (h : (soundMachine cfg P).Reachable s) : Accounted cfg s := by
  refine h.invariant ?_ ?_
  · rintro _ ⟨world, rfl⟩
    exact ⟨exclusive_initial _, rfl⟩
  · rintro s ⟨world, e⟩ s' hs ⟨hnot, a, hrun⟩
    have hs' : Accounted cfg { s with world := (world, s.world.2) } :=
      ⟨hs.exclusive.congr rfl rfl rfl, hs.handles⟩
    exact (accounted_event hs' hrun).1 hnot

/-- **Every open file is closed**, along every run in which no event leaks
one: whatever the platform returns, one handle is open while a file is
written or read and none while the file side is idle. And an event that
leaks, from any state of such a run, breaks that: the file side is idle
with one handle open. -/
theorem openHandles_of_reachable {s : System cfg.wordBits (σ × List Access)}
    (h : (soundMachine cfg P).Reachable s) :
    openHandles s.world.2 = (if s.file.mode = .idle then 0 else 1) ∧
      ∀ world e s', Leaks cfg P (s.onWorld world) e →
        (tracedMachine cfg P).Step s (world, e) s' →
        s'.file.mode = .idle ∧ openHandles s'.world.2 = 1 := by
  have hacc := accounted_of_reachable h
  refine ⟨hacc.handles, ?_⟩
  rintro world e s' hleaks ⟨a, hrun⟩
  have hacc' : Accounted cfg { s with world := (world, s.world.2) } :=
    ⟨hacc.exclusive.congr rfl rfl rfl, hacc.handles⟩
  exact (accounted_event hacc' hrun).2 hleaks

/-- A file announced: it is open, and one handle is. -/
theorem openHandles_of_reachable_announced :
    ∃ s, (soundMachine fileConfig (fileSimulator allBytes)).Reachable s ∧
      s.file.mode = .write ∧ openHandles s.world.2 = 1 := by
  have hadds : ¬ Leaks fileConfig (fileSimulator allBytes) (System.initial noFiles)
      (addFile 0x61 4) := by
    rintro ⟨-, -, args, path, he, hmode, -⟩
    obtain rfl := Event.requestFileTransfer.inj he
    cases hmode
  have hreach : (soundMachine fileConfig (fileSimulator allBytes)).Reachable _ :=
    .step (e := (noFiles, addFile 0x61 4)) (.init ⟨noFiles, rfl⟩) ⟨hadds, _, rfl⟩
  exact ⟨_, hreach, rfl, (openHandles_of_reachable hreach).1⟩

/-- A file system whose `fs_stat` fails. -/
def noStat : Platform 32 (Files (List UInt8) UInt8) :=
  { fileSimulator allBytes with fsStat := fun _ t => ((-EINVAL, ⟨false, 0⟩), t) }

/-- A file that opens and has no status: the file side is idle, and the
handle stays open. -/
theorem openHandles_noStat :
    ¬ ∀ s, (tracedMachine fileConfig noStat).Reachable s →
      openHandles s.world.2 = if s.file.mode = .idle then 0 else 1 := by
  intro hall
  have hreach : (tracedMachine fileConfig noStat).Reachable _ :=
    .step (e := ((noFiles.create [0x61]).close,
      .requestFileTransfer ⟨.rdFile, some [0x61], 0, 0⟩)) (.init ⟨noFiles, rfl⟩) ⟨_, rfl⟩
  exact absurd (hall _ hreach) (by decide)

end Transfer

end Uds

end Ardep
