import Ardep.Uds.Transfer.RoundTrip
/-!
# Transfer — writing a file

Three things stand for how far a file write has come: the counter, the
position in the file and the answers the client got. `Writing` has all
three. `writing_step` is one block: the three move together where
`fs_write` takes all of it, and stay where it fails; where it takes a part
the file alone moves, and where the counter wraps it alone does not.

`written_iff` says that nothing else parts them.
-/

namespace Ardep

namespace Uds

namespace Transfer

variable {cfg : Config} {σ : Type} {P : Platform cfg.wordBits σ} {view : FileView σ}
variable {s s' : System cfg.wordBits σ}

/-- **A file write under way**: `n` bytes are announced, the file holds
`file` and is open at its end, and `m` bytes were in the blocks that were
answered positively. -/
structure Writing (view : FileView σ) (path : List UInt8) (n : BitVec cfg.wordBits)
    (file : List UInt8) (m : ℕ) (s : System cfg.wordBits σ) : Prop where
  enabled : cfg.fileTransfer = true
  mode : s.file.mode = .write
  opened : s.file.fileOpen = true
  flash : s.updown.state = .idle
  announced : s.file.expectedSize = n
  transferred : s.file.transferred = BitVec.ofNat _ m
  atEnd : (view s.world).At path file file.length

/-- The block goes to `fs_write`: it is not empty, and the sum of the
counter and its length is not over the announced size. -/
def Admitted (s : System cfg.wordBits σ) (b : TransferDataArgs) : Prop :=
  b.data ≠ [] ∧ ¬ (0 < s.file.expectedSize ∧
    s.file.expectedSize < s.file.transferred + BitVec.ofNat _ b.data.length)

instance (s : System cfg.wordBits σ) (b : TransferDataArgs) : Decidable (Admitted s b) :=
  inferInstanceAs (Decidable (_ ∧ _))

theorem fsErrorToNrc_ne_ok (err : ℤ) : fsErrorToNrc err ≠ .ok := by
  unfold fsErrorToNrc
  split_ifs <;> decide

/-- What the file write of a block gives, by whether it is admitted. -/
theorem udsFileTransferWrite_eq (b : TransferDataArgs) :
    udsFileTransferWrite cfg P b s =
      if Admitted s b then
        if (P.fsWrite b.data s.world).1 < 0 then
          ({ code := fsErrorToNrc (P.fsWrite b.data s.world).1 },
            { s with world := (P.fsWrite b.data s.world).2 })
        else if (P.fsWrite b.data s.world).1 ≠ b.data.length then
          ({ code := .uploadDownloadNotAccepted },
            { s with world := (P.fsWrite b.data s.world).2 })
        else
          ({ code := .ok },
            { s with
              world := (P.fsWrite b.data s.world).2
              file := { s.file with
                transferred := s.file.transferred + BitVec.ofNat _ b.data.length } })
      else ({ code := .requestOutOfRange }, s) := by
  have hadmitted : Admitted s b ↔ ¬ b.data.length = 0 ∧ ¬ (0 < s.file.expectedSize ∧
      s.file.expectedSize < s.file.transferred + BitVec.ofNat _ b.data.length) := by
    rw [List.length_eq_zero_iff]
    rfl
  simp only [udsFileTransferWrite, hadmitted]
  by_cases hlen : b.data.length = 0
  · rw [if_pos hlen, if_neg fun h => h.1 hlen]
  · rw [if_neg hlen]
    by_cases hover : 0 < s.file.expectedSize ∧
        s.file.expectedSize < s.file.transferred + BitVec.ofNat _ b.data.length
    · rw [if_pos hover, if_neg fun h => h.2 hover]
    · rw [if_neg hover]
      exact (if_pos ⟨hlen, hover⟩).symm

/-- **One block.** Not admitted, it changes nothing. Else the file takes
what `fs_write` takes of it, and exactly where that is all of it the
answer is positive and the counter moves. -/
theorem writing_step (hlaw : P.FileLawful view) {path file : List UInt8} {n : BitVec cfg.wordBits}
    {m : ℕ} (h : Writing view path n file m s) (b : TransferDataArgs) :
    ∃ a s', step cfg P s (.transferData b) = some (a, s') ∧
      ((¬ Admitted s b ∧ a.code ≠ .ok ∧ s' = s) ∨
        (Admitted s b ∧ (P.fsWrite b.data s.world).1 < 0 ∧ a.code ≠ .ok ∧
          Writing view path n file m s') ∨
        (Admitted s b ∧ 0 ≤ (P.fsWrite b.data s.world).1 ∧
          (P.fsWrite b.data s.world).1 < b.data.length ∧ a.code ≠ .ok ∧
          Writing view path n (file ++ b.data.take (P.fsWrite b.data s.world).1.toNat) m s') ∨
        (Admitted s b ∧ (P.fsWrite b.data s.world).1 = b.data.length ∧ a.code = .ok ∧
          Writing view path n (file ++ b.data) (m + b.data.length) s')) := by
  have hactive : s.file.mode ≠ .idle := by rw [h.mode]; decide
  have hstep : step cfg P s (.transferData b) = some (udsFileTransferWrite cfg P b s) := by
    rw [step, udsActionUploadDownload_of_file h.enabled hactive]
    simp only [udsFileTransferContinue, h.mode]
  refine ⟨(udsFileTransferWrite cfg P b s).1, (udsFileTransferWrite cfg P b s).2, hstep, ?_⟩
  rw [udsFileTransferWrite_eq]
  by_cases hadm : Admitted s b
  · rw [if_pos hadm]
    refine .inr ?_
    by_cases hneg : (P.fsWrite b.data s.world).1 < 0
    · rw [if_pos hneg]
      refine .inl ⟨hadm, hneg, fsErrorToNrc_ne_ok _, h.enabled, h.mode, h.opened, h.flash,
        h.announced, h.transferred, ?_⟩
      show (view (P.fsWrite b.data s.world).2).At path file file.length
      rw [hlaw.write_fails b.data s.world hneg]
      exact h.atEnd
    · rw [if_neg hneg]
      obtain ⟨hle, htakes⟩ := hlaw.write_takes b.data s.world (not_lt.mp hneg)
      have hend := h.atEnd.write (b.data.take (P.fsWrite b.data s.world).1.toNat)
      rw [← htakes] at hend
      by_cases hall : (P.fsWrite b.data s.world).1 = b.data.length
      · rw [if_neg (not_not.mpr hall)]
        rw [hall, Int.toNat_natCast, List.take_length] at hend
        refine .inr (.inr ⟨hadm, hall, rfl, h.enabled, h.mode, h.opened, h.flash, h.announced, ?_,
          hend⟩)
        show s.file.transferred + BitVec.ofNat _ b.data.length = _
        rw [h.transferred, BitVec.ofNat_add]
      · rw [if_pos hall]
        refine .inr (.inl ⟨hadm, not_lt.mp hneg, lt_of_le_of_ne hle hall, by simp, h.enabled,
          h.mode, h.opened, h.flash, h.announced, h.transferred, hend⟩)
  · rw [if_neg hadm]
    exact .inl ⟨hadm, by simp, rfl⟩

/-! ## Runs of blocks -/

/-- The blocks that were answered positively, joined. -/
def acceptedBytes : List TransferDataArgs → List Answer → List UInt8
  | b :: bs, a :: as => (if a.code = .ok then b.data else []) ++ acceptedBytes bs as
  | _, _ => []

/-- **The block is written whole or not at all**, and the counter does not
wrap: an admitted block is one `fs_write` takes nothing of, or all of with
room for its length in the counter. -/
def WrittenWhole (cfg : Config) (P : Platform cfg.wordBits σ) (s : System cfg.wordBits σ)
    (e : Event cfg.wordBits) : Prop :=
  ∀ b, e = .transferData b → Admitted s b →
    (P.fsWrite b.data s.world).1 ≤ 0 ∨
      (P.fsWrite b.data s.world).1 = b.data.length ∧
        s.file.transferred.toNat + b.data.length < 2 ^ cfg.wordBits

theorem writtenWhole_transferData {b : TransferDataArgs} :
    WrittenWhole cfg P s (.transferData b) ↔ (Admitted s b →
      (P.fsWrite b.data s.world).1 ≤ 0 ∨ (P.fsWrite b.data s.world).1 = b.data.length ∧
        s.file.transferred.toNat + b.data.length < 2 ^ cfg.wordBits) := by
  constructor
  · intro hw
    exact hw b rfl
  · intro hw c hc
    obtain rfl := Event.transferData.inj hc
    exact hw

/-- **A file against the bytes that were accepted** since it held `file`
and the counter `m`, which wraps at `bound`. The file gets at least these.
Where each block is written whole it gets exactly these and the counter
holds their number; where one is not, the file has more than was accepted
or the counter has wrapped. -/
structure Tally (bound m : ℕ) (file accepted file' : List UInt8) (whole : Prop) : Prop where
  le : file.length + accepted.length ≤ file'.length
  kept : whole → m < bound → file' = file ++ accepted ∧ m + accepted.length < bound
  lost : ¬ whole → file.length + accepted.length < file'.length ∨ bound ≤ m + accepted.length

section Tally

variable {bound m : ℕ} {file accepted file' block : List UInt8} {here whole : Prop}

theorem Tally.nil : Tally bound m file [] file True where
  le := Nat.le_refl _
  kept _ hm := ⟨(List.append_nil file).symm, hm⟩
  lost hnot := absurd trivial hnot

/-- A block that is refused after part of it was written. -/
theorem Tally.refused (hhere : here ↔ block = [])
    (h : Tally bound m (file ++ block) accepted file' whole) :
    Tally bound m file accepted file' (here ∧ whole) := by
  have hle := h.le
  have hlost := h.lost
  rw [List.length_append] at hle hlost
  refine ⟨by omega, fun ⟨hh, hw⟩ hm => ?_, fun hnot => ?_⟩
  · have hkept := h.kept hw hm
    rw [hhere.mp hh, List.append_nil] at hkept
    exact hkept
  · by_cases hnil : block = []
    · rcases hlost fun hw => hnot ⟨hhere.mpr hnil, hw⟩ with hmore | hwrapped
      · exact .inl (by omega)
      · exact .inr hwrapped
    · have hpos := List.length_pos_iff.mpr hnil
      exact .inl (by omega)

/-- One that is accepted. -/
theorem Tally.taken (hroom : here → m < bound → m + block.length < bound)
    (hfull : ¬ here → bound ≤ m + block.length)
    (h : Tally bound (m + block.length) (file ++ block) accepted file' whole) :
    Tally bound m file (block ++ accepted) file' (here ∧ whole) := by
  have hle := h.le
  have hlost := h.lost
  rw [List.length_append] at hle hlost
  refine ⟨?_, fun ⟨hh, hw⟩ hm => ?_, fun hnot => ?_⟩
  · rw [List.length_append]
    omega
  · obtain ⟨hfile, hlen⟩ := h.kept hw (hroom hh hm)
    refine ⟨by rw [hfile, List.append_assoc], ?_⟩
    rw [List.length_append]
    omega
  · rw [List.length_append]
    by_cases hh : here
    · rcases hlost fun hw => hnot ⟨hh, hw⟩ with hmore | hwrapped
      · exact .inl (by omega)
      · exact .inr (by omega)
    · have hbound := hfull hh
      exact .inr (by omega)

end Tally

/-- **A run of blocks** and its tally. -/
theorem runs_writing (hlaw : P.FileLawful view) {path : List UInt8} {n : BitVec cfg.wordBits} :
    ∀ (blocks : List TransferDataArgs) (file : List UInt8) (m : ℕ)
      (s s' : System cfg.wordBits σ) (as : List Answer),
      Writing view path n file m s →
      runs (step cfg P) s (blocks.map Event.transferData) = some (as, s') →
      ∃ file', Writing view path n file' (m + (acceptedBytes blocks as).length) s' ∧
        Tally (2 ^ cfg.wordBits) m file (acceptedBytes blocks as) file'
          (Along (step cfg P) (WrittenWhole cfg P) s (blocks.map Event.transferData)) := by
  intro blocks
  induction blocks with
  | nil =>
    intro file m s s' as h hrun
    simp only [List.map_nil, runs_nil, Option.some.injEq, Prod.mk.injEq] at hrun
    obtain ⟨rfl, rfl⟩ := hrun
    exact ⟨file, h, .nil⟩
  | cons b blocks ih =>
    intro file m s s' as h hrun
    rw [List.map_cons, runs_cons_eq_some] at hrun
    obtain ⟨a, s1, as', hstep, hrest, rfl⟩ := hrun
    obtain ⟨a', s2, hstep', hcases⟩ := writing_step hlaw h b
    rw [hstep, Option.some.injEq, Prod.mk.injEq] at hstep'
    obtain ⟨rfl, rfl⟩ := hstep'
    rw [List.map_cons, along_cons hstep, writtenWhole_transferData]
    rcases hcases with
      ⟨hadm, hcode, rfl⟩ | ⟨hadm, hneg, hcode, h1⟩ | ⟨hadm, hnonneg, hlt, hcode, h1⟩ |
        ⟨hadm, hall, hcode, h1⟩
    · -- not admitted: the rest of the run starts where this one did
      obtain ⟨file', hw, htally⟩ := ih file m s1 s' as' h hrest
      rw [← List.append_nil file] at htally
      simp only [acceptedBytes, if_neg hcode, List.nil_append]
      exact ⟨file', hw, htally.refused (iff_of_true (fun hadm' => absurd hadm' hadm) rfl)⟩
    · obtain ⟨file', hw, htally⟩ := ih file m s1 s' as' h1 hrest
      rw [← List.append_nil file] at htally
      simp only [acceptedBytes, if_neg hcode, List.nil_append]
      exact ⟨file', hw, htally.refused (iff_of_true (fun _ => .inl hneg.le) rfl)⟩
    · -- a part of the block, or nothing of it
      obtain ⟨file', hw, htally⟩ := ih _ m s1 s' as' h1 hrest
      simp only [acceptedBytes, if_neg hcode, List.nil_append]
      refine ⟨file', hw, htally.refused ⟨fun hwr => ?_, fun hnil _ => ?_⟩⟩
      · have hzero : (P.fsWrite b.data s.world).1.toNat = 0 := by
          rcases hwr hadm with hw0 | ⟨hw0, -⟩ <;> omega
        rw [hzero, List.take_zero]
      · have hlength := congrArg List.length hnil
        rw [List.length_take, List.length_nil] at hlength
        exact .inl (by omega)
    · obtain ⟨file', hw, htally⟩ := ih _ _ s1 s' as' h1 hrest
      have hcount : s.file.transferred.toNat = m % 2 ^ cfg.wordBits := by
        rw [h.transferred, BitVec.toNat_ofNat]
      have hne : 0 < b.data.length := List.length_pos_iff.mpr hadm.1
      simp only [acceptedBytes, if_pos hcode]
      refine ⟨file', ?_, htally.taken (fun hwr hm => ?_) fun hnot => ?_⟩
      · rw [List.length_append, ← Nat.add_assoc]
        exact hw
      · rcases hwr hadm with hw0 | ⟨-, hw0⟩
        · omega
        · rwa [hcount, Nat.mod_eq_of_lt hm] at hw0
      · have hwrapped : ¬ s.file.transferred.toNat + b.data.length < 2 ^ cfg.wordBits :=
          fun hroom => hnot fun _ => .inr ⟨hall, hroom⟩
        have hmod : m % 2 ^ cfg.wordBits ≤ m := Nat.mod_le _ _
        omega

/-! ## From the request to the exit -/

/-- The request is to write a file. -/
def ModeOfOperation.IsWrite (m : ModeOfOperation) : Prop := m = .addFile ∨ m = .replFile

/-- **An accepted request to write** starts with an empty file. -/
theorem step_requestWrite (hlaw : P.FileLawful view) (hexc : Exclusive cfg s)
    {args : RequestFileTransferArgs cfg.wordBits} (hmode : args.modeOfOperation.IsWrite)
    {a : Answer} (hstep : step cfg P s (.requestFileTransfer args) = some (a, s'))
    (hok : a.code = .ok) :
    ∃ path, filePath? args = some path ∧ Writing view path args.fileSizeCompressed [] 0 s' := by
  obtain ⟨s1, hidle, -, hstart⟩ := exists_start_of_ok hexc rfl hstep hok
  rw [start] at hstart
  by_cases hcfg : cfg.fileTransfer = true
  · rw [if_pos hcfg, udsFileTransferRequest_eq] at hstart
    cases hp : filePath? args with
    | none =>
      rw [hp, Prod.mk.injEq] at hstart
      rw [← hstart.1] at hok
      exact absurd hok (by simp)
    | some path =>
      have hbegin : udsFileTransferBeginWrite cfg P path args.fileSizeCompressed args s1 =
          (a, s') := by
        rw [hp] at hstart
        rcases hmode with hmode | hmode
        · rw [hmode] at hstart
          exact hstart
        · rw [hmode] at hstart
          exact hstart
      simp only [udsFileTransferBeginWrite] at hbegin
      split at hbegin
      · rw [Prod.mk.injEq] at hbegin
        rw [← hbegin.1] at hok
        exact absurd hok (fsErrorToNrc_ne_ok _)
      · next hrc =>
        obtain ⟨-, rfl⟩ := Prod.mk.inj hbegin
        have hopen := hlaw.open_write path (P.fsFileTInit s1.world) (not_lt.mp hrc)
        refine ⟨path, rfl, hcfg, rfl, rfl, hidle.updown, rfl, rfl, ?_⟩
        show (view (P.fsOpen path .createTruncRdwr (P.fsFileTInit s1.world)).2).At path [] 0
        rw [hopen]
        exact Files.at_create
  · rw [if_neg hcfg, Prod.mk.injEq] at hstart
    rw [← hstart.1] at hok
    exact absurd hok (by simp)

theorem Writing.exclusive {path file : List UInt8} {n : BitVec cfg.wordBits} {m : ℕ}
    (h : Writing view path n file m s) : Exclusive cfg s := by
  refine ⟨.inl h.flash, by simp [h.opened, h.mode], fun hcfg => ?_⟩
  rw [h.enabled] at hcfg
  cases hcfg

/-- **Leaving a file write** closes the file, which keeps what it holds;
the answer is positive exactly where the counter is at the announced
size. -/
theorem writing_exit (hlaw : P.FileLawful view) {path file : List UInt8}
    {n : BitVec cfg.wordBits} {m : ℕ} (hn : 0 < n) (h : Writing view path n file m s) :
    ∃ err s', step cfg P s .requestTransferExit = some ({ code := err }, s') ∧ BothIdle s' ∧
      (view s'.world).contents path = some file ∧ (err = .ok ↔ BitVec.ofNat _ m = n) := by
  obtain ⟨err, s', hexit, hidle, hworld, herr, hseq⟩ := transferExit_spec (P := P) h.exclusive
  refine ⟨err, s', udsActionUploadDownload_of_exit hexit, hidle, ?_, ?_⟩
  · rw [hworld, closedWorld, if_pos h.opened, hlaw.close]
    exact h.atEnd.contents
  · have hcomplete : Incomplete s ↔ BitVec.ofNat _ m ≠ n := by
      rw [Incomplete, h.mode, h.announced, h.transferred]
      exact ⟨fun hi => hi.2.2, fun hne => ⟨rfl, hn, hne⟩⟩
    have hrunning : err ≠ .requestSequenceError := hseq (by rw [h.mode]; decide)
    by_cases hm : BitVec.ofNat _ m = n
    · rw [if_neg (by rw [hcomplete]; exact not_not.mpr hm)] at herr
      exact ⟨fun _ => hm, fun _ => herr.resolve_right hrunning⟩
    · rw [if_pos (hcomplete.mpr hm)] at herr
      subst herr
      exact ⟨fun hok => absurd hok (by decide), fun heq => absurd heq hm⟩

/-- **What a file holds after a write.** From any reachable state: an
accepted ADDFILE or REPLFILE with an announced size, blocks answered as
they may be, and a transfer exit answered positively. The file holds
exactly the announced number of bytes, and these are the blocks that were
answered positively, if and only if each block was written whole or not at
all and the counter did not wrap. -/
theorem written_iff (hlaw : P.FileLawful view) {s0 s1 s2 s3 : System cfg.wordBits σ}
    {a1 a3 : Answer} {as : List Answer} {path : List UInt8}
    (args : RequestFileTransferArgs cfg.wordBits) (blocks : List TransferDataArgs)
    (hreach : (machine cfg P).Reachable s0)
    (hmode : args.modeOfOperation = .addFile ∨ args.modeOfOperation = .replFile)
    (hpath : filePath? args = some path) (hsize : 0 < args.fileSizeCompressed)
    (hstart : step cfg P s0 (.requestFileTransfer args) = some (a1, s1)) (hstartok : a1.code = .ok)
    (hblocks : runs (step cfg P) s1 (blocks.map .transferData) = some (as, s2))
    (hexit : step cfg P s2 .requestTransferExit = some (a3, s3)) (hexitok : a3.code = .ok) :
    (∃ file, (view s3.world).contents path = some file ∧ file = acceptedBytes blocks as ∧
      file.length = args.fileSizeCompressed.toNat) ↔
      Along (step cfg P) (WrittenWhole cfg P) s1 (blocks.map .transferData) := by
  obtain ⟨path', hpath', hw1⟩ :=
    step_requestWrite hlaw (exclusive_of_reachable hreach) hmode hstart hstartok
  rw [hpath, Option.some.injEq] at hpath'
  subst hpath'
  obtain ⟨file, hw2, hle, hgood, hbad⟩ := runs_writing hlaw blocks [] 0 s1 s2 as hw1 hblocks
  simp only [List.length_nil, Nat.zero_add, List.nil_append] at hw2 hle hgood hbad
  obtain ⟨err, s3', hexit', -, hcontents, herr⟩ := writing_exit hlaw hsize hw2
  rw [hexit, Option.some.injEq, Prod.mk.injEq] at hexit'
  obtain ⟨rfl, rfl⟩ := hexit'
  have hcount : BitVec.ofNat _ (acceptedBytes blocks as).length = args.fileSizeCompressed :=
    herr.mp hexitok
  have hlt := args.fileSizeCompressed.isLt
  constructor
  · rintro ⟨file', hfile', rfl, hlen⟩
    rw [hcontents, Option.some.injEq] at hfile'
    subst hfile'
    by_contra hnot
    rcases hbad hnot with hmore | hwrapped
    · exact absurd hmore (lt_irrefl _)
    · omega
  · intro hall
    obtain ⟨hfile, hroom⟩ := hgood hall (Nat.two_pow_pos _)
    refine ⟨file, hcontents, hfile, ?_⟩
    rw [hfile, ← hcount, BitVec.toNat_ofNat, Nat.mod_eq_of_lt hroom]

/-- A block of data for a file. -/
def block (data : List UInt8) (h : data.length < 2 ^ 16) : TransferDataArgs := ⟨data, h, 0, none⟩

/-- Three bytes in two blocks. -/
theorem written_iff_three :
    ∃ (s1 s2 s3 : System 32 (Files (List UInt8) UInt8)) (a1 a3 : Answer) (as : List Answer),
      step fileConfig (fileSimulator allBytes) (System.initial noFiles) (addFile 0x61 3) =
          some (a1, s1) ∧
        runs (step fileConfig (fileSimulator allBytes)) s1
          [.transferData (block [1, 2] (by decide)), .transferData (block [3] (by decide))] =
            some (as, s2) ∧
        step fileConfig (fileSimulator allBytes) s2 .requestTransferExit = some (a3, s3) ∧
        ∃ file, s3.world.contents [0x61] = some file ∧ file = [1, 2, 3] ∧ file.length = 3 := by
  refine ⟨_, _, _, _, _, _, rfl, rfl, rfl, ?_⟩
  have hinit : (machine fileConfig (fileSimulator allBytes)).Reachable (System.initial noFiles) :=
    .init ⟨noFiles, rfl⟩
  refine (written_iff (fileSimulator_fileLawful allBytes) ⟨.addFile, some [0x61], 3, 0⟩
    [block [1, 2] (by decide), block [3] (by decide)] hinit (.inl rfl) rfl
    (by decide) rfl rfl rfl rfl rfl).mpr ?_
  refine (along_cons rfl).mpr ⟨?_, (along_cons rfl).mpr ⟨?_, trivial⟩⟩
  · intro b hb _
    obtain rfl := Event.transferData.inj hb
    exact .inr ⟨rfl, by decide⟩
  · intro b hb _
    obtain rfl := Event.transferData.inj hb
    exact .inr ⟨rfl, by decide⟩

/-- A file system that takes one byte of the first write. -/
def oneByteFirst : ℕ → ℕ → ℕ := fun pos len => if pos = 0 then 1 else len

/-- Two bytes, of which the first write takes one. The client is refused
and sends them again: the exit is positive, and the file has three. -/
theorem not_written_short :
    ∃ (s1 s2 s3 : System 32 (Files (List UInt8) UInt8)) (a1 a3 : Answer) (as : List Answer),
      (fileSimulator oneByteFirst).FileLawful id ∧
        step fileConfig (fileSimulator oneByteFirst) (System.initial noFiles) (addFile 0x61 2) =
          some (a1, s1) ∧ a1.code = .ok ∧
        runs (step fileConfig (fileSimulator oneByteFirst)) s1
          [.transferData (block [1, 2] (by decide)), .transferData (block [1, 2] (by decide))] =
            some (as, s2) ∧
        step fileConfig (fileSimulator oneByteFirst) s2 .requestTransferExit = some (a3, s3) ∧
        a3.code = .ok ∧
        ¬ ∃ file, s3.world.contents [0x61] = some file ∧
          file = acceptedBytes [block [1, 2] (by decide), block [1, 2] (by decide)] as ∧
          file.length = 2 := by
  refine ⟨_, _, _, _, _, _, fileSimulator_fileLawful oneByteFirst, rfl, rfl, rfl, rfl, rfl, ?_⟩
  rintro ⟨file, hfile, -, hlen⟩
  have hthree : some [1, 1, 2] = some file := hfile
  obtain rfl := Option.some.inj hthree
  cases hlen

end Transfer

end Uds

end Ardep
