import Ardep.Uds.Transfer.FileWrite
/-!
# Transfer — a file written and read back

Over a file system with nothing in its way a file comes back as it was
sent, in whatever blocks either side uses: `runs_writing_all` is the
writing run, `Reading` the state half-way through reading it and
`runs_reading` that run.

A block over the announced size is refused by comparing a sum that may
wrap. `admitted_iff` says when the sum lets one through, and
`roundTrip_iff` from which announced size on one is.
-/

namespace Ardep

namespace Uds

namespace Transfer

variable {cfg : Config} {σ : Type} {P : Platform cfg.wordBits σ} {view : FileView σ}
variable {s s' : System cfg.wordBits σ} {path : List UInt8} {n : BitVec cfg.wordBits}

/-! ## Writing all of it -/

/-- **The size check, as it computes**: a block that is not empty is
admitted where it fits, and where the sum wraps. -/
theorem admitted_iff {file : List UInt8} {m : ℕ} (h : Writing view path n file m s) (hn : 0 < n)
    (hm : m ≤ n.toNat) {b : TransferDataArgs} (hb : b.data ≠ []) :
    Admitted s b ↔ m + b.data.length ≤ n.toNat ∨ 2 ^ cfg.wordBits ≤ m + b.data.length := by
  have hlt := n.isLt
  have hlen := b.len_lt
  have hword : 2 ^ 16 ≤ 2 ^ cfg.wordBits := Nat.pow_le_pow_right (by decide) cfg.wordBits_ge
  have hsum : (s.file.transferred + BitVec.ofNat _ b.data.length).toNat =
      (m + b.data.length) % 2 ^ cfg.wordBits := by
    rw [h.transferred, ← BitVec.ofNat_add, BitVec.toNat_ofNat]
  have hadmitted : Admitted s b ↔ ¬ n.toNat < (m + b.data.length) % 2 ^ cfg.wordBits := by
    rw [Admitted, h.announced, BitVec.lt_def (y := s.file.transferred + _), hsum]
    exact ⟨fun hadm hover => hadm.2 ⟨hn, hover⟩, fun hnot => ⟨hb, fun hover => hnot hover.2⟩⟩
  rw [hadmitted]
  by_cases hwrap : m + b.data.length < 2 ^ cfg.wordBits
  · rw [Nat.mod_eq_of_lt hwrap]
    omega
  · have hmod : (m + b.data.length) % 2 ^ cfg.wordBits =
        m + b.data.length - 2 ^ cfg.wordBits := by
      rw [Nat.mod_eq_sub_mod (not_lt.mp hwrap), Nat.mod_eq_of_lt (by omega)]
    rw [hmod]
    omega

/-- An admitted block is written whole by a file system with nothing in
its way. -/
theorem writing_step_all (hlaw : P.FileLawful view) (hfull : P.FilesComplete view)
    {file : List UInt8} {m : ℕ} (h : Writing view path n file m s) {b : TransferDataArgs}
    (hadm : Admitted s b) :
    ∃ a s', step cfg P s (.transferData b) = some (a, s') ∧ a.code = .ok ∧
      Writing view path n (file ++ b.data) (m + b.data.length) s' := by
  have hall := hfull.write_all b.data s.world file h.atEnd.file?
  obtain ⟨a, s', hstep, hcases⟩ := writing_step hlaw h b
  rcases hcases with ⟨hnot, -⟩ | ⟨-, hneg, -⟩ | ⟨-, -, hlt, -⟩ | ⟨-, -, hcode, hw⟩
  · exact absurd hadm hnot
  · omega
  · omega
  · exact ⟨a, s', hstep, hcode, hw⟩

/-- **Blocks that fit are all written.** -/
theorem runs_writing_all (hlaw : P.FileLawful view) (hfull : P.FilesComplete view) (hn : 0 < n) :
    ∀ (blocks : List TransferDataArgs) (file : List UInt8) (m : ℕ) (s : System cfg.wordBits σ),
      Writing view path n file m s → (∀ b ∈ blocks, b.data ≠ []) →
      m + (blocks.map (·.data)).flatten.length ≤ n.toNat →
      ∃ as s', runs (step cfg P) s (blocks.map Event.transferData) = some (as, s') ∧
        (∀ a ∈ as, a.code = .ok) ∧
        Writing view path n (file ++ (blocks.map (·.data)).flatten)
          (m + (blocks.map (·.data)).flatten.length) s' := by
  intro blocks
  induction blocks with
  | nil =>
    intro file m s h _ _
    exact ⟨[], s, rfl, by simp, by simpa using h⟩
  | cons b blocks ih =>
    intro file m s h hne hfits
    rw [List.map_cons, List.flatten_cons, List.length_append] at hfits
    have hadm : Admitted s b :=
      (admitted_iff h hn (by omega) (hne b List.mem_cons_self)).mpr (.inl (by omega))
    obtain ⟨a, s1, hstep, hcode, h1⟩ := writing_step_all hlaw hfull h hadm
    obtain ⟨as, s', hrun, hcodes, h'⟩ :=
      ih _ _ s1 h1 (fun c hc => hne c (List.mem_cons_of_mem _ hc)) (by omega)
    refine ⟨a :: as, s', ?_, ?_, ?_⟩
    · rw [List.map_cons]
      exact runs_cons_eq_some.mpr ⟨a, s1, as, hstep, hrun, rfl⟩
    · intro c hc
      rcases List.mem_cons.mp hc with rfl | hc
      · exact hcode
      · exact hcodes c hc
    · rw [List.map_cons, List.flatten_cons, List.length_append, ← List.append_assoc,
        ← Nat.add_assoc]
      exact h'

/-! ## Reading it back -/

/-- **A file read under way**: `m` bytes of the file were handed over. -/
structure Reading (view : FileView σ) (path d : List UInt8) (m : ℕ)
    (s : System cfg.wordBits σ) : Prop where
  enabled : cfg.fileTransfer = true
  mode : s.file.mode = .read
  announced : s.file.expectedSize = BitVec.ofNat _ d.length
  transferred : s.file.transferred = BitVec.ofNat _ m
  le : m ≤ d.length
  fits : d.length < 2 ^ cfg.wordBits
  position : (view s.world).At path d m

/-- A request for a block: there is room for a byte, and the copy of a
block is accepted. -/
def Accepting (r : TransferDataArgs) : Prop :=
  1 ≤ r.maxRespLen.toNat ∧ ∃ copy, r.copyResponse = some copy ∧ ∀ bytes, copy bytes = 0

theorem Reading.remaining {d : List UInt8} {m : ℕ} (h : Reading view path d m s) :
    (Transfer.remaining s.file).toNat = d.length - m := by
  have hm : s.file.transferred.toNat = m := by
    rw [h.transferred, BitVec.toNat_ofNat, Nat.mod_eq_of_lt (lt_of_le_of_lt h.le h.fits)]
  have hd : s.file.expectedSize.toNat = d.length := by
    rw [h.announced, BitVec.toNat_ofNat, Nat.mod_eq_of_lt h.fits]
  have hle : s.file.transferred ≤ s.file.expectedSize := by
    rw [BitVec.le_def, hm, hd]
    exact h.le
  rw [Transfer.remaining, if_pos hle, BitVec.toNat_sub_of_le hle, hm, hd]

/-- **One block read**: the next bytes, as many as there is room for and
as are left; nothing at the end. -/
theorem reading_step (hfull : P.FilesComplete view) {d : List UInt8} {m : ℕ}
    (h : Reading view path d m s) {r : TransferDataArgs} (hr : Accepting r) :
    (m = d.length ∧
      step cfg P s (.transferData r) = some ({ code := .requestSequenceError }, s)) ∨
    (m < d.length ∧ ∃ s', step cfg P s (.transferData r) =
        some ({ code := .ok
                copied := some ((d.drop m).take (min r.maxRespLen.toNat (d.length - m))) }, s') ∧
      Reading view path d (m + min r.maxRespLen.toNat (d.length - m)) s') := by
  obtain ⟨hroom, copy, hcopy, haccepts⟩ := hr
  have hactive : s.file.mode ≠ .idle := by rw [h.mode]; decide
  have hstep : step cfg P s (.transferData r) = some (udsFileTransferRead cfg P r s) := by
    rw [step, udsActionUploadDownload_of_file h.enabled hactive]
    simp only [udsFileTransferContinue, h.mode]
  have hrem := h.remaining
  rw [hstep, udsFileTransferRead_eq hcopy]
  by_cases hend : m = d.length
  · refine .inl ⟨hend, ?_⟩
    have hzero : Transfer.remaining s.file = 0 := BitVec.eq_of_toNat_eq (by rw [hrem]; simp [hend])
    rw [if_pos hzero]
  · have hlt : m < d.length := lt_of_le_of_ne h.le hend
    have hsome : Transfer.remaining s.file ≠ 0 := by
      intro hzero
      rw [hzero] at hrem
      simp at hrem
      omega
    refine .inr ⟨hlt, ?_⟩
    rw [if_neg hsome, hrem]
    set k := min r.maxRespLen.toNat (d.length - m) with hk
    obtain ⟨hread, hview⟩ := hfull.read_all k s.world d h.position.file?
    obtain ⟨hbytes, hat⟩ := h.position.read k
    rw [hbytes] at hread
    have hlen : ((d.drop m).take k).length = k := by
      rw [List.length_take, List.length_drop]
      omega
    have hkpos : k ≠ 0 := by omega
    rcases hrun : P.fsRead k s.world with ⟨res, world⟩
    rw [hrun] at hread hview
    simp only at hread hview
    subst hread
    simp only [hlen, if_neg hkpos, haccepts, ne_eq, not_true_eq_false, if_false]
    refine ⟨_, rfl, h.enabled, h.mode, h.announced, ?_, by omega, h.fits, ?_⟩
    · show s.file.transferred + BitVec.ofNat _ k = _
      rw [h.transferred, BitVec.ofNat_add]
    · show (view world).At path d (m + k)
      rw [hview]
      have hmin : min k (d.length - m) = k := by omega
      rwa [hmin] at hat

/-- What the requests have room for. -/
def room (reads : List TransferDataArgs) : ℕ := (reads.map (·.maxRespLen.toNat)).sum

/-- **A run of reads** hands over the bytes in order, as many as there is
room for. -/
theorem runs_reading (hfull : P.FilesComplete view) {d : List UInt8} :
    ∀ (reads : List TransferDataArgs) (m : ℕ) (s : System cfg.wordBits σ),
      Reading view path d m s → (∀ r ∈ reads, Accepting r) →
      ∃ bs s', runs (step cfg P) s (reads.map Event.transferData) = some (bs, s') ∧
        copiedBytes bs = (d.drop m).take (room reads) ∧
        Reading view path d (min d.length (m + room reads)) s' := by
  intro reads
  induction reads with
  | nil =>
    intro m s h _
    have hmin : min d.length (m + room []) = m := by
      have := h.le
      simp only [room, List.map_nil, List.sum_nil]
      omega
    refine ⟨[], s, rfl, by simp [copiedBytes, room], ?_⟩
    rwa [hmin]
  | cons r reads ih =>
    intro m s h hacc
    have hrest : ∀ q ∈ reads, Accepting q := fun q hq => hacc q (List.mem_cons_of_mem _ hq)
    have hroom : room (r :: reads) = r.maxRespLen.toNat + room reads := by simp [room]
    rcases reading_step hfull h (hacc r List.mem_cons_self) with
      ⟨hend, hstep⟩ | ⟨hlt, s1, hstep, h1⟩
    · obtain ⟨bs, s', hrun, hbytes, h'⟩ := ih m s h hrest
      have hmin : min d.length (m + room (r :: reads)) = min d.length (m + room reads) := by omega
      have hnone : d.drop m = [] := by rw [hend, List.drop_length]
      refine ⟨_, s', runs_cons_eq_some.mpr ⟨_, s, bs, hstep, hrun, rfl⟩, ?_, by rwa [hmin]⟩
      rw [hnone, List.take_nil] at hbytes ⊢
      simpa [copiedBytes] using hbytes
    · obtain ⟨bs, s', hrun, hbytes, h'⟩ := ih _ s1 h1 hrest
      set k := min r.maxRespLen.toNat (d.length - m) with hk
      refine ⟨_, s', runs_cons_eq_some.mpr ⟨_, s1, bs, hstep, hrun, rfl⟩, ?_, ?_⟩
      · have hcopied : copiedBytes ({ code := .ok, copied := some ((d.drop m).take k) } :: bs) =
            (d.drop m).take k ++ copiedBytes bs := by
          simp [copiedBytes]
        rw [hcopied, hbytes, hroom, ← List.drop_drop]
        by_cases hall : r.maxRespLen.toNat ≤ d.length - m
        · rw [hk, min_eq_left hall, List.take_add]
        · -- the request has room for all that is left
          have hk' : k = d.length - m := by omega
          have hshort : (d.drop m).length ≤ k := by rw [List.length_drop, hk']
          have hlong : (d.drop m).length ≤ r.maxRespLen.toNat + room reads := by
            rw [List.length_drop]
            omega
          rw [List.take_of_length_le hshort, List.drop_of_length_le hshort, List.take_nil,
            List.append_nil, List.take_of_length_le hlong]
      · have hmin : min d.length (m + room (r :: reads)) = min d.length (m + k + room reads) := by
          omega
        rwa [hmin]

/-- **A request to read a file that is there** is accepted, from idle. -/
theorem step_requestRead (hlaw : P.FileLawful view) (hfull : P.FilesComplete view)
    (hcfg : cfg.fileTransfer = true) (hidle : BothIdle s) {d : List UInt8}
    (hfits : d.length < 2 ^ cfg.wordBits) (hfile : (view s.world).contents path = some d)
    {args : RequestFileTransferArgs cfg.wordBits} (hmode : args.modeOfOperation = .rdFile)
    (hpath : filePath? args = some path) :
    ∃ a s', step cfg P s (.requestFileTransfer args) = some (a, s') ∧ a.code = .ok ∧
      Reading view path d 0 s' := by
  set t := P.fsFileTInit s.world
  have ht : (view t).contents path = some d := by rw [hlaw.init, hfile]
  have hopen := hfull.open_existing path t d ht
  have hview := hlaw.open_read path t hopen
  set t1 := (P.fsOpen path .read t).2
  have ht1 : (view t1).At path d 0 := by
    rw [hview]
    exact Files.at_openRead ht
  have hstat := hfull.stat_existing path t1 d ht1.contents
  obtain ⟨hisFile, hsize⟩ := hlaw.stat_size path t1 d hstat ht1.contents
  have hstep : step cfg P s (.requestFileTransfer args) =
      some (udsFileTransferBeginRead cfg P path args s) := by
    rw [step, udsActionUploadDownload_of_start rfl (transferExit_of_bothIdle hidle),
      if_neg fun hc => hc.2 rfl, start, if_pos hcfg, udsFileTransferRequest_eq, hpath, hmode]
  have hbegin : udsFileTransferBeginRead cfg P path args s =
      ({ code := .ok
         maxNumberOfBlockLength := some (udsFileTransferBlockLength cfg args.maxNumberOfBlockLength)
        },
        { s with
          world := (P.fsStat path t1).2
          file := ⟨.read, true, (P.fsStat path t1).1.2.size, 0,
            udsFileTransferBlockLength cfg args.maxNumberOfBlockLength⟩ }) := by
    simp only [udsFileTransferBeginRead]
    rw [if_neg (not_lt.mpr hopen), if_neg (not_lt.mpr hstat), if_neg (by simp [hisFile, t1, t])]
  rw [hbegin] at hstep
  refine ⟨_, _, hstep, rfl, hcfg, rfl, hsize, rfl, Nat.zero_le _, hfits, ?_⟩
  show (view (P.fsStat path t1).2).At path d 0
  rw [hlaw.stat_keeps]
  exact ht1

/-! ## There and back -/

/-- **The file comes back**: the blocks are all accepted and the exit is
positive; a request to read the path is accepted, the blocks it hands over
are the bytes in their order, and past the end there is none. -/
def ReadsBack (cfg : Config) (P : Platform cfg.wordBits σ) (path d : List UInt8)
    (blocks : List TransferDataArgs) (s : System cfg.wordBits σ) : Prop :=
  ∃ as s2 s3, runs (step cfg P) s (blocks.map .transferData) = some (as, s2) ∧
    (∀ a ∈ as, a.code = .ok) ∧
    step cfg P s2 .requestTransferExit = some ({ code := .ok }, s3) ∧
    ∀ args, args.modeOfOperation = .rdFile → filePath? args = some path →
      ∃ b s4, step cfg P s3 (.requestFileTransfer args) = some (b, s4) ∧ b.code = .ok ∧
        ∀ reads, (∀ r ∈ reads, Accepting r) →
          ∃ bs s5, runs (step cfg P) s4 (reads.map .transferData) = some (bs, s5) ∧
            copiedBytes bs = d.take (room reads) ∧
            (d.length ≤ room reads → ∀ r, Accepting r →
              step cfg P s5 (.transferData r) = some ({ code := .requestSequenceError }, s5))

/-- **Nothing over the announced size**: wherever the writing has come to,
a block that would exceed it is refused and changes nothing. -/
def RefusesExcess (cfg : Config) (P : Platform cfg.wordBits σ) (d : List UInt8)
    (blocks : List TransferDataArgs) (s : System cfg.wordBits σ) : Prop :=
  ∀ pre post, blocks = pre ++ post →
    ∀ as s2, runs (step cfg P) s (pre.map .transferData) = some (as, s2) →
      ∀ b : TransferDataArgs, d.length < (pre.map (·.data)).flatten.length + b.data.length →
        ∃ a, step cfg P s2 (.transferData b) = some (a, s2) ∧ a.code ≠ .ok

section RoundTrip

variable {d : List UInt8} {blocks : List TransferDataArgs}

/-- A file written under the size of its bytes comes back. -/
theorem readsBack (hlaw : P.FileLawful view) (hfull : P.FilesComplete view)
    (h : Writing view path n [] 0 s) (hn : 0 < n) (hsize : n.toNat = d.length)
    (hne : ∀ b ∈ blocks, b.data ≠ []) (hchunks : (blocks.map (·.data)).flatten = d) :
    ReadsBack cfg P path d blocks s := by
  have hfits : d.length < 2 ^ cfg.wordBits := hsize ▸ n.isLt
  obtain ⟨as, s2, hrun, hcodes, hw⟩ := runs_writing_all hlaw hfull hn blocks [] 0 s h hne
    (by rw [hchunks, hsize, Nat.zero_add])
  rw [hchunks, List.nil_append, Nat.zero_add] at hw
  obtain ⟨err, s3, hexit, hidle, hcontents, herr⟩ := writing_exit hlaw hn hw
  have hok : err = .ok := herr.mpr (by rw [← hsize, BitVec.ofNat_toNat, BitVec.setWidth_eq])
  subst hok
  refine ⟨as, s2, s3, hrun, hcodes, hexit, fun args hmode hpath => ?_⟩
  obtain ⟨b, s4, hstart, hcode, hr⟩ :=
    step_requestRead hlaw hfull h.enabled hidle hfits hcontents hmode hpath
  refine ⟨b, s4, hstart, hcode, fun reads hacc => ?_⟩
  obtain ⟨bs, s5, hreads, hbytes, hr5⟩ := runs_reading hfull reads 0 s4 hr hacc
  rw [List.drop_zero] at hbytes
  refine ⟨bs, s5, hreads, hbytes, fun hall r hacc' => ?_⟩
  rw [Nat.zero_add, min_eq_left hall] at hr5
  rcases reading_step hfull hr5 hacc' with ⟨-, hstep⟩ | ⟨hlt, -⟩
  · exact hstep
  · exact absurd hlt (lt_irrefl _)

/-- Where the writing has come to after some of the blocks. -/
theorem writing_of_runs (hlaw : P.FileLawful view) (hfull : P.FilesComplete view)
    (h : Writing view path n [] 0 s) (hn : 0 < n) {pre : List TransferDataArgs}
    (hne : ∀ b ∈ pre, b.data ≠ []) (hfits : (pre.map (·.data)).flatten.length ≤ n.toNat)
    {as : List Answer} (hrun : runs (step cfg P) s (pre.map .transferData) = some (as, s')) :
    Writing view path n (pre.map (·.data)).flatten (pre.map (·.data)).flatten.length s' := by
  obtain ⟨as', s2, hrun', -, hw⟩ := runs_writing_all hlaw hfull hn pre [] 0 s h hne
    (by rwa [Nat.zero_add])
  rw [hrun, Option.some.injEq, Prod.mk.injEq] at hrun'
  rw [← hrun'.2, List.nil_append, Nat.zero_add] at hw
  exact hw

/-- With room for a block over the announced size in the counter, such a
block is refused. -/
theorem refusesExcess (hlaw : P.FileLawful view) (hfull : P.FilesComplete view)
    (h : Writing view path n [] 0 s) (hn : 0 < n) (hsize : n.toNat = d.length)
    (hne : ∀ b ∈ blocks, b.data ≠ []) (hchunks : (blocks.map (·.data)).flatten = d)
    (hroom : d.length + (2 ^ 16 - 1) < 2 ^ cfg.wordBits) : RefusesExcess cfg P d blocks s := by
  rintro pre post rfl as s2 hrun b hover
  have hpre : (pre.map (·.data)).flatten.length ≤ d.length := by
    rw [← hchunks, List.map_append, List.flatten_append, List.length_append]
    omega
  have hw := writing_of_runs hlaw hfull h hn (fun c hc => hne c (List.mem_append_left _ hc))
    (by rw [hsize]; exact hpre) hrun
  have hlen := b.len_lt
  have hnot : ¬ Admitted s2 b := by
    intro hadm
    rcases (admitted_iff hw hn (by omega) hadm.1).mp hadm with hle | hwrap
    · omega
    · omega
  obtain ⟨a, s3, hstep, hcases⟩ := writing_step hlaw hw b
  rcases hcases with ⟨-, hcode, rfl⟩ | ⟨hadm, -⟩ | ⟨hadm, -⟩ | ⟨hadm, -⟩
  · exact ⟨a, hstep, hcode⟩
  · exact absurd hadm hnot
  · exact absurd hadm hnot
  · exact absurd hadm hnot

/-- The largest block there is. -/
def largestBlock : TransferDataArgs :=
  ⟨List.replicate (2 ^ 16 - 1) 0, by rw [List.length_replicate]; decide, 0, none⟩

theorem length_largestBlock : largestBlock.data.length = 2 ^ 16 - 1 := List.length_replicate

/-- Without it, the largest block is written past the announced size. -/
theorem not_refusesExcess (hlaw : P.FileLawful view) (hfull : P.FilesComplete view)
    (h : Writing view path n [] 0 s) (hn : 0 < n) (hsize : n.toNat = d.length)
    (hne : ∀ b ∈ blocks, b.data ≠ []) (hchunks : (blocks.map (·.data)).flatten = d)
    (hroom : 2 ^ cfg.wordBits ≤ d.length + (2 ^ 16 - 1)) : ¬ RefusesExcess cfg P d blocks s := by
  intro hrefuses
  obtain ⟨as, s2, hrun, -, -⟩ := runs_writing_all hlaw hfull hn blocks [] 0 s h hne
    (by rw [hchunks, hsize, Nat.zero_add])
  have hw := writing_of_runs hlaw hfull h hn hne (by rw [hchunks, hsize]) hrun
  rw [hchunks] at hw
  have hlen := length_largestBlock
  have hne' : largestBlock.data ≠ [] := by
    intro hnil
    rw [hnil] at hlen
    cases hlen
  have hadm : Admitted s2 largestBlock :=
    (admitted_iff hw hn hsize.ge hne').mpr (.inr (by omega))
  obtain ⟨a, s3, hstep, hcode, -⟩ := writing_step_all hlaw hfull hw hadm
  obtain ⟨a', hstep', hcode'⟩ := hrefuses blocks [] (List.append_nil _).symm as s2 hrun largestBlock
    (by rw [hchunks]; omega)
  rw [hstep, Option.some.injEq, Prod.mk.injEq] at hstep'
  exact hcode' (hstep'.1 ▸ hcode)

/-- **A file written and read back.** From any reachable state, an accepted
ADDFILE for as many bytes as are then sent, in any blocks: the file comes
back whatever the blocks it is asked for in, and no block over the
announced size is taken, if and only if the counter has room for the
announced size and one block of the largest length. -/
theorem roundTrip_iff (hlaw : P.FileLawful view) (hfull : P.FilesComplete view)
    {s0 s1 : System cfg.wordBits σ} {a1 : Answer}
    (args : RequestFileTransferArgs cfg.wordBits) (hreach : (machine cfg P).Reachable s0)
    (hmode : args.modeOfOperation = .addFile) (hpath : filePath? args = some path) (hd : d ≠ [])
    (hsize : args.fileSizeCompressed.toNat = d.length)
    (hstart : step cfg P s0 (.requestFileTransfer args) = some (a1, s1)) (hok : a1.code = .ok)
    (hne : ∀ b ∈ blocks, b.data ≠ []) (hchunks : (blocks.map (·.data)).flatten = d) :
    (ReadsBack cfg P path d blocks s1 ∧ RefusesExcess cfg P d blocks s1) ↔
      d.length + (2 ^ 16 - 1) < 2 ^ cfg.wordBits := by
  obtain ⟨path', hpath', hw⟩ :=
    step_requestWrite hlaw (exclusive_of_reachable hreach) (.inl hmode) hstart hok
  rw [hpath, Option.some.injEq] at hpath'
  subst hpath'
  have hn : 0 < args.fileSizeCompressed := by
    rw [BitVec.lt_def, hsize]
    exact List.length_pos_iff.mpr hd
  constructor
  · rintro ⟨-, hrefuses⟩
    by_contra hroom
    exact not_refusesExcess hlaw hfull hw hn hsize hne hchunks (not_lt.mp hroom) hrefuses
  · intro hroom
    exact ⟨readsBack hlaw hfull hw hn hsize hne hchunks,
      refusesExcess hlaw hfull hw hn hsize hne hchunks hroom⟩

end RoundTrip

/-- Three bytes in two blocks, on a machine of 32 bits. -/
theorem roundTrip_iff_three :
    ∃ a1 s1, step fileConfig (fileSimulator allBytes) (System.initial noFiles) (addFile 0x61 3) =
        some (a1, s1) ∧
      ReadsBack fileConfig (fileSimulator allBytes) [0x61] [1, 2, 3]
        [block [1, 2] (by decide), block [3] (by decide)] s1 ∧
      RefusesExcess fileConfig (fileSimulator allBytes) [1, 2, 3]
        [block [1, 2] (by decide), block [3] (by decide)] s1 := by
  refine ⟨_, _, rfl, ?_⟩
  have hinit : (machine fileConfig (fileSimulator allBytes)).Reachable (System.initial noFiles) :=
    .init ⟨noFiles, rfl⟩
  refine (roundTrip_iff (fileSimulator_fileLawful allBytes) fileSimulator_filesComplete
    ⟨.addFile, some [0x61], 3, 0⟩ hinit rfl rfl (by decide) rfl rfl rfl ?_ rfl).mpr (by decide)
  intro b hb
  rcases List.mem_cons.mp hb with rfl | hb
  · decide
  · obtain rfl := List.mem_singleton.mp hb
    decide

/-- A file of `2 ^ 32 - 1` bytes on a machine of 32 bits, sent in blocks of
the largest length: one more such block is taken. -/
theorem not_roundTrip_largest :
    ¬ ∀ (n : BitVec 32) (d : List UInt8) (blocks : List TransferDataArgs) (a1 : Answer)
      (s1 : System 32 (Files (List UInt8) UInt8)), d ≠ [] → n.toNat = d.length →
      step fileConfig (fileSimulator allBytes) (System.initial noFiles) (addFile 0x61 n) =
        some (a1, s1) → a1.code = .ok → (∀ b ∈ blocks, b.data ≠ []) →
      (blocks.map (·.data)).flatten = d →
      ReadsBack fileConfig (fileSimulator allBytes) [0x61] d blocks s1 ∧
        RefusesExcess fileConfig (fileSimulator allBytes) d blocks s1 := by
  intro hall
  have hlen := length_largestBlock
  have hne : ∀ b ∈ List.replicate (2 ^ 16 + 1) largestBlock, b.data ≠ [] := by
    intro b hb hnil
    rw [List.eq_of_mem_replicate hb] at hnil
    rw [hnil] at hlen
    cases hlen
  have hchunks : ((List.replicate (2 ^ 16 + 1) largestBlock).map (·.data)).flatten =
      List.replicate (2 ^ 32 - 1) 0 := by
    rw [List.map_replicate]
    exact List.flatten_replicate_replicate
  have hsize : (0xFFFFFFFF : BitVec 32).toNat =
      (List.replicate (2 ^ 32 - 1) (0 : UInt8)).length := by
    rw [List.length_replicate]
    decide
  have hd : List.replicate (2 ^ 32 - 1) (0 : UInt8) ≠ [] := by
    intro hnil
    rw [hnil] at hsize
    cases hsize
  have hexc : Exclusive fileConfig (System.initial (w := 32) noFiles) := exclusive_initial noFiles
  obtain ⟨path, hpath, hw⟩ := @step_requestWrite fileConfig _ (fileSimulator allBytes) id
    (System.initial noFiles) _ (fileSimulator_fileLawful allBytes) hexc
    ⟨.addFile, some [0x61], 0xFFFFFFFF, 0⟩ (.inl rfl) _ rfl rfl
  refine not_refusesExcess (fileSimulator_fileLawful allBytes) fileSimulator_filesComplete hw
    (by decide) hsize hne hchunks ?_ (hall 0xFFFFFFFF _ _ _ _ hd hsize rfl rfl hne hchunks).2
  rw [List.length_replicate]
  decide

end Transfer

end Uds

end Ardep
