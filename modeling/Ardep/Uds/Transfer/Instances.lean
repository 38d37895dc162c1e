import Ardep.Uds.Transfer.Places
/-!
# Transfer — several instances, one transfer state

The handler is registered once, for all UDS instances, and its two records
are file-scope globals: nothing in it looks at `context->instance`. A
request of one instance hits whatever transfer another has running.

`undisturbed_of_takingTurns` is what is left: as long as an instance finds
both records idle when another was served last, and the instances use
different flash and different files, each is answered as if it were alone.
`Serves` is the relation between the two runs, and `Serves.alike_step` its
step.
-/

namespace Ardep

namespace Uds

namespace Transfer

/-- The places a request names: the write blocks of a download, the range
of an upload, the file of a file transfer. -/
def Event.places (cfg : Config) {σ : Type} (P : Platform cfg.wordBits σ) :
    Event cfg.wordBits → Set Place
  | .requestDownload args =>
    writeBlocks P.flashWriteBlockSize (normalizeAddress cfg args.addr).toNat args.size.toNat
  | .requestUpload args => cells (normalizeAddress cfg args.addr).toNat args.size.toNat
  | .requestFileTransfer args => {l | ∃ path, filePath? args = some path ∧ l = .file path}
  | .transferData _ => ∅
  | .requestTransferExit => ∅

/-- **The instances use different places.** -/
def Apart {ι : Type} (cfg : Config) {σ : Type} (P : Platform cfg.wordBits σ)
    (es : List (ι × Event cfg.wordBits)) : Prop :=
  ∀ x ∈ es, ∀ y ∈ es, x.1 ≠ y.1 → ∀ l ∈ x.2.places cfg P, l ∉ y.2.places cfg P

variable {cfg : Config} {σ : Type} {P : Platform cfg.wordBits σ}
variable {s t : System cfg.wordBits σ}
variable {contents : σ → ℕ → UInt8} {view : FileView σ} {size : ℕ} {X : Set Place}

/-! ## Serving one instance -/

/-- **Two states serve an instance alike.** Its places hold the same, and a
record that is not idle is the same in both, with its transfer in these
places. What an idle record was left with is not compared. -/
structure Serves (P : Platform cfg.wordBits σ) (contents : σ → ℕ → UInt8) (view : FileView σ)
    (X : Set Place) (s t : System cfg.wordBits σ) : Prop where
  agree : AgreeOn (look contents view) X s.world t.world
  exclusive : Exclusive cfg s
  exclusive' : Exclusive cfg t
  updown : (∃ block, (s.updown.state = .downloadInProgress → block = P.flashWriteBlockSize) ∧
      t.updown = { s.updown with writeBlockSize := block }) ∨
    s.updown.state = .idle ∧ t.updown.state = .idle
  file : s.file = t.file ∨ s.file.mode = .idle ∧ t.file.mode = .idle
  flash : FlashWithin P X s.updown
  opened : s.file.mode ≠ .idle → ∃ path pos, .file path ∈ X ∧
    OpenAt view path pos s.world ∧ OpenAt view path pos t.world

/-- **An event goes alike from two states**: with the same answer, to states
that serve the instance alike again, and without touching other places. -/
structure Alike (P : Platform cfg.wordBits σ) (contents : σ → ℕ → UInt8) (view : FileView σ)
    (X : Set Place) (s : System cfg.wordBits σ) (r r' : Answer × System cfg.wordBits σ) :
    Prop where
  answer : r.1 = r'.1
  serves : Serves P contents view X r.2 r'.2
  frame : AgreeOn (look contents view) Xᶜ r.2.world s.world

theorem flashWithin_of_idle {u : UploadDownloadState cfg.wordBits} (h : u.state = .idle) :
    FlashWithin P X u := by
  refine ⟨fun hne => absurd h hne, fun hd => ?_, fun hu => ?_⟩
  · rw [h] at hd
    cases hd
  · rw [h] at hu
    cases hu

/-- Idle states serve alike wherever they hold the same. -/
theorem serves_of_bothIdle (hs : BothIdle s) (ht : BothIdle t)
    (hagree : AgreeOn (look contents view) X s.world t.world) :
    Serves P contents view X s t where
  agree := hagree
  exclusive := hs.exclusive
  exclusive' := ht.exclusive
  updown := .inr ⟨hs.updown, ht.updown⟩
  file := .inr ⟨hs.file, ht.file⟩
  flash := flashWithin_of_idle hs.updown
  opened := fun hne => absurd hs.file hne

theorem Serves.state_eq (h : Serves P contents view X s t) : s.updown.state = t.updown.state := by
  rcases h.updown with ⟨block, -, heq⟩ | ⟨hs, ht⟩
  · rw [heq]
  · rw [hs, ht]

theorem Serves.mode_eq (h : Serves P contents view X s t) : s.file.mode = t.file.mode := by
  rcases h.file with heq | ⟨hs, ht⟩
  · rw [heq]
  · rw [hs, ht]

theorem Serves.bothIdle (h : Serves P contents view X s t) (hs : BothIdle s) : BothIdle t :=
  h.exclusive'.bothIdle (h.state_eq ▸ hs.updown) (h.mode_eq ▸ hs.file)

/-- A function that is a call of the flash transfer goes alike while one
runs. -/
theorem Serves.alike_of_flashCall (hs : Serves P contents view X s t)
    (hne : s.updown.state ≠ .idle) {h : System cfg.wordBits σ → Answer × System cfg.wordBits σ}
    (hcall : FlashCall P contents view X s.updown h) :
    Alike P contents view X s (h s) (h t) := by
  obtain ⟨call, hconfined, hforward, heq⟩ := hcall
  obtain ⟨block, hblock, hupdown⟩ := hs.updown.resolve_right fun hi => hne hi.1
  have hidle : s.file.mode = .idle := hs.exclusive.one.resolve_left hne
  have hsEq : h s = ((call s.world).1.1,
      ⟨{ s.updown with currentAddress := (call s.world).1.2 }, s.file, (call s.world).2⟩) :=
    heq s.updown.writeBlockSize (fun hd => (hs.flash.download hd).1) s.file s.world
  have htEq : h t = ((call t.world).1.1,
      ⟨{ s.updown with writeBlockSize := block, currentAddress := (call t.world).1.2 }, t.file,
        (call t.world).2⟩) := by
    have := heq block hblock t.file t.world
    rw [← hupdown] at this
    exact this
  obtain ⟨hresult, hagree⟩ := hconfined.same s.world t.world trivial trivial hs.agree
  rw [hsEq, htEq, ← hresult]
  refine ⟨rfl, ⟨hagree, ?_, ?_, .inl ⟨block, hblock, rfl⟩, hs.file, ?_,
    fun hm => absurd hidle hm⟩, hconfined.frame s.world trivial⟩
  · exact hs.exclusive.congr rfl rfl rfl
  · exact hs.exclusive'.congr hs.state_eq rfl rfl
  · exact ⟨fun _ => hforward s.world, hs.flash.download, hs.flash.upload⟩

/-- A block of a file transfer goes alike while one runs. -/
theorem Serves.alike_udsFileTransferContinue (hP : P.Confines contents view size)
    (hs : Serves P contents view X s t) (hne : s.file.mode ≠ .idle) (args : TransferDataArgs) :
    Alike P contents view X s (udsFileTransferContinue cfg P (some args) s)
      (udsFileTransferContinue cfg P (some args) t) := by
  obtain ⟨path, pos, hmem, hopenS, hopenT⟩ := hs.opened hne
  have hfile : s.file = t.file := hs.file.resolve_right fun hi => hne hi.1
  have hcall : FileCall contents view path pos s.file (udsFileTransferContinue cfg P (some args)) :=
    fileCall_udsFileTransferContinue hP args
  obtain ⟨call, hconfined, hopen, heq⟩ := hcall
  have hsEq : udsFileTransferContinue cfg P (some args) s =
      ((call s.world).1.1, ⟨s.updown, (call s.world).1.2, (call s.world).2⟩) :=
    heq s.updown s.world
  have htEq : udsFileTransferContinue cfg P (some args) t =
      ((call t.world).1.1, ⟨t.updown, (call t.world).1.2, (call t.world).2⟩) := by
    have := heq t.updown t.world
    rw [hfile] at this
    exact this
  have hwide := hconfined.mono (Set.singleton_subset_iff.mpr hmem)
  obtain ⟨hresult, hagree⟩ := hwide.same s.world t.world hopenS hopenT hs.agree
  obtain ⟨hanswer, hhandle⟩ := Prod.mk.inj hresult
  obtain ⟨pos', hpos'⟩ := hopen s.world hopenS
  obtain ⟨-, hmodeS, hfopenS⟩ := udsFileTransferContinue_frame (P := P) (s := s) (some args)
  obtain ⟨-, hmodeT, hfopenT⟩ := udsFileTransferContinue_frame (P := P) (s := t) (some args)
  rw [hsEq] at hmodeS hfopenS ⊢
  rw [htEq] at hmodeT hfopenT ⊢
  have hopened : OpenAt view path pos' (call t.world).2 := hhandle.symm.trans hpos'
  have hcode : (call s.world).1.1 = (call t.world).1.1 := by rw [hanswer]
  have hrecord : (call s.world).1.2 = (call t.world).1.2 := by rw [hanswer]
  refine ⟨hcode, ⟨hagree, ?_, ?_, hs.updown, .inl hrecord, hs.flash, fun _ => ?_⟩,
    hwide.frame s.world hopenS⟩
  · exact hs.exclusive.congr rfl hmodeS hfopenS
  · exact hs.exclusive'.congr rfl hmodeT hfopenT
  · exact ⟨path, pos', hmem, hpos', hopened⟩

/-- The exit's result goes by what runs. -/
theorem Serves.transferExit_fst (hs : Serves P contents view X s t) :
    (transferExit cfg P s).map (·.1) = (transferExit cfg P t).map (·.1) := by
  have hstate := hs.state_eq
  rcases hs.file with hfile | ⟨hidle, hidle'⟩
  · by_cases hup : t.updown.state = .idle <;> by_cases hm : t.file.mode = .idle <;>
      cases hcfg : cfg.fileTransfer <;>
      simp [transferExit, udsUploadDownloadReset, udsFileTransferExit, hstate, hfile, hup, hm, hcfg]
  · by_cases hup : t.updown.state = .idle <;> cases hcfg : cfg.fileTransfer <;>
      simp [transferExit, udsUploadDownloadReset, udsFileTransferExit, hstate, hidle, hidle', hup,
        hcfg]

/-- **Leaving whatever runs** gives the same result in both states, and
idle states whose places hold the same. -/
theorem Serves.exists_transferExit (hP : P.Confines contents view size)
    (hs : Serves P contents view X s t) :
    ∃ err s' t', transferExit cfg P s = some (err, s') ∧ transferExit cfg P t = some (err, t') ∧
      BothIdle s' ∧ BothIdle t' ∧ AgreeOn (look contents view) X s'.world t'.world ∧
      AgreeOn (look contents view) Xᶜ s'.world s.world := by
  obtain ⟨err, s', hexit, hidle, hworld, -⟩ := transferExit_spec (P := P) hs.exclusive
  obtain ⟨err', t', hexit', hidle', hworld', -⟩ := transferExit_spec (P := P) hs.exclusive'
  have hfst := hs.transferExit_fst
  rw [hexit, hexit'] at hfst
  obtain rfl : err = err' := Option.some.inj hfst
  refine ⟨err, s', t', hexit, hexit', hidle, hidle', ?_⟩
  rw [hworld, hworld']
  unfold closedWorld
  by_cases hmode : s.file.mode = .idle
  · have hclosed := (hs.exclusive.open_iff.not.mpr (not_not.mpr hmode))
    have hclosed' := (hs.exclusive'.open_iff.not.mpr (not_not.mpr (hs.mode_eq ▸ hmode)))
    rw [if_neg hclosed, if_neg hclosed']
    exact ⟨hs.agree, .refl⟩
  · obtain ⟨path, pos, hmem, hopen, hopen'⟩ := hs.opened hmode
    have hclose := (hP.fsClose path pos).mono (Set.singleton_subset_iff.mpr hmem)
    rw [if_pos (hs.exclusive.open_iff.mpr hmode),
      if_pos (hs.exclusive'.open_iff.mpr (hs.mode_eq ▸ hmode))]
    exact ⟨(hclose.same s.world t.world hopen hopen' hs.agree).2, hclose.frame s.world hopen⟩

/-! ## Starts -/

/-- An event that leads to idle states. -/
theorem alike_of_bothIdle {s' t' : System cfg.wordBits σ} (hs : BothIdle s') (ht : BothIdle t')
    (hagree : AgreeOn (look contents view) X s'.world t'.world)
    (hframe : AgreeOn (look contents view) Xᶜ s'.world s.world) {a a' : Answer} (ha : a = a') :
    Alike P contents view X s (a, s') (a', t') :=
  ⟨ha, serves_of_bothIdle hs ht hagree, hframe⟩

/-- Both states open the file, or neither does. -/
theorem exists_fsOpen (hagree : AgreeOn (look contents view) X s.world t.world)
    (hP : P.Confines contents view size) {path : List UInt8} (hpath : .file path ∈ X)
    (flags : OpenFlags) :
    ∃ rc world world', P.fsOpen path flags (P.fsFileTInit s.world) = (rc, world) ∧
      P.fsOpen path flags (P.fsFileTInit t.world) = (rc, world') ∧
      AgreeOn (look contents view) X world world' ∧
      AgreeOn (look contents view) Xᶜ world s.world ∧
      (0 ≤ rc → OpenAt view path 0 world ∧ OpenAt view path 0 world') := by
  have hcall := (hP.fsOpen path flags).mono (Set.singleton_subset_iff.mpr hpath)
  obtain ⟨rc, world, world', hfst, hsnd, hafter, hframe⟩ :=
    hcall.exists_calls trivial trivial hagree
  have hopen := hP.fsOpen_handle path flags s.world
  have hopen' := hP.fsOpen_handle path flags t.world
  rw [hfst] at hopen
  rw [hsnd] at hopen'
  exact ⟨rc, world, world', hfst, hsnd, hafter, hframe, fun hrc => ⟨hopen hrc, hopen' hrc⟩⟩

section Start

variable (hs : BothIdle s) (ht : BothIdle t)
include hs ht

/-- Nothing starts, after a call of the file system. -/
theorem alike_of_world {world world' : σ} (hagree : AgreeOn (look contents view) X world world')
    (hframe : AgreeOn (look contents view) Xᶜ world s.world) (a : Answer) :
    Alike P contents view X s (a, { s with world := world }) (a, { t with world := world' }) := by
  refine alike_of_bothIdle ?_ ?_ hagree hframe rfl
  · exact ⟨hs.updown, hs.file, hs.closed⟩
  · exact ⟨ht.updown, ht.file, ht.closed⟩

/-- A flash transfer in the places starts. -/
theorem alike_of_flash {u u' : UploadDownloadState cfg.wordBits} (block : ℕ)
    (hagree : AgreeOn (look contents view) X s.world t.world) (hu : FlashWithin P X u)
    (hu' : u' = { u with writeBlockSize := block })
    (hblock : u.state = .downloadInProgress → block = P.flashWriteBlockSize) (a : Answer) :
    Alike P contents view X s (a, { s with updown := u }) (a, { t with updown := u' }) :=
  ⟨rfl, ⟨hagree, exclusive_of_file_idle hs.file hs.closed,
    exclusive_of_file_idle ht.file ht.closed, .inl ⟨block, hblock, hu'⟩,
    .inr ⟨hs.file, ht.file⟩, hu, fun hm => absurd hs.file hm⟩, .refl⟩

/-- A transfer of a file among the places starts. -/
theorem alike_of_file {file : FileTransferState cfg.wordBits} {path : List UInt8} {pos : ℕ}
    {world world' : σ} (hcfg : cfg.fileTransfer = true) (hmode : file.mode ≠ .idle)
    (hopen : file.fileOpen = true) (hpath : .file path ∈ X) (hworld : OpenAt view path pos world)
    (hworld' : OpenAt view path pos world')
    (hagree : AgreeOn (look contents view) X world world')
    (hframe : AgreeOn (look contents view) Xᶜ world s.world) (a : Answer) :
    Alike P contents view X s (a, { s with file := file, world := world })
      (a, { t with file := file, world := world' }) := by
  have hexclusive : ∀ (r : System cfg.wordBits σ) (w : σ), r.updown.state = .idle →
      Exclusive cfg { r with file := file, world := w } := by
    intro r w hr
    refine ⟨.inl hr, by simp [hopen, hmode], fun hno => ?_⟩
    rw [hcfg] at hno
    cases hno
  exact ⟨rfl, ⟨hagree, hexclusive s world hs.updown, hexclusive t world' ht.updown,
    .inr ⟨hs.updown, ht.updown⟩, .inl rfl, flashWithin_of_idle hs.updown,
    fun _ => ⟨path, pos, hpath, hworld, hworld'⟩⟩, hframe⟩

variable (hagree : AgreeOn (look contents view) X s.world t.world)
include hagree

/-- A request is refused as it stands. -/
theorem alike_of_refused (a : Answer) : Alike P contents view X s (a, s) (a, t) :=
  alike_of_bothIdle hs ht hagree .refl rfl

theorem alike_startDownload (hP : P.Confines contents view size)
    (args : RequestDownloadArgs cfg.wordBits)
    (hX : Event.places cfg P (.requestDownload args) ⊆ X) :
    Alike P contents view X s (startDownload cfg P args s) (startDownload cfg P args t) := by
  have hrefused : ∀ a, Alike P contents view X s (a, s) (a, t) := alike_of_refused hs ht hagree
  have hready := hP.flashReady t.world s.world
  simp only [startDownload, hready]
  split_ifs
  · exact hrefused _
  · exact hrefused _
  · exact hrefused _
  · exact hrefused _
  · refine alike_of_bothIdle ?_ ?_ ?_ ?_ rfl
    · exact ⟨hs.updown, hs.file, hs.closed⟩
    · exact ⟨ht.updown, ht.file, ht.closed⟩
    · exact hagree
    · exact .refl
  · refine alike_of_flash hs ht P.flashWriteBlockSize hagree ?_ rfl (fun _ => rfl) _
    refine ⟨fun _ => le_rfl, fun _ => ⟨rfl, hX⟩, ?_⟩
    intro hu
    cases hu

theorem alike_startUpload (hP : P.Confines contents view size)
    (args : RequestUploadArgs cfg.wordBits) (hX : Event.places cfg P (.requestUpload args) ⊆ X) :
    Alike P contents view X s (startUpload cfg P args s) (startUpload cfg P args t) := by
  have hrefused : ∀ a, Alike P contents view X s (a, s) (a, t) := alike_of_refused hs ht hagree
  have hready := hP.flashReady t.world s.world
  simp only [startUpload, hready, hs.updown, ht.updown, ne_eq, not_true_eq_false, if_false]
  split_ifs
  · exact hrefused _
  · exact hrefused _
  · exact hrefused _
  · refine alike_of_flash hs ht t.updown.writeBlockSize hagree ?_ rfl ?_ _
    · refine ⟨fun _ => le_rfl, ?_, fun _ => hX⟩
      intro hd
      cases hd
    · intro hd
      cases hd

theorem alike_udsFileTransferBeginWrite (hP : P.Confines contents view size)
    (hcfg : cfg.fileTransfer = true) {path : List UInt8} (hpath : .file path ∈ X)
    (expectedSize : BitVec cfg.wordBits) (args : RequestFileTransferArgs cfg.wordBits) :
    Alike P contents view X s (udsFileTransferBeginWrite cfg P path expectedSize args s)
      (udsFileTransferBeginWrite cfg P path expectedSize args t) := by
  obtain ⟨rc, world, world', hopS, hopT, hafter, hframe, hopen⟩ :=
    exists_fsOpen hagree hP hpath .createTruncRdwr
  simp only [udsFileTransferBeginWrite, hopS, hopT]
  split_ifs with hneg
  · exact alike_of_world hs ht hafter hframe _
  · obtain ⟨hhandle, hhandle'⟩ := hopen (by omega)
    refine alike_of_file hs ht hcfg ?_ rfl hpath hhandle hhandle' hafter hframe _
    intro hmode
    cases hmode

theorem alike_udsFileTransferBeginRead (hP : P.Confines contents view size)
    (hcfg : cfg.fileTransfer = true) {path : List UInt8} (hpath : .file path ∈ X)
    (args : RequestFileTransferArgs cfg.wordBits) :
    Alike P contents view X s (udsFileTransferBeginRead cfg P path args s)
      (udsFileTransferBeginRead cfg P path args t) := by
  obtain ⟨rc, world, world', hopS, hopT, hafter, hframe, hopen⟩ :=
    exists_fsOpen hagree hP hpath .read
  by_cases hneg : rc < 0
  · simp only [udsFileTransferBeginRead, hopS, hopT, if_pos hneg]
    exact alike_of_world hs ht hafter hframe _
  -- then the status of the file it has opened
  have hstat := (hP.fsStat path).mono (Set.singleton_subset_iff.mpr hpath)
  obtain ⟨⟨rc', entry⟩, after, after', hstS, hstT, hafter', hframe'⟩ :=
    hstat.exists_calls trivial trivial hafter
  obtain ⟨hopenS, hopenT⟩ := hopen (by omega)
  have hhandle := (hP.fsStat_handle path world).trans hopenS
  have hhandle' := (hP.fsStat_handle path world').trans hopenT
  rw [hstS] at hhandle
  rw [hstT] at hhandle'
  simp only [udsFileTransferBeginRead, hopS, hopT, if_neg hneg, hstS, hstT, udsFileTransferReset,
    hs.closed, ht.closed, Bool.false_eq_true, if_false]
  split_ifs
  · refine alike_of_bothIdle ?_ ?_ hafter' (hframe'.trans hframe) rfl
    · exact ⟨hs.updown, rfl, rfl⟩
    · exact ⟨ht.updown, rfl, rfl⟩
  · refine alike_of_bothIdle ?_ ?_ hafter' (hframe'.trans hframe) rfl
    · exact ⟨hs.updown, rfl, rfl⟩
    · exact ⟨ht.updown, rfl, rfl⟩
  · refine alike_of_file hs ht hcfg ?_ rfl hpath hhandle hhandle' hafter'
      (hframe'.trans hframe) _
    intro hmode
    cases hmode

theorem alike_udsFileTransferDelete (hP : P.Confines contents view size) {path : List UInt8}
    (hpath : .file path ∈ X) :
    Alike P contents view X s
      ({ code := (udsFileTransferDelete cfg P path s).1, maxNumberOfBlockLength := some 0 },
        (udsFileTransferDelete cfg P path s).2)
      ({ code := (udsFileTransferDelete cfg P path t).1, maxNumberOfBlockLength := some 0 },
        (udsFileTransferDelete cfg P path t).2) := by
  have hcall := (hP.fsUnlink path).mono (Set.singleton_subset_iff.mpr hpath)
  obtain ⟨rc, world, world', hrmS, hrmT, hafter, hframe⟩ :=
    hcall.exists_calls trivial trivial hagree
  simp only [udsFileTransferDelete, hrmS, hrmT]
  exact alike_of_world hs ht hafter hframe _

/-- **A start goes alike from idle states.** -/
theorem alike_start (hP : P.Confines contents view size) (e : Event cfg.wordBits)
    (hX : e.places cfg P ⊆ X) :
    Alike P contents view X s (start cfg P e s) (start cfg P e t) := by
  have hrefused : ∀ a, Alike P contents view X s (a, s) (a, t) := alike_of_refused hs ht hagree
  cases e with
  | requestDownload args => exact alike_startDownload hs ht hagree hP args hX
  | requestUpload args => exact alike_startUpload hs ht hagree hP args hX
  | requestFileTransfer args =>
    simp only [start]
    split_ifs with hcfg
    · rw [udsFileTransferRequest_eq, udsFileTransferRequest_eq]
      cases hpath : filePath? args with
      | none => exact hrefused _
      | some path =>
        have hmem : .file path ∈ X := hX ⟨path, hpath, rfl⟩
        cases args.modeOfOperation with
        | addFile | replFile => exact alike_udsFileTransferBeginWrite hs ht hagree hP hcfg hmem _ _
        | delFile => exact alike_udsFileTransferDelete hs ht hagree hP hmem
        | rdFile => exact alike_udsFileTransferBeginRead hs ht hagree hP hcfg hmem _
        | other code => exact hrefused _
    · exact hrefused _
  | transferData | requestTransferExit => exact hrefused _

end Start

/-! ## The whole handler -/

/-- While a file transfer runs there is a file system. -/
theorem fileTransfer_of_mode (h : Exclusive cfg s) (hmode : s.file.mode ≠ .idle) :
    cfg.fileTransfer = true := by
  by_contra hno
  exact hmode (h.disabled (by simpa using hno))

/-- **Every event goes alike** from states that serve its instance alike. -/
theorem Serves.alike_step (hP : P.Confines contents view size) (hs : Serves P contents view X s t)
    (e : Event cfg.wordBits) (hX : e.places cfg P ⊆ X) :
    ∃ r r', step cfg P s e = some r ∧ step cfg P t e = some r' ∧
      Alike P contents view X s r r' := by
  obtain ⟨err, s', t', hexit, hexit', hidle, hidle', hagree, hframe⟩ := hs.exists_transferExit hP
  by_cases hstart : e.isStart = true
  · refine ⟨_, _, udsActionUploadDownload_of_start hstart hexit,
      udsActionUploadDownload_of_start hstart hexit', ?_⟩
    by_cases hrefused : err ≠ .ok ∧ err ≠ .requestSequenceError
    · rw [if_pos hrefused, if_pos hrefused]
      exact alike_of_bothIdle hidle hidle' hagree hframe rfl
    · rw [if_neg hrefused, if_neg hrefused]
      have hgo := alike_start hidle hidle' hagree hP e hX
      exact ⟨hgo.answer, hgo.serves, hgo.frame.trans hframe⟩
  · cases e with
    | requestDownload | requestUpload | requestFileTransfer => exact absurd rfl hstart
    | requestTransferExit =>
      exact ⟨_, _, udsActionUploadDownload_of_exit hexit, udsActionUploadDownload_of_exit hexit',
        alike_of_bothIdle hidle hidle' hagree hframe rfl⟩
    | transferData args =>
      by_cases hmode : s.file.mode = .idle
      · have hmode' : t.file.mode = .idle := hs.mode_eq ▸ hmode
        cases hstate : s.updown.state with
        | idle =>
          have hboth := hs.exclusive.bothIdle hstate hmode
          refine ⟨_, _, udsActionUploadDownload_of_bothIdle hboth rfl,
            udsActionUploadDownload_of_bothIdle (hs.bothIdle hboth) rfl, rfl, hs, .refl⟩
        | downloadInProgress =>
          have hstate' : t.updown.state = .downloadInProgress := hs.state_eq ▸ hstate
          refine ⟨_, _, step_transferData_download hstate hmode args,
            step_transferData_download hstate' hmode' args, ?_⟩
          refine hs.alike_of_flashCall (by rw [hstate]; decide) ?_
          exact flashCall_continueDownload hP hs.flash hstate
        | uploadInProgress =>
          have hstate' : t.updown.state = .uploadInProgress := hs.state_eq ▸ hstate
          refine ⟨_, _, step_transferData_upload hstate hmode args,
            step_transferData_upload hstate' hmode' args, ?_⟩
          refine hs.alike_of_flashCall (by rw [hstate]; decide) ?_
          exact flashCall_continueUpload hP hs.flash hstate
      · have hcfg := fileTransfer_of_mode hs.exclusive hmode
        refine ⟨_, _, udsActionUploadDownload_of_file hcfg hmode args,
          udsActionUploadDownload_of_file hcfg (hs.mode_eq ▸ hmode) args, ?_⟩
        exact hs.alike_udsFileTransferContinue hP hmode args

/-! ## Several instances -/

section Instances

variable {ι : Type} {es : List (ι × Event cfg.wordBits)}

/-- **The handler in the context of an instance**, of which it looks at
nothing. The second part of the state only says whom it served last. -/
abbrev instances (cfg : Config) {σ : Type} (P : Platform cfg.wordBits σ) :
    System cfg.wordBits σ × ι → ι × Event cfg.wordBits →
      Option ((ι × Answer) × (System cfg.wordBits σ × ι)) :=
  served (step cfg P)

/-- The places an instance uses in a run. -/
def share (cfg : Config) {σ : Type} (P : Platform cfg.wordBits σ)
    (es : List (ι × Event cfg.wordBits)) (i : ι) : Set Place :=
  {l | ∃ x ∈ es, x.1 = i ∧ l ∈ x.2.places cfg P}

theorem Apart.disjoint (h : Apart cfg P es) {i j : ι} (hij : j ≠ i) :
    share cfg P es j ⊆ (share cfg P es i)ᶜ := by
  rintro l ⟨x, hx, rfl, hlx⟩ ⟨y, hy, rfl, hly⟩
  exact h x hx y hy hij l hlx hly

/-- **What the instances see of the handler**: each its own places. -/
def views (hP : P.Confines contents view size) (hapart : Apart cfg P es) :
    Views (step cfg P) BothIdle fun i e => e.places cfg P ⊆ share cfg P es i where
  Like := fun i s t => AgreeOn (look contents view) (share cfg P es i) s.world t.world
  Serves := fun i s t => Serves P contents view (share cfg P es i) s t
  like_refl := fun _ _ => .refl
  like_of_serves := fun _ _ _ h => h.agree
  serves_of_quiet := fun _ _ _ hs ht hagree => serves_of_bothIdle hs ht hagree
  quiet_of_serves := fun _ _ _ h hs => h.bothIdle hs
  serves_step := by
    intro i s t e hs hX
    obtain ⟨⟨a, s'⟩, ⟨a', t'⟩, hstep, hstep', halike⟩ := hs.alike_step hP e hX
    obtain rfl : a = a' := halike.answer
    refine ⟨a, s', t', hstep, hstep', halike.serves, fun j hij r hlike => ?_⟩
    exact (halike.frame.mono (hapart.disjoint hij)).trans hlike

/-- **Instances that take turns do not disturb each other.** The handler
serves any number of instances, which use different flash and different
files. If both transfers are idle whenever an instance is served after
another, then each instance is answered in the whole run as in the run
with the events of all others removed. -/
theorem undisturbed_of_takingTurns [DecidableEq ι] (hP : P.Confines contents view size)
    (hapart : Apart cfg P es) (hidle : BothIdle s) (last : ι)
    (hturns : Along (instances cfg P) (TakingTurns BothIdle) (s, last) es) (i : ι) :
    Undisturbed (step cfg P) i (s, last) es := by
  refine (views hP hapart).undisturbed hidle (fun x hx l hl => ?_) hturns i
  exact ⟨x, hx, rfl, hl⟩

end Instances

/-! ## Two instances on a board -/

/-- A block as the server library passes it on: the bytes of the request,
and room for those of the response. -/
def dataBlock (data : List UInt8) (h : data.length < 2 ^ 16) : Event 32 :=
  .transferData ⟨data, h, 100, some fun _ => 0⟩

/-- An erased flash and no file. -/
def emptyBoard : System 32 ((ℕ → UInt8) × Files (List UInt8) UInt8) :=
  System.initial (fun _ => 0xFF, noFiles)

/-- The first instance downloads and exits, the second adds a file and
exits, the first uploads what it downloaded. -/
def inTurns : List (Fin 2 × Event 32) :=
  [(0, .requestDownload ⟨8, 4, 0⟩), (0, dataBlock [1, 2, 3, 4] (by decide)),
    (0, .requestTransferExit), (1, addFile 0x61 2), (1, dataBlock [5, 6] (by decide)),
    (1, .requestTransferExit), (0, .requestUpload ⟨8, 4, 100⟩), (0, dataBlock [] (by decide)),
    (0, .requestTransferExit)]

theorem apart_inTurns : Apart fileConfig (boardSimulator 64) inTurns := by
  have hplaces : ∀ x ∈ inTurns, ∀ l ∈ x.2.places fileConfig (boardSimulator 64),
      (∃ i, l = .cell i) ↔ x.1 = 0 := by
    intro x hx
    simp only [inTurns, List.mem_cons, List.not_mem_nil, or_false] at hx
    rcases hx with rfl | rfl | rfl | rfl | rfl | rfl | rfl | rfl | rfl
    · rintro l ⟨i, j, rfl, -⟩
      exact iff_of_true ⟨j, rfl⟩ rfl
    · exact fun l hl => hl.elim
    · exact fun l hl => hl.elim
    · rintro l ⟨path, -, rfl⟩
      refine iff_of_false ?_ (by decide)
      rintro ⟨i, hi⟩
      cases hi
    · exact fun l hl => hl.elim
    · exact fun l hl => hl.elim
    · rintro l ⟨i, rfl, -⟩
      exact iff_of_true ⟨i, rfl⟩ rfl
    · exact fun l hl => hl.elim
    · exact fun l hl => hl.elim
  intro x hx y hy hne l hlx hly
  refine hne ?_
  have hiff := (hplaces x hx l hlx).symm.trans (hplaces y hy l hly)
  omega

theorem takingTurns_inTurns :
    Along (instances fileConfig (boardSimulator 64)) (TakingTurns BothIdle) (emptyBoard, 0)
      inTurns := by
  refine (along_cons rfl).mpr ⟨.inl rfl, (along_cons rfl).mpr ⟨.inl rfl, (along_cons rfl).mpr
    ⟨.inl rfl, (along_cons rfl).mpr ⟨.inr ⟨rfl, rfl, rfl⟩, (along_cons rfl).mpr ⟨.inl rfl,
    (along_cons rfl).mpr ⟨.inl rfl, (along_cons rfl).mpr ⟨.inr ⟨rfl, rfl, rfl⟩,
    (along_cons rfl).mpr ⟨.inl rfl, (along_cons rfl).mpr ⟨.inl rfl, trivial⟩⟩⟩⟩⟩⟩⟩⟩⟩

/-- The first instance is answered as if it were alone, though the second
has written a file in between. -/
theorem undisturbed_of_takingTurns_inTurns :
    Undisturbed (step fileConfig (boardSimulator 64)) 0 (emptyBoard, 0) inTurns :=
  undisturbed_of_takingTurns (boardSimulator_confines (by decide)) apart_inTurns
    ⟨rfl, rfl, rfl⟩ 0 takingTurns_inTurns 0

/-- The second instance starts an upload of other cells between the first
one's download request and its block. -/
def overtaken : List (Fin 2 × Event 32) :=
  [(0, .requestDownload ⟨8, 4, 0⟩), (1, .requestUpload ⟨32, 4, 100⟩),
    (0, dataBlock [1, 2, 3, 4] (by decide))]

theorem apart_overtaken : Apart fileConfig (boardSimulator 64) overtaken := by
  have hplaces : ∀ x ∈ overtaken, ∀ l ∈ x.2.places fileConfig (boardSimulator 64),
      ∃ i, l = .cell i ∧ (i < 16 ↔ x.1 = 0) := by
    intro x hx
    simp only [overtaken, List.mem_cons, List.not_mem_nil, or_false] at hx
    rcases hx with rfl | rfl | rfl
    · rintro l ⟨i, j, rfl, hblock, hlow, hhigh⟩
      refine ⟨j, rfl, iff_of_true ?_ rfl⟩
      have hlow' : 8 ≤ i := hlow
      have hhigh' : i < 8 + 4 := hhigh
      have hblock' : j / 4 = i / 4 := hblock
      omega
    · rintro l ⟨i, rfl, hlow, -⟩
      refine ⟨i, rfl, iff_of_false ?_ (by decide)⟩
      have hlow' : 32 ≤ i := hlow
      omega
    · exact fun l hl => hl.elim
  intro x hx y hy hne l hlx hly
  refine hne ?_
  obtain ⟨i, rfl, hi⟩ := hplaces x hx l hlx
  obtain ⟨j, hj, hiff⟩ := hplaces y hy (.cell i) hly
  cases hj
  have := hi.symm.trans hiff
  omega

/-- **One instance ends the transfer of another**: the block of the first is
taken for a request of the second's upload. It is answered positively, with
bytes of the second's range, and none of it is written. -/
theorem not_undisturbed_overtaken :
    ¬ ∀ es : List (Fin 2 × Event 32), Apart fileConfig (boardSimulator 64) es →
      ∀ i, Undisturbed (step fileConfig (boardSimulator 64)) i (emptyBoard, 0) es := by
  intro hall
  obtain ⟨as, s', bs, t', hboth, halone, heq⟩ := hall overtaken apart_overtaken 0
  have hboth' := congrArg (Option.map fun r => ofClient 0 r.1) hboth
  have halone' := congrArg (Option.map (·.1)) halone
  have hlist : ofClient 0 as =
      [{ code := .ok }, { code := .ok, copied := some [0xFF, 0xFF, 0xFF, 0xFF] }] :=
    (Option.some.inj hboth').symm
  have hlist' : bs = [{ code := .ok }, { code := .ok }] := (Option.some.inj halone').symm
  rw [heq, hlist'] at hlist
  exact absurd hlist (by decide)

end Transfer

end Uds

end Ardep
