import Ardep.Uds.Transfer.FileRoundTrip
import Ardep.Uds.Transfer.Range
/-!
# Transfer — a block whose copy is rejected

A block read for the tester is handed to `copyResponse`, which may refuse
it. The flash upload does not look at what the copy returns: its cursor
moves past the block and the answer is positive. The file read returns
the refusal and leaves its counter, but `fs_read` has moved the file
position already, so the two part.

`UploadAt` and `ReadAt` say where each transfer stands; `uploadAt_step`
and `readAt_step` are their steps, over a driver whose reads may fail and
a file system whose reads may come short. A file read never goes back: what
its copy rejected is handed over again by no later request, so its answers
are right exactly where nothing is accepted behind a rejection.
-/

namespace Ardep

namespace Uds

namespace Transfer

variable {cfg : Config} {σ : Type} {P : Platform cfg.wordBits σ}
variable {s s' : System cfg.wordBits σ}

/-! ## A flash upload -/

/-- **What is asked of a flash read**: it changes nothing, and where it
succeeds it returns what is stored. It may fail anywhere. -/
structure Platform.FlashReads {w : ℕ} (P : Platform w σ) (contents : σ → ℕ → UInt8) : Prop where
  keeps : ∀ off len t, contents (P.flashRead off len t).2 = contents t
  returns : ∀ off len t bytes, (P.flashRead off len t).1 = .ok bytes →
    bytes = readRange (contents t) off len

/-- The copy refused the block it was handed. -/
def CopyRejected (r : TransferDataArgs) (a : Answer) : Prop :=
  ∃ copy bytes, r.copyResponse = some copy ∧ a.copied = some bytes ∧ copy bytes ≠ 0

/-- The block the copy took, if it was handed one. -/
def takenBlock (r : TransferDataArgs) (a : Answer) : List UInt8 :=
  match r.copyResponse, a.copied with
  | some copy, some bytes => if copy bytes = 0 then bytes else []
  | _, _ => []

/-- The blocks the copies of a run took, joined. -/
def takenBytes : List TransferDataArgs → List Answer → List UInt8
  | r :: reqs, a :: as => takenBlock r a ++ takenBytes reqs as
  | _, _ => []

/-- **The copy takes the block**: where the request comes to a block that
the flash driver reads, its copy does not refuse it. -/
def TakesBlock (cfg : Config) (P : Platform cfg.wordBits σ) (s : System cfg.wordBits σ)
    (e : Event cfg.wordBits) : Prop :=
  ∀ r copy bytes, e = .transferData r → r.copyResponse = some copy →
    s.updown.currentAddress < s.updown.startAddress + s.updown.totalSize →
    (P.flashRead s.updown.currentAddress.toNat (uploadChunk cfg r (uploadLeft s.updown).toNat)
      s.world).1 = .ok bytes →
    copy bytes = 0

/-- **An upload under way** of `size` bytes from `addr` on: the cursor
stands `m` bytes past the start, and where the end of the range wraps it
never moves. -/
structure UploadAt (contents : σ → ℕ → UInt8) (flash : ℕ → UInt8)
    (addr size : BitVec cfg.wordBits) (m : ℕ) (s : System cfg.wordBits σ) : Prop where
  state : s.updown.state = .uploadInProgress
  file : s.file.mode = .idle
  start : s.updown.startAddress = addr
  announced : s.updown.totalSize = size
  cursor : s.updown.currentAddress.toNat = addr.toNat + m
  le : m ≤ size.toNat
  moved : m ≠ 0 → addr.toNat + size.toNat < 2 ^ cfg.wordBits
  holds : contents s.world = flash

section Upload

variable {contents : σ → ℕ → UInt8} {flash : ℕ → UInt8} {addr size : BitVec cfg.wordBits} {m : ℕ}

/-- Before the end, the range does not wrap. -/
theorem UploadAt.left (h : UploadAt contents flash addr size m s)
    (hlt : s.updown.currentAddress < s.updown.startAddress + s.updown.totalSize) :
    addr.toNat + size.toNat < 2 ^ cfg.wordBits ∧
      (uploadLeft s.updown).toNat = size.toNat - m := by
  have haddr := addr.isLt
  have hsize := size.isLt
  have hle := h.le
  rw [BitVec.lt_def, h.start, h.announced, h.cursor, BitVec.toNat_add] at hlt
  rcases Nat.lt_or_ge (addr.toNat + size.toNat) (2 ^ cfg.wordBits) with hfits | hwrap
  · refine ⟨hfits, ?_⟩
    rw [uploadLeft, BitVec.toNat_sub_of_le, h.start, h.announced, BitVec.toNat_add, h.cursor,
      Nat.mod_eq_of_lt hfits]
    · omega
    · rw [BitVec.le_def, h.start, h.announced, h.cursor, BitVec.toNat_add, Nat.mod_eq_of_lt hfits]
      omega
  · rw [Nat.mod_eq_sub_mod hwrap, Nat.mod_eq_of_lt (by omega)] at hlt
    omega

/-- Where the request comes to a block, the copy takes it or refuses it. -/
theorem takesBlock_iff {r : TransferDataArgs} {copy : List UInt8 → UInt8} {bytes : List UInt8}
    (hcopy : r.copyResponse = some copy)
    (hbefore : s.updown.currentAddress < s.updown.startAddress + s.updown.totalSize)
    (hread : (P.flashRead s.updown.currentAddress.toNat
      (uploadChunk cfg r (uploadLeft s.updown).toNat) s.world).1 = .ok bytes) :
    TakesBlock cfg P s (.transferData r) ↔ copy bytes = 0 := by
  constructor
  · exact fun htakes => htakes r copy bytes rfl hcopy hbefore hread
  · intro hzero r' copy' bytes' he hsome _ hok
    cases he
    rw [hcopy, Option.some.injEq] at hsome
    rw [hread, Except.ok.injEq] at hok
    rw [← hsome, ← hok]
    exact hzero

/-- The cursor moves on, past what was read. -/
theorem UploadAt.advance (h : UploadAt contents flash addr size m s) {k : ℕ} {world : σ}
    (hfits : addr.toNat + size.toNat < 2 ^ cfg.wordBits) (hk : k ≤ size.toNat - m)
    (hworld : contents world = contents s.world) :
    UploadAt contents flash addr size (m + k)
      { s with
        updown := { s.updown with
          currentAddress := s.updown.currentAddress + BitVec.ofNat _ k }
        world := world } where
  state := h.state
  file := h.file
  start := h.start
  announced := h.announced
  cursor := by
    have hle := h.le
    show (s.updown.currentAddress + BitVec.ofNat _ k).toNat = _
    rw [toNat_add_ofNat (by rw [h.cursor]; omega), h.cursor, Nat.add_assoc]
  le := by
    have hle := h.le
    omega
  moved _ := hfits
  holds := hworld.trans h.holds

/-- **What a request comes to** during an upload. No block is handed over
and the cursor stays; or the next bytes are, the answer is positive and
the cursor moves past them, whatever the copy says. -/
inductive UploadOutcome (P : Platform cfg.wordBits σ) (contents : σ → ℕ → UInt8)
    (flash : ℕ → UInt8) (addr size : BitVec cfg.wordBits) (m : ℕ) (s : System cfg.wordBits σ)
    (r : TransferDataArgs) (a : Answer) (s' : System cfg.wordBits σ) : Prop
  | stays (hnone : a.copied = none) (htakes : TakesBlock cfg P s (.transferData r))
      (hat : UploadAt contents flash addr size m s')
  | hands (copy : List UInt8 → UInt8) (k : ℕ) (hcopy : r.copyResponse = some copy)
      (hcopied : a.copied = some (readRange flash (addr.toNat + m) k)) (hcode : a.code = .ok)
      (htakes : TakesBlock cfg P s (.transferData r) ↔
        copy (readRange flash (addr.toNat + m) k) = 0)
      (hat : UploadAt contents flash addr size (m + k) s')

/-- **A step of an upload.** -/
theorem uploadAt_step (hreads : P.FlashReads contents)
    (h : UploadAt contents flash addr size m s) (r : TransferDataArgs) :
    ∃ a s', step cfg P s (.transferData r) = some (a, s') ∧
      UploadOutcome P contents flash addr size m s r a s' := by
  rw [step_transferData_upload h.state h.file, continueUpload_eq h.state]
  by_cases hend : s.updown.startAddress + s.updown.totalSize ≤ s.updown.currentAddress
  · rw [if_pos hend]
    refine ⟨_, _, rfl, .stays rfl ?_ h⟩
    exact fun _ _ _ _ _ hlt => absurd hend (BitVec.not_le.mpr hlt)
  · have hbefore := BitVec.not_le.mp hend
    obtain ⟨hfits, hleft⟩ := h.left hbefore
    rw [if_neg hend]
    rcases hread : P.flashRead s.updown.currentAddress.toNat
      (uploadChunk cfg r (uploadLeft s.updown).toNat) s.world with ⟨res, world⟩
    have hkeeps : contents world = contents s.world := by
      have hkept := hreads.keeps s.updown.currentAddress.toNat
        (uploadChunk cfg r (uploadLeft s.updown).toNat) s.world
      rwa [hread] at hkept
    have hstay : UploadAt contents flash addr size m { s with world := world } :=
      ⟨h.state, h.file, h.start, h.announced, h.cursor, h.le, h.moved, hkeeps.trans h.holds⟩
    cases res with
    | error e =>
      refine ⟨_, _, rfl, .stays rfl ?_ hstay⟩
      intro r' copy bytes he _ _ hok
      cases he
      rw [hread] at hok
      cases hok
    | ok buffer =>
      have hbuffer := hreads.returns _ _ s.world buffer (by rw [hread])
      rw [h.holds, h.cursor] at hbuffer
      cases hcopy : r.copyResponse with
      | none =>
        refine ⟨_, _, rfl, .stays rfl ?_ hstay⟩
        intro r' copy bytes he hsome
        cases he
        rw [hcopy] at hsome
        cases hsome
      | some copy =>
        have hk : uploadChunk cfg r (uploadLeft s.updown).toNat ≤ size.toNat - m := by
          rw [hleft, uploadChunk]
          omega
        refine ⟨_, _, rfl, .hands copy _ hcopy (congrArg some hbuffer) rfl ?_
          (h.advance hfits hk hkeeps)⟩
        rw [← hbuffer]
        exact takesBlock_iff hcopy hbefore (by rw [hread])

theorem takenBytes_cons (r : TransferDataArgs) (a : Answer) (reqs : List TransferDataArgs)
    (as : List Answer) :
    takenBytes (r :: reqs) (a :: as) = takenBlock r a ++ takenBytes reqs as := rfl

/-- No block that a copy rejected is answered positively. -/
def RejectionsShow (reqs : List TransferDataArgs) (as : List Answer) : Prop :=
  ∀ x ∈ reqs.zip as, CopyRejected x.1 x.2 → x.2.code ≠ .ok

theorem rejectionsShow_cons {r : TransferDataArgs} {a : Answer} {reqs : List TransferDataArgs}
    {as : List Answer} :
    RejectionsShow (r :: reqs) (a :: as) ↔
      (CopyRejected r a → a.code ≠ .ok) ∧ RejectionsShow reqs as := by
  simp [RejectionsShow]

section Block

variable {r : TransferDataArgs} {a : Answer} {copy : List UInt8 → UInt8} {bytes : List UInt8}

theorem takenBlock_of_none (h : a.copied = none) : takenBlock r a = [] := by
  rw [takenBlock, h]
  split <;> simp_all

theorem not_copyRejected_of_none (h : a.copied = none) : ¬ CopyRejected r a := by
  rintro ⟨_, bytes, -, hsome, -⟩
  rw [h] at hsome
  cases hsome

variable (hcopy : r.copyResponse = some copy) (hcopied : a.copied = some bytes)

include hcopy hcopied

theorem takenBlock_of_some : takenBlock r a = if copy bytes = 0 then bytes else [] := by
  simp only [takenBlock, hcopy, hcopied]

theorem copyRejected_iff : CopyRejected r a ↔ copy bytes ≠ 0 := by
  constructor
  · rintro ⟨copy', bytes', hsome, hbytes, hne⟩
    rw [hcopy, Option.some.injEq] at hsome
    rw [hcopied, Option.some.injEq] at hbytes
    rw [hsome, hbytes]
    exact hne
  · exact fun hne => ⟨copy, bytes, hcopy, hcopied, hne⟩

end Block

/-- **A run of an upload.** Its rejections show exactly where there are
none; and then the blocks taken are the range the cursor went over. -/
theorem runs_uploadAt (hreads : P.FlashReads contents) :
    ∀ (reqs : List TransferDataArgs) (m : ℕ) (s s' : System cfg.wordBits σ) (as : List Answer),
      UploadAt contents flash addr size m s →
      runs (step cfg P) s (reqs.map Event.transferData) = some (as, s') →
      ∃ m', m ≤ m' ∧ UploadAt contents flash addr size m' s' ∧
        (RejectionsShow reqs as ↔
          Along (step cfg P) (TakesBlock cfg P) s (reqs.map Event.transferData)) ∧
        (RejectionsShow reqs as →
          takenBytes reqs as = readRange flash (addr.toNat + m) (m' - m)) := by
  intro reqs
  induction reqs with
  | nil =>
    intro m s s' as h hrun
    simp only [List.map_nil, runs_nil, Option.some.injEq, Prod.mk.injEq] at hrun
    obtain ⟨rfl, rfl⟩ := hrun
    refine ⟨m, le_rfl, h, ?_, fun _ => ?_⟩
    · simp [RejectionsShow, Along]
    · simp [takenBytes, readRange]
  | cons r reqs ih =>
    intro m s s' as h hrun
    rw [List.map_cons, runs_cons_eq_some] at hrun
    obtain ⟨a, s1, as', hstep, hrest, rfl⟩ := hrun
    obtain ⟨a', s1', hstep', hcases⟩ := uploadAt_step hreads h r
    rw [hstep, Option.some.injEq, Prod.mk.injEq] at hstep'
    obtain ⟨rfl, rfl⟩ := hstep'
    rw [List.map_cons, along_cons hstep, rejectionsShow_cons, takenBytes_cons]
    cases hcases with
    | stays hnone htakes h1 =>
      obtain ⟨m', hle, h', hiff, hbytes⟩ := ih m s1 s' as' h1 hrest
      refine ⟨m', hle, h', ?_, fun hshow => ?_⟩
      · rw [hiff, iff_true_intro htakes,
          iff_true_intro fun hrejected => absurd hrejected (not_copyRejected_of_none hnone)]
      · rw [takenBlock_of_none hnone, List.nil_append, hbytes hshow.2]
    | hands copy k hcopy hcopied hcode htakes h1 =>
      obtain ⟨m', hle, h', hiff, hbytes⟩ := ih (m + k) s1 s' as' h1 hrest
      have hhead : (CopyRejected r a → a.code ≠ .ok) ↔ TakesBlock cfg P s (.transferData r) := by
        rw [copyRejected_iff hcopy hcopied, htakes, hcode]
        simp
      refine ⟨m', by omega, h', ?_, fun hshow => ?_⟩
      · rw [hhead, hiff]
      · have hsplit : m' - m = k + (m' - (m + k)) := by omega
        rw [takenBlock_of_some hcopy hcopied, if_pos (htakes.mp (hhead.mp hshow.1)),
          hbytes hshow.2, hsplit, readRange_add, Nat.add_assoc]

end Upload

/-- **An accepted upload request** starts an upload at its first byte. -/
theorem step_requestUpload_at {contents : σ → ℕ → UInt8} (hexc : Exclusive cfg s)
    {up : RequestUploadArgs cfg.wordBits} {a : Answer}
    (hup : step cfg P s (.requestUpload up) = some (a, s')) (hok : a.code = .ok) :
    UploadAt contents (contents s'.world) (normalizeAddress cfg up.addr) up.size 0 s' := by
  obtain ⟨s1, hidle, -, hstart⟩ := exists_start_of_ok hexc rfl hup hok
  have hupload : startUpload cfg P up s1 = (a, s') := hstart
  have hset := (startUpload_ok (P := P) (s := s1) up (by rw [hupload]; exact hok)).2
  rw [hupload] at hset
  simp only at hset
  subst hset
  exact ⟨rfl, hidle.file, rfl, rfl, rfl, Nat.zero_le _, fun hne => absurd rfl hne, rfl⟩

/-- **Delivered in order.** What the copies took is the requested range up
to the cursor, and no rejected block was answered positively. -/
structure DeliveredInOrder (contents : σ → ℕ → UInt8) (up : RequestUploadArgs cfg.wordBits)
    (reqs : List TransferDataArgs) (as : List Answer) (s1 s2 : System cfg.wordBits σ) : Prop where
  taken : takenBytes reqs as =
    (readRange (contents s1.world) (normalizeAddress cfg up.addr).toNat up.size.toNat).take
      (s2.updown.currentAddress - s2.updown.startAddress).toNat
  inRange : (s2.updown.currentAddress - s2.updown.startAddress).toNat ≤ up.size.toNat
  shown : RejectionsShow reqs as

/-- **An upload delivers in order exactly while no copy rejects.** From
any reachable state, after an accepted upload request, whatever the reads
and the copies of the run come to. -/
theorem deliveredInOrder_iff {contents : σ → ℕ → UInt8} (hreads : P.FlashReads contents)
    {s0 s1 s2 : System cfg.wordBits σ} (hreach : (machine cfg P).Reachable s0) (world : σ)
    {up : RequestUploadArgs cfg.wordBits} {a : Answer}
    (hup : step cfg P { s0 with world := world } (.requestUpload up) = some (a, s1))
    (hok : a.code = .ok) (reqs : List TransferDataArgs) {as : List Answer}
    (hrun : runs (step cfg P) s1 (reqs.map .transferData) = some (as, s2)) :
    DeliveredInOrder contents up reqs as s1 s2 ↔
      Along (step cfg P) (TakesBlock cfg P) s1 (reqs.map .transferData) := by
  have hexc : Exclusive cfg { s0 with world := world } :=
    (exclusive_of_reachable hreach).congr rfl rfl rfl
  have h1 : UploadAt contents (contents s1.world) (normalizeAddress cfg up.addr) up.size 0 s1 :=
    step_requestUpload_at hexc hup hok
  obtain ⟨m, -, h2, hiff, hbytes⟩ := runs_uploadAt hreads reqs 0 s1 s2 as h1 hrun
  have hmoved : (s2.updown.currentAddress - s2.updown.startAddress).toNat = m := by
    rw [BitVec.toNat_sub_of_le, h2.cursor, h2.start]
    · omega
    · rw [BitVec.le_def, h2.cursor, h2.start]
      omega
  rw [← hiff]
  constructor
  · exact fun h => h.shown
  · intro hshow
    refine ⟨?_, hmoved ▸ h2.le, hshow⟩
    rw [hbytes hshow, hmoved, readRange_take h2.le, Nat.add_zero, Nat.sub_zero]

theorem flashSimulator_flashReads (size : ℕ) : (flashSimulator size).FlashReads id where
  keeps off len t := by
    simp only [flashSimulator]
    split <;> rfl
  returns off len t bytes h := by
    simp only [flashSimulator] at h
    split at h
    · cases h
      rfl
    · cases h

/-- A flash in which every cell holds its own offset. -/
def counting : ℕ → UInt8 := fun i => UInt8.ofNat i

/-- A request for a block of at most two bytes, with the status its copy
returns. -/
def twoBytes (status : UInt8) : TransferDataArgs := ⟨[], Nat.two_pow_pos 16, 2, some fun _ => status⟩

/-- Four bytes in two blocks, both taken. -/
theorem deliveredInOrder_iff_taken :
    ∃ (s1 s2 : System 32 (ℕ → UInt8)) (a : Answer) (as : List Answer),
      step simulatorConfig (flashSimulator 64) (System.initial counting)
          (.requestUpload ⟨8, 4, 100⟩) = some (a, s1) ∧
        runs (step simulatorConfig (flashSimulator 64)) s1
          ([twoBytes 0, twoBytes 0].map .transferData) = some (as, s2) ∧
        @DeliveredInOrder simulatorConfig _ id ⟨8, 4, 100⟩ [twoBytes 0, twoBytes 0] as
          s1 s2 := by
  refine ⟨_, _, _, _, rfl, rfl, ?_⟩
  refine (@deliveredInOrder_iff simulatorConfig _ _ _ (flashSimulator_flashReads 64)
    (System.initial counting) _ _ (.init ⟨counting, rfl⟩) counting _ _ rfl rfl
    [twoBytes 0, twoBytes 0] _ rfl).mpr ?_
  refine ⟨?_, fun a s' _ => ⟨?_, fun _ _ _ => trivial⟩⟩
  all_goals
    rintro r copy bytes he hcopy - -
    cases he
    cases hcopy
    rfl

/-- Four bytes in two blocks, the first of which its copy rejects: the
answer is positive all the same, and the second block is all there is. -/
theorem not_deliveredInOrder_rejected :
    ∃ (s0 s1 s2 : System 32 (ℕ → UInt8)) (a : Answer) (as : List Answer),
      (machine simulatorConfig (flashSimulator 64)).Reachable s0 ∧
        step simulatorConfig (flashSimulator 64) s0 (.requestUpload ⟨8, 4, 100⟩) =
          some (a, s1) ∧
        a.code = .ok ∧
        runs (step simulatorConfig (flashSimulator 64)) s1
          ([twoBytes 0x72, twoBytes 0].map .transferData) = some (as, s2) ∧
        takenBytes [twoBytes 0x72, twoBytes 0] as = [10, 11] ∧
        as.map (·.code) = [.ok, .ok] ∧
        ¬ @DeliveredInOrder simulatorConfig _ id ⟨8, 4, 100⟩ [twoBytes 0x72, twoBytes 0] as
          s1 s2 := by
  refine ⟨System.initial counting, _, _, _, _, .init ⟨counting, rfl⟩, rfl, rfl, rfl, by decide,
    by decide, fun h => ?_⟩
  exact h.shown (twoBytes 0x72, _) List.mem_cons_self ⟨_, _, rfl, rfl, by decide⟩ rfl

/-! ## A file read -/

/-- **What is asked of a file read**: it returns the next bytes, up to as
many as were asked for, and moves past them; one that fails moves
nothing. -/
structure Platform.FileReads {w : ℕ} (P : Platform w σ) (view : FileView σ) : Prop where
  returns : ∀ n t bytes, (P.fsRead n t).1 = .ok bytes →
    ∃ k ≤ n, bytes = ((view t).read k).1 ∧ view (P.fsRead n t).2 = ((view t).read k).2
  fails : ∀ n t e, (P.fsRead n t).1 = .error e → view (P.fsRead n t).2 = view t

/-- The block of an answer that is positive. -/
def answeredBlock (a : Answer) : List UInt8 :=
  if a.code = .ok then a.copied.getD [] else []

/-- The blocks that were answered positively, joined. -/
def answeredBytes (as : List Answer) : List UInt8 := (as.map answeredBlock).flatten

/-- **The request comes to a block**: it has somewhere to copy it, something
is left to read, and the file system gives some bytes. -/
def ComesTo (cfg : Config) (P : Platform cfg.wordBits σ) (s : System cfg.wordBits σ)
    (e : Event cfg.wordBits) (copy : List UInt8 → UInt8) (bytes : List UInt8) : Prop :=
  ∃ r, e = .transferData r ∧ r.copyResponse = some copy ∧ remaining s.file ≠ 0 ∧
    (P.fsRead (min r.maxRespLen.toNat (remaining s.file).toNat) s.world).1 = .ok bytes ∧
    bytes ≠ []

/-- The request comes to a block that its copy accepts. -/
def Accepts (cfg : Config) (P : Platform cfg.wordBits σ)
    (x : System cfg.wordBits σ × Event cfg.wordBits) : Prop :=
  ∃ copy bytes, ComesTo cfg P x.1 x.2 copy bytes ∧ copy bytes = 0

/-- The request comes to a block that its copy rejects. -/
def Rejects (cfg : Config) (P : Platform cfg.wordBits σ)
    (x : System cfg.wordBits σ × Event cfg.wordBits) : Prop :=
  ∃ copy bytes, ComesTo cfg P x.1 x.2 copy bytes ∧ copy bytes ≠ 0

/-- A step of a run and its answer. -/
abbrev Answered (cfg : Config) (σ : Type) : Type :=
  (System cfg.wordBits σ × Event cfg.wordBits) × Answer

/-- The answer was given to a block that the copy rejected. -/
def Refused (x : Answered cfg σ) : Prop :=
  ∃ r, x.1.2 = .transferData r ∧ CopyRejected r x.2

/-- **Handed over again.** The next positive answer behind a block that its
copy rejected reads from where that block was read. -/
def HandedAgain (view : FileView σ) (run : List (Answered cfg σ)) : Prop :=
  ∀ pre x mid y post, run = pre ++ x :: (mid ++ y :: post) → Refused x → y.2.code = .ok →
    (∀ z ∈ mid, z.2.code ≠ .ok) → (view y.1.1.world).handle = (view x.1.1.world).handle

/-- **Handed over in order.** The blocks that were answered positively are,
joined, the first bytes of the file, and a rejected one is handed over
again by the next positive answer. -/
structure HandedInOrder (view : FileView σ) (d : List UInt8) (run : List (Answered cfg σ)) :
    Prop where
  part : answeredBytes (run.map (·.2)) <+: d
  again : HandedAgain view run

/-- **A file read under way**, wherever its two cursors stand: the file is
open at `pos`. -/
structure ReadAt (view : FileView σ) (path d : List UInt8) (pos : ℕ)
    (s : System cfg.wordBits σ) : Prop where
  enabled : cfg.fileTransfer = true
  mode : s.file.mode = .read
  le : s.file.transferred ≤ s.file.expectedSize
  position : (view s.world).At path d pos

section FileRead

variable {view : FileView σ} {path d : List UInt8} {pos : ℕ}

theorem toNat_remaining {w : ℕ} {f : FileTransferState w} (h : f.transferred ≤ f.expectedSize) :
    (remaining f).toNat = f.expectedSize.toNat - f.transferred.toNat := by
  rw [remaining, if_pos h, BitVec.toNat_sub_of_le h]

/-- A request comes to one block. -/
theorem ComesTo.unique {e : Event cfg.wordBits} {copy copy' : List UInt8 → UInt8}
    {bytes bytes' : List UInt8} (h : ComesTo cfg P s e copy bytes)
    (h' : ComesTo cfg P s e copy' bytes') : copy = copy' ∧ bytes = bytes' := by
  obtain ⟨r, rfl, hcopy, -, hread, -⟩ := h
  obtain ⟨r', hr, hcopy', -, hread', -⟩ := h'
  cases hr
  rw [hcopy, Option.some.injEq] at hcopy'
  rw [hread, Except.ok.injEq] at hread'
  exact ⟨hcopy', hread'⟩

theorem accepts_iff {e : Event cfg.wordBits} {copy : List UInt8 → UInt8} {bytes : List UInt8}
    (h : ComesTo cfg P s e copy bytes) : Accepts cfg P (s, e) ↔ copy bytes = 0 := by
  constructor
  · rintro ⟨copy', bytes', h', hzero⟩
    obtain ⟨rfl, rfl⟩ := h.unique h'
    exact hzero
  · exact fun hzero => ⟨copy, bytes, h, hzero⟩

theorem rejects_iff {e : Event cfg.wordBits} {copy : List UInt8 → UInt8} {bytes : List UInt8}
    (h : ComesTo cfg P s e copy bytes) : Rejects cfg P (s, e) ↔ copy bytes ≠ 0 := by
  constructor
  · rintro ⟨copy', bytes', h', hne⟩
    obtain ⟨rfl, rfl⟩ := h.unique h'
    exact hne
  · exact fun hne => ⟨copy, bytes, h, hne⟩

/-- A read returns the bytes at the position and moves past them. -/
theorem ReadAt.read (hreads : P.FileReads view) (h : ReadAt view path d pos s) {n : ℕ}
    {bytes : List UInt8} {world : σ} (hread : P.fsRead n s.world = (.ok bytes, world)) :
    bytes.length ≤ n ∧ bytes = (d.drop pos).take bytes.length ∧
      (view world).At path d (pos + bytes.length) := by
  obtain ⟨k, hk, hbytes, hview⟩ := hreads.returns n s.world bytes (by rw [hread])
  obtain ⟨hslice, hat⟩ := h.position.read k
  rw [hread] at hview
  have hlen : bytes.length = min k (d.length - pos) := by
    rw [hbytes, hslice, List.length_take, List.length_drop]
  refine ⟨by omega, ?_, ?_⟩
  · rw [hbytes, hslice, List.length_take, List.take_eq_take_min]
  · rw [hlen, hview]
    exact hat

/-- **What a request comes to** during a file read. No block is handed over
and both cursors stay; or the bytes at the position are, which moves past
them, and the counter with it where the copy accepts them. -/
inductive ReadOutcome (P : Platform cfg.wordBits σ) (view : FileView σ) (path d : List UInt8)
    (pos : ℕ) (s : System cfg.wordBits σ) (r : TransferDataArgs) (a : Answer)
    (s' : System cfg.wordBits σ) : Prop
  | stays (hnone : ∀ copy bytes, ¬ ComesTo cfg P s (.transferData r) copy bytes)
      (hcopied : a.copied = none) (hcode : a.code ≠ .ok)
      (hcount : s'.file.transferred = s.file.transferred) (hat : ReadAt view path d pos s')
  | hands (copy : List UInt8 → UInt8) (bytes : List UInt8)
      (hcomes : ComesTo cfg P s (.transferData r) copy bytes) (hcopied : a.copied = some bytes)
      (hcode : a.code = .ok ↔ copy bytes = 0) (hslice : bytes = (d.drop pos).take bytes.length)
      (hcount : s'.file.transferred.toNat =
        s.file.transferred.toNat + if copy bytes = 0 then bytes.length else 0)
      (hat : ReadAt view path d (pos + bytes.length) s')

/-- A request whose read gives bytes. -/
theorem readOutcome_bytes (hreads : P.FileReads view) (h : ReadAt view path d pos s)
    {r : TransferDataArgs} {copy : List UInt8 → UInt8} (hcopy : r.copyResponse = some copy)
    (hzero : remaining s.file ≠ 0) {bytes : List UInt8} {world : σ}
    (hread : P.fsRead (min r.maxRespLen.toNat (remaining s.file).toNat) s.world =
      (.ok bytes, world)) :
    ReadOutcome P view path d pos s r (udsFileTransferRead cfg P r s).1
      (udsFileTransferRead cfg P r s).2 := by
  obtain ⟨hle, hslice, hposition⟩ := h.read hreads hread
  rw [udsFileTransferRead_eq hcopy, if_neg hzero, hread]
  dsimp only
  by_cases hempty : bytes.length = 0
  · -- the end of the file
    rw [if_pos hempty]
    refine .stays ?_ rfl (by dsimp only; decide) rfl ⟨h.enabled, h.mode, h.le, ?_⟩
    · rintro copy' bytes' ⟨r', hr, -, -, hread', hne⟩
      cases hr
      rw [hread, Except.ok.injEq] at hread'
      exact hne (hread' ▸ List.length_eq_zero_iff.mp hempty)
    · rwa [hempty, Nat.add_zero] at hposition
  · rw [if_neg hempty]
    have hcomes : ComesTo cfg P s (.transferData r) copy bytes :=
      ⟨r, rfl, hcopy, hzero, by rw [hread], fun hnil => hempty (by rw [hnil]; rfl)⟩
    by_cases hrejected : copy bytes ≠ 0
    · -- the position has moved, the counter has not
      rw [if_pos hrejected]
      exact .hands copy bytes hcomes rfl UDSErr.ofByte_eq_zero hslice
        (by rw [if_neg hrejected]; rfl) ⟨h.enabled, h.mode, h.le, hposition⟩
    · rw [if_neg hrejected]
      have haccepted := not_not.mp hrejected
      have hremaining := toNat_remaining h.le
      have hcounter : (s.file.transferred + BitVec.ofNat _ bytes.length).toNat =
          s.file.transferred.toNat + bytes.length := by
        refine toNat_add_ofNat ?_
        have hexpected := s.file.expectedSize.isLt
        omega
      refine .hands copy bytes hcomes rfl (iff_of_true rfl haccepted) hslice
        (by rw [if_pos haccepted]; exact hcounter) ⟨h.enabled, h.mode, ?_, hposition⟩
      show s.file.transferred + BitVec.ofNat _ bytes.length ≤ s.file.expectedSize
      have hcount := BitVec.le_def.mp h.le
      rw [BitVec.le_def, hcounter]
      omega

/-- **A step of a file read.** -/
theorem readAt_step (hreads : P.FileReads view) (h : ReadAt view path d pos s)
    (r : TransferDataArgs) :
    ∃ a s', step cfg P s (.transferData r) = some (a, s') ∧
      ReadOutcome P view path d pos s r a s' := by
  have hactive : s.file.mode ≠ .idle := by rw [h.mode]; decide
  have hstep : step cfg P s (.transferData r) = some (udsFileTransferRead cfg P r s) := by
    rw [step, udsActionUploadDownload_of_file h.enabled hactive]
    simp only [udsFileTransferContinue, h.mode]
  refine ⟨(udsFileTransferRead cfg P r s).1, (udsFileTransferRead cfg P r s).2, hstep, ?_⟩
  cases hcopy : r.copyResponse with
  | none =>
    have hmisuse : udsFileTransferRead cfg P r s = ({ code := .misuse }, s) := by
      simp only [udsFileTransferRead, hcopy]
    rw [hmisuse]
    refine .stays ?_ rfl (by dsimp only; decide) rfl h
    rintro copy bytes ⟨r', hr, hsome, -⟩
    cases hr
    rw [hcopy] at hsome
    cases hsome
  | some copy =>
    by_cases hzero : remaining s.file = 0
    · rw [udsFileTransferRead_eq hcopy, if_pos hzero]
      refine .stays ?_ rfl (by dsimp only; decide) rfl h
      rintro copy' bytes ⟨r', -, -, hne, -⟩
      exact hne hzero
    · rcases hread : P.fsRead (min r.maxRespLen.toNat (remaining s.file).toNat) s.world with
        ⟨res, world⟩
      cases res with
      | ok bytes => exact readOutcome_bytes hreads h hcopy hzero hread
      | error e =>
        have hstay : view world = view s.world := by
          have hfails := hreads.fails _ s.world e (by rw [hread])
          rwa [hread] at hfails
        rw [udsFileTransferRead_eq hcopy, if_neg hzero, hread]
        refine .stays ?_ rfl (fsErrorToNrc_ne_ok e) rfl ⟨h.enabled, h.mode, h.le, ?_⟩
        · rintro copy' bytes ⟨r', hr, -, -, hok, -⟩
          cases hr
          rw [hread] at hok
          cases hok
        · show (view world).At path d pos
          rw [hstay]
          exact h.position

namespace ReadOutcome

variable {r : TransferDataArgs} {a : Answer}

/-- The answer is positive exactly where the copy accepts a block. -/
theorem accepts_iff (h : ReadOutcome P view path d pos s r a s') :
    Accepts cfg P (s, .transferData r) ↔ a.code = .ok := by
  cases h with
  | stays hnone _ hcode _ _ =>
    refine iff_of_false ?_ hcode
    rintro ⟨copy, bytes, hcomes, -⟩
    exact hnone copy bytes hcomes
  | hands copy bytes hcomes _ hcode _ _ _ => exact (Transfer.accepts_iff hcomes).trans hcode.symm

theorem rejects_iff (h : ReadOutcome P view path d pos s r a s') :
    Rejects cfg P (s, .transferData r) ↔ Refused ((s, .transferData r), a) := by
  cases h with
  | stays hnone hcopied _ _ _ =>
    refine iff_of_false ?_ ?_
    · rintro ⟨copy, bytes, hcomes, -⟩
      exact hnone copy bytes hcomes
    · rintro ⟨r', -, hrejected⟩
      exact not_copyRejected_of_none hcopied hrejected
  | hands copy bytes hcomes hcopied _ _ _ _ =>
    rw [Transfer.rejects_iff hcomes]
    obtain ⟨r', hr, hcopy, -⟩ := hcomes
    cases hr
    rw [← copyRejected_iff hcopy hcopied]
    constructor
    · exact fun hrejected => ⟨r, rfl, hrejected⟩
    · rintro ⟨r', hr, hrejected⟩
      cases hr
      exact hrejected

/-- The file stays open, at or behind the position. -/
theorem exists_readAt (h : ReadOutcome P view path d pos s r a s') :
    ∃ pos', pos ≤ pos' ∧ (Rejects cfg P (s, .transferData r) → pos < pos') ∧
      ReadAt view path d pos' s' := by
  cases h with
  | stays hnone _ _ _ hat =>
    refine ⟨pos, le_rfl, ?_, hat⟩
    rintro ⟨copy, bytes, hcomes, -⟩
    exact absurd hcomes (hnone copy bytes)
  | hands copy bytes hcomes _ _ _ _ hat =>
    refine ⟨pos + bytes.length, Nat.le_add_right _ _, fun _ => ?_, hat⟩
    obtain ⟨r', -, -, -, -, hne⟩ := hcomes
    have := List.length_pos_of_ne_nil hne
    omega

end ReadOutcome

/-- What continues a prefix of the file. -/
theorem append_prefix_iff {d p b : List UInt8} (hp : p <+: d) :
    p ++ b <+: d ↔ b = (d.drop p.length).take b.length := by
  obtain ⟨rest, rfl⟩ := hp
  rw [List.prefix_append_right_inj, List.drop_left, List.prefix_iff_eq_take]

/-- The steps of a run of TransferData requests. -/
abbrev steps (cfg : Config) (P : Platform cfg.wordBits σ) (s : System cfg.wordBits σ)
    (reqs : List TransferDataArgs) : List (System cfg.wordBits σ × Event cfg.wordBits) :=
  history (step cfg P) s (reqs.map .transferData)

theorem steps_cons {r : TransferDataArgs} {a : Answer} (reqs : List TransferDataArgs)
    (h : step cfg P s (.transferData r) = some (a, s')) :
    steps cfg P s (r :: reqs) = (s, .transferData r) :: steps cfg P s' reqs := by
  rw [steps, List.map_cons, history, h]

/-- **A step anywhere in a run of a file read**, with its answer. -/
theorem mem_steps (hreads : P.FileReads view) :
    ∀ (reqs : List TransferDataArgs) (pos : ℕ) (s s' : System cfg.wordBits σ) (as : List Answer),
      ReadAt view path d pos s →
      runs (step cfg P) s (reqs.map Event.transferData) = some (as, s') →
      ∀ x ∈ (steps cfg P s reqs).zip as, (Accepts cfg P x.1 ↔ x.2.code = .ok) ∧
        (Rejects cfg P x.1 ↔ Refused x) ∧
        ∃ pos', pos ≤ pos' ∧ (view x.1.1.world).handle = some (path, pos') := by
  intro reqs
  induction reqs with
  | nil =>
    intro pos s s' as _ _ x hx
    cases hx
  | cons r reqs ih =>
    intro pos s s' as h hrun x hx
    rw [List.map_cons, runs_cons_eq_some] at hrun
    obtain ⟨a, s1, as', hstep, hrest, rfl⟩ := hrun
    obtain ⟨a', s1', hstep', hout⟩ := readAt_step hreads h r
    rw [hstep, Option.some.injEq, Prod.mk.injEq] at hstep'
    obtain ⟨rfl, rfl⟩ := hstep'
    rw [steps_cons reqs hstep, List.zip_cons_cons, List.mem_cons] at hx
    rcases hx with rfl | hx
    · exact ⟨hout.accepts_iff, hout.rejects_iff, pos, le_rfl, h.position.handle⟩
    · obtain ⟨pos', hle, -, h1⟩ := hout.exists_readAt
      obtain ⟨haccepts, hrejects, pos'', hle', hhandle⟩ := ih pos' s1 s' as' h1 hrest x hx
      exact ⟨haccepts, hrejects, pos'', hle.trans hle', hhandle⟩

/-- **With no block accepted behind a rejected one** the bytes answered
positively go on with the file, after those that were before. -/
theorem part_of_pairwise (hreads : P.FileReads view) :
    ∀ (reqs : List TransferDataArgs) (p : List UInt8) (pos : ℕ) (s s' : System cfg.wordBits σ)
      (as : List Answer),
      ReadAt view path d pos s → p <+: d → p.length = s.file.transferred.toNat →
      (pos = p.length ∨ ∀ x ∈ steps cfg P s reqs, ¬ Accepts cfg P x) →
      runs (step cfg P) s (reqs.map Event.transferData) = some (as, s') →
      (steps cfg P s reqs).Pairwise (fun x y => Rejects cfg P x → ¬ Accepts cfg P y) →
      p ++ answeredBytes as <+: d := by
  intro reqs
  induction reqs with
  | nil =>
    intro p pos s s' as _ hp _ _ hrun _
    simp only [List.map_nil, runs_nil, Option.some.injEq, Prod.mk.injEq] at hrun
    obtain ⟨rfl, rfl⟩ := hrun
    simpa [answeredBytes] using hp
  | cons r reqs ih =>
    intro p pos s s' as h hp hlen hcursors hrun hpairwise
    rw [List.map_cons, runs_cons_eq_some] at hrun
    obtain ⟨a, s1, as', hstep, hrest, rfl⟩ := hrun
    obtain ⟨a', s1', hstep', hout⟩ := readAt_step hreads h r
    rw [hstep, Option.some.injEq, Prod.mk.injEq] at hstep'
    obtain ⟨rfl, rfl⟩ := hstep'
    rw [steps_cons reqs hstep] at hcursors hpairwise
    obtain ⟨hfirst, htail⟩ := List.pairwise_cons.mp hpairwise
    have hcons : answeredBytes (a :: as') = answeredBlock a ++ answeredBytes as' := rfl
    have hlater : (∀ x ∈ (s, Event.transferData r) :: steps cfg P s1 reqs, ¬ Accepts cfg P x) →
        ∀ x ∈ steps cfg P s1 reqs, ¬ Accepts cfg P x :=
      fun hnone x hx => hnone x (List.mem_cons_of_mem _ hx)
    have haccepts := hout.accepts_iff
    rw [hcons]
    cases hout with
    | stays _ _ hcode hcount h1 =>
      rw [answeredBlock, if_neg hcode, List.nil_append]
      exact ih p pos s1 s' as' h1 hp (by rw [hlen, hcount]) (hcursors.imp_right hlater) hrest htail
    | hands copy bytes hcomes hcopied hcode hslice hcount h1 =>
      by_cases hzero : copy bytes = 0
      · -- accepted, so nothing was rejected before
        obtain rfl : pos = p.length := hcursors.resolve_right fun hnone =>
          hnone _ List.mem_cons_self ((accepts_iff hcomes).mpr hzero)
        have hblock : answeredBlock a = bytes := by
          rw [answeredBlock, if_pos (hcode.mpr hzero), hcopied]
          rfl
        rw [hblock, ← List.append_assoc]
        rw [if_pos hzero] at hcount
        have hlonger : (p ++ bytes).length = s1.file.transferred.toNat := by
          rw [List.length_append, hlen, hcount]
        exact ih _ _ s1 s' as' h1 ((append_prefix_iff hp).mpr hslice) hlonger
          (.inl (List.length_append ..).symm) hrest htail
      · rw [answeredBlock, if_neg (mt hcode.mp hzero), List.nil_append]
        rw [if_neg hzero, Nat.add_zero] at hcount
        exact ih p _ s1 s' as' h1 hp (hlen.trans hcount.symm)
          (.inr fun y hy => hfirst y hy ((rejects_iff hcomes).mpr hzero)) hrest htail

/-- The first element that meets a condition. -/
theorem exists_first {β : Type*} {p : β → Prop} {l : List β} (h : ∃ x ∈ l, p x) :
    ∃ mid y post, l = mid ++ y :: post ∧ p y ∧ ∀ z ∈ mid, ¬ p z := by
  classical
  have hsome : (l.find? (p ·)).isSome := by simpa using h
  obtain ⟨y, hy⟩ := Option.isSome_iff_exists.mp hsome
  obtain ⟨hp, mid, post, hsplit, hmid⟩ := List.find?_eq_some_iff_append.mp hy
  exact ⟨mid, y, post, hsplit, by simpa using hp, by simpa using hmid⟩

theorem HandedAgain.tail {x : Answered cfg σ} {run : List (Answered cfg σ)}
    (h : HandedAgain view (x :: run)) : HandedAgain view run := by
  intro pre y mid z post heq
  exact h (x :: pre) y mid z post (by rw [heq, List.cons_append])

/-- **Handed over again** from the place it was rejected at, which the
position has left: then no block is accepted behind a rejected one. -/
theorem HandedAgain.pairwise (hreads : P.FileReads view) :
    ∀ (reqs : List TransferDataArgs) (pos : ℕ) (s s' : System cfg.wordBits σ) (as : List Answer),
      ReadAt view path d pos s →
      runs (step cfg P) s (reqs.map Event.transferData) = some (as, s') →
      HandedAgain view ((steps cfg P s reqs).zip as) →
      (steps cfg P s reqs).Pairwise (fun x y => Rejects cfg P x → ¬ Accepts cfg P y) := by
  intro reqs
  induction reqs with
  | nil => exact fun _ _ _ _ _ _ _ => .nil
  | cons r reqs ih =>
    intro pos s s' as h hrun hagain
    rw [List.map_cons, runs_cons_eq_some] at hrun
    obtain ⟨a, s1, as', hstep, hrest, rfl⟩ := hrun
    obtain ⟨a', s1', hstep', hout⟩ := readAt_step hreads h r
    rw [hstep, Option.some.injEq, Prod.mk.injEq] at hstep'
    obtain ⟨rfl, rfl⟩ := hstep'
    rw [steps_cons reqs hstep] at hagain ⊢
    obtain ⟨pos', -, hmoved, h1⟩ := hout.exists_readAt
    refine List.pairwise_cons.mpr ⟨?_, ih pos' s1 s' as' h1 hrest hagain.tail⟩
    intro y hy hrejects haccepts
    have hsteps := mem_steps hreads reqs pos' s1 s' as' h1 hrest
    -- the first block accepted behind the rejected one
    have hlater : ∃ x ∈ (steps cfg P s1 reqs).zip as', Accepts cfg P x.1 := by
      have hlength : (steps cfg P s1 reqs).length = as'.length := length_history hrest
      rw [← List.map_fst_zip hlength.le] at hy
      obtain ⟨x, hx, rfl⟩ := List.mem_map.mp hy
      exact ⟨x, hx, haccepts⟩
    obtain ⟨mid, x, post, hsplit, hx, hmid⟩ := exists_first hlater
    have hmem : ∀ z ∈ mid ++ x :: post, z ∈ (steps cfg P s1 reqs).zip as' :=
      fun z hz => hsplit ▸ hz
    obtain ⟨hanswer, -, pos'', hle, hhandle⟩ := hsteps x (hmem x (by simp))
    have hsame := hagain [] ((s, .transferData r), a) mid x post
      (by rw [List.zip_cons_cons, hsplit, List.nil_append])
      (hout.rejects_iff.mp hrejects) (hanswer.mp hx)
      fun z hz => mt (hsteps z (hmem z (List.mem_append_left _ hz))).1.mpr (hmid z hz)
    rw [hhandle, h.position.handle, Option.some.injEq, Prod.mk.injEq] at hsame
    have := hmoved hrejects
    omega

/-- **An accepted request to read** opens the file at its first byte. -/
theorem step_requestRead_at (hlaw : P.FileLawful view) (hexc : Exclusive cfg s)
    {args : RequestFileTransferArgs cfg.wordBits} (hmode : args.modeOfOperation = .rdFile)
    (hpath : filePath? args = some path) (hfile : (view s.world).contents path = some d)
    {a : Answer} (hreq : step cfg P s (.requestFileTransfer args) = some (a, s'))
    (hok : a.code = .ok) :
    ReadAt view path d 0 s' ∧ s'.file.transferred = 0 := by
  obtain ⟨s1, hidle, hworld, hstart⟩ := exists_start_of_ok hexc rfl hreq hok
  have hfile1 : (view s1.world).contents path = some d := by
    rw [hworld, closedWorld]
    split_ifs
    · rw [hlaw.close, hfile]
    · exact hfile
  rw [start] at hstart
  by_cases hcfg : cfg.fileTransfer = true
  · rw [if_pos hcfg, udsFileTransferRequest_eq, hpath, hmode] at hstart
    simp only [udsFileTransferBeginRead] at hstart
    split at hstart
    · rw [Prod.mk.injEq] at hstart
      rw [← hstart.1] at hok
      exact absurd hok (fsErrorToNrc_ne_ok _)
    · next hopen =>
      split at hstart
      · rw [Prod.mk.injEq] at hstart
        rw [← hstart.1] at hok
        exact absurd hok (fsErrorToNrc_ne_ok _)
      · split at hstart
        · rw [Prod.mk.injEq] at hstart
          rw [← hstart.1] at hok
          exact absurd hok (by dsimp only; decide)
        · rw [Prod.mk.injEq] at hstart
          obtain ⟨-, rfl⟩ := hstart
          refine ⟨⟨hcfg, rfl, by simp [BitVec.le_def], ?_⟩, rfl⟩
          have hview := hlaw.open_read path (P.fsFileTInit s1.world) (not_lt.mp hopen)
          show (view (P.fsStat path _).2).At path d 0
          rw [hlaw.stat_keeps, hview]
          exact Files.at_openRead (by rw [hlaw.init, hfile1])
  · rw [if_neg hcfg, Prod.mk.injEq] at hstart
    rw [← hstart.1] at hok
    exact absurd hok (by dsimp only; decide)

/-- **A file is handed over in order exactly where no block is accepted
behind a rejected one.** From any reachable state, after an accepted
request to read the file `d`, whatever the reads and the copies of the run
come to. -/
theorem handedInOrder_iff (hlaw : P.FileLawful view) (hreads : P.FileReads view)
    {s0 s1 s2 : System cfg.wordBits σ} (hreach : (machine cfg P).Reachable s0) (world : σ)
    {args : RequestFileTransferArgs cfg.wordBits} (hmode : args.modeOfOperation = .rdFile)
    (hpath : filePath? args = some path) (hfile : (view world).contents path = some d)
    {a : Answer}
    (hreq : step cfg P { s0 with world := world } (.requestFileTransfer args) = some (a, s1))
    (hok : a.code = .ok) (reqs : List TransferDataArgs) {as : List Answer}
    (hrun : runs (step cfg P) s1 (reqs.map .transferData) = some (as, s2)) :
    HandedInOrder view d ((steps cfg P s1 reqs).zip as) ↔
      (steps cfg P s1 reqs).Pairwise fun x y => Rejects cfg P x → ¬ Accepts cfg P y := by
  have hexc : Exclusive cfg { s0 with world := world } :=
    (exclusive_of_reachable hreach).congr rfl rfl rfl
  obtain ⟨h1, hzero⟩ := step_requestRead_at hlaw hexc hmode hpath hfile hreq hok
  have hlength : (steps cfg P s1 reqs).length = as.length := length_history hrun
  constructor
  · exact fun h => h.again.pairwise hreads reqs 0 s1 s2 as h1 hrun
  · intro hpairwise
    refine ⟨?_, fun pre x mid y post hsplit hrefused hcode _ => ?_⟩
    · rw [List.map_snd_zip hlength.ge]
      have hpart := part_of_pairwise hreads reqs [] 0 s1 s2 as h1 List.nil_prefix
        (by simp [hzero]) (.inl rfl) hrun hpairwise
      rwa [List.nil_append] at hpart
    · -- no positive answer comes behind a rejected block
      have hsteps := mem_steps hreads reqs 0 s1 s2 as h1 hrun
      rw [← List.map_fst_zip hlength.le, hsplit, List.pairwise_map] at hpairwise
      have hbehind := List.pairwise_cons.mp (List.pairwise_append.mp hpairwise).2.1
      have hx := (hsteps x (by rw [hsplit]; simp)).2.1.mpr hrefused
      have hy := (hsteps y (by rw [hsplit]; simp)).1.mpr hcode
      exact absurd hy (hbehind.1 y (by simp) hx)

end FileRead

theorem fileSimulator_fileReads (accepts : ℕ → ℕ → ℕ) :
    (fileSimulator accepts).FileReads id where
  returns n t bytes h := by
    cases hh : t.handle with
    | none =>
      simp only [fileSimulator, hh] at h
      cases h
    | some h' =>
      simp only [fileSimulator, hh, Except.ok.injEq] at h
      exact ⟨n, le_rfl, h.symm, by simp only [fileSimulator, hh, id]⟩
  fails n t e h := by
    cases hh : t.handle with
    | none => simp only [fileSimulator, hh]
    | some h' =>
      simp only [fileSimulator, hh] at h
      cases h

/-- One file, of two bytes. -/
def twoByteFile : Files (List UInt8) UInt8 :=
  ⟨fun path => if path = [0x61] then some [1, 2] else none, none⟩

/-- The request to read it. -/
def readFile : RequestFileTransferArgs 32 := ⟨.rdFile, some [0x61], 0, 0⟩

/-- A request for one byte, with the status its copy returns. -/
def oneByte (status : UInt8) : TransferDataArgs := ⟨[], Nat.two_pow_pos 16, 1, some fun _ => status⟩

/-- The first byte is taken and the copy of the second is rejected, at the
end of the run. -/
theorem handedInOrder_iff_lastRejected :
    ∃ (s1 s2 : System 32 (Files (List UInt8) UInt8)) (a : Answer) (as : List Answer),
      step fileConfig (fileSimulator allBytes) (System.initial twoByteFile)
          (.requestFileTransfer readFile) = some (a, s1) ∧
        runs (step fileConfig (fileSimulator allBytes)) s1
          ([oneByte 0, oneByte 0x72].map .transferData) = some (as, s2) ∧
        HandedInOrder id [1, 2]
          ((steps fileConfig (fileSimulator allBytes) s1 [oneByte 0, oneByte 0x72]).zip as) := by
  refine ⟨_, _, _, _, rfl, rfl, ?_⟩
  refine (@handedInOrder_iff fileConfig _ _ _ [0x61] _ (fileSimulator_fileLawful allBytes)
    (fileSimulator_fileReads allBytes) (System.initial twoByteFile) _ _ (.init ⟨twoByteFile, rfl⟩)
    twoByteFile readFile rfl rfl rfl _ rfl rfl [oneByte 0, oneByte 0x72] _ rfl).mpr ?_
  refine List.pairwise_pair.mpr ?_
  rintro ⟨copy, bytes, ⟨r, hr, hcopy, -⟩, hne⟩
  cases hr
  cases hcopy
  exact absurd rfl hne

/-- The first byte is rejected and then the next is handed over. -/
theorem not_handedInOrder_skipped :
    ∃ (s0 s1 s2 : System 32 (Files (List UInt8) UInt8)) (a : Answer) (as : List Answer),
      (machine fileConfig (fileSimulator allBytes)).Reachable s0 ∧
        (s0.world).contents [0x61] = some [1, 2] ∧
        step fileConfig (fileSimulator allBytes) s0 (.requestFileTransfer readFile) =
          some (a, s1) ∧
        a.code = .ok ∧
        runs (step fileConfig (fileSimulator allBytes)) s1
          ([oneByte 0x72, oneByte 0].map .transferData) = some (as, s2) ∧
        answeredBytes as = [2] ∧
        ¬ HandedInOrder id [1, 2]
          ((steps fileConfig (fileSimulator allBytes) s1 [oneByte 0x72, oneByte 0]).zip as) := by
  refine ⟨System.initial twoByteFile, _, _, _, _, .init ⟨twoByteFile, rfl⟩, rfl, rfl, rfl, rfl,
    by decide, fun h => ?_⟩
  exact absurd h.part (by decide)

end Transfer

end Uds

end Ardep
