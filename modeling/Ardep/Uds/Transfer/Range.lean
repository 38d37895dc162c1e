import Ardep.Common.WordRange
import Ardep.Uds.Transfer.RoundTrip
/-!
# Transfer — the range a flash request names

A request may name its range from the start of the flash or from the
flash's base address; `normalizeAddress` folds the two into one, and the
end of the range is compared with the size of the flash. Both are word
arithmetic. `accepted_iff` is what a flash request has to meet to be
accepted, with the comparison as it computes.

The comparison means what it says while the sum does not wrap
(`lies_in_flash_iff`), and the two conventions agree past the first byte
(`outcome_absolute_iff`).
-/

namespace Ardep

namespace Uds

namespace Transfer

variable {cfg : Config} {σ : Type} {P : Platform cfg.wordBits σ}
variable {s s' : System cfg.wordBits σ}

/-- A request to transfer a range of the flash, in either direction. -/
inductive FlashRequest (w : ℕ)
  | download (args : RequestDownloadArgs w)
  | upload (args : RequestUploadArgs w)

namespace FlashRequest

variable {w : ℕ}

/-- The event it arrives as. -/
def event : FlashRequest w → Event w
  | .download args => .requestDownload args
  | .upload args => .requestUpload args

def addr : FlashRequest w → BitVec w
  | .download args => args.addr
  | .upload args => args.addr

def size : FlashRequest w → BitVec w
  | .download args => args.size
  | .upload args => args.size

/-- The same request for another address. -/
def withAddr (a : BitVec w) : FlashRequest w → FlashRequest w
  | .download args => .download { args with addr := a }
  | .upload args => .upload { args with addr := a }

@[simp] theorem size_withAddr (a : BitVec w) (q : FlashRequest w) :
    (q.withAddr a).size = q.size := by cases q <;> rfl

@[simp] theorem addr_withAddr (a : BitVec w) (q : FlashRequest w) :
    (q.withAddr a).addr = a := by cases q <;> rfl

theorem isStart_event (q : FlashRequest w) : q.event.isStart = true := by cases q <;> rfl

/-- A download names the one data format there is; an upload names none. -/
def PlainData : FlashRequest w → Prop
  | .download args => args.dataFormatIdentifier = 0x00
  | .upload _ => True

/-- A download fits the write block buffer; an upload needs none. -/
def BlockFits {σ : Type} (P : Platform w σ) : FlashRequest w → Prop
  | .download _ => P.flashWriteBlockSize ≤ maximumFlashWriteBlockSize
  | .upload _ => True

end FlashRequest

/-! ## Accepted requests -/

/-- The request is answered positively. -/
def Accepted (cfg : Config) {σ : Type} (P : Platform cfg.wordBits σ) (s : System cfg.wordBits σ)
    (q : FlashRequest cfg.wordBits) : Prop :=
  ∃ a s', step cfg P s q.event = some (a, s') ∧ a.code = .ok

/-- **What a request needs besides its range**: no file write left
incomplete, a flash that is ready, something to transfer, and for a
download plain data and a write block that fits. -/
structure Admissible (P : Platform cfg.wordBits σ) (s : System cfg.wordBits σ)
    (q : FlashRequest cfg.wordBits) : Prop where
  complete : ¬ Incomplete s
  ready : P.flashReady (closedWorld P s) = true
  size : q.size ≠ 0
  plain : q.PlainData
  block : q.BlockFits P

/-- From idle, what a flash request is accepted for. -/
theorem start_code_iff (hidle : BothIdle s) (q : FlashRequest cfg.wordBits) :
    (start cfg P q.event s).1.code = .ok ↔
      P.flashReady s.world = true ∧ q.size ≠ 0 ∧ q.PlainData ∧ q.BlockFits P ∧
        normalizeAddress cfg q.addr + q.size ≤ cfg.flashMaxSize := by
  rw [← BitVec.not_lt]
  cases q with
  | download args =>
    simp only [FlashRequest.event, start, startDownload, FlashRequest.size, FlashRequest.addr,
      FlashRequest.PlainData, FlashRequest.BlockFits]
    split_ifs <;> simp_all
  | upload args =>
    simp only [FlashRequest.event, start, startUpload, FlashRequest.size, FlashRequest.addr,
      FlashRequest.PlainData, FlashRequest.BlockFits, hidle.updown]
    split_ifs <;> simp_all

/-- **When a flash request is accepted.** Its range ends in the flash as
the word arithmetic has it, and nothing else is in its way. -/
theorem accepted_iff (hexc : Exclusive cfg s) (q : FlashRequest cfg.wordBits) :
    Accepted cfg P s q ↔
      Admissible P s q ∧ normalizeAddress cfg q.addr + q.size ≤ cfg.flashMaxSize := by
  obtain ⟨s1, hidle, hworld, hstep⟩ := exists_start (P := P) hexc
  have hcode := start_code_iff (P := P) hidle q
  rw [hworld] at hcode
  rw [Accepted, step, hstep q.event q.isStart_event]
  by_cases hi : Incomplete s
  · rw [if_pos hi]
    refine ⟨?_, fun h => absurd hi h.1.complete⟩
    rintro ⟨a, s', hsome, hok⟩
    rw [Option.some.injEq, Prod.mk.injEq] at hsome
    rw [← hsome.1] at hok
    exact absurd hok (by dsimp only; decide)
  · rw [if_neg hi]
    constructor
    · rintro ⟨a, s', hsome, hok⟩
      rw [Option.some.injEq] at hsome
      obtain ⟨hready, hsize, hplain, hblock, hrange⟩ := hcode.mp (by rw [hsome]; exact hok)
      exact ⟨⟨hi, hready, hsize, hplain, hblock⟩, hrange⟩
    · rintro ⟨hadm, hrange⟩
      exact ⟨_, _, rfl, hcode.mpr ⟨hadm.ready, hadm.size, hadm.plain, hadm.block, hrange⟩⟩

/-! ## The end of the range -/

/-- **An accepted range lies in the flash**, but for one that wraps to an
end inside it. In every reachable state and over any state of the
platform, a flash request is accepted only for a range that lies in the
flash as numbers, if and only if it is not one that is admissible and
whose end is that far past the last address. -/
theorem lies_in_flash_iff (h : (machine cfg P).Reachable s) (world : σ)
    (q : FlashRequest cfg.wordBits) :
    (Accepted cfg P { s with world := world } q →
      (normalizeAddress cfg q.addr).toNat + q.size.toNat ≤ cfg.flashMaxSize.toNat) ↔
    ¬ (Admissible P { s with world := world } q ∧
      2 ^ cfg.wordBits ≤ (normalizeAddress cfg q.addr).toNat + q.size.toNat ∧
      (normalizeAddress cfg q.addr).toNat + q.size.toNat - 2 ^ cfg.wordBits ≤
        cfg.flashMaxSize.toNat) := by
  have hexc : Exclusive cfg { s with world := world } :=
    (exclusive_of_reachable h).congr rfl rfl rfl
  have hmax := cfg.flashMaxSize.isLt
  -- the word sum is in the flash if the range is, or if it wraps that far
  rw [accepted_iff hexc, add_le_iff]
  constructor
  · rintro hin ⟨hadm, hwrap, hend⟩
    have := hin ⟨hadm, .inr ⟨hwrap, hend⟩⟩
    omega
  · rintro hno ⟨hadm, hin | hwrap⟩
    · exact hin
    · exact absurd ⟨hadm, hwrap⟩ hno

/-- A build for a flash of 512 KiB mapped at `0x08000000`, no file
transfer. -/
def mappedConfig : Config :=
  { simulatorConfig with flashBaseAddress := 0x08000000, flashMaxSize := 0x80000 }

/-- An upload whose range ends sixteen bytes past the last address. -/
def wrappingUpload : FlashRequest 32 := .upload ⟨0xFFFFFFFF, 0x08000011, 0⟩

/-- At the start, where nothing ran before. -/
theorem lies_in_flash_iff_first :
    (Accepted mappedConfig (flashSimulator 64) (System.initial fun _ => 0xFF)
        (.upload ⟨0x08000010, 16, 0⟩) → 16 + 16 ≤ 0x80000) ↔
      ¬ (@Admissible mappedConfig _ (flashSimulator 64) (System.initial fun _ => 0xFF)
          (.upload ⟨0x08000010, 16, 0⟩) ∧ 2 ^ 32 ≤ 16 + 16 ∧ 16 + 16 - 2 ^ 32 ≤ 0x80000) :=
  @lies_in_flash_iff mappedConfig _ (flashSimulator 64) _ (.init ⟨fun _ => 0xFF, rfl⟩)
    (fun _ => 0xFF) (.upload ⟨0x08000010, 16, 0⟩)

/-- That upload is accepted, and its range is not in the flash. -/
theorem accepted_wrappingUpload :
    mappedConfig.flashBaseAddress.toNat + mappedConfig.flashMaxSize.toNat < 2 ^ 32 ∧
      ∃ s, (machine mappedConfig (flashSimulator 64)).Reachable s ∧
        Accepted mappedConfig (flashSimulator 64) s wrappingUpload ∧
        ¬ (normalizeAddress mappedConfig wrappingUpload.addr).toNat + wrappingUpload.size.toNat ≤
          mappedConfig.flashMaxSize.toNat := by
  refine ⟨by decide, System.initial fun _ => 0xFF, .init ⟨fun _ => 0xFF, rfl⟩, ?_, by decide⟩
  exact ⟨_, _, rfl, rfl⟩

/-! ## Two ways to name an address -/

/-- The answer to an event, and the transfer state it leads to. -/
def outcome (cfg : Config) {σ : Type} (P : Platform cfg.wordBits σ) (s : System cfg.wordBits σ)
    (e : Event cfg.wordBits) :
    Option (Answer × UploadDownloadState cfg.wordBits × FileTransferState cfg.wordBits) :=
  (step cfg P s e).map fun r => (r.1, r.2.updown, r.2.file)

/-- A start looks at the normalised address only. -/
theorem start_withAddr {a b : BitVec cfg.wordBits}
    (h : normalizeAddress cfg a = normalizeAddress cfg b) (q : FlashRequest cfg.wordBits) :
    start cfg P (q.withAddr a).event s = start cfg P (q.withAddr b).event s := by
  cases q with
  | download args =>
    simp only [FlashRequest.withAddr, FlashRequest.event, start, startDownload, h]
  | upload args => simp only [FlashRequest.withAddr, FlashRequest.event, start, startUpload, h]

/-- An address in the flash, from its base address, is normalised to its
offset, but for the base address itself. -/
theorem normalizeAddress_absolute {a : BitVec cfg.wordBits} {o : ℕ}
    (ha : a.toNat = cfg.flashBaseAddress.toNat + o) (ho : o ≠ 0) :
    (normalizeAddress cfg a).toNat = o := by
  have hlt : cfg.flashBaseAddress < a := by
    rw [BitVec.lt_def]
    omega
  rw [normalizeAddress, if_pos hlt, BitVec.toNat_sub_of_le (BitVec.le_of_lt hlt)]
  omega

/-- An address no larger than the base address is left as it is. -/
theorem normalizeAddress_of_le {a : BitVec cfg.wordBits}
    (ha : a.toNat ≤ cfg.flashBaseAddress.toNat) : normalizeAddress cfg a = a := by
  rw [normalizeAddress, if_neg]
  rw [BitVec.lt_def]
  omega

/-- **Where only the range decides**: out of it the request is refused as
such, in it the transfer starts at the normalised address. -/
theorem start_of_range (hidle : BothIdle s) {q : FlashRequest cfg.wordBits}
    (hready : P.flashReady s.world = true) (hsize : q.size ≠ 0) (hplain : q.PlainData) :
    (cfg.flashMaxSize < normalizeAddress cfg q.addr + q.size ∧
      (start cfg P q.event s).1.code = .requestOutOfRange) ∨
    (¬ cfg.flashMaxSize < normalizeAddress cfg q.addr + q.size ∧
      (start cfg P q.event s).1.code ≠ .requestOutOfRange ∧
      (start cfg P q.event s).2.updown.startAddress = normalizeAddress cfg q.addr) := by
  cases q with
  | download args =>
    simp only [FlashRequest.size, FlashRequest.PlainData] at hsize hplain
    simp only [FlashRequest.event, start, startDownload, FlashRequest.size, FlashRequest.addr,
      hready, hsize, hplain]
    split_ifs <;> simp_all
  | upload args =>
    simp only [FlashRequest.size] at hsize
    simp only [FlashRequest.event, start, startUpload, FlashRequest.size, FlashRequest.addr,
      hready, hsize, hidle.updown]
    split_ifs <;> simp_all

/-- **Refused before the range is looked at**, or for the data format after
it: an address makes no difference. -/
theorem start_of_refused (hidle : BothIdle s) {q q' : FlashRequest cfg.wordBits}
    (hsame : ∃ a, q' = q.withAddr a)
    (h : P.flashReady s.world = false ∨ ¬ q.PlainData) :
    start cfg P q.event s = start cfg P q'.event s := by
  obtain ⟨a, rfl⟩ := hsame
  cases q with
  | download args =>
    simp only [FlashRequest.PlainData] at h
    simp only [FlashRequest.withAddr, FlashRequest.event, start, startDownload]
    rcases h with hready | hformat
    · rw [if_pos hready, if_pos hready]
    · split_ifs <;> rfl
  | upload args =>
    have hready : P.flashReady s.world = false := h.resolve_right (not_not.mpr trivial)
    simp only [FlashRequest.withAddr, FlashRequest.event, start, startUpload, hidle.updown, hready,
      ne_eq, not_true_eq_false, if_false, if_true]

/-- **The base address and offset zero part**, where only the range decides:
the base address is left as it is, and so is out of the flash or the start
of another transfer. -/
theorem start_base_ne (hlayout : cfg.flashMaxSize ≤ cfg.flashBaseAddress) (hidle : BothIdle s)
    {q : FlashRequest cfg.wordBits} (hsize : 0 < q.size.toNat)
    (hin : q.size.toNat ≤ cfg.flashMaxSize.toNat) (hready : P.flashReady s.world = true)
    (hplain : q.PlainData) :
    (start cfg P (q.withAddr cfg.flashBaseAddress).event s).1 ≠
        (start cfg P (q.withAddr 0).event s).1 ∨
      (start cfg P (q.withAddr cfg.flashBaseAddress).event s).2.updown ≠
        (start cfg P (q.withAddr 0).event s).2.updown := by
  have hlayout := BitVec.le_def.mp hlayout
  have hne : q.size ≠ 0 := fun hzero => by simp [hzero] at hsize
  have hplainAt : ∀ a, (q.withAddr a).PlainData := fun a => by cases q <;> exact hplain
  have hbase : normalizeAddress cfg cfg.flashBaseAddress = cfg.flashBaseAddress :=
    normalizeAddress_of_le le_rfl
  have hzero : normalizeAddress cfg 0 = 0 := normalizeAddress_of_le (by simp)
  -- the relative request is in range
  obtain ⟨hout, -⟩ | ⟨-, hcode, hstart⟩ := start_of_range (P := P) (q := q.withAddr 0) hidle hready
    (by rwa [FlashRequest.size_withAddr]) (hplainAt 0)
  · rw [FlashRequest.addr_withAddr, FlashRequest.size_withAddr, hzero, zero_add,
      BitVec.lt_def] at hout
    omega
  · rw [FlashRequest.addr_withAddr, hzero] at hstart
    obtain ⟨-, hrefused⟩ | ⟨-, -, habs⟩ := start_of_range (P := P)
      (q := q.withAddr cfg.flashBaseAddress) hidle hready (by rwa [FlashRequest.size_withAddr])
      (hplainAt _)
    · left
      intro heq
      rw [heq] at hrefused
      exact hcode hrefused
    · right
      intro heq
      rw [heq, hstart, FlashRequest.addr_withAddr, hbase] at habs
      rw [← habs] at hlayout
      simp at hlayout
      omega

/-- **Either way to name an address**, but for the first byte. Where the
flash is no larger than its base address, a request for a range of it
comes to the same outcome under the absolute and under the relative
address, in every reachable state and over any state of the platform, if
and only if the range does not start at the first byte or the request is
refused whatever its address: for an incomplete file write, a flash that
is not ready, or a data format. -/
theorem outcome_absolute_iff (hlayout : cfg.flashMaxSize ≤ cfg.flashBaseAddress)
    (h : (machine cfg P).Reachable s) (world : σ) (q : FlashRequest cfg.wordBits)
    {absolute relative : BitVec cfg.wordBits} {o : ℕ}
    (habs : absolute.toNat = cfg.flashBaseAddress.toNat + o) (hrel : relative.toNat = o)
    (hsize : 0 < q.size.toNat) (hin : o + q.size.toNat ≤ cfg.flashMaxSize.toNat) :
    outcome cfg P { s with world := world } (q.withAddr absolute).event =
        outcome cfg P { s with world := world } (q.withAddr relative).event ↔
      o ≠ 0 ∨ Incomplete { s with world := world } ∨
        P.flashReady (closedWorld P { s with world := world }) = false ∨ ¬ q.PlainData := by
  have hexc : Exclusive cfg { s with world := world } :=
    (exclusive_of_reachable h).congr rfl rfl rfl
  obtain ⟨s1, hidle, hworld, hstep⟩ := exists_start (P := P) hexc
  rw [outcome, outcome, step, step, hstep _ (FlashRequest.isStart_event _),
    hstep _ (FlashRequest.isStart_event _), ← hworld]
  by_cases hi : Incomplete { s with world := world }
  · rw [if_pos hi, if_pos hi]
    exact iff_of_true rfl (.inr (.inl hi))
  · rw [if_neg hi, if_neg hi]
    by_cases ho : o = 0
    · -- the first byte: nothing is taken off the base address
      subst ho
      have habs0 : absolute = cfg.flashBaseAddress := BitVec.eq_of_toNat_eq habs
      have hrel0 : relative = 0 := BitVec.eq_of_toNat_eq (by simpa using hrel)
      rw [habs0, hrel0]
      constructor
      · intro heq
        by_contra hno
        simp only [not_or, not_not, Bool.not_eq_false] at hno
        simp only [Option.map_some, Option.some.injEq, Prod.mk.injEq] at heq
        rcases start_base_ne (P := P) hlayout hidle hsize (by omega) hno.2.2.1 hno.2.2.2 with
          hans | hup
        · exact hans heq.1
        · exact hup heq.2.1
      · rintro (hne | hinc | hrefused)
        · exact absurd rfl hne
        · exact absurd hinc hi
        · have hq : ∃ a, q.withAddr 0 = (q.withAddr cfg.flashBaseAddress).withAddr a :=
            ⟨0, by cases q <;> rfl⟩
          rw [start_of_refused hidle hq (hrefused.imp_right fun hp => by cases q <;> exact hp)]
    · -- any other byte: both addresses are normalised to the offset
      have hlayout := BitVec.le_def.mp hlayout
      have hnorm : normalizeAddress cfg absolute = normalizeAddress cfg relative := by
        refine BitVec.eq_of_toNat_eq ?_
        rw [normalizeAddress_absolute habs ho, normalizeAddress_of_le (by omega), hrel]
      rw [start_withAddr hnorm]
      exact iff_of_true rfl (.inl ho)

/-- The second byte of the flash, by either address. -/
theorem outcome_absolute_iff_second :
    outcome mappedConfig (flashSimulator 64) (System.initial fun _ => 0xFF)
        ((FlashRequest.upload ⟨0, 16, 100⟩).withAddr 0x08000001).event =
      outcome mappedConfig (flashSimulator 64) (System.initial fun _ => 0xFF)
        ((FlashRequest.upload ⟨0, 16, 100⟩).withAddr 0x00000001).event :=
  (@outcome_absolute_iff mappedConfig _ (flashSimulator 64) _ (by decide)
    (.init ⟨fun _ => 0xFF, rfl⟩) (fun _ => 0xFF) (.upload ⟨0, 16, 100⟩) _ _ 1 (by decide)
    (by decide) (by decide) (by decide)).mpr (.inl (by decide))

/-- The first byte: by its absolute address it is refused. -/
theorem outcome_base :
    mappedConfig.flashMaxSize ≤ mappedConfig.flashBaseAddress ∧
      ∃ s, (machine mappedConfig (flashSimulator 64)).Reachable s ∧
        outcome mappedConfig (flashSimulator 64) s
            ((FlashRequest.upload ⟨0, 16, 100⟩).withAddr 0x08000000).event ≠
          outcome mappedConfig (flashSimulator 64) s
            ((FlashRequest.upload ⟨0, 16, 100⟩).withAddr 0x00000000).event := by
  refine ⟨by decide, System.initial fun _ => 0xFF, .init ⟨fun _ => 0xFF, rfl⟩, ?_⟩
  decide

end Transfer

end Uds

end Ardep
