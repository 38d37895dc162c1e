import Ardep.Common.Slices
import Ardep.Legacy.Server
/-!
# The legacy UDS server — transferring an image

After the erase routine the blocks of an image arrive one by one, each
with a counter. The server writes a block whose counter is the next one
and answers a repeated counter without writing, so that a client which
missed the answer can send the block again.

`block_id` is the counter of the last block written only as long as
nothing went wrong: a refused counter advances it too, and so does a
failed write. `Standing` keeps the two apart, the block written last and
how far `block_id` has run from it (`stands`); `backed_iff` says which
positive answers are then given for blocks that are nowhere. The client of
`uds_dfu.py` provokes none of this: over a channel that loses requests and
responses, whatever it completes has been written once and in order
(`written_writeImage`).
-/

namespace Ardep

namespace Legacy

variable {p : Protocol} {rx data : List UInt8} {ret : ℤ} {s s' : State} {m : Message}
  {past : List (State × Message)} {handled : Handled}

/-! ## Blocks that are answered positively -/

/-- The call wrote a payload, successfully. -/
def Call.succeeded : Call → Bool
  | .flashImgBufferedWrite _ _ ret => ret = 0
  | _ => false

/-- The counter of the block a message had written, if it did. -/
def wrote (s : State) (m : Message) : Option UInt8 :=
  if (s.handle m).calls.any Call.succeeded then some (m.data.getD 1 0) else none

/-- **The counter of the last block that was written successfully.** -/
def lastWritten (past : List (State × Message)) : Option UInt8 :=
  past.reverse.findSome? fun x => wrote x.1 x.2

/-- **The server after a successful erase routine**, receiving TransferData
requests. -/
def afterErase : Machine State Message where
  init s := ∃ past t m handled, server.Run past t ∧ step t m = some (handled, s) ∧
    .flashImgInit 0 ∈ handled.calls
  Step s m s' := m.data.getD 0 0 = transferData ∧ server.Step s m s'

/-- **A positive answer is backed by a block**: the payload was written by
this request, or the counter is that of the last one written. -/
def Backed (past : List (State × Message)) (s : State) (m : Message) : Prop :=
  ∀ handled s', step s m = some (handled, s') → (∃ b, sendTransferDataResponse b ∈ handled.sent) →
    .flashImgBufferedWrite (m.data.drop 2) false 0 ∈ handled.calls ∨
      lastWritten past = some (m.data.getD 1 0)

/-- A request is handled as TransferData by its own bytes. -/
theorem handle_transferData (h : m.data.getD 0 0 = transferData) :
    s.handle m = handleTransferData s.protocol m.data m.data.length m.ret := by
  have hne : m.data ≠ [] := by
    rintro heq
    rw [heq] at h
    exact absurd h (by decide)
  have hhalf : m.data ≠ halfRoutineId := by
    rintro heq
    rw [heq] at h
    exact absurd h (by decide)
  unfold State.handle
  rw [handleMessage_receive hne hhalf]
  unfold handleMessage
  simp only [h]
  rfl

/-- A negative response is no positive one. -/
theorem negative_ne_positive {sid nrc b : UInt8} :
    sendTransferDataResponse b ∉ [sendNegativeResponse sid nrc] := by
  rw [List.mem_singleton]
  intro h
  exact absurd (List.cons.inj h).1 (by decide)

/-- No other handler calls `flash_img_init`: a block is written by one -/
theorem flashImgInit_notMem_transferData {len : ℕ} {r : ℤ} :
    .flashImgInit r ∉ (handleTransferData p rx len ret).calls := by
  simp only [handleTransferData]
  split_ifs <;> simp [answer]

/-- and flushed by another, -/
theorem flashImgInit_notMem_transferExit {r : ℤ} :
    .flashImgInit r ∉ (handleTransferExit p ret).calls := by
  simp only [handleTransferExit]
  split_ifs <;> simp [answer]

/-- and most call nothing. -/
theorem calls_sessionControl {len : ℕ} : (handleSessionControl p rx len).calls = [] := by
  simp only [handleSessionControl]
  split_ifs <;> rfl

theorem calls_ecuReset {len : ℕ} : (handleEcuReset p rx len).calls = [] := by
  unfold handleEcuReset
  split_ifs <;> rfl

theorem calls_requestDownload {len : ℕ} : (handleRequestDownload p len).calls = [] := by
  unfold handleRequestDownload
  split_ifs <;> rfl

/-- **The erase routine opens the context** and sets the counter back. -/
theorem opened_of_flashImgInit {len : ℕ}
    (h : .flashImgInit 0 ∈ (handleMessage p rx len ret).calls) :
    (handleMessage p rx len ret).protocol.flashContextInitialized = true ∧
      (handleMessage p rx len ret).protocol.blockId = 0xFF ∧
        (handleMessage p rx len ret).after = .receive := by
  revert h
  simp only [handleMessage]
  split_ifs
  · rw [calls_sessionControl]
    exact fun h => absurd h List.not_mem_nil
  · rw [calls_ecuReset]
    exact fun h => absurd h List.not_mem_nil
  · unfold handleRoutineControl
    split_ifs
    · exact fun h => absurd h List.not_mem_nil
    · exact fun h => absurd h List.not_mem_nil
    · intro h
      unfold handleEraseRoutine at h ⊢
      split_ifs at h ⊢ with hret
      · have hzero := Call.flashImgInit.inj (List.mem_singleton.mp h)
        exact absurd hzero.symm hret
      · exact ⟨rfl, rfl, rfl⟩
    · intro h
      exact absurd (List.mem_singleton.mp h) (by simp)
    · exact fun h => absurd h List.not_mem_nil
  · rw [calls_requestDownload]
    exact fun h => absurd h List.not_mem_nil
  · exact fun h => absurd h flashImgInit_notMem_transferData
  · exact fun h => absurd h flashImgInit_notMem_transferExit
  · exact fun h => absurd h List.not_mem_nil

/-- The context stays open: no TransferData closes it. -/
theorem initialized_transferData {len : ℕ} :
    (handleTransferData p rx len ret).protocol.flashContextInitialized =
      p.flashContextInitialized := by
  simp only [handleTransferData]
  split_ifs <;> rfl

theorem after_transferData {len : ℕ} : (handleTransferData p rx len ret).after = .receive := by
  simp only [handleTransferData]
  split_ifs <;> rfl

/-- The state a round leaves, where the loop goes on. -/
theorem protocol_of_step (h : step s m = some (handled, s'))
    (hafter : (s.handle m).after = .receive) :
    s'.protocol = (s.handle m).protocol := by
  obtain ⟨hrunning, hlen⟩ := running_of_step h
  rw [step_of_receive hrunning hlen hafter] at h
  obtain ⟨-, rfl⟩ := Prod.mk.inj (Option.some.inj h)
  rfl

/-! ## How far the counter has run -/

/-- **Where the transfer stands**: the counter of the block written last
since the erase, and how many requests have moved the expected counter on
without writing one since. -/
structure Standing where
  last : Option UInt8
  passed : ℕ
  deriving DecidableEq, Repr

namespace Standing

/-- After the erase. -/
def erased : Standing := ⟨none, 0⟩

/-- The counter `k` after that of the block written last; the erase stands
at 0xFF. -/
def counter (t : Standing) (k : ℕ) : UInt8 := t.last.getD 0xFF + UInt8.ofNat k

/-- **A request**, by its counter and what a write of it returns. -/
def after (t : Standing) (m : Message) : Standing :=
  if m.data.length < 2 ∨ m.data.getD 1 0 = t.counter t.passed then t
  else if m.data.getD 1 0 = t.counter (t.passed + 1) ∧ m.ret = 0 then ⟨some (m.data.getD 1 0), 0⟩
  else ⟨t.last, t.passed + 1⟩

/-- A block was written, and the counter `k` after its own is its own: they
are bytes. -/
def Around (t : Standing) (k : ℕ) : Prop := t.last ≠ none ∧ 256 ∣ k

theorem counter_succ (t : Standing) (k : ℕ) : t.counter (k + 1) = t.counter k + 1 := by
  unfold counter
  rw [UInt8.ofNat_add, ← UInt8.add_assoc]
  rfl

instance (t : Standing) (k : ℕ) : Decidable (t.Around k) := inferInstanceAs (Decidable (_ ∧ _))

theorem last_eq_counter_iff {t : Standing} {k : ℕ} :
    t.last = some (t.counter k) ↔ t.Around k := by
  unfold Around counter
  cases t.last with
  | none => simp
  | some w =>
    have hzero : UInt8.ofNat k = 0 ↔ 256 ∣ k := by
      rw [UInt8.ofNat_eq_iff_mod_eq_toNat, Nat.dvd_iff_mod_eq_zero]
      rfl
    rw [Option.getD_some, Option.some.injEq, eq_comm, UInt8.add_eq_left, hzero]
    simp

/-- Only a request that is written changes it. -/
theorem after_last {t : Standing} {m : Message} :
    (t.after m).last =
      (if 2 ≤ m.data.length ∧ m.data.getD 1 0 = t.counter (t.passed + 1) ∧ m.ret = 0
        then some (m.data.getD 1 0) else none).or t.last := by
  rw [after, counter_succ]
  by_cases hwrites : 2 ≤ m.data.length ∧ m.data.getD 1 0 = t.counter t.passed + 1 ∧ m.ret = 0
  · have hmoves : ¬ (m.data.length < 2 ∨ m.data.getD 1 0 = t.counter t.passed) := by
      rintro (hshort | hsame)
      · omega
      · exact succ_ne _ (hwrites.2.1.symm.trans hsame)
    rw [if_pos hwrites, if_neg hmoves, if_pos hwrites.2]
    rfl
  · rw [if_neg hwrites, Option.none_or]
    split_ifs with hstays hnext
    · rfl
    · exact absurd ⟨by omega, hnext⟩ hwrites
    · rfl

end Standing

/-- Where the requests since the erase have brought it. -/
def standing (past : List (State × Message)) : Standing :=
  past.foldl (fun t x => t.after x.2) .erased

theorem standing_concat : standing (past ++ [(s, m)]) = (standing past).after m := by
  unfold standing
  rw [List.foldl_append]
  rfl

theorem lastWritten_concat :
    lastWritten (past ++ [(s, m)]) = (wrote s m).or (lastWritten past) := by
  unfold lastWritten
  rw [List.reverse_append, List.reverse_singleton, List.singleton_append, List.findSome?_cons]
  cases wrote s m <;> rfl

/-- What a TransferData makes of `block_id`. -/
theorem blockId_transferData {len : ℕ} :
    (handleTransferData p rx len ret).protocol.blockId =
      if len < 2 ∨ rx.getD 1 0 = p.blockId then p.blockId else p.blockId + 1 := by
  by_cases hlen : 2 ≤ len
  swap
  · rw [handleTransferData_short (by omega), if_pos (.inl (by omega))]
    rfl
  by_cases hsame : rx.getD 1 0 = p.blockId
  · rw [handleTransferData_same hlen hsame, if_pos (.inr hsame)]
    rfl
  rw [if_neg (not_or.mpr ⟨by omega, hsame⟩)]
  by_cases hnext : rx.getD 1 0 = p.blockId + 1
  · cases hinit : p.flashContextInitialized with
    | true => rw [handleTransferData_next hlen hnext hinit]
    | false =>
      rw [handleTransferData_closed hlen hnext hinit]
      rfl
  · rw [handleTransferData_mismatch hlen hsame hnext]
    rfl

/-- Which TransferData are written. -/
theorem wrote_transferData (hopen : s.protocol.flashContextInitialized = true)
    (hsid : m.data.getD 0 0 = transferData) :
    wrote s m = if 2 ≤ m.data.length ∧ m.data.getD 1 0 = s.protocol.blockId + 1 ∧ m.ret = 0
      then some (m.data.getD 1 0) else none := by
  unfold wrote
  rw [handle_transferData hsid]
  congr 1
  rw [eq_iff_iff]
  by_cases hlen : 2 ≤ m.data.length
  swap
  · rw [handleTransferData_short (by omega)]
    exact iff_of_false (by simp [answer]) fun h => hlen h.1
  by_cases hnext : m.data.getD 1 0 = s.protocol.blockId + 1
  · rw [handleTransferData_next hlen hnext hopen]
    rw [iff_true_intro hnext, iff_true_intro hlen]
    simp [Call.succeeded]
  refine iff_of_false ?_ fun h => hnext h.2.1
  by_cases hsame : m.data.getD 1 0 = s.protocol.blockId
  · rw [handleTransferData_same hlen hsame]
    simp [answer]
  · rw [handleTransferData_mismatch hlen hsame hnext]
    simp [answer]

/-- **What the server keeps**, after the requests `past`: the context open,
and `block_id` as far from the block written last as requests were passed
since. -/
structure Stands (past : List (State × Message)) (s : State) : Prop where
  isOpen : s.protocol.flashContextInitialized = true
  blockId : s.protocol.blockId = (standing past).counter (standing past).passed
  written : lastWritten past = (standing past).last

theorem stands_init (h : afterErase.init s) : Stands [] s := by
  obtain ⟨past, t, m, handled, -, hstep, hmem⟩ := h
  obtain rfl := handled_of_step hstep
  obtain ⟨hopen, hcounter, hafter⟩ := opened_of_flashImgInit hmem
  have hprotocol := protocol_of_step hstep hafter
  refine ⟨?_, ?_, rfl⟩
  · rw [hprotocol]
    exact hopen
  · rw [hprotocol]
    exact hcounter

/-- **One request.** -/
theorem Stands.step (h : Stands past s) (hstep : afterErase.Step s m s') :
    Stands (past ++ [(s, m)]) s' := by
  obtain ⟨hsid, handled, hstep⟩ := hstep
  have hhandle := handle_transferData (s := s) hsid
  have hprotocol := protocol_of_step hstep (by rw [hhandle]; exact after_transferData)
  have hnext := (standing past).counter_succ (standing past).passed
  rw [← h.blockId] at hnext
  refine ⟨?_, ?_, ?_⟩
  · rw [hprotocol, hhandle, initialized_transferData]
    exact h.isOpen
  · rw [hprotocol, hhandle, blockId_transferData, standing_concat, Standing.after, ← h.blockId,
      hnext]
    split_ifs with hsame hwritten
    · exact h.blockId
    · -- the block written is the one that is stood at
      rw [← hwritten.1]
      exact (UInt8.add_zero _).symm
    · exact hnext.symm
  · rw [lastWritten_concat, wrote_transferData h.isOpen hsid, standing_concat,
      Standing.after_last, hnext, h.written]

/-- **The counters in a run** after an erase: whatever was refused, failed
or repeated, and however often they went round. -/
theorem stands (h : afterErase.Run past s) : Stands past s :=
  h.invariant (P := Stands) (fun _ => stands_init) fun _ _ _ _ hs hstep => hs.step hstep

/-- **The counter of a request is in step**: it is the one that is stood at,
or the next with a write that fails, only where that is the counter of the
block written last. -/
def InStep (past : List (State × Message)) (_ : State) (m : Message) : Prop :=
  2 ≤ m.data.length →
    (m.data.getD 1 0 = (standing past).counter (standing past).passed →
      (standing past).Around (standing past).passed) ∧
    (m.data.getD 1 0 = (standing past).counter ((standing past).passed + 1) → m.ret ≠ 0 →
      (standing past).Around ((standing past).passed + 1))

instance (past : List (State × Message)) (s : State) (m : Message) :
    Decidable (InStep past s m) := inferInstanceAs (Decidable (_ → _))

/-! ## Which answers are backed -/

/-- A positive answer is looked for in what the handler sends. -/
theorem backed_iff_handle (h : step s m = some (handled, s')) :
    Backed past s m ↔
      ((∃ b, sendTransferDataResponse b ∈ (s.handle m).sent) →
        .flashImgBufferedWrite (m.data.drop 2) false 0 ∈ (s.handle m).calls ∨
          lastWritten past = some (m.data.getD 1 0)) := by
  constructor
  · intro hbacked
    rw [← handled_of_step h]
    exact hbacked handled s' h
  · intro hbacked handled t ht
    rw [handled_of_step ht]
    exact hbacked

/-- A refused block is answered negatively. -/
theorem backed_of_refused {nrc : UInt8} (h : step s m = some (handled, s'))
    (hhandle : s.handle m = answer p (sendNegativeResponse transferData nrc)) :
    Backed past s m := by
  rw [backed_iff_handle h, hhandle]
  rintro ⟨b, hb⟩
  exact absurd hb negative_ne_positive

/-- **The next block** is answered positively, also where its write fails. -/
theorem backed_next (hopen : s.protocol.flashContextInitialized = true)
    (hs : step s m = some (handled, s')) (hsid : m.data.getD 0 0 = transferData)
    (hlen : 2 ≤ m.data.length) (hnext : m.data.getD 1 0 = s.protocol.blockId + 1) :
    Backed past s m ↔ (m.ret ≠ 0 → lastWritten past = some (m.data.getD 1 0)) := by
  rw [backed_iff_handle hs, handle_transferData hsid, handleTransferData_next hlen hnext hopen]
  have hsent : ∃ b, sendTransferDataResponse b ∈
      (if m.ret ≠ 0 then [sendNegativeResponse transferData failurePreventsExecution] else []) ++
        [sendTransferDataResponse (s.protocol.blockId + 1)] :=
    ⟨_, List.mem_append_right _ List.mem_cons_self⟩
  by_cases hret : m.ret = 0
  · refine iff_of_true (fun _ => .inl ?_) fun h => absurd hret h
    rw [payload_eq, hret]
    exact List.mem_cons_self
  · constructor
    · intro h _
      refine (h hsent).resolve_left fun hmem => hret ?_
      exact ((Call.flashImgBufferedWrite.inj (List.mem_singleton.mp hmem)).2.2).symm
    · intro h _
      exact .inr (h hret)

/-- **A repeated counter** is answered positively and writes nothing. -/
theorem backed_same (hs : step s m = some (handled, s')) (hsid : m.data.getD 0 0 = transferData)
    (hlen : 2 ≤ m.data.length) (hsame : m.data.getD 1 0 = s.protocol.blockId) :
    Backed past s m ↔ lastWritten past = some (m.data.getD 1 0) := by
  rw [backed_iff_handle hs, handle_transferData hsid, handleTransferData_same hlen hsame]
  constructor
  · intro h
    exact (h ⟨_, List.mem_cons_self⟩).resolve_left List.not_mem_nil
  · intro h _
    exact .inr h

/-- One request. -/
theorem backed_step (h : Stands past s) (hstep : afterErase.Step s m s') :
    Backed past s m ↔ InStep past s m := by
  obtain ⟨hsid, handled, hs⟩ := hstep
  have hhandle := handle_transferData (s := s) hsid
  have hcounter := (standing past).counter_succ (standing past).passed
  rw [← h.blockId] at hcounter
  unfold InStep
  rw [← Standing.last_eq_counter_iff, ← Standing.last_eq_counter_iff, ← h.written, ← h.blockId,
    hcounter]
  by_cases hlen : 2 ≤ m.data.length
  swap
  · rw [handleTransferData_short (by omega)] at hhandle
    exact iff_of_true (backed_of_refused hs hhandle) fun h => absurd h hlen
  by_cases hnext : m.data.getD 1 0 = s.protocol.blockId + 1
  · have hne : m.data.getD 1 0 ≠ s.protocol.blockId := by
      rw [hnext]
      exact succ_ne _
    rw [backed_next h.isOpen hs hsid hlen hnext]
    constructor
    · intro hbacked _
      exact ⟨fun heq => absurd heq hne, fun _ hret => hnext ▸ hbacked hret⟩
    · intro hin hret
      exact hnext ▸ (hin hlen).2 hnext hret
  by_cases hsame : m.data.getD 1 0 = s.protocol.blockId
  · rw [backed_same hs hsid hlen hsame]
    constructor
    · intro hbacked _
      exact ⟨fun _ => hsame ▸ hbacked, fun heq => absurd heq hnext⟩
    · intro hin
      exact hsame ▸ (hin hlen).1 hsame
  · rw [handleTransferData_mismatch hlen hsame hnext] at hhandle
    refine iff_of_true (backed_of_refused hs hhandle) ?_
    exact fun _ => ⟨fun heq => absurd heq hsame, fun heq => absurd heq hnext⟩

/-- **After an erase, every positive answer to a block is backed by one,
exactly in the runs whose counters are in step.** -/
theorem backed_iff (h : afterErase.Run past s) :
    Machine.Throughout Backed past ↔ Machine.Throughout InStep past :=
  h.throughout_congr fun _ _ _ _ hrun hstep => backed_step (stands hrun) hstep

/-- The request that starts the erase routine. -/
abbrev eraseRequest : List UInt8 := [routineControl, 0x01, 0x05, 0x39]

theorem handle_eraseRequest :
    s.handle ⟨eraseRequest, ret⟩ = handleEraseRoutine s.protocol ret := by
  have hne : eraseRequest ≠ [] := by decide
  have hhalf : eraseRequest ≠ halfRoutineId := by decide
  have hmessage : s.handle ⟨eraseRequest, ret⟩ =
      handleMessage s.protocol eraseRequest eraseRequest.length ret :=
    handleMessage_receive hne hhalf
  have hroutine : handleMessage s.protocol eraseRequest eraseRequest.length ret =
      handleRoutineControl s.protocol eraseRequest eraseRequest.length ret := rfl
  rw [hmessage, hroutine]
  have hid : routineId eraseRequest = eraseRoutine := by decide
  have hstart : eraseRequest.getD 1 0 = 0x01 := rfl
  unfold handleRoutineControl
  rw [if_neg (by decide), if_neg (not_not.mpr hstart), if_pos hid]

/-- A server that has just started and opened the context. -/
def State.erased : State := ⟨⟨1, true, 0xFF⟩, receive State.boot.rxBuffer eraseRequest, true⟩

theorem step_boot_erased :
    step .boot ⟨eraseRequest, 0⟩ = some (handleEraseRoutine State.boot.protocol 0, .erased) := by
  have hhandle : State.boot.handle ⟨eraseRequest, 0⟩ = handleEraseRoutine State.boot.protocol 0 :=
    handle_eraseRequest
  rw [step_of_receive rfl (by decide) (by rw [hhandle]; rfl), hhandle]
  rfl

theorem init_erased : afterErase.init .erased :=
  ⟨[], .boot, _, _, .init rfl, step_boot_erased, List.mem_cons_self⟩

/-- Three blocks, of which the first is repeated, and a counter between them
that is refused and makes the third one 3. -/
def threeBlocks : List Message :=
  [⟨[transferData, 0x00, 0xAA], 0⟩, ⟨[transferData, 0x00, 0xAA], -5⟩,
    ⟨[transferData, 0x01, 0xBB], 0⟩, ⟨[transferData, 0x07, 0xCC], 0⟩,
    ⟨[transferData, 0x03, 0xDD], 0⟩]

theorem backed_iff_threeBlocks :
    ∃ past s, afterErase.Run past s ∧ past.map (·.2) = threeBlocks ∧
      lastWritten past = some 0x03 ∧ Machine.Throughout Backed past := by
  have hrun := (((((Machine.Run.init (M := afterErase) init_erased).step (e := threeBlocks[0])
    ⟨rfl, _, rfl⟩).step (e := threeBlocks[1]) ⟨rfl, _, rfl⟩).step (e := threeBlocks[2])
    ⟨rfl, _, rfl⟩).step (e := threeBlocks[3]) ⟨rfl, _, rfl⟩).step (e := threeBlocks[4])
    ⟨rfl, _, rfl⟩
  refine ⟨_, _, hrun, rfl, ?_, (backed_iff hrun).mpr ?_⟩
  · rw [(stands hrun).written]
    decide
  · simp only [Machine.throughout_concat]
    exact ⟨⟨⟨⟨⟨Machine.throughout_nil, by decide⟩, by decide⟩, by decide⟩, by decide⟩, by decide⟩

/-- **A block that was never written**: right after the erase, the counter
0xFF is answered as the repetition of a block. -/
theorem not_backed_retransmission :
    ∃ past s, afterErase.Run past s ∧ ¬ Machine.Throughout Backed past := by
  have hrun : afterErase.Run [] .erased := .init init_erased
  refine ⟨_, _, hrun.step (e := ⟨[transferData, 0xFF, 0xAA], 0⟩) ⟨rfl, _, rfl⟩, fun h => ?_⟩
  have hbacked := h [] .erased ⟨[transferData, 0xFF, 0xAA], 0⟩ [] rfl _ _ rfl
  rcases hbacked ⟨0xFF, List.mem_cons_self⟩ with hmem | hlast
  · exact absurd hmem List.not_mem_nil
  · exact absurd hlast (by decide)

end Legacy

end Ardep
