import Ardep.Common.Machine
import Mathlib.Data.Int.Notation
import Mathlib.Data.List.Basic
import Mathlib.Tactic.SplitIfs
import Mathlib.Tactic.ByContra
/-!
# The legacy UDS server — one thread over ISO-TP

The server of `lib/uds_legacy` is a receive loop: it reads a message into
a static buffer, answers it, and reads the next. The buffer is not cleared
in between, so a handler is given the whole of it and the received length.

`handleMessage` is the body of the loop. What a message does is a
`Handled`: the responses sent in order, the flash and boot calls made, the
protocol state left, and what the thread does next. The value the flash
call of a message returns comes with the message; no message makes two.
The expiry of the session is not modelled: nothing reads the session.
-/

namespace Ardep

namespace Legacy

/-! ## Codes -/

/-- `enum UDS_SID`. -/
abbrev diagnosticSessionControl : UInt8 := 0x10
abbrev ecuReset : UInt8 := 0x11
abbrev routineControl : UInt8 := 0x31
abbrev requestDownload : UInt8 := 0x34
abbrev transferData : UInt8 := 0x36
abbrev requestTransferExit : UInt8 := 0x37
abbrev negativeResponse : UInt8 := 0x7F

/-- `enum UDS_NRC`. -/
abbrev serviceNotSupported : UInt8 := 0x11
abbrev subfunctionNotSupported : UInt8 := 0x12
abbrev incorrectMessageLength : UInt8 := 0x13
abbrev failurePreventsExecution : UInt8 := 0x26
abbrev responsePending : UInt8 := 0x78

/-- `UDS_RESET_TYPE_HARD`. -/
abbrev resetTypeHard : UInt8 := 0x01

/-- The routine that opens the flash context, and the one that confirms
the image. -/
abbrev eraseRoutine : UInt16 := 1337
abbrev confirmRoutine : UInt16 := 1338

/-! ## State -/

/-- **The protocol state**: the statics the handlers read and write. -/
structure Protocol where
  session : UInt8
  flashContextInitialized : Bool
  blockId : UInt8
  deriving DecidableEq, Repr

/-- A call into the flash image or boot library, with what it returned. -/
inductive Call where
  | flashImgInit (ret : ℤ)
  | flashImgBufferedWrite (data : List UInt8) (flush : Bool) (ret : ℤ)
  | bootRequestUpgrade (ret : ℤ)
  deriving DecidableEq, Repr

/-- What the thread does after a message. -/
inductive After where
  | receive
  /-- The loop is left and the thread ends. -/
  | stop
  | reboot
  deriving DecidableEq, Repr

structure Handled where
  protocol : Protocol
  sent : List (List UInt8)
  calls : List Call
  after : After
  deriving DecidableEq, Repr

/-! ## Responses -/

/-- `send_negative_response`. -/
def sendNegativeResponse (requestSid responseCode : UInt8) : List UInt8 :=
  [negativeResponse, requestSid, responseCode]

/-- `send_session_control_response`. -/
def sendSessionControlResponse (sessionType : UInt8) (p2 p2Star : UInt16) : List UInt8 :=
  [diagnosticSessionControl + 0x40, sessionType, (p2 >>> 8).toUInt8, p2.toUInt8,
    ((p2Star / 10) >>> 8).toUInt8, (p2Star / 10).toUInt8]

/-- `send_positive_reset_response`. -/
def sendPositiveResetResponse (resetType : UInt8) : List UInt8 := [ecuReset + 0x40, resetType]

/-- `send_request_download_response`: the block length is a constant. -/
def sendRequestDownloadResponse : List UInt8 := [requestDownload + 0x40, 0x20, 0x00, 0xD2]

/-- `send_transfer_data_response`. -/
def sendTransferDataResponse (blockSequenceCounter : UInt8) : List UInt8 :=
  [transferData + 0x40, blockSequenceCounter]

/-- `send_routine_control_result`. -/
def sendRoutineControlResult (routineId : UInt16) (result : UInt8) : List UInt8 :=
  [routineControl + 0x40, 0x01, (routineId >>> 8).toUInt8, routineId.toUInt8, result]

/-- `send_transer_exit_positive_response`. -/
def sendTransferExitPositiveResponse : List UInt8 := [requestTransferExit + 0x40]

/-! ## Handlers

`rx` is the receive buffer and `len` the received length. -/

/-- A message that is answered once and changes nothing. -/
def answer (p : Protocol) (response : List UInt8) : Handled := ⟨p, [response], [], .receive⟩

/-- `handle_ecu_reset`. -/
def handleEcuReset (p : Protocol) (rx : List UInt8) (len : ℕ) : Handled :=
  if len ≠ 2 then answer p (sendNegativeResponse ecuReset incorrectMessageLength)
  else if rx.getD 1 0 = resetTypeHard then
    ⟨p, [sendPositiveResetResponse resetTypeHard], [], .reboot⟩
  else answer p (sendNegativeResponse ecuReset subfunctionNotSupported)

/-- `handle_erase_routine`. The result byte of a failed `flash_img_init` is
its return value, cut to a byte. -/
def handleEraseRoutine (p : Protocol) (ret : ℤ) : Handled :=
  let pending := sendNegativeResponse routineControl responsePending
  if ret ≠ 0 then
    ⟨p, [pending, sendRoutineControlResult eraseRoutine (UInt8.ofInt ret)], [.flashImgInit ret],
      .receive⟩
  else
    ⟨{ p with flashContextInitialized := true, blockId := 0xFF },
      [pending, sendRoutineControlResult eraseRoutine 0], [.flashImgInit ret], .receive⟩

/-- `handle_confirm_routine`: what `boot_request_upgrade` returns is not
looked at. -/
def handleConfirmRoutine (p : Protocol) (ret : ℤ) : Handled :=
  ⟨p, [sendRoutineControlResult confirmRoutine 0], [.bootRequestUpgrade ret], .receive⟩

/-- `handle_transfer_data`. The counter expected is advanced before it is
compared, and stays so when the comparison fails; after a failed write the
positive response follows the negative one. -/
def handleTransferData (p : Protocol) (rx : List UInt8) (len : ℕ) (ret : ℤ) : Handled :=
  if len < 2 then answer p (sendNegativeResponse transferData incorrectMessageLength)
  else
    let blockSequenceCounter := rx.getD 1 0
    if blockSequenceCounter = p.blockId then answer p (sendTransferDataResponse p.blockId)
    else
      let p := { p with blockId := p.blockId + 1 }
      if blockSequenceCounter ≠ p.blockId then
        answer p (sendNegativeResponse transferData incorrectMessageLength)
      else if ¬ p.flashContextInitialized then
        answer p (sendNegativeResponse transferData failurePreventsExecution)
      else
        let failure :=
          if ret ≠ 0 then [sendNegativeResponse transferData failurePreventsExecution] else []
        ⟨p, failure ++ [sendTransferDataResponse p.blockId],
          [.flashImgBufferedWrite ((rx.drop 2).take (len - 2)) false ret], .receive⟩

section TransferData

variable {p : Protocol} {rx : List UInt8} {len : ℕ} {ret : ℤ}

/-! The ways through `handle_transfer_data`. -/

theorem handleTransferData_short (h : len < 2) :
    handleTransferData p rx len ret =
      answer p (sendNegativeResponse transferData incorrectMessageLength) := by
  unfold handleTransferData
  rw [if_pos h]

/-- The counter of the last block. -/
theorem handleTransferData_same (hlen : 2 ≤ len) (h : rx.getD 1 0 = p.blockId) :
    handleTransferData p rx len ret = answer p (sendTransferDataResponse p.blockId) := by
  unfold handleTransferData
  rw [if_neg (Nat.not_lt.mpr hlen)]
  simp only [h, if_true]

/-- Neither that counter nor the one after it. -/
theorem handleTransferData_mismatch (hlen : 2 ≤ len) (hsame : rx.getD 1 0 ≠ p.blockId)
    (hnext : rx.getD 1 0 ≠ p.blockId + 1) :
    handleTransferData p rx len ret = answer { p with blockId := p.blockId + 1 }
      (sendNegativeResponse transferData incorrectMessageLength) := by
  unfold handleTransferData
  rw [if_neg (Nat.not_lt.mpr hlen)]
  simp only [hsame, hnext, if_false, ne_eq, not_false_eq_true, if_true]

/-- A byte and its successor differ, also where it wraps around. -/
theorem succ_ne (b : UInt8) : b + 1 ≠ b := by
  intro h
  have hnat : (b.toNat + (1 : UInt8).toNat) % 2 ^ 8 = b.toNat := by
    rw [← UInt8.toNat_add, h]
  have hone : (1 : UInt8).toNat = 1 := rfl
  have hlt := b.toNat_lt
  omega

/-- The next counter, and no flash context. -/
theorem handleTransferData_closed (hlen : 2 ≤ len) (hnext : rx.getD 1 0 = p.blockId + 1)
    (hinit : p.flashContextInitialized = false) :
    handleTransferData p rx len ret = answer { p with blockId := p.blockId + 1 }
      (sendNegativeResponse transferData failurePreventsExecution) := by
  have hsame := succ_ne p.blockId
  unfold handleTransferData
  rw [if_neg (Nat.not_lt.mpr hlen)]
  simp only [hsame, hnext, hinit, if_false, ne_eq, not_true_eq_false, Bool.false_eq_true,
    not_false_eq_true, if_true]

/-- **The next counter**: the payload is written. -/
theorem handleTransferData_next (hlen : 2 ≤ len) (hnext : rx.getD 1 0 = p.blockId + 1)
    (hinit : p.flashContextInitialized = true) :
    handleTransferData p rx len ret =
      ⟨{ p with blockId := p.blockId + 1 },
        (if ret ≠ 0 then [sendNegativeResponse transferData failurePreventsExecution] else []) ++
          [sendTransferDataResponse (p.blockId + 1)],
        [.flashImgBufferedWrite ((rx.drop 2).take (len - 2)) false ret], .receive⟩ := by
  have hsame := succ_ne p.blockId
  unfold handleTransferData
  rw [if_neg (Nat.not_lt.mpr hlen)]
  simp only [hsame, hnext, hinit, if_false, ne_eq, not_true_eq_false]

end TransferData

/-- `handle_transfer_exit`, which goes on after a failed flush as well. -/
def handleTransferExit (p : Protocol) (ret : ℤ) : Handled :=
  if ¬ p.flashContextInitialized then
    answer p (sendNegativeResponse requestTransferExit failurePreventsExecution)
  else
    let failure :=
      if ret ≠ 0 then [sendNegativeResponse requestTransferExit failurePreventsExecution] else []
    ⟨{ p with flashContextInitialized := false }, failure ++ [sendTransferExitPositiveResponse],
      [.flashImgBufferedWrite [] true ret], .receive⟩

/-- The session types the server knows. -/
def knownSession (sessionType : UInt8) : Bool :=
  sessionType = 1 ∨ sessionType = 2 ∨ sessionType = 3

/-- The branch of the loop for DiagnosticSessionControl. -/
def handleSessionControl (p : Protocol) (rx : List UInt8) (len : ℕ) : Handled :=
  if len ≠ 2 then
    answer p (sendNegativeResponse diagnosticSessionControl incorrectMessageLength)
  else
    let sessionType := rx.getD 1 0
    if knownSession sessionType then
      answer { p with session := sessionType } (sendSessionControlResponse sessionType 4000 10000)
    else answer p (sendNegativeResponse diagnosticSessionControl subfunctionNotSupported)

/-- The id of a routine, from the third and fourth byte of the buffer. -/
def routineId (rx : List UInt8) : UInt16 := (rx.getD 2 0).toUInt16 <<< 8 ||| (rx.getD 3 0).toUInt16

/-- The branch for RoutineControl. A sub-function other than start leaves
the thread, not the handler. -/
def handleRoutineControl (p : Protocol) (rx : List UInt8) (len : ℕ) (ret : ℤ) : Handled :=
  if len < 3 then answer p (sendNegativeResponse routineControl incorrectMessageLength)
  else if rx.getD 1 0 ≠ 0x01 then
    ⟨p, [sendNegativeResponse routineControl subfunctionNotSupported], [], .stop⟩
  else if routineId rx = eraseRoutine then handleEraseRoutine p ret
  else if routineId rx = confirmRoutine then handleConfirmRoutine p ret
  else answer p (sendNegativeResponse routineControl subfunctionNotSupported)

/-- The branch for RequestDownload. -/
def handleRequestDownload (p : Protocol) (len : ℕ) : Handled :=
  if len ≠ 11 then answer p (sendNegativeResponse requestDownload incorrectMessageLength)
  else answer p sendRequestDownloadResponse

/-- **The body of the receive loop** of `thread_entry`. -/
def handleMessage (p : Protocol) (rx : List UInt8) (len : ℕ) (ret : ℤ) : Handled :=
  let sid := rx.getD 0 0
  if sid = diagnosticSessionControl then handleSessionControl p rx len
  else if sid = ecuReset then handleEcuReset p rx len
  else if sid = routineControl then handleRoutineControl p rx len ret
  else if sid = requestDownload then handleRequestDownload p len
  else if sid = transferData then handleTransferData p rx len ret
  else if sid = requestTransferExit then handleTransferExit p ret
  else answer p (sendNegativeResponse sid serviceNotSupported)

/-! ## The server -/

/-- The statics and the thread. -/
structure State where
  protocol : Protocol
  rxBuffer : List UInt8
  running : Bool
  deriving DecidableEq, Repr

/-- After a start. -/
def State.boot : State where
  protocol := ⟨1, false, 0x0F⟩
  rxBuffer := List.replicate 512 0
  running := true

/-- A message as `isotp_recv` hands it over, with what the flash call it
leads to returns. -/
structure Message where
  data : List UInt8
  ret : ℤ
  deriving DecidableEq, Repr

/-- Room in the buffer for one read. -/
abbrev maxReceive : ℕ := 511

/-- `isotp_recv` overwrites the front of the buffer. -/
def receive (rx data : List UInt8) : List UInt8 := data ++ rx.drop data.length

/-- What a message does, read over what earlier messages left. -/
def State.handle (s : State) (m : Message) : Handled :=
  handleMessage s.protocol (receive s.rxBuffer m.data) m.data.length m.ret

/-- **One round of the loop.** A thread that has ended receives nothing. -/
def step (s : State) (m : Message) : Option (Handled × State) :=
  if s.running ∧ m.data.length ≤ maxReceive then
    let handled := s.handle m
    match handled.after with
    | .receive => some (handled, ⟨handled.protocol, receive s.rxBuffer m.data, true⟩)
    | .stop => some (handled, ⟨handled.protocol, receive s.rxBuffer m.data, false⟩)
    | .reboot => some (handled, .boot)
  else none

/-- **The server**, from its first start on. -/
def server : Machine State Message where
  init := (· = .boot)
  Step s m s' := ∃ handled, step s m = some (handled, s')

variable {s s' : State} {m : Message} {handled : Handled}

/-- What a round did is what its message does. -/
theorem handled_of_step (h : step s m = some (handled, s')) : handled = s.handle m := by
  simp only [step] at h
  split at h
  · split at h
    · exact (Prod.mk.inj (Option.some.inj h)).1.symm
    · exact (Prod.mk.inj (Option.some.inj h)).1.symm
    · exact (Prod.mk.inj (Option.some.inj h)).1.symm
  · cases h

theorem running_of_step (h : step s m = some (handled, s')) :
    s.running = true ∧ m.data.length ≤ maxReceive := by
  simp only [step] at h
  split at h
  · assumption
  · cases h

/-- A round that goes on. -/
theorem step_of_receive (hs : s.running = true) (hlen : m.data.length ≤ maxReceive)
    (h : (s.handle m).after = .receive) :
    step s m = some (s.handle m, ⟨(s.handle m).protocol, receive s.rxBuffer m.data, true⟩) := by
  simp only [step, hs, hlen, and_self, if_true, h]

end Legacy

end Ardep
