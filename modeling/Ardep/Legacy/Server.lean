import Ardep.Legacy.Model
import Mathlib.Data.List.GetD
/-!
# The legacy UDS server — the receive loop

Two properties of the loop as a whole. Every message should get one final
response and leave the server ready for the next (`answered_iff`): three
branches do not, one that leaves the thread where it means to leave the
handler and two that go on after an error response. And what a message
does should depend on the bytes it contains (`independent_iff`): one
branch reads a byte past the length it has tested.
-/

namespace Ardep

namespace Legacy

variable {p : Protocol} {rx data : List UInt8} {ret : ℤ}

/-! ## The buffer -/

/-- The bytes of the message are in front. -/
theorem receive_getD {i : ℕ} (h : i < data.length) :
    (receive rx data).getD i 0 = data.getD i 0 := by
  unfold receive
  rw [List.getD_append _ _ _ _ h]

/-- The payload behind the counter is the rest of the message. -/
theorem receive_payload (h : 2 ≤ data.length) :
    ((receive rx data).drop 2).take (data.length - 2) = data.drop 2 := by
  unfold receive
  rw [List.drop_append_of_le_length h, List.take_left' (List.length_drop ..)]

theorem payload_eq : (data.drop 2).take (data.length - 2) = data.drop 2 :=
  List.take_of_length_le (Nat.le_of_eq (List.length_drop ..))

/-- **A routine id is two bytes.** -/
theorem routineId_toNat :
    (routineId rx).toNat = (rx.getD 2 0).toNat * 256 + (rx.getD 3 0).toNat := by
  have hhigh := (rx.getD 2 0).toNat_lt
  have hlow := (rx.getD 3 0).toNat_lt
  unfold routineId
  rw [UInt16.toNat_or, UInt16.toNat_shiftLeft, UInt8.toNat_toUInt16, UInt8.toNat_toUInt16]
  have hshift : (rx.getD 2 0).toNat <<< ((8 : UInt16).toNat % 16) % 2 ^ 16 =
      (rx.getD 2 0).toNat <<< 8 := by
    rw [Nat.mod_eq_of_lt]
    · rfl
    · have heq : (rx.getD 2 0).toNat <<< ((8 : UInt16).toNat % 16) = (rx.getD 2 0).toNat * 256 := by
        rw [Nat.shiftLeft_eq]
        rfl
      rw [heq]
      omega
  rw [hshift, ← Nat.shiftLeft_add_eq_or_of_lt hlow, Nat.shiftLeft_eq]

/-- Both routines the server knows have the same high byte. -/
theorem high_of_known (h : routineId rx = eraseRoutine ∨ routineId rx = confirmRoutine) :
    rx.getD 2 0 = 0x05 := by
  have hlow := (rx.getD 3 0).toNat_lt
  have hid : (routineId rx).toNat = 1337 ∨ (routineId rx).toNat = 1338 := by
    rcases h with h | h
    · exact .inl (by rw [h]; rfl)
    · exact .inr (by rw [h]; rfl)
  rw [routineId_toNat] at hid
  apply UInt8.toNat_inj.mp
  have hfive : (0x05 : UInt8).toNat = 5 := rfl
  omega

/-! ## One final response -/

/-- `requestCorrectlyReceived-ResponsePending`: another response follows. -/
def Pending (response : List UInt8) : Prop :=
  response.getD 0 0 = negativeResponse ∧ response.getD 2 0 = responsePending

instance (response : List UInt8) : Decidable (Pending response) :=
  inferInstanceAs (Decidable (_ ∧ _))

/-- The responses that end an exchange. -/
def Handled.finals (h : Handled) : List (List UInt8) := h.sent.filter fun r => ¬ Pending r

/-- **One final response**, and the loop goes on. -/
def Handled.Once (h : Handled) : Prop := h.finals.length = 1 ∧ h.after = .receive

/-- A response whose first byte is not the one of an error. -/
theorem not_pending_cons {sid : UInt8} {rest : List UInt8} (h : sid ≠ negativeResponse) :
    ¬ Pending (sid :: rest) := fun hp => h hp.1

theorem not_pending_sessionControl {sessionType : UInt8} {p2 p2Star : UInt16} :
    ¬ Pending (sendSessionControlResponse sessionType p2 p2Star) := not_pending_cons (by decide)

theorem not_pending_routineControl {id : UInt16} {result : UInt8} :
    ¬ Pending (sendRoutineControlResult id result) := not_pending_cons (by decide)

theorem not_pending_transferData {b : UInt8} : ¬ Pending (sendTransferDataResponse b) :=
  not_pending_cons (by decide)

theorem not_pending_transferExit : ¬ Pending sendTransferExitPositiveResponse :=
  not_pending_cons (by decide)

theorem not_pending_negative {sid nrc : UInt8} (h : nrc ≠ responsePending) :
    ¬ Pending (sendNegativeResponse sid nrc) := fun hp => h hp.2

theorem finals_cons_of_pending {response : List UInt8} {rest : List (List UInt8)}
    {calls : List Call} {after : After} (h : Pending response) :
    (⟨p, response :: rest, calls, after⟩ : Handled).finals =
      (⟨p, rest, calls, after⟩ : Handled).finals :=
  List.filter_cons_of_neg (by simpa using h)

theorem finals_cons {response : List UInt8} {rest : List (List UInt8)} {calls : List Call}
    {after : After} (h : ¬ Pending response) :
    (⟨p, response :: rest, calls, after⟩ : Handled).finals =
      response :: (⟨p, rest, calls, after⟩ : Handled).finals :=
  List.filter_cons_of_pos (by simpa using h)

theorem finals_single {response : List UInt8} {calls : List Call} {after : After}
    (h : ¬ Pending response) : (⟨p, [response], calls, after⟩ : Handled).finals = [response] :=
  finals_cons h

theorem once_answer {response : List UInt8} (h : ¬ Pending response) :
    (answer p response).Once := by
  unfold Handled.Once answer
  rw [finals_single h]
  exact ⟨rfl, rfl⟩

/-- A negative response that ends the exchange. -/
theorem once_negative {sid nrc : UInt8} (h : nrc ≠ responsePending) :
    (answer p (sendNegativeResponse sid nrc)).Once :=
  once_answer (not_pending_negative h)

theorem once_sessionControl {len : ℕ} : (handleSessionControl p rx len).Once := by
  simp only [handleSessionControl]
  split_ifs
  · exact once_negative (by decide)
  · exact once_answer not_pending_sessionControl
  · exact once_negative (by decide)

/-- A reset is answered once; the accepted one then reboots. -/
theorem once_ecuReset {len : ℕ} :
    (handleEcuReset p rx len).Once ↔ ¬ (len = 2 ∧ rx.getD 1 0 = resetTypeHard) := by
  unfold handleEcuReset
  split_ifs with hlen htype
  · exact iff_of_true (once_negative (by decide)) fun h => hlen h.1
  · refine iff_of_false (fun h => ?_) (not_not.mpr ⟨not_not.mp hlen, htype⟩)
    exact absurd h.2 (by simp)
  · exact iff_of_true (once_negative (by decide)) fun h => htype h.2

/-- The erase routine sends a pending response and its result. -/
theorem once_eraseRoutine : (handleEraseRoutine p ret).Once := by
  unfold handleEraseRoutine Handled.Once
  have hpending : Pending (sendNegativeResponse routineControl responsePending) := by decide
  split_ifs
  · rw [finals_cons_of_pending hpending, finals_single not_pending_routineControl]
    exact ⟨rfl, rfl⟩
  · rw [finals_cons_of_pending hpending, finals_single not_pending_routineControl]
    exact ⟨rfl, rfl⟩

theorem once_confirmRoutine : (handleConfirmRoutine p ret).Once := by
  unfold handleConfirmRoutine Handled.Once
  rw [finals_single not_pending_routineControl]
  exact ⟨rfl, rfl⟩

/-- **A routine sub-function other than start ends the thread.** -/
theorem once_routineControl {len : ℕ} :
    (handleRoutineControl p rx len ret).Once ↔ ¬ (3 ≤ len ∧ rx.getD 1 0 ≠ 0x01) := by
  unfold handleRoutineControl
  split_ifs with hlen hsub herase hconfirm
  · exact iff_of_true (once_negative (by decide)) fun h => by omega
  · refine iff_of_false (fun h => ?_) (not_not.mpr ⟨by omega, hsub⟩)
    exact absurd h.2 (by simp)
  · exact iff_of_true once_eraseRoutine fun h => hsub h.2
  · exact iff_of_true once_confirmRoutine fun h => hsub h.2
  · exact iff_of_true (once_negative (by decide)) fun h => hsub h.2

theorem once_requestDownload {len : ℕ} : (handleRequestDownload p len).Once := by
  unfold handleRequestDownload
  split_ifs
  · exact once_negative (by decide)
  · exact once_answer (not_pending_cons (by decide))

/-- Two final responses where a failure is followed by success. -/
theorem once_after_failure {sid : UInt8} {response : List UInt8} {calls : List Call}
    (h : ¬ Pending response) :
    (⟨p, (if ret ≠ 0 then [sendNegativeResponse sid failurePreventsExecution] else []) ++
      [response], calls, .receive⟩ : Handled).Once ↔ ret = 0 := by
  unfold Handled.Once
  have hfailure : ¬ Pending (sendNegativeResponse sid failurePreventsExecution) :=
    not_pending_negative (by decide)
  split_ifs with hret
  · rw [List.singleton_append, finals_cons hfailure, finals_single h]
    exact iff_of_false (fun hone => absurd hone.1 (by simp)) hret
  · rw [List.nil_append, finals_single h]
    exact iff_of_true ⟨rfl, rfl⟩ (not_not.mp hret)

/-- **A failed write is answered twice.** -/
theorem once_transferData {len : ℕ} :
    (handleTransferData p rx len ret).Once ↔
      ¬ (2 ≤ len ∧ rx.getD 1 0 = p.blockId + 1 ∧ p.flashContextInitialized = true ∧ ret ≠ 0) := by
  by_cases hlen : 2 ≤ len
  · by_cases hnext : rx.getD 1 0 = p.blockId + 1
    · cases hinit : p.flashContextInitialized with
      | false =>
        rw [handleTransferData_closed hlen hnext hinit]
        exact iff_of_true (once_negative (by decide)) fun h => by simp at h
      | true =>
        rw [handleTransferData_next hlen hnext hinit, once_after_failure not_pending_transferData]
        constructor
        · intro hret h
          exact h.2.2.2 hret
        · intro h
          by_contra hret
          exact h ⟨hlen, hnext, rfl, hret⟩
    · refine iff_of_true ?_ fun h => hnext h.2.1
      by_cases hsame : rx.getD 1 0 = p.blockId
      · rw [handleTransferData_same hlen hsame]
        exact once_answer not_pending_transferData
      · rw [handleTransferData_mismatch hlen hsame hnext]
        exact once_negative (by decide)
  · rw [handleTransferData_short (by omega)]
    exact iff_of_true (once_negative (by decide)) fun h => hlen h.1

/-- **So is a failed flush.** -/
theorem once_transferExit :
    (handleTransferExit p ret).Once ↔ ¬ (p.flashContextInitialized = true ∧ ret ≠ 0) := by
  unfold handleTransferExit
  by_cases hinit : p.flashContextInitialized = true
  · rw [if_neg (not_not.mpr hinit), once_after_failure not_pending_transferExit]
    constructor
    · intro hret h
      exact h.2 hret
    · intro h
      by_contra hret
      exact h ⟨hinit, hret⟩
  · rw [if_pos hinit]
    exact iff_of_true (once_negative (by decide)) fun h => hinit h.1

/-! ## The loop -/

/-- RoutineControl with a sub-function other than start. -/
def StopsThread (m : Message) : Prop :=
  m.data.getD 0 0 = routineControl ∧ 3 ≤ m.data.length ∧ m.data.getD 1 0 ≠ 0x01

/-- TransferData with the next counter into an open context, and the write
fails. -/
def WriteFails (p : Protocol) (m : Message) : Prop :=
  m.data.getD 0 0 = transferData ∧ 2 ≤ m.data.length ∧ m.data.getD 1 0 = p.blockId + 1 ∧
    p.flashContextInitialized = true ∧ m.ret ≠ 0

/-- RequestTransferExit with an open context, and the flush fails. -/
def FlushFails (p : Protocol) (m : Message) : Prop :=
  m.data.getD 0 0 = requestTransferExit ∧ p.flashContextInitialized = true ∧ m.ret ≠ 0

/-- None of the three. -/
def Harmless (_ : List (State × Message)) (s : State) (m : Message) : Prop :=
  ¬ StopsThread m ∧ ¬ WriteFails s.protocol m ∧ ¬ FlushFails s.protocol m

/-- The reset that reboots. -/
abbrev acceptedReset : List UInt8 := [ecuReset, resetTypeHard]

/-- **A message gets one final response and the server is ready for the
next**, unless it is the reset. -/
def Answered (_ : List (State × Message)) (s : State) (m : Message) : Prop :=
  ∀ handled s', step s m = some (handled, s') → m.data ≠ [] → m.data ≠ acceptedReset →
    handled.Once ∧ s'.running = true

section Loop

variable {s s' : State} {m : Message} {past : List (State × Message)}

theorem eq_acceptedReset (hsid : data.getD 0 0 = ecuReset) :
    data = acceptedReset ↔ data.length = 2 ∧ data.getD 1 0 = resetTypeHard := by
  constructor
  · rintro rfl
    exact ⟨rfl, rfl⟩
  · rintro ⟨hlen, htype⟩
    obtain ⟨a, b, rfl⟩ := List.length_eq_two.mp hlen
    obtain rfl : a = ecuReset := hsid
    obtain rfl : b = resetTypeHard := htype
    rfl

/-- The other services do no harm. -/
theorem harmless_of_sid (hroutine : m.data.getD 0 0 ≠ routineControl)
    (hdata : m.data.getD 0 0 ≠ transferData) (hexit : m.data.getD 0 0 ≠ requestTransferExit) :
    Harmless past s m :=
  ⟨fun h => hroutine h.1, fun h => hdata h.1, fun h => hexit h.1⟩

/-- A service by its number. -/
theorem harmless_of_sid_eq {sid : UInt8} (h : m.data.getD 0 0 = sid)
    (hsid : sid ≠ routineControl ∧ sid ≠ transferData ∧ sid ≠ requestTransferExit) :
    Harmless past s m := by
  subst h
  exact harmless_of_sid hsid.1 hsid.2.1 hsid.2.2

theorem harmless_routineControl (h : m.data.getD 0 0 = routineControl) :
    Harmless past s m ↔ ¬ (3 ≤ m.data.length ∧ m.data.getD 1 0 ≠ 0x01) := by
  constructor
  · intro hharmless hstops
    exact hharmless.1 ⟨h, hstops⟩
  · intro hstops
    refine ⟨fun hbad => hstops hbad.2, fun hbad => ?_, fun hbad => ?_⟩
    · exact absurd (h.symm.trans hbad.1) (by decide)
    · exact absurd (h.symm.trans hbad.1) (by decide)

theorem harmless_transferData (h : m.data.getD 0 0 = transferData) :
    Harmless past s m ↔ ¬ (2 ≤ m.data.length ∧ m.data.getD 1 0 = s.protocol.blockId + 1 ∧
      s.protocol.flashContextInitialized = true ∧ m.ret ≠ 0) := by
  constructor
  · intro hharmless hfails
    exact hharmless.2.1 ⟨h, hfails⟩
  · intro hfails
    refine ⟨fun hbad => ?_, fun hbad => hfails hbad.2, fun hbad => ?_⟩
    · exact absurd (h.symm.trans hbad.1) (by decide)
    · exact absurd (h.symm.trans hbad.1) (by decide)

theorem harmless_transferExit (h : m.data.getD 0 0 = requestTransferExit) :
    Harmless past s m ↔ ¬ (s.protocol.flashContextInitialized = true ∧ m.ret ≠ 0) := by
  constructor
  · intro hharmless hfails
    exact hharmless.2.2 ⟨h, hfails⟩
  · intro hfails
    refine ⟨fun hbad => ?_, fun hbad => ?_, fun hbad => hfails hbad.2⟩
    · exact absurd (h.symm.trans hbad.1) (by decide)
    · exact absurd (h.symm.trans hbad.1) (by decide)

/-- **One message** other than the reset is answered once exactly when it
is harmless. -/
theorem once_handle_iff (hne : m.data ≠ []) (hreset : m.data ≠ acceptedReset) :
    (s.handle m).Once ↔ Harmless past s m := by
  have hsid : (receive s.rxBuffer m.data).getD 0 0 = m.data.getD 0 0 :=
    receive_getD (List.length_pos_iff.mpr hne)
  -- a handler that looks at the second byte has tested the length first
  have hsecond : ∀ {n : ℕ} {P : UInt8 → Prop}, 2 ≤ n →
      (n ≤ m.data.length ∧ P ((receive s.rxBuffer m.data).getD 1 0) ↔
        n ≤ m.data.length ∧ P (m.data.getD 1 0)) := by
    intro n P hn
    refine and_congr_right fun hlen => ?_
    rw [receive_getD (by omega)]
  unfold State.handle handleMessage
  simp only [hsid]
  split_ifs with hsession hecu hroutine hdownload hdata hexit
  · exact iff_of_true once_sessionControl (harmless_of_sid_eq hsession (by decide))
  · refine iff_of_true (once_ecuReset.mpr ?_) (harmless_of_sid_eq hecu (by decide))
    rintro ⟨hlen, htype⟩
    rw [receive_getD (by omega)] at htype
    exact hreset ((eq_acceptedReset hecu).mpr ⟨hlen, htype⟩)
  · rw [once_routineControl, harmless_routineControl hroutine]
    exact not_congr (hsecond (P := fun b => b ≠ 0x01) (by omega))
  · exact iff_of_true once_requestDownload (harmless_of_sid_eq hdownload (by decide))
  · rw [once_transferData, harmless_transferData hdata]
    exact not_congr (hsecond (P := fun b => b = s.protocol.blockId + 1 ∧ _) (by omega))
  · rw [once_transferExit, harmless_transferExit hexit]
  · exact iff_of_true (once_negative (by decide)) (harmless_of_sid hroutine hdata hexit)

/-- A round goes on exactly where its message leaves the loop going. -/
theorem running_of_receive {handled : Handled} (h : step s m = some (handled, s'))
    (hafter : handled.after = .receive) : s'.running = true := by
  obtain ⟨hrunning, hlen⟩ := running_of_step h
  obtain rfl := handled_of_step h
  rw [step_of_receive hrunning hlen hafter] at h
  obtain ⟨-, rfl⟩ := Prod.mk.inj (Option.some.inj h)
  rfl

theorem answered_step (hstep : server.Step s m s') : Answered past s m ↔ Harmless past s m := by
  obtain ⟨handled, hs⟩ := hstep
  by_cases hne : m.data = []
  · have hsid : m.data.getD 0 0 = 0 := by rw [hne]; rfl
    exact iff_of_true (fun _ _ _ hne' => absurd hne hne') (harmless_of_sid_eq hsid (by decide))
  by_cases hreset : m.data = acceptedReset
  · have hsid : m.data.getD 0 0 = ecuReset := by rw [hreset]; rfl
    exact iff_of_true (fun _ _ _ _ hreset' => absurd hreset hreset')
      (harmless_of_sid_eq hsid (by decide))
  rw [← once_handle_iff hne hreset]
  constructor
  · intro hanswered
    rw [← handled_of_step hs]
    exact (hanswered handled s' hs hne hreset).1
  · intro h handled t ht _ _
    obtain rfl := handled_of_step ht
    exact ⟨h, running_of_receive ht h.2⟩

/-- **Every message of a run is answered once and leaves the server ready,
exactly in the runs without a routine sub-function other than start, a
failed write and a failed flush.** -/
theorem answered_iff (h : server.Run past s) :
    Machine.Throughout Answered past ↔ Machine.Throughout Harmless past :=
  h.throughout_congr fun _ _ _ _ _ hstep => answered_step hstep

end Loop

/-- Messages to a server that has just started, with flash calls that
succeed. -/
def exchange (messages : List (List UInt8)) : List (State × Message) :=
  history step .boot (messages.map (⟨·, 0⟩))

theorem run_exchange (messages : List (List UInt8))
    (h : (runs step .boot (messages.map (⟨·, 0⟩))).isSome) :
    ∃ s, server.Run (exchange messages) s := by
  obtain ⟨⟨as, s⟩, hruns⟩ := Option.isSome_iff_exists.mp h
  exact ⟨s, server.run_history (fun _ _ a _ h => ⟨a, h⟩) rfl hruns⟩

/-- A session, an unknown service and an unknown routine. -/
theorem answered_iff_refused :
    Machine.Throughout Answered (exchange [[0x10, 0x02], [0x22, 0xF1, 0x90], [0x31, 0x01, 0, 1]]) ↔
      Machine.Throughout Harmless
        (exchange [[0x10, 0x02], [0x22, 0xF1, 0x90], [0x31, 0x01, 0, 1]]) := by
  obtain ⟨s, hrun⟩ := run_exchange [[0x10, 0x02], [0x22, 0xF1, 0x90], [0x31, 0x01, 0, 1]] rfl
  exact answered_iff hrun

/-- **A request to stop a routine stops the server.** -/
theorem not_answered_stopRoutine :
    ∃ past s, server.Run past s ∧ ¬ Machine.Throughout Answered past := by
  obtain ⟨s, hrun⟩ := run_exchange [[0x31, 0x02, 0x05, 0x39]] rfl
  refine ⟨_, s, hrun, fun h => ?_⟩
  have hanswered := h [] .boot ⟨[0x31, 0x02, 0x05, 0x39], 0⟩ [] rfl
  obtain ⟨-, hrunning⟩ := hanswered _ _ rfl (by decide) (by decide)
  exact absurd hrunning (by decide)

/-! ## Leftover bytes -/

/-- The message that ends before the byte its handler reads: RoutineControl,
start, and the high byte of the routines the server knows. -/
abbrev halfRoutineId : List UInt8 := [routineControl, 0x01, 0x05]

section Leftover

variable {s t : State} {m : Message}

theorem handleSessionControl_receive :
    handleSessionControl p (receive rx data) data.length =
      handleSessionControl p data data.length := by
  unfold handleSessionControl
  split
  · rfl
  · rename_i hlen
    rw [receive_getD (by omega)]

theorem handleEcuReset_receive :
    handleEcuReset p (receive rx data) data.length = handleEcuReset p data data.length := by
  unfold handleEcuReset
  split
  · rfl
  · rename_i hlen
    rw [receive_getD (by omega)]

theorem handleTransferData_receive :
    handleTransferData p (receive rx data) data.length ret =
      handleTransferData p data data.length ret := by
  unfold handleTransferData
  split
  · rfl
  · rename_i hlen
    rw [receive_getD (by omega), receive_payload (by omega), payload_eq]

/-- Where the high byte is another one, the low byte does not matter. -/
theorem handleRoutineControl_of_high {len : ℕ} (h : rx.getD 2 0 ≠ 0x05) :
    handleRoutineControl p rx len ret =
      if len < 3 then answer p (sendNegativeResponse routineControl incorrectMessageLength)
      else if rx.getD 1 0 ≠ 0x01 then
        ⟨p, [sendNegativeResponse routineControl subfunctionNotSupported], [], .stop⟩
      else answer p (sendNegativeResponse routineControl subfunctionNotSupported) := by
  have herase : routineId rx ≠ eraseRoutine := fun heq => h (high_of_known (.inl heq))
  have hconfirm : routineId rx ≠ confirmRoutine := fun heq => h (high_of_known (.inr heq))
  unfold handleRoutineControl
  simp only [herase, hconfirm, if_false]

/-- The other ways to read only bytes that are there: fewer than three of
them, four or more, or a sub-function that is refused first. -/
theorem handleRoutineControl_receive (hsid : data.getD 0 0 = routineControl)
    (hhalf : data ≠ halfRoutineId) :
    handleRoutineControl p (receive rx data) data.length ret =
      handleRoutineControl p data data.length ret := by
  by_cases hshort : data.length < 3
  · unfold handleRoutineControl
    rw [if_pos hshort, if_pos hshort]
  have hsub : (receive rx data).getD 1 0 = data.getD 1 0 := receive_getD (by omega)
  have hhigh : (receive rx data).getD 2 0 = data.getD 2 0 := receive_getD (by omega)
  by_cases hlen : data.length = 3
  · by_cases hstart : data.getD 1 0 = 0x01
    · have hfive : data.getD 2 0 ≠ 0x05 := by
        intro hfive
        obtain ⟨a, b, c, rfl⟩ := List.length_eq_three.mp hlen
        apply hhalf
        obtain rfl : a = routineControl := hsid
        obtain rfl : b = 0x01 := hstart
        obtain rfl : c = 0x05 := hfive
        rfl
      rw [handleRoutineControl_of_high hfive, handleRoutineControl_of_high (by rwa [hhigh]), hsub]
    · unfold handleRoutineControl
      rw [if_neg hshort, if_neg hshort, hsub, if_pos hstart, if_pos hstart]
  · have hlow : (receive rx data).getD 3 0 = data.getD 3 0 := receive_getD (by omega)
    unfold handleRoutineControl routineId
    rw [hsub, hhigh, hlow]

/-- **Every other message is handled from its own bytes.** -/
theorem handleMessage_receive (hne : data ≠ []) (hhalf : data ≠ halfRoutineId) :
    handleMessage p (receive rx data) data.length ret = handleMessage p data data.length ret := by
  have hsid : (receive rx data).getD 0 0 = data.getD 0 0 :=
    receive_getD (List.length_pos_iff.mpr hne)
  unfold handleMessage
  simp only [hsid]
  by_cases hroutine : data.getD 0 0 = routineControl
  · rw [handleSessionControl_receive, handleEcuReset_receive, handleTransferData_receive,
      handleRoutineControl_receive hroutine hhalf]
  · rw [handleSessionControl_receive, handleEcuReset_receive, handleTransferData_receive,
      if_neg hroutine, if_neg hroutine]

/-- **What a message does does not depend on bytes it did not contain**: a
run that ends with the same protocol state and other leftovers handles it
in the same way. -/
def Independent (s : State) (m : Message) : Prop :=
  ∀ past t, server.Run past t → t.running = true → t.protocol = s.protocol →
    t.handle m = s.handle m

/-- The server after a message that it refused. -/
def State.leave (s : State) (left : List UInt8) : State :=
  ⟨s.protocol, receive s.rxBuffer left, true⟩

/-- A refused message leaves its bytes behind and nothing else. -/
theorem run_leave {past : List (State × Message)} (hrun : server.Run past s)
    (hrunning : s.running = true) (left : List UInt8) (nrc : UInt8)
    (hlen : left.length ≤ maxReceive)
    (h : s.handle ⟨left, 0⟩ = answer s.protocol (sendNegativeResponse (left.getD 0 0) nrc)) :
    server.Run (past ++ [(s, ⟨left, 0⟩)]) (s.leave left) := by
  refine hrun.step ⟨s.handle ⟨left, 0⟩, ?_⟩
  rw [step_of_receive hrunning hlen (by rw [h]; rfl), h]
  rfl

/-- So two refused messages make two runs to compare. -/
theorem Independent.leave {past : List (State × Message)} (h : Independent s m)
    (hrun : server.Run past s) (hrunning : s.running = true) (left left' : List UInt8) (nrc : UInt8)
    (hlen : left.length ≤ maxReceive) (hlen' : left'.length ≤ maxReceive)
    (hleft : s.handle ⟨left, 0⟩ = answer s.protocol (sendNegativeResponse (left.getD 0 0) nrc))
    (hleft' : s.handle ⟨left', 0⟩ =
      answer s.protocol (sendNegativeResponse (left'.getD 0 0) nrc)) :
    (s.leave left).handle m = (s.leave left').handle m := by
  have hone := h _ _ (run_leave hrun hrunning left nrc hlen hleft) rfl rfl
  have htwo := h _ _ (run_leave hrun hrunning left' nrc hlen' hleft') rfl rfl
  exact hone.trans htwo.symm

/-- The leftover byte completes the id of the erase routine -/
theorem handle_half_erase :
    (s.leave [requestDownload, 0, 0, 0x39]).handle ⟨halfRoutineId, ret⟩ =
      handleEraseRoutine s.protocol ret := by
  show handleRoutineControl s.protocol
    (routineControl :: 0x01 :: 0x05 :: 0x39 :: s.rxBuffer.drop 4) 3 ret = _
  have hid : routineId (routineControl :: 0x01 :: 0x05 :: 0x39 :: s.rxBuffer.drop 4) =
      eraseRoutine := by
    show (0x05 : UInt8).toUInt16 <<< 8 ||| (0x39 : UInt8).toUInt16 = 1337
    decide
  have hstart : (routineControl :: 0x01 :: 0x05 :: 0x39 :: s.rxBuffer.drop 4).getD 1 0 = 0x01 := rfl
  unfold handleRoutineControl
  rw [if_neg (by decide), if_neg (not_not.mpr hstart), if_pos hid]

/-- or that of no routine. -/
theorem handle_half_refuse :
    (s.leave [requestDownload, 0, 0, 0]).handle ⟨halfRoutineId, ret⟩ =
      answer s.protocol (sendNegativeResponse routineControl subfunctionNotSupported) := by
  show handleRoutineControl s.protocol
    (routineControl :: 0x01 :: 0x05 :: 0 :: s.rxBuffer.drop 4) 3 ret = _
  have hid : routineId (routineControl :: 0x01 :: 0x05 :: 0 :: s.rxBuffer.drop 4) = 0x0500 := by
    show (0x05 : UInt8).toUInt16 <<< 8 ||| (0 : UInt8).toUInt16 = 0x0500
    decide
  have hstart : (routineControl :: 0x01 :: 0x05 :: 0 :: s.rxBuffer.drop 4).getD 1 0 = 0x01 := rfl
  unfold handleRoutineControl
  rw [if_neg (by decide), if_neg (not_not.mpr hstart), hid, if_neg (by decide), if_neg (by decide)]

/-- **Exactly two messages are handled by leftovers**: the empty one, whose
service is the one of an earlier message, and the half routine id. -/
theorem independent_iff {past : List (State × Message)} (hrun : server.Run past s)
    (hrunning : s.running = true) :
    Independent s m ↔ m.data ≠ [] ∧ m.data ≠ halfRoutineId := by
  obtain ⟨data, ret⟩ := m
  constructor
  · intro hindependent
    refine ⟨?_, ?_⟩
    · rintro rfl
      -- two services that are not supported, answered under their own names
      have hsame := hindependent.leave hrun hrunning [0x00] [0x01] serviceNotSupported
        (by decide) (by decide) rfl rfl
      have hzero : (s.leave [0x00]).handle ⟨[], ret⟩ =
          answer s.protocol (sendNegativeResponse 0x00 serviceNotSupported) := rfl
      have hone : (s.leave [0x01]).handle ⟨[], ret⟩ =
          answer s.protocol (sendNegativeResponse 0x01 serviceNotSupported) := rfl
      rw [hzero, hone] at hsame
      have hne : [sendNegativeResponse 0x00 serviceNotSupported] ≠
          [sendNegativeResponse 0x01 serviceNotSupported] := by decide
      exact hne (congrArg Handled.sent hsame)
    · rintro rfl
      -- the fourth byte of a download request of the wrong length
      have hsame := hindependent.leave hrun hrunning [requestDownload, 0, 0, 0x39]
        [requestDownload, 0, 0, 0] incorrectMessageLength (by decide) (by decide) rfl rfl
      rw [handle_half_erase, handle_half_refuse] at hsame
      have hcalls := congrArg Handled.calls hsame
      unfold handleEraseRoutine answer at hcalls
      split_ifs at hcalls
  · rintro ⟨hne, hhalf⟩ past t - - hprotocol
    unfold State.handle
    rw [hprotocol, handleMessage_receive hne hhalf, handleMessage_receive hne hhalf]

/-- Behind a refused download request: a routine id of two bytes, and half of
one. -/
theorem independent_iff_leftover :
    Independent (State.boot.leave [requestDownload, 0, 0, 0x39]) ⟨[0x31, 0x01, 0x05, 0x38], 0⟩ ∧
      ¬ Independent (State.boot.leave [requestDownload, 0, 0, 0x39]) ⟨halfRoutineId, 0⟩ := by
  have hrun := run_leave (.init rfl) rfl [requestDownload, 0, 0, 0x39] incorrectMessageLength
    (by decide) rfl
  exact ⟨(independent_iff hrun rfl).mpr ⟨by decide, by decide⟩,
    fun h => ((independent_iff hrun rfl).mp h).2 rfl⟩

/-- **Three bytes that erase**: what they do is decided by a byte of an
earlier message that was refused. -/
theorem not_independent_half :
    ∃ past s past' t, server.Run past s ∧ server.Run past' t ∧ s.running = true ∧
      t.running = true ∧ s.protocol = t.protocol ∧
        s.handle ⟨halfRoutineId, 0⟩ ≠ t.handle ⟨halfRoutineId, 0⟩ := by
  have hinit : server.Run [] .boot := .init rfl
  have hrun := run_leave hinit rfl [requestDownload, 0, 0, 0x39] incorrectMessageLength
    (by decide) rfl
  have hrun' := run_leave hinit rfl [requestDownload, 0, 0, 0] incorrectMessageLength
    (by decide) rfl
  refine ⟨_, _, _, _, hrun, hrun', rfl, rfl, rfl, fun h => ?_⟩
  rw [handle_half_erase, handle_half_refuse] at h
  exact absurd (congrArg Handled.calls h) (List.cons_ne_nil _ _)

end Leftover

end Legacy

end Ardep
