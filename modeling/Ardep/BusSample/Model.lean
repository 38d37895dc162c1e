import Ardep.Common.Machine
import Ardep.Gearshift.Address
import Ardep.Uds.Err
/-!
# Bus sample — a frame passed along a chain of boards

The sample chains boards over CAN. Its client chooses a controller and
gives every other board, the workers, an id to receive on and one to send
on. The controller sends a frame of one byte; each worker appends that
byte signed with its own address and sends the frame on; what comes back
to the controller is the result of a routine, and the client checks the
signatures.

Boards have the index at which the client lists them, the controller 0.
The bus is the frames that were sent and have not been on it yet, in any
order. A handler and the interrupt that feeds it interleave, so a handler
that reads a variable twice has two steps.
-/

namespace Ardep

namespace BusSample

open Gearshift Uds

/-- `struct can_frame`, of its members those that the sample uses. -/
structure CanFrame where
  id : ℕ
  dlc : ℕ
  data : ℕ → UInt8

/-- A frame's id meets a filter for standard ids. -/
def Matches (filter id : ℕ) : Prop := filter % 2 ^ 11 = id % 2 ^ 11

instance (filter id : ℕ) : Decidable (Matches filter id) := inferInstanceAs (Decidable (_ = _))

/-! ## Configuring the workers -/

/-- The variables of `worker.c` that a client sets, and the id that the
filter is for where the driver has one. -/
structure Worker where
  canReceiveAddr : UInt16
  canSendAddr : UInt16
  receiveCanFilterId : ℤ
  filter : Option UInt16

/-- `sys_le16_to_cpu` of the two bytes that were copied. -/
def sysLe16 (data : List UInt8) : UInt16 :=
  (data.getD 0 0).toUInt16 ||| (data.getD 1 0).toUInt16 <<< 8

/-- `UDS_NRC_IncorrectMessageLengthOrInvalidFormat`. -/
def incorrectMessageLength : UDSErr := 0x13

/-- `w_data_by_id_action`, giving its return value and `consume_event`.
`added` is what `can_add_rx_filter` gives. -/
def wDataByIdAction (dataId : UInt16) (data : List UInt8) (added : ℤ) (consumeEvent : Bool)
    (b : Worker) : (UDSErr × Bool) × Worker :=
  if dataId = 0x1100 then
    if data.length ≠ 2 then ((incorrectMessageLength, consumeEvent), b)
    else
      let b := { b with canReceiveAddr := sysLe16 data }
      -- `can_remove_rx_filter` leaves the board without one
      let b := { b with filter := if b.receiveCanFilterId ≠ -1 then none else b.filter }
      let b := { b with
        receiveCanFilterId := added
        filter := if added < 0 then b.filter else some b.canReceiveAddr }
      if added < 0 then ((.conditionsNotCorrect, consumeEvent), b)
      else ((.positiveResponse, true), b)
  else if dataId = 0x1101 then
    if data.length ≠ 2 then ((incorrectMessageLength, consumeEvent), b)
    else ((.positiveResponse, true), { b with canSendAddr := sysLe16 data })
  else ((.ok, false), b)

/-- The client's encoding of an identifier's value, `"<H"`. -/
def encode (v : ℕ) : List UInt8 := [UInt8.ofNat v, UInt8.ofNat (v / 256)]

/-- `receive_address` of the client for board `i`. -/
def receiveAddress (i : ℕ) : ℕ := if i = 1 then 0x001 else i + 1

/-- `send_address` of the client for board `i` of `n`. -/
def sendAddress (n i : ℕ) : ℕ := if i = n - 1 then 0x000 else i + 2

/-- The client's two writes to board `i`. An answer that is not positive is
an exception, which ends the client. -/
def configureWorker (n i : ℕ) (added : ℤ) (b : Worker) : Option Worker :=
  let ((ret, _), b) := wDataByIdAction 0x1100 (encode (receiveAddress i)) added false b
  if ret ≠ .positiveResponse then none
  else
    let ((ret, _), b) := wDataByIdAction 0x1101 (encode (sendAddress n i)) added false b
    if ret ≠ .positiveResponse then none else some b

/-- The client's loop from board `i` on, of the boards left to do. -/
def configureFrom (n : ℕ) (added : ℕ → ℤ) (i : ℕ) : ℕ → (ℕ → Worker) → Option (ℕ → Worker)
  | 0, boards => some boards
  | left + 1, boards =>
    match configureWorker n i (added i) (boards i) with
    | none => none
    | some b => configureFrom n added (i + 1) left (Function.update boards i b)

/-- **The client configures the chain**: every board but the controller. -/
def configure (n : ℕ) (added : ℕ → ℤ) (boards : ℕ → Worker) : Option (ℕ → Worker) :=
  configureFrom n added 1 (n - 1) boards

/-! ## The chain at work -/

/-- **A configured chain**: the boards as the client lists them, the levels
of their switches, and the position at which the client found each. -/
structure Chain where
  n : ℕ
  boards : ℕ → Worker
  levels : ℕ → List Bool
  found : ℕ → ℕ
  found_eq : ∀ i, found i = position (levels i)
  three_pins : ∀ i, (levels i).length = 3

namespace Chain

variable (C : Chain)

/-- The source address of a board, as `uds_get_isotp_config` gives it. -/
def sourceAddr (i : ℕ) : ℕ :=
  (udsDefaultInstanceGetAddresses defaultBaseIds ((C.levels i).map .ok)).sourceAddr

/-- `addresses[i]._txid` of the client. -/
def txid (i : ℕ) : ℕ := 0x7E8 + C.found i

end Chain

/-- The dynamic variables of `worker.c`: the frame of the interrupt, and
the work item. -/
structure WorkerState where
  receivedCanFrame : CanFrame
  queued : Bool
  toSend : Option CanFrame

/-- Where `controller_routine` is. -/
inductive RoutinePhase
  | idle
  | submitted
  | running
  | filtered
  | sent
  | taken (ret : Bool)
  | removed (ret : Bool)
  deriving DecidableEq, Repr

/-- The variables of `controller.c`, and the filters that the driver calls
`controller_routine_rx` for: the one of the routine that runs, and any that
an earlier one left behind, whose frame is gone. -/
structure ControllerState where
  phase : RoutinePhase
  running : Bool
  status : UInt8
  data : ℕ → UInt8
  sem : Bool
  filter : Bool
  leftBehind : Bool
  controllerReceivedFrame : CanFrame

/-- The state of the bus and of the boards on it. A frame is there with the
board that sends it. -/
structure State where
  work : ℕ → WorkerState
  ctl : ControllerState
  bus : List (ℕ × CanFrame)

/-- The filter that the driver calls `controller_routine_rx` for. -/
inductive Served
  /-- The one of the routine that runs. -/
  | own
  /-- One that was left behind. Its frame was on a stack that is in use
  again: `overwritten` is what the write makes of the frame of the routine
  that runs. -/
  | leftBehind (overwritten : CanFrame)

/-- What can happen. -/
inductive Event
  /-- A frame is on the bus, and every other board has it. -/
  | transmit (k : ℕ) (served : Served)
  /-- `can_rx_cb_work_handler` copies the frame. -/
  | copy (i : ℕ)
  /-- It sends the copy, or `can_send` fails. -/
  | send (i : ℕ) (accepted : Bool)
  /-- A request to start the routine. -/
  | startRoutine
  /-- The work of the routine starts. -/
  | begin
  /-- It adds its filter, or `can_add_rx_filter` fails, which it does not
  look at. The frame on its stack is not initialised. -/
  | addFilter (added : Bool) (uninitialised : CanFrame)
  /-- It sends the first frame, or `can_send` fails. -/
  | sendFirst (accepted : Bool)
  /-- `k_sem_take` returns: the semaphore was given, or the time is up. -/
  | take
  /-- It removes its filter. -/
  | removeFilter
  /-- It records the result. -/
  | finish

namespace Chain

variable (C : Chain)

/-- `can_rx_cb_work_handler` with the frame it copied: the length is read
from the interrupt's variable again. -/
def handled (i : ℕ) (toSend received : CanFrame) : CanFrame :=
  if toSend.dlc + 1 > 8 then toSend
  else
    { id := (C.boards i).canSendAddr.toNat
      dlc := received.dlc + 1
      data := Function.update toSend.data received.dlc
        (toSend.data 0 ^^^ UInt8.ofNat (C.sourceAddr i)) }

/-- `initial_frame`. -/
def initialFrame : CanFrame := ⟨0x001, 1, fun k => if k = 0 then 0xde else 0⟩

/-- `can_rx_cb` of a board, if its filter lets the frame in. -/
def canRx (sender : ℕ) (frame : CanFrame) (i : ℕ) (w : WorkerState) : WorkerState :=
  if i ≠ sender ∧ i < C.n ∧ ∃ a ∈ (C.boards i).filter, Matches a.toNat frame.id then
    { w with receivedCanFrame := frame, queued := true }
  else w

/-- The controller gets the frame. -/
def Reaches (sender : ℕ) (frame : CanFrame) (s : ControllerState) : Prop :=
  sender ≠ 0 ∧ (s.filter ∨ s.leftBehind) ∧ Matches 0 frame.id

instance (sender : ℕ) (frame : CanFrame) (s : ControllerState) :
    Decidable (Reaches sender frame s) := inferInstanceAs (Decidable (_ ∧ _ ∧ _))

/-- A filter that there is, where there is one. -/
def Serves (s : ControllerState) : Served → Prop
  | .own => s.filter ∨ ¬ s.leftBehind
  | .leftBehind _ => s.leftBehind

instance (s : ControllerState) : (served : Served) → Decidable (Serves s served)
  | .own => inferInstanceAs (Decidable (_ ∨ _))
  | .leftBehind _ => inferInstanceAs (Decidable (_ = _))

/-- `controller_routine_rx`, if a filter lets the frame in: `user_data` is
the frame of the routine whose filter it is. -/
def controllerRoutineRx (sender : ℕ) (frame : CanFrame) (served : Served) (s : ControllerState) :
    ControllerState :=
  if Reaches sender frame s then
    match served with
    | .own => { s with sem := true, controllerReceivedFrame := frame }
    | .leftBehind overwritten => { s with sem := true, controllerReceivedFrame := overwritten }
  else s

/-- `async_routine_control_action` with a request to start. -/
def asyncRoutineControlStart (s : ControllerState) : UDSErr × ControllerState :=
  -- `k_work_is_pending`
  if s.phase ≠ .idle then (.requestSequenceError, s)
  else if s.running then (.requestSequenceError, s)
  else (.positiveResponse, { s with status := 0xFF, phase := .submitted })

/-- **A step.** -/
def step (s : State) : Event → Option State
  | .transmit k served =>
    match s.bus[k]? with
    | none => none
    | some (sender, frame) =>
      if Serves s.ctl served then
        some
          { work := fun i => C.canRx sender frame i (s.work i)
            ctl := controllerRoutineRx sender frame served s.ctl
            bus := s.bus.eraseIdx k }
      else none
  | .copy i =>
    if i < C.n ∧ (s.work i).queued ∧ (s.work i).toSend = none then
      some { s with
        work := Function.update s.work i
          { s.work i with queued := false, toSend := some (s.work i).receivedCanFrame } }
    else none
  | .send i accepted =>
    match (s.work i).toSend with
    | none => none
    | some toSend =>
      if i < C.n then
        some { s with
          work := Function.update s.work i { s.work i with toSend := none }
          bus := if accepted then (i, C.handled i toSend (s.work i).receivedCanFrame) :: s.bus
            else s.bus }
      else none
  | .startRoutine => some { s with ctl := (asyncRoutineControlStart s.ctl).2 }
  | .begin =>
    if s.ctl.phase = .submitted then
      some { s with ctl := { s.ctl with phase := .running, running := true } }
    else none
  | .addFilter added uninitialised =>
    if s.ctl.phase = .running then
      some { s with ctl :=
        { s.ctl with
          phase := .filtered
          filter := added
          controllerReceivedFrame := uninitialised } }
    else none
  | .sendFirst accepted =>
    if s.ctl.phase = .filtered then
      if accepted then
        some { s with ctl := { s.ctl with phase := .sent }, bus := (0, initialFrame) :: s.bus }
      else
        some { s with ctl :=
          { s.ctl with
            phase := .idle
            running := false
            status := 0x01
            filter := false
            leftBehind := s.ctl.leftBehind || s.ctl.filter } }
    else none
  | .take =>
    if s.ctl.phase = .sent then
      some { s with ctl := { s.ctl with phase := .taken s.ctl.sem, sem := false } }
    else none
  | .removeFilter =>
    match s.ctl.phase with
    | .taken ret =>
      some { s with ctl := { s.ctl with phase := .removed ret, filter := false } }
    | _ => none
  | .finish =>
    match s.ctl.phase with
    | .removed true =>
      let frame := s.ctl.controllerReceivedFrame
      some { s with ctl :=
        { s.ctl with
          phase := .idle
          running := false
          status := 0x00
          data := fun k => if k < min frame.dlc 8 then frame.data k else s.ctl.data k } }
    | .removed false =>
      some { s with ctl := { s.ctl with phase := .idle, running := false, status := 0x01 } }
    | _ => none

/-- The client's check of the frame that the routine gives: the bytes of
the boards after the controller, signed. -/
def signaturesValid (frame : ℕ → UInt8) : Prop :=
  ∀ i, 0 < i → i < C.n → frame i = frame 0 ^^^ UInt8.ofNat (C.txid i)

end Chain

end BusSample

end Ardep
