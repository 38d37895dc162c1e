import Ardep.Common.MsgQueue
import Ardep.Lin.Model
/-!
# The iso14229 instance — its filters, its queues and its tick

`iso14229_common.c` puts an instance of the iso14229 library on a CAN
device. `iso14229_zephyr_init` installs a filter for each source address,
and the callback of a filter puts the frame in the queue the filter was
installed with; the tick empties both queues into the ISO-TP link of each.
`iso14229_inject_can_frame_rx` calls the same callback for a frame that
was never on the bus.

The CAN driver and the kernel are not part of this repository. Of the
driver, `Controller` is what is documented: which frames a filter passes,
and that a frame several filters pass goes to any of them, by a priority
of the hardware. What `UDSISOTpCInit` leaves in the instance is an
argument of the initialisation.
-/

namespace Ardep

namespace Iso14229

open Lin (CanFilter canStdIdMask)

/-! ## Constants -/

/-- `CAN_FRAME_IDE`: the frame has an extended id. -/
abbrev canFrameIde : UInt8 := 0x01
/-- `CAN_FRAME_RTR`: the frame is a remote frame. -/
abbrev canFrameRtr : UInt8 := 0x02
/-- `CAN_FILTER_IDE`: the filter is for extended ids. -/
abbrev canFilterIde : UInt8 := 0x01

/-- `UDS_TP_NOOP_ADDR`. -/
abbrev udsTpNoopAddr : UInt32 := 0xFFFFFFFF

/-- The frames there is room for in `can_phys_buffer` and `can_func_buffer`. -/
abbrev canBufferFrames : ℕ := 25

/-! ## The instance -/

/-- `struct can_frame`. -/
structure CanFrame extends Lin.CanFrame where
  flags : UInt8
  deriving DecidableEq

/-- The queue a filter is installed with, the `user_data` of its callback. -/
inductive Msgq
  | canPhysMsgq
  | canFuncMsgq
  deriving DecidableEq

/-- `struct iso14229_zephyr_instance`: the two source addresses of `tp`,
and the queues. -/
@[ext]
structure Instance where
  physSa : UInt32
  funcSa : UInt32
  canPhysMsgq : MsgQueue CanFrame canBufferFrames
  canFuncMsgq : MsgQueue CanFrame canBufferFrames

namespace Instance

/-- One of the two queues. -/
def msgq (inst : Instance) : Msgq → MsgQueue CanFrame canBufferFrames
  | .canPhysMsgq => inst.canPhysMsgq
  | .canFuncMsgq => inst.canFuncMsgq

/-- The same instance with other frames waiting. -/
def withQueues (inst : Instance) (phys func : MsgQueue CanFrame canBufferFrames) : Instance :=
  { inst with canPhysMsgq := phys, canFuncMsgq := func }

/-- The source address of one kind. -/
def sourceAddr (inst : Instance) (functionalAddress : Bool) : UInt32 :=
  if functionalAddress then inst.funcSa else inst.physSa

end Instance

/-- The frame under another id. -/
def CanFrame.withId (frame : CanFrame) (id : UInt32) : CanFrame := { frame with id := id }

/-! ## Reception and injection -/

/-- `can_rx_cb`. A frame a full queue does not take is dropped, which is
logged. -/
def canRxCb (frame : CanFrame) (userData : Msgq) (inst : Instance) : Instance :=
  match userData with
  | .canPhysMsgq => { inst with canPhysMsgq := inst.canPhysMsgq.offer frame }
  | .canFuncMsgq => { inst with canFuncMsgq := inst.canFuncMsgq.offer frame }

/-- `iso14229_inject_can_frame_rx`: the frame with the id it is given, and
the instance. -/
def iso14229InjectCanFrameRx (inst : Instance) (frame : CanFrame) (functionalAddress : Bool) :
    CanFrame × Instance :=
  let frame := frame.withId (if functionalAddress then inst.funcSa else inst.physSa)
  (frame, canRxCb frame .canPhysMsgq inst)

/-- A filter that is installed with `can_rx_cb`. -/
structure RxFilter where
  filter : CanFilter
  userData : Msgq
  deriving DecidableEq

/-- `can_frame_matches_filter`. -/
def canFrameMatchesFilter (frame : CanFrame) (filter : CanFilter) : Bool :=
  if frame.flags &&& canFrameIde ≠ 0 ∧ filter.flags &&& canFilterIde = 0 then false
  else if frame.flags &&& canFrameIde = 0 ∧ filter.flags &&& canFilterIde ≠ 0 then false
  else if (frame.id ^^^ filter.id) &&& filter.mask ≠ 0 then false
  else true

/-- The queues of the filters that pass the frame. -/
def passing (filters : List RxFilter) (frame : CanFrame) : List Msgq :=
  (filters.filter fun f => canFrameMatchesFilter frame f.filter).map RxFilter.userData

/-- **A CAN controller**, as far as it is documented. -/
structure Controller where
  /-- Whether a frame with these flags is taken from the bus at all; a remote
  frame is only where the build accepts them. -/
  takes : UInt8 → Bool
  /-- Of the queues whose filters pass the frame, those it is put in. Where
  there are several that is up to the hardware. -/
  serves : CanFrame → List Msgq → List Msgq
  serves_sublist : ∀ frame queues, (serves frame queues).Sublist queues
  serves_ne_nil : ∀ frame queues, queues ≠ [] → serves frame queues ≠ []

/-- **The reception of a frame from the bus**: the callbacks of the filters
the controller serves. -/
def Controller.receive (ctrl : Controller) (filters : List RxFilter) (frame : CanFrame)
    (inst : Instance) : Instance :=
  if ctrl.takes frame.flags then
    (ctrl.serves frame (passing filters frame)).foldl (fun i q => canRxCb frame q i) inst
  else inst

/-! ## The tick -/

/-- The ISO-TP links of an instance. -/
inductive Link
  | physLink
  | funcLink
  deriving DecidableEq

/-- What a tick calls of the library. -/
inductive LibraryCall
  | isotpOnCanMessage (link : Link) (data : List UInt8) (dlc : ℕ)
  | udsServerPoll
  deriving DecidableEq

/-- `iso14229_zephyr_event_loop_tick`: the calls it makes, in order. -/
def iso14229ZephyrEventLoopTick (inst : Instance) : List LibraryCall × Instance :=
  let (framesPhys, physMsgq) := inst.canPhysMsgq.drain
  let (framesFunc, funcMsgq) := inst.canFuncMsgq.drain
  (framesPhys.map (fun f => .isotpOnCanMessage .physLink f.data f.dlc) ++
      framesFunc.map (fun f => .isotpOnCanMessage .funcLink f.data f.dlc) ++ [.udsServerPoll],
    { inst with canPhysMsgq := physMsgq, canFuncMsgq := funcMsgq })

/-! ## Initialisation -/

/-- `can_add_rx_filter` of the device with `can_rx_cb`, over the state of
the driver: the id of the filter or a negative error. -/
abbrev CanAddRxFilter (σ : Type) : Type := Msgq → CanFilter → σ → ℤ × σ

/-- What `UDSISOTpCInit` leaves of the configuration. -/
structure SourceAddresses where
  physSa : UInt32
  funcSa : UInt32

/-- What `k_mutex_init` returns for the mutex of the callback and for the
one of the thread, which is only there under `CONFIG_ISO14229_THREAD`. -/
structure MutexInits where
  eventCallbackMutex : ℤ
  threadMutex : Option ℤ

/-- What an initialisation returns and leaves: the instance, and the filters
the driver has taken. -/
structure Initialised (σ : Type) where
  ret : ℤ
  inst : Instance
  filters : List RxFilter
  driver : σ

/-- The filter for the physical source address. -/
def physFilter (inst : Instance) : RxFilter :=
  ⟨{ id := inst.physSa, mask := canStdIdMask, flags := 0 }, .canPhysMsgq⟩

/-- The filter for the functional source address. -/
def funcFilter (inst : Instance) : RxFilter :=
  ⟨{ id := inst.funcSa, mask := canStdIdMask, flags := 0 }, .canFuncMsgq⟩

variable {σ : Type}

/-- `iso14229_zephyr_init`. -/
def iso14229ZephyrInit (canAddRxFilter : CanAddRxFilter σ) (kMutexInit : MutexInits)
    (tp : SourceAddresses) (inst : Instance) (s : σ) : Initialised σ :=
  if kMutexInit.eventCallbackMutex ≠ 0 then ⟨kMutexInit.eventCallbackMutex, inst, [], s⟩
  else
    let inst : Instance := ⟨tp.physSa, tp.funcSa, .empty, .empty⟩
    let (err, s) := canAddRxFilter .canPhysMsgq (physFilter inst).filter s
    if err < 0 then ⟨err, inst, [], s⟩
    else if inst.funcSa ≠ udsTpNoopAddr then
      let (err, s) := canAddRxFilter .canFuncMsgq (funcFilter inst).filter s
      if err < 0 then ⟨err, inst, [physFilter inst], s⟩
      else ⟨kMutexInit.threadMutex.getD 0, inst, [physFilter inst, funcFilter inst], s⟩
    else ⟨kMutexInit.threadMutex.getD 0, inst, [physFilter inst], s⟩

end Iso14229

end Ardep
