import Ardep.Common.CellStore
import Ardep.Uds.Dynamic.Model
/-!
# Read — reading a data identifier

The read side of `dynamically_define_data_ids.c`, with the checks of
`data_by_identifier.c` and the default handlers of `memory_by_address.c`
it goes through. Reading a dynamic identifier raises one event for each of
its elements, so the dispatcher re-enters itself; `raise` is given
fuel for that, and a read that runs out of it gives nothing.

A function of the application is a `Prog`: it calls the `copy` function it
was handed as often as it likes, looks at what that returns, and in the
end returns and leaves the application in a new state.
-/

open Ardep.Uds.Dynamic

namespace Ardep

namespace Uds

namespace Read

/-! ## The application -/

/-- What a function of the application does: copy some bytes and go on
with the status, or return with its out-parameter and the application's
state set. -/
inductive Prog (α : Type)
  | done (ret : UDSErr) (flag : Bool) (app : α)
  | copy (src : List UInt8) (next : UInt8 → Prog α)

/-- What is asked for, as a function of the application sees it. -/
inductive Query
  | dataId (dataId : UInt16)
  | memory (memAddr memSize : ℕ)
  deriving DecidableEq

/-- The memory the default handlers admit: `UINTPTR_MAX`, and the chosen
SRAM and flash as base and end. In simulation any address will do. -/
structure MemoryMap where
  uintptrMax : ℕ
  nativeSim : Bool
  ram : Option (ℕ × ℕ)
  flash : Option (ℕ × ℕ)

/-- **The application and the client**, over the application's state: its
functions and every function of the library that is not modelled, the
memory, and the status the request's own copy function gives to a block
after what it has taken so far. -/
structure Application (F α : Type) where
  check : CheckFn F → Reg F → Query → α → Bool → Prog α
  action : ActionFn F → Reg F → Query → α → Bool → Prog α
  memory : α → ℕ → UInt8
  memoryMap : MemoryMap
  copy : List UInt8 → List UInt8 → UInt8

/-- What a read walks over: the registrations, and the elements of the
data list at each block. -/
structure Env (F α : Type) where
  inst : InstancePtr
  statics : List (Reg F)
  dynamics : List (Reg F)
  elements : ℕ → List DefinedData
  app : Application F α

/-- The registrations and lists of an instance. -/
def Env.ofState {F α : Type} (I : Instance F) (A : Application F α) (s : State F) : Env F α where
  inst := I.ptr
  statics := I.statics
  dynamics := s.dynamicRegistrations.map (·.reg)
  elements := fun p => (s.lists p).map (·.data)
  app := A

/-! ## Copying -/

/-- The copy functions: the one of the request, and the one that collects
into the static buffer. -/
inductive CopyFn
  | request
  | udsCopy
  deriving DecidableEq

/-- The arguments of the two events: `UDSRDBIArgs_t` and
`UDSReadMemByAddrArgs_t`. -/
inductive ReadArgs
  | readDataByIdent (dataId : UInt16) (copy : CopyFn)
  | readMemByAddr (memAddr memSize : ℕ) (copy : CopyFn)
  deriving DecidableEq

/-- The copy function the arguments carry. -/
def ReadArgs.copy : ReadArgs → CopyFn
  | .readDataByIdent _ copy => copy
  | .readMemByAddr _ _ copy => copy

/-- What the arguments ask for. -/
def ReadArgs.query : ReadArgs → Query
  | .readDataByIdent dataId _ => .dataId dataId
  | .readMemByAddr memAddr memSize _ => .memory memAddr memSize

/-- The state of a read: the application's, the first `temp_buffer_len`
bytes of `temp_buffer`, and what the request's copy function has taken. -/
structure ReadState (α : Type) where
  app : α
  tempBuffer : List UInt8
  sent : List UInt8

/-- A read, which may run out of fuel. -/
abbrev ReadM (α : Type) : Type → Type := StateT (ReadState α) Option

/-- Look at the application. -/
def getApp {α : Type} : ReadM α α := fun st => some (st.app, st)

/-- The application goes on in another state. -/
def setApp {α : Type} (app : α) : ReadM α Unit := fun st => some ((), { st with app := app })

/-- Look at the buffer. -/
def getTempBuffer {α : Type} : ReadM α (List UInt8) := fun st => some (st.tempBuffer, st)

/-- `temp_buffer_len = 0`. -/
def clearTempBuffer {α : Type} : ReadM α Unit := fun st => some ((), { st with tempBuffer := [] })

/-- `sizeof(temp_buffer)`. -/
def tempBufferSize : ℕ := 256

section Model

variable {F α : Type} (A : Application F α)

/-- A call of a copy function. `uds_copy` takes what fits in the buffer. -/
def runCopy (copy : CopyFn) (src : List UInt8) : ReadM α UInt8 := fun st =>
  match copy with
  | .udsCopy =>
    if src.length ≤ tempBufferSize - st.tempBuffer.length then
      some (0, { st with tempBuffer := st.tempBuffer ++ src })
    else some (0x14, st)
  | .request =>
    let status := A.copy st.sent src
    some (status, if status = 0 then { st with sent := st.sent ++ src } else st)

/-- Run a function of the application with the copy function it was
handed. -/
def runProg (copy : CopyFn) : Prog α → ReadM α (UDSErr × Bool)
  | .done ret flag app => do
    setApp app
    pure (ret, flag)
  | .copy src next => do
    let status ← runCopy A copy src
    runProg copy (next status)

/-! ## Checks -/

/-- `is_memory_address_valid`. -/
def isMemoryAddressValid (M : MemoryMap) (addr size : ℕ) (readonly : Bool) : Bool :=
  if M.uintptrMax - size < addr then false
  else if M.nativeSim then true
  else
    (match M.ram with
      | some (ramBase, ramEnd) => decide (ramBase ≤ addr ∧ addr + size ≤ ramEnd)
      | none => false) ||
    (readonly && match M.flash with
      | some (flashBase, flashEnd) => decide (flashBase ≤ addr ∧ addr + size ≤ flashEnd)
      | none => false)

/-- `uds_check_default_memory_by_addr_read`. -/
def udsCheckDefaultMemoryByAddrRead (memAddr memSize : ℕ) (applyAction : Bool) : UDSErr × Bool :=
  if memAddr = 0 then (.requestOutOfRange, applyAction)
  else if memSize = 0 then (.requestOutOfRange, applyAction)
  else if isMemoryAddressValid A.memoryMap memAddr memSize true = false then
    (.requestOutOfRange, applyAction)
  else (.ok, true)

/-- A context of a read. -/
abbrev ReadContext (F : Type) : Type := Context (CheckFn F) (ActionFn F) (UnregisterFn F) ReadArgs

/-- A check function called through a registration. -/
def checkFn (check : CheckFn F) (context : ReadContext F) (applyAction : Bool) :
    ReadM α (UDSErr × Bool) :=
  match check, context.arg with
  | .udsDynamicDataByIdReadDataByIdCheck, .readDataByIdent dataId _ =>
    pure (.ok, if context.registration.dataId? = some dataId then true else applyAction)
  | .udsCheckDefaultMemoryByAddrRead, .readMemByAddr memAddr memSize _ =>
    pure (udsCheckDefaultMemoryByAddrRead A memAddr memSize applyAction)
  | _, _ => do
    let app ← getApp
    runProg A context.arg.copy
      (A.check check context.registration context.arg.query app applyAction)

/-- `reg->data_identifier.read.check`. -/
def readCheck (reg : Reg F) : Option (CheckFn F) :=
  match reg.data with
  | .dataIdentifier _ _ read _ _ => read.check
  | _ => none

/-- `uds_check_read_with_data_id`. -/
def udsCheckReadWithDataId (dataId : UInt16) (context : ReadContext F) (applyAction : Bool) :
    ReadM α (UDSErr × Bool) :=
  if context.registration.dataId? ≠ some dataId then pure (.ok, false)
  else
    match readCheck context.registration with
    | some check => checkFn A check context applyAction
    | none => pure (.ok, applyAction)

/-! ## Actions -/

/-- The loop of `uds_dynamic_data_by_id_read_data_by_id_action` over the
elements that are left. `raise` is `uds_event_callback` on the instance. -/
def readElements (raise : UDSEvent → ReadArgs → ReadM α UDSErr) (copy : CopyFn) :
    List DefinedData → ReadM α UDSErr
  | [] => pure .ok
  | .id id position size :: rest => do
    -- also where `copy` is `uds_copy` and the buffer holds what was collected so far
    clearTempBuffer
    let ret ← raise .readDataByIdent (.readDataByIdent id .udsCopy)
    if ret ≠ .positiveResponse then pure ret
    else do
      let tempBuffer ← getTempBuffer
      if tempBuffer.length < position.toNat + size.toNat then pure .generalReject
      else do
        let status ← runCopy A copy ((tempBuffer.drop position.toNat).take size.toNat)
        if status ≠ 0 then pure (.ofByte status) else readElements raise copy rest
  | .memory memAddr memSize :: rest => do
    let ret ← raise .readMemByAddr (.readMemByAddr memAddr memSize copy)
    if ret ≠ .positiveResponse then pure ret else readElements raise copy rest

/-- `uds_action_default_memory_by_addr_read`: the count of a copy function
is a `uint16_t`. -/
def udsActionDefaultMemoryByAddrRead (memAddr memSize : ℕ) (copy : CopyFn) (consumeEvent : Bool) :
    ReadM α (UDSErr × Bool) := do
  let app ← getApp
  let copyResult ← runCopy A copy (readRange (A.memory app) memAddr (memSize % 2 ^ 16))
  pure (if copyResult ≠ 0 then .requestOutOfRange else .positiveResponse, consumeEvent)

variable (env : Env F α)

/-- `uds_dynamic_data_by_id_read_data_by_id_action`. -/
def udsDynamicDataByIdReadDataByIdAction (raise : UDSEvent → ReadArgs → ReadM α UDSErr)
    (reg : Reg F) (copy : CopyFn) (consumeEvent : Bool) : ReadM α (UDSErr × Bool) := do
  let ret ← readElements env.app raise copy (env.elements (dataPtr reg))
  pure (ret, if ret = .ok then true else consumeEvent)

/-- The functions a read meets, `raise` being the dispatcher the dynamic
action re-enters. -/
def behaviourWith (raise : UDSEvent → ReadArgs → ReadM α UDSErr) :
    Behaviour (ReadM α) (CheckFn F) (ActionFn F) (UnregisterFn F) ReadArgs where
  check := fun check context applyAction =>
    match check, context.arg with
    | .udsCheckReadWithDataId, .readDataByIdent dataId _ =>
      udsCheckReadWithDataId env.app dataId context applyAction
    | _, _ => checkFn env.app check context applyAction
  action := fun action context consumeEvent =>
    match action, context.arg with
    | .udsDynamicDataByIdReadDataByIdAction, .readDataByIdent _ copy =>
      udsDynamicDataByIdReadDataByIdAction env raise context.registration copy consumeEvent
    | .udsActionDefaultMemoryByAddrRead, .readMemByAddr memAddr memSize copy =>
      udsActionDefaultMemoryByAddrRead env.app memAddr memSize copy consumeEvent
    | _, _ => do
      let app ← getApp
      runProg env.app context.arg.copy
        (env.app.action action context.registration context.arg.query app consumeEvent)

/-- **An event of a read**, with fuel for so many dynamic identifiers
inside each other. -/
def raise : ℕ → UDSEvent → ReadArgs → ReadM α UDSErr
  | 0, _, _ => fun _ => none
  | fuel + 1, event, args =>
    udsEventCallback (behaviourWith env (raise fuel)) eventHandlers env.inst event args
      env.statics env.dynamics

/-- **ReadDataByIdent** as the service raises it. -/
def readDataByIdent (fuel : ℕ) (dataId : UInt16) : ReadM α UDSErr :=
  raise env fuel .readDataByIdent (.readDataByIdent dataId .request)

end Model

end Read

end Uds

end Ardep
