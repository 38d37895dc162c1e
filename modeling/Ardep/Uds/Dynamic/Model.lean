import Ardep.Common.Ledger
import Ardep.Common.Machine
import Ardep.Uds.Dispatch.Model
/-!
# Dynamic — data identifiers defined at run time

`dynamically_define_data_ids.c` and the two functions of `uds.c` it
registers through. A 0x2C request allocates up to five blocks: the list
of a new identifier's elements, a temporary registration, the element
itself, the registration on the heap and the item that tracks its id.

A `Fault` is a block freed that is not live or a list walked that is not:
such a request gives no answer. `k_malloc` succeeds or fails at each of
the five places as `Choices` has it; a request comes to each place once
at most.
-/

namespace Ardep

namespace Uds

namespace Dynamic

/-! ## Data -/

/-- `struct uds_dynamically_defined_data`, less its node. -/
inductive DefinedData
  | id (id : UInt16) (position size : UInt8)
  | memory (memAddr memSize : ℕ)
  deriving DecidableEq, Repr

/-- An element of a data list, at its block. -/
structure DataItem where
  addr : ℕ
  data : DefinedData
  deriving DecidableEq, Repr

/-- `struct dynamic_registration_id_sll_item`, at its block. -/
structure RegistrationIdItem where
  addr : ℕ
  dynamicRegistrationId : UInt32
  deriving DecidableEq, Repr

/-- The unregister functions: the application's, and the one 0x2C gives
the registrations it makes, which is static in its file. -/
inductive UnregisterFn (F : Type)
  | app (f : F)
  | udsUnregisterDynamicIdentifier
  deriving DecidableEq

/-- A registration, over the application's function pointers `F`. -/
abbrev Reg (F : Type) : Type := Registration (CheckFn F) (ActionFn F) (UnregisterFn F)

/-- `reg->data_identifier.data`. -/
def dataPtr {F : Type} (reg : Reg F) : ℕ :=
  match reg.data with
  | .dataIdentifier data _ _ _ _ => data
  | _ => 0

/-- A registration at its block. -/
structure HeapRegistration (F : Type) where
  addr : ℕ
  reg : Reg F
  deriving DecidableEq

/-- The id of a heap registration. -/
abbrev HeapRegistration.id {F : Type} (r : HeapRegistration F) : UInt32 :=
  r.reg.dynamicRegistrationId

/-- Where a registration lies: in the section, or at a block. -/
inductive RegistrationPtr
  | static (index : ℕ)
  | heap (addr : ℕ)
  deriving DecidableEq

/-- **The state the requests change**: the heap, the data list at each
block, the id list in each 0x2C handler and the instance's dynamic
registrations. -/
structure State (F : Type) where
  heap : Ledger
  lists : ℕ → List DataItem
  idLists : RegistrationPtr → List RegistrationIdItem
  dynamicRegistrations : List (HeapRegistration F)

/-- The actor names no function that is static in the 0x2C file. -/
def actorIsApplication {F : Type} (actor : Actor (CheckFn F) (ActionFn F)) : Prop :=
  actor.check ≠ some .udsDynamicDataByIdReadDataByIdCheck ∧
    actor.action ≠ some .udsDynamicDataByIdReadDataByIdAction

/-- A registration the application can write down: the functions it reads
data with are not static in the 0x2C file. -/
def IsApplication {F : Type} (data : RegistrationData (CheckFn F) (ActionFn F)) : Prop :=
  match data with
  | .dataIdentifier _ _ read _ _ => actorIsApplication read
  | _ => True

/-- What does not change: the instance, the static registrations, which
the application wrote, and the registration whose action serves the
instance's 0x2C requests. -/
structure Instance (F : Type) where
  ptr : InstancePtr
  statics : List (Reg F)
  handler : RegistrationPtr
  statics_application : ∀ reg ∈ statics, IsApplication reg.data

/-- The five places a request allocates at. -/
inductive AllocSite
  | dataList
  | tempReg
  | dataItem
  | heapReg
  | regIdItem
  deriving DecidableEq, Repr

/-- What the calls out of the library do: which allocations succeed and
what an unregister function of the application returns. -/
structure Choices (F : Type) where
  alloc : AllocSite → Bool
  unregister : F → ℤ

/-- `UDSDDDIArgs_t`. -/
inductive DDDIArgs
  | defineById (dynamicDataId sourceDataId : UInt16) (position size : UInt8)
  | defineByMemAddress (dynamicDataId : UInt16) (memAddr memSize : ℕ)
  | clear (allDataIds : Bool) (dynamicDataId : UInt16)
  | other (type : UInt8)
  deriving DecidableEq

variable {F : Type}

/-! ## Blocks -/

namespace State

/-- `k_malloc` at one of the five places. -/
def malloc (c : Choices F) (site : AllocSite) (s : State F) : Option ℕ × State F :=
  ((s.heap.malloc (c.alloc site)).1, { s with heap := (s.heap.malloc (c.alloc site)).2 })

/-- `k_free` of a registration or of a tracking item. -/
def free (b : ℕ) (s : State F) : Except Fault (State F) := do
  let heap ← s.heap.free b
  pure { s with heap := heap }

/-- `k_free` of a data list, whose contents are gone with it. -/
def freeList (p : ℕ) (s : State F) : Except Fault (State F) := do
  let heap ← s.heap.free p
  pure { s with heap := heap, lists := Function.update s.lists p [] }

/-- Walk the data list at a block. -/
def traverse (p : ℕ) (s : State F) : Except Fault (List DataItem) := do
  s.heap.traverse p ((s.lists p).map (·.addr))
  pure (s.lists p)

/-- Walk a data list, removing and freeing its items. -/
def freeItems (p : ℕ) (s : State F) : Except Fault (State F) := do
  let items ← s.traverse p
  let heap ← s.heap.freeAll (items.map (·.addr))
  pure { s with heap := heap, lists := Function.update s.lists p [] }

end State

/-! ## Registering -/

/-- The loop of `find_next_dynamic_id`, for `n` candidates from one on. -/
def findNextDynamicIdFrom (inUse : List UInt32) : ℕ → UInt32 → UInt32
  | 0, _ => 0
  | n + 1, candidate =>
    if candidate ∈ inUse then
      if candidate = 0xFFFFFFFF then 0 else findNextDynamicIdFrom inUse n (candidate + 1)
    else candidate

/-- `find_next_dynamic_id`: 0 where none is free. -/
def findNextDynamicId (s : State F) : UInt32 :=
  findNextDynamicIdFrom (s.dynamicRegistrations.map (·.id)) 0xFFFFFFFF 1

/-- `uds_register_event_handler`: its return value, the id it gave and the
state. -/
def udsRegisterEventHandler (I : Instance F) (c : Choices F) (registration : Reg F)
    (s : State F) : ℤ × UInt32 × State F :=
  let nextId := findNextDynamicId s
  if nextId = 0 then (-ENOSPC, 0, s)
  else
    match s.malloc c .heapReg with
    | (none, s) => (-ENOMEM, 0, s)
    | (some b, s) =>
      let heapRegistration : HeapRegistration F :=
        ⟨b, { registration with inst := some I.ptr, dynamicRegistrationId := nextId }⟩
      (0, nextId, { s with
        dynamicRegistrations := s.dynamicRegistrations ++ [heapRegistration] })

/-- `uds_unregister_dynamic_identifier`. -/
def udsUnregisterDynamicIdentifier (this : Reg F) (s : State F) :
    Except Fault (ℤ × State F) := do
  let list := dataPtr this
  let items ← s.traverse list
  let heap ← s.heap.freeAll (items.map (·.addr))
  let s ← { s with heap := heap }.freeList list
  pure (0, s)

/-- `uds_unregister_event_handler`. -/
def udsUnregisterEventHandler (c : Choices F) (dynamicId : UInt32) (s : State F) :
    Except Fault (ℤ × State F) :=
  match s.dynamicRegistrations.find? (fun r => r.id = dynamicId) with
  | none => pure (-ENOENT, s)
  | some r => do
    let (ret, s) ←
      match r.reg.unregisterRegistrationFn with
      | none => pure (0, s)
      | some (.app f) => pure (c.unregister f, s)
      | some .udsUnregisterDynamicIdentifier => udsUnregisterDynamicIdentifier r.reg s
    if ret < 0 then pure (ret, s)
    else do
      let s := { s with
        dynamicRegistrations := s.dynamicRegistrations.eraseP (fun q => q.addr = r.addr) }
      let s ← s.free r.addr
      pure (0, s)

/-! ## Defining -/

section Define

variable (I : Instance F) (c : Choices F)

/-- What the two append functions share: a new element at the end of the
list, and where the allocation fails every element of the list is
freed. -/
def appendToRegistration (data : DefinedData) (dataList : ℕ) (s : State F) :
    Except Fault (UDSErr × State F) :=
  match s.malloc c .dataItem with
  | (none, s) => do
    let s ← s.freeItems dataList
    pure (.generalReject, s)
  | (some b, s) => do
    let items ← s.traverse dataList
    pure (.ok, { s with lists := Function.update s.lists dataList (items ++ [⟨b, data⟩]) })

/-- `uds_append_dynamic_data_identifiers_to_registration`. -/
def udsAppendDynamicDataIdentifiersToRegistration (sourceDataId : UInt16) (position size : UInt8) :
    ℕ → State F → Except Fault (UDSErr × State F) :=
  appendToRegistration c (.id sourceDataId position size)

/-- `uds_append_dynamic_memory_addresses_to_registration`. -/
def udsAppendDynamicMemoryAddressesToRegistration (memAddr memSize : ℕ) :
    ℕ → State F → Except Fault (UDSErr × State F) :=
  appendToRegistration c (.memory memAddr memSize)

/-- The handler tracks the id. -/
def Tracked (s : State F) (dynamicId : UInt32) : Prop :=
  ∃ item ∈ s.idLists I.handler, item.dynamicRegistrationId = dynamicId

instance (s : State F) (dynamicId : UInt32) : Decidable (Tracked I s dynamicId) :=
  inferInstanceAs (Decidable (∃ item ∈ _, _))

/-- `uds_find_existing_registration_by_data_id`. -/
def udsFindExistingRegistrationByDataId (dataId : UInt16) (s : State F) :
    Option (HeapRegistration F) :=
  s.dynamicRegistrations.find? fun r => r.reg.dataId? = some dataId ∧ Tracked I s r.id

/-- The registration 0x2C makes for a new identifier. -/
def dynamicIdentifier (dataId : UInt16) (dataList : ℕ) : Reg F where
  inst := some I.ptr
  data := .dataIdentifier dataList dataId
    ⟨some .udsDynamicDataByIdReadDataByIdCheck, some .udsDynamicDataByIdReadDataByIdAction⟩
    .null .null
  unregisterRegistrationFn := some .udsUnregisterDynamicIdentifier

/-- `uds_create_new_data_identifier_by_id`: its negative return value, or
the temporary registration. -/
def udsCreateNewDataIdentifierById (dataId : UInt16) (s : State F) :
    Except Fault (Except ℤ (HeapRegistration F) × State F) :=
  match s.malloc c .dataList with
  | (none, s) => pure (.error (-1), s)
  | (some dataList, s) =>
    let s := { s with lists := Function.update s.lists dataList [] }
    match s.malloc c .tempReg with
    | (none, s) => do
      let s ← s.freeList dataList
      pure (.error (-2), s)
    | (some tempReg, s) => pure (.ok ⟨tempReg, dynamicIdentifier I dataId dataList⟩, s)

/-- `uds_register_new_data_by_id_item`. -/
def udsRegisterNewDataByIdItem (tempReg : HeapRegistration F) (s : State F) :
    Except Fault (UDSErr × State F) :=
  match udsRegisterEventHandler I c tempReg.reg s with
  | (ret, dynamicId, s) =>
    if ret < 0 then pure (ret, s)
    else
      match s.malloc c .regIdItem with
      | (none, s) => do
        -- the callback frees the list and its items, which the caller frees again
        let (_, s) ← udsUnregisterEventHandler c dynamicId s
        pure (.generalReject, s)
      | (some b, s) => do
        let item : RegistrationIdItem := ⟨b, dynamicId⟩
        let s := { s with
          idLists := Function.update s.idLists I.handler (s.idLists I.handler ++ [item]) }
        let s ← s.free tempReg.addr
        pure (.ok, s)

/-- What the two define functions share. They set `consume_event` where
they return `UDS_OK`. -/
def defineAddNewId (append : ℕ → State F → Except Fault (UDSErr × State F))
    (dynamicDataId : UInt16) (s : State F) : Except Fault (UDSErr × State F) :=
  match udsFindExistingRegistrationByDataId I dynamicDataId s with
  | some existing => append (dataPtr existing.reg) s
  | none => do
    match ← udsCreateNewDataIdentifierById I c dynamicDataId s with
    | (.error _, s) => pure (.generalReject, s)
    | (.ok tempReg, s) => do
      let dataList := dataPtr tempReg.reg
      let (ret, s) ← append dataList s
      if ret ≠ .ok then do
        let s ← s.freeList dataList
        let s ← s.free tempReg.addr
        pure (ret, s)
      else do
        let (ret, s) ← udsRegisterNewDataByIdItem I c tempReg s
        if ret ≠ .ok then do
          let s ← s.freeItems dataList
          let s ← s.freeList dataList
          let s ← s.free tempReg.addr
          pure (ret, s)
        else pure (.ok, s)

/-- `uds_dynamicallY_define_data_by_id_add_new_id`. -/
def udsDynamicallyDefineDataByIdAddNewId (dynamicDataId sourceDataId : UInt16)
    (position size : UInt8) (s : State F) : Except Fault (UDSErr × State F) :=
  defineAddNewId I c (udsAppendDynamicDataIdentifiersToRegistration c sourceDataId position size)
    dynamicDataId s

/-- `uds_dynamicallY_define_data_by_memory_address_add_new_id`. -/
def udsDynamicallyDefineDataByMemoryAddressAddNewId (dynamicDataId : UInt16)
    (memAddr memSize : ℕ) (s : State F) : Except Fault (UDSErr × State F) :=
  defineAddNewId I c (udsAppendDynamicMemoryAddressesToRegistration c memAddr memSize)
    dynamicDataId s

end Define

/-! ## Clearing -/

section Clear

variable (I : Instance F) (c : Choices F)

/-- The 0x2C handlers among the static registrations. -/
def staticHandlers : List RegistrationPtr :=
  (I.statics.zipIdx.filter fun r => r.1.type = .dynamicDefineDataIds).map fun r => .static r.2

/-- The 0x2C handlers among the dynamic registrations. -/
def dynamicHandlers (s : State F) : List RegistrationPtr :=
  (s.dynamicRegistrations.filter fun r => r.reg.type = .dynamicDefineDataIds).map
    fun r => .heap r.addr

/-- Remove and free the items of one handler that `drop` picks. -/
def removeIdItems (drop : RegistrationIdItem → Bool) (s : State F) (handler : RegistrationPtr) :
    Except Fault (State F) := do
  let heap ← s.heap.freeAll (((s.idLists handler).filter drop).map (·.addr))
  pure { s with
    heap := heap
    idLists := Function.update s.idLists handler
      ((s.idLists handler).filter fun item => !drop item) }

/-- Remove and free the items `drop` picks in every handler, the static
ones first. -/
def removeIdItemsEverywhere (drop : RegistrationIdItem → Bool) (s : State F) :
    Except Fault (State F) := do
  let s ← (staticHandlers I).foldlM (removeIdItems drop) s
  (dynamicHandlers s).foldlM (removeIdItems drop) s

/-- `uds_dynamicallY_define_data_by_id_remove_single_id`: the first
DATA_IDENTIFIER registration with the data id goes. -/
def udsDynamicallyDefineDataByIdRemoveSingleId (dataId : UInt16) (s : State F) :
    Except Fault (State F) := do
  let (dynamicIdToRemove, s) ←
    match s.dynamicRegistrations.find? (fun r => r.reg.dataId? = some dataId) with
    | none => pure ((0 : UInt32), s)
    | some r => do
      let (_, s) ← udsUnregisterEventHandler c r.id s
      pure (r.id, s)
  removeIdItemsEverywhere I (fun item => item.dynamicRegistrationId = dynamicIdToRemove) s

/-- Unregister every id one handler tracks; a failure is only logged. -/
def unregisterTracked (s : State F) (handler : RegistrationPtr) : Except Fault (State F) :=
  (s.idLists handler).foldlM
    (fun s item => do
      let (_, s) ← udsUnregisterEventHandler c item.dynamicRegistrationId s
      pure s) s

/-- `uds_dynamicallY_define_data_by_id_remove_all_ids`. -/
def udsDynamicallyDefineDataByIdRemoveAllIds (s : State F) : Except Fault (State F) := do
  let s ← (staticHandlers I).foldlM (unregisterTracked c) s
  let s ← (dynamicHandlers s).foldlM (unregisterTracked c) s
  removeIdItemsEverywhere I (fun _ => true) s

/-- `uds_action_default_dynamically_define_data_ids`. -/
def udsActionDefaultDynamicallyDefineDataIds (args : DDDIArgs) (s : State F) :
    Except Fault (UDSErr × State F) :=
  match args with
  | .defineById dynamicDataId sourceDataId position size =>
    udsDynamicallyDefineDataByIdAddNewId I c dynamicDataId sourceDataId position size s
  | .defineByMemAddress dynamicDataId memAddr memSize =>
    udsDynamicallyDefineDataByMemoryAddressAddNewId I c dynamicDataId memAddr memSize s
  | .clear allDataIds dynamicDataId => do
    let s ←
      if allDataIds then udsDynamicallyDefineDataByIdRemoveAllIds I c s
      else udsDynamicallyDefineDataByIdRemoveSingleId I c dynamicDataId s
    pure (.ok, s)
  | .other _ => pure (.subFunctionNotSupported, s)

end Clear

/-! ## Runs -/

/-- What happens to an instance: a 0x2C request, or a registration by the
application. -/
inductive Event (F : Type)
  | request (args : DDDIArgs) (c : Choices F)
  | register (data : RegistrationData (CheckFn F) (ActionFn F)) (unregisterFn : Option F)
    (c : Choices F)

/-- The serving registration is there. -/
def Instance.Present (I : Instance F) (s : State F) : Prop :=
  I.handler ∈ staticHandlers I ∨ I.handler ∈ dynamicHandlers s

/-- **The instance as a machine.** A request that faults has no next
state. -/
def machine (I : Instance F) : Machine (State F) (Event F) where
  init s := s.lists = (fun _ => []) ∧ s.idLists = (fun _ => []) ∧ s.dynamicRegistrations = []
  Step s e s' :=
    match e with
    | .request args c =>
      I.Present s ∧ ∃ ret, udsActionDefaultDynamicallyDefineDataIds I c args s = .ok (ret, s')
    | .register data unregisterFn c =>
      IsApplication data ∧
        s' = (udsRegisterEventHandler I c
          { inst := some I.ptr, data := data, unregisterRegistrationFn := unregisterFn.map .app }
          s).2.2

end Dynamic

end Uds

end Ardep
