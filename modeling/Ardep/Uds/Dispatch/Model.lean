import Ardep.Uds.Err
import Mathlib.Data.List.Basic
/-!
# Dispatch — registrations and the event loop

`uds.c` and the handler entries of the service files. A registration says
which functions serve an event; raising one walks the static
registrations, then the dynamic ones of the instance, and each walk shares
`uds_check_and_act_on_event`.

Functions are pointers here: a `Behaviour` says what calling one does, in
whatever monad the caller runs in. An out-parameter is a value passed in
and one passed back.

The dynamic list is a list: `uds.c` walks the instance's own while it calls
the functions, so what is said here is of events whose functions register
and unregister nothing.
-/

namespace Ardep

namespace Uds

/-! ## Registrations -/

/-- `enum uds_registration_type_t`. -/
inductive RegistrationType
  | ecuReset
  | memory
  | readDtcInfo
  | dataIdentifier
  | diagSessionCtrl
  | clearDiagInfo
  | routineControl
  | securityAccess
  | communicationControl
  | dynamicDefineDataIds
  | controlDtcSetting
  | uploadDownload
  | linkControl
  | authentication
  deriving DecidableEq, Repr

/-- `UDSEvent_t`: the events a handler entry names, and the others of the
iso14229 library by their number. -/
inductive UDSEvent
  | diagSessCtrl
  | sessionTimeout
  | ecuReset
  | doScheduledReset
  | clearDiagnosticInfo
  | readDTCInformation
  | readDataByIdent
  | readMemByAddr
  | commCtrl
  | secAccessRequestSeed
  | secAccessValidateKey
  | writeDataByIdent
  | ioControl
  | routineCtrl
  | requestDownload
  | requestUpload
  | transferData
  | requestTransferExit
  | requestFileTransfer
  | writeMemByAddr
  | controlDTCSetting
  | dynamicDefineDataId
  | linkControl
  | auth
  | authTimeout
  | other (code : ℕ)
  deriving DecidableEq, Repr

/-- The address of a `struct uds_instance_t`. -/
abbrev InstancePtr : Type := ℕ

/-- `struct uds_actor`, over the types of check and action pointers. -/
structure Actor (C A : Type) where
  check : Option C
  action : Option A
  deriving DecidableEq

/-- The actor with no function. -/
def Actor.null {C A : Type} : Actor C A := ⟨none, none⟩

/-- The union of `struct uds_registration_t`, less what only the
application's functions read. `data` is a pointer. The list head in
`dynamically_define_data_ids` changes, so the state that changes it keeps
it. -/
inductive RegistrationData (C A : Type)
  | diagSessionCtrl (diagSessCtrl sessionTimeout : Actor C A)
  | ecuReset (ecuReset executeScheduledReset : Actor C A)
  | dataIdentifier (data : ℕ) (dataId : UInt16) (read write ioControl : Actor C A)
  | memory (read write : Actor C A)
  | readDtc (actor : Actor C A)
  | controlDtcSetting (actor : Actor C A)
  | clearDiagnosticInformation (actor : Actor C A)
  | routineControl (routineId : UInt16) (actor : Actor C A)
  | securityAccess (requestSeed validateKey : Actor C A)
  | communicationControl (actor : Actor C A)
  | dynamicallyDefineDataIds (actor : Actor C A)
  | linkControl (actor : Actor C A)
  | auth (auth timeout : Actor C A)
  | uploadDownload
  deriving DecidableEq

/-- `struct uds_registration_t`. `U` is the type of unregister functions;
a static registration has no dynamic id and no unregister function. -/
structure Registration (C A U : Type) where
  inst : Option InstancePtr
  data : RegistrationData C A
  dynamicRegistrationId : UInt32 := 0
  unregisterRegistrationFn : Option U := none
  deriving DecidableEq

section Types

variable {C A U : Type}

/-- The `type` that goes with each member of the union. -/
def RegistrationData.type : RegistrationData C A → RegistrationType
  | .diagSessionCtrl .. => .diagSessionCtrl
  | .ecuReset .. => .ecuReset
  | .dataIdentifier .. => .dataIdentifier
  | .memory .. => .memory
  | .readDtc .. => .readDtcInfo
  | .controlDtcSetting .. => .controlDtcSetting
  | .clearDiagnosticInformation .. => .clearDiagInfo
  | .routineControl .. => .routineControl
  | .securityAccess .. => .securityAccess
  | .communicationControl .. => .communicationControl
  | .dynamicallyDefineDataIds .. => .dynamicDefineDataIds
  | .linkControl .. => .linkControl
  | .auth .. => .authentication
  | .uploadDownload => .uploadDownload

/-- `reg->type`. -/
def Registration.type (reg : Registration C A U) : RegistrationType := reg.data.type

/-- The data identifier a registration serves, where it serves one. -/
def Registration.dataId? (reg : Registration C A U) : Option UInt16 :=
  match reg.data with
  | .dataIdentifier _ dataId _ _ _ => some dataId
  | _ => none

theorem Registration.type_of_dataId? {reg : Registration C A U} {x : UInt16}
    (h : reg.dataId? = some x) : reg.type = .dataIdentifier := by
  unfold dataId? at h
  unfold type
  split at h
  · next heq => rw [heq]; rfl
  · cases h

end Types

/-- `struct uds_event_handler_data`. -/
structure EventHandlerData (C A U : Type) where
  event : UDSEvent
  getCheck : Registration C A U → Option C
  getAction : Registration C A U → Option A
  defaultNrc : UDSErr
  registrationType : RegistrationType

/-- `struct uds_context`; the server is the instance's. -/
structure Context (C A U Arg : Type) where
  inst : InstancePtr
  registration : Registration C A U
  event : UDSEvent
  arg : Arg

/-- **What the functions do.** A call takes the context and the value its
out-parameter points to, and gives the return value and what the
out-parameter points to afterwards. -/
structure Behaviour (m : Type → Type) (C A U Arg : Type) where
  check : C → Context C A U Arg → Bool → m (UDSErr × Bool)
  action : A → Context C A U Arg → Bool → m (UDSErr × Bool)

/-! ## The event loop -/

section Loop

variable {m : Type → Type} [Monad m] {C A U Arg : Type} (β : Behaviour m C A U Arg)

/-- `uds_check_and_act_on_event`, giving its return value,
`found_at_least_one_match` and `consume_event`. -/
def udsCheckAndActOnEvent (context : Context C A U Arg) (handler : EventHandlerData C A U)
    (foundAtLeastOneMatch consumeEvent : Bool) : m (UDSErr × Bool × Bool) :=
  let reg := context.registration
  if reg.type ≠ handler.registrationType then pure (.ok, foundAtLeastOneMatch, false)
  else
    match handler.getCheck reg with
    | none => pure (.ok, foundAtLeastOneMatch, false)
    | some check => do
      let (ret, applyAction) ← β.check check context false
      if ret ≠ .ok then pure (ret, foundAtLeastOneMatch, false)
      else
        match applyAction, handler.getAction reg with
        | true, some action => do
          let (ret, consumeEvent) ← β.action action context consumeEvent
          if ret ≠ .ok then pure (ret, foundAtLeastOneMatch, consumeEvent)
          else pure (.ok, true, consumeEvent)
        | _, _ => pure (ret, foundAtLeastOneMatch, false)

/-- One of the two loops of `uds_handle_event`, `consumeEvent` being what
each round starts with. An `error` is a return out of the loop. -/
def handleRegistrations (inst : InstancePtr) (event : UDSEvent) (arg : Arg)
    (handler : EventHandlerData C A U) (consumeEvent : Bool) :
    List (Registration C A U) → Bool → m (Except UDSErr Bool)
  | [], foundAtLeastOneMatch => pure (.ok foundAtLeastOneMatch)
  | reg :: regs, foundAtLeastOneMatch => do
    let (ret, foundAtLeastOneMatch, consumed) ←
      udsCheckAndActOnEvent β ⟨inst, reg, event, arg⟩ handler foundAtLeastOneMatch consumeEvent
    if consumed ∨ ret ≠ .ok then pure (.error ret)
    else handleRegistrations inst event arg handler consumeEvent regs foundAtLeastOneMatch

/-- `uds_handle_event`. -/
def udsHandleEvent (inst : InstancePtr) (event : UDSEvent) (arg : Arg)
    (handler : EventHandlerData C A U) (statics dynamics : List (Registration C A U)) :
    m UDSErr := do
  match ← handleRegistrations β inst event arg handler true statics false with
  | .error ret => pure ret
  | .ok foundAtLeastOneMatch =>
    match ← handleRegistrations β inst event arg handler false dynamics foundAtLeastOneMatch with
    | .error ret => pure ret
    | .ok foundAtLeastOneMatch =>
      pure (if foundAtLeastOneMatch then .positiveResponse else handler.defaultNrc)

/-- `uds_event_callback`: the first entry for the event handles it. -/
def udsEventCallback (handlers : List (EventHandlerData C A U)) (inst : InstancePtr)
    (event : UDSEvent) (arg : Arg) (statics dynamics : List (Registration C A U)) : m UDSErr :=
  match handlers.find? (·.event = event) with
  | some handler => udsHandleEvent β inst event arg handler statics dynamics
  | none => pure .serviceNotSupported

end Loop

/-! ## The handler entries -/

/-- The check functions: the application's, and those of the library the
model follows. -/
inductive CheckFn (F : Type)
  | app (f : F)
  | udsCheckReadWithDataId
  | udsCheckWriteWithDataId
  | udsCheckIoControlWithDataId
  | udsCheckWithSubfuncFn
  | udsCheckWithRoutineIdFn
  | udsCheckAlwaysApply
  | udsDynamicDataByIdReadDataByIdCheck
  | udsCheckDefaultMemoryByAddrRead
  deriving DecidableEq

/-- The action functions, likewise. -/
inductive ActionFn (F : Type)
  | app (f : F)
  | udsActionUploadDownload
  | udsDynamicDataByIdReadDataByIdAction
  | udsActionDefaultMemoryByAddrRead
  deriving DecidableEq

section Handlers

variable {F U : Type}

/-- An entry whose two getters read one actor of the registration. -/
def EventHandlerData.ofActor (event : UDSEvent) (defaultNrc : UDSErr)
    (registrationType : RegistrationType)
    (actor : RegistrationData (CheckFn F) (ActionFn F) → Option (Actor (CheckFn F) (ActionFn F))) :
    EventHandlerData (CheckFn F) (ActionFn F) U where
  event := event
  getCheck := fun reg => (actor reg.data).bind (·.check)
  getAction := fun reg => (actor reg.data).bind (·.action)
  defaultNrc := defaultNrc
  registrationType := registrationType

/-- An entry with a check of the library's own, in front of the actor's. -/
def EventHandlerData.withCheck (check : CheckFn F)
    (handler : EventHandlerData (CheckFn F) (ActionFn F) U) :
    EventHandlerData (CheckFn F) (ActionFn F) U :=
  { handler with getCheck := fun _ => some check }

/-- The entry of `uds_handle_event` for ReadDataByIdent. -/
def readDataByIdentHandler : EventHandlerData (CheckFn F) (ActionFn F) U :=
  (EventHandlerData.ofActor .readDataByIdent .requestOutOfRange .dataIdentifier fun
    | .dataIdentifier _ _ read _ _ => some read
    | _ => none).withCheck .udsCheckReadWithDataId

/-- The entry of `uds_handle_event` for ReadMemByAddr. -/
def readMemByAddrHandler : EventHandlerData (CheckFn F) (ActionFn F) U :=
  .ofActor .readMemByAddr .conditionsNotCorrect .memory fun
    | .memory read _ => some read
    | _ => none

/-- An entry of the upload/download handler: its getters do not look at
the registration. -/
def uploadDownloadHandler (event : UDSEvent) : EventHandlerData (CheckFn F) (ActionFn F) U where
  event := event
  getCheck := fun _ => some .udsCheckAlwaysApply
  getAction := fun _ => some .udsActionUploadDownload
  defaultNrc := .subFunctionNotSupported
  registrationType := .uploadDownload

/-- The section of `uds_event_handler_data` entries. -/
def eventHandlers : List (EventHandlerData (CheckFn F) (ActionFn F) U) :=
  [.ofActor .auth .subFunctionNotSupported .authentication fun
      | .auth auth _ => some auth
      | _ => none,
    .ofActor .authTimeout .subFunctionNotSupported .authentication fun
      | .auth _ timeout => some timeout
      | _ => none,
    .ofActor .clearDiagnosticInfo .requestOutOfRange .clearDiagInfo fun
      | .clearDiagnosticInformation actor => some actor
      | _ => none,
    .ofActor .commCtrl .requestOutOfRange .communicationControl fun
      | .communicationControl actor => some actor
      | _ => none,
    .ofActor .controlDTCSetting .subFunctionNotSupported .controlDtcSetting fun
      | .controlDtcSetting actor => some actor
      | _ => none,
    readDataByIdentHandler,
    (EventHandlerData.ofActor .writeDataByIdent .requestOutOfRange .dataIdentifier fun
      | .dataIdentifier _ _ _ write _ => some write
      | _ => none).withCheck .udsCheckWriteWithDataId,
    (EventHandlerData.ofActor .ioControl .requestOutOfRange .dataIdentifier fun
      | .dataIdentifier _ _ _ _ ioControl => some ioControl
      | _ => none).withCheck .udsCheckIoControlWithDataId,
    .ofActor .diagSessCtrl .positiveResponse .diagSessionCtrl fun
      | .diagSessionCtrl diagSessCtrl _ => some diagSessCtrl
      | _ => none,
    .ofActor .sessionTimeout .positiveResponse .diagSessionCtrl fun
      | .diagSessionCtrl _ sessionTimeout => some sessionTimeout
      | _ => none,
    .ofActor .dynamicDefineDataId .subFunctionNotSupported .dynamicDefineDataIds fun
      | .dynamicallyDefineDataIds actor => some actor
      | _ => none,
    .ofActor .ecuReset .subFunctionNotSupported .ecuReset fun
      | .ecuReset ecuReset _ => some ecuReset
      | _ => none,
    .ofActor .doScheduledReset .subFunctionNotSupported .ecuReset fun
      | .ecuReset _ executeScheduledReset => some executeScheduledReset
      | _ => none,
    .ofActor .linkControl .subFunctionNotSupported .linkControl fun
      | .linkControl actor => some actor
      | _ => none,
    readMemByAddrHandler,
    .ofActor .writeMemByAddr .conditionsNotCorrect .memory fun
      | .memory _ write => some write
      | _ => none,
    (EventHandlerData.ofActor .readDTCInformation .subFunctionNotSupported .readDtcInfo fun
      | .readDtc actor => some actor
      | _ => none).withCheck .udsCheckWithSubfuncFn,
    (EventHandlerData.ofActor .routineCtrl .subFunctionNotSupported .routineControl fun
      | .routineControl _ actor => some actor
      | _ => none).withCheck .udsCheckWithRoutineIdFn,
    .ofActor .secAccessRequestSeed .conditionsNotCorrect .securityAccess fun
      | .securityAccess requestSeed _ => some requestSeed
      | _ => none,
    .ofActor .secAccessValidateKey .conditionsNotCorrect .securityAccess fun
      | .securityAccess _ validateKey => some validateKey
      | _ => none,
    uploadDownloadHandler .requestDownload,
    uploadDownloadHandler .requestUpload,
    uploadDownloadHandler .transferData,
    uploadDownloadHandler .requestTransferExit,
    uploadDownloadHandler .requestFileTransfer]

/-- Each event has one entry, so the order of the section does not
matter. -/
theorem nodup_eventHandlers_event :
    ((eventHandlers (F := F) (U := U)).map (·.event)).Nodup := by
  simp only [eventHandlers, List.map_cons, List.map_nil, EventHandlerData.ofActor,
    EventHandlerData.withCheck, readDataByIdentHandler, readMemByAddrHandler,
    uploadDownloadHandler]
  decide

end Handlers

end Uds

end Ardep
