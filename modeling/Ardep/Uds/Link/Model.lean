import Ardep.Common.Machine
import Ardep.Uds.Dispatch.Model
/-!
# Link control — the default handler

`link_control.c`, what it calls of `util.c`, and the two registrations
`UDS_REGISTER_LINK_CONTROL_DEFAULT_HANDLER` puts in the section. The
handler keeps two statics, moves the CAN controller between bitrates and
reads the session of the server.

The CAN driver and the iso14229 library are not part of this repository.
The driver is a parameter. Of the library, `Enters` is what is relied on:
which session it may be in once an event has been answered.
-/

namespace Ardep

namespace Uds

namespace Link

/-! ## Constants -/

/-- `UDS_DIAG_SESSION__DEFAULT`. -/
abbrev diagSessionDefault : UInt8 := 0x01

/-- `UDS_LINK_CONTROL__VERIFY_MODE_TRANSITION_WITH_FIXED_PARAMETER`. -/
abbrev verifyModeTransitionWithFixedParameter : UInt8 := 0x01
/-- `UDS_LINK_CONTROL__TRANSITION_MODE`. -/
abbrev transitionMode : UInt8 := 0x03

namespace Modifier

/-! `enum uds_link_control_modifier`, a byte of the request. -/

/-- `UDS_LINK_CONTROL_MODIFIER__PC_9600_BAUD`. -/
abbrev pc9600Baud : UInt8 := 0x01
/-- `UDS_LINK_CONTROL_MODIFIER__PC_1920_BAUD`. -/
abbrev pc1920Baud : UInt8 := 0x02
/-- `UDS_LINK_CONTROL_MODIFIER__PC_38400_BAUD`. -/
abbrev pc38400Baud : UInt8 := 0x03
/-- `UDS_LINK_CONTROL_MODIFIER__PC_57600_BAUD`. -/
abbrev pc57600Baud : UInt8 := 0x04
/-- `UDS_LINK_CONTROL_MODIFIER__PC_115200_BAUD`. -/
abbrev pc115200Baud : UInt8 := 0x05
/-- `UDS_LINK_CONTROL_MODIFIER__CAN_125000_BAUD`. -/
abbrev can125000Baud : UInt8 := 0x10
/-- `UDS_LINK_CONTROL_MODIFIER__CAN_250000_BAUD`. -/
abbrev can250000Baud : UInt8 := 0x11
/-- `UDS_LINK_CONTROL_MODIFIER__CAN_500000_BAUD`. -/
abbrev can500000Baud : UInt8 := 0x12
/-- `UDS_LINK_CONTROL_MODIFIER__CAN_1000000_BAUD`. -/
abbrev can1000000Baud : UInt8 := 0x13

end Modifier

/-- `uds_link_control_modifier_to_baudrate`. -/
def udsLinkControlModifierToBaudrate (modifier : UInt8) : UInt32 :=
  if modifier = Modifier.pc9600Baud then 9600
  else if modifier = Modifier.pc1920Baud then 19200
  else if modifier = Modifier.pc38400Baud then 38400
  else if modifier = Modifier.pc57600Baud then 57600
  else if modifier = Modifier.pc115200Baud then 115200
  else if modifier = Modifier.can125000Baud then 125000
  else if modifier = Modifier.can250000Baud then 250000
  else if modifier = Modifier.can500000Baud then 500000
  else if modifier = Modifier.can1000000Baud then 1000000
  else 0

/-! ## The CAN controller -/

/-- The driver calls of the handler, over the state of the controller. A
call returns 0 or an error. -/
structure CanDriver (D : Type) where
  canStop : StateM D ℤ
  canSetBitrate : UInt32 → StateM D ℤ
  canStart : StateM D ℤ

section Can

variable {D : Type} (driver : CanDriver D)

/-- `uds_set_can_bitrate`. -/
def udsSetCanBitrate (baudRate : UInt32) : StateM D UDSErr := do
  let ret ← driver.canStop
  if ret ≠ 0 then pure .conditionsNotCorrect
  else
    let ret ← driver.canSetBitrate baudRate
    if ret ≠ 0 then
      let _ ← driver.canStart
      pure .conditionsNotCorrect
    else
      let ret ← driver.canStart
      if ret ≠ 0 then pure .conditionsNotCorrect else pure .ok

/-- `uds_set_can_default_bitrate`, over `CONFIG_UDS_DEFAULT_CAN_BITRATE`. -/
def udsSetCanDefaultBitrate (defaultCanBitrate : UInt32) : StateM D UDSErr :=
  udsSetCanBitrate driver defaultCanBitrate

end Can

/-! ## The handler -/

/-- What the handler reads and writes: its two statics, the session of the
server, the CAN controller of the instance; and what belongs to the
functions of the application. -/
structure World (D σ : Type) where
  /-- `uds_default_link_control_handler_modifier`. -/
  modifier : UInt8
  /-- `uds_default_link_control_handler_modifier_set`. -/
  modifierSet : Bool
  sessionType : UInt8
  can : D
  app : σ
  deriving DecidableEq

/-- What is read through `context->arg`: the type, in the arguments of
LinkControl and of DiagSessCtrl, and the byte `data` points to, in those
of LinkControl only. -/
structure Args where
  type : UInt8
  data : UInt8 := 0
  deriving DecidableEq, Repr

section Handler

variable {D σ : Type} (driver : CanDriver D) (defaultCanBitrate : UInt32)

/-- A driver call on the controller of the instance. -/
def onCan {β : Type} (x : StateM D β) : StateM (World D σ) β := fun w =>
  let (b, can) := x w.can
  (b, { w with can := can })

/-- `uds_check_default_link_control`. -/
def udsCheckDefaultLinkControl (args : Args) (applyAction : Bool) (w : World D σ) :
    UDSErr × Bool :=
  if args.type = verifyModeTransitionWithFixedParameter then
    let modifier := args.data
    if modifier ≠ Modifier.can125000Baud ∧ modifier ≠ Modifier.can250000Baud ∧
        modifier ≠ Modifier.can500000Baud then
      (.requestOutOfRange, false)
    else (.ok, true)
  else if args.type = transitionMode then
    if w.modifierSet = false then (.requestSequenceError, false) else (.ok, true)
  else (.subFunctionNotSupported, applyAction)

/-- `uds_action_default_link_control`. -/
def udsActionDefaultLinkControl (args : Args) (consumeEvent : Bool) :
    StateM (World D σ) (UDSErr × Bool) := fun w =>
  let modifier := args.data
  if args.type = verifyModeTransitionWithFixedParameter then
    if w.sessionType = diagSessionDefault then
      ((.subFunctionNotSupportedInActiveSession, false), w)
    else ((.ok, true), { w with modifier := modifier, modifierSet := true })
  else if args.type = transitionMode then
    if w.sessionType = diagSessionDefault then
      ((.subFunctionNotSupportedInActiveSession, consumeEvent), w)
    else
      let (ret, w) :=
        onCan (udsSetCanBitrate driver (udsLinkControlModifierToBaudrate modifier)) w
      ((ret, consumeEvent), w)
  else ((.subFunctionNotSupported, consumeEvent), w)

/-- `uds_check_default_link_control_change_diag_session`. -/
def udsCheckDefaultLinkControlChangeDiagSession (event : UDSEvent) (args : Args)
    (applyAction : Bool) : UDSErr × Bool :=
  if event = .diagSessCtrl then
    if args.type = diagSessionDefault then (.ok, true) else (.ok, applyAction)
  else if event = .sessionTimeout then (.ok, true)
  else (.ok, applyAction)

/-- `uds_action_default_link_control_change_diag_session`. -/
def udsActionDefaultLinkControlChangeDiagSession : StateM (World D σ) (UDSErr × Bool) := fun w =>
  let (ret, w) := onCan (udsSetCanDefaultBitrate driver defaultCanBitrate) w
  ((ret, false), w)

end Handler

/-! ## The registrations -/

/-- The functions a registration may name: the application's, and the two
pairs of the default handler, check and action of a pair going by one
name. -/
inductive Fn (F : Type)
  | app (f : F)
  | defaultLinkControl
  | defaultLinkControlChangeDiagSession
  deriving DecidableEq

/-- A registration over these functions. -/
abbrev Reg (F U : Type) : Type := Registration (CheckFn (Fn F)) (ActionFn (Fn F)) U

/-- The context of a call. -/
abbrev Ctx (F U : Type) : Type := Context (CheckFn (Fn F)) (ActionFn (Fn F)) U Args

/-- A pair of functions of one name. -/
def actorOf {F : Type} (f : Fn F) : Actor (CheckFn (Fn F)) (ActionFn (Fn F)) :=
  ⟨some (.app f), some (.app f)⟩

section Registrations

variable {F U : Type}

/-- The first registration of `UDS_REGISTER_LINK_CONTROL_DEFAULT_HANDLER`. -/
def linkControlRegistration (inst : InstancePtr) : Reg F U where
  inst := some inst
  data := .linkControl (actorOf .defaultLinkControl)

/-- The second one, for changes of the session. -/
def changeDiagSessionRegistration (inst : InstancePtr) : Reg F U where
  inst := some inst
  data := .diagSessionCtrl (actorOf .defaultLinkControlChangeDiagSession)
    (actorOf .defaultLinkControlChangeDiagSession)

end Registrations

/-- **The functions of the application.** They see everything and write
what is theirs: neither the controller nor the session, nor the statics of
the handler. -/
structure Application (F U D σ : Type) where
  check : CheckFn (Fn F) → Ctx F U → Bool → World D σ → (UDSErr × Bool) × σ
  action : ActionFn (Fn F) → Ctx F U → Bool → World D σ → (UDSErr × Bool) × σ

/-- **An instance** with its driver, configuration and registrations: the
static ones, and which ones may be registered at run time. -/
structure Setup (F U D σ : Type) where
  inst : InstancePtr
  driver : CanDriver D
  /-- `CONFIG_UDS_DEFAULT_CAN_BITRATE`. -/
  defaultCanBitrate : UInt32
  application : Application F U D σ
  statics : List (Reg F U)
  Dynamic : Reg F U → Prop

/-! ## Runs -/

/-- An event of the server. -/
inductive Request
  | linkControl (args : Args)
  | diagSessCtrl (type : UInt8)
  | sessionTimeout
  deriving DecidableEq, Repr

/-- Its `UDSEvent_t`. -/
def Request.event : Request → UDSEvent
  | .linkControl _ => .linkControl
  | .diagSessCtrl _ => .diagSessCtrl
  | .sessionTimeout => .sessionTimeout

/-- Its argument; a session timeout has none. -/
def Request.args : Request → Args
  | .linkControl args => args
  | .diagSessCtrl type => ⟨type, 0⟩
  | .sessionTimeout => ⟨0, 0⟩

/-- **What the iso14229 library does to the session** after an event: it
enters one only once its DiagSessCtrl was answered positively, and the
default one after a timeout. -/
def Enters (request : Request) (answer : UDSErr) (before after : UInt8) : Prop :=
  match request with
  | .linkControl _ => after = before
  | .diagSessCtrl type => after = before ∨ answer = .positiveResponse ∧ after = type
  | .sessionTimeout => after = diagSessionDefault

instance {request : Request} {answer : UDSErr} {before after : UInt8} :
    Decidable (Enters request answer before after) :=
  match request with
  | .linkControl _ => inferInstanceAs (Decidable (_ = _))
  | .diagSessCtrl _ => inferInstanceAs (Decidable (_ ∨ _ ∧ _))
  | .sessionTimeout => inferInstanceAs (Decidable (_ = _))

/-- An event as it happened: the registrations made at run time, and the
answer. -/
structure Event (F U : Type) where
  request : Request
  dynamics : List (Reg F U) := []
  answer : UDSErr

namespace Setup

variable {F U D σ : Type} (S : Setup F U D σ)

/-- What calling a function of a registration does. -/
def behaviour : Behaviour (StateM (World D σ)) (CheckFn (Fn F)) (ActionFn (Fn F)) U Args where
  check := fun f context applyAction w =>
    match f with
    | .app .defaultLinkControl => (udsCheckDefaultLinkControl context.arg applyAction w, w)
    | .app .defaultLinkControlChangeDiagSession =>
      (udsCheckDefaultLinkControlChangeDiagSession context.event context.arg applyAction, w)
    | f =>
      let (ret, app) := S.application.check f context applyAction w
      (ret, { w with app := app })
  action := fun f context consumeEvent w =>
    match f with
    | .app .defaultLinkControl =>
      udsActionDefaultLinkControl S.driver context.arg consumeEvent w
    | .app .defaultLinkControlChangeDiagSession =>
      udsActionDefaultLinkControlChangeDiagSession S.driver S.defaultCanBitrate w
    | f =>
      let (ret, app) := S.application.action f context consumeEvent w
      (ret, { w with app := app })

/-- The event, raised. -/
def raise (request : Request) (dynamics : List (Reg F U)) : StateM (World D σ) UDSErr :=
  udsEventCallback S.behaviour eventHandlers S.inst request.event request.args S.statics dynamics

/-- **The server**, an event at a time: the event is answered, then the
library changes the session. -/
def server (init : World D σ → Prop) : Machine (World D σ) (Event F U) where
  init := init
  Step := fun w e w' =>
    (∀ q ∈ e.dynamics, S.Dynamic q) ∧ (S.raise e.request e.dynamics w).1 = e.answer ∧
      ∃ session, Enters e.request e.answer w.sessionType session ∧
        w' = { (S.raise e.request e.dynamics w).2 with sessionType := session }

end Setup

/-- The statics as they are after boot. -/
def Boot {D σ : Type} (w : World D σ) : Prop :=
  w.modifier = 0 ∧ w.modifierSet = false ∧ w.sessionType = diagSessionDefault

end Link

end Uds

end Ardep
