import Ardep.Uds.Dispatch.Relate
/-!
# Dispatch — services that choose by an identifier

Reads of data identifiers, routine control and the reading of DTC
information each have a registration for every identifier they serve. The
event loop does not know: each puts a check in front of the registration's
own, which lets the event pass where the identifier is another one.

`raise_eq_filter` is what this comes to. The event goes through the
registrations of its identifier, in their order, as if there were no
others and no check in front, and one without a check of its own is as
good as not there.
-/

namespace Ardep

namespace Uds

namespace Keyed

/-- The three services. -/
inductive Service
  | readDataByIdent
  | routineCtrl
  | readDTCInformation
  deriving DecidableEq, Repr

/-- The event of a service. -/
def Service.event : Service → UDSEvent
  | .readDataByIdent => .readDataByIdent
  | .routineCtrl => .routineCtrl
  | .readDTCInformation => .readDTCInformation

/-- The actor that a registration has for it. -/
def Service.actor {C A : Type} (s : Service) (data : RegistrationData C A) : Option (Actor C A) :=
  match s, data with
  | .readDataByIdent, .dataIdentifier _ _ read _ _ => some read
  | .routineCtrl, .routineControl _ actor => some actor
  | .readDTCInformation, .readDtc actor => some actor
  | _, _ => none

/-- What the three checks compare: the fields of the three `arg` structs,
and `reg->read_dtc.sub_function`. -/
structure Keys (F U Arg : Type) where
  dataId : Arg → UInt16
  id : Arg → UInt16
  type : Arg → UInt8
  subFunction : Registration (CheckFn F) (ActionFn F) U → UInt8

section Checks

variable {m : Type → Type} [Monad m] {F U Arg : Type} (K : Keys F U Arg)
  (β : Behaviour m (CheckFn F) (ActionFn F) U Arg)

/-- The registration's identifier is the one asked for. -/
def Keys.selects (s : Service) (reg : Registration (CheckFn F) (ActionFn F) U) (arg : Arg) :
    Bool :=
  match s, reg.data with
  | .readDataByIdent, .dataIdentifier _ dataId _ _ _ => dataId = K.dataId arg
  | .routineCtrl, .routineControl routineId _ => routineId = K.id arg
  | .readDTCInformation, .readDtc _ => K.subFunction reg = K.type arg
  | _, _ => false

/-- And it has a check of its own. -/
def Keys.serves (s : Service) (reg : Registration (CheckFn F) (ActionFn F) U) (arg : Arg) :
    Bool :=
  K.selects s reg arg && ((s.actor reg.data).bind (·.check)).isSome

/-- What the three checks share. -/
def checkSelected (s : Service) (context : Context (CheckFn F) (ActionFn F) U Arg)
    (applyAction : Bool) : m (UDSErr × Bool) :=
  if K.selects s context.registration context.arg = false then pure (.ok, false)
  else
    match (s.actor context.registration.data).bind (·.check) with
    | some check => β.check check context applyAction
    | none => pure (.ok, applyAction)

/-- `uds_check_read_with_data_id`. -/
def udsCheckReadWithDataId (context : Context (CheckFn F) (ActionFn F) U Arg)
    (applyAction : Bool) : m (UDSErr × Bool) :=
  checkSelected K β .readDataByIdent context applyAction

/-- `uds_check_with_routine_id_fn`. -/
def udsCheckWithRoutineIdFn (context : Context (CheckFn F) (ActionFn F) U Arg)
    (applyAction : Bool) : m (UDSErr × Bool) :=
  checkSelected K β .routineCtrl context applyAction

/-- `uds_check_with_subfunc_fn`. -/
def udsCheckWithSubfuncFn (context : Context (CheckFn F) (ActionFn F) U Arg)
    (applyAction : Bool) : m (UDSErr × Bool) :=
  checkSelected K β .readDTCInformation context applyAction

/-- The functions of a registration, the library's checks in front. -/
def behaviour : Behaviour m (CheckFn F) (ActionFn F) U Arg where
  check := fun f context applyAction =>
    match f with
    | .udsCheckReadWithDataId => udsCheckReadWithDataId K β context applyAction
    | .udsCheckWithRoutineIdFn => udsCheckWithRoutineIdFn K β context applyAction
    | .udsCheckWithSubfuncFn => udsCheckWithSubfuncFn K β context applyAction
    | f => β.check f context applyAction
  action := β.action

/-- **The event of a service**, raised on an instance. -/
def raise (s : Service) (inst : InstancePtr) (arg : Arg)
    (statics dynamics : List (Registration (CheckFn F) (ActionFn F) U)) : m UDSErr :=
  udsEventCallback (behaviour K β) eventHandlers inst s.event arg statics dynamics

end Checks

/-! ## The check in front -/

section Filter

variable {F U : Type}

/-- What the event is answered where no registration acts. -/
def Service.defaultNrc : Service → UDSErr
  | .readDataByIdent => .requestOutOfRange
  | .routineCtrl => .subFunctionNotSupported
  | .readDTCInformation => .subFunctionNotSupported

/-- The type of the registrations it is for. -/
def Service.registrationType : Service → RegistrationType
  | .readDataByIdent => .dataIdentifier
  | .routineCtrl => .routineControl
  | .readDTCInformation => .readDtcInfo

/-- The check in front. -/
def Service.check : Service → CheckFn F
  | .readDataByIdent => .udsCheckReadWithDataId
  | .routineCtrl => .udsCheckWithRoutineIdFn
  | .readDTCInformation => .udsCheckWithSubfuncFn

/-- An entry that has no check in front. -/
def Service.plain (s : Service) : EventHandlerData (CheckFn F) (ActionFn F) U :=
  .ofActor s.event s.defaultNrc s.registrationType s.actor

/-- The entry that the section has for the event. -/
theorem find?_handler (s : Service) :
    eventHandlers.find? (·.event = s.event) =
      some ((s.plain (F := F) (U := U)).withCheck s.check) := by
  -- the getters of the entry match on the registration, so they are compared at each kind of one
  have hentry : ∀ actor, (∀ data, actor data = s.actor data) →
      some ((EventHandlerData.ofActor (F := F) (U := U) s.event s.defaultNrc s.registrationType
        actor).withCheck s.check) = some (s.plain.withCheck s.check) := by
    intro actor h
    rw [funext h]
    rfl
  cases s
  all_goals exact hentry _ fun data => by cases data <;> rfl

variable {m : Type → Type} [Monad m] {Arg : Type} {K : Keys F U Arg}
  {β : Behaviour m (CheckFn F) (ActionFn F) U Arg} {s : Service} {inst : InstancePtr} {arg : Arg}
  {reg : Registration (CheckFn F) (ActionFn F) U}

theorem behaviour_check (context : Context (CheckFn F) (ActionFn F) U Arg) (applyAction : Bool) :
    (behaviour K β).check s.check context applyAction =
      checkSelected K β s context applyAction := by
  cases s <;> rfl

variable [LawfulMonad m]

/-- The event passes over what is not selected, or has no check of its
own. -/
theorem skips_of_not_serves (h : K.serves s reg arg = false) :
    Skips (behaviour K β) (s.plain.withCheck s.check) inst s.event arg reg := by
  refine skips_of_check fun check hcheck => ?_
  obtain rfl := Option.some.inj hcheck
  rw [behaviour_check, checkSelected]
  rcases (Bool.and_eq_false_iff).mp h with hsel | hown
  · rw [if_pos hsel]
  · rw [Option.isSome_eq_false_iff, Option.isNone_iff_eq_none] at hown
    simp only [hown, ite_self]

/-- With what is selected, the round is that of the entry without a check
in front. -/
theorem udsCheckAndActOnEvent_selected (h : K.selects s reg arg = true) (found consume : Bool) :
    udsCheckAndActOnEvent (behaviour K β) ⟨inst, reg, s.event, arg⟩ (s.plain.withCheck s.check)
        found consume =
      udsCheckAndActOnEvent β ⟨inst, reg, s.event, arg⟩ s.plain found consume := by
  have hselected : ¬ K.selects s reg arg = false := by rw [h]; decide
  have hfront : (s.plain.withCheck s.check).getCheck reg = some (s.check (F := F)) := rfl
  have hown : s.plain.getCheck reg = (s.actor reg.data).bind (·.check) := rfl
  have hact : (s.plain.withCheck s.check).getAction reg = s.plain.getAction reg := rfl
  unfold udsCheckAndActOnEvent
  simp only [hfront, hown, hact, behaviour_check, checkSelected, if_neg hselected]
  show (if reg.type ≠ s.registrationType then _ else _) =
    (if reg.type ≠ s.registrationType then _ else _)
  refine if_congr Iff.rfl rfl ?_
  cases (s.actor reg.data).bind (·.check) with
  | none => simp only [pure_bind, ne_eq, not_true_eq_false, if_false]
  | some check => rfl

/-- So is a walk over what is selected. -/
theorem handleRegistrations_selected (consume : Bool)
    {regs : List (Registration (CheckFn F) (ActionFn F) U)}
    (h : ∀ reg ∈ regs, K.selects s reg arg = true) (found : Bool) :
    handleRegistrations (behaviour K β) inst s.event arg (s.plain.withCheck s.check) consume regs
        found =
      handleRegistrations β inst s.event arg s.plain consume regs found := by
  induction regs generalizing found with
  | nil => rfl
  | cons reg regs ih =>
    rw [handleRegistrations, handleRegistrations,
      udsCheckAndActOnEvent_selected (h reg List.mem_cons_self)]
    simp only [ih fun q hq => h q (List.mem_cons_of_mem _ hq)]

/-- **A walk is the walk over what is selected.** -/
theorem handleRegistrations_filter (consume : Bool)
    (regs : List (Registration (CheckFn F) (ActionFn F) U)) (found : Bool) :
    handleRegistrations (behaviour K β) inst s.event arg (s.plain.withCheck s.check) consume regs
        found =
      handleRegistrations β inst s.event arg s.plain consume (regs.filter (K.selects s · arg))
        found := by
  have hskips : ∀ reg, K.selects s reg arg = false →
      Skips (behaviour K β) (s.plain.withCheck s.check) inst s.event arg reg := fun reg hsel =>
    skips_of_not_serves (by rw [Keys.serves, hsel, Bool.false_and])
  rw [handleRegistrations_filter_of_skips hskips]
  exact handleRegistrations_selected consume (fun reg hreg => (List.mem_filter.mp hreg).2) found

/-- **The services by identifier see the registrations of that identifier
alone.** Whatever else is registered, an event of one of the three is the
plain walk over the static and then the dynamic registrations that have
the identifier it is about, with their own checks and actions: the others
are neither asked nor counted, and nothing of the check in front is left.
One without a check of its own is as if it were not registered, and where
there are no others the default code is all that comes of the event. The
functions do not change the lists. -/
theorem raise_eq_filter (statics dynamics : List (Registration (CheckFn F) (ActionFn F) U)) :
    raise K β s inst arg statics dynamics =
        udsHandleEvent β inst s.event arg s.plain (statics.filter (K.selects s · arg))
          (dynamics.filter (K.selects s · arg)) ∧
      raise K β s inst arg statics dynamics =
        raise K β s inst arg (statics.filter (K.serves s · arg))
          (dynamics.filter (K.serves s · arg)) ∧
      ((∀ reg ∈ statics ++ dynamics, K.serves s reg arg = false) →
        raise K β s inst arg statics dynamics = pure s.defaultNrc) := by
  have hraise : ∀ regs regs', raise K β s inst arg regs regs' =
      udsHandleEvent (behaviour K β) inst s.event arg (s.plain.withCheck s.check) regs regs' := by
    intro regs regs'
    rw [raise, udsEventCallback, find?_handler]
  refine ⟨?_, ?_, fun hnone => ?_⟩
  · simp only [hraise, udsHandleEvent, handleRegistrations_filter]
    rfl
  · rw [hraise, hraise]
    exact udsHandleEvent_filter_of_skips (fun reg => skips_of_not_serves) statics dynamics
  · rw [hraise]
    exact udsHandleEvent_of_skips fun reg hreg => skips_of_not_serves (hnone reg hreg)

/-- A routine whose functions are named by its identifier. -/
def routine (id : UInt16) : Registration (CheckFn UInt16) (ActionFn UInt16) Unit where
  inst := some 0
  data := .routineControl id ⟨some (.app id), some (.app id)⟩

/-- Checks and actions that record who was called. -/
def recording :
    Behaviour (StateM (List UInt16)) (CheckFn UInt16) (ActionFn UInt16) Unit UInt16 where
  check := fun f _ _ called =>
    match f with
    | .app id => ((.ok, true), called ++ [id])
    | _ => ((.ok, false), called)
  action := fun f _ consume called =>
    match f with
    | .app id => ((.ok, consume), called ++ [id])
    | _ => ((.ok, consume), called)

/-- Of three routines the one asked for is called, its check and its
action; where none is asked for, none is called. -/
theorem raise_eq_filter_routine :
    raise ⟨id, id, fun _ => 0, fun _ => 0⟩ recording .routineCtrl 0 0xFF00
        [routine 0xFF01, routine 0xFF00, routine 0x0203] [] [] = (.ok, [0xFF00, 0xFF00]) ∧
      raise ⟨id, id, fun _ => 0, fun _ => 0⟩ recording .routineCtrl 0 0xFF02
        [routine 0xFF01, routine 0xFF00, routine 0x0203] [] [] =
          (.subFunctionNotSupported, []) := by
  constructor
  · rw [(raise_eq_filter _ _).1]
    rfl
  · rw [(raise_eq_filter _ _).2.2 (by decide)]
    rfl

end Filter

end Keyed

end Uds

end Ardep
