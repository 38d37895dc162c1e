import Ardep.Uds.Dispatch.Relate
/-!
# Dispatch — the checks in front of a data identifier

`data_by_identifier.c` puts a check of its own in front of the pair of
functions a registration has for reading, writing and I/O control, so the
dispatcher never sees whether the registration has one. The check for
reading looks before it calls; the two others, which are the same text,
call what is there.

A call through a null pointer gives nothing. `neverNull_iff` says for
which tables no event comes to one.
-/

namespace Ardep

namespace Uds

namespace DataIdentifier

/-- The three operations on a data identifier. -/
inductive Operation
  | read
  | write
  | ioControl
  deriving DecidableEq, Repr

/-- The event of an operation. -/
def Operation.event : Operation → UDSEvent
  | .read => .readDataByIdent
  | .write => .writeDataByIdent
  | .ioControl => .ioControl

/-- The pair of functions a registration has for an operation. -/
def Operation.actor {C A : Type} (op : Operation) (data : RegistrationData C A) :
    Option (Actor C A) :=
  match data with
  | .dataIdentifier _ _ reading writing controlling =>
    match op with
    | .read => some reading
    | .write => some writing
    | .ioControl => some controlling
  | _ => none

/-- A program that calls through pointers: it gives nothing once it called
through NULL. -/
abbrev CallM (σ : Type) : Type → Type := StateT σ Option

/-- A call of a function that is there. -/
def call {σ β : Type} (x : StateM σ β) : CallM σ β := fun s => some (x s)

/-! ## The three checks -/

section Checks

variable {F U Arg σ : Type} (dataId : Arg → UInt16)
  (β : Behaviour (StateM σ) (CheckFn F) (ActionFn F) U Arg)

/-- The registration's own check for an operation. -/
def check? (op : Operation) (reg : Registration (CheckFn F) (ActionFn F) U) : Option (CheckFn F) :=
  (op.actor reg.data).bind (·.check)

/-- `uds_check_read_with_data_id`. -/
def udsCheckReadWithDataId (context : Context (CheckFn F) (ActionFn F) U Arg)
    (applyAction : Bool) : CallM σ (UDSErr × Bool) :=
  if context.registration.dataId? ≠ some (dataId context.arg) then pure (.ok, false)
  else
    match check? .read context.registration with
    | some check => call (β.check check context applyAction)
    | none => pure (.ok, applyAction)

/-- What the two other checks share: the registration's check is called
whether it is there or not. -/
def checkWithDataId (op : Operation) (context : Context (CheckFn F) (ActionFn F) U Arg)
    (applyAction : Bool) : CallM σ (UDSErr × Bool) :=
  if context.registration.dataId? ≠ some (dataId context.arg) then pure (.ok, false)
  else
    match check? op context.registration with
    | some check => call (β.check check context applyAction)
    | none => fun _ => none

/-- `uds_check_write_with_data_id`. -/
def udsCheckWriteWithDataId (context : Context (CheckFn F) (ActionFn F) U Arg)
    (applyAction : Bool) : CallM σ (UDSErr × Bool) :=
  checkWithDataId dataId β .write context applyAction

/-- `uds_check_io_control_with_data_id`. -/
def udsCheckIoControlWithDataId (context : Context (CheckFn F) (ActionFn F) U Arg)
    (applyAction : Bool) : CallM σ (UDSErr × Bool) :=
  checkWithDataId dataId β .ioControl context applyAction

/-- The functions of a registration as the event loop calls them, the
three checks in front. `dataId` reads the identifier off the arguments. -/
def behaviour : Behaviour (CallM σ) (CheckFn F) (ActionFn F) U Arg where
  check := fun f context applyAction =>
    match f with
    | .udsCheckReadWithDataId => udsCheckReadWithDataId dataId β context applyAction
    | .udsCheckWriteWithDataId => udsCheckWriteWithDataId dataId β context applyAction
    | .udsCheckIoControlWithDataId => udsCheckIoControlWithDataId dataId β context applyAction
    | f => call (β.check f context applyAction)
  action := fun f context consumeEvent => call (β.action f context consumeEvent)

/-- **The event of an operation**, raised on an instance. -/
def raise (op : Operation) (inst : InstancePtr) (arg : Arg)
    (statics dynamics : List (Registration (CheckFn F) (ActionFn F) U)) : CallM σ UDSErr :=
  udsEventCallback (behaviour dataId β) eventHandlers inst op.event arg statics dynamics

end Checks

/-! ## Rounds -/

section Rounds

variable {F U Arg σ : Type} {dataId : Arg → UInt16}
  {β : Behaviour (StateM σ) (CheckFn F) (ActionFn F) U Arg} {op : Operation} {inst : InstancePtr}
  {arg : Arg} {reg : Registration (CheckFn F) (ActionFn F) U}
  {statics dynamics : List (Registration (CheckFn F) (ActionFn F) U)}

/-- The entry an operation's event is handled with. -/
def Operation.handler (op : Operation) : EventHandlerData (CheckFn F) (ActionFn F) U where
  event := op.event
  getCheck := fun _ => some (match op with
    | .read => .udsCheckReadWithDataId
    | .write => .udsCheckWriteWithDataId
    | .ioControl => .udsCheckIoControlWithDataId)
  getAction := fun reg => (op.actor reg.data).bind (·.action)
  defaultNrc := .requestOutOfRange
  registrationType := .dataIdentifier

/-- It is the one the section has for the event. -/
theorem find?_handler :
    eventHandlers.find? (·.event = op.event) = some (op.handler (F := F) (U := U)) := by
  -- the getter of the entry matches on the registration, so it is compared at each kind of one
  have hentry : ∀ getAction, (∀ reg, getAction reg = (op.handler (F := F) (U := U)).getAction reg) →
      some { (op.handler (F := F) (U := U)) with getAction := getAction } = some op.handler := by
    intro getAction h
    rw [funext h]
  cases op
  all_goals
    refine hentry _ fun reg => ?_
    obtain ⟨inst, data, id, fn⟩ := reg
    cases data <;> rfl

theorem raise_eq : raise dataId β op inst arg statics dynamics =
    udsHandleEvent (behaviour dataId β) inst op.event arg op.handler statics dynamics := by
  rw [raise, udsEventCallback, find?_handler]

/-- The check an event comes to: the registration's own where the data id
is the registration's, and what happens with none is the operation's. -/
theorem check_eq (check : CheckFn F) (hcheck : op.handler.getCheck reg = some check)
    (applyAction : Bool) :
    (behaviour dataId β).check check ⟨inst, reg, op.event, arg⟩ applyAction =
      if reg.dataId? ≠ some (dataId arg) then pure (.ok, false)
      else
        match check? op reg with
        | some check => call (β.check check ⟨inst, reg, op.event, arg⟩ applyAction)
        | none => if op = .read then pure (.ok, applyAction) else fun _ => none := by
  obtain rfl := Option.some.inj hcheck
  cases op <;> rfl

theorem total_call {γ : Type} (x : StateM σ γ) : ProgRel.Total (call x) :=
  fun s => ⟨x s, rfl⟩

/-- **A registration an event gets past**: the operation is a read, or the
registration has a check where the data id is its own. -/
def Passable (op : Operation) (x : UInt16) (reg : Registration (CheckFn F) (ActionFn F) U) : Prop :=
  op = .read ∨ (reg.dataId? = some x → (check? op reg).isSome)

/-- The check of a registration an event gets past is the registration's
own, or lets the event through without asking for the action. -/
theorem check_of_passable (h : Passable op (dataId arg) reg) (check : CheckFn F)
    (hcheck : op.handler.getCheck reg = some check) :
    (∃ own, reg.dataId? = some (dataId arg) ∧ check? op reg = some own ∧ ∀ apply,
      (behaviour dataId β).check check ⟨inst, reg, op.event, arg⟩ apply =
        call (β.check own ⟨inst, reg, op.event, arg⟩ apply)) ∨
    ∀ apply, ∃ apply', (apply = false → apply' = false) ∧
      (behaviour dataId β).check check ⟨inst, reg, op.event, arg⟩ apply = pure (.ok, apply') := by
  simp only [check_eq check hcheck]
  by_cases hx : reg.dataId? = some (dataId arg)
  · simp only [if_neg (not_not.mpr hx)]
    cases hc : check? op reg with
    | some own => exact .inl ⟨own, hx, rfl, fun _ => rfl⟩
    | none =>
      rcases h with rfl | h
      · exact .inr fun apply => ⟨apply, fun h => h, rfl⟩
      · have hsome := h hx
        rw [hc] at hsome
        cases hsome
  · simp only [if_pos hx]
    exact .inr fun apply => ⟨false, fun _ => rfl, rfl⟩

/-- A round with a registration an event gets past. -/
theorem total_round (h : Passable op (dataId arg) reg) (found consume : Bool) :
    ProgRel.Total (udsCheckAndActOnEvent (behaviour dataId β) ⟨inst, reg, op.event, arg⟩ op.handler
      found consume) := by
  refine ProgRel.total_of_rel (udsCheckAndActOnEvent_rel (ProgRel.total σ) ?_ ?_ found consume)
  · intro check apply hcheck
    rcases check_of_passable h check hcheck with ⟨own, -, -, hown⟩ | hlets
    · rw [hown]
      exact total_call _
    · obtain ⟨apply', -, heq⟩ := hlets apply
      rw [heq]
      exact (ProgRel.total σ).rel_pure _
  · intro action consume haction
    exact total_call _

/-- A registration is passed over where an event gets past it and its own
check, if the event comes to it, lets the event through. -/
theorem skips_of_passable (h : Passable op (dataId arg) reg)
    (hown : ∀ own, reg.dataId? = some (dataId arg) → check? op reg = some own →
      call (β.check own ⟨inst, reg, op.event, arg⟩ false) = pure (.ok, false)) :
    Skips (behaviour dataId β) op.handler inst op.event arg reg := by
  refine skips_of_check fun check hcheck => ?_
  rcases check_of_passable h check hcheck with ⟨own, hx, hc, heq⟩ | hlets
  · rw [heq]
    exact hown own hx hc
  · obtain ⟨apply', hfalse, heq⟩ := hlets false
    rw [heq, hfalse rfl]

/-- **A registration that is not got past** ends everything. -/
theorem round_of_not_passable (htype : reg.type = .dataIdentifier)
    (h : ¬ Passable op (dataId arg) reg) (found consume : Bool) (w : σ) :
    udsCheckAndActOnEvent (behaviour dataId β) ⟨inst, reg, op.event, arg⟩ op.handler found consume
      w = none := by
  rw [Passable, not_or, Classical.not_imp] at h
  obtain ⟨hop, hx, hnone⟩ := h
  have hnone : check? op reg = none := by simpa using hnone
  have hcheck := @check_eq F U Arg σ dataId β op inst arg reg _ rfl false
  rw [if_neg (not_not.mpr hx), hnone, if_neg hop] at hcheck
  have htype' : reg.type = (op.handler (F := F) (U := U)).registrationType := htype
  simp only [udsCheckAndActOnEvent, htype', ne_eq, not_true_eq_false, if_false]
  show ((behaviour dataId β).check _ ⟨inst, reg, op.event, arg⟩ false >>= _) w = none
  rw [hcheck]
  rfl

end Rounds

/-! ## Tables -/

section Tables

variable {F U Arg : Type}

/-- **The operation is safe on a table**: whatever the registered functions
do, an event for the data id is answered without a call through NULL, and
with RequestOutOfRange where no registration for the data id has functions
for the operation. -/
def NeverNull (dataId : Arg → UInt16) (op : Operation) (arg : Arg)
    (statics dynamics : List (Registration (CheckFn F) (ActionFn F) U)) : Prop :=
  ∀ (σ : Type) (β : Behaviour (StateM σ) (CheckFn F) (ActionFn F) U Arg) (inst : InstancePtr)
    (w : σ), ∃ ret w', raise dataId β op inst arg statics dynamics w = some (ret, w') ∧
      ((∀ reg ∈ statics ++ dynamics, reg.dataId? = some (dataId arg) → check? op reg = none) →
        ret = .requestOutOfRange)

/-- Functions of which every check passes without asking for the action. -/
def passing : Behaviour (StateM Unit) (CheckFn F) (ActionFn F) U Arg where
  check := fun _ _ _ => pure (.ok, false)
  action := fun _ _ _ => pure (.ok, false)

variable {dataId : Arg → UInt16} {op : Operation} {inst : InstancePtr} {arg : Arg}

/-- With `passing` functions a registration an event gets past is passed
over. -/
theorem skips_passing {reg : Registration (CheckFn F) (ActionFn F) U}
    (h : Passable op (dataId arg) reg) :
    Skips (behaviour dataId passing) op.handler inst op.event arg reg :=
  skips_of_passable h fun _ _ _ => rfl

/-- With `passing` functions a walk comes to the first registration an
event does not get past. -/
theorem handleRegistrations_passing {consume found : Bool}
    {regs : List (Registration (CheckFn F) (ActionFn F) U)}
    (h : ∃ reg ∈ regs, ¬ Passable op (dataId arg) reg) :
    handleRegistrations (behaviour dataId passing) inst op.event arg op.handler consume regs found
      () = none := by
  induction regs generalizing found with
  | nil => simp at h
  | cons reg regs ih =>
    by_cases hreg : Passable op (dataId arg) reg
    · have hrest : ∃ q ∈ regs, ¬ Passable op (dataId arg) q := by
        obtain ⟨q, hq, hnot⟩ := h
        rcases List.mem_cons.mp hq with rfl | hq
        · exact absurd hreg hnot
        · exact ⟨q, hq, hnot⟩
      have hskips : ∀ q ∈ [reg],
          Skips (behaviour dataId passing) op.handler inst op.event arg q := fun q hq =>
        List.mem_singleton.mp hq ▸ skips_passing hreg
      rw [← List.singleton_append, handleRegistrations_append_of_skips hskips]
      exact ih hrest
    · have htype : reg.type = .dataIdentifier := by
        rw [Passable, not_or, Classical.not_imp] at hreg
        exact Registration.type_of_dataId? hreg.2.1
      have hround : udsCheckAndActOnEvent (behaviour dataId passing) ⟨inst, reg, op.event, arg⟩
          op.handler found consume () = none :=
        round_of_not_passable htype hreg found consume ()
      rw [handleRegistrations]
      exact Option.bind_eq_none_iff.mpr (by simp [hround])

/-- And so does the event, in whichever part of the table it is. -/
theorem udsHandleEvent_passing {statics dynamics : List (Registration (CheckFn F) (ActionFn F) U)}
    (h : ∃ reg ∈ statics ++ dynamics, ¬ Passable op (dataId arg) reg) :
    udsHandleEvent (behaviour dataId passing) inst op.event arg op.handler statics dynamics ()
      = none := by
  by_cases hstatic : ∃ reg ∈ statics, ¬ Passable op (dataId arg) reg
  · have hnone : handleRegistrations (behaviour dataId passing) inst op.event arg op.handler true
        statics false () = none := handleRegistrations_passing hstatic
    exact Option.bind_eq_none_iff.mpr (by simp [hnone])
  · have hskips : ∀ q ∈ statics,
        Skips (behaviour dataId passing) op.handler inst op.event arg q := fun q hq =>
      skips_passing (by_contra fun hq' => hstatic ⟨q, hq, hq'⟩)
    have hdynamic : ∃ reg ∈ dynamics, ¬ Passable op (dataId arg) reg := by
      obtain ⟨reg, hreg, hnot⟩ := h
      rcases List.mem_append.mp hreg with hreg | hreg
      · exact absurd ⟨reg, hreg, hnot⟩ hstatic
      · exact ⟨reg, hreg, hnot⟩
    have hnone : handleRegistrations (behaviour dataId passing) inst op.event arg op.handler false
        dynamics false () = none := handleRegistrations_passing hdynamic
    rw [udsHandleEvent, handleRegistrations_of_skips hskips, pure_bind]
    exact Option.bind_eq_none_iff.mpr (by simp [hnone])

/-- **The tables an operation is safe on.** Reading is safe on every one.
Writing and I/O control are safe exactly on those where every registration
for the data id has a check for the operation: the check in front calls it
without looking. The functions do not change the tables. -/
theorem neverNull_iff (dataId : Arg → UInt16) (op : Operation) (arg : Arg)
    (statics dynamics : List (Registration (CheckFn F) (ActionFn F) U)) :
    NeverNull dataId op arg statics dynamics ↔
      op = .read ∨ ∀ reg ∈ statics ++ dynamics, reg.dataId? = some (dataId arg) →
        (check? op reg).isSome := by
  have hcondition : (op = .read ∨ ∀ reg ∈ statics ++ dynamics, reg.dataId? = some (dataId arg) →
      (check? op reg).isSome) ↔ ∀ reg ∈ statics ++ dynamics, Passable op (dataId arg) reg := by
    by_cases hop : op = .read
    · simp [Passable, hop]
    · simp [Passable, hop]
  rw [hcondition]
  constructor
  · intro hsafe
    by_contra hnot
    push Not at hnot
    obtain ⟨ret, w', hrun, -⟩ := hsafe Unit passing 0 ()
    rw [raise_eq, udsHandleEvent_passing hnot] at hrun
    cases hrun
  · intro hpass σ β inst w
    rw [raise_eq]
    have htotal : (ProgRel.total σ).Rel
        (udsHandleEvent (behaviour dataId β) inst op.event arg op.handler statics dynamics)
        (udsHandleEvent (behaviour dataId β) inst op.event arg op.handler statics dynamics) :=
      udsHandleEvent_rel _ fun reg hreg found consume => total_round (hpass reg hreg) found consume
    obtain ⟨⟨ret, w'⟩, hrun⟩ := ProgRel.total_of_rel htotal w
    refine ⟨ret, w', hrun, fun hnone => ?_⟩
    have hskips : ∀ q ∈ statics ++ dynamics,
        Skips (behaviour dataId β) op.handler inst op.event arg q := by
      intro q hq
      refine skips_of_passable (hpass q hq) fun own hx hown => ?_
      rw [hnone q hq hx] at hown
      cases hown
    rw [udsHandleEvent_of_skips hskips] at hrun
    cases hrun
    rfl

end Tables

/-- A read-only data identifier, as the registration macro documents it. -/
def readOnly : Registration (CheckFn ℕ) (ActionFn ℕ) Unit where
  inst := some 0
  data := .dataIdentifier 0 0xF190 ⟨some (.app 0), some (.app 1)⟩ .null .null

/-- Writing a read-only data identifier calls through NULL. -/
theorem not_neverNull_readOnly :
    ¬ ∀ (op : Operation) (x : UInt16)
      (statics dynamics : List (Registration (CheckFn ℕ) (ActionFn ℕ) Unit)),
      NeverNull id op x statics dynamics := by
  intro hall
  obtain ⟨ret, w', hrun, -⟩ := hall .write 0xF190 [readOnly] [] Unit passing 0 ()
  have hnone : raise id passing .write 0 0xF190 [readOnly] [] () = none := rfl
  rw [hnone] at hrun
  cases hrun

end DataIdentifier

end Uds

end Ardep
