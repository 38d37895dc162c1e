import Ardep.Uds.Dispatch.Relate
import Ardep.Uds.Read.Model
/-!
# Read — the two events of a read

Which entry serves each of the two events, which registrations they pass
over, and what more fuel does: nothing, once there was enough
(`raise_readDataByIdent_of_le`).
-/

open Ardep.Uds.Dynamic

namespace Ardep

namespace Uds

namespace Read

variable {F α : Type} {env : Env F α} {r r' : UDSEvent → ReadArgs → ReadM α UDSErr}

/-! ## Running a step -/

section Steps

variable {β γ : Type} {A : Application F α} {src : List UInt8}

theorem bind_apply (x : ReadM α β) (f : β → ReadM α γ) (st : ReadState α) :
    (x >>= f) st = (x st).bind fun p => f p.1 p.2 := rfl

theorem pure_apply (b : β) (st : ReadState α) : (pure b : ReadM α β) st = some (b, st) := rfl

theorem runCopy_request (st : ReadState α) (h : A.copy st.sent src = 0) :
    runCopy A .request src st = some (0, { st with sent := st.sent ++ src }) := by
  simp [runCopy, h]

theorem runCopy_request_refused (st : ReadState α) (h : A.copy st.sent src ≠ 0) :
    runCopy A .request src st = some (A.copy st.sent src, st) := by
  simp [runCopy, h]

end Steps

/-! ## The entries -/

theorem find?_readDataByIdent :
    (eventHandlers (F := F) (U := UnregisterFn F)).find? (·.event = .readDataByIdent) =
      some readDataByIdentHandler := rfl

theorem find?_readMemByAddr :
    (eventHandlers (F := F) (U := UnregisterFn F)).find? (·.event = .readMemByAddr) =
      some readMemByAddrHandler := rfl

theorem raise_readDataByIdent (fuel : ℕ) (x : UInt16) (copy : CopyFn) :
    raise env (fuel + 1) .readDataByIdent (.readDataByIdent x copy) =
      udsHandleEvent (behaviourWith env (raise env fuel)) env.inst .readDataByIdent
        (.readDataByIdent x copy) readDataByIdentHandler env.statics env.dynamics := by
  rw [raise, udsEventCallback, find?_readDataByIdent]

theorem raise_readMemByAddr (fuel : ℕ) (memAddr memSize : ℕ) (copy : CopyFn) :
    raise env (fuel + 1) .readMemByAddr (.readMemByAddr memAddr memSize copy) =
      udsHandleEvent (behaviourWith env (raise env fuel)) env.inst .readMemByAddr
        (.readMemByAddr memAddr memSize copy) readMemByAddrHandler env.statics env.dynamics := by
  rw [raise, udsEventCallback, find?_readMemByAddr]

/-- `reg->data_identifier.read.action`. -/
def readAction (reg : Reg F) : Option (ActionFn F) :=
  match reg.data with
  | .dataIdentifier _ _ read _ _ => read.action
  | _ => none

theorem getAction_readDataByIdentHandler (reg : Reg F) :
    readDataByIdentHandler.getAction reg = readAction reg := by
  simp only [readDataByIdentHandler, EventHandlerData.withCheck, EventHandlerData.ofActor,
    readAction]
  cases reg.data <;> rfl

/-- The action of a dynamic identifier is none the application can
name. -/
theorem readAction_of_isApplication {reg : Reg F} (h : IsApplication reg.data) :
    readAction reg ≠ some .udsDynamicDataByIdReadDataByIdAction := by
  obtain ⟨inst, data⟩ := reg
  cases data with
  | dataIdentifier data dataId read write ioControl => exact h.2
  | _ => simp [readAction]

/-- **Another data identifier** is passed over. -/
theorem skips_of_dataId {inst : InstancePtr} {reg : Reg F} {x : UInt16} {copy : CopyFn}
    (h : reg.dataId? ≠ some x) :
    Skips (behaviourWith env r) readDataByIdentHandler inst .readDataByIdent
      (.readDataByIdent x copy) reg := by
  refine skips_of_check fun check hcheck => ?_
  obtain rfl := Option.some.inj hcheck
  simp only [behaviourWith, udsCheckReadWithDataId, if_pos h]

/-- Registrations of no memory are passed over by ReadMemByAddr. -/
theorem skips_of_not_memory {inst : InstancePtr} {reg : Reg F} {args : ReadArgs}
    (h : reg.type ≠ .memory) :
    Skips (behaviourWith env r) readMemByAddrHandler inst .readMemByAddr args reg :=
  skips_of_type h

/-- **Reading a dynamic identifier** that no registration before it serves
is the loop over its elements. -/
theorem raise_dynamicIdentifier {reg : Reg F} {pre post : List (Reg F)} {x : UInt16}
    {p : ℕ} (hdynamics : env.dynamics = pre ++ reg :: post)
    (hpre : ∀ q ∈ pre, q.dataId? ≠ some x)
    (hdata : reg.data = .dataIdentifier p x
      ⟨some .udsDynamicDataByIdReadDataByIdCheck, some .udsDynamicDataByIdReadDataByIdAction⟩
      .null .null)
    (hstatics : ∀ q ∈ env.statics, q.dataId? ≠ some x) (fuel : ℕ) (copy : CopyFn) :
    raise env (fuel + 1) .readDataByIdent (.readDataByIdent x copy) =
      readElements env.app (raise env fuel) copy (env.elements p) := by
  have hx : reg.dataId? = some x := by rw [Registration.dataId?, hdata]
  have htype : reg.type = .dataIdentifier := Registration.type_of_dataId? hx
  have hptr : dataPtr reg = p := by rw [dataPtr, hdata]
  have hcheck : readCheck reg = some .udsDynamicDataByIdReadDataByIdCheck := by
    rw [readCheck, hdata]
  have haction : readAction reg = some .udsDynamicDataByIdReadDataByIdAction := by
    rw [readAction, hdata]
  have hchecks : (behaviourWith env (raise env fuel)).check .udsCheckReadWithDataId
      ⟨env.inst, reg, .readDataByIdent, .readDataByIdent x copy⟩ false = pure (.ok, true) := by
    simp [behaviourWith, udsCheckReadWithDataId, hx, hcheck, checkFn]
  have hget : readDataByIdentHandler.getCheck reg = some .udsCheckReadWithDataId := rfl
  have hact : udsCheckAndActOnEvent (behaviourWith env (raise env fuel))
      ⟨env.inst, reg, .readDataByIdent, .readDataByIdent x copy⟩ readDataByIdentHandler false
        false =
      readElements env.app (raise env fuel) copy (env.elements p) >>= fun ret =>
        pure (if ret = .ok then (.ok, true, true) else (ret, false, false)) := by
    simp only [udsCheckAndActOnEvent, htype, hget, hchecks, pure_bind,
      getAction_readDataByIdentHandler, haction]
    simp only [behaviourWith, udsDynamicDataByIdReadDataByIdAction, hptr, bind_assoc, pure_bind]
    show (readElements env.app (raise env fuel) copy (env.elements p) >>= fun ret =>
      if ret ≠ .ok then pure (ret, false, if ret = .ok then true else false)
      else pure (.ok, true, if ret = .ok then true else false)) = _
    refine congrArg _ (funext fun ret => ?_)
    by_cases hret : ret = .ok
    · simp [hret]
    · simp [hret]
  rw [raise_readDataByIdent, hdynamics,
    udsHandleEvent_of_dynamic_stops (fun q hq => skips_of_dataId (hstatics q hq))
      (fun q hq => skips_of_dataId (hpre q hq)) hact fun ret => by split <;> simp_all]
  conv_rhs => rw [← bind_pure (readElements env.app (raise env fuel) copy (env.elements p))]
  refine congrArg _ (funext fun ret => ?_)
  split
  · next hret => rw [hret]
  · rfl

/-! ## The functions, related

A read looks at the application and copies, and what relates these relates
every function but the action of a dynamic identifier. That one also looks
at the buffer and empties it, and raises events of its own. -/

/-- The relation holds between the same looks at the application, and
between copies of the same bytes. -/
structure Respects (R : ProgRel (ReadM α) (ReadM α)) (A : Application F α) (copy : CopyFn) :
    Prop where
  getApp : R.Rel (getApp (α := α)) getApp
  setApp : ∀ app : α, R.Rel (setApp app) (setApp app)
  runCopy : ∀ src, R.Rel (runCopy A copy src) (runCopy A copy src)

/-- The relation holds between the same looks at the buffer. -/
structure RespectsBuffer (R : ProgRel (ReadM α) (ReadM α)) : Prop where
  getTempBuffer : R.Rel (getTempBuffer (α := α)) getTempBuffer
  clearTempBuffer : R.Rel (clearTempBuffer (α := α)) clearTempBuffer

namespace Respects

variable {R : ProgRel (ReadM α) (ReadM α)} {A : Application F α} {copy : CopyFn}

/-- A function of the application. -/
theorem runProg (h : Respects R A copy) (prog : Prog α) :
    R.Rel (runProg A copy prog) (Read.runProg A copy prog) := by
  induction prog with
  | done ret flag app => exact R.rel_bind (h.setApp app) fun _ => R.rel_pure _
  | copy src next ih => exact R.rel_bind (h.runCopy src) ih

theorem runApp (h : Respects R A copy) (f : α → Prog α) :
    R.Rel (do let app ← Read.getApp; Read.runProg A copy (f app))
      (do let app ← Read.getApp; Read.runProg A copy (f app)) :=
  R.rel_bind h.getApp fun app => h.runProg (f app)

variable {inst : InstancePtr} {event : UDSEvent} {reg : Reg F}

section DataIdentifier

variable {x : UInt16}

theorem checkFn_dataId (h : Respects R A copy) (check : CheckFn F) (apply : Bool) :
    R.Rel (checkFn A check ⟨inst, reg, event, .readDataByIdent x copy⟩ apply)
      (checkFn A check ⟨inst, reg, event, .readDataByIdent x copy⟩ apply) := by
  cases check with
  | udsDynamicDataByIdReadDataByIdCheck => exact R.rel_pure _
  | _ => exact h.runApp _

/-- The check of a data identifier. -/
theorem check_dataId (h : Respects R env.app copy) (check : CheckFn F) (apply : Bool) :
    R.Rel ((behaviourWith env r).check check ⟨inst, reg, event, .readDataByIdent x copy⟩ apply)
      ((behaviourWith env r').check check ⟨inst, reg, event, .readDataByIdent x copy⟩ apply) := by
  cases check with
  | udsCheckReadWithDataId =>
    refine R.rel_ite (R.rel_pure _) ?_
    simp only
    cases readCheck reg with
    | none => exact R.rel_pure _
    | some check => exact h.checkFn_dataId check apply
  | udsDynamicDataByIdReadDataByIdCheck => exact R.rel_pure _
  | _ => exact h.runApp _

/-- **A registration of a data identifier**: what counts is the action of
a dynamic identifier whose data id is read. -/
theorem readDataByIdent (h : Respects R env.app copy)
    (haction : reg.dataId? = some x →
      readAction reg = some .udsDynamicDataByIdReadDataByIdAction →
      R.Rel (readElements env.app r copy (env.elements (dataPtr reg)))
        (readElements env.app r' copy (env.elements (dataPtr reg)))) (found consume : Bool) :
    R.Rel
      (udsCheckAndActOnEvent (behaviourWith env r)
        ⟨inst, reg, .readDataByIdent, .readDataByIdent x copy⟩ readDataByIdentHandler found consume)
      (udsCheckAndActOnEvent (behaviourWith env r')
        ⟨inst, reg, .readDataByIdent, .readDataByIdent x copy⟩ readDataByIdentHandler found
          consume) := by
  by_cases hx : reg.dataId? = some x
  · refine udsCheckAndActOnEvent_rel R (fun check apply _ => ?_) (fun action consume hget => ?_)
      found consume
    · exact h.check_dataId check apply
    rw [getAction_readDataByIdentHandler] at hget
    cases action with
    | udsDynamicDataByIdReadDataByIdAction =>
      exact R.rel_bind (haction hx hget) fun _ => R.rel_pure _
    | _ => exact h.runApp _
  · rw [skips_of_dataId hx, skips_of_dataId hx]
    exact R.rel_pure _

end DataIdentifier

section Memory

variable {memAddr memSize : ℕ}

/-- **A registration of memory** raises no event. -/
theorem readMemByAddr (h : Respects R env.app copy) (found consume : Bool) :
    R.Rel
      (udsCheckAndActOnEvent (behaviourWith env r)
        ⟨inst, reg, .readMemByAddr, .readMemByAddr memAddr memSize copy⟩ readMemByAddrHandler found
          consume)
      (udsCheckAndActOnEvent (behaviourWith env r')
        ⟨inst, reg, .readMemByAddr, .readMemByAddr memAddr memSize copy⟩ readMemByAddrHandler found
          consume) := by
  refine udsCheckAndActOnEvent_rel R (fun check apply _ => ?_) (fun action consume _ => ?_) found
    consume
  · cases check with
    | udsCheckDefaultMemoryByAddrRead => exact R.rel_pure _
    | _ => exact h.runApp _
  · cases action with
    | udsActionDefaultMemoryByAddrRead =>
      exact R.rel_bind h.getApp fun app => R.rel_bind (h.runCopy _) fun _ => R.rel_pure _
    | _ => exact h.runApp _

/-- **Reading memory**, with enough fuel on both sides. -/
theorem raise_readMemByAddr (h : Respects R env.app copy) (n k : ℕ) :
    R.Rel (raise env (n + 1) .readMemByAddr (.readMemByAddr memAddr memSize copy))
      (raise env (k + 1) .readMemByAddr (.readMemByAddr memAddr memSize copy)) := by
  rw [Read.raise_readMemByAddr, Read.raise_readMemByAddr]
  exact udsHandleEvent_rel R fun _ _ found consume => h.readMemByAddr found consume

end Memory

/-- The loop over the elements, where the events they raise are related. -/
theorem readElements (h : Respects R A copy) {elements : List DefinedData}
    (hbuffer : ∀ id position size, .id id position size ∈ elements → RespectsBuffer R)
    (hid : ∀ id position size, .id id position size ∈ elements →
      R.Rel (r .readDataByIdent (.readDataByIdent id .udsCopy))
        (r' .readDataByIdent (.readDataByIdent id .udsCopy)))
    (hmemory : ∀ memAddr memSize, .memory memAddr memSize ∈ elements →
      R.Rel (r .readMemByAddr (.readMemByAddr memAddr memSize copy))
        (r' .readMemByAddr (.readMemByAddr memAddr memSize copy))) :
    R.Rel (readElements A r copy elements) (Read.readElements A r' copy elements) := by
  induction elements with
  | nil => exact R.rel_pure _
  | cons d rest ih =>
    have hrest := ih
      (fun id position size h => hbuffer id position size (List.mem_cons_of_mem _ h))
      (fun id position size h => hid id position size (List.mem_cons_of_mem _ h))
      fun memAddr memSize h => hmemory memAddr memSize (List.mem_cons_of_mem _ h)
    cases d with
    | id id position size =>
      have hb := hbuffer id position size List.mem_cons_self
      refine R.rel_bind hb.clearTempBuffer fun _ => ?_
      refine R.rel_bind (hid id position size List.mem_cons_self) fun ret => ?_
      refine R.rel_ite (R.rel_pure _) (R.rel_bind hb.getTempBuffer fun tempBuffer => ?_)
      refine R.rel_ite (R.rel_pure _) (R.rel_bind (h.runCopy _) fun status => ?_)
      exact R.rel_ite (R.rel_pure _) hrest
    | memory memAddr memSize =>
      refine R.rel_bind (hmemory memAddr memSize List.mem_cons_self) fun ret => ?_
      exact R.rel_ite (R.rel_pure _) hrest

end Respects

/-! ## Fuel -/

theorem respectsBuffer_total : RespectsBuffer (ProgRel.total (ReadState α)) :=
  ⟨fun _ => ⟨_, rfl⟩, fun _ => ⟨_, rfl⟩⟩

theorem respects_total (A : Application F α) (copy : CopyFn) :
    Respects (ProgRel.total (ReadState α)) A copy := by
  refine ⟨fun st => ⟨_, rfl⟩, fun _ st => ⟨_, rfl⟩, fun src st => ?_⟩
  cases copy with
  | request => exact ⟨_, rfl⟩
  | udsCopy =>
    simp only [runCopy]
    split
    · exact ⟨_, rfl⟩
    · exact ⟨_, rfl⟩

theorem respects_below (A : Application F α) (copy : CopyFn) :
    Respects (ProgRel.below (ReadState α)) A copy :=
  ⟨fun _ _ h => h, fun _ _ _ h => h, fun _ _ _ h => h⟩

theorem respectsBuffer_below : RespectsBuffer (ProgRel.below (ReadState α)) :=
  ⟨fun _ _ h => h, fun _ _ h => h⟩

theorem raise_readMemByAddr_below (fuel memAddr memSize : ℕ) (copy : CopyFn) :
    (ProgRel.below (ReadState α)).Rel
      (raise env fuel .readMemByAddr (.readMemByAddr memAddr memSize copy))
      (raise env (fuel + 1) .readMemByAddr (.readMemByAddr memAddr memSize copy)) := by
  cases fuel with
  | zero => intro st res h; cases h
  | succ fuel => exact (respects_below env.app copy).raise_readMemByAddr fuel (fuel + 1)

/-- One more unit of fuel changes no result. -/
theorem raise_readDataByIdent_below (fuel : ℕ) (x : UInt16) (copy : CopyFn) :
    (ProgRel.below (ReadState α)).Rel (raise env fuel .readDataByIdent (.readDataByIdent x copy))
      (raise env (fuel + 1) .readDataByIdent (.readDataByIdent x copy)) := by
  induction fuel generalizing x copy with
  | zero => intro st res h; cases h
  | succ fuel ih =>
    rw [raise_readDataByIdent, raise_readDataByIdent]
    refine udsHandleEvent_rel _ fun reg _ found consume =>
      (respects_below env.app copy).readDataByIdent (fun _ _ => ?_) found consume
    exact (respects_below env.app copy).readElements (fun _ _ _ _ => respectsBuffer_below)
      (fun id _ _ _ => ih id .udsCopy)
      fun memAddr memSize _ => raise_readMemByAddr_below fuel memAddr memSize copy

/-- **More fuel than enough** changes no result. -/
theorem raise_readDataByIdent_of_le {n k : ℕ} (hle : n ≤ k) {x : UInt16} {copy : CopyFn}
    {st : ReadState α} {res : UDSErr × ReadState α}
    (h : raise env n .readDataByIdent (.readDataByIdent x copy) st = some res) :
    raise env k .readDataByIdent (.readDataByIdent x copy) st = some res := by
  induction k, hle using Nat.le_induction with
  | base => exact h
  | succ k _ ih => exact raise_readDataByIdent_below k x copy st res ih

end Read

end Uds

end Ardep
