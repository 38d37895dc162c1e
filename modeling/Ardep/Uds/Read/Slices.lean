import Ardep.Uds.Dynamic.Definition
import Ardep.Uds.Read.Events
/-!
# Read — what a dynamic identifier reads as

The elements of an identifier that names static data identifiers and
memory, each read on its own: a source answers an event of its own into an
empty buffer of 256 bytes, a memory range is its contents where the range
is admitted (`elementRead`). A read of the identifier goes through its
elements in their order: it is answered positively where every element is
there and the request takes its bytes, and then they are what was sent; the
first element that refuses decides the answer otherwise
(`readDataByIdent_slices`).

The static registrations are served first, so all this is about
identifiers that have no static registration.
-/

open Ardep.Uds.Dynamic

namespace Ardep

namespace Uds

namespace Read

variable {F α : Type} {env : Env F α} {I : Instance F} {s : State F}

/-! ## Which registration serves -/

/-- No registration but one of 0x2C serves the data identifier. -/
def ServedByDefinition (I : Instance F) (s : State F) (x : UInt16) : Prop :=
  (∀ reg ∈ I.statics, reg.dataId? ≠ some x) ∧
    ∀ r ∈ s.dynamicRegistrations, r.reg.dataId? = some x → r.isDefined = true

/-- **Reading a defined identifier** is the loop over its definition. -/
theorem raise_definition (h : Inv I s) {A : Application F α} {x : UInt16}
    (hserved : ServedByDefinition I s x) {elements : List DefinedData}
    (hdef : definition s x = some elements) (fuel : ℕ) (copy : CopyFn) :
    raise (Env.ofState I A s) (fuel + 1) .readDataByIdent (.readDataByIdent x copy) =
      readElements A (raise (Env.ofState I A s) fuel) copy elements := by
  obtain ⟨r, hr, hd, hx, rfl⟩ := h.definition_eq_some.mp hdef
  obtain ⟨pre, post, hsplit⟩ := List.append_of_mem hr
  obtain ⟨x', p, hreg⟩ := h.shape r hr hd
  have hx' : some x' = some x := by rw [← hx, hreg]; rfl
  obtain rfl := Option.some.inj hx'
  have hptr : dataPtr r.reg = p := by rw [hreg]; rfl
  rw [hptr]
  have hdynamics : (Env.ofState I A s).dynamics =
      pre.map (·.reg) ++ r.reg :: post.map (·.reg) := by simp [Env.ofState, hsplit]
  refine raise_dynamicIdentifier hdynamics ?_ (by rw [hreg]; rfl) hserved.1 fuel copy
  · intro reg hreg hqx
    obtain ⟨q, hq, rfl⟩ := List.mem_map.mp hreg
    obtain ⟨hmem, hne, -⟩ := h.ne_of_mem_split hsplit (List.mem_append_left _ hq)
    exact hne (h.eq_of_dataId hmem hr (hserved.2 q hmem hqx) hd (hqx.trans hx.symm))

theorem respects_eq (A : Application F α) (copy : CopyFn) :
    Respects (ProgRel.eq (ReadM α)) A copy :=
  ⟨rfl, fun _ => rfl, fun _ => rfl⟩

/-- **Reading an identifier nobody defined** is what it was before any
was. -/
theorem raise_static (env : Env F α) (hstatics : ∀ reg ∈ env.statics, IsApplication reg.data)
    {x : UInt16} (hdynamics : ∀ reg ∈ env.dynamics, reg.dataId? ≠ some x) (fuel : ℕ)
    (copy : CopyFn) :
    raise env (fuel + 1) .readDataByIdent (.readDataByIdent x copy) =
      raise { env with dynamics := [] } 1 .readDataByIdent (.readDataByIdent x copy) := by
  have hsame : ∀ reg ∈ env.statics, ∀ found,
      udsCheckAndActOnEvent (behaviourWith env (raise env fuel))
        ⟨env.inst, reg, .readDataByIdent, .readDataByIdent x copy⟩ readDataByIdentHandler found
          true =
      udsCheckAndActOnEvent (behaviourWith env (raise { env with dynamics := [] } 0))
        ⟨env.inst, reg, .readDataByIdent, .readDataByIdent x copy⟩ readDataByIdentHandler found
          true := by
    intro reg hreg found
    exact (respects_eq env.app copy).readDataByIdent
      (fun _ haction => absurd haction (readAction_of_isApplication (hstatics reg hreg))) found true
  have hwalk := handleRegistrations_rel (ProgRel.eq (ReadM α)) hsame false
  rw [raise_readDataByIdent, raise_readDataByIdent, udsHandleEvent, udsHandleEvent]
  refine (congrArg (· >>= _) hwalk).trans (congrArg _ (funext fun walked => ?_))
  cases walked with
  | error ret => rfl
  | ok found =>
    simp only [handleRegistrations_of_skips fun reg hreg => skips_of_dataId (hdynamics reg hreg),
      handleRegistrations]

/-! ## Memory -/

/-- The memory handlers are the library's, and there is one. -/
structure DefaultMemory (statics : List (Reg F)) : Prop where
  exists_memory : ∃ reg ∈ statics, reg.type = .memory
  default : ∀ reg ∈ statics, reg.type = .memory → ∃ write, reg.data = .memory
    ⟨some .udsCheckDefaultMemoryByAddrRead, some .udsActionDefaultMemoryByAddrRead⟩ write

/-- The range is one the default check admits. -/
def RangeValid (A : Application F α) (memAddr memSize : ℕ) : Prop :=
  memAddr ≠ 0 ∧ memSize ≠ 0 ∧ isMemoryAddressValid A.memoryMap memAddr memSize true = true

instance (A : Application F α) (memAddr memSize : ℕ) : Decidable (RangeValid A memAddr memSize) :=
  inferInstanceAs (Decidable (_ ∧ _ ∧ _))

theorem udsCheckDefaultMemoryByAddrRead_eq (A : Application F α) (memAddr memSize : ℕ) :
    udsCheckDefaultMemoryByAddrRead A memAddr memSize false =
      if RangeValid A memAddr memSize then (.ok, true) else (.requestOutOfRange, false) := by
  unfold udsCheckDefaultMemoryByAddrRead RangeValid
  split_ifs <;> simp_all

/-- The first registration of memory. -/
theorem DefaultMemory.split {statics : List (Reg F)} (h : DefaultMemory statics) :
    ∃ pre reg post write, statics = pre ++ reg :: post ∧ (∀ q ∈ pre, q.type ≠ .memory) ∧
      reg.data = .memory ⟨some .udsCheckDefaultMemoryByAddrRead,
        some .udsActionDefaultMemoryByAddrRead⟩ write := by
  obtain ⟨q, hq, hqtype⟩ := h.exists_memory
  cases hfind : statics.find? (fun reg => reg.type = .memory) with
  | none => exact absurd hqtype (by simpa using List.find?_eq_none.mp hfind q hq)
  | some reg =>
    obtain ⟨htype, pre, post, hsplit, hpre⟩ := List.find?_eq_some_iff_append.mp hfind
    obtain ⟨write, hdata⟩ := h.default reg (by rw [hsplit]; simp) (by simpa using htype)
    exact ⟨pre, reg, post, write, hsplit, fun q hq => by simpa using hpre q hq, hdata⟩

/-- **Reading memory** through the default handlers: an admitted range is
copied, another is out of range. -/
theorem raise_memory (hmemory : DefaultMemory env.statics) (fuel memAddr memSize : ℕ)
    (copy : CopyFn) :
    raise env (fuel + 1) .readMemByAddr (.readMemByAddr memAddr memSize copy) =
      if RangeValid env.app memAddr memSize then do
        let app ← getApp
        let status ← runCopy env.app copy
          (readRange (env.app.memory app) memAddr (memSize % 2 ^ 16))
        pure (if status ≠ 0 then .requestOutOfRange else .positiveResponse)
      else pure .requestOutOfRange := by
  obtain ⟨pre, reg, post, write, hsplit, hpre, hdata⟩ := hmemory.split
  have htype : reg.type = .memory := by rw [Registration.type, hdata]; rfl
  have hcheck : readMemByAddrHandler.getCheck reg = some .udsCheckDefaultMemoryByAddrRead := by
    simp [readMemByAddrHandler, EventHandlerData.ofActor, hdata]
  have haction : readMemByAddrHandler.getAction reg = some .udsActionDefaultMemoryByAddrRead := by
    simp [readMemByAddrHandler, EventHandlerData.ofActor, hdata]
  have hskips : ∀ q ∈ pre, Skips (behaviourWith env (raise env fuel)) readMemByAddrHandler
      env.inst .readMemByAddr (.readMemByAddr memAddr memSize copy) q :=
    fun q hq => skips_of_not_memory (hpre q hq)
  have hchecks : (behaviourWith env (raise env fuel)).check .udsCheckDefaultMemoryByAddrRead
      ⟨env.inst, reg, .readMemByAddr, .readMemByAddr memAddr memSize copy⟩ false =
      pure (if RangeValid env.app memAddr memSize then (.ok, true)
        else (.requestOutOfRange, false)) := by
    rw [← udsCheckDefaultMemoryByAddrRead_eq]
    rfl
  rw [raise_readMemByAddr, hsplit]
  -- the first registration of memory answers, whether it refuses or consumes the event
  by_cases hvalid : RangeValid env.app memAddr memSize
  · have hact : udsCheckAndActOnEvent (behaviourWith env (raise env fuel))
        ⟨env.inst, reg, .readMemByAddr, .readMemByAddr memAddr memSize copy⟩ readMemByAddrHandler
          false true =
        (getApp >>= fun app =>
          runCopy env.app copy (readRange (env.app.memory app) memAddr (memSize % 2 ^ 16))) >>=
        fun status => pure (if status ≠ 0 then (.requestOutOfRange, false, true)
          else (.ok, true, true)) := by
      simp only [udsCheckAndActOnEvent, htype, hcheck, hchecks, if_pos hvalid, pure_bind, haction]
      simp only [behaviourWith, udsActionDefaultMemoryByAddrRead, bind_assoc, pure_bind, ne_eq,
        not_true_eq_false, if_false]
      show (getApp >>= fun app => _) = _
      refine congrArg _ (funext fun app => congrArg _ (funext fun status => ?_))
      by_cases hstatus : status = 0
      · simp [hstatus]
      · simp [hstatus]
    rw [if_pos hvalid, udsHandleEvent_of_static_stops hskips hact fun status => by split <;> simp,
      bind_assoc]
    refine congrArg _ (funext fun app => congrArg _ (funext fun status => ?_))
    split <;> rfl
  · have hact : udsCheckAndActOnEvent (behaviourWith env (raise env fuel))
        ⟨env.inst, reg, .readMemByAddr, .readMemByAddr memAddr memSize copy⟩ readMemByAddrHandler
          false true = pure () >>= fun _ => pure (.requestOutOfRange, false, false) := by
      simp only [udsCheckAndActOnEvent, htype, hcheck, hchecks, if_neg hvalid, pure_bind]
      rfl
    rw [if_neg hvalid, udsHandleEvent_of_static_stops hskips hact fun _ => by simp, pure_bind]

/-! ## What the request has taken

A read into the buffer neither looks at what the request has taken nor
changes it. -/

/-- The programs differ in what the request has taken, and leave it. -/
def frameSent (α : Type) : ProgRel (ReadM α) (ReadM α) where
  Rel := fun x y => ∀ st sent,
    y { st with sent := sent } = (x st).map fun p => (p.1, { p.2 with sent := sent })
  rel_pure := fun _ _ _ => rfl
  rel_bind := by
    intro β γ x y f g hx hf st sent
    show (y { st with sent := sent }).bind (fun p => g p.1 p.2) =
      ((x st).bind fun p => f p.1 p.2).map _
    rw [hx]
    cases x st with
    | none => rfl
    | some p => exact hf p.1 p.2 sent

theorem respectsBuffer_frameSent : RespectsBuffer (frameSent α) := ⟨fun _ _ => rfl, fun _ _ => rfl⟩

theorem respects_frameSent (A : Application F α) :
    Respects (frameSent α) A .udsCopy := by
  refine ⟨fun _ _ => rfl, fun _ _ _ => rfl, fun src st sent => ?_⟩
  simp only [runCopy]
  split <;> rfl

theorem raise_readMemByAddr_frameSent (fuel memAddr memSize : ℕ) :
    (frameSent α).Rel (raise env fuel .readMemByAddr (.readMemByAddr memAddr memSize .udsCopy))
      (raise env fuel .readMemByAddr (.readMemByAddr memAddr memSize .udsCopy)) := by
  cases fuel with
  | zero => exact fun _ _ => rfl
  | succ fuel => exact (respects_frameSent env.app).raise_readMemByAddr fuel fuel

theorem raise_readDataByIdent_frameSent (env : Env F α) (fuel : ℕ) (x : UInt16) :
    (frameSent α).Rel (raise env fuel .readDataByIdent (.readDataByIdent x .udsCopy))
      (raise env fuel .readDataByIdent (.readDataByIdent x .udsCopy)) := by
  induction fuel generalizing x with
  | zero => exact fun _ _ => rfl
  | succ fuel ih =>
    rw [raise_readDataByIdent]
    refine udsHandleEvent_rel _ fun reg _ found consume =>
      (respects_frameSent env.app).readDataByIdent (fun _ _ => ?_) found consume
    exact (respects_frameSent env.app).readElements
      (fun _ _ _ _ => respectsBuffer_frameSent)
      (fun id _ _ _ => ih id)
      fun memAddr memSize _ => raise_readMemByAddr_frameSent fuel memAddr memSize

/-! ## The elements, each on its own -/

/-- **A read raised from another identifier**: the answer, the bytes it
leaves in an empty buffer and the application's state after it. -/
def nested (env : Env F α) (fuel : ℕ) (x : UInt16) (app : α) :
    Option (UDSErr × List UInt8 × α) :=
  (raise env fuel .readDataByIdent (.readDataByIdent x .udsCopy) ⟨app, [], []⟩).map
    fun p => (p.1, p.2.tempBuffer, p.2.app)

/-- **The own read of a source**: such a read where no identifier is
defined. -/
def ownRead (env : Env F α) (x : UInt16) (app : α) : Option (UDSErr × List UInt8 × α) :=
  nested { env with dynamics := [] } 1 x app

/-- **The own read of an element**: its bytes, or the code it is refused
with. -/
def elementRead (env : Env F α) (app : α) :
    DefinedData → Option (Except UDSErr (List UInt8) × α)
  | .id id position size => do
    let (ret, data, app) ← ownRead env id app
    if ret ≠ .positiveResponse then some (.error ret, app)
    else if data.length < position.toNat + size.toNat then some (.error .generalReject, app)
    else some (.ok ((data.drop position.toNat).take size.toNat), app)
  | .memory memAddr memSize =>
    if RangeValid env.app memAddr memSize then
      some (.ok (readRange (env.app.memory app) memAddr memSize), app)
    else some (.error .requestOutOfRange, app)

/-- **The elements in their order**, from a state of the application and
what the request has taken: each has its bytes, and the request takes
them. -/
inductive Taken (env : Env F α) :
    List DefinedData → α → List UInt8 → List (List UInt8) → α → Prop
  | nil {app : α} {sent : List UInt8} : Taken env [] app sent [] app
  | cons {d : DefinedData} {rest : List DefinedData} {app app' app'' : α}
    {sent bytes : List UInt8} {slices : List (List UInt8)} :
    elementRead env app d = some (.ok bytes, app') → env.app.copy sent bytes = 0 →
    Taken env rest app' (sent ++ bytes) slices app'' →
    Taken env (d :: rest) app sent (bytes :: slices) app''

/-- The element refuses: its own read is refused, or the request does not
take its bytes. -/
inductive Refuses (env : Env F α) : DefinedData → α → List UInt8 → UDSErr → Prop
  | read {d : DefinedData} {app app' : α} {sent : List UInt8} {e : UDSErr} :
    elementRead env app d = some (.error e, app') → Refuses env d app sent e
  | copyId {id : UInt16} {position size : UInt8} {app app' : α} {sent bytes : List UInt8} :
    elementRead env app (.id id position size) = some (.ok bytes, app') →
    env.app.copy sent bytes ≠ 0 →
    Refuses env (.id id position size) app sent (.ofByte (env.app.copy sent bytes))
  | copyMemory {memAddr memSize : ℕ} {app app' : α} {sent bytes : List UInt8} :
    elementRead env app (.memory memAddr memSize) = some (.ok bytes, app') →
    env.app.copy sent bytes ≠ 0 →
    Refuses env (.memory memAddr memSize) app sent .requestOutOfRange

/-- **The answer the elements call for**: positive only where every element
is there and the request takes its bytes, which then are what was sent;
and the code of the first element that refuses. -/
def AnsweredBy (env : Env F α) (elements : List DefinedData) (st : ReadState α)
    (answer : Option (UDSErr × ReadState α)) : Prop :=
  ∃ ret st', answer = some (ret, st') ∧
    (ret = .positiveResponse → ∃ slices, Taken env elements st.app st.sent slices st'.app ∧
      st'.sent = st.sent ++ slices.flatten) ∧
    ∀ pre d post slices app e, elements = pre ++ d :: post →
      Taken env pre st.app st.sent slices app → Refuses env d app (st.sent ++ slices.flatten) e →
      ret = e

section Elements

variable {app app' : α} {bytes sent : List UInt8} {e e' : UDSErr} {d : DefinedData}

theorem elementRead_id_ok {id : UInt16} {position size : UInt8}
    (h : elementRead env app (.id id position size) = some (.ok bytes, app')) :
    ∃ data, ownRead env id app = some (.positiveResponse, data, app') ∧
      ¬ data.length < position.toNat + size.toNat ∧
      bytes = (data.drop position.toNat).take size.toNat := by
  obtain ⟨⟨ret, data, app₁⟩, hown, hres⟩ := Option.bind_eq_some_iff.mp h
  simp only at hres
  split at hres
  · cases hres
  · next hret =>
    split at hres
    · cases hres
    · next hlen =>
      simp only [Option.some.injEq, Prod.mk.injEq, Except.ok.injEq] at hres
      obtain ⟨rfl, rfl⟩ := hres
      rw [not_not.mp hret] at hown
      exact ⟨data, hown, hlen, rfl⟩

theorem elementRead_id_error {id : UInt16} {position size : UInt8}
    (h : elementRead env app (.id id position size) = some (.error e, app')) :
    ∃ ret data, ownRead env id app = some (ret, data, app') ∧ (ret ≠ .positiveResponse ∧ e = ret ∨
      ret = .positiveResponse ∧ data.length < position.toNat + size.toNat ∧
        e = .generalReject) := by
  obtain ⟨⟨ret, data, app₁⟩, hown, hres⟩ := Option.bind_eq_some_iff.mp h
  simp only at hres
  split at hres
  · next hret =>
    simp only [Option.some.injEq, Prod.mk.injEq, Except.error.injEq] at hres
    obtain ⟨rfl, rfl⟩ := hres
    exact ⟨ret, data, hown, .inl ⟨hret, rfl⟩⟩
  · next hret =>
    split at hres
    · next hlen =>
      simp only [Option.some.injEq, Prod.mk.injEq, Except.error.injEq] at hres
      obtain ⟨rfl, rfl⟩ := hres
      exact ⟨ret, data, hown, .inr ⟨not_not.mp hret, hlen, rfl⟩⟩
    · cases hres

theorem elementRead_memory_ok {memAddr memSize : ℕ}
    (h : elementRead env app (.memory memAddr memSize) = some (.ok bytes, app')) :
    RangeValid env.app memAddr memSize ∧
      bytes = readRange (env.app.memory app) memAddr memSize ∧ app' = app := by
  simp only [elementRead] at h
  split at h
  · next hvalid =>
    simp only [Option.some.injEq, Prod.mk.injEq, Except.ok.injEq] at h
    exact ⟨hvalid, h.1.symm, h.2.symm⟩
  · cases h

theorem elementRead_memory_error {memAddr memSize : ℕ}
    (h : elementRead env app (.memory memAddr memSize) = some (.error e, app')) :
    ¬ RangeValid env.app memAddr memSize ∧ e = .requestOutOfRange := by
  simp only [elementRead] at h
  split at h
  · cases h
  · next hvalid =>
    simp only [Option.some.injEq, Prod.mk.injEq, Except.error.injEq] at h
    exact ⟨hvalid, h.1.symm⟩

/-- A refusal is not a positive answer. -/
theorem Refuses.ne_ok (h : Refuses env d app sent e) : e ≠ .ok := by
  cases h with
  | read hread =>
    cases d with
    | id id position size =>
      obtain ⟨ret, data, -, ⟨hret, rfl⟩ | ⟨-, -, rfl⟩⟩ := elementRead_id_error hread
      · exact hret
      · decide
    | memory memAddr memSize =>
      rw [(elementRead_memory_error hread).2]
      decide
  | copyId _ hcopy => exact fun hzero => hcopy (UDSErr.ofByte_eq_zero.mp hzero)
  | copyMemory _ _ => decide

/-- An element that is taken does not refuse. -/
theorem Refuses.not_taken (h : Refuses env d app sent e)
    (hread : elementRead env app d = some (.ok bytes, app')) : env.app.copy sent bytes ≠ 0 := by
  cases h with
  | read herror => rw [herror] at hread; cases hread
  | copyId hok hcopy =>
    rw [hok] at hread
    cases hread
    exact hcopy
  | copyMemory hok hcopy =>
    rw [hok] at hread
    cases hread
    exact hcopy

/-- An element refuses with one code. -/
theorem Refuses.unique (h : Refuses env d app sent e) (h' : Refuses env d app sent e') :
    e = e' := by
  cases h with
  | read herror =>
    cases h' with
    | read herror' => rw [herror] at herror'; cases herror'; rfl
    | copyId hok _ => rw [herror] at hok; cases hok
    | copyMemory hok _ => rw [herror] at hok; cases hok
  | copyId hok hcopy =>
    cases h' with
    | read herror => rw [herror] at hok; cases hok
    | copyId hok' _ => rw [hok] at hok'; cases hok'; rfl
  | copyMemory hok hcopy =>
    cases h' with
    | read herror => rw [herror] at hok; cases hok
    | copyMemory hok' _ => rfl

/-- The own read of a source ends. -/
theorem ownRead_isSome (hstatics : ∀ reg ∈ env.statics, IsApplication reg.data) (x : UInt16)
    (app : α) : ∃ res, ownRead env x app = some res := by
  have htotal : ProgRel.Total (raise { env with dynamics := [] } 1 .readDataByIdent
      (.readDataByIdent x .udsCopy)) := by
    rw [raise_readDataByIdent]
    refine ProgRel.total_of_rel (udsHandleEvent_rel _ fun reg hreg found consume =>
      (respects_total env.app .udsCopy).readDataByIdent (fun _ haction =>
        absurd haction (readAction_of_isApplication (hstatics reg ?_))) found consume)
    simpa using hreg
  obtain ⟨res, hres⟩ := htotal ⟨app, [], []⟩
  exact ⟨_, Option.map_eq_some_iff.mpr ⟨res, hres, rfl⟩⟩

/-- **An element is taken or refuses.** -/
theorem taken_or_refuses (hstatics : ∀ reg ∈ env.statics, IsApplication reg.data)
    (d : DefinedData) (app : α) (sent : List UInt8) :
    (∃ bytes app', elementRead env app d = some (.ok bytes, app') ∧
      env.app.copy sent bytes = 0) ∨ ∃ e, Refuses env d app sent e := by
  have htotal : ∃ res app', elementRead env app d = some (res, app') := by
    cases d with
    | id id position size =>
      obtain ⟨⟨ret, data, app'⟩, hown⟩ := ownRead_isSome hstatics id app
      simp only [elementRead, hown, bind, Option.bind]
      split
      · exact ⟨_, _, rfl⟩
      · split
        · exact ⟨_, _, rfl⟩
        · exact ⟨_, _, rfl⟩
    | memory memAddr memSize =>
      simp only [elementRead]
      split
      · exact ⟨_, _, rfl⟩
      · exact ⟨_, _, rfl⟩
  obtain ⟨res, app', hread⟩ := htotal
  cases res with
  | error e => exact .inr ⟨e, .read hread⟩
  | ok bytes =>
    by_cases hcopy : env.app.copy sent bytes = 0
    · exact .inl ⟨bytes, app', hread, hcopy⟩
    · cases d with
      | id id position size => exact .inr ⟨_, .copyId hread hcopy⟩
      | memory memAddr memSize => exact .inr ⟨_, .copyMemory hread hcopy⟩

end Elements

/-! ## The loop over the elements -/

/-- An element from a source is read as the source is on its own; a memory
range is short enough to be counted. -/
def ReadAlone (env : Env F α) (fuel : ℕ) : DefinedData → Prop
  | .id id _ _ => raise env fuel .readDataByIdent (.readDataByIdent id .udsCopy) =
      raise { env with dynamics := [] } 1 .readDataByIdent (.readDataByIdent id .udsCopy)
  | .memory _ memSize => memSize < 2 ^ 16

section Loop

variable {fuel : ℕ} {copy : CopyFn} {rest : List DefinedData} {st : ReadState α}

/-- The loop at an element from a data identifier. -/
theorem readElements_id {id : UInt16} {position size : UInt8} {ret : UDSErr} {data : List UInt8}
    {app : α} (hnested : nested env fuel id st.app = some (ret, data, app)) :
    readElements env.app (raise env fuel) copy (.id id position size :: rest) st =
      (if ret ≠ .positiveResponse then pure ret
      else if data.length < position.toNat + size.toNat then pure .generalReject
      else do
        let status ← runCopy env.app copy ((data.drop position.toNat).take size.toNat)
        if status ≠ 0 then pure (.ofByte status)
        else readElements env.app (raise env fuel) copy rest : ReadM α UDSErr)
        ⟨app, data, st.sent⟩ := by
  obtain ⟨⟨ret', st₁⟩, hrun, heq⟩ := Option.map_eq_some_iff.mp hnested
  simp only [Prod.mk.injEq] at heq
  obtain ⟨rfl, rfl, rfl⟩ := heq
  have hframe := raise_readDataByIdent_frameSent env fuel id ⟨st.app, [], []⟩ st.sent
  rw [hrun] at hframe
  show (raise env fuel .readDataByIdent (.readDataByIdent id .udsCopy)
    ⟨st.app, [], st.sent⟩).bind _ = _
  rw [hframe]
  show (if ret' ≠ .positiveResponse then pure ret' else _ : ReadM α UDSErr) _ = _
  split
  · rfl
  · rfl

theorem nested_of_readAlone {id : UInt16} {position size : UInt8}
    (h : ReadAlone env fuel (.id id position size)) (app : α) :
    nested env fuel id app = ownRead env id app :=
  congrArg (fun x : ReadM α UDSErr => (x ⟨app, [], []⟩).map _) h

/-- The loop at a memory range. -/
theorem readElements_memory {memAddr memSize : ℕ} (hmemory : DefaultMemory env.statics)
    (hsize : memSize < 2 ^ 16) :
    readElements env.app (raise env (fuel + 1)) copy (.memory memAddr memSize :: rest) st =
      (if RangeValid env.app memAddr memSize then do
        let status ← runCopy env.app copy (readRange (env.app.memory st.app) memAddr memSize)
        if status ≠ 0 then pure .requestOutOfRange
        else readElements env.app (raise env (fuel + 1)) copy rest
      else pure .requestOutOfRange : ReadM α UDSErr) st := by
  rw [readElements, raise_memory hmemory, Nat.mod_eq_of_lt hsize]
  split
  · rw [bind_assoc, bind_apply, getApp, Option.bind_some, bind_assoc, bind_apply, bind_apply]
    refine congrArg _ (funext fun p => ?_)
    rw [pure_bind]
    split
    · exact congrFun (if_pos (by decide)) p.2
    · exact congrFun (if_neg (by decide)) p.2
  · rfl

/-- **An element the request takes.** -/
theorem readElements_taken (rest : List DefinedData) {d : DefinedData} {bytes : List UInt8}
    {app : α} (hmemory : DefaultMemory env.statics) (halone : ReadAlone env (fuel + 1) d)
    (hread : elementRead env st.app d = some (.ok bytes, app))
    (hcopy : env.app.copy st.sent bytes = 0) :
    ∃ buffer, readElements env.app (raise env (fuel + 1)) .request (d :: rest) st =
      readElements env.app (raise env (fuel + 1)) .request rest
        ⟨app, buffer, st.sent ++ bytes⟩ := by
  cases d with
  | id id position size =>
    obtain ⟨data, hown, hlen, rfl⟩ := elementRead_id_ok hread
    refine ⟨data, ?_⟩
    rw [readElements_id ((nested_of_readAlone halone _).trans hown), if_neg (by decide),
      if_neg hlen, bind_apply,
      runCopy_request ⟨app, data, st.sent⟩ hcopy]
    rfl
  | memory memAddr memSize =>
    obtain ⟨hvalid, rfl, rfl⟩ := elementRead_memory_ok hread
    refine ⟨st.tempBuffer, ?_⟩
    rw [readElements_memory hmemory halone, if_pos hvalid, bind_apply, runCopy_request st hcopy]
    rfl

/-- **An element that refuses** decides the answer. -/
theorem readElements_refused (rest : List DefinedData) {d : DefinedData} {e : UDSErr}
    (hmemory : DefaultMemory env.statics) (halone : ReadAlone env (fuel + 1) d)
    (hrefuses : Refuses env d st.app st.sent e) :
    ∃ st', readElements env.app (raise env (fuel + 1)) .request (d :: rest) st =
      some (e, st') := by
  cases hrefuses with
  | @read _ _ app _ _ hread =>
    cases d with
    | id id position size =>
      obtain ⟨ret, data, hown, ⟨hret, rfl⟩ | ⟨rfl, hlen, rfl⟩⟩ := elementRead_id_error hread
      · refine ⟨⟨app, data, st.sent⟩, ?_⟩
        rw [readElements_id ((nested_of_readAlone halone _).trans hown), if_pos hret]
        rfl
      · refine ⟨⟨app, data, st.sent⟩, ?_⟩
        rw [readElements_id ((nested_of_readAlone halone _).trans hown), if_neg (by decide),
          if_pos hlen]
        rfl
    | memory memAddr memSize =>
      obtain ⟨hvalid, rfl⟩ := elementRead_memory_error hread
      refine ⟨st, ?_⟩
      rw [readElements_memory hmemory halone, if_neg hvalid]
      rfl
  | @copyId id position size _ app _ _ hread hcopy =>
    obtain ⟨data, hown, hlen, rfl⟩ := elementRead_id_ok hread
    refine ⟨⟨app, data, st.sent⟩, ?_⟩
    rw [readElements_id ((nested_of_readAlone halone _).trans hown), if_neg (by decide),
      if_neg hlen, bind_apply,
      runCopy_request_refused ⟨app, data, st.sent⟩ hcopy]
    exact congrFun (if_pos hcopy) _
  | copyMemory hread hcopy =>
    obtain ⟨hvalid, rfl, rfl⟩ := elementRead_memory_ok hread
    refine ⟨st, ?_⟩
    rw [readElements_memory hmemory halone, if_pos hvalid, bind_apply,
      runCopy_request_refused st hcopy]
    exact congrFun (if_pos hcopy) _

/-- **The loop answers as the elements call for.** -/
theorem answeredBy_readElements (hstatics : ∀ reg ∈ env.statics, IsApplication reg.data)
    (hmemory : DefaultMemory env.statics) {elements : List DefinedData}
    (halone : ∀ d ∈ elements, ReadAlone env (fuel + 1) d) (st : ReadState α) :
    AnsweredBy env elements st
      (readElements env.app (raise env (fuel + 1)) .request elements st) := by
  induction elements generalizing st with
  | nil =>
    refine ⟨.ok, st, rfl, fun _ => ⟨[], .nil, by simp⟩, fun pre d post slices app e hsplit => ?_⟩
    simp at hsplit
  | cons d rest ih =>
    have hd := halone d List.mem_cons_self
    rcases taken_or_refuses hstatics d st.app st.sent with ⟨bytes, app, hread, hcopy⟩ | ⟨e, href⟩
    · obtain ⟨buffer, hrun⟩ := readElements_taken rest hmemory hd hread hcopy
      obtain ⟨ret, st', hrest, hpos, hfirst⟩ :=
        ih (fun q hq => halone q (List.mem_cons_of_mem _ hq)) ⟨app, buffer, st.sent ++ bytes⟩
      refine ⟨ret, st', hrun.trans hrest, fun hret => ?_, ?_⟩
      · obtain ⟨slices, htaken, hsent⟩ := hpos hret
        exact ⟨bytes :: slices, .cons hread hcopy htaken, by simp [hsent]⟩
      · intro pre q post slices app' e hsplit htaken href
        cases htaken with
        | nil =>
          -- the first element would be taken and refuse
          obtain ⟨rfl, -⟩ := List.cons.inj hsplit
          rw [List.flatten_nil, List.append_nil] at href
          exact absurd hcopy (href.not_taken hread)
        | cons hread' _ hrest' =>
          obtain ⟨rfl, htail⟩ := List.cons.inj hsplit
          rw [hread] at hread'
          cases hread'
          rw [List.flatten_cons, ← List.append_assoc] at href
          exact hfirst _ q post _ app' e htail hrest' href
    · obtain ⟨st', hrun⟩ := readElements_refused rest hmemory hd href
      refine ⟨e, st', hrun, fun hret => absurd hret href.ne_ok, ?_⟩
      intro pre q post slices app' e' hsplit htaken href'
      cases htaken with
      | nil =>
        obtain ⟨rfl, -⟩ := List.cons.inj hsplit
        rw [List.flatten_nil, List.append_nil] at href'
        exact href.unique href'
      | cons hread' hcopy' _ =>
        obtain ⟨rfl, -⟩ := List.cons.inj hsplit
        exact absurd hcopy' (href.not_taken hread')

end Loop

/-! ## Runs -/

/-- The element names a static data identifier, or a memory range of less
than 65536 bytes. -/
def NamesStatic (I : Instance F) : DefinedData → Prop
  | .id id _ _ => ∃ reg ∈ I.statics, reg.dataId? = some id
  | .memory _ memSize => memSize < 2 ^ 16

/-- No data identifier is both registered statically and defined. -/
def Apart (I : Instance F) (log : List (UInt16 × DefinedData)) : Prop :=
  ∀ entry ∈ log, ∀ reg ∈ I.statics, reg.dataId? ≠ some entry.1

/-- **What a defined identifier reads as**, after any run of define
requests, whatever the application does: the answer its elements call
for. -/
theorem readDataByIdent_slices {log : List (UInt16 × DefinedData)} (hrun : DefineRun I log s)
    (hapart : Apart I log) (hmemory : DefaultMemory I.statics) {x : UInt16}
    (hx : elementsFor log x ≠ []) (hstatic : ∀ d ∈ elementsFor log x, NamesStatic I d)
    (A : Application F α) (fuel : ℕ) (st : ReadState α) :
    AnsweredBy (Env.ofState I A s) (elementsFor log x) st
      (readDataByIdent (Env.ofState I A s) (fuel + 2) x st) := by
  have hdef : definition s x = some (elementsFor log x) := by rw [hrun.definition_eq, if_neg hx]
  have hserved : ServedByDefinition I s x := by
    obtain ⟨d, hd⟩ := List.exists_mem_of_ne_nil _ hx
    exact ⟨hapart _ (mem_of_mem_elementsFor hd), fun r hr _ => hrun.isDefined r hr⟩
  rw [readDataByIdent, raise_definition hrun.inv hserved hdef]
  refine answeredBy_readElements I.statics_application hmemory (fun d hd => ?_) st
  have hnames := hstatic d hd
  cases d with
  | memory memAddr memSize => exact hnames
  | id id position size =>
    -- a static source is not defined, so the event finds what it found before
    obtain ⟨reg, hreg, hid⟩ := hnames
    refine raise_static (Env.ofState I A s) I.statics_application (fun q hq hqid => ?_) fuel
      .udsCopy
    obtain ⟨r, hr, rfl⟩ := List.mem_map.mp hq
    obtain ⟨d, hlog⟩ := hrun.mem_log_of_dataId hr hqid
    exact hapart _ hlog reg hreg hid

/-- An instance with a 0x2C handler, two data identifiers and the default
memory handler. -/
def twoSources : Instance ℕ where
  ptr := 0
  statics := [
    { inst := some 0, data := .dynamicallyDefineDataIds ⟨some (.app 0), some (.app 1)⟩ },
    { inst := some 0
      data := .dataIdentifier 0 0xF100 ⟨some (.app 2), some (.app 3)⟩ .null .null },
    { inst := some 0
      data := .dataIdentifier 0 0xF101 ⟨some (.app 2), some (.app 4)⟩ .null .null },
    { inst := some 0
      data := .memory ⟨some .udsCheckDefaultMemoryByAddrRead,
        some .udsActionDefaultMemoryByAddrRead⟩ .null }]
  handler := .static 0
  statics_application := by simp [IsApplication, actorIsApplication]

/-- The first data identifier reads as four bytes in two parts, the second
is refused. -/
def twoHandlers : Application ℕ Unit where
  check := fun _ _ _ app _ => .done .ok true app
  action := fun action _ _ app consume =>
    if action = .app 3 then .copy [1, 2] fun _ => .copy [3, 4] fun _ => .done .ok consume app
    else .done .conditionsNotCorrect consume app
  memory := fun _ a => UInt8.ofNat a
  memoryMap := ⟨0xFFFFFFFF, true, none, none⟩
  copy := fun _ _ => 0

theorem defaultMemory_twoSources : DefaultMemory twoSources.statics := by
  refine ⟨⟨_, List.mem_of_getLast? rfl, rfl⟩, ?_⟩
  simp [twoSources, Registration.type, RegistrationData.type]

/-- A slice of the first data identifier and a memory range. -/
def mixedData : List (UInt16 × DefinedData) :=
  [(0xF200, .id 0xF100 1 2), (0xF200, .memory 0x20 3)]

theorem exists_defineRun_mixedData : ∃ s, DefineRun twoSources mixedData s := by
  have hrun := defineRun_setUp twoSources 0xF200 (.id 0xF100 1 2)
  have hsecond := define_existing_ok (c := allSucceed) (d := .memory 0x20 3) hrun.inv
    (x := 0xF200) (r := newRegistration twoSources 0xF200 setUp) (by decide +kernel) rfl
  exact ⟨_, DefineRun.accepted (c := allSucceed) (d := .memory 0x20 3) hrun hsecond⟩

theorem readDataByIdent_slices_mixed :
    ∃ s, DefineRun twoSources mixedData s ∧
      AnsweredBy (Env.ofState twoSources twoHandlers s) [.id 0xF100 1 2, .memory 0x20 3]
        ⟨(), [], []⟩
        (readDataByIdent (Env.ofState twoSources twoHandlers s) 2 0xF200 ⟨(), [], []⟩) := by
  obtain ⟨s, hrun⟩ := exists_defineRun_mixedData
  refine ⟨s, hrun, readDataByIdent_slices (x := 0xF200) hrun ?_ defaultMemory_twoSources
    (by decide) ?_ twoHandlers 0 ⟨(), [], []⟩⟩
  · simp [Apart, mixedData, twoSources, Registration.dataId?]
  · intro d hd
    have hcases : d = .id 0xF100 1 2 ∨ d = .memory 0x20 3 := by
      simpa [elementsFor, mixedData] using hd
    rcases hcases with rfl | rfl
    · exact ⟨_, List.mem_cons_of_mem _ List.mem_cons_self, rfl⟩
    · show 3 < 2 ^ 16
      decide

/-- An instance whose memory handler is the application's. -/
def ownMemory : Instance ℕ where
  ptr := 0
  statics := [
    { inst := some 0, data := .dynamicallyDefineDataIds ⟨some (.app 0), some (.app 1)⟩ },
    { inst := some 0, data := .memory ⟨some (.app 2), some (.app 5)⟩ .null }]
  handler := .static 0
  statics_application := by simp [IsApplication]

/-- The memory handler answers and sends nothing. -/
def silentMemory : Application ℕ Unit :=
  { twoHandlers with action := fun _ _ _ app consume => .done .ok consume app }

/-- Every defined identifier of static sources and memory ranges is
answered as its elements call for. -/
def AnswersAll (I : Instance ℕ) : Prop :=
  ∀ log s, DefineRun I log s → ∀ x, elementsFor log x ≠ [] →
    (∀ d ∈ elementsFor log x, NamesStatic I d) →
    ∀ (A : Application ℕ Unit) (fuel : ℕ) (st : ReadState Unit),
      AnsweredBy (Env.ofState I A s) (elementsFor log x) st
        (readDataByIdent (Env.ofState I A s) (fuel + 2) x st)

/-- A data identifier that is registered statically and defined: the
static registration answers, though the element's source is refused. -/
theorem not_answersAll_static : ¬ AnswersAll twoSources := by
  intro hall
  have hstatic : NamesStatic twoSources (.id 0xF101 0 1) :=
    ⟨_, List.mem_cons_of_mem _ (List.mem_cons_of_mem _ List.mem_cons_self), rfl⟩
  obtain ⟨ret, st', hanswer, hpositive, -⟩ := hall _ _
    (defineRun_setUp twoSources 0xF100 (.id 0xF101 0 1)) 0xF100 (by decide)
    (by simpa [elementsFor] using hstatic) twoHandlers 0 ⟨(), [], []⟩
  have hread : readDataByIdent (Env.ofState twoSources twoHandlers
      (defined twoSources 0xF100 (.id 0xF101 0 1) setUp)) 2 0xF100 ⟨(), [], []⟩ =
        some (.positiveResponse, ⟨(), [], [1, 2, 3, 4]⟩) := rfl
  rw [hread, Option.some.injEq, Prod.mk.injEq] at hanswer
  obtain ⟨slices, htaken, -⟩ := hpositive hanswer.1.symm
  cases htaken with
  | cons helement _ _ =>
    have hrefused : elementRead (Env.ofState twoSources twoHandlers
        (defined twoSources 0xF100 (.id 0xF101 0 1) setUp)) () (.id 0xF101 0 1) =
          some (.error .conditionsNotCorrect, ()) := rfl
    rw [hrefused] at helement
    cases helement

/-- A memory handler of the application's that does not send the
memory. -/
theorem not_answersAll_memory : ¬ AnswersAll ownMemory := by
  intro hall
  have hstatic : NamesStatic ownMemory (.memory 0x20 1) := by
    show 1 < 2 ^ 16
    decide
  obtain ⟨ret, st', hanswer, hpositive, -⟩ := hall _ _
    (defineRun_setUp ownMemory 0xF200 (.memory 0x20 1)) 0xF200 (by decide)
    (by simpa [elementsFor] using hstatic) silentMemory 0 ⟨(), [], []⟩
  have hread : readDataByIdent (Env.ofState ownMemory silentMemory
      (defined ownMemory 0xF200 (.memory 0x20 1) setUp)) 2 0xF200 ⟨(), [], []⟩ =
        some (.positiveResponse, ⟨(), [], []⟩) := rfl
  rw [hread, Option.some.injEq, Prod.mk.injEq] at hanswer
  obtain ⟨rfl, rfl⟩ := hanswer
  obtain ⟨slices, htaken, hsent⟩ := hpositive rfl
  cases htaken with
  | cons helement _ hrest =>
    cases hrest with
    | nil =>
      have hmemory : elementRead (Env.ofState ownMemory silentMemory
          (defined ownMemory 0xF200 (.memory 0x20 1) setUp)) () (.memory 0x20 1) =
            some (.ok [0x20], ()) := rfl
      rw [hmemory] at helement
      cases helement
      cases hsent

/-- Two instances on which a defined identifier is not answered as its
elements call for: one has a static registration for it, the other serves
memory itself. -/
theorem not_answersAll : ¬ AnswersAll twoSources ∧ ¬ AnswersAll ownMemory :=
  ⟨not_answersAll_static, not_answersAll_memory⟩

end Read

end Uds

end Ardep
