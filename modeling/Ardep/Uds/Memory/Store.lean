import Ardep.Common.CellStore
import Ardep.Common.Latest
import Ardep.Uds.Dispatch.Relate
import Ardep.Uds.Memory.Check
/-!
# Memory — the default handler as a store

`UDS_REGISTER_MEMORY_DEFAULT_HANDLER` puts both services on the memory of
the machine: a read copies from the address itself, a write moves the
request's bytes to it. The checks of `Memory.Check` decide before either.

`memory_run` is what that makes of a run of requests through the
dispatcher. The memory is a store: a cell has the byte that the last
positively answered write gave it. Nothing outside RAM is ever written,
and what a read sends is what the store has, as far as a `uint16_t` counts.
-/

namespace Ardep

namespace Uds

namespace Memory

/-! ## The registration -/

/-- The functions the event loop has no name for: the two of the default
handler for writes, and those of the registrations around it. -/
inductive Fn
  | udsDefaultMemoryByAddrWrite
  | other (f : ℕ)
  deriving DecidableEq

/-- A registration of the instance. -/
abbrev Reg : Type := Registration (CheckFn Fn) (ActionFn Fn) Unit

/-- `UDS_REGISTER_MEMORY_DEFAULT_HANDLER`. -/
def defaultMemoryHandler (inst : Option InstancePtr) : Reg where
  inst := inst
  data := .memory ⟨some .udsCheckDefaultMemoryByAddrRead, some .udsActionDefaultMemoryByAddrRead⟩
    ⟨some (.app .udsDefaultMemoryByAddrWrite), some (.app .udsDefaultMemoryByAddrWrite)⟩

/-! ## The two services -/

/-- `UDSReadMemByAddrArgs_t` and `UDSWriteMemByAddrArgs_t`: of a copy
function what it returns, and what is at the data pointer. -/
inductive MemoryArgs (w : ℕ)
  | read (memAddr memSize : BitVec w) (copy : UInt8)
  | write (memAddr memSize : BitVec w) (data : ℕ → UInt8)

/-- The memory of the machine, and what the copy function has taken of it
for the response. -/
structure MemoryState where
  cells : ℕ → UInt8
  sent : List UInt8

section Services

variable {w : ℕ} (M : MemoryLayout w)

/-- `uds_action_default_memory_by_addr_read`. The count of the copy
function is a `uint16_t`. -/
def udsActionDefaultMemoryByAddrRead (memAddr memSize : BitVec w) (copy : UInt8)
    (consumeEvent : Bool) : StateM MemoryState (UDSErr × Bool) := fun s =>
  if copy ≠ 0 then ((.requestOutOfRange, consumeEvent), s)
  else
    ((.positiveResponse, consumeEvent),
      { s with sent := s.sent ++ readRange s.cells memAddr.toNat (memSize.toNat % 2 ^ 16) })

/-- `uds_action_default_memory_by_addr_write`. -/
def udsActionDefaultMemoryByAddrWrite (memAddr memSize : BitVec w) (data : ℕ → UInt8)
    (consumeEvent : Bool) : StateM MemoryState (UDSErr × Bool) := fun s =>
  ((.positiveResponse, consumeEvent),
    { s with cells := store s.cells memAddr.toNat (readRange data 0 memSize.toNat) })

/-- What the functions of an instance do in the two events. -/
abbrev MemoryBehaviour (w : ℕ) : Type :=
  Behaviour (StateM MemoryState) (CheckFn Fn) (ActionFn Fn) Unit (MemoryArgs w)

/-- Those of the default handler, and others. -/
def memoryBehaviour (others : MemoryBehaviour w) : MemoryBehaviour w where
  check := fun check context applyAction =>
    match check, context.arg with
    | .udsCheckDefaultMemoryByAddrRead, .read memAddr memSize _ =>
      pure (udsCheckDefaultMemoryByAddrRead M memAddr memSize applyAction)
    | .app .udsDefaultMemoryByAddrWrite, .write memAddr memSize _ =>
      pure (udsCheckDefaultMemoryByAddrWrite M memAddr memSize applyAction)
    | _, _ => others.check check context applyAction
  action := fun action context consumeEvent =>
    match action, context.arg with
    | .udsActionDefaultMemoryByAddrRead, .read memAddr memSize copy =>
      udsActionDefaultMemoryByAddrRead memAddr memSize copy consumeEvent
    | .app .udsDefaultMemoryByAddrWrite, .write memAddr memSize data =>
      udsActionDefaultMemoryByAddrWrite memAddr memSize data consumeEvent
    | _, _ => others.action action context consumeEvent

/-- The event of a request. -/
def MemoryArgs.event : MemoryArgs w → UDSEvent
  | .read .. => .readMemByAddr
  | .write .. => .writeMemByAddr

end Services

/-- **An instance with the default handler**: the registrations around it,
none of them for memory where it comes later, and what their functions
do. -/
structure Server (w : ℕ) where
  layout : MemoryLayout w
  inst : InstancePtr
  before : List Reg
  after : List Reg
  dynamics : List Reg
  others : MemoryBehaviour w
  nativeSim : layout.nativeSim = false
  first : ∀ reg ∈ before, reg.type ≠ .memory

namespace Server

variable {w : ℕ} (S : Server w)

/-- The static registrations. -/
def statics : List Reg := S.before ++ defaultMemoryHandler (some S.inst) :: S.after

/-- **A request**: what it is answered, what the response carries, and the
memory after it. -/
def respond (cells : ℕ → UInt8) (e : MemoryArgs w) : UDSErr × List UInt8 × (ℕ → UInt8) :=
  let (ret, s) := udsEventCallback (memoryBehaviour S.layout S.others) eventHandlers S.inst
    e.event e S.statics S.dynamics ⟨cells, []⟩
  (ret, s.sent, s.cells)

/-- The run of requests from a memory. -/
def requests (start : ℕ → UInt8) : Machine (ℕ → UInt8) (MemoryArgs w) where
  init cells := cells = start
  Step cells e cells' := cells' = (S.respond cells e).2.2

/-! ## One request -/

/-- The check that a request meets. -/
def check : MemoryArgs w → UDSErr × Bool
  | .read memAddr memSize _ => udsCheckDefaultMemoryByAddrRead S.layout memAddr memSize false
  | .write memAddr memSize _ => udsCheckDefaultMemoryByAddrWrite S.layout memAddr memSize false

/-- The action that it meets. -/
def action : MemoryArgs w → Bool → StateM MemoryState (UDSErr × Bool)
  | .read memAddr memSize copy, consumeEvent =>
    udsActionDefaultMemoryByAddrRead memAddr memSize copy consumeEvent
  | .write memAddr memSize data, consumeEvent =>
    udsActionDefaultMemoryByAddrWrite memAddr memSize data consumeEvent

variable {S} {e : MemoryArgs w} {cells : ℕ → UInt8}

/-- The check admits the request, or answers it out of range. -/
theorem check_cases (e : MemoryArgs w) :
    S.check e = (.ok, true) ∨ S.check e = (.requestOutOfRange, false) := by
  cases e with
  | read a n _ => exact (udsCheckDefaultMemoryByAddr_spec S.nativeSim a n true false).2
  | write a n _ => exact (udsCheckDefaultMemoryByAddr_spec S.nativeSim a n false false).2

/-- The actions leave the event consumed, as they find it in a static
registration. -/
theorem action_consumes (e : MemoryArgs w) (s : MemoryState) : (action e true s).1.2 = true := by
  cases e with
  | read a n copy =>
    show (udsActionDefaultMemoryByAddrRead a n copy true s).1.2 = true
    unfold udsActionDefaultMemoryByAddrRead
    split_ifs <;> rfl
  | write a n data => rfl

/-- The entry of the event handlers for a request. -/
def handler : MemoryArgs w → EventHandlerData (CheckFn Fn) (ActionFn Fn) Unit
  | .read .. => readMemByAddrHandler
  | .write .. => .ofActor .writeMemByAddr .conditionsNotCorrect .memory fun
    | .memory _ write => some write
    | _ => none

theorem handler_type (e : MemoryArgs w) : (handler e).registrationType = .memory := by
  cases e <;> rfl

theorem find?_handler (e : MemoryArgs w) :
    (eventHandlers.find? (·.event = e.event) : Option (EventHandlerData (CheckFn Fn) (ActionFn Fn)
      Unit)) = some (handler e) := by
  cases e with
  | read => rfl
  | write =>
    -- the getters of the entry match on the registration
    have hentry : ∀ writing, (∀ data : RegistrationData (CheckFn Fn) (ActionFn Fn),
          writing data = match data with
            | .memory _ write => some write
            | _ => none) →
        some (EventHandlerData.ofActor (U := Unit) .writeMemByAddr .conditionsNotCorrect .memory
          writing) = some (.ofActor .writeMemByAddr .conditionsNotCorrect .memory fun data =>
            match data with
            | .memory _ write => some write
            | _ => none) := by
      intro writing h
      rw [funext h]
    exact hentry _ fun data => by cases data <;> rfl

/-- The round of the default handler: what its action answers, if the check
admits the request. -/
def round (S : Server w) (e : MemoryArgs w) : StateM MemoryState (Option UDSErr) := fun s =>
  if S.check e = (.ok, true) then (some (action e true s).1.1, (action e true s).2)
  else (none, s)

/-- What the dispatcher makes of it. -/
def stops : Option UDSErr → UDSErr × Bool × Bool
  | some ret => (ret, decide (ret = .ok), true)
  | none => (.requestOutOfRange, false, false)

/-- The dispatcher calls the check of the default handler. -/
theorem exists_check (e : MemoryArgs w) : ∃ f,
    (handler e).getCheck (defaultMemoryHandler (some S.inst)) = some f ∧
      (memoryBehaviour S.layout S.others).check f
          ⟨S.inst, defaultMemoryHandler (some S.inst), e.event, e⟩ false = pure (S.check e) := by
  cases e <;> exact ⟨_, rfl, rfl⟩

/-- And its action. -/
theorem exists_action (e : MemoryArgs w) : ∃ f,
    (handler e).getAction (defaultMemoryHandler (some S.inst)) = some f ∧
      (memoryBehaviour S.layout S.others).action f
          ⟨S.inst, defaultMemoryHandler (some S.inst), e.event, e⟩ true = action e true := by
  cases e <;> exact ⟨_, rfl, rfl⟩

theorem udsCheckAndActOnEvent_default :
    udsCheckAndActOnEvent (memoryBehaviour S.layout S.others)
        ⟨S.inst, defaultMemoryHandler (some S.inst), e.event, e⟩ (handler e) false true =
      round S e >>= fun ret => pure (stops ret) := by
  obtain ⟨check, hget, hcheck⟩ := exists_check (S := S) e
  obtain ⟨act, hget', hact⟩ := exists_action (S := S) e
  have htype : ¬ (defaultMemoryHandler (some S.inst)).type ≠ (handler e).registrationType := by
    rw [handler_type, not_not]
    rfl
  funext s
  have hround : (round S e >>= fun ret => pure (stops ret)) s =
      (stops (round S e s).1, (round S e s).2) := rfl
  rw [hround]
  unfold udsCheckAndActOnEvent
  simp only [if_neg htype, hget, hcheck, pure_bind]
  rcases check_cases (S := S) e with hok | hno
  · simp only [hok, ne_eq, not_true_eq_false, if_false, hget', hact, round, if_true]
    have hconsumes := action_consumes e s
    show (if (action e true s).1.1 ≠ .ok then
        pure ((action e true s).1.1, false, (action e true s).1.2)
      else pure (.ok, true, (action e true s).1.2) : StateM MemoryState _) (action e true s).2 = _
    rw [hconsumes]
    by_cases hret : (action e true s).1.1 = .ok
    · rw [if_neg (not_not.mpr hret), stops, hret]
      rfl
    · rw [if_pos hret, stops, decide_eq_false hret]
      rfl
  · have hne : ((.requestOutOfRange, false) : UDSErr × Bool) ≠ (.ok, true) := by decide
    simp only [hno, round, if_neg hne]
    rfl

/-- **A request is answered by its check, or by its action.** -/
theorem udsEventCallback_eq (s : MemoryState) :
    udsEventCallback (memoryBehaviour S.layout S.others) eventHandlers S.inst e.event e S.statics
        S.dynamics s =
      if S.check e = (.ok, true) then ((action e true s).1.1, (action e true s).2)
      else (.requestOutOfRange, s) := by
  have hskips : ∀ reg ∈ S.before, Skips (memoryBehaviour S.layout S.others) (handler e) S.inst
      e.event e reg :=
    fun reg hreg => skips_of_type (by rw [handler_type]; exact S.first reg hreg)
  unfold udsEventCallback statics
  rw [find?_handler]
  simp only
  rw [udsHandleEvent_of_static_stops hskips udsCheckAndActOnEvent_default]
  · show ((stops (round S e s).1).1, (round S e s).2) = _
    unfold round
    split_ifs <;> rfl
  · rintro (_ | ret)
    · exact .inr (by decide)
    · exact .inl rfl

/-! ## Runs of requests -/

section Runs

variable (S)

/-- The addresses of RAM. -/
def ramCells : Set ℕ := {x | ∃ R, S.layout.ram = some R ∧ x ∈ wordRange R.base R.size}

/-- **What a request has to be for a positive answer.** -/
def Admits : MemoryArgs w → Prop
  | .read memAddr memSize copy =>
    (memAddr ≠ 0 ∧ memSize ≠ 0 ∧
      (LiesIn memAddr memSize S.layout.ram ∨ LiesIn memAddr memSize S.layout.flash)) ∧ copy = 0
  | .write memAddr memSize _ => memAddr ≠ 0 ∧ memSize ≠ 0 ∧ LiesIn memAddr memSize S.layout.ram

/-- What its response then carries of a memory. -/
def carries (cells : ℕ → UInt8) : MemoryArgs w → List UInt8
  | .read memAddr memSize _ => readRange cells memAddr.toNat (memSize.toNat % 2 ^ 16)
  | .write .. => []

/-- The byte that a positively answered write gives a cell. -/
def gives (step : (ℕ → UInt8) × MemoryArgs w) (x : ℕ) : Option UInt8 :=
  match step with
  | (_, .read ..) => none
  | (cells, .write memAddr memSize data) =>
    if (S.respond cells (.write memAddr memSize data)).1 = .positiveResponse ∧
        memAddr.toNat ≤ x ∧ x < memAddr.toNat + memSize.toNat then
      some (data (x - memAddr.toNat))
    else none

variable {S}

/-- The answer to one request, and what it does. -/
theorem respond_cases (cells : ℕ → UInt8) (e : MemoryArgs w) :
    (S.Admits e → S.respond cells e = (.positiveResponse, carries cells e,
      match e with
      | .read .. => cells
      | .write memAddr memSize data =>
        store cells memAddr.toNat (readRange data 0 memSize.toNat))) ∧
      (¬ S.Admits e → S.respond cells e = (.requestOutOfRange, [], cells)) := by
  have hrespond : S.respond cells e =
      if S.check e = (.ok, true) then
        ((action e true ⟨cells, []⟩).1.1, (action e true ⟨cells, []⟩).2.sent,
          (action e true ⟨cells, []⟩).2.cells)
      else (.requestOutOfRange, [], cells) := by
    unfold respond
    rw [udsEventCallback_eq]
    split_ifs <;> rfl
  rw [hrespond]
  cases e with
  | read a n copy =>
    have hiff := (udsCheckDefaultMemoryByAddr_iff S.nativeSim a n false).1
    have haction : action (.read a n copy) true ⟨cells, []⟩ =
        udsActionDefaultMemoryByAddrRead a n copy true ⟨cells, []⟩ := rfl
    rw [haction, udsActionDefaultMemoryByAddrRead]
    constructor
    · rintro ⟨hgranted, hcopy⟩
      rw [if_pos (show S.check (.read a n copy) = _ from hiff.mpr hgranted),
        if_neg (not_not.mpr hcopy)]
      rfl
    · intro hno
      by_cases hgranted : S.check (.read a n copy) = (.ok, true)
      · rw [if_pos hgranted, if_pos fun hcopy => hno ⟨hiff.mp hgranted, hcopy⟩]
      · rw [if_neg hgranted]
  | write a n data =>
    have hiff := (udsCheckDefaultMemoryByAddr_iff S.nativeSim a n false).2.2.1
    constructor
    · intro hgranted
      rw [if_pos (show S.check (.write a n data) = _ from hiff.mpr hgranted)]
      rfl
    · intro hno
      rw [if_neg fun hcheck : S.check (.write a n data) = (.ok, true) => hno (hiff.mp hcheck)]

theorem refused : (.requestOutOfRange : UDSErr) ≠ .positiveResponse := by decide

/-- A step gives the cells of an admitted write its bytes, and leaves the
others. -/
theorem respond_cells (cells : ℕ → UInt8) (e : MemoryArgs w) (x : ℕ) :
    (S.respond cells e).2.2 x = (S.gives (cells, e) x).getD (cells x) := by
  cases e with
  | read a n copy =>
    by_cases hgranted : S.Admits (.read a n copy)
    · rw [(respond_cases cells _).1 hgranted]
      rfl
    · rw [(respond_cases cells _).2 hgranted]
      rfl
  | write a n data =>
    rw [gives]
    by_cases hgranted : S.Admits (.write a n data)
    · rw [(respond_cases cells _).1 hgranted]
      show store cells a.toNat (readRange data 0 n.toNat) x = _
      rw [store_readRange]
      by_cases hin : a.toNat ≤ x ∧ x < a.toNat + n.toNat
      · rw [if_pos hin, if_pos ⟨rfl, hin⟩, Option.getD_some, Nat.zero_add]
      · rw [if_neg hin, if_neg fun h => hin h.2, Option.getD_none]
    · rw [(respond_cases cells _).2 hgranted, if_neg fun h => refused h.1,
        Option.getD_none]

/-- An admitted write gives nothing outside RAM. -/
theorem gives_eq_none {x : ℕ} (hx : x ∉ S.ramCells) (cells : ℕ → UInt8) (e : MemoryArgs w) :
    S.gives (cells, e) x = none := by
  cases e with
  | read => rfl
  | write a n data =>
    rw [gives]
    refine if_neg fun ⟨hret, hlow, hhigh⟩ => hx ?_
    by_cases hgranted : S.Admits (.write a n data)
    · obtain ⟨-, -, R, hR, hsub⟩ := hgranted
      exact ⟨R, hR, hsub ⟨hlow, hhigh⟩⟩
    · rw [(respond_cases cells _).2 hgranted] at hret
      exact absurd hret refused

/-- **The memory under the default handler is a store.** In every run of
requests, the first registration for memory being the default one, each
cell has the byte of the last positively answered write that covered it,
and otherwise what it had; so no cell outside RAM ever changes. A request
is answered positively exactly if it is admitted, which the memory has no
part in, and any other is answered out of range and leaves the memory as
it is. A read sends the bytes last written, as many as a `uint16_t`
counts. -/
theorem memory_run {start cells : ℕ → UInt8} {past : List ((ℕ → UInt8) × MemoryArgs w)}
    (h : (S.requests start).Run past cells) :
    (∀ x, cells x = latest S.gives start past x) ∧
      (∀ x, x ∉ S.ramCells → cells x = start x) ∧
      ∀ e, (S.Admits e → (S.respond cells e).1 = .positiveResponse ∧
          (S.respond cells e).2.1 = carries (latest S.gives start past) e) ∧
        (¬ S.Admits e → S.respond cells e = (.requestOutOfRange, [], cells)) := by
  have hstep : ∀ s e s', (S.requests start).Reachable s → (S.requests start).Step s e s' → ∀ x,
      s' x = (S.gives (s, e) x).getD (s x) := by
    rintro s e s' - hs x
    rw [show s' = _ from hs, respond_cells]
  have hlatest : ∀ x, cells x = latest S.gives start past x :=
    h.eq_latest (fun s x => s x) (fun s (hs : s = start) x => congrFun hs x) hstep
  refine ⟨hlatest, fun x hx => ?_, fun e => ⟨fun hgranted => ?_, (respond_cases cells e).2⟩⟩
  · refine h.reachable.invariant (P := fun s => s x = start x)
      (fun s (hs : s = start) => congrFun hs x) ?_
    intro s e s' hs hstep'
    rw [show s' = _ from hstep', respond_cells, gives_eq_none hx]
    exact hs
  · rw [(respond_cases cells e).1 hgranted, ← funext hlatest]
    exact ⟨rfl, rfl⟩

end Runs

/-- The default handler alone, on a board. -/
def boardServer : Server 32 where
  layout := boardLayout
  inst := 0
  before := []
  after := []
  dynamics := []
  others := ⟨fun _ _ apply => pure (.ok, apply), fun _ _ consume => pure (.ok, consume)⟩
  nativeSim := rfl
  first := fun _ h => absurd h List.not_mem_nil

/-- After a write to the end of RAM, the byte before RAM is as it was. -/
theorem memory_run_write :
    (boardServer.respond (fun _ => 0) (.write 0x2001FFFF 1 fun _ => 7)).2.2 0x1FFFFFFF = 0 := by
  refine (memory_run (S := boardServer) (.step (.init rfl) rfl)).2.1 0x1FFFFFFF ?_
  rintro ⟨R, hR, hlow, -⟩
  cases hR
  exact absurd hlow (by decide)

end Server

end Memory

end Uds

end Ardep
