import Ardep.Uds.Dynamic.Definition
/-!
# Dynamic — the two lists, and the registry under them

`keepsLists_iff` is about runs of 0x2C requests: the handler's list of ids
and the instance's list of registrations are kept in step by code in
three places, and stay the same ids in the same order, where no request
comes to the cleanup that frees one list twice.

`registry_calls` is about the two functions of `uds.c` the requests are
built on, called in any order: ids are never zero and never shared, a
registration gets the least id that is free (`findNextDynamicIdFrom_spec`
is the loop), and a call that fails leaves everything as it was.
-/

namespace Ardep

namespace Uds

namespace Dynamic

variable {F : Type} {I : Instance F} {c : Choices F} {s s' : State F}

/-! ## Runs of requests -/

/-- **A request and its choices** as a partial step: one that faults has no
next state. -/
def request (I : Instance F) (s : State F) (e : DDDIArgs × Choices F) :
    Option (UDSErr × State F) :=
  (udsActionDefaultDynamicallyDefineDataIds I e.2 e.1 s).toOption

theorem request_eq_some {e : DDDIArgs × Choices F} {ret : UDSErr} :
    request I s e = some (ret, s') ↔
      udsActionDefaultDynamicallyDefineDataIds I e.2 e.1 s = .ok (ret, s') := by
  rw [request]
  cases udsActionDefaultDynamicallyDefineDataIds I e.2 e.1 s <;> simp [Except.toOption]

/-- **The two lists are in step**: the handler tracks the ids of the
registrations, each once and in their order, and every registration is for
a data identifier of its own. -/
structure InStep (I : Instance F) (s : State F) : Prop where
  tracked :
    (s.idLists I.handler).map (·.dynamicRegistrationId) = s.dynamicRegistrations.map (·.id)
  ids : (s.dynamicRegistrations.map (·.id)).Nodup
  all : ∀ r ∈ s.dynamicRegistrations, ∃ x, r.reg.dataId? = some x
  dataIds : (s.dynamicRegistrations.map (·.reg.dataId?)).Nodup

/-- **What is promised of a request**: it is answered, without a block freed
twice or a freed list walked, the lists are in step after it, and a clear
of all leaves both empty. -/
def KeepsLists (I : Instance F) (s : State F) (e : DDDIArgs × Choices F) : Prop :=
  ∃ ret s', udsActionDefaultDynamicallyDefineDataIds I e.2 e.1 s = .ok (ret, s') ∧ InStep I s' ∧
    ∀ x, e.1 = .clear true x → s'.idLists I.handler = [] ∧ s'.dynamicRegistrations = []

/-- **A new identifier that is registered can be tracked**: its last
allocation does not fail. -/
def Tracks (I : Instance F) (s : State F) (e : DDDIArgs × Choices F) : Prop :=
  ∀ x d, e.1 = defineRequest x d → udsFindExistingRegistrationByDataId I x s = none →
    AllocatesNew e.2 s → e.2.alloc .regIdItem = true

/-- **The registrations after a define request** are those before it, or
one of 0x2C's more. -/
theorem registrations_of_define (h : Inv I s) {x : UInt16} {d : DefinedData} {ret : UDSErr}
    (hrun : defineAddNewId I c (appendToRegistration c d) x s = .ok (ret, s')) :
    s'.dynamicRegistrations = s.dynamicRegistrations ∨
      ∃ r : HeapRegistration F, r.isDefined = true ∧
        s'.dynamicRegistrations = s.dynamicRegistrations ++ [r] := by
  rcases define_cases h hrun with
    ⟨r, -, -, rfl⟩ | ⟨-, -, -, rfl⟩ | ⟨-, hsame⟩ | ⟨r, -, -, hempty, -⟩
  · exact .inl rfl
  · exact .inr ⟨_, isDefined_newRegistration, rfl⟩
  · exact .inl hsame.dynamicRegistrations
  · exact .inl hempty.dynamicRegistrations

/-- **The registrations after a clear request** are some of those before
it. -/
theorem registrations_of_clear (h : Inv I s) (hp : I.Present s) {all : Bool} {x : UInt16}
    {ret : UDSErr}
    (hrun : udsActionDefaultDynamicallyDefineDataIds I c (.clear all x) s = .ok (ret, s')) :
    ∀ r ∈ s'.dynamicRegistrations, r ∈ s.dynamicRegistrations := by
  cases all with
  | true =>
    obtain ⟨t, ht, -, hregs⟩ := removeAllIds_spec (c := c) h hp
    rw [request_clearAll ht] at hrun
    cases hrun
    intro r hr
    rw [hregs] at hr
    exact (List.mem_filter.mp hr).1
  | false =>
    obtain ⟨t, ht, -, hregs, -⟩ := removeSingleId_spec (c := c) h hp x
    rw [request_clearSingle ht] at hrun
    cases hrun
    intro r hr
    rw [hregs] at hr
    exact (List.mem_filter.mp hr).1

/-- The invariant of a run of requests: nobody else registers anything. -/
structure OnlyDefined (I : Instance F) (s : State F) : Prop where
  inv : Inv I s
  all : ∀ r ∈ s.dynamicRegistrations, r.isDefined = true

/-- A request keeps the invariant. -/
theorem onlyDefined_request (h : OnlyDefined I s) (hp : I.Present s) {args : DDDIArgs}
    {ret : UDSErr}
    (hrun : udsActionDefaultDynamicallyDefineDataIds I c args s = .ok (ret, s')) :
    OnlyDefined I s' := by
  refine ⟨inv_request h.inv hp hrun, ?_⟩
  have hdefine : ∀ x d, defineAddNewId I c (appendToRegistration c d) x s = .ok (ret, s') →
      ∀ r ∈ s'.dynamicRegistrations, r.isDefined = true := by
    intro x d hdef r hr
    rcases registrations_of_define h.inv hdef with hregs | ⟨q, hq, hregs⟩
    · exact h.all r (hregs ▸ hr)
    · rw [hregs] at hr
      rcases List.mem_append.mp hr with hr | hr
      · exact h.all r hr
      · rw [List.mem_singleton.mp hr]
        exact hq
  cases args with
  | defineById x source position size => exact hdefine x (.id source position size) hrun
  | defineByMemAddress x addr size => exact hdefine x (.memory addr size) hrun
  | clear all x =>
    intro r hr
    exact h.all r (registrations_of_clear h.inv hp hrun r hr)
  | other type =>
    cases hrun
    exact h.all

/-- **The one request that faults** is for a new identifier that is
registered and cannot be tracked. -/
theorem request_faults (h : Inv I s) (hp : I.Present s) {args : DDDIArgs} {fault : Fault}
    (hrun : udsActionDefaultDynamicallyDefineDataIds I c args s = .error fault) :
    ∃ x d, args = defineRequest x d ∧ udsFindExistingRegistrationByDataId I x s = none ∧
      AllocatesNew c s ∧ c.alloc .regIdItem = false := by
  have hdefine : ∀ x d, args = defineRequest x d →
      udsFindExistingRegistrationByDataId I x s = none ∧ AllocatesNew c s ∧
        c.alloc .regIdItem = false := by
    rintro x d rfl
    rw [run_defineRequest] at hrun
    cases hfind : udsFindExistingRegistrationByDataId I x s with
    | some r =>
      cases hitem : c.alloc .dataItem with
      | true => rw [define_existing_ok h hfind hitem] at hrun; cases hrun
      | false =>
        obtain ⟨t, hfail, -⟩ := define_existing_fails (d := d) h hfind hitem
        rw [hfail] at hrun
        cases hrun
    | none =>
      by_cases halloc : AllocatesNew c s
      · cases hitem : c.alloc .regIdItem with
        | true => rw [define_new_ok h hfind halloc hitem] at hrun; cases hrun
        | false => exact ⟨rfl, halloc, rfl⟩
      · obtain ⟨ret, t, -, hfail, -⟩ := define_new_fails (d := d) h hfind halloc
        rw [hfail] at hrun
        cases hrun
  cases args with
  | defineById x source position size =>
    exact ⟨x, .id source position size, rfl, hdefine x (.id source position size) rfl⟩
  | defineByMemAddress x addr size =>
    exact ⟨x, .memory addr size, rfl, hdefine x (.memory addr size) rfl⟩
  | clear all x =>
    cases all with
    | true =>
      obtain ⟨t, ht, -⟩ := removeAllIds_spec (c := c) h hp
      rw [request_clearAll ht] at hrun
      cases hrun
    | false =>
      obtain ⟨t, ht, -⟩ := removeSingleId_spec (c := c) h hp x
      rw [request_clearSingle ht] at hrun
      cases hrun
  | other type => cases hrun

theorem OnlyDefined.inStep (h : OnlyDefined I s) : InStep I s := by
  obtain ⟨hinv, hall⟩ := h
  have hself : s.dynamicRegistrations.filter (·.isDefined) = s.dynamicRegistrations :=
    List.filter_eq_self.mpr hall
  have htracked := hinv.tracked
  have hdataIds := hinv.dataIds
  rw [hself] at htracked hdataIds
  refine ⟨htracked, hinv.ids, fun r hr => ?_, hdataIds⟩
  obtain ⟨x, p, hreg⟩ := hinv.shape r hr (hall r hr)
  exact ⟨x, by rw [hreg]; rfl⟩

/-- A request to clear all is answered and leaves both lists empty. -/
theorem OnlyDefined.clearAll (h : OnlyDefined I s) (hp : I.Present s) {x : UInt16} {ret : UDSErr}
    (hrun : udsActionDefaultDynamicallyDefineDataIds I c (.clear true x) s = .ok (ret, s')) :
    s'.idLists I.handler = [] ∧ s'.dynamicRegistrations = [] := by
  obtain ⟨t, ht, hinv, hregs⟩ := removeAllIds_spec (c := c) h.inv hp
  rw [request_clearAll ht] at hrun
  cases hrun
  have hnil : s'.dynamicRegistrations = [] := by
    rw [hregs, List.filter_eq_nil_iff]
    intro r hr
    simp [h.all r hr]
  have hids : (s'.idLists I.handler).map (·.dynamicRegistrationId) = [] := by
    rw [hinv.tracked, hnil]
    rfl
  exact ⟨List.map_eq_nil_iff.mp hids, hnil⟩

/-- **One request.** It keeps the lists exactly if it registers no
identifier that cannot be tracked. -/
theorem OnlyDefined.keeps_iff_tracks (h : OnlyDefined I s) (hp : I.Present s)
    (e : DDDIArgs × Choices F) : KeepsLists I s e ↔ Tracks I s e := by
  obtain ⟨args, c⟩ := e
  constructor
  · rintro ⟨ret, s', hrun, -⟩ x d rfl hnew halloc
    by_contra hitem
    have hfault := define_new_regIdItem (d := d) h.inv hnew halloc (by simpa using hitem)
    rw [run_defineRequest, hfault] at hrun
    cases hrun
  · intro htracks
    cases hrun : udsActionDefaultDynamicallyDefineDataIds I c args s with
    | error fault =>
      obtain ⟨x, d, rfl, hnew, halloc, hitem⟩ := request_faults h.inv hp hrun
      rw [htracks x d rfl hnew halloc] at hitem
      cases hitem
    | ok p =>
      obtain ⟨ret, s'⟩ := p
      refine ⟨ret, s', hrun, (onlyDefined_request h hp hrun).inStep, ?_⟩
      rintro x rfl
      exact h.clearAll hp hrun

/-- **The two lists of an instance that only 0x2C registers on.** They are
in step at the start, and every request of a run is answered and keeps
them so, and one to clear all empties them, exactly if no request of the
run registers a new identifier whose tracking item cannot be allocated. -/
theorem keepsLists_iff (hone : staticHandlers I = [I.handler]) (h0 : (machine I).init s)
    (es : List (DDDIArgs × Choices F)) :
    InStep I s ∧ (Along (request I) (KeepsLists I) s es ↔ Along (request I) (Tracks I) s es) := by
  have hp : ∀ t, I.Present t := fun t => .inl (by simp [hone])
  have hstart : OnlyDefined I s := ⟨inv_init h0, by simp [h0.2.2]⟩
  exact ⟨hstart.inStep, along_congr (P := OnlyDefined I)
    (fun t e ret t' h hstep => onlyDefined_request h (hp t) (request_eq_some.mp hstep))
    (fun t e h => h.keeps_iff_tracks (hp t) e) hstart⟩

/-- Two identifiers, one of them with two elements, the first cleared and
then all. -/
def twoIdentifiers : List (DDDIArgs × Choices ℕ) :=
  [(.defineByMemAddress 0xF200 1 1, allSucceed), (.defineById 0xF200 0xF100 0 1, allSucceed),
    (.defineById 0xF201 0xF100 1 1, allSucceed), (.clear false 0xF200, allSucceed),
    (.defineById 0xF202 0xF100 0 2, failsAt .tempReg), (.clear true 0, allSucceed)]

theorem keepsLists_twoIdentifiers :
    Along (request oneHandler) (KeepsLists oneHandler) setUp twoIdentifiers := by
  refine ((keepsLists_iff (by decide) ⟨rfl, rfl, rfl⟩ twoIdentifiers).2).mpr ?_
  have hitem : ∀ e ∈ twoIdentifiers, e.2.alloc .regIdItem = true := by decide
  exact along_of_forall fun e he s x d _ _ _ => hitem e he

/-- **A first identifier that cannot be tracked**: the request walks and
frees the list that its registration took with it, and no answer comes. -/
theorem not_keepsLists_untracked :
    ¬ ∀ s, (machine oneHandler).init s → ∀ es,
      Along (request oneHandler) (KeepsLists oneHandler) s es := by
  intro hall
  have hinit : (machine oneHandler).init setUp := ⟨rfl, rfl, rfl⟩
  obtain ⟨⟨ret, s', hrun, -⟩, -⟩ :=
    hall setUp hinit [(.defineByMemAddress 0xF200 1 1, failsAt .regIdItem)]
  have hfault := define_new_regIdItem (c := failsAt .regIdItem) (d := .memory 1 1) (x := 0xF200)
    (inv_init hinit) rfl ⟨rfl, rfl, rfl, by decide +kernel, rfl⟩ rfl
  rw [← run_defineRequest] at hfault
  change udsActionDefaultDynamicallyDefineDataIds oneHandler (failsAt .regIdItem)
    (defineRequest 0xF200 (.memory 1 1)) setUp = .ok (ret, s') at hrun
  rw [hfault] at hrun
  cases hrun

/-! ## The next id -/

/-- **The loop of `find_next_dynamic_id`.** From a candidate on, with as
many turns as there are numbers left, it stops at the least number that is
not in use, or at 0 where all of them are. -/
theorem findNextDynamicIdFrom_spec (inUse : List UInt32) :
    ∀ (n : ℕ) (candidate : UInt32), candidate.toNat + n = 2 ^ 32 →
      (findNextDynamicIdFrom inUse n candidate = 0 ∧ ∀ j, candidate ≤ j → j ∈ inUse) ∨
      (candidate ≤ findNextDynamicIdFrom inUse n candidate ∧
        findNextDynamicIdFrom inUse n candidate ∉ inUse ∧
        ∀ j, candidate ≤ j → j < findNextDynamicIdFrom inUse n candidate → j ∈ inUse) := by
  intro n
  induction n with
  | zero =>
    intro candidate hn
    have := candidate.toNat_lt
    omega
  | succ n ih =>
    intro candidate hn
    rw [findNextDynamicIdFrom]
    split_ifs with hin hmax
    · -- the last number: nothing is left to try
      refine .inl ⟨rfl, fun j hj => ?_⟩
      have hj' : candidate.toNat ≤ j.toNat := UInt32.le_iff_toNat_le.mp hj
      have hcand : candidate.toNat = 2 ^ 32 - 1 := by rw [hmax]; rfl
      have := j.toNat_lt
      have heq : j = candidate := UInt32.toNat_inj.mp (by omega)
      exact heq ▸ hin
    · have hlt : candidate.toNat + 1 < 2 ^ 32 := by
        by_contra hge
        have := candidate.toNat_lt
        exact hmax (UInt32.toNat_inj.mp (by
          have : (0xFFFFFFFF : UInt32).toNat = 2 ^ 32 - 1 := rfl
          omega))
      have hnext : (candidate + 1).toNat = candidate.toNat + 1 := by
        rw [UInt32.toNat_add]
        exact Nat.mod_eq_of_lt hlt
      -- the candidate itself is in use, and what is above it is the next turn's
      have hsplit : ∀ j, candidate ≤ j → j = candidate ∨ candidate + 1 ≤ j := by
        intro j hj
        have hj' : candidate.toNat ≤ j.toNat := UInt32.le_iff_toNat_le.mp hj
        rcases Nat.eq_or_lt_of_le hj' with heq | hlt
        · exact .inl (UInt32.toNat_inj.mp heq.symm)
        · exact .inr (UInt32.le_iff_toNat_le.mpr (by omega))
      rcases ih (candidate + 1) (by omega) with ⟨hzero, hall⟩ | ⟨hle, hfree, hbelow⟩
      · refine .inl ⟨hzero, fun j hj => ?_⟩
        rcases hsplit j hj with rfl | hj
        · exact hin
        · exact hall j hj
      · refine .inr ⟨?_, hfree, fun j hj hjlt => ?_⟩
        · have := UInt32.le_iff_toNat_le.mp hle
          exact UInt32.le_iff_toNat_le.mpr (by omega)
        · rcases hsplit j hj with rfl | hj
          · exact hin
          · exact hbelow j hj hjlt
    · refine .inr ⟨UInt32.le_refl _, hin, fun j hj hjlt => ?_⟩
      exact absurd hjlt (UInt32.not_lt.mpr hj)

/-- A registration of the list has the id. -/
def InUse (s : State F) (id : UInt32) : Prop :=
  ∃ r ∈ s.dynamicRegistrations, r.id = id

/-- The id is positive, free, and the least one that is. -/
def IsLeastFree (s : State F) (id : UInt32) : Prop :=
  id ≠ 0 ∧ ¬ InUse s id ∧ ∀ j, j ≠ 0 → j < id → InUse s j

theorem one_le_of_ne_zero {j : UInt32} (hj : j ≠ 0) : 1 ≤ j := by
  have hpos : 0 < j.toNat := Nat.pos_of_ne_zero fun h0 => hj (UInt32.toNat_inj.mp h0)
  exact UInt32.le_iff_toNat_le.mpr hpos

/-- **`find_next_dynamic_id`** gives 0 with every id in use, and otherwise
the least one that is free. -/
theorem findNextDynamicId_spec (s : State F) :
    (findNextDynamicId s = 0 ∧ ∀ j, j ≠ 0 → InUse s j) ∨ IsLeastFree s (findNextDynamicId s) := by
  have hmem : ∀ j, j ∈ s.dynamicRegistrations.map (·.id) ↔ InUse s j := fun j => List.mem_map
  rcases findNextDynamicIdFrom_spec (s.dynamicRegistrations.map (·.id)) 0xFFFFFFFF 1 rfl with
    ⟨hzero, hall⟩ | ⟨hle, hfree, hbelow⟩
  · exact .inl ⟨hzero, fun j hj => (hmem j).mp (hall j (one_le_of_ne_zero hj))⟩
  · refine .inr ⟨?_, fun hin => hfree ((hmem _).mpr hin), fun j hj hlt => ?_⟩
    · intro h0
      rw [findNextDynamicId] at h0
      rw [h0] at hle
      exact absurd hle (by decide)
    · exact (hmem j).mp (hbelow j (one_le_of_ne_zero hj) hlt)

/-! ## Calls of the registry -/

/-- The two calls the application has. -/
inductive RegistryCall (F : Type)
  | register (data : RegistrationData (CheckFn F) (ActionFn F)) (unregisterFn : Option F)
    (c : Choices F)
  | unregister (dynamicId : UInt32) (c : Choices F)

/-- **The registry as a machine**: the application's calls in any order,
on an instance as set up, or as any run of requests and registrations left
it. -/
def registry (I : Instance F) : Machine (State F) (RegistryCall F) where
  init := (machine I).Reachable
  Step s e s' :=
    match e with
    | .register data unregisterFn c =>
      IsApplication data ∧
        s' = (udsRegisterEventHandler I c
          { inst := some I.ptr, data := data, unregisterRegistrationFn := unregisterFn.map .app }
          s).2.2
    | .unregister dynamicId c => ∃ ret, udsUnregisterEventHandler c dynamicId s = .ok (ret, s')

/-- **What unregistering an id returns and leaves**: `-ENOENT` for an id
nobody has; for a registration, the error of its own function, or 0 with
exactly that registration gone from the list. -/
def Unregisters (c : Choices F) (id : UInt32) (s : State F) (ret : ℤ) (s' : State F) : Prop :=
  (¬ InUse s id ∧ ret = -ENOENT ∧ s' = s) ∨
  ∃ pre r post, s.dynamicRegistrations = pre ++ r :: post ∧ r.id = id ∧
    ((∃ f, r.reg.unregisterRegistrationFn = some (.app f) ∧ c.unregister f < 0 ∧
        ret = c.unregister f ∧ s' = s) ∨
      (ret = 0 ∧ s'.dynamicRegistrations = pre ++ post))

/-- **Unregistering always returns**, and what is left is owned. -/
theorem unregister_spec (h : Owned I s) (c : Choices F) (id : UInt32) :
    ∃ ret s', udsUnregisterEventHandler c id s = .ok (ret, s') ∧ Owned I s' ∧
      Unregisters c id s ret s' := by
  by_cases hin : InUse s id
  · obtain ⟨r, hr, rfl⟩ := hin
    obtain ⟨pre, post, hsplit⟩ := List.append_of_mem hr
    have hrest := h.filter_of_split hsplit
    cases hd : r.isDefined with
    | true =>
      obtain ⟨t, hrun, howned, hregs, -⟩ := unregister_defined (c := c) h hr hd
      exact ⟨0, t, hrun, howned, .inr ⟨pre, r, post, hsplit, rfl, .inr ⟨rfl, hregs.trans hrest⟩⟩⟩
    | false =>
      by_cases hrefuses : ∃ f, r.reg.unregisterRegistrationFn = some (.app f) ∧ c.unregister f < 0
      · obtain ⟨f, hfn, hneg⟩ := hrefuses
        exact ⟨c.unregister f, s, unregister_refused h hr hfn hneg, h,
          .inr ⟨pre, r, post, hsplit, rfl, .inl ⟨f, hfn, hneg, rfl, rfl⟩⟩⟩
      · have hfn : ∀ f, r.reg.unregisterRegistrationFn = some (.app f) → 0 ≤ c.unregister f := by
          intro f hf
          by_contra hneg
          exact hrefuses ⟨f, hf, not_le.mp hneg⟩
        obtain ⟨t, hrun, howned, hregs, -⟩ := unregister_application h hr hd hfn
        exact ⟨0, t, hrun, howned,
          .inr ⟨pre, r, post, hsplit, rfl, .inr ⟨rfl, hregs.trans hrest⟩⟩⟩
  · have hno : ∀ r ∈ s.dynamicRegistrations, r.id ≠ id := fun r hr hid => hin ⟨r, hr, hid⟩
    exact ⟨-ENOENT, s, unregister_absent hno, h, .inl ⟨hin, rfl, rfl⟩⟩

/-- **What registering returns and leaves**: 0 and the least free id, with
the registration under that id at the end of the list; `-ENOSPC` exactly
with no id free; `-ENOMEM` with no block for it. -/
def Registers (I : Instance F) (c : Choices F) (reg : Reg F) (s : State F) (ret : ℤ) (id : UInt32)
    (s' : State F) : Prop :=
  (ret = 0 ∧ IsLeastFree s id ∧
    ∃ b, s'.dynamicRegistrations = s.dynamicRegistrations ++
      [⟨b, { reg with inst := some I.ptr, dynamicRegistrationId := id }⟩]) ∨
  (ret = -ENOSPC ∧ (∀ j, j ≠ 0 → InUse s j) ∧ s' = s) ∨
  (ret = -ENOMEM ∧ (∃ j, IsLeastFree s j) ∧ c.alloc .heapReg = false ∧ s' = s)

theorem register_spec (I : Instance F) (c : Choices F) (reg : Reg F) (s : State F) :
    Registers I c reg s (udsRegisterEventHandler I c reg s).1
      (udsRegisterEventHandler I c reg s).2.1 (udsRegisterEventHandler I c reg s).2.2 := by
  rcases findNextDynamicId_spec s with ⟨hzero, hall⟩ | hleast
  · have hrun : udsRegisterEventHandler I c reg s = (-ENOSPC, 0, s) := by
      simp [udsRegisterEventHandler, hzero]
    rw [hrun]
    exact .inr (.inl ⟨rfl, hall, rfl⟩)
  · cases hreg : c.alloc .heapReg with
    | true =>
      rw [register_ok reg hleast.1 hreg]
      exact .inl ⟨rfl, hleast, _, rfl⟩
    | false =>
      have hrun : udsRegisterEventHandler I c reg s = (-ENOMEM, 0, s) := by
        simp [udsRegisterEventHandler, hleast.1, State.malloc, hreg]
      rw [hrun]
      exact .inr (.inr ⟨rfl, ⟨_, hleast⟩, hreg, rfl⟩)

/-- What the registrations own survives the calls. -/
theorem owned_of_registry (h : (registry I).Reachable s) : Owned I s := by
  refine Machine.Reachable.invariant (P := Owned I) (fun t h0 => ?_) (fun t e t' howned hstep => ?_)
    h
  · exact (inv_of_reachable h0).toOwned
  · rcases e with ⟨data, fn, c⟩ | ⟨id, c⟩
    · obtain ⟨hdata, rfl⟩ := hstep
      exact owned_register howned hdata fn
    · obtain ⟨ret, hrun⟩ := hstep
      obtain ⟨ret', u, hrun', howned', -⟩ := unregister_spec howned c id
      rw [hrun, Except.ok.injEq, Prod.mk.injEq] at hrun'
      exact hrun'.2 ▸ howned'

/-- **The registry, call after call.** Ids are positive and distinct; a
registration is appended under the least free id, which is returned;
unregistering returns, and with 0 exactly the one registration is gone;
every error leaves the state as it was, and each error has its one
reason. -/
theorem registry_calls (h : (registry I).Reachable s) :
    (∀ r ∈ s.dynamicRegistrations, r.id ≠ 0) ∧ (s.dynamicRegistrations.map (·.id)).Nodup ∧
      (∀ c reg, Registers I c reg s (udsRegisterEventHandler I c reg s).1
        (udsRegisterEventHandler I c reg s).2.1 (udsRegisterEventHandler I c reg s).2.2) ∧
      ∀ c id, ∃ ret s', udsUnregisterEventHandler c id s = .ok (ret, s') ∧
        Unregisters c id s ret s' := by
  have howned := owned_of_registry h
  refine ⟨howned.idsPos, howned.ids, fun c reg => register_spec I c reg s, fun c id => ?_⟩
  obtain ⟨ret, s', hrun, -, hspec⟩ := unregister_spec howned c id
  exact ⟨ret, s', hrun, hspec⟩

/-- The registry once an identifier was defined, and a free id
unregistered. -/
theorem registry_calls_oneIdentifier :
    (registry oneHandler).Reachable oneIdentifier ∧
      oneIdentifier.dynamicRegistrations.map (·.id) = [1] ∧
      ∃ ret s', udsUnregisterEventHandler allSucceed 2 oneIdentifier = .ok (ret, s') ∧
        Unregisters allSucceed 2 oneIdentifier ret s' := by
  have hreach : (registry oneHandler).Reachable oneIdentifier := .init reachable_oneIdentifier
  obtain ⟨-, -, -, hunregister⟩ := registry_calls hreach
  exact ⟨hreach, by decide +kernel, hunregister allSucceed 2⟩

end Dynamic

end Uds

end Ardep
