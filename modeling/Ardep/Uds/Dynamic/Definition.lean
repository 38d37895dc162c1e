import Ardep.Uds.Dynamic.Failure
/-!
# Dynamic — what the identifiers are made of

The purpose of the service in its own terms: each data identifier has a
list of elements, or none. A define request that is accepted adds an
element at the end (`definition_of_define`), and no other event adds one
(`definition_of_step`). After a run of define requests the elements of an
identifier are those that were accepted for it, in their order
(`DefineRun.definition_eq`).
-/

namespace Ardep

namespace Uds

namespace Dynamic

variable {F : Type} {I : Instance F} {c : Choices F} {s s' : State F}

/-! ## Definitions -/

/-- **The elements of an identifier** defined through 0x2C. -/
def definition (s : State F) (x : UInt16) : Option (List DefinedData) :=
  (s.dynamicRegistrations.find? fun r => r.isDefined ∧ r.reg.dataId? = some x).map
    fun r => (s.lists (dataPtr r.reg)).map (·.data)

/-- An identifier has one definition. -/
theorem Owned.definition_eq_some (h : Owned I s) {x : UInt16} {elements : List DefinedData} :
    definition s x = some elements ↔
      ∃ r ∈ s.dynamicRegistrations, r.isDefined = true ∧ r.reg.dataId? = some x ∧
        (s.lists (dataPtr r.reg)).map (·.data) = elements := by
  rw [definition, Option.map_eq_some_iff]
  constructor
  · rintro ⟨r, hfind, rfl⟩
    have hr := List.mem_of_find?_eq_some hfind
    have hp := List.find?_some hfind
    simp only [Bool.decide_and, Bool.decide_eq_true, Bool.and_eq_true, decide_eq_true_eq] at hp
    exact ⟨r, hr, hp.1, hp.2, rfl⟩
  · rintro ⟨r, hr, hd, hx, rfl⟩
    cases hfind : s.dynamicRegistrations.find?
        (fun r => r.isDefined ∧ r.reg.dataId? = some x) with
    | none =>
      have := List.find?_eq_none.mp hfind r hr
      simp [hd, hx] at this
    | some q =>
      have hq := List.mem_of_find?_eq_some hfind
      have hp := List.find?_some hfind
      simp only [Bool.decide_and, Bool.decide_eq_true, Bool.and_eq_true, decide_eq_true_eq] at hp
      rw [h.eq_of_dataId hq hr hp.1 hd (hp.2.trans hx.symm)]
      exact ⟨r, rfl, rfl⟩

theorem Inv.definition_of_existing (h : Inv I s) {x : UInt16} {r : HeapRegistration F}
    (hfind : udsFindExistingRegistrationByDataId I x s = some r) :
    definition s x = some ((s.lists (dataPtr r.reg)).map (·.data)) := by
  obtain ⟨hr, hd, hx⟩ := h.existing_of_some hfind
  exact h.definition_eq_some.mpr ⟨r, hr, hd, hx, rfl⟩

theorem Inv.definition_of_new (h : Inv I s) {x : UInt16}
    (hnew : udsFindExistingRegistrationByDataId I x s = none) : definition s x = none := by
  rw [Option.eq_none_iff_forall_not_mem]
  intro elements hmem
  obtain ⟨r, hr, hd, hx, -⟩ := h.definition_eq_some.mp hmem
  exact h.existing_of_none hnew r hr hd hx

theorem Unchanged.definition_eq (h : Unchanged s s') : definition s' = definition s := by
  funext x
  rw [definition, definition, h.dynamicRegistrations, h.lists]

/-! ## A define request -/

/-- **Another list for an identifier** is another definition of it. -/
theorem definition_of_list (h : Inv I s) (h' : Inv I s') {x : UInt16} {r : HeapRegistration F}
    (hfind : udsFindExistingRegistrationByDataId I x s = some r) {items : List DataItem}
    (hregs : s'.dynamicRegistrations = s.dynamicRegistrations)
    (hlists : s'.lists = Function.update s.lists (dataPtr r.reg) items) :
    definition s' = Function.update (definition s) x (some (items.map (·.data))) := by
  obtain ⟨hr, hd, hx⟩ := h.existing_of_some hfind
  funext z
  refine Option.ext fun elements => ?_
  rw [h'.definition_eq_some, hregs, hlists]
  by_cases hz : z = x
  · subst hz
    rw [Function.update_self, Option.some.injEq]
    constructor
    · rintro ⟨q, hq, hdq, hqz, rfl⟩
      rw [h.eq_of_dataId hq hr hdq hd (hqz.trans hx.symm), Function.update_self]
    · rintro rfl
      exact ⟨r, hr, hd, hx, by rw [Function.update_self]⟩
  · rw [Function.update_of_ne hz, h.definition_eq_some]
    -- another identifier's list is at another block
    have hother : ∀ q ∈ s.dynamicRegistrations, q.isDefined = true → q.reg.dataId? = some z →
        dataPtr q.reg ≠ dataPtr r.reg := by
      intro q hq hdq hqz heq
      have hqr := h.eq_of_block hq hr (dataPtr_mem_regBlocks hdq)
        (heq ▸ dataPtr_mem_regBlocks hd)
      rw [hqr, hx] at hqz
      exact hz (Option.some.inj hqz).symm
    constructor
    · rintro ⟨q, hq, hdq, hqz, rfl⟩
      exact ⟨q, hq, hdq, hqz, by rw [Function.update_of_ne (hother q hq hdq hqz)]⟩
    · rintro ⟨q, hq, hdq, hqz, rfl⟩
      exact ⟨q, hq, hdq, hqz, by rw [Function.update_of_ne (hother q hq hdq hqz)]⟩

theorem definition_defined (h : Inv I s) {x : UInt16} (d : DefinedData)
    (hid : findNextDynamicId s ≠ 0)
    (hnew : udsFindExistingRegistrationByDataId I x s = none) :
    definition (defined I x d s) = Function.update (definition s) x (some [d]) := by
  have h' := inv_defined (d := d) h hid hnew
  have hptr : dataPtr (newRegistration I x s).reg = s.heap.next := rfl
  have hid : (newRegistration I x s).reg.dataId? = some x := rfl
  funext z
  refine Option.ext fun elements => ?_
  rw [h'.definition_eq_some]
  simp only [defined, registered, List.mem_append, List.mem_singleton]
  by_cases hz : z = x
  · subst hz
    rw [Function.update_self, Option.some.injEq]
    constructor
    · rintro ⟨q, hq | rfl, hdq, hqz, rfl⟩
      · exact absurd hqz (h.existing_of_none hnew q hq hdq)
      · rw [hptr, Function.update_self]
        rfl
    · rintro rfl
      exact ⟨_, .inr rfl, isDefined_newRegistration, hid, by rw [hptr, Function.update_self]; rfl⟩
  · rw [Function.update_of_ne hz, h.definition_eq_some]
    have hold : ∀ q ∈ s.dynamicRegistrations, q.isDefined = true →
        dataPtr q.reg ≠ s.heap.next := by
      intro q hq hdq heq
      have hlive := h.held.live _ (mem_blocks_of_reg hq (dataPtr_mem_regBlocks hdq))
      exact s.heap.next_notMem (heq ▸ hlive)
    constructor
    · rintro ⟨q, hq | rfl, hdq, hqz, rfl⟩
      · exact ⟨q, hq, hdq, hqz, by rw [Function.update_of_ne (hold q hq hdq)]⟩
      · rw [hid, Option.some.injEq] at hqz
        exact absurd hqz.symm hz
    · rintro ⟨q, hq, hdq, hqz, rfl⟩
      exact ⟨q, .inl hq, hdq, hqz, by rw [Function.update_of_ne (hold q hq hdq)]⟩

/-- **A define request** that is accepted adds its element at the end; one
that is refused adds none. -/
theorem definition_of_define (h : Inv I s) {x : UInt16} {d : DefinedData} {ret : UDSErr}
    (hrun : udsActionDefaultDynamicallyDefineDataIds I c (defineRequest x d) s = .ok (ret, s')) :
    (ret = .ok ∧ definition s' =
      Function.update (definition s) x (some ((definition s x).getD [] ++ [d]))) ∨
    ret ≠ .ok ∧ (definition s' = definition s ∨
      definition s' = Function.update (definition s) x (some [])) := by
  rw [run_defineRequest] at hrun
  have h' := inv_define h hrun
  rcases define_cases h hrun with
    ⟨r, hfind, hret, rfl⟩ | ⟨hnew, hid, hret, rfl⟩ | ⟨hret, hsame⟩ | ⟨r, hfind, hret, hempty, -⟩
  · refine .inl ⟨hret, ?_⟩
    rw [definition_of_list h h' hfind rfl rfl, h.definition_of_existing hfind]
    simp
  · refine .inl ⟨hret, ?_⟩
    rw [definition_defined h d hid hnew, h.definition_of_new hnew]
    rfl
  · exact .inr ⟨hret, .inl hsame.definition_eq⟩
  · exact .inr ⟨hret, .inr (definition_of_list h h' hfind hempty.dynamicRegistrations
      hempty.lists)⟩

/-! ## Runs -/

/-- Fewer registrations with the lists they had have no other
definitions. -/
theorem definition_of_sublist (h : Inv I s) (h' : Inv I s')
    (hregs : ∀ r ∈ s'.dynamicRegistrations, r.isDefined = true → r ∈ s.dynamicRegistrations)
    (hlists : SameLists s s') {x : UInt16} {elements : List DefinedData}
    (hdef : definition s' x = some elements) : definition s x = some elements := by
  obtain ⟨r, hr, hd, hx, rfl⟩ := h'.definition_eq_some.mp hdef
  exact h.definition_eq_some.mpr ⟨r, hregs r hr hd, hd, hx, by rw [hlists r hr hd]⟩

/-- The registrations and lists a request other than a define leaves. -/
theorem kept_of_clear (h : Inv I s) (hp : I.Present s) {all : Bool} {x : UInt16} {ret : UDSErr}
    (hrun : udsActionDefaultDynamicallyDefineDataIds I c (.clear all x) s = .ok (ret, s')) :
    (∀ r ∈ s'.dynamicRegistrations, r.isDefined = true → r ∈ s.dynamicRegistrations) ∧
      SameLists s s' := by
  cases all with
  | true =>
    obtain ⟨t, ht, -, hregs⟩ := removeAllIds_spec (c := c) h hp
    rw [request_clearAll ht] at hrun
    cases hrun
    have hnone : ∀ r ∈ s'.dynamicRegistrations, r.isDefined ≠ true := by
      intro r hr
      rw [hregs] at hr
      simpa using (List.mem_filter.mp hr).2
    exact ⟨fun r hr hd => absurd hd (hnone r hr), fun r hr hd => absurd hd (hnone r hr)⟩
  | false =>
    obtain ⟨t, ht, -, hregs, -, hlists⟩ := removeSingleId_spec (c := c) h hp x
    rw [request_clearSingle ht] at hrun
    cases hrun
    refine ⟨fun r hr _ => ?_, hlists⟩
    rw [hregs] at hr
    exact (List.mem_filter.mp hr).1

/-- **What an event does to the definitions**: a define request may add an
element at the end of one; otherwise each definition was there, or has no
elements left. -/
theorem definition_of_step (h : Inv I s) {e : Event F} (hstep : (machine I).Step s e s') :
    (∃ x d c, e = .request (defineRequest x d) c ∧ definition s' =
      Function.update (definition s) x (some ((definition s x).getD [] ++ [d]))) ∨
    ∀ z elements, definition s' z = some elements →
      definition s z = some elements ∨ elements = [] := by
  rcases e with ⟨args, c⟩ | ⟨data, fn, c⟩
  · obtain ⟨hp, ret, hrun⟩ := hstep
    have h' := inv_request h hp hrun
    have hdefine : ∀ x d, args = defineRequest x d →
        (∃ y d' c', Event.request args c = .request (defineRequest y d') c' ∧ definition s' =
          Function.update (definition s) y (some ((definition s y).getD [] ++ [d']))) ∨
        ∀ z elements, definition s' z = some elements →
          definition s z = some elements ∨ elements = [] := by
      rintro x d rfl
      -- accepted, refused without a trace, or refused with the definition emptied
      rcases definition_of_define h hrun with ⟨-, hdef⟩ | ⟨-, hdef | hdef⟩
      · exact .inl ⟨x, d, c, rfl, hdef⟩
      · exact .inr fun z elements hz => .inl (hdef ▸ hz)
      · refine .inr fun z elements hz => ?_
        rw [hdef] at hz
        by_cases hzx : z = x
        · rw [hzx, Function.update_self, Option.some.injEq] at hz
          exact .inr hz.symm
        · rw [Function.update_of_ne hzx] at hz
          exact .inl hz
    cases args with
    | defineById x source position size => exact hdefine x (.id source position size) rfl
    | defineByMemAddress x memAddr memSize => exact hdefine x (.memory memAddr memSize) rfl
    | clear all x =>
      obtain ⟨hregs, hlists⟩ := kept_of_clear h hp hrun
      exact .inr fun z elements hz => .inl (definition_of_sublist h h' hregs hlists hz)
    | other type =>
      cases hrun
      exact .inr fun z elements hz => .inl hz
  · obtain ⟨hdata, rfl⟩ := hstep
    refine .inr fun z elements hz => .inl ?_
    by_cases hok : findNextDynamicId s ≠ 0 ∧ c.alloc .heapReg = true
    · have h' := inv_register (c := c) h hdata fn
      rw [register_ok _ hok.1 hok.2] at h' hz
      refine definition_of_sublist h h' (fun r hr hd => ?_) (fun r _ _ => rfl) hz
      rcases List.mem_append.mp hr with hr | hr
      · exact hr
      · rw [List.mem_singleton.mp hr] at hd
        cases fn <;> cases hd
    · obtain ⟨ret, -, hrun⟩ := register_fails (I := I)
        { inst := some I.ptr, data := data, unregisterRegistrationFn := fn.map .app } hok
      rwa [hrun] at hz

/-! ## Runs of define requests -/

/-- **A run of define requests**, with the elements that were accepted, in
their order. A request that is refused does not come to a cleanup that
goes wrong. -/
inductive DefineRun (I : Instance F) : List (UInt16 × DefinedData) → State F → Prop
  | init {s : State F} : (machine I).init s → DefineRun I [] s
  | accepted {s s' : State F} {log : List (UInt16 × DefinedData)} {x : UInt16} {d : DefinedData}
    {c : Choices F} : DefineRun I log s →
    udsActionDefaultDynamicallyDefineDataIds I c (defineRequest x d) s = .ok (.ok, s') →
    DefineRun I (log ++ [(x, d)]) s'
  | refused {s s' : State F} {log : List (UInt16 × DefinedData)} {x : UInt16} {d : DefinedData}
    {c : Choices F} {ret : UDSErr} : DefineRun I log s → FailsCleanly I c x s →
    udsActionDefaultDynamicallyDefineDataIds I c (defineRequest x d) s = .ok (ret, s') →
    ret ≠ .ok → DefineRun I log s'

/-- The elements accepted for an identifier. -/
def elementsFor (log : List (UInt16 × DefinedData)) (x : UInt16) : List DefinedData :=
  (log.filter fun entry => entry.1 = x).map (·.2)

theorem elementsFor_append_self (log : List (UInt16 × DefinedData)) (x : UInt16)
    (d : DefinedData) : elementsFor (log ++ [(x, d)]) x = elementsFor log x ++ [d] := by
  simp [elementsFor]

theorem elementsFor_append_of_ne (log : List (UInt16 × DefinedData)) {x z : UInt16}
    (d : DefinedData) (hz : z ≠ x) : elementsFor (log ++ [(x, d)]) z = elementsFor log z := by
  simp [elementsFor, hz.symm]

theorem elementsFor_map (x : UInt16) (elements : List DefinedData) :
    elementsFor (elements.map fun d => (x, d)) x = elements := by
  induction elements with
  | nil => rfl
  | cons d rest ih => simpa [elementsFor] using ih

theorem mem_of_mem_elementsFor {log : List (UInt16 × DefinedData)} {x : UInt16} {d : DefinedData}
    (h : d ∈ elementsFor log x) : (x, d) ∈ log := by
  obtain ⟨⟨z, d'⟩, hfilter, rfl⟩ := List.mem_map.mp h
  obtain ⟨hlog, hz⟩ := List.mem_filter.mp hfilter
  obtain rfl : z = x := by simpa using hz
  exact hlog

namespace DefineRun

variable {log : List (UInt16 × DefinedData)}

/-- A refused request of the run changes nothing. -/
theorem unchanged_of_refused (h : Inv I s) {x : UInt16} {d : DefinedData} {ret : UDSErr}
    (hclean : FailsCleanly I c x s)
    (hrun : udsActionDefaultDynamicallyDefineDataIds I c (defineRequest x d) s = .ok (ret, s'))
    (hret : ret ≠ .ok) : Unchanged s s' := by
  obtain ⟨ret', t, hrun', hsame⟩ := define_of_failsCleanly h d hclean
  rw [hrun, Except.ok.injEq, Prod.mk.injEq] at hrun'
  obtain ⟨rfl, rfl⟩ := hrun'
  exact hsame hret

theorem inv (h : DefineRun I log s) : Inv I s := by
  induction h with
  | init h0 => exact inv_init h0
  | accepted _ hrun ih => exact inv_define ih (run_defineRequest _ _ ▸ hrun)
  | refused _ _ hrun _ ih => exact inv_define ih (run_defineRequest _ _ ▸ hrun)

/-- **The definitions are what was accepted**, in its order. -/
theorem definition_eq (h : DefineRun I log s) (z : UInt16) :
    definition s z = if elementsFor log z = [] then none else some (elementsFor log z) := by
  induction h with
  | init h0 => simp [definition, h0.2.2, elementsFor]
  | @accepted s s' log x d c hprev hrun ih =>
    rcases definition_of_define hprev.inv hrun with ⟨-, hdef⟩ | ⟨hne, -⟩
    · rw [hdef]
      by_cases hz : z = x
      · subst hz
        rw [Function.update_self, elementsFor_append_self, if_neg (by simp), ih]
        split
        · next hnil => simp [hnil]
        · simp
      · rw [Function.update_of_ne hz, elementsFor_append_of_ne log d hz, ih]
    · exact absurd rfl hne
  | refused hprev hclean hrun hret ih =>
    rw [(unchanged_of_refused hprev.inv hclean hrun hret).definition_eq, ih]

/-- Every registration was made by 0x2C. -/
theorem isDefined (h : DefineRun I log s) : ∀ r ∈ s.dynamicRegistrations, r.isDefined = true := by
  induction h with
  | init h0 => simp [h0.2.2]
  | @accepted s s' log x d c hprev hrun ih =>
    rw [run_defineRequest] at hrun
    rcases define_cases hprev.inv hrun with
      ⟨r, -, -, rfl⟩ | ⟨-, -, -, rfl⟩ | ⟨hne, -⟩ | ⟨r, -, hne, -, -⟩
    · exact ih
    · intro r hr
      rcases List.mem_append.mp hr with hr | hr
      · exact ih r hr
      · rw [List.mem_singleton.mp hr]
        exact isDefined_newRegistration
    · exact absurd rfl hne
    · exact absurd rfl hne
  | refused hprev hclean hrun hret ih =>
    rw [(unchanged_of_refused hprev.inv hclean hrun hret).dynamicRegistrations]
    exact ih

/-- A registration is for a data identifier that was accepted. -/
theorem mem_log_of_dataId (h : DefineRun I log s) {r : HeapRegistration F}
    (hr : r ∈ s.dynamicRegistrations) {x : UInt16} (hx : r.reg.dataId? = some x) :
    ∃ d, (x, d) ∈ log := by
  have hdef := h.inv.definition_eq_some.mpr ⟨r, hr, h.isDefined r hr, hx, rfl⟩
  rw [h.definition_eq] at hdef
  split at hdef
  · cases hdef
  · next hne =>
    obtain ⟨d, hd⟩ := List.exists_mem_of_ne_nil _ hne
    exact ⟨d, mem_of_mem_elementsFor hd⟩

end DefineRun

theorem defineRun_setUp (I : Instance ℕ) (x : UInt16) (d : DefinedData) :
    DefineRun I [(x, d)] (defined I x d setUp) :=
  .accepted (c := allSucceed) (.init ⟨rfl, rfl, rfl⟩)
    ((run_defineRequest x d).trans (define_setUp I x d))

theorem reachable_setUp (I : Instance ℕ) (hp : I.handler ∈ staticHandlers I) (x : UInt16)
    (d : DefinedData) : (machine I).Reachable (defined I x d setUp) :=
  .step (s := setUp) (e := .request (defineRequest x d) allSucceed) (.init ⟨rfl, rfl, rfl⟩)
    ⟨.inl hp, .ok, (run_defineRequest x d).trans (define_setUp I x d)⟩

end Dynamic

end Uds

end Ardep
