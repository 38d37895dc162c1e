import Ardep.Uds.Dynamic.Define
/-!
# Dynamic — clearing identifiers

Clearing one identifier unregisters the first DATA_IDENTIFIER registration
with its data id, whoever made it; defining looks for one that is tracked.
`removeSingleId_spec` and `removeAllIds_spec` say what is left, and with
the define requests they keep the invariant along every run.

`clearsExactly_iff` is when a clear does what it should.
-/

namespace Ardep

namespace Uds

namespace Dynamic

variable {F : Type} {I : Instance F} {c : Choices F} {s s' : State F}

/-! ## Tracking items -/

section Items

variable (drop : RegistrationIdItem → Bool)

/-- A handler that tracks nothing has nothing to remove. -/
theorem removeIdItems_of_ne (h : Owned I s) {ptr : RegistrationPtr} (hptr : ptr ≠ I.handler) :
    removeIdItems drop s ptr = .ok s := by
  have hnil := h.others ptr hptr
  have hsame : Function.update s.idLists ptr [] = s.idLists := by
    rw [← hnil, Function.update_eq_self]
  simp [removeIdItems, hnil, Ledger.freeAll, hsame, bind, Except.bind, pure, Except.pure]

/-- Removing items of the serving handler. -/
theorem removeIdItems_handler (h : Owned I s) :
    ∃ s', removeIdItems drop s I.handler = .ok s' ∧ Owned I s' ∧
      s'.dynamicRegistrations = s.dynamicRegistrations ∧ s'.lists = s.lists ∧
      s'.idLists I.handler = (s.idLists I.handler).filter fun item => !drop item := by
  have hperm : (blocks I s).Perm
      (((s.idLists I.handler).filter drop).map (·.addr) ++
        (s.dynamicRegistrations.flatMap (regBlocks s.lists) ++
          ((s.idLists I.handler).filter fun item => !drop item).map (·.addr))) := by
    have hitems := (List.filter_append_perm drop (s.idLists I.handler)).symm.map (·.addr)
    rw [List.map_append] at hitems
    exact (hitems.append_left _).trans (by
      rw [← List.append_assoc, ← List.append_assoc]
      exact List.perm_append_comm.append_right _)
  obtain ⟨heap, hfree, hheld, -, -⟩ := (h.held.perm hperm).freeAll
  refine ⟨{ s with
    heap := heap
    idLists := Function.update s.idLists I.handler
      ((s.idLists I.handler).filter fun item => !drop item) }, ?_, ?_, rfl, rfl,
    Function.update_self ..⟩
  · simp [removeIdItems, hfree, bind, Except.bind, pure, Except.pure]
  · refine ⟨h.ids, h.idsPos, h.shape, h.application, h.dataIds, fun ptr hptr => ?_, ?_,
      h.supported⟩
    · exact (Function.update_of_ne hptr _ _).trans (h.others ptr hptr)
    · simp only [blocks, Function.update_self]
      exact hheld

/-- **A walk over handlers** removes the items of the serving one, if it
comes by. -/
theorem foldlM_removeIdItems : ∀ (ptrs : List RegistrationPtr) (s : State F), Owned I s →
    ∃ s', ptrs.foldlM (removeIdItems drop) s = .ok s' ∧ Owned I s' ∧
      s'.dynamicRegistrations = s.dynamicRegistrations ∧ s'.lists = s.lists ∧
      s'.idLists I.handler =
        if I.handler ∈ ptrs then (s.idLists I.handler).filter fun item => !drop item
        else s.idLists I.handler := by
  intro ptrs
  induction ptrs with
  | nil => intro s h; exact ⟨s, rfl, h, rfl, rfl, rfl⟩
  | cons ptr ptrs ih =>
    intro s h
    by_cases hptr : ptr = I.handler
    · subst hptr
      obtain ⟨s₁, hrun, h₁, hregs, hlists, hids⟩ := removeIdItems_handler drop h
      obtain ⟨s₂, hrun₂, h₂, hregs₂, hlists₂, hids₂⟩ := ih s₁ h₁
      refine ⟨s₂, ?_, h₂, hregs₂.trans hregs, hlists₂.trans hlists, ?_⟩
      · rw [List.foldlM_cons, hrun]
        exact hrun₂
      · rw [hids₂, hids, if_pos List.mem_cons_self, List.filter_filter]
        simp
    · obtain ⟨s₂, hrun₂, h₂, hregs₂, hlists₂, hids₂⟩ := ih s h
      refine ⟨s₂, ?_, h₂, hregs₂, hlists₂, ?_⟩
      · rw [List.foldlM_cons, removeIdItems_of_ne drop h hptr]
        exact hrun₂
      · rw [hids₂]
        simp [Ne.symm hptr]

/-- **Removing items everywhere** removes them from the serving handler,
which is there. -/
theorem removeIdItemsEverywhere_spec (h : Owned I s) (hp : I.Present s) :
    ∃ s', removeIdItemsEverywhere I drop s = .ok s' ∧ Owned I s' ∧
      s'.dynamicRegistrations = s.dynamicRegistrations ∧ s'.lists = s.lists ∧
      s'.idLists I.handler = (s.idLists I.handler).filter fun item => !drop item := by
  obtain ⟨s₁, hrun₁, h₁, hregs₁, hlists₁, hids₁⟩ :=
    foldlM_removeIdItems drop (staticHandlers I) s h
  obtain ⟨s₂, hrun₂, h₂, hregs₂, hlists₂, hids₂⟩ :=
    foldlM_removeIdItems drop (dynamicHandlers s₁) s₁ h₁
  refine ⟨s₂, ?_, h₂, hregs₂.trans hregs₁, hlists₂.trans hlists₁, ?_⟩
  · simp only [removeIdItemsEverywhere, hrun₁, bind, Except.bind]
    exact hrun₂
  · have hhandlers : dynamicHandlers s₁ = dynamicHandlers s := by
      rw [dynamicHandlers, dynamicHandlers, hregs₁]
    rw [hids₂, hids₁, hhandlers]
    rcases hp with hstatic | hdynamic
    · simp [hstatic]
    · simp only [hdynamic, if_true]
      split_ifs <;> simp

end Items

/-! ## Clearing one identifier -/

/-- The application's unregister function refuses. -/
def refuses (c : Choices F) (r : HeapRegistration F) : Bool :=
  match r.reg.unregisterRegistrationFn with
  | some (.app f) => decide (c.unregister f < 0)
  | _ => false

/-- The first DATA_IDENTIFIER registration with the data id. -/
def firstWithDataId (x : UInt16) (s : State F) : Option (HeapRegistration F) :=
  s.dynamicRegistrations.find? fun r => r.reg.dataId? = some x

/-- The id of the registration a clear request removes. -/
def clearedId (c : Choices F) (x : UInt16) (s : State F) : Option UInt32 :=
  match firstWithDataId x s with
  | some r => if refuses c r then none else some r.id
  | none => none

theorem refuses_of_isDefined {r : HeapRegistration F} (hd : r.isDefined = true) :
    refuses c r = false := by
  unfold HeapRegistration.isDefined at hd
  unfold refuses
  split at hd
  · next heq => rw [heq]
  · cases hd

/-- A registration's id is tracked only if 0x2C made it. -/
theorem Inv.filter_tracked_of_application (h : Inv I s) {r : HeapRegistration F}
    (hr : r ∈ s.dynamicRegistrations) (hd : r.isDefined = false) :
    (s.idLists I.handler).filter (fun item => !decide (item.dynamicRegistrationId = r.id)) =
      s.idLists I.handler := by
  refine List.filter_eq_self.mpr fun item hitem => ?_
  have hnot : ¬ Tracked I s r.id := by
    rw [h.tracked_iff hr, hd]; decide
  simpa using fun heq => hnot ⟨item, hitem, heq⟩

/-- The invariant where a registration and its tracking item are gone
together. -/
theorem Inv.of_filter (h : Inv I s) (keep : UInt32 → Bool) (howned : Owned I s')
    (hregs : s'.dynamicRegistrations = s.dynamicRegistrations.filter fun q => keep q.id)
    (hids : s'.idLists I.handler =
      (s.idLists I.handler).filter fun item => keep item.dynamicRegistrationId) : Inv I s' := by
  refine ⟨howned, ?_⟩
  have hmap : ((s.idLists I.handler).filter fun item => keep item.dynamicRegistrationId).map
      (·.dynamicRegistrationId) =
        ((s.idLists I.handler).map (·.dynamicRegistrationId)).filter keep := by
    rw [List.filter_map]; rfl
  rw [hids, hregs, hmap, h.tracked, List.filter_map, List.filter_filter, List.filter_filter]
  congr 1
  refine List.filter_congr fun q _ => ?_
  simp [Function.comp, Bool.and_comm]

/-- The serving handler is still there when registrations of other types
go. -/
theorem present_of_filter {keep : HeapRegistration F → Bool} (hp : I.Present s)
    (hregs : s'.dynamicRegistrations = s.dynamicRegistrations.filter keep)
    (hkeep : ∀ q ∈ s.dynamicRegistrations, q.reg.type = .dynamicDefineDataIds → keep q = true) :
    I.Present s' := by
  refine hp.imp id fun hdyn => ?_
  obtain ⟨q, hq, heq⟩ := List.mem_map.mp hdyn
  obtain ⟨hmem, htype⟩ := List.mem_filter.mp hq
  refine List.mem_map.mpr ⟨q, List.mem_filter.mpr ⟨?_, htype⟩, heq⟩
  rw [hregs]
  exact List.mem_filter.mpr ⟨hmem, hkeep q hmem (by simpa using htype)⟩

/-- The lists of the registrations that are left. -/
def SameLists (s s' : State F) : Prop :=
  ∀ q ∈ s'.dynamicRegistrations, q.isDefined = true →
    s'.lists (dataPtr q.reg) = s.lists (dataPtr q.reg)

theorem mem_of_firstWithDataId {x : UInt16} {r : HeapRegistration F}
    (hfind : firstWithDataId x s = some r) :
    r ∈ s.dynamicRegistrations ∧ r.reg.dataId? = some x :=
  ⟨List.mem_of_find?_eq_some hfind, by simpa using List.find?_some hfind⟩

/-- Unregistering the first registration with a data id. -/
theorem unregister_first (h : Owned I s) {x : UInt16} {r : HeapRegistration F}
    (hfind : firstWithDataId x s = some r) :
    ∃ ret s', udsUnregisterEventHandler c r.id s = .ok (ret, s') ∧ Owned I s' ∧
      s'.dynamicRegistrations =
        s.dynamicRegistrations.filter (fun q => clearedId c x s ≠ some q.id) ∧
      s'.idLists = s.idLists ∧ SameLists s s' := by
  obtain ⟨hr, -⟩ := mem_of_firstWithDataId hfind
  have hother : ∀ keep : UInt32 → Prop, [DecidablePred keep] → (∀ i, keep i ↔ i ≠ r.id) →
      s.dynamicRegistrations.filter (fun q => q.id ≠ r.id) =
        s.dynamicRegistrations.filter (fun q => keep q.id) := fun keep _ hkeep =>
    List.filter_congr fun q _ => by simp [hkeep]
  cases hd : r.isDefined with
  | true =>
    -- the library's own unregister function does not refuse
    have hcleared : clearedId c x s = some r.id := by
      simp [clearedId, hfind, refuses_of_isDefined hd]
    obtain ⟨s', hrun, howned, hregs, hids, hlists, -⟩ := unregister_defined (c := c) h hr hd
    refine ⟨0, s', hrun, howned, ?_, hids, fun q hq hdq => ?_⟩
    · rw [hregs, hcleared]
      exact hother (fun i => some r.id ≠ some i) fun i => by simp [eq_comm]
    · have hmem : q ∈ s.dynamicRegistrations ∧ q.id ≠ r.id := by
        rw [hregs] at hq
        simpa using hq
      have hptr : dataPtr q.reg ≠ dataPtr r.reg := by
        intro heq
        have := h.eq_of_block hmem.1 hr (dataPtr_mem_regBlocks hdq)
          (heq ▸ dataPtr_mem_regBlocks hd)
        exact hmem.2 (by rw [this])
      rw [hlists, Function.update_of_ne hptr]
  | false =>
    cases href : refuses c r with
    | true =>
      have hcleared : clearedId c x s = none := by simp [clearedId, hfind, href]
      obtain ⟨f, hfn, hneg⟩ : ∃ f, r.reg.unregisterRegistrationFn = some (.app f) ∧
          c.unregister f < 0 := by
        unfold refuses at href
        split at href
        · next f heq => exact ⟨f, heq, by simpa using href⟩
        · cases href
      refine ⟨_, s, unregister_refused h hr hfn hneg, h, ?_, rfl, fun _ _ _ => rfl⟩
      rw [hcleared]
      simp
    | false =>
      have hcleared : clearedId c x s = some r.id := by simp [clearedId, hfind, href]
      obtain ⟨s', hrun, howned, hregs, hids, hlists, -⟩ :=
        unregister_application (c := c) h hr hd fun f hfn => by
          simp only [refuses, hfn, decide_eq_false_iff_not, not_lt] at href
          exact href
      refine ⟨0, s', hrun, howned, ?_, hids, fun q _ _ => by rw [hlists]⟩
      rw [hregs, hcleared]
      exact hother (fun i => some r.id ≠ some i) fun i => by simp [eq_comm]

/-- An id that was given out is not 0, so no item is taken for it. -/
theorem Inv.filter_zero (h : Inv I s) :
    (s.idLists I.handler).filter (fun item => !decide (item.dynamicRegistrationId = 0)) =
      s.idLists I.handler := by
  refine List.filter_eq_self.mpr fun item hitem => ?_
  have hmem : item.dynamicRegistrationId ∈
      (s.dynamicRegistrations.filter (·.isDefined)).map (·.id) := by
    rw [← h.tracked]
    exact List.mem_map_of_mem hitem
  obtain ⟨q, hq, hid⟩ := List.mem_map.mp hmem
  have hpos := h.idsPos q (List.mem_filter.mp hq).1
  simpa [← hid] using hpos

/-- The items of the first registration with a data id are those of the
cleared one: a registration that refuses is the application's, and its id
is not tracked. -/
theorem Inv.filter_first (h : Inv I s) {x : UInt16} {r : HeapRegistration F}
    (hfind : firstWithDataId x s = some r) :
    (s.idLists I.handler).filter (fun item => !decide (item.dynamicRegistrationId = r.id)) =
      (s.idLists I.handler).filter
        (fun item => clearedId c x s ≠ some item.dynamicRegistrationId) := by
  obtain ⟨hr, -⟩ := mem_of_firstWithDataId hfind
  simp only [clearedId, hfind]
  split_ifs with href
  · have hd : r.isDefined = false := by
      by_contra hne
      rw [refuses_of_isDefined (by simpa using hne)] at href
      cases href
    rw [h.filter_tracked_of_application hr hd]
    simp
  · exact List.filter_congr fun item _ => by simp [eq_comm]

/-- The registration of 0x2C is still there when the first registration with
a data id is gone, for it has none. -/
theorem Inv.present_of_first (h : Inv I s) (hp : I.Present s) {x : UInt16} {r : HeapRegistration F}
    (hfind : firstWithDataId x s = some r) {s₁ : State F}
    (hregs : s₁.dynamicRegistrations =
      s.dynamicRegistrations.filter (fun q => clearedId c x s ≠ some q.id)) : I.Present s₁ := by
  obtain ⟨hr, hx⟩ := mem_of_firstWithDataId hfind
  refine present_of_filter hp hregs fun q hq htype => ?_
  have hne : q.id ≠ r.id := by
    intro hid
    rw [h.eq_of_id hq hr hid, Registration.type_of_dataId? hx] at htype
    cases htype
  simp only [clearedId, hfind]
  split_ifs
  · simp
  · simpa using Ne.symm hne

/-- **Clearing one identifier**: the registration `clearedId` names is
gone, with its tracking item if it has one. -/
theorem removeSingleId_spec (h : Inv I s) (hp : I.Present s) (x : UInt16) :
    ∃ s', udsDynamicallyDefineDataByIdRemoveSingleId I c x s = .ok s' ∧ Inv I s' ∧
      s'.dynamicRegistrations =
        s.dynamicRegistrations.filter (fun q => clearedId c x s ≠ some q.id) ∧
      s'.idLists I.handler = (s.idLists I.handler).filter
        (fun item => clearedId c x s ≠ some item.dynamicRegistrationId) ∧ SameLists s s' := by
  cases hfind : firstWithDataId x s with
  | none =>
    have hcleared : clearedId c x s = none := by simp [clearedId, hfind]
    obtain ⟨s', hrun, howned, hregs, hlists, hids⟩ := removeIdItemsEverywhere_spec
      (fun item => item.dynamicRegistrationId = 0) h.toOwned hp
    rw [h.filter_zero] at hids
    refine ⟨s', ?_, ?_, ?_, ?_, fun q _ _ => by rw [hlists]⟩
    · unfold firstWithDataId at hfind
      simp only [udsDynamicallyDefineDataByIdRemoveSingleId, hfind, bind, Except.bind, pure,
        Except.pure]
      exact hrun
    · exact h.of_filter (fun _ => true) howned (by simpa using hregs) (by simpa using hids)
    · rw [hregs, hcleared]; simp
    · rw [hids, hcleared]; simp
  | some r =>
    obtain ⟨ret, s₁, hrun₁, h₁, hregs₁, hids₁, hlists₁⟩ :=
      unregister_first (c := c) h.toOwned hfind
    obtain ⟨s₂, hrun₂, h₂, hregs₂, hlists₂, hids₂⟩ := removeIdItemsEverywhere_spec
      (fun item => item.dynamicRegistrationId = r.id) h₁ (h.present_of_first hp hfind hregs₁)
    have hids : s₂.idLists I.handler = (s.idLists I.handler).filter
        (fun item => clearedId c x s ≠ some item.dynamicRegistrationId) := by
      rw [hids₂, hids₁, h.filter_first hfind]
    refine ⟨s₂, ?_, ?_, hregs₂.trans hregs₁, hids, fun q hq hd => ?_⟩
    · unfold firstWithDataId at hfind
      simp only [udsDynamicallyDefineDataByIdRemoveSingleId, hfind, hrun₁, bind, Except.bind,
        pure, Except.pure]
      exact hrun₂
    · exact h.of_filter (fun i => decide (clearedId c x s ≠ some i)) h₂
        (hregs₂.trans hregs₁) hids
    · rw [hlists₂]
      exact hlists₁ q (hregs₂ ▸ hq) hd

/-! ## Clearing all identifiers -/

/-- Only registrations of 0x2C have an id the item tracks. -/
def TracksDefined (s : State F) (items : List RegistrationIdItem) : Prop :=
  ∀ item ∈ items, ∀ r ∈ s.dynamicRegistrations, r.id = item.dynamicRegistrationId →
    r.isDefined = true

/-- One tracked id unregistered. -/
theorem unregister_tracked (h : Owned I s) {i : UInt32}
    (hi : ∀ r ∈ s.dynamicRegistrations, r.id = i → r.isDefined = true) :
    ∃ ret s', udsUnregisterEventHandler c i s = .ok (ret, s') ∧ Owned I s' ∧
      s'.idLists = s.idLists ∧
      s'.dynamicRegistrations = s.dynamicRegistrations.filter fun q => q.id ≠ i := by
  by_cases hex : ∃ r ∈ s.dynamicRegistrations, r.id = i
  · obtain ⟨r, hr, rfl⟩ := hex
    obtain ⟨s', hrun, howned, hregs, hids, -, -⟩ :=
      unregister_defined (c := c) h hr (hi r hr rfl)
    exact ⟨0, s', hrun, howned, hids, hregs⟩
  · have hno : ∀ r ∈ s.dynamicRegistrations, r.id ≠ i := fun r hr heq => hex ⟨r, hr, heq⟩
    refine ⟨_, s, unregister_absent hno, h, rfl, ?_⟩
    exact (List.filter_eq_self.mpr fun q hq => by simpa using hno q hq).symm

/-- **Every id of a list of items unregistered.** -/
theorem foldlM_unregister : ∀ (items : List RegistrationIdItem) (s : State F), Owned I s →
    TracksDefined s items →
    ∃ s', items.foldlM (fun s item => do
        let (_, s) ← udsUnregisterEventHandler c item.dynamicRegistrationId s
        pure s) s = .ok s' ∧ Owned I s' ∧ s'.idLists = s.idLists ∧
      s'.dynamicRegistrations = s.dynamicRegistrations.filter
        fun q => q.id ∉ items.map (·.dynamicRegistrationId) := by
  intro items
  induction items with
  | nil => intro s h _; exact ⟨s, rfl, h, rfl, by simp⟩
  | cons item items ih =>
    intro s h htracks
    obtain ⟨ret, s₁, hrun₁, h₁, hids₁, hregs₁⟩ :=
      unregister_tracked (c := c) h (htracks item List.mem_cons_self)
    have hsub : ∀ r ∈ s₁.dynamicRegistrations, r ∈ s.dynamicRegistrations := fun r hr => by
      rw [hregs₁] at hr; exact (List.mem_filter.mp hr).1
    obtain ⟨s₂, hrun₂, h₂, hids₂, hregs₂⟩ := ih s₁ h₁ fun j hj r hr =>
      htracks j (List.mem_cons_of_mem _ hj) r (hsub r hr)
    refine ⟨s₂, ?_, h₂, hids₂.trans hids₁, ?_⟩
    · rw [List.foldlM_cons, hrun₁]
      exact hrun₂
    · rw [hregs₂, hregs₁, List.filter_filter]
      refine List.filter_congr fun q _ => ?_
      simp [Bool.and_comm]

/-- **A walk over handlers** unregisters what the serving one tracks, if
it comes by. -/
theorem foldlM_unregisterTracked : ∀ (ptrs : List RegistrationPtr) (s : State F), Owned I s →
    TracksDefined s (s.idLists I.handler) →
    ∃ s', ptrs.foldlM (unregisterTracked c) s = .ok s' ∧ Owned I s' ∧
      s'.idLists = s.idLists ∧
      s'.dynamicRegistrations = s.dynamicRegistrations.filter fun q =>
        I.handler ∉ ptrs ∨ q.id ∉ (s.idLists I.handler).map (·.dynamicRegistrationId) := by
  intro ptrs
  induction ptrs with
  | nil => intro s h _; exact ⟨s, rfl, h, rfl, by simp⟩
  | cons ptr ptrs ih =>
    intro s h htracks
    by_cases hptr : ptr = I.handler
    · subst hptr
      obtain ⟨s₁, hrun₁, h₁, hids₁, hregs₁⟩ :=
        foldlM_unregister (c := c) (s.idLists I.handler) s h htracks
      have htracks₁ : TracksDefined s₁ (s₁.idLists I.handler) := fun item hitem r hr => by
        rw [hids₁] at hitem
        rw [hregs₁] at hr
        exact htracks item hitem r (List.mem_filter.mp hr).1
      obtain ⟨s₂, hrun₂, h₂, hids₂, hregs₂⟩ := ih s₁ h₁ htracks₁
      refine ⟨s₂, ?_, h₂, hids₂.trans hids₁, ?_⟩
      · rw [List.foldlM_cons, unregisterTracked, hrun₁]
        exact hrun₂
      · rw [hregs₂, hregs₁, hids₁, List.filter_filter]
        refine List.filter_congr fun q _ => ?_
        by_cases hq : q.id ∈ (s.idLists I.handler).map (·.dynamicRegistrationId) <;> simp [hq]
    · obtain ⟨s₂, hrun₂, h₂, hids₂, hregs₂⟩ := ih s h htracks
      refine ⟨s₂, ?_, h₂, hids₂, ?_⟩
      · rw [List.foldlM_cons, unregisterTracked, h.others ptr hptr]
        exact hrun₂
      · rw [hregs₂]
        simp [Ne.symm hptr]

theorem type_of_isDefined (h : Owned I s) {r : HeapRegistration F}
    (hr : r ∈ s.dynamicRegistrations) (hd : r.isDefined = true) :
    r.reg.type = .dataIdentifier := by
  obtain ⟨x, p, hreg⟩ := h.shape r hr hd
  rw [hreg]
  rfl

/-- **Clearing all identifiers** leaves the application's registrations
and no tracking item. -/
theorem removeAllIds_spec (h : Inv I s) (hp : I.Present s) :
    ∃ s', udsDynamicallyDefineDataByIdRemoveAllIds I c s = .ok s' ∧ Inv I s' ∧
      s'.dynamicRegistrations = s.dynamicRegistrations.filter fun q => !q.isDefined := by
  have htracked : ∀ q ∈ s.dynamicRegistrations,
      (q.id ∈ (s.idLists I.handler).map (·.dynamicRegistrationId) ↔ q.isDefined = true) := by
    intro q hq
    rw [← h.tracked_iff hq, List.mem_map]
    rfl
  have htracks : TracksDefined s (s.idLists I.handler) := fun item hitem r hr hid =>
    (htracked r hr).mp (hid ▸ List.mem_map_of_mem hitem)
  obtain ⟨s₁, hrun₁, h₁, hids₁, hregs₁⟩ :=
    foldlM_unregisterTracked (c := c) (staticHandlers I) s h.toOwned htracks
  have htracks₁ : TracksDefined s₁ (s₁.idLists I.handler) := fun item hitem r hr => by
    rw [hids₁] at hitem
    rw [hregs₁] at hr
    exact htracks item hitem r (List.mem_filter.mp hr).1
  obtain ⟨s₂, hrun₂, h₂, hids₂, hregs₂⟩ :=
    foldlM_unregisterTracked (c := c) (dynamicHandlers s₁) s₁ h₁ htracks₁
  -- the handler itself is not a data identifier, so it is there for both walks
  have hkeep : ∀ q ∈ s.dynamicRegistrations, q.reg.type = .dynamicDefineDataIds →
      q.id ∉ (s.idLists I.handler).map (·.dynamicRegistrationId) := by
    intro q hq htype hmem
    rw [type_of_isDefined h.toOwned hq ((htracked q hq).mp hmem)] at htype
    cases htype
  have hp₁ : I.Present s₁ :=
    present_of_filter hp hregs₁ fun q hq htype => by simp [hkeep q hq htype]
  have hregs : s₂.dynamicRegistrations = s.dynamicRegistrations.filter fun q => !q.isDefined := by
    rw [hregs₂, hregs₁, hids₁, List.filter_filter]
    refine List.filter_congr fun q hq => ?_
    rw [Bool.eq_iff_iff]
    simp only [htracked q hq, Bool.decide_or, Bool.and_eq_true, Bool.or_eq_true,
      decide_eq_true_eq, Bool.not_eq_true']
    rcases hp₁ with hs | hd
    · simpa [hs] using Or.inr
    · simpa [hd] using Or.inr
  have hp₂ : I.Present s₂ :=
    present_of_filter hp hregs fun q hq htype => by
      have := mt (htracked q hq).mpr (hkeep q hq htype)
      simpa using this
  obtain ⟨s₃, hrun₃, h₃, hregs₃, -, hids₃⟩ :=
    removeIdItemsEverywhere_spec (fun _ => true) h₂ hp₂
  refine ⟨s₃, ?_, ⟨h₃, ?_⟩, hregs₃.trans hregs⟩
  · simp only [udsDynamicallyDefineDataByIdRemoveAllIds, hrun₁, hrun₂, bind, Except.bind]
    exact hrun₃
  · rw [hids₃, hregs₃, hregs, List.filter_filter]
    simp

/-! ## Runs -/

theorem inv_init (h : (machine I).init s) : Inv I s := by
  obtain ⟨hlists, hids, hregs⟩ := h
  refine ⟨⟨?_, ?_, ?_, ?_, ?_, ?_, ?_, ?_⟩, ?_⟩ <;>
    simp [hlists, hids, hregs, blocks, Ledger.Holds.nil]

/-- A registration by the application is owned. -/
theorem owned_register (h : Owned I s) {data : RegistrationData (CheckFn F) (ActionFn F)}
    (hdata : IsApplication data) (fn : Option F) :
    Owned I (udsRegisterEventHandler I c
      { inst := some I.ptr, data := data, unregisterRegistrationFn := fn.map .app } s).2.2 := by
  set reg : Reg F := { inst := some I.ptr, data := data, unregisterRegistrationFn := fn.map .app }
  by_cases hok : findNextDynamicId s ≠ 0 ∧ c.alloc .heapReg = true
  · obtain ⟨hid, hreg⟩ := hok
    rw [register_ok reg hid hreg]
    set r : HeapRegistration F := ⟨s.heap.next,
      { reg with inst := some I.ptr, dynamicRegistrationId := findNextDynamicId s }⟩
    have hd : r.isDefined = false := by cases fn <;> rfl
    have hblocks : regBlocks s.lists r = [s.heap.next] := by rw [regBlocks, hd]; rfl
    have hheld : s.heap.grow.Holds
        ((s.dynamicRegistrations ++ [r]).flatMap (regBlocks s.lists) ++
          (s.idLists I.handler).map (·.addr)) := by
      refine h.held.grow.perm (List.perm_iff_count.mpr fun b => ?_)
      simp only [blocks, List.flatMap_append, List.flatMap_singleton, hblocks,
        List.count_append, List.count_cons, List.count_nil]
      omega
    exact h.append (r := r) rfl rfl hid (findNextDynamicId_fresh hid)
      (fun hdef => absurd hdef (by simp [hd])) (fun _ => hdata)
      (fun hdef => absurd hdef (by simp [hd])) hheld fun p hne => .inl hne
  · obtain ⟨ret, -, hrun⟩ := register_fails (I := I) reg hok
    rw [hrun]
    exact h

/-- A registration by the application. -/
theorem inv_register (h : Inv I s) {data : RegistrationData (CheckFn F) (ActionFn F)}
    (hdata : IsApplication data) (fn : Option F) :
    Inv I (udsRegisterEventHandler I c
      { inst := some I.ptr, data := data, unregisterRegistrationFn := fn.map .app } s).2.2 := by
  refine ⟨owned_register h.toOwned hdata fn, ?_⟩
  set reg : Reg F := { inst := some I.ptr, data := data, unregisterRegistrationFn := fn.map .app }
  by_cases hok : findNextDynamicId s ≠ 0 ∧ c.alloc .heapReg = true
  · rw [register_ok reg hok.1 hok.2]
    have hd : (⟨s.heap.next, { reg with
        inst := some I.ptr, dynamicRegistrationId := findNextDynamicId s }⟩ :
        HeapRegistration F).isDefined = false := by cases fn <;> rfl
    simp [List.filter_append, hd, h.tracked]
  · obtain ⟨ret, -, hrun⟩ := register_fails (I := I) reg hok
    rw [hrun]
    exact h.tracked

/-- The answer to a request that clears all, from what removing all gives. -/
theorem request_clearAll {x : UInt16} {t : State F}
    (ht : udsDynamicallyDefineDataByIdRemoveAllIds I c s = .ok t) :
    udsActionDefaultDynamicallyDefineDataIds I c (.clear true x) s = .ok (.ok, t) := by
  simp only [udsActionDefaultDynamicallyDefineDataIds, if_true, ht, bind, Except.bind, pure,
    Except.pure]

/-- And to one that clears a single identifier. -/
theorem request_clearSingle {x : UInt16} {t : State F}
    (ht : udsDynamicallyDefineDataByIdRemoveSingleId I c x s = .ok t) :
    udsActionDefaultDynamicallyDefineDataIds I c (.clear false x) s = .ok (.ok, t) := by
  simp only [udsActionDefaultDynamicallyDefineDataIds, Bool.false_eq_true, if_false, ht, bind,
    Except.bind, pure, Except.pure]

/-- **A request keeps the invariant** where it does not fault. -/
theorem inv_request (h : Inv I s) (hp : I.Present s) {args : DDDIArgs} {ret : UDSErr}
    (hrun : udsActionDefaultDynamicallyDefineDataIds I c args s = .ok (ret, s')) : Inv I s' := by
  cases args with
  | defineById x source position size => exact inv_define (d := .id source position size) h hrun
  | defineByMemAddress x addr size => exact inv_define (d := .memory addr size) h hrun
  | clear all x =>
    cases all with
    | true =>
      obtain ⟨t, ht, hinv, -⟩ := removeAllIds_spec (c := c) h hp
      rw [request_clearAll ht] at hrun
      cases hrun
      exact hinv
    | false =>
      obtain ⟨t, ht, hinv, -⟩ := removeSingleId_spec (c := c) h hp x
      rw [request_clearSingle ht] at hrun
      cases hrun
      exact hinv
  | other type =>
    cases hrun
    exact h

/-- An event keeps the invariant. -/
theorem inv_step (h : Inv I s) {e : Event F} (hstep : (machine I).Step s e s') : Inv I s' := by
  rcases e with ⟨args, c⟩ | ⟨data, fn, c⟩
  · obtain ⟨hp, ret, hrun⟩ := hstep
    exact inv_request h hp hrun
  · obtain ⟨hdata, rfl⟩ := hstep
    exact inv_register h hdata fn

/-- **The invariant along every run.** -/
theorem inv_of_reachable (h : (machine I).Reachable s) : Inv I s :=
  Machine.Reachable.invariant (P := Inv I) (fun _ => inv_init)
    (fun _ _ _ hinv hstep => inv_step hinv hstep) h

/-! ## What a clear should do -/

/-- The registration is the one defined through 0x2C for the data id: it
has the data id and its id is tracked. -/
def DefinedThrough (I : Instance F) (s : State F) (x : UInt16) (r : HeapRegistration F) : Prop :=
  r.reg.dataId? = some x ∧ Tracked I s r.id

instance (I : Instance F) (s : State F) (x : UInt16) (r : HeapRegistration F) :
    Decidable (DefinedThrough I s x r) := inferInstanceAs (Decidable (_ ∧ _))

/-- **A clear that removes just the identifier**: the registration that was
defined through 0x2C for the data id goes with the item that tracks it,
and every other one stays in its place. -/
def ClearsExactly (I : Instance F) (c : Choices F) (x : UInt16) (s : State F) : Prop :=
  ∃ s', udsActionDefaultDynamicallyDefineDataIds I c (.clear false x) s = .ok (.ok, s') ∧
    s'.dynamicRegistrations =
      s.dynamicRegistrations.filter (fun q => ¬ DefinedThrough I s x q) ∧
    s'.idLists I.handler = (s.idLists I.handler).filter fun item =>
      ∀ q ∈ s.dynamicRegistrations, DefinedThrough I s x q → q.id ≠ item.dynamicRegistrationId

/-- Where 0x2C defined the data id, its registration is the one. -/
theorem Inv.definedThrough_iff (h : Inv I s) {x : UInt16} {r q : HeapRegistration F}
    (hr : r ∈ s.dynamicRegistrations) (hdef : DefinedThrough I s x r)
    (hq : q ∈ s.dynamicRegistrations) : DefinedThrough I s x q ↔ q = r := by
  constructor
  · intro hdq
    exact h.eq_of_dataId hq hr ((h.tracked_iff hq).mp hdq.2) ((h.tracked_iff hr).mp hdef.2)
      (hdq.1.trans hdef.1.symm)
  · rintro rfl
    exact hdef

/-- With no identifier defined there is nothing a clear should remove. -/
theorem clearsExactly_of_none {x : UInt16} {t : State F}
    (hnone : ∀ q ∈ s.dynamicRegistrations, ¬ DefinedThrough I s x q)
    (hcleared : clearedId c x s = none)
    (hrun : udsActionDefaultDynamicallyDefineDataIds I c (.clear false x) s = .ok (.ok, t))
    (hregs : t.dynamicRegistrations =
      s.dynamicRegistrations.filter (fun q => clearedId c x s ≠ some q.id))
    (hids : t.idLists I.handler = (s.idLists I.handler).filter
      (fun item => clearedId c x s ≠ some item.dynamicRegistrationId)) :
    ClearsExactly I c x s := by
  refine ⟨t, hrun, ?_, ?_⟩
  · rw [hregs]
    exact List.filter_congr fun q hq => by simp [hcleared, hnone q hq]
  · rw [hids]
    refine List.filter_congr fun item _ => ?_
    rw [decide_eq_decide]
    exact ⟨fun _ q hq hdef => absurd hdef (hnone q hq), fun _ => by simp [hcleared]⟩

/-- Where the registration that goes is the one defined, its identifier goes
and no other. -/
theorem clearsExactly_of_definedThrough {x : UInt16} {t : State F} {r : HeapRegistration F}
    (hinv : Inv I s) (hr : r ∈ s.dynamicRegistrations) (hdef : DefinedThrough I s x r)
    (hcleared : clearedId c x s = some r.id)
    (hrun : udsActionDefaultDynamicallyDefineDataIds I c (.clear false x) s = .ok (.ok, t))
    (hregs : t.dynamicRegistrations =
      s.dynamicRegistrations.filter (fun q => clearedId c x s ≠ some q.id))
    (hids : t.idLists I.handler = (s.idLists I.handler).filter
      (fun item => clearedId c x s ≠ some item.dynamicRegistrationId)) :
    ClearsExactly I c x s := by
  have hiff := fun q hq => hinv.definedThrough_iff (q := q) hr hdef hq
  refine ⟨t, hrun, ?_, ?_⟩
  · rw [hregs, hcleared]
    refine List.filter_congr fun q hq => ?_
    rw [decide_eq_decide, hiff q hq, ne_eq, Option.some.injEq, not_iff_not]
    exact ⟨fun hid => hinv.eq_of_id hq hr hid.symm, fun heq => by rw [heq]⟩
  · rw [hids, hcleared]
    refine List.filter_congr fun item _ => ?_
    rw [decide_eq_decide, ne_eq, Option.some.injEq]
    constructor
    · intro hne q hq hdef
      rwa [(hiff q hq).mp hdef]
    · intro hall
      exact hall r hr ((hiff r hr).mpr rfl)

/-- **When a clear removes just the identifier.** The first DATA_IDENTIFIER
registration with the data id, if there is one, must be the one that was
defined through 0x2C; or the application's, with an unregister function
that refuses, while 0x2C has not defined the data id. -/
theorem clearsExactly_iff (h : (machine I).Reachable s) (hp : I.Present s) (c : Choices F)
    (x : UInt16) :
    ClearsExactly I c x s ↔
      ∀ r, firstWithDataId x s = some r → Tracked I s r.id ∨
        refuses c r = true ∧ udsFindExistingRegistrationByDataId I x s = none := by
  have hinv := inv_of_reachable h
  obtain ⟨t, ht, -, hregs, hids, -⟩ := removeSingleId_spec (c := c) hinv hp x
  have hrun : udsActionDefaultDynamicallyDefineDataIds I c (.clear false x) s = .ok (.ok, t) :=
    request_clearSingle ht
  constructor
  · rintro ⟨t', hrun', hregs', -⟩ r hfind
    rw [hrun, Except.ok.injEq, Prod.mk.injEq] at hrun'
    obtain rfl := hrun'.2
    rw [hregs] at hregs'
    obtain ⟨hr, hx⟩ := mem_of_firstWithDataId hfind
    by_contra hnot
    rw [not_or] at hnot
    cases href : refuses c r with
    | false =>
      -- the application's registration is gone, and should have stayed
      have hcleared : clearedId c x s = some r.id := by simp [clearedId, hfind, href]
      have hstay : r ∈ s.dynamicRegistrations.filter (fun q => ¬ DefinedThrough I s x q) :=
        List.mem_filter.mpr ⟨hr, by simpa using fun hd : DefinedThrough I s x r => hnot.1 hd.2⟩
      rw [← hregs', hcleared] at hstay
      simp at hstay
    | true =>
      -- nothing is gone, and the identifier should have
      have hcleared : clearedId c x s = none := by simp [clearedId, hfind, href]
      cases hex : udsFindExistingRegistrationByDataId I x s with
      | none => exact hnot.2 ⟨href, hex⟩
      | some q =>
        obtain ⟨hq, hd, hqx⟩ := hinv.existing_of_some hex
        have hstay : q ∈ s.dynamicRegistrations.filter (fun q => clearedId c x s ≠ some q.id) :=
          List.mem_filter.mpr ⟨hq, by simp [hcleared]⟩
        rw [hregs'] at hstay
        have hgone : ¬ DefinedThrough I s x q := by simpa using (List.mem_filter.mp hstay).2
        exact hgone ⟨hqx, (hinv.tracked_iff hq).mpr hd⟩
  · intro hcond
    cases hfind : firstWithDataId x s with
    | none =>
      have hno : ∀ q ∈ s.dynamicRegistrations, q.reg.dataId? ≠ some x := by
        simpa [firstWithDataId, List.find?_eq_none] using hfind
      exact clearsExactly_of_none (fun q hq hd => hno q hq hd.1)
        (by simp [clearedId, hfind]) hrun hregs hids
    | some r =>
      obtain ⟨hr, hx⟩ := mem_of_firstWithDataId hfind
      rcases hcond r hfind with htracked | ⟨href, hex⟩
      · have hcleared : clearedId c x s = some r.id := by
          simp [clearedId, hfind, refuses_of_isDefined ((hinv.tracked_iff hr).mp htracked)]
        exact clearsExactly_of_definedThrough hinv hr ⟨hx, htracked⟩ hcleared hrun hregs hids
      · refine clearsExactly_of_none (fun q hq hd => ?_) (by simp [clearedId, hfind, href])
          hrun hregs hids
        exact hinv.existing_of_none hex q hq ((hinv.tracked_iff hq).mp hd.2) hd.1

/-- An instance with one 0x2C handler, a static registration. -/
def oneHandler : Instance ℕ where
  ptr := 0
  statics := [{ inst := some 0, data := .dynamicallyDefineDataIds ⟨some (.app 0), some (.app 1)⟩ }]
  handler := .static 0
  statics_application := by simp [IsApplication]

/-- Every allocation succeeds and no unregister function refuses. -/
def allSucceed : Choices ℕ := ⟨fun _ => true, fun _ => 0⟩

/-- Every allocation but one succeeds. -/
def failsAt (site : AllocSite) : Choices ℕ := ⟨fun t => t ≠ site, fun _ => 0⟩

/-- The instance once it is set up. -/
def setUp : State ℕ := ⟨.empty, fun _ => [], fun _ => [], []⟩

/-- The first identifier of an instance. -/
theorem define_setUp (I : Instance ℕ) (x : UInt16) (d : DefinedData) :
    defineAddNewId I allSucceed (appendToRegistration allSucceed d) x setUp =
      .ok (.ok, defined I x d setUp) :=
  define_new_ok (inv_init ⟨rfl, rfl, rfl⟩) rfl ⟨rfl, rfl, rfl, by decide +kernel, rfl⟩ rfl

/-- One identifier, of one memory range. -/
def oneIdentifier : State ℕ := defined oneHandler 0xF200 (.memory 1 1) setUp

theorem reachable_oneIdentifier : (machine oneHandler).Reachable oneIdentifier :=
  .step (s := setUp) (e := .request (.defineByMemAddress 0xF200 1 1) allSucceed)
    (.init ⟨rfl, rfl, rfl⟩) ⟨.inl (by decide), .ok, define_setUp oneHandler 0xF200 (.memory 1 1)⟩

/-- A further identifier, of one memory range. -/
theorem reachable_defined {s : State ℕ} (h : (machine oneHandler).Reachable s) {x : UInt16}
    (memAddr memSize : ℕ) (hnew : udsFindExistingRegistrationByDataId oneHandler x s = none)
    (hid : findNextDynamicId s ≠ 0) :
    (machine oneHandler).Reachable (defined oneHandler x (.memory memAddr memSize) s) :=
  h.step (e := .request (.defineByMemAddress x memAddr memSize) allSucceed) ⟨.inl (by decide), .ok,
    define_new_ok (inv_of_reachable h) hnew ⟨rfl, rfl, rfl, hid, rfl⟩ rfl⟩

/-- Two data identifiers defined through 0x2C with one of the application
between them, and the second cleared. -/
theorem clearsExactly_iff_defined :
    ∃ s, (machine oneHandler).Reachable s ∧
      s.dynamicRegistrations.map (·.reg.dataId?) = [some 0xF200, some 0xF300, some 0xF201] ∧
        ClearsExactly oneHandler allSucceed 0xF201 s := by
  have happlication := Machine.Reachable.step (M := machine oneHandler)
    (e := .register (.dataIdentifier 0 0xF300 ⟨some (.app 2), some (.app 3)⟩ .null .null) none
      allSucceed) reachable_oneIdentifier ⟨⟨by decide, by decide⟩, rfl⟩
  have htwo := @reachable_defined _ happlication 0xF201 2 1 (by decide +kernel) (by decide +kernel)
  refine ⟨_, htwo, by decide +kernel, (clearsExactly_iff htwo (.inl (by decide)) allSucceed
    0xF201).mpr fun r hfind => .inl ?_⟩
  obtain rfl := Option.some.inj hfind
  exact ⟨_, List.mem_append_right _ List.mem_cons_self, rfl⟩

/-- The application's own identifier, which 0x2C never defined, and a
clear that removes it. -/
theorem not_clearsExactly_application :
    ¬ ∀ s, (machine oneHandler).Reachable s → oneHandler.Present s →
      ∀ (c : Choices ℕ) (x : UInt16), ClearsExactly oneHandler c x s := by
  intro hall
  have hreach := Machine.Reachable.step (M := machine oneHandler) (s := setUp)
    (e := .register (.dataIdentifier 0 0xF200 ⟨some (.app 2), some (.app 3)⟩ .null .null) none
      allSucceed) (.init ⟨rfl, rfl, rfl⟩) ⟨⟨by decide, by decide⟩, rfl⟩
  obtain ⟨t, hrun, hregs, -⟩ := hall _ hreach (.inl (by decide)) allSucceed 0xF200
  obtain ⟨t', ht, -, hregs', -, -⟩ :=
    removeSingleId_spec (c := allSucceed) (inv_of_reachable hreach) (.inl (by decide)) 0xF200
  rw [request_clearSingle ht, Except.ok.injEq, Prod.mk.injEq] at hrun
  rw [hrun.2, hregs] at hregs'
  exact absurd hregs' (by decide +kernel)

end Dynamic

end Uds

end Ardep
