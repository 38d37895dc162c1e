import Ardep.Uds.Dynamic.Model
/-!
# Dynamic — who owns which block

The registrations 0x2C has made are the ones with its own unregister
function. `Owned` says what every registration owns, that the data ids
0x2C defined are distinct, and that the ids are; `Inv` adds that the
serving handler tracks exactly the registrations 0x2C has made.

`unregister_defined` and `unregister_application` are the two things
unregistering does: either way what is left is owned as before.
-/

namespace Ardep

namespace Uds

namespace Dynamic

variable {F : Type} {I : Instance F} {c : Choices F} {s s' : State F}

/-! ## Ownership -/

/-- The registration was made by a 0x2C request: it has the unregister
function that only those have. -/
def HeapRegistration.isDefined (r : HeapRegistration F) : Bool :=
  match r.reg.unregisterRegistrationFn with
  | some .udsUnregisterDynamicIdentifier => true
  | _ => false

/-- The blocks a registration owns: its own, and for one that 0x2C made
the data list and its items. -/
def regBlocks (lists : ℕ → List DataItem) (r : HeapRegistration F) : List ℕ :=
  if r.isDefined then r.addr :: dataPtr r.reg :: (lists (dataPtr r.reg)).map (·.addr)
  else [r.addr]

/-- The blocks of an instance: those of its registrations and the items
its handler tracks ids with. -/
def blocks (I : Instance F) (s : State F) : List ℕ :=
  s.dynamicRegistrations.flatMap (regBlocks s.lists) ++ (s.idLists I.handler).map (·.addr)

/-- **What the registrations own**, whatever is tracked. -/
structure Owned (I : Instance F) (s : State F) : Prop where
  ids : (s.dynamicRegistrations.map (·.id)).Nodup
  idsPos : ∀ r ∈ s.dynamicRegistrations, r.id ≠ 0
  shape : ∀ r ∈ s.dynamicRegistrations, r.isDefined = true →
    ∃ x p, r.reg = { dynamicIdentifier I x p with dynamicRegistrationId := r.id }
  application : ∀ r ∈ s.dynamicRegistrations, r.isDefined = false → IsApplication r.reg.data
  dataIds : ((s.dynamicRegistrations.filter (·.isDefined)).map (·.reg.dataId?)).Nodup
  others : ∀ h, h ≠ I.handler → s.idLists h = []
  held : s.heap.Holds (blocks I s)
  supported : ∀ p, s.lists p ≠ [] →
    ∃ r ∈ s.dynamicRegistrations, r.isDefined = true ∧ dataPtr r.reg = p

/-- **The invariant of a run**: the serving handler tracks the
registrations 0x2C has made, in their order. -/
structure Inv (I : Instance F) (s : State F) : Prop extends Owned I s where
  tracked : (s.idLists I.handler).map (·.dynamicRegistrationId) =
    (s.dynamicRegistrations.filter (·.isDefined)).map (·.id)

section Owned

variable {r q : HeapRegistration F}

/-- Ids are unique. -/
theorem Owned.eq_of_id (h : Owned I s) (hr : r ∈ s.dynamicRegistrations)
    (hq : q ∈ s.dynamicRegistrations) (hid : r.id = q.id) : r = q :=
  List.inj_on_of_nodup_map h.ids hr hq hid

/-- One registration of 0x2C for a data id. -/
theorem Owned.eq_of_dataId (h : Owned I s) (hr : r ∈ s.dynamicRegistrations)
    (hq : q ∈ s.dynamicRegistrations) (hdr : r.isDefined = true) (hdq : q.isDefined = true)
    (hid : r.reg.dataId? = q.reg.dataId?) : r = q :=
  List.inj_on_of_nodup_map h.dataIds (List.mem_filter.mpr ⟨hr, hdr⟩)
    (List.mem_filter.mpr ⟨hq, hdq⟩) hid

theorem mem_blocks_of_reg {b : ℕ} (hr : r ∈ s.dynamicRegistrations)
    (hb : b ∈ regBlocks s.lists r) : b ∈ blocks I s :=
  List.mem_append_left _ (List.mem_flatMap.mpr ⟨r, hr, hb⟩)

theorem addr_mem_regBlocks {lists : ℕ → List DataItem} : r.addr ∈ regBlocks lists r := by
  unfold regBlocks
  split <;> simp

theorem dataPtr_mem_regBlocks {lists : ℕ → List DataItem} (hd : r.isDefined = true) :
    dataPtr r.reg ∈ regBlocks lists r := by
  simp [regBlocks, hd]

/-- No list lies at a block that is not live. -/
theorem Owned.dead (h : Owned I s) (p : ℕ) (hp : p ∉ s.heap.live) : s.lists p = [] := by
  by_contra hne
  obtain ⟨r, hr, hd, rfl⟩ := h.supported p hne
  exact hp (h.held.live _ (mem_blocks_of_reg hr (dataPtr_mem_regBlocks hd)))

/-- The blocks with one registration's in front. -/
theorem blocks_perm_of_split {pre post : List (HeapRegistration F)}
    (hs : s.dynamicRegistrations = pre ++ r :: post) :
    (blocks I s).Perm (regBlocks s.lists r ++
      ((pre ++ post).flatMap (regBlocks s.lists) ++
        (s.idLists I.handler).map (·.addr))) := by
  unfold blocks
  rw [hs, List.flatMap_append, List.flatMap_cons, List.flatMap_append, ← List.append_assoc,
    ← List.append_assoc]
  refine List.Perm.append_right _ ?_
  rw [← List.append_assoc]
  exact List.Perm.append_right _ List.perm_append_comm

/-- Registrations that share a block are one. -/
theorem Owned.eq_of_block (h : Owned I s) {b : ℕ} (hr : r ∈ s.dynamicRegistrations)
    (hq : q ∈ s.dynamicRegistrations) (hbr : b ∈ regBlocks s.lists r)
    (hbq : b ∈ regBlocks s.lists q) : r = q := by
  by_contra hne
  obtain ⟨pre, post, hsplit⟩ := List.append_of_mem hr
  have hq' : q ∈ pre ++ post := by
    rw [hsplit] at hq
    rcases List.mem_append.mp hq with hq | hq
    · exact List.mem_append_left _ hq
    · rcases List.mem_cons.mp hq with rfl | hq
      · exact absurd rfl hne
      · exact List.mem_append_right _ hq
  refine (h.held.perm (blocks_perm_of_split hsplit)).disjoint b hbr ?_
  exact List.mem_append_left _ (List.mem_flatMap.mpr ⟨q, hq', hbq⟩)

/-- What a registration owns does not depend on another one's list. -/
theorem Owned.regBlocks_update (h : Owned I s) (hr : r ∈ s.dynamicRegistrations)
    (hd : r.isDefined = true) (hq : q ∈ s.dynamicRegistrations) (hne : q ≠ r)
    (items : List DataItem) :
    regBlocks (Function.update s.lists (dataPtr r.reg) items) q = regBlocks s.lists q := by
  by_cases hdq : q.isDefined = true
  · have hptr : dataPtr q.reg ≠ dataPtr r.reg := by
      intro heq
      exact hne (h.eq_of_block hq hr (dataPtr_mem_regBlocks hdq)
        (heq ▸ dataPtr_mem_regBlocks hd))
    simp [regBlocks, hdq, Function.update_of_ne hptr]
  · simp [regBlocks, hdq]

end Owned

/-! ## The tracked ids -/

/-- The handler tracks a registration's id exactly if 0x2C made it. -/
theorem Inv.tracked_iff (h : Inv I s) {r : HeapRegistration F}
    (hr : r ∈ s.dynamicRegistrations) : Tracked I s r.id ↔ r.isDefined = true := by
  have hmem : Tracked I s r.id ↔
      r.id ∈ (s.dynamicRegistrations.filter (·.isDefined)).map (·.id) := by
    rw [← h.tracked, List.mem_map]
    rfl
  rw [hmem, List.mem_map]
  constructor
  · rintro ⟨q, hq, hid⟩
    obtain ⟨hq, hdq⟩ := List.mem_filter.mp hq
    exact h.eq_of_id hr hq hid.symm ▸ hdq
  · intro hd
    exact ⟨r, List.mem_filter.mpr ⟨hr, hd⟩, rfl⟩

theorem Inv.existing_of_some (h : Inv I s) {x : UInt16} {r : HeapRegistration F}
    (hf : udsFindExistingRegistrationByDataId I x s = some r) :
    r ∈ s.dynamicRegistrations ∧ r.isDefined = true ∧ r.reg.dataId? = some x := by
  have hr := List.mem_of_find?_eq_some hf
  have hp := List.find?_some hf
  simp only [Bool.decide_and, Bool.and_eq_true, decide_eq_true_eq] at hp
  exact ⟨hr, (h.tracked_iff hr).mp hp.2, hp.1⟩

theorem Inv.existing_of_none (h : Inv I s) {x : UInt16}
    (hf : udsFindExistingRegistrationByDataId I x s = none) :
    ∀ r ∈ s.dynamicRegistrations, r.isDefined = true → r.reg.dataId? ≠ some x := by
  intro r hr hd hx
  have := List.find?_eq_none.mp hf r hr
  simp [hx, (h.tracked_iff hr).mpr hd] at this

theorem findNextDynamicIdFrom_notMem {inUse : List UInt32} :
    ∀ (n : ℕ) (candidate : UInt32), findNextDynamicIdFrom inUse n candidate ≠ 0 →
      findNextDynamicIdFrom inUse n candidate ∉ inUse := by
  intro n
  induction n with
  | zero => intro candidate h; exact absurd rfl h
  | succ n ih =>
    intro candidate h
    rw [findNextDynamicIdFrom] at h ⊢
    split_ifs at h ⊢ with hin hmax
    · exact absurd rfl h
    · exact ih _ h
    · exact hin

/-- An id that is given out is not in use. -/
theorem findNextDynamicId_fresh (h : findNextDynamicId s ≠ 0) :
    ∀ r ∈ s.dynamicRegistrations, r.id ≠ findNextDynamicId s := by
  intro r hr heq
  exact findNextDynamicIdFrom_notMem _ _ h (List.mem_map.mpr ⟨r, hr, heq⟩)

/-! ## Freeing a list -/

section Free

variable {p : ℕ} {cs : List ℕ}

/-- Freeing the items of a list that is held. -/
theorem freeItems_ok (h : s.heap.Holds (p :: (s.lists p).map (·.addr) ++ cs)) :
    ∃ s', s.freeItems p = .ok s' ∧ s'.heap.Holds (p :: cs) ∧
      s'.heap.live = s.heap.live \ ((s.lists p).map (·.addr)).toFinset ∧
      s'.lists = Function.update s.lists p [] ∧ s'.idLists = s.idLists ∧
      s'.dynamicRegistrations = s.dynamicRegistrations := by
  have hperm : (p :: (s.lists p).map (·.addr) ++ cs).Perm
      ((s.lists p).map (·.addr) ++ p :: cs) := by
    rw [List.cons_append]
    exact List.perm_middle.symm
  obtain ⟨heap, hfree, hheld, hlive, -⟩ := (h.perm hperm).freeAll
  refine ⟨{ s with heap := heap, lists := Function.update s.lists p [] }, ?_, hheld, hlive, rfl,
    rfl, rfl⟩
  simp [State.freeItems, State.traverse, h.traverse, hfree, bind, Except.bind, pure, Except.pure]

/-- Freeing a list whose items are gone. -/
theorem freeList_ok (h : s.heap.Holds (p :: cs)) :
    s.freeList p = .ok { s with
      heap := s.heap.drop p, lists := Function.update s.lists p [] } ∧
      (s.heap.drop p).Holds cs := by
  obtain ⟨hfree, hheld⟩ := h.free
  exact ⟨by simp [State.freeList, hfree, bind, Except.bind, pure, Except.pure], hheld⟩

end Free

/-! ## Unregistering -/

section Unregister

variable {r : HeapRegistration F} {pre post : List (HeapRegistration F)}

theorem Owned.ne_of_mem_split (h : Owned I s)
    (hs : s.dynamicRegistrations = pre ++ r :: post) {q : HeapRegistration F}
    (hq : q ∈ pre ++ post) :
    q ∈ s.dynamicRegistrations ∧ q ≠ r ∧ q.id ≠ r.id ∧ q.addr ≠ r.addr := by
  have hmem : q ∈ s.dynamicRegistrations := by
    rw [hs]
    rcases List.mem_append.mp hq with hq | hq
    · exact List.mem_append_left _ hq
    · exact List.mem_append_right _ (List.mem_cons_of_mem _ hq)
  have hr : r ∈ s.dynamicRegistrations := by rw [hs]; simp
  have hne : q ≠ r := by
    rintro rfl
    have hnodup := h.ids.of_map
    rw [hs] at hnodup
    have hnot := (List.nodup_cons.mp (List.perm_middle.nodup_iff.mp hnodup)).1
    exact hnot hq
  refine ⟨hmem, hne, fun hid => hne (h.eq_of_id hmem hr hid), fun haddr => hne ?_⟩
  exact h.eq_of_block hmem hr addr_mem_regBlocks (haddr ▸ addr_mem_regBlocks)

/-- The other registrations are those with another id. -/
theorem Owned.filter_of_split (h : Owned I s)
    (hs : s.dynamicRegistrations = pre ++ r :: post) :
    s.dynamicRegistrations.filter (fun q => q.id ≠ r.id) = pre ++ post := by
  have hall : ∀ q ∈ pre ++ post, q.id ≠ r.id := fun q hq => (h.ne_of_mem_split hs hq).2.2.1
  rw [hs, List.filter_append, List.filter_cons_of_neg (by simp), ← List.filter_append]
  exact List.filter_eq_self.mpr fun q hq => by simpa using hall q hq

/-- The list without a registration's node. -/
theorem Owned.eraseP_of_split (h : Owned I s)
    (hs : s.dynamicRegistrations = pre ++ r :: post) :
    s.dynamicRegistrations.eraseP (fun q => q.addr = r.addr) = pre ++ post := by
  rw [hs, List.eraseP_append_right _ fun q hq => ?_, List.eraseP_cons_of_pos (by simp)]
  simpa using (h.ne_of_mem_split hs (List.mem_append_left _ hq)).2.2.2

theorem Owned.find?_of_mem (h : Owned I s) (hr : r ∈ s.dynamicRegistrations) :
    s.dynamicRegistrations.find? (fun q => q.id = r.id) = some r := by
  cases hfind : s.dynamicRegistrations.find? (fun q => q.id = r.id) with
  | none =>
    have := List.find?_eq_none.mp hfind r hr
    simp at this
  | some q =>
    have hid : q.id = r.id := by simpa using List.find?_some hfind
    rw [h.eq_of_id (List.mem_of_find?_eq_some hfind) hr hid]

/-- **A registration gone** with its blocks, what is left is owned as
before. -/
theorem Owned.of_removed (h : Owned I s) (hs : s.dynamicRegistrations = pre ++ r :: post)
    (hs' : s'.dynamicRegistrations = pre ++ post) (hid : s'.idLists = s.idLists)
    (hlists : ∀ q ∈ pre ++ post, regBlocks s'.lists q = regBlocks s.lists q)
    (hheld : s'.heap.Holds ((pre ++ post).flatMap (regBlocks s.lists) ++
      (s.idLists I.handler).map (·.addr)))
    (hsupported : ∀ p, s'.lists p ≠ [] →
      s.lists p ≠ [] ∧ (r.isDefined = true → p ≠ dataPtr r.reg)) : Owned I s' := by
  have hsub : s'.dynamicRegistrations.Sublist s.dynamicRegistrations := by
    rw [hs, hs']
    exact (List.Sublist.refl pre).append (List.sublist_cons_self r post)
  refine ⟨h.ids.sublist (hsub.map _), fun q hq => h.idsPos q (hsub.subset hq),
    fun q hq => h.shape q (hsub.subset hq), fun q hq => h.application q (hsub.subset hq),
    h.dataIds.sublist ((hsub.filter _).map _), hid ▸ h.others, ?_, fun p hne => ?_⟩
  · rw [blocks, hid, hs', List.flatMap_congr hlists]
    exact hheld
  · obtain ⟨hne, hnotr⟩ := hsupported p hne
    obtain ⟨q, hq, hdq, rfl⟩ := h.supported p hne
    refine ⟨q, ?_, hdq, rfl⟩
    rw [hs] at hq
    rcases List.mem_append.mp hq with hq | hq
    · rw [hs']; exact List.mem_append_left _ hq
    · rcases List.mem_cons.mp hq with rfl | hq
      · exact absurd rfl (hnotr hdq)
      · rw [hs']; exact List.mem_append_right _ hq

/-- **Unregistering a registration of 0x2C** frees its items, its list and
itself. -/
theorem unregister_defined (h : Owned I s) (hr : r ∈ s.dynamicRegistrations)
    (hd : r.isDefined = true) :
    ∃ s', udsUnregisterEventHandler c r.id s = .ok (0, s') ∧ Owned I s' ∧
      s'.dynamicRegistrations = s.dynamicRegistrations.filter (fun q => q.id ≠ r.id) ∧
      s'.idLists = s.idLists ∧ s'.lists = Function.update s.lists (dataPtr r.reg) [] ∧
      s'.heap.live = s.heap.live \ (regBlocks s.lists r).toFinset := by
  obtain ⟨pre, post, hs⟩ := List.append_of_mem hr
  set p := dataPtr r.reg with hp
  set rest := (pre ++ post).flatMap (regBlocks s.lists) ++
    (s.idLists I.handler).map (·.addr) with hrest
  have hheld : s.heap.Holds (p :: (s.lists p).map (·.addr) ++ r.addr :: rest) := by
    refine (h.held.perm (blocks_perm_of_split hs)).perm ?_
    rw [regBlocks, if_pos hd, ← hp, ← hrest]
    exact (@List.perm_middle _ _ (p :: (s.lists p).map (·.addr)) _).symm
  have hmiddle : (p :: (s.lists p).map (·.addr) ++ r.addr :: rest).Perm
      ((s.lists p).map (·.addr) ++ p :: r.addr :: rest) := by
    rw [List.cons_append]
    exact List.perm_middle.symm
  -- the items, then the list, then the registration
  obtain ⟨heap, hfreeAll, hheld₁, hlive, -⟩ := (hheld.perm hmiddle).freeAll
  obtain ⟨hfreeList, hheld₂⟩ := freeList_ok (s := { s with heap := heap }) hheld₁
  obtain ⟨hfree, hheld₃⟩ := hheld₂.free
  have hfn : r.reg.unregisterRegistrationFn = some .udsUnregisterDynamicIdentifier := by
    obtain ⟨x, q, hreg⟩ := h.shape r hr hd
    rw [hreg]
    rfl
  have hcallback : udsUnregisterDynamicIdentifier r.reg s =
      .ok (0, { s with heap := heap.drop p, lists := Function.update s.lists p [] }) := by
    simp only [udsUnregisterDynamicIdentifier, State.traverse, hheld.traverse, hfreeAll,
      hfreeList, bind, Except.bind, pure, Except.pure, ← hp]
  refine ⟨{ s with
    heap := (heap.drop p).drop r.addr
    lists := Function.update s.lists p []
    dynamicRegistrations := pre ++ post }, ?_, ?_, (h.filter_of_split hs).symm, rfl, rfl, ?_⟩
  · simp only [udsUnregisterEventHandler, h.find?_of_mem hr, hfn, hcallback, State.free, hfree,
      h.eraseP_of_split hs, bind, Except.bind, pure, Except.pure]
    simp
  · refine h.of_removed hs rfl rfl (fun q hq => ?_) hheld₃ fun b hb => ?_
    · obtain ⟨hmem, hne, -, -⟩ := h.ne_of_mem_split hs hq
      exact h.regBlocks_update hr hd hmem hne []
    · have hbp : b ≠ p := by
        rintro rfl
        exact hb (Function.update_self ..)
      exact ⟨by simpa [Function.update_of_ne hbp] using hb, fun _ => hbp⟩
  · ext b
    simp only [Ledger.live_drop, hlive, regBlocks, if_pos hd, ← hp, List.toFinset_cons,
      Finset.mem_erase, Finset.mem_sdiff, Finset.mem_insert]
    tauto

/-- **Unregistering a registration of the application** whose function
does not refuse frees the registration and nothing else. -/
theorem unregister_application (h : Owned I s) (hr : r ∈ s.dynamicRegistrations)
    (hd : r.isDefined = false)
    (hfn : ∀ f, r.reg.unregisterRegistrationFn = some (.app f) → 0 ≤ c.unregister f) :
    ∃ s', udsUnregisterEventHandler c r.id s = .ok (0, s') ∧ Owned I s' ∧
      s'.dynamicRegistrations = s.dynamicRegistrations.filter (fun q => q.id ≠ r.id) ∧
      s'.idLists = s.idLists ∧ s'.lists = s.lists ∧
      s'.heap.live = s.heap.live.erase r.addr := by
  obtain ⟨pre, post, hs⟩ := List.append_of_mem hr
  have hheld := h.held.perm (blocks_perm_of_split hs)
  rw [regBlocks, hd] at hheld
  obtain ⟨hfree, hheld₁⟩ := Ledger.Holds.free hheld
  have hbody : udsUnregisterEventHandler c r.id s =
      .ok (0, { s with
        heap := s.heap.drop r.addr, dynamicRegistrations := pre ++ post }) := by
    simp only [udsUnregisterEventHandler, h.find?_of_mem hr]
    unfold HeapRegistration.isDefined at hd
    split at hd
    · cases hd
    · next fn hne =>
      match hcase : r.reg.unregisterRegistrationFn with
      | none =>
        simp [State.free, hfree, h.eraseP_of_split hs, bind, Except.bind, pure, Except.pure]
      | some (.app f) =>
        have hnonneg : ¬ c.unregister f < 0 := not_lt.mpr (hfn f hcase)
        simp [State.free, hfree, h.eraseP_of_split hs, hnonneg, bind, Except.bind, pure,
          Except.pure]
      | some .udsUnregisterDynamicIdentifier => exact absurd hcase hne
  refine ⟨_, hbody, ?_, (h.filter_of_split hs).symm, rfl, rfl, rfl⟩
  exact h.of_removed hs rfl rfl (fun _ _ => rfl) hheld₁
    fun b hb => ⟨hb, fun hdef => absurd hdef (by rw [hd]; decide)⟩

/-- An application's unregister function that refuses leaves all as it
was. -/
theorem unregister_refused (h : Owned I s) (hr : r ∈ s.dynamicRegistrations) {f : F}
    (hfn : r.reg.unregisterRegistrationFn = some (.app f)) (hneg : c.unregister f < 0) :
    udsUnregisterEventHandler c r.id s = .ok (c.unregister f, s) := by
  simp [udsUnregisterEventHandler, h.find?_of_mem hr, hfn, hneg, bind, Except.bind, pure,
    Except.pure]

/-- An id nobody has. -/
theorem unregister_absent {i : UInt32} (hno : ∀ r ∈ s.dynamicRegistrations, r.id ≠ i) :
    udsUnregisterEventHandler c i s = .ok (-ENOENT, s) := by
  have hnone : s.dynamicRegistrations.find? (fun r => r.id = i) = none := by
    simpa [List.find?_eq_none] using hno
  simp [udsUnregisterEventHandler, hnone, pure, Except.pure]

end Unregister

/-- **A registration more**, at the end, with an id and a data id of its
own. -/
theorem Owned.append (h : Owned I s) {r : HeapRegistration F}
    (hregs : s'.dynamicRegistrations = s.dynamicRegistrations ++ [r])
    (hidLists : s'.idLists = s.idLists) (hid : r.id ≠ 0)
    (hfresh : ∀ q ∈ s.dynamicRegistrations, q.id ≠ r.id)
    (hshape : r.isDefined = true →
      ∃ x p, r.reg = { dynamicIdentifier I x p with dynamicRegistrationId := r.id })
    (happ : r.isDefined = false → IsApplication r.reg.data)
    (hdataId : r.isDefined = true → ∀ q ∈ s.dynamicRegistrations, q.isDefined = true →
      q.reg.dataId? ≠ r.reg.dataId?)
    (hheld : s'.heap.Holds (blocks I s'))
    (hsupported : ∀ p, s'.lists p ≠ [] → s.lists p ≠ [] ∨ r.isDefined = true ∧ dataPtr r.reg = p) :
    Owned I s' := by
  have hmem : ∀ q ∈ s'.dynamicRegistrations, q ∈ s.dynamicRegistrations ∨ q = r := by
    simp [hregs]
  refine ⟨?_, fun q hq => ?_, fun q hq hd => ?_, fun q hq hd => ?_, ?_, hidLists ▸ h.others, hheld,
    fun p hne => ?_⟩
  · rw [hregs, List.map_append, List.nodup_append]
    refine ⟨h.ids, List.nodup_singleton _, fun i hi j hj heq => ?_⟩
    obtain ⟨q, hq, rfl⟩ := List.mem_map.mp hi
    rw [List.map_singleton, List.mem_singleton] at hj
    exact hfresh q hq (heq.trans hj)
  · rcases hmem q hq with hq | rfl
    · exact h.idsPos q hq
    · exact hid
  · rcases hmem q hq with hq | rfl
    · exact h.shape q hq hd
    · exact hshape hd
  · rcases hmem q hq with hq | rfl
    · exact h.application q hq hd
    · exact happ hd
  · rw [hregs, List.filter_append, List.map_append, List.nodup_append]
    refine ⟨h.dataIds, ?_, fun i hi j hj heq => ?_⟩
    · exact (List.nodup_singleton r.reg.dataId?).sublist ((List.filter_sublist (l := [r])).map _)
    · obtain ⟨q, hq, rfl⟩ := List.mem_map.mp hi
      obtain ⟨hq, hdq⟩ := List.mem_filter.mp hq
      obtain ⟨t, ht, rfl⟩ := List.mem_map.mp hj
      obtain ⟨ht, hdt⟩ := List.mem_filter.mp ht
      rw [List.mem_singleton] at ht
      subst ht
      exact hdataId hdt q hq hdq heq
  · rw [hregs]
    rcases hsupported p hne with hne | ⟨hd, hptr⟩
    · obtain ⟨q, hq, hdq, hptr⟩ := h.supported p hne
      exact ⟨q, List.mem_append_left _ hq, hdq, hptr⟩
    · exact ⟨r, List.mem_append_right _ List.mem_cons_self, hd, hptr⟩

end Dynamic

end Uds

end Ardep
