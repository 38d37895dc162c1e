import Ardep.Uds.Dynamic.Invariant
/-!
# Dynamic — a define request, allocation by allocation

A request for an identifier that exists has one allocation, and where it
fails the helper frees every element the identifier had
(`define_existing_fails`). A request for a new identifier that fails at
one of its first four allocations or at its registration leaves everything
as it was (`define_new_fails`); at the fifth, the registration's own
unregister function has freed the list the caller walks next
(`define_new_regIdItem`).
-/

namespace Ardep

namespace Uds

namespace Dynamic

variable {F : Type} {I : Instance F} {c : Choices F} {s s' : State F}

/-! ## Allocation by allocation -/

/-- The two states agree but for the next fresh block. -/
structure Unchanged (s s' : State F) : Prop where
  live : s'.heap.live = s.heap.live
  lists : s'.lists = s.lists
  idLists : s'.idLists = s.idLists
  dynamicRegistrations : s'.dynamicRegistrations = s.dynamicRegistrations

theorem Unchanged.refl (s : State F) : Unchanged s s := ⟨rfl, rfl, rfl, rfl⟩

theorem Unchanged.inv (hu : Unchanged s s') (h : Inv I s) : Inv I s' := by
  have hblocks : blocks I s' = blocks I s := by
    rw [blocks, blocks, hu.lists, hu.idLists, hu.dynamicRegistrations]
  have hheld : s'.heap.Holds (blocks I s') :=
    ⟨hblocks ▸ h.held.nodup, fun b hb => hu.live ▸ h.held.live b (hblocks ▸ hb)⟩
  refine ⟨⟨?_, ?_, ?_, ?_, ?_, ?_, hheld, ?_⟩, ?_⟩
  · rw [hu.dynamicRegistrations]; exact h.ids
  · rw [hu.dynamicRegistrations]; exact h.idsPos
  · rw [hu.dynamicRegistrations]; exact h.shape
  · rw [hu.dynamicRegistrations]; exact h.application
  · rw [hu.dynamicRegistrations]; exact h.dataIds
  · rw [hu.idLists]; exact h.others
  · rw [hu.lists, hu.dynamicRegistrations]; exact h.supported
  · rw [hu.idLists, hu.dynamicRegistrations]; exact h.tracked

section Steps

variable {x : UInt16} {d : DefinedData} {p b : ℕ}

theorem update_nil_of_eq_nil {lists : ℕ → List DataItem} (h : lists p = []) :
    Function.update lists p [] = lists := by
  rw [← h, Function.update_eq_self]

/-- No list lies at a block that is yet to be handed out. -/
theorem lists_next (hdead : ∀ p, p ∉ s.heap.live → s.lists p = []) :
    s.lists s.heap.next = [] := hdead _ s.heap.next_notMem

/-- Where both allocations succeed the new list is the next block and the
temporary registration the one after it. -/
theorem create_ok (hdead : ∀ p, p ∉ s.heap.live → s.lists p = [])
    (hlist : c.alloc .dataList = true) (htemp : c.alloc .tempReg = true) :
    udsCreateNewDataIdentifierById I c x s =
      .ok (.ok ⟨s.heap.next + 1, dynamicIdentifier I x s.heap.next⟩,
        { s with heap := s.heap.grow.grow }) := by
  simp [udsCreateNewDataIdentifierById, State.malloc, hlist, htemp,
    update_nil_of_eq_nil (lists_next hdead), pure, Except.pure]

theorem create_fails (hdead : ∀ p, p ∉ s.heap.live → s.lists p = [])
    (h : ¬ (c.alloc .dataList = true ∧ c.alloc .tempReg = true)) :
    ∃ e s', udsCreateNewDataIdentifierById I c x s = .ok (.error e, s') ∧ Unchanged s s' := by
  have hnil := lists_next hdead
  cases hlist : c.alloc .dataList with
  | false =>
    exact ⟨-1, s, by simp [udsCreateNewDataIdentifierById, State.malloc, hlist, pure, Except.pure],
      .refl s⟩
  | true =>
    have htemp : c.alloc .tempReg = false := by
      by_contra ht
      exact h ⟨hlist, by simpa using ht⟩
    have hfree : s.heap.grow.free s.heap.next = .ok (s.heap.grow.drop s.heap.next) :=
      Ledger.free_of_mem (by simp)
    refine ⟨-2, { s with heap := s.heap.grow.drop s.heap.next }, ?_, ?_, rfl, rfl, rfl⟩
    · simp [udsCreateNewDataIdentifierById, State.malloc, State.freeList, hlist, htemp,
        update_nil_of_eq_nil hnil, hfree, bind, Except.bind, pure, Except.pure]
    · exact Finset.erase_insert s.heap.next_notMem

/-- Appending to an empty list. -/
theorem append_nil (hp : p ∈ s.heap.live) (hnil : s.lists p = []) :
    appendToRegistration c d p s =
      if c.alloc .dataItem then
        .ok (.ok, { s with
          heap := s.heap.grow, lists := Function.update s.lists p [⟨s.heap.next, d⟩] })
      else .ok (.generalReject, s) := by
  cases hitem : c.alloc .dataItem with
  | false =>
    have htraverse : s.heap.traverse p [] = .ok () :=
      Ledger.traverse_of_mem (by simpa using hp)
    simp [appendToRegistration, State.malloc, State.freeItems, State.traverse, hitem, hnil,
      htraverse, Ledger.freeAll, update_nil_of_eq_nil hnil, bind, Except.bind, pure, Except.pure]
  | true =>
    have htraverse : s.heap.grow.traverse p [] = .ok () :=
      Ledger.traverse_of_mem (by simp [hp])
    simp [appendToRegistration, State.malloc, State.traverse, hitem, hnil, htraverse, bind,
      Except.bind, pure, Except.pure]

theorem register_ok (reg : Reg F) (hid : findNextDynamicId s ≠ 0)
    (hreg : c.alloc .heapReg = true) :
    udsRegisterEventHandler I c reg s =
      (0, findNextDynamicId s, { s with
        heap := s.heap.grow
        dynamicRegistrations := s.dynamicRegistrations ++
          [⟨s.heap.next,
            { reg with inst := some I.ptr, dynamicRegistrationId := findNextDynamicId s }⟩] }) := by
  simp [udsRegisterEventHandler, hid, State.malloc, hreg]

theorem register_fails (reg : Reg F)
    (h : ¬ (findNextDynamicId s ≠ 0 ∧ c.alloc .heapReg = true)) :
    ∃ ret, ret < 0 ∧ udsRegisterEventHandler I c reg s = (ret, 0, s) := by
  by_cases hid : findNextDynamicId s = 0
  · exact ⟨-ENOSPC, by decide, by simp [udsRegisterEventHandler, hid]⟩
  · have hreg : c.alloc .heapReg = false := by
      by_contra ht
      exact h ⟨hid, by simpa using ht⟩
    exact ⟨-ENOMEM, by decide, by simp [udsRegisterEventHandler, hid, State.malloc, hreg]⟩

end Steps

/-- Three fresh blocks handed out and freed again. -/
theorem live_of_fresh (L : Ledger) :
    (((insert (L.next + 1 + 1) (insert (L.next + 1) (insert L.next L.live))) \
      [L.next + 2].toFinset).erase L.next).erase (L.next + 1) = L.live := by
  ext b
  have := L.lt_next b
  simp only [List.toFinset_cons, List.toFinset_nil, Finset.mem_erase, Finset.mem_sdiff,
    Finset.mem_insert]
  grind

/-! ## A new identifier -/

section Define

variable {x : UInt16} {d : DefinedData}

/-- The allocations a new identifier needs before it is registered, and
the registration. -/
def AllocatesNew (c : Choices F) (s : State F) : Prop :=
  c.alloc .dataList = true ∧ c.alloc .tempReg = true ∧ c.alloc .dataItem = true ∧
    findNextDynamicId s ≠ 0 ∧ c.alloc .heapReg = true

/-- The registration of a new identifier: the fourth fresh block. -/
def newRegistration (I : Instance F) (x : UInt16) (s : State F) : HeapRegistration F :=
  ⟨s.heap.next + 3,
    { dynamicIdentifier I x s.heap.next with dynamicRegistrationId := findNextDynamicId s }⟩

/-- The state once a new identifier is registered and before it is
tracked, with the temporary registration still live. -/
def registered (I : Instance F) (x : UInt16) (d : DefinedData) (s : State F) : State F :=
  { s with
    heap := s.heap.grow.grow.grow.grow
    lists := Function.update s.lists s.heap.next [⟨s.heap.next + 2, d⟩]
    dynamicRegistrations := s.dynamicRegistrations ++ [newRegistration I x s] }

/-- The state once a new identifier is defined. -/
def defined (I : Instance F) (x : UInt16) (d : DefinedData) (s : State F) : State F :=
  { registered I x d s with
    heap := (s.heap.grow.grow.grow.grow.grow).drop (s.heap.next + 1)
    idLists := Function.update s.idLists I.handler
      (s.idLists I.handler ++ [⟨s.heap.next + 4, findNextDynamicId s⟩]) }

theorem isDefined_newRegistration : (newRegistration I x s).isDefined = true := rfl

/-- A define request for a new identifier, up to its registration. -/
theorem define_new_eq (hdead : ∀ p, p ∉ s.heap.live → s.lists p = [])
    (hnew : udsFindExistingRegistrationByDataId I x s = none)
    (hlist : c.alloc .dataList = true) (htemp : c.alloc .tempReg = true)
    (hitem : c.alloc .dataItem = true) :
    defineAddNewId I c (appendToRegistration c d) x s =
      (do
        let (ret, t) ← udsRegisterNewDataByIdItem I c
          ⟨s.heap.next + 1, dynamicIdentifier I x s.heap.next⟩
          { s with
            heap := s.heap.grow.grow.grow
            lists := Function.update s.lists s.heap.next [⟨s.heap.next + 2, d⟩] }
        if ret ≠ .ok then do
          let t ← t.freeItems s.heap.next
          let t ← t.freeList s.heap.next
          let t ← t.free (s.heap.next + 1)
          pure (ret, t)
        else pure (.ok, t)) := by
  have happend := append_nil (c := c) (d := d) (p := s.heap.next)
    (s := { s with heap := s.heap.grow.grow }) (by simp) (lists_next hdead)
  rw [if_pos hitem] at happend
  simp only [defineAddNewId, hnew, create_ok hdead hlist htemp, bind, Except.bind]
  have hptr : dataPtr (dynamicIdentifier I x s.heap.next) = s.heap.next := rfl
  rw [hptr, happend]
  simp

/-- The registration of a new identifier fails: the caller frees the item,
the list and the temporary. -/
theorem define_new_register_fails (h : Inv I s)
    (hnew : udsFindExistingRegistrationByDataId I x s = none)
    (hlist : c.alloc .dataList = true) (htemp : c.alloc .tempReg = true)
    (hitem : c.alloc .dataItem = true)
    (hreg : ¬ (findNextDynamicId s ≠ 0 ∧ c.alloc .heapReg = true)) :
    ∃ ret s', ret ≠ .ok ∧
      defineAddNewId I c (appendToRegistration c d) x s = .ok (ret, s') ∧ Unchanged s s' := by
  have hnil := lists_next h.dead
  set t : State F := { s with
    heap := s.heap.grow.grow.grow
    lists := Function.update s.lists s.heap.next [⟨s.heap.next + 2, d⟩] } with ht
  obtain ⟨ret, hneg, hrun⟩ := register_fails (I := I) (s := t) (c := c)
    (dynamicIdentifier I x s.heap.next) hreg
  have hheld : t.heap.Holds (s.heap.next :: (t.lists s.heap.next).map (·.addr) ++
      (s.heap.next + 1) :: blocks I s) := by
    refine h.held.grow.grow.grow.perm ?_
    simp only [ht, Function.update_self, List.map_cons, List.map_nil, List.cons_append,
      List.nil_append, Ledger.next_grow]
    exact @List.perm_middle _ _ [s.heap.next + 1 + 1, s.heap.next + 1] _
  obtain ⟨t₁, hfree, hheld₁, hlive, hlists, hids, hregs⟩ := freeItems_ok hheld
  obtain ⟨hfreeList, hheld₂⟩ := freeList_ok hheld₁
  refine ⟨ret, { s with heap := (t₁.heap.drop s.heap.next).drop (s.heap.next + 1) },
    hneg.ne, ?_, ?_, rfl, rfl, rfl⟩
  · rw [define_new_eq h.dead hnew hlist htemp hitem, ← ht]
    simp only [udsRegisterNewDataByIdItem, hrun, if_pos hneg, bind, Except.bind, pure,
      Except.pure, if_pos hneg.ne, hfree, hfreeList, State.free, hheld₂.free.1]
    have hback : Function.update t₁.lists s.heap.next [] = s.lists := by
      rw [hlists, ht]
      simp only [Function.update_idem]
      exact update_nil_of_eq_nil hnil
    rw [hback, hids, hregs]
  · simp only [Ledger.live_drop, hlive, ht, Ledger.live_grow, Ledger.next_grow,
      Function.update_self, List.map_cons, List.map_nil]
    exact live_of_fresh s.heap

/-- The item of a new identifier fails: the list is empty, and the caller
frees it and the temporary. -/
theorem define_new_item_fails (h : Inv I s)
    (hnew : udsFindExistingRegistrationByDataId I x s = none)
    (hlist : c.alloc .dataList = true) (htemp : c.alloc .tempReg = true)
    (hitem : ¬ c.alloc .dataItem = true) :
    ∃ ret s', ret ≠ .ok ∧
      defineAddNewId I c (appendToRegistration c d) x s = .ok (ret, s') ∧ Unchanged s s' := by
  have hnil := lists_next h.dead
  have happend := append_nil (c := c) (d := d) (p := s.heap.next)
    (s := { s with heap := s.heap.grow.grow }) (by simp) hnil
  rw [if_neg hitem] at happend
  have hheld : s.heap.grow.grow.Holds (s.heap.next :: (s.heap.next + 1) :: blocks I s) :=
    h.held.grow.grow.perm (List.Perm.swap _ _ _)
  obtain ⟨hfreeList, hheld₁⟩ :=
    freeList_ok (s := { s with heap := s.heap.grow.grow }) hheld
  refine ⟨.generalReject,
    { s with heap := (s.heap.grow.grow.drop s.heap.next).drop (s.heap.next + 1) },
    by decide, ?_, ?_, rfl, rfl, rfl⟩
  · have hptr : dataPtr (dynamicIdentifier I x s.heap.next) = s.heap.next := rfl
    simp only [defineAddNewId, hnew, create_ok h.dead hlist htemp, bind, Except.bind, hptr,
      happend, hfreeList, State.free, hheld₁.free.1, pure, Except.pure,
      update_nil_of_eq_nil hnil]
    rfl
  · ext b
    have := s.heap.lt_next b
    simp only [Ledger.live_drop, Ledger.live_grow, Ledger.next_grow, Finset.mem_erase,
      Finset.mem_insert]
    grind

/-- **A new identifier that fails early.** Where one of the first four
allocations or the registration fails, the answer is negative and nothing
has changed. -/
theorem define_new_fails (h : Inv I s)
    (hnew : udsFindExistingRegistrationByDataId I x s = none) (hfail : ¬ AllocatesNew c s) :
    ∃ ret s', ret ≠ .ok ∧
      defineAddNewId I c (appendToRegistration c d) x s = .ok (ret, s') ∧ Unchanged s s' := by
  by_cases hcreate : c.alloc .dataList = true ∧ c.alloc .tempReg = true
  · obtain ⟨hlist, htemp⟩ := hcreate
    by_cases hitem : c.alloc .dataItem = true
    · have hreg : ¬ (findNextDynamicId s ≠ 0 ∧ c.alloc .heapReg = true) :=
        fun hr => hfail ⟨hlist, htemp, hitem, hr.1, hr.2⟩
      exact define_new_register_fails h hnew hlist htemp hitem hreg
    · exact define_new_item_fails h hnew hlist htemp hitem
  · obtain ⟨e, s', hrun, hsame⟩ := create_fails (I := I) (c := c) (x := x) h.dead hcreate
    exact ⟨.generalReject, s', by decide,
      by simp [defineAddNewId, hnew, hrun, bind, Except.bind, pure, Except.pure], hsame⟩

/-- A registration that was there owns the same blocks beside a new
list. -/
theorem regBlocks_of_fresh (h : Owned I s) {q : HeapRegistration F}
    (hq : q ∈ s.dynamicRegistrations) (items : List DataItem) :
    regBlocks (Function.update s.lists s.heap.next items) q = regBlocks s.lists q := by
  by_cases hd : q.isDefined = true
  · have hne : dataPtr q.reg ≠ s.heap.next := by
      intro heq
      have hlive := h.held.live _ (mem_blocks_of_reg hq (dataPtr_mem_regBlocks hd))
      exact s.heap.next_notMem (heq ▸ hlive)
    simp [regBlocks, hd, Function.update_of_ne hne]
  · simp [regBlocks, hd]

/-- Once registered, the new identifier owns its blocks, and the temporary
registration is still held beside them. -/
theorem owned_registered (h : Inv I s) (hid : findNextDynamicId s ≠ 0)
    (hnew : udsFindExistingRegistrationByDataId I x s = none) :
    Owned I (registered I x d s) ∧
      (registered I x d s).heap.Holds
        ((s.heap.next + 1) :: blocks I (registered I x d s)) := by
  have hold : s.dynamicRegistrations.flatMap (regBlocks (registered I x d s).lists) =
      s.dynamicRegistrations.flatMap (regBlocks s.lists) :=
    List.flatMap_congr fun q hq => regBlocks_of_fresh h.toOwned hq _
  have hblocks : blocks I (registered I x d s) =
      s.dynamicRegistrations.flatMap (regBlocks s.lists) ++
        [s.heap.next + 3, s.heap.next, s.heap.next + 2] ++
        (s.idLists I.handler).map (·.addr) := by
    unfold blocks
    rw [registered, List.flatMap_append]
    have hnewBlocks : regBlocks (Function.update s.lists s.heap.next [⟨s.heap.next + 2, d⟩])
        (newRegistration I x s) = [s.heap.next + 3, s.heap.next, s.heap.next + 2] := by
      have hptr : dataPtr (newRegistration I x s).reg = s.heap.next := rfl
      rw [regBlocks, if_pos isDefined_newRegistration, hptr]
      simp [newRegistration]
    rw [List.flatMap_singleton, hnewBlocks, hold.symm]
    rfl
  have hheld : (registered I x d s).heap.Holds
      ((s.heap.next + 1) :: blocks I (registered I x d s)) := by
    -- the same blocks in another order: the new ones stand where they are owned
    refine h.held.grow.grow.grow.grow.perm (List.perm_iff_count.mpr fun b => ?_)
    rw [hblocks, blocks]
    simp only [List.count_append, List.count_cons, Ledger.next_grow, List.count_nil,
      Nat.add_assoc, Nat.reduceAdd]
    omega
  refine ⟨h.append (r := newRegistration I x s) rfl rfl hid (findNextDynamicId_fresh hid)
    (fun _ => ⟨x, s.heap.next, rfl⟩) (fun hd => Bool.noConfusion hd)
    (fun _ q hq hd => h.existing_of_none hnew q hq hd) ?_ fun p hne => ?_, hheld⟩
  · exact ⟨(List.nodup_cons.mp hheld.nodup).2,
      fun b hb => hheld.live b (List.mem_cons_of_mem _ hb)⟩
  · by_cases hp : p = s.heap.next
    · exact .inr ⟨isDefined_newRegistration, hp.symm⟩
    · exact .inl (by simpa [registered, Function.update_of_ne hp] using hne)

/-- **A registration that cannot be tracked** is taken back, and its
unregister function frees its list. -/
theorem registerItem_untracked (h : Inv I s)
    (hnew : udsFindExistingRegistrationByDataId I x s = none) (halloc : AllocatesNew c s)
    (hitem : c.alloc .regIdItem = false) :
    ∃ t, udsRegisterNewDataByIdItem I c ⟨s.heap.next + 1, dynamicIdentifier I x s.heap.next⟩
        { s with
          heap := s.heap.grow.grow.grow
          lists := Function.update s.lists s.heap.next [⟨s.heap.next + 2, d⟩] } =
        .ok (.generalReject, t) ∧
      s.heap.next ∉ t.heap.live := by
  obtain ⟨-, -, -, hid, hreg⟩ := halloc
  obtain ⟨howned, -⟩ := owned_registered (d := d) h hid hnew
  obtain ⟨t, hrun, -, -, -, -, hlive⟩ := unregister_defined (c := c) howned
    (r := newRegistration I x s) (List.mem_append_right _ (List.mem_singleton.mpr rfl))
    isDefined_newRegistration
  have hrun : udsUnregisterEventHandler c (findNextDynamicId s) (registered I x d s) =
      .ok (0, t) := hrun
  have hgone : s.heap.next ∉ t.heap.live := by
    rw [hlive, Finset.mem_sdiff]
    exact fun hm => hm.2 (List.mem_toFinset.mpr
      (dataPtr_mem_regBlocks (r := newRegistration I x s) isDefined_newRegistration))
  have hregister := register_ok (I := I) (c := c)
    (s := { s with
      heap := s.heap.grow.grow.grow
      lists := Function.update s.lists s.heap.next [⟨s.heap.next + 2, d⟩] })
    (dynamicIdentifier I x s.heap.next) hid hreg
  refine ⟨t, ?_, hgone⟩
  simp only [udsRegisterNewDataByIdItem, hregister, lt_irrefl, if_false, State.malloc, hitem,
    Ledger.malloc_false]
  show (udsUnregisterEventHandler c (findNextDynamicId s) (registered I x d s)).bind _ = _
  rw [hrun]
  rfl

/-- **A new identifier that cannot be tracked.** The caller walks the list
that went with the registration: the request faults. -/
theorem define_new_regIdItem (h : Inv I s)
    (hnew : udsFindExistingRegistrationByDataId I x s = none) (halloc : AllocatesNew c s)
    (hitem : c.alloc .regIdItem = false) :
    defineAddNewId I c (appendToRegistration c d) x s =
      .error (.traversed s.heap.next) := by
  obtain ⟨t, hrun, hgone⟩ := registerItem_untracked (d := d) h hnew halloc hitem
  obtain ⟨hlist, htemp, hdata, -, -⟩ := halloc
  have hne : UDSErr.generalReject ≠ UDSErr.ok := by decide
  rw [define_new_eq h.dead hnew hlist htemp hdata, hrun]
  simp only [bind, Except.bind, if_pos hne, State.freeItems, State.traverse,
    Ledger.traverse_of_notMem hgone]

/-- A new identifier with all its allocations. -/
theorem define_new_ok (h : Inv I s)
    (hnew : udsFindExistingRegistrationByDataId I x s = none) (halloc : AllocatesNew c s)
    (hitem : c.alloc .regIdItem = true) :
    defineAddNewId I c (appendToRegistration c d) x s = .ok (.ok, defined I x d s) := by
  obtain ⟨hlist, htemp, hdata, hid, hreg⟩ := halloc
  have hregister := register_ok (I := I) (c := c)
    (s := { s with
      heap := s.heap.grow.grow.grow
      lists := Function.update s.lists s.heap.next [⟨s.heap.next + 2, d⟩] })
    (dynamicIdentifier I x s.heap.next) hid hreg
  have hfree : s.heap.grow.grow.grow.grow.grow.free (s.heap.next + 1) =
      .ok (s.heap.grow.grow.grow.grow.grow.drop (s.heap.next + 1)) :=
    Ledger.free_of_mem (by simp)
  rw [define_new_eq h.dead hnew hlist htemp hdata]
  simp only [udsRegisterNewDataByIdItem, hregister, lt_irrefl, if_false, State.malloc, hitem,
    Ledger.malloc_true, bind, Except.bind, State.free, hfree]
  rfl

/-- **A defined identifier** is owned and tracked. -/
theorem inv_defined (h : Inv I s) (hid : findNextDynamicId s ≠ 0)
    (hnew : udsFindExistingRegistrationByDataId I x s = none) : Inv I (defined I x d s) := by
  obtain ⟨howned, hheld⟩ := owned_registered (d := d) h hid hnew
  have hblocks : (blocks I (defined I x d s)).Perm
      ((s.heap.next + 4) :: blocks I (registered I x d s)) := by
    refine List.perm_iff_count.mpr fun b => ?_
    simp only [blocks, defined, registered, Function.update_self, List.map_append, List.map_cons,
      List.map_nil, List.count_append, List.count_cons, List.count_nil]
    omega
  have hheld' := (hheld.grow.perm (List.Perm.swap _ _ _)).free.2
  refine ⟨⟨howned.ids, howned.idsPos, howned.shape, howned.application, howned.dataIds,
    fun ptr hptr => ?_, hheld'.perm hblocks.symm, howned.supported⟩, ?_⟩
  · exact (Function.update_of_ne hptr _ _).trans (h.others ptr hptr)
  · simp only [defined, registered, Function.update_self, List.map_append, h.tracked,
      List.filter_append]
    rfl

end Define

/-! ## An identifier that exists -/

section Existing

variable {x : UInt16} {d : DefinedData} {r : HeapRegistration F}

/-- The blocks of a list that is held, its items in front. -/
theorem Owned.holds_list (h : Owned I s) (hr : r ∈ s.dynamicRegistrations)
    (hd : r.isDefined = true) :
    ∃ pre post, s.dynamicRegistrations = pre ++ r :: post ∧
      s.heap.Holds (dataPtr r.reg :: (s.lists (dataPtr r.reg)).map (·.addr) ++
        r.addr :: ((pre ++ post).flatMap (regBlocks s.lists) ++
          (s.idLists I.handler).map (·.addr))) := by
  obtain ⟨pre, post, hs⟩ := List.append_of_mem hr
  refine ⟨pre, post, hs, (h.held.perm (blocks_perm_of_split hs)).perm ?_⟩
  rw [regBlocks, if_pos hd]
  exact (@List.perm_middle _ _ (_ :: _) _).symm

/-- **Another list for an identifier**, its items held, keeps the
invariant. -/
theorem Inv.of_list (h : Inv I s) (hr : r ∈ s.dynamicRegistrations) (hd : r.isDefined = true)
    {t : State F} {pre post : List (HeapRegistration F)} {items : List DataItem}
    (hs : s.dynamicRegistrations = pre ++ r :: post)
    (hlists : t.lists = Function.update s.lists (dataPtr r.reg) items)
    (hids : t.idLists = s.idLists) (hregs : t.dynamicRegistrations = s.dynamicRegistrations)
    (hheld : t.heap.Holds (dataPtr r.reg :: items.map (·.addr) ++
      r.addr :: ((pre ++ post).flatMap (regBlocks s.lists) ++
        (s.idLists I.handler).map (·.addr)))) : Inv I t := by
  have hothers : (pre ++ post).flatMap (regBlocks t.lists) =
      (pre ++ post).flatMap (regBlocks s.lists) :=
    List.flatMap_congr fun q hq => by
      obtain ⟨hmem, hne, -, -⟩ := h.ne_of_mem_split hs hq
      rw [hlists]
      exact h.regBlocks_update hr hd hmem hne items
  have hblocks := blocks_perm_of_split (I := I) (s := t) (hregs.trans hs)
  rw [hothers, hids, regBlocks, if_pos hd, hlists, Function.update_self] at hblocks
  refine ⟨⟨?_, ?_, ?_, ?_, ?_, ?_, ?_, fun p hne => ?_⟩, ?_⟩
  · rw [hregs]; exact h.ids
  · rw [hregs]; exact h.idsPos
  · rw [hregs]; exact h.shape
  · rw [hregs]; exact h.application
  · rw [hregs]; exact h.dataIds
  · rw [hids]; exact h.others
  · exact (hheld.perm (@List.perm_middle _ _ (_ :: _) _)).perm hblocks.symm
  · rw [hregs]
    by_cases hp : p = dataPtr r.reg
    · exact ⟨r, hr, hd, hp.symm⟩
    · rw [hlists, Function.update_of_ne hp] at hne
      exact h.supported p hne
  · rw [hids, hregs]; exact h.tracked

/-- The state with one more element at the end of an identifier's list. -/
def appended (d : DefinedData) (r : HeapRegistration F) (s : State F) : State F :=
  { s with
    heap := s.heap.grow
    lists := Function.update s.lists (dataPtr r.reg)
      (s.lists (dataPtr r.reg) ++ [⟨s.heap.next, d⟩]) }

/-- **One more element** where its block can be had. -/
theorem define_existing_ok (h : Inv I s)
    (hfind : udsFindExistingRegistrationByDataId I x s = some r)
    (hitem : c.alloc .dataItem = true) :
    defineAddNewId I c (appendToRegistration c d) x s =
      .ok (.ok, appended d r s) := by
  obtain ⟨hr, hd, -⟩ := h.existing_of_some hfind
  obtain ⟨pre, post, -, hheld⟩ := h.holds_list hr hd
  have htraverse : s.heap.grow.traverse (dataPtr r.reg)
      ((s.lists (dataPtr r.reg)).map (·.addr)) = .ok () :=
    Ledger.traverse_of_mem fun b hb => by
      rw [Ledger.live_grow]
      exact Finset.mem_insert_of_mem (hheld.left.live b hb)
  simp [defineAddNewId, hfind, appendToRegistration, State.malloc, State.traverse, hitem,
    htraverse, appended, bind, Except.bind, pure, Except.pure]

theorem inv_appended (h : Inv I s) (hr : r ∈ s.dynamicRegistrations) (hd : r.isDefined = true) :
    Inv I (appended d r s) := by
  obtain ⟨pre, post, hs, hheld⟩ := h.holds_list hr hd
  refine h.of_list (t := appended d r s) hr hd hs rfl rfl rfl
    (hheld.grow.perm (List.perm_iff_count.mpr fun b => ?_))
  simp only [List.map_append, List.map_cons, List.map_nil, List.count_append, List.count_cons,
    List.count_nil]
  omega

/-- **No room for one more element**: the identifier loses those it
had. -/
theorem define_existing_fails (h : Inv I s)
    (hfind : udsFindExistingRegistrationByDataId I x s = some r)
    (hitem : c.alloc .dataItem = false) :
    ∃ s', defineAddNewId I c (appendToRegistration c d) x s = .ok (.generalReject, s') ∧
      s'.heap.live = s.heap.live \ ((s.lists (dataPtr r.reg)).map (·.addr)).toFinset ∧
      s'.lists = Function.update s.lists (dataPtr r.reg) [] ∧ s'.idLists = s.idLists ∧
      s'.dynamicRegistrations = s.dynamicRegistrations ∧ Inv I s' := by
  obtain ⟨hr, hd, -⟩ := h.existing_of_some hfind
  obtain ⟨pre, post, hs, hheld⟩ := h.holds_list hr hd
  obtain ⟨s', hfree, hheld', hlive, hlists, hids, hregs⟩ := freeItems_ok hheld
  refine ⟨s', ?_, hlive, hlists, hids, hregs, ?_⟩
  · simp [defineAddNewId, hfind, appendToRegistration, State.malloc, hitem, hfree, bind,
      Except.bind, pure, Except.pure]
  · exact h.of_list hr hd hs hlists hids hregs hheld'

end Existing

/-! ## What a define request can do -/

section Cases

variable {x : UInt16} {d : DefinedData} {ret : UDSErr}

/-- An identifier loses its elements, and all else is as it was. -/
structure Emptied (r : HeapRegistration F) (s s' : State F) : Prop where
  lists : s'.lists = Function.update s.lists (dataPtr r.reg) []
  idLists : s'.idLists = s.idLists
  dynamicRegistrations : s'.dynamicRegistrations = s.dynamicRegistrations

/-- **A define request that is answered** adds an element to an identifier
that exists, defines a new one, changes nothing, or takes the elements of
an identifier that exists. -/
theorem define_cases (h : Inv I s)
    (hrun : defineAddNewId I c (appendToRegistration c d) x s = .ok (ret, s')) :
    (∃ r, udsFindExistingRegistrationByDataId I x s = some r ∧ ret = .ok ∧
      s' = appended d r s) ∨
    (udsFindExistingRegistrationByDataId I x s = none ∧ findNextDynamicId s ≠ 0 ∧ ret = .ok ∧
      s' = defined I x d s) ∨
    (ret ≠ .ok ∧ Unchanged s s') ∨
    ∃ r, udsFindExistingRegistrationByDataId I x s = some r ∧ ret ≠ .ok ∧ Emptied r s s' ∧
      Inv I s' := by
  cases hfind : udsFindExistingRegistrationByDataId I x s with
  | some r =>
    cases hitem : c.alloc .dataItem with
    | true =>
      rw [define_existing_ok h hfind hitem, Except.ok.injEq, Prod.mk.injEq] at hrun
      exact .inl ⟨r, rfl, hrun.1.symm, hrun.2.symm⟩
    | false =>
      obtain ⟨t, hfail, -, hlists, hids, hregs, hinv⟩ :=
        define_existing_fails (d := d) h hfind hitem
      rw [hfail, Except.ok.injEq, Prod.mk.injEq] at hrun
      obtain ⟨rfl, rfl⟩ := hrun
      exact .inr (.inr (.inr ⟨r, rfl, by decide, ⟨hlists, hids, hregs⟩, hinv⟩))
  | none =>
    by_cases halloc : AllocatesNew c s
    · cases hitem : c.alloc .regIdItem with
      | true =>
        rw [define_new_ok h hfind halloc hitem, Except.ok.injEq, Prod.mk.injEq] at hrun
        exact .inr (.inl ⟨rfl, halloc.2.2.2.1, hrun.1.symm, hrun.2.symm⟩)
      | false =>
        rw [define_new_regIdItem h hfind halloc hitem] at hrun
        cases hrun
    · obtain ⟨ret', t, hne, hfail, hsame⟩ := define_new_fails (d := d) h hfind halloc
      rw [hfail, Except.ok.injEq, Prod.mk.injEq] at hrun
      obtain ⟨rfl, rfl⟩ := hrun
      exact .inr (.inr (.inl ⟨hne, hsame⟩))

/-- The define requests keep the invariant where they do not fault. -/
theorem inv_define (h : Inv I s)
    (hrun : defineAddNewId I c (appendToRegistration c d) x s = .ok (ret, s')) : Inv I s' := by
  rcases define_cases h hrun with
    ⟨r, hfind, -, rfl⟩ | ⟨hfind, hid, -, rfl⟩ | ⟨-, hsame⟩ | ⟨r, -, -, -, hinv⟩
  · obtain ⟨hr, hd, -⟩ := h.existing_of_some hfind
    exact inv_appended h hr hd
  · exact inv_defined h hid hfind
  · exact hsame.inv h
  · exact hinv

end Cases

end Dynamic

end Uds

end Ardep
