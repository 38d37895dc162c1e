import Ardep.Common.Machine
import Ardep.Iso14229.Model
/-!
# An injected frame against a received one

`InjectedAsReceived` is what the injection promises: the queues are left
as the reception of the frame under the address asked for leaves them, and
the next tick makes the same calls. The address decides the queue only for
a received frame, through the filters. An injected one is put in the
physical queue under either address.

`injectedAsReceived_iff` is the exact condition. It goes by the queue: an
injection offers to the physical one and leaves the other, and so must a
reception do, except where a full queue hides the difference.
-/

namespace Ardep

namespace Iso14229

open Lin (canStdIdMask)

variable {σ : Type} {ctrl : Controller} {filters : List RxFilter} {inst inst' : Instance}
  {frame : CanFrame} {functionalAddress : Bool} {q : Msgq}

/-- **Injected as received**: the injection leaves each queue as the
reception of the frame under the same address does, and the next tick
hands on the same. -/
structure InjectedAsReceived (ctrl : Controller) (filters : List RxFilter) (inst : Instance)
    (frame : CanFrame) (functionalAddress : Bool) : Prop where
  msgq : ∀ q, (iso14229InjectCanFrameRx inst frame functionalAddress).2.msgq q =
    (ctrl.receive filters (frame.withId (inst.sourceAddr functionalAddress)) inst).msgq q
  tick : (iso14229ZephyrEventLoopTick (iso14229InjectCanFrameRx inst frame functionalAddress).2).1 =
    (iso14229ZephyrEventLoopTick
      (ctrl.receive filters (frame.withId (inst.sourceAddr functionalAddress)) inst)).1

/-! ## The condition -/

/-- The frame has a standard id. -/
def CanFrame.Standard (frame : CanFrame) : Prop := frame.flags &&& canFrameIde = 0

instance (frame : CanFrame) : Decidable frame.Standard := inferInstanceAs (Decidable (_ = _))

namespace Instance

/-- The two addresses agree in the bits of a standard id. -/
def SameStdId (inst : Instance) : Prop := (inst.physSa ^^^ inst.funcSa) &&& canStdIdMask = 0

instance (inst : Instance) : Decidable inst.SameStdId := inferInstanceAs (Decidable (_ = _))

/-- Both filters are installed, and no frame passes only one. -/
def Overlap (inst : Instance) : Prop := inst.funcSa ≠ udsTpNoopAddr ∧ inst.SameStdId

instance (inst : Instance) : Decidable inst.Overlap := inferInstanceAs (Decidable (_ ∧ _))

/-- The filter of a queue is installed and passes the frame under the
address. -/
def Passes (inst : Instance) (frame : CanFrame) (functionalAddress : Bool) : Msgq → Prop
  | .canPhysMsgq => frame.Standard ∧ (functionalAddress = true → inst.SameStdId)
  | .canFuncMsgq =>
    frame.Standard ∧ inst.funcSa ≠ udsTpNoopAddr ∧ (functionalAddress = false → inst.SameStdId)

instance : Decidable (inst.Passes frame functionalAddress q) :=
  match q with
  | .canPhysMsgq => inferInstanceAs (Decidable (_ ∧ _))
  | .canFuncMsgq => inferInstanceAs (Decidable (_ ∧ _))

/-- The frame under the address is put in the queue: it is taken from the
bus, the filter passes it, and where both do the hardware serves this one. -/
def Reaches (ctrl : Controller) (inst : Instance) (frame : CanFrame) (functionalAddress : Bool)
    (q : Msgq) : Prop :=
  ctrl.takes frame.flags = true ∧ inst.Passes frame functionalAddress q ∧
    (inst.Overlap →
      q ∈ ctrl.serves (frame.withId (inst.sourceAddr functionalAddress))
        [.canPhysMsgq, .canFuncMsgq])

instance : Decidable (inst.Reaches ctrl frame functionalAddress q) :=
  inferInstanceAs (Decidable (_ ∧ _))

/-- **The two routes end alike**: the frame would reach the physical queue,
and only that one, as far as there is room to tell. -/
def RoutesAlike (ctrl : Controller) (inst : Instance) (frame : CanFrame)
    (functionalAddress : Bool) : Prop :=
  (inst.canPhysMsgq.Full ∨ inst.Reaches ctrl frame functionalAddress .canPhysMsgq) ∧
    (inst.canFuncMsgq.Full ∨ ¬ inst.Reaches ctrl frame functionalAddress .canFuncMsgq)

instance : Decidable (inst.RoutesAlike ctrl frame functionalAddress) :=
  inferInstanceAs (Decidable (_ ∧ _))

end Instance

/-! ## The callback -/

theorem Instance.msgq_canRxCb {r : Msgq} :
    (canRxCb frame r inst).msgq q = if q = r then (inst.msgq q).offer frame else inst.msgq q := by
  cases r <;> cases q <;> rfl

/-- **Callbacks of different queues** offer the frame once to each. -/
theorem Instance.msgq_foldl_canRxCb {queues : List Msgq} (h : queues.Nodup) :
    (queues.foldl (fun i q => canRxCb frame q i) inst).msgq q =
      if q ∈ queues then (inst.msgq q).offer frame else inst.msgq q := by
  induction queues generalizing inst with
  | nil => rfl
  | cons r queues ih =>
    obtain ⟨hr, hnodup⟩ := List.nodup_cons.mp h
    rw [List.foldl_cons, ih hnodup, msgq_canRxCb]
    -- the head is not offered to again by the rest
    by_cases hq : q = r
    · subst hq
      rw [if_neg hr, if_pos rfl, if_pos List.mem_cons_self]
    · simp only [hq, if_false, List.mem_cons, false_or]

theorem CanFrame.flags_withId {id : UInt32} : (frame.withId id).flags = frame.flags := rfl

/-- What an injection leaves in a queue. -/
theorem msgq_inject :
    (iso14229InjectCanFrameRx inst frame functionalAddress).2.msgq q =
      if q = .canPhysMsgq then
        (inst.msgq q).offer (frame.withId (inst.sourceAddr functionalAddress))
      else inst.msgq q :=
  Instance.msgq_canRxCb

/-! ## The tick -/

/-- The call that hands a frame to a link. -/
def handOn (link : Link) (frame : CanFrame) : LibraryCall :=
  .isotpOnCanMessage link frame.data frame.dlc

/-- **A tick** hands on what waits, the physical queue first, and leaves
both empty. -/
theorem iso14229ZephyrEventLoopTick_eq :
    iso14229ZephyrEventLoopTick inst =
      (inst.canPhysMsgq.msgs.map (handOn .physLink) ++
          inst.canFuncMsgq.msgs.map (handOn .funcLink) ++ [.udsServerPoll],
        inst.withQueues .empty .empty) := by
  rw [iso14229ZephyrEventLoopTick, MsgQueue.drain_eq, MsgQueue.drain_eq]
  rfl

/-- **Under either address** an injected frame is handed to the physical
link, if there is room for it. -/
theorem tick_inject (h : ¬ inst.canPhysMsgq.Full) :
    (iso14229ZephyrEventLoopTick (iso14229InjectCanFrameRx inst frame functionalAddress).2).1 =
      inst.canPhysMsgq.msgs.map (handOn .physLink) ++ [handOn .physLink frame] ++
        inst.canFuncMsgq.msgs.map (handOn .funcLink) ++ [.udsServerPoll] := by
  have hphys : (iso14229InjectCanFrameRx inst frame functionalAddress).2.canPhysMsgq.msgs =
      inst.canPhysMsgq.msgs ++ [frame.withId (inst.sourceAddr functionalAddress)] :=
    MsgQueue.msgs_offer_of_not_full h
  rw [iso14229ZephyrEventLoopTick_eq, hphys, List.map_append]
  rfl

/-- The calls of a tick are read off the queues. -/
theorem tick_congr (h : ∀ q, inst.msgq q = inst'.msgq q) :
    (iso14229ZephyrEventLoopTick inst).1 = (iso14229ZephyrEventLoopTick inst').1 := by
  have hphys : inst.canPhysMsgq = inst'.canPhysMsgq := h .canPhysMsgq
  have hfunc : inst.canFuncMsgq = inst'.canFuncMsgq := h .canFuncMsgq
  rw [iso14229ZephyrEventLoopTick_eq, iso14229ZephyrEventLoopTick_eq, hphys, hfunc]

/-! ## What a controller serves -/

namespace Controller

/-- A frame that one filter passes at most is left no choice. -/
theorem serves_of_length_le_one {queues : List Msgq} (h : queues.length ≤ 1) :
    ctrl.serves frame queues = queues := by
  cases queues with
  | nil => exact List.sublist_nil.mp (ctrl.serves_sublist frame [])
  | cons r queues =>
    have hsome := List.length_pos_iff.mpr
      (ctrl.serves_ne_nil frame (r :: queues) (List.cons_ne_nil r queues))
    exact (ctrl.serves_sublist frame _).eq_of_length_le (h.trans hsome)

theorem mem_queues (q : Msgq) : q ∈ [Msgq.canPhysMsgq, .canFuncMsgq] := by
  cases q <;> simp

/-- **A queue whose filter passes is served**, unless the other filter does
too and is served in its place. -/
theorem mem_serves_filter {p : Msgq → Prop} [DecidablePred p] :
    q ∈ ctrl.serves frame ([.canPhysMsgq, .canFuncMsgq].filter p) ↔
      p q ∧ ((∀ r, p r) → q ∈ ctrl.serves frame [.canPhysMsgq, .canFuncMsgq]) := by
  by_cases hall : ∀ r, p r
  · rw [List.filter_eq_self.mpr fun r _ => decide_eq_true (hall r)]
    exact ⟨fun h => ⟨hall q, fun _ => h⟩, fun h => h.2 hall⟩
  · obtain ⟨r, hr⟩ := not_forall.mp hall
    have hshort : ([Msgq.canPhysMsgq, .canFuncMsgq].filter p).length < 2 :=
      List.length_filter_lt_length_iff_exists.mpr ⟨r, mem_queues r, by simpa using hr⟩
    rw [serves_of_length_le_one (Nat.le_of_lt_succ hshort), List.mem_filter, decide_eq_true_iff,
      and_iff_right (mem_queues q), and_iff_left fun h => absurd h hall]

end Controller

/-! ## What the initialisation installs -/

/-- The filters of an instance that is initialised. -/
def installedFilters (inst : Instance) : List RxFilter :=
  if inst.funcSa ≠ udsTpNoopAddr then [physFilter inst, funcFilter inst] else [physFilter inst]

variable {canAddRxFilter : CanAddRxFilter σ} {kMutexInit : MutexInits} {tp : SourceAddresses}
  {s : σ}

/-- **An initialisation that returns 0** has installed the filters of the
addresses it was given. -/
theorem iso14229ZephyrInit_spec
    (h : (iso14229ZephyrInit canAddRxFilter kMutexInit tp inst s).ret = 0) :
    (iso14229ZephyrInit canAddRxFilter kMutexInit tp inst s).inst =
        ⟨tp.physSa, tp.funcSa, .empty, .empty⟩ ∧
      (iso14229ZephyrInit canAddRxFilter kMutexInit tp inst s).filters =
        installedFilters ⟨tp.physSa, tp.funcSa, .empty, .empty⟩ := by
  rw [iso14229ZephyrInit] at h ⊢
  by_cases hmutex : kMutexInit.eventCallbackMutex ≠ 0
  · rw [if_pos hmutex] at h
    exact absurd h hmutex
  rw [if_neg hmutex] at h ⊢
  by_cases hphys : (canAddRxFilter .canPhysMsgq
      (physFilter ⟨tp.physSa, tp.funcSa, .empty, .empty⟩).filter s).1 < 0
  · simp only [if_pos hphys] at h
    exact absurd h hphys.ne
  simp only [if_neg hphys] at h ⊢
  by_cases hnoop : tp.funcSa ≠ udsTpNoopAddr
  · simp only [if_pos hnoop] at h ⊢
    split at h
    next hfunc => exact absurd h hfunc.ne
    next hfunc =>
      rw [if_neg hfunc, installedFilters, if_pos hnoop]
      exact ⟨rfl, rfl⟩
  · simp only [if_neg hnoop]
    rw [installedFilters, if_neg hnoop]
    exact ⟨trivial, rfl⟩

/-! ## What reception does -/

/-- A filter for a standard id. -/
theorem canFrameMatchesFilter_std {id : UInt32} :
    canFrameMatchesFilter frame { id := id, mask := canStdIdMask, flags := 0 } = true ↔
      frame.Standard ∧ (frame.id ^^^ id) &&& canStdIdMask = 0 := by
  have hflags : (0 : UInt8) &&& canFilterIde = 0 := by decide
  rw [canFrameMatchesFilter]
  simp only [hflags, and_true, ne_eq, not_true_eq_false, and_false, if_false]
  by_cases hstd : frame.Standard
  · have hide : frame.flags &&& canFrameIde = 0 := hstd
    rw [if_neg (not_not_intro hide), and_iff_right hstd]
    simp
  · have hide : ¬ frame.flags &&& canFrameIde = 0 := hstd
    rw [if_pos hide]
    exact iff_of_false Bool.false_ne_true fun h => hstd h.1

/-- The physical filter passes what is sent to the physical address, and to
the functional one if it cannot tell them apart. -/
theorem matches_physFilter_iff :
    canFrameMatchesFilter (frame.withId (inst.sourceAddr functionalAddress))
        (physFilter inst).filter = true ↔
      inst.Passes frame functionalAddress .canPhysMsgq := by
  rw [physFilter, canFrameMatchesFilter_std]
  cases functionalAddress with
  | false => simp [Instance.Passes, Instance.sourceAddr, CanFrame.withId, CanFrame.Standard]
  | true =>
    simp [Instance.Passes, Instance.sourceAddr, CanFrame.withId, CanFrame.Standard,
      Instance.SameStdId, UInt32.xor_comm inst.funcSa]

/-- And the functional filter the other way round. -/
theorem matches_funcFilter_iff :
    inst.funcSa ≠ udsTpNoopAddr ∧
        canFrameMatchesFilter (frame.withId (inst.sourceAddr functionalAddress))
          (funcFilter inst).filter = true ↔
      inst.Passes frame functionalAddress .canFuncMsgq := by
  rw [funcFilter, canFrameMatchesFilter_std]
  cases functionalAddress with
  | false =>
    simp [Instance.Passes, Instance.sourceAddr, CanFrame.withId, CanFrame.Standard,
      Instance.SameStdId, and_left_comm]
  | true =>
    simp [Instance.Passes, Instance.sourceAddr, CanFrame.withId, CanFrame.Standard, and_comm]

/-- **The filters an initialised instance has** pass a frame under one of
its addresses into these queues. -/
theorem passing_installed :
    passing (installedFilters inst) (frame.withId (inst.sourceAddr functionalAddress)) =
      [Msgq.canPhysMsgq, .canFuncMsgq].filter (inst.Passes frame functionalAddress) := by
  have hphys := @matches_physFilter_iff inst frame functionalAddress
  have hfunc := @matches_funcFilter_iff inst frame functionalAddress
  by_cases hnoop : inst.funcSa ≠ udsTpNoopAddr
  · rw [and_iff_right hnoop] at hfunc
    rw [installedFilters, if_pos hnoop]
    simp only [passing, List.filter_cons, List.filter_nil, hphys, hfunc, decide_eq_true_eq]
    split_ifs <;> rfl
  · have hnot : ¬ inst.Passes frame functionalAddress .canFuncMsgq :=
      fun h => hnoop (hfunc.mpr h).1
    rw [installedFilters, if_neg hnoop]
    simp only [passing, List.filter_cons, List.filter_nil, hphys, decide_eq_true_eq, if_neg hnot]
    split_ifs <;> rfl

/-- Where one filter passes the frame, both do exactly if they overlap. -/
theorem Instance.forall_passes_iff (h : inst.Passes frame functionalAddress q) :
    (∀ r, inst.Passes frame functionalAddress r) ↔ inst.Overlap := by
  have hstd : frame.Standard := by cases q <;> exact h.1
  constructor
  · intro hall
    obtain ⟨-, hphys⟩ := hall .canPhysMsgq
    obtain ⟨-, hnoop, hfunc⟩ := hall .canFuncMsgq
    -- the filter that is not of the address says that the addresses agree
    cases functionalAddress with
    | false => exact ⟨hnoop, hfunc rfl⟩
    | true => exact ⟨hnoop, hphys rfl⟩
  · rintro ⟨hnoop, hsame⟩ r
    cases r with
    | canPhysMsgq => exact ⟨hstd, fun _ => hsame⟩
    | canFuncMsgq => exact ⟨hstd, hnoop, fun _ => hsame⟩

/-- **Where a received frame goes**: to the queues it reaches, and no
other. -/
theorem msgq_receive :
    (ctrl.receive (installedFilters inst) (frame.withId (inst.sourceAddr functionalAddress))
        inst).msgq q =
      if inst.Reaches ctrl frame functionalAddress q then
        (inst.msgq q).offer (frame.withId (inst.sourceAddr functionalAddress))
      else inst.msgq q := by
  rw [Controller.receive, passing_installed]
  by_cases htakes : ctrl.takes frame.flags = true
  · have hnodup : ([Msgq.canPhysMsgq, .canFuncMsgq].filter
        (inst.Passes frame functionalAddress)).Nodup := List.Nodup.filter _ (by decide)
    have hreaches : inst.Reaches ctrl frame functionalAddress q ↔
        q ∈ ctrl.serves (frame.withId (inst.sourceAddr functionalAddress))
          ([Msgq.canPhysMsgq, .canFuncMsgq].filter (inst.Passes frame functionalAddress)) := by
      rw [Instance.Reaches, Controller.mem_serves_filter, and_iff_right htakes]
      refine and_congr_right fun hpasses => ?_
      rw [Instance.forall_passes_iff hpasses]
    rw [CanFrame.flags_withId, if_pos htakes,
      Instance.msgq_foldl_canRxCb ((ctrl.serves_sublist _ _).nodup hnodup)]
    simp only [hreaches]
  · rw [CanFrame.flags_withId, if_neg htakes, if_neg fun h => htakes h.1]

/-- The physical queue, which an injection offers to. -/
theorem canPhysMsgq_eq_iff :
    (iso14229InjectCanFrameRx inst frame functionalAddress).2.msgq .canPhysMsgq =
        (ctrl.receive (installedFilters inst)
          (frame.withId (inst.sourceAddr functionalAddress)) inst).msgq .canPhysMsgq ↔
      inst.canPhysMsgq.Full ∨ inst.Reaches ctrl frame functionalAddress .canPhysMsgq := by
  rw [msgq_inject, msgq_receive, if_pos rfl]
  by_cases hreaches : inst.Reaches ctrl frame functionalAddress .canPhysMsgq
  · rw [if_pos hreaches]
    exact iff_of_true rfl (.inr hreaches)
  · rw [if_neg hreaches, or_iff_left hreaches]
    exact MsgQueue.offer_eq_self_iff

/-- The functional queue, which it leaves. -/
theorem canFuncMsgq_eq_iff :
    (iso14229InjectCanFrameRx inst frame functionalAddress).2.msgq .canFuncMsgq =
        (ctrl.receive (installedFilters inst)
          (frame.withId (inst.sourceAddr functionalAddress)) inst).msgq .canFuncMsgq ↔
      inst.canFuncMsgq.Full ∨ ¬ inst.Reaches ctrl frame functionalAddress .canFuncMsgq := by
  rw [msgq_inject, msgq_receive, if_neg (by decide)]
  by_cases hreaches : inst.Reaches ctrl frame functionalAddress .canFuncMsgq
  · rw [if_pos hreaches, or_iff_left (not_not_intro hreaches), eq_comm]
    exact MsgQueue.offer_eq_self_iff
  · rw [if_neg hreaches]
    exact iff_of_true rfl (.inr hreaches)

/-- **The queues agree exactly where the routes do.** -/
theorem injectedAsReceived_installed_iff :
    InjectedAsReceived ctrl (installedFilters inst) inst frame functionalAddress ↔
      inst.RoutesAlike ctrl frame functionalAddress := by
  rw [Instance.RoutesAlike, ← canPhysMsgq_eq_iff, ← canFuncMsgq_eq_iff]
  constructor
  · exact fun h => ⟨h.msgq .canPhysMsgq, h.msgq .canFuncMsgq⟩
  · rintro ⟨hphys, hfunc⟩
    have hall : ∀ q, (iso14229InjectCanFrameRx inst frame functionalAddress).2.msgq q =
        (ctrl.receive (installedFilters inst)
          (frame.withId (inst.sourceAddr functionalAddress)) inst).msgq q := by
      intro q
      cases q with
      | canPhysMsgq => exact hphys
      | canFuncMsgq => exact hfunc
    exact ⟨hall, tick_congr hall⟩

/-! ## What the condition says of either address -/

/-- **An injection under the physical address** is a reception where the bus
would deliver the frame, and where there is no room for it. -/
theorem routesAlike_physical (h : ¬ inst.Overlap) :
    inst.RoutesAlike ctrl frame false ↔
      inst.canPhysMsgq.Full ∨ ctrl.takes frame.flags = true ∧ frame.Standard := by
  have hphys : inst.Reaches ctrl frame false .canPhysMsgq ↔
      ctrl.takes frame.flags = true ∧ frame.Standard := by
    rw [Instance.Reaches, and_iff_left fun hoverlap => absurd hoverlap h]
    exact and_congr_right fun _ => and_iff_left fun hfalse => absurd hfalse Bool.false_ne_true
  have hfunc : ¬ inst.Reaches ctrl frame false .canFuncMsgq :=
    fun hreaches => h ⟨hreaches.2.1.2.1, hreaches.2.1.2.2 rfl⟩
  rw [Instance.RoutesAlike, hphys]
  exact and_iff_left (.inr hfunc)

/-- **An injection under the functional address** is one only where the
physical queue has no room for the frame and the functional one does not
get it either. -/
theorem routesAlike_functional (h : ¬ inst.SameStdId) :
    inst.RoutesAlike ctrl frame true ↔
      inst.canPhysMsgq.Full ∧ (inst.canFuncMsgq.Full ∨ inst.funcSa = udsTpNoopAddr ∨
        ¬ (ctrl.takes frame.flags = true ∧ frame.Standard)) := by
  have hphys : ¬ inst.Reaches ctrl frame true .canPhysMsgq :=
    fun hreaches => h (hreaches.2.1.2 rfl)
  have hfunc : inst.Reaches ctrl frame true .canFuncMsgq ↔
      inst.funcSa ≠ udsTpNoopAddr ∧ ctrl.takes frame.flags = true ∧ frame.Standard := by
    rw [Instance.Reaches, and_iff_left fun hoverlap : inst.Overlap => absurd hoverlap.2 h]
    simp only [Instance.Passes, Bool.true_eq_false, false_implies, and_true]
    tauto
  rw [Instance.RoutesAlike, or_iff_left hphys, hfunc, not_and_or, not_ne_iff]

/-! ## The instance after its initialisation -/

/-- **What an initialised instance does with an injected frame** is what it
does with a received one exactly where the two routes end alike. -/
theorem injectedAsReceived_iff
    (h : (iso14229ZephyrInit canAddRxFilter kMutexInit tp inst s).ret = 0)
    (phys func : MsgQueue CanFrame canBufferFrames) :
    InjectedAsReceived ctrl (iso14229ZephyrInit canAddRxFilter kMutexInit tp inst s).filters
        ((iso14229ZephyrInit canAddRxFilter kMutexInit tp inst s).inst.withQueues phys func)
        frame functionalAddress ↔
      Instance.RoutesAlike ctrl ⟨tp.physSa, tp.funcSa, phys, func⟩ frame functionalAddress := by
  obtain ⟨hinst, hfilters⟩ := iso14229ZephyrInit_spec h
  rw [hinst, hfilters]
  exact @injectedAsReceived_installed_iff ctrl ⟨tp.physSa, tp.funcSa, phys, func⟩ frame
    functionalAddress

/-- A controller that takes no remote frames and serves every filter that
passes. -/
def servesAll : Controller where
  takes flags := flags &&& canFrameRtr == 0
  serves _ queues := queues
  serves_sublist _ queues := List.Sublist.refl queues
  serves_ne_nil _ _ h := h

/-- The instance of the tests, whose driver takes both filters. -/
def fixture : Initialised Unit :=
  iso14229ZephyrInit (fun _ _ s => (0, s)) ⟨0, none⟩ ⟨0x7E8, 0x7DF⟩ ⟨0, 0, .empty, .empty⟩ ()

/-- The request for the programming session that the firmware loader
injects. -/
def programmingSession : CanFrame := ⟨⟨0, 3, [0x02, 0x10, 0x02]⟩, 0⟩

/-- A request injected under the physical address is one from the bus. -/
theorem injectedAsReceived_iff_fixture :
    fixture.ret = 0 ∧
      InjectedAsReceived servesAll fixture.filters (fixture.inst.withQueues .empty .empty)
        programmingSession false := by
  have hret : fixture.ret = 0 := rfl
  exact ⟨hret, (injectedAsReceived_iff hret .empty .empty).mpr (by decide)⟩

/-- Under the functional address the tick hands it to the other link. -/
theorem not_injectedAsReceived_functional :
    fixture.ret = 0 ∧ fixture.inst.physSa ≠ fixture.inst.funcSa ∧
      ¬ InjectedAsReceived servesAll fixture.filters fixture.inst programmingSession true := by
  refine ⟨rfl, by decide, fun h => ?_⟩
  have hcalls := h.tick
  revert hcalls
  decide

/-! ## Runs -/

/-- What happens to an initialised instance. -/
inductive Event
  | receive (frame : CanFrame)
  | inject (frame : CanFrame) (functionalAddress : Bool)
  | tick

/-- One event: the calls to the library, and the instance after it. -/
def step (ctrl : Controller) (inst : Instance) : Event → Option (List LibraryCall × Instance)
  | .receive frame => some ([], ctrl.receive (installedFilters inst) frame inst)
  | .inject frame functionalAddress =>
    some ([], (iso14229InjectCanFrameRx inst frame functionalAddress).2)
  | .tick => some (iso14229ZephyrEventLoopTick inst)

/-- **The same over the bus alone**: what is injected is sent to the address
instead. -/
def busStep (ctrl : Controller) (inst : Instance) : Event → Option (List LibraryCall × Instance)
  | .inject frame functionalAddress =>
    step ctrl inst (.receive (frame.withId (inst.sourceAddr functionalAddress)))
  | e => step ctrl inst e

/-- Every injection is one whose routes end alike. -/
def InjectsAlike (ctrl : Controller) (inst : Instance) (e : Event) : Prop :=
  ∀ frame functionalAddress, e = .inject frame functionalAddress →
    inst.RoutesAlike ctrl frame functionalAddress

/-- The addresses an instance was initialised with. -/
def Instance.addresses (inst : Instance) : SourceAddresses := ⟨inst.physSa, inst.funcSa⟩

/-- Two instances with the same addresses and queues are one. -/
theorem Instance.eq_of_msgq (haddr : inst.addresses = inst'.addresses)
    (h : ∀ q, inst.msgq q = inst'.msgq q) : inst = inst' := by
  obtain ⟨hphys, hfunc⟩ := SourceAddresses.mk.inj haddr
  exact Instance.ext hphys hfunc (h .canPhysMsgq) (h .canFuncMsgq)

theorem addresses_canRxCb : (canRxCb frame q inst).addresses = inst.addresses := by
  cases q <;> rfl

theorem addresses_receive : (ctrl.receive filters frame inst).addresses = inst.addresses := by
  rw [Controller.receive]
  split_ifs with htakes
  · refine List.foldlRecOn (motive := fun i : Instance => i.addresses = inst.addresses) _ _ rfl ?_
    exact fun i hi q _ => addresses_canRxCb.trans hi
  · rfl

/-- **Nothing changes the addresses.** -/
theorem addresses_step {e : Event} {calls : List LibraryCall}
    (h : step ctrl inst e = some (calls, inst')) : inst'.addresses = inst.addresses := by
  cases e with
  | receive frame =>
    cases h
    exact addresses_receive
  | inject frame functionalAddress =>
    cases h
    exact addresses_canRxCb
  | tick =>
    cases h
    rfl

/-- One step, by the condition: the instances agree in their addresses and,
queue by queue, in their frames. -/
theorem step_eq_busStep {e : Event} (h : InjectsAlike ctrl inst e) :
    step ctrl inst e = busStep ctrl inst e := by
  cases e with
  | receive frame => rfl
  | inject frame functionalAddress =>
    have halike := injectedAsReceived_installed_iff.mpr (h frame functionalAddress rfl)
    have haddr : (iso14229InjectCanFrameRx inst frame functionalAddress).2.addresses =
        (ctrl.receive (installedFilters inst)
          (frame.withId (inst.sourceAddr functionalAddress)) inst).addresses :=
      addresses_canRxCb.trans addresses_receive.symm
    rw [step, busStep, step, Instance.eq_of_msgq haddr halike.msgq]
  | tick => rfl

/-- **A run whose injections all meet the condition** makes the calls it
would make over the bus, tick for tick. -/
theorem runs_eq_busStep {es : List Event} (h : Along (step ctrl) (InjectsAlike ctrl) inst es) :
    runs (step ctrl) inst es = runs (busStep ctrl) inst es :=
  runs_eq_of_along (fun _ _ => step_eq_busStep) h

/-- An injection as the firmware loader makes it: under the physical
address, of a frame the bus could have carried. -/
def Event.Physical (ctrl : Controller) (e : Event) : Prop :=
  ∀ frame functionalAddress, e = .inject frame functionalAddress →
    functionalAddress = false ∧ ctrl.takes frame.flags = true ∧ frame.Standard

/-- **Physical injections are receptions in every run**, however full the
queues get. -/
theorem runs_eq_busStep_of_physical {es : List Event} (hoverlap : ¬ inst.Overlap)
    (hes : ∀ e ∈ es, e.Physical ctrl) :
    runs (step ctrl) inst es = runs (busStep ctrl) inst es := by
  refine runs_eq_busStep ?_
  induction es generalizing inst with
  | nil => trivial
  | cons e es ih =>
    obtain ⟨he, hes⟩ := List.forall_mem_cons.mp hes
    refine ⟨fun frame functionalAddress hinject => ?_, fun calls inst' hstep => ih ?_ hes⟩
    · obtain ⟨rfl, hheard⟩ := he frame functionalAddress hinject
      exact (routesAlike_physical hoverlap).mpr (.inr hheard)
    · -- whether the filters overlap is a matter of the addresses
      obtain ⟨hphys, hfunc⟩ := SourceAddresses.mk.inj (addresses_step hstep)
      rwa [Instance.Overlap, Instance.SameStdId, hphys, hfunc]

end Iso14229

end Ardep
