import Ardep.Common.Machine
import Ardep.Lin.Format
/-!
# The receive filters of the lin2can driver

A filter is for one of the four ids or for all of them, and both kinds
live in the same four slots. What tells them apart when they are removed
is the handle the add returned: the slot of a single id, or one past the
last slot for a wildcard.

`Served` is the invariant: each slot holds the callback of the one live
filter that covers it. It names a filter's handle too, since removal goes
by nothing else. Here `C` is a callback with its user data.
-/

namespace Ardep

namespace Lin

open Uds

variable {C : Type} {idMapping : IdMapping}

/-- `lin2can_remove_rx_filter`. A negative id would be before the table, and
no add returns one. -/
def lin2canRemoveRxFilter (filterId : ℕ) (d : Lin2CanData C) : Lin2CanData C :=
  if filterId = translatableAddressesLen then { d with incomingCallbacks := fun _ => none }
  else if h : translatableAddressesLen ≤ filterId then d
  else
    { d with
      incomingCallbacks := Function.update d.incomingCallbacks ⟨filterId, not_le.mp h⟩ none }

/-! ## Live filters -/

/-- **A live filter**: the handle its add returned, and what was added. -/
structure LiveFilter (C : Type) where
  handle : ℕ
  filter : CanFilter
  callback : C

/-- A wildcard for all ids. -/
def CanFilter.Wildcard (f : CanFilter) : Prop := f.mask &&& 0x7FF = 0

instance (f : CanFilter) : Decidable f.Wildcard := inferInstanceAs (Decidable (_ = _))

/-- The filter lets the id of a slot through. -/
def CanFilter.Covers (idMapping : IdMapping) (f : CanFilter) (i : Fin translatableAddressesLen) :
    Prop :=
  f.Wildcard ∨ mapFromCanId idMapping f.id = UInt8.ofNat i

instance (f : CanFilter) (i : Fin translatableAddressesLen) : Decidable (f.Covers idMapping i) :=
  inferInstanceAs (Decidable (_ ∨ _))

/-- The driver and the filters that are live. -/
structure FilterState (C : Type) where
  data : Lin2CanData C
  live : List (LiveFilter C)

/-- An add of any filter, or a removal. -/
inductive FilterCall (C : Type)
  | add (callback : C) (filter : CanFilter)
  | remove (handle : ℕ)

/-- The call, and what it does to the live filters. -/
def FilterState.call (idMapping : IdMapping) (s : FilterState C) : FilterCall C → FilterState C
  | .add callback filter =>
    let (ret, data) := lin2canAddRxFilter idMapping callback filter s.data
    if 0 ≤ ret then ⟨data, s.live ++ [⟨ret.toNat, filter, callback⟩]⟩
    else ⟨data, s.live⟩
  | .remove handle =>
    ⟨lin2canRemoveRxFilter handle s.data, s.live.filter fun f => f.handle ≠ handle⟩

/-- **Runs of adds and removals**: what is removed is live. -/
def filterMachine (C : Type) (idMapping : IdMapping) : Machine (FilterState C) (FilterCall C) where
  init s := (∀ i, s.data.incomingCallbacks i = none) ∧ s.live = []
  Step s e s' :=
    (∀ handle, e = .remove handle → ∃ f ∈ s.live, f.handle = handle) ∧ s' = s.call idMapping e

/-! ## One call -/

theorem ofNat_inj {i j : Fin translatableAddressesLen} :
    UInt8.ofNat i = UInt8.ofNat j ↔ i = j := by
  revert i j
  decide

/-- A slot as the mapping returns it. -/
theorem ofNat_slot (i : Fin translatableAddressesLen) :
    UInt8.ofNat i ≠ 0xFF ∧ (UInt8.ofNat i).toNat = i ∧
      Fin.ofNat translatableAddressesLen (UInt8.ofNat i).toNat = i := by
  revert i
  decide

/-- **An add** takes all four slots where none is taken, or the slot of its
id where that is free; or it fails and changes nothing. -/
theorem lin2canAddRxFilter_spec (idMapping : IdMapping) (callback : C) (filter : CanFilter)
    (d : Lin2CanData C) :
    (filter.Wildcard ∧ (∀ i, d.incomingCallbacks i = none) ∧
      lin2canAddRxFilter idMapping callback filter d =
        ((translatableAddressesLen : ℤ), { d with incomingCallbacks := fun _ => some callback })) ∨
    (¬ filter.Wildcard ∧ ∃ i : Fin translatableAddressesLen,
      mapFromCanId idMapping filter.id = UInt8.ofNat i ∧ d.incomingCallbacks i = none ∧
      lin2canAddRxFilter idMapping callback filter d =
        (((i : ℕ) : ℤ),
          { d with incomingCallbacks := Function.update d.incomingCallbacks i (some callback) })) ∨
    ∃ ret < 0, lin2canAddRxFilter idMapping callback filter d = (ret, d) := by
  by_cases hwild : filter.Wildcard
  · have hmask : filter.mask &&& 0x7FF = 0 := hwild
    by_cases htaken : ∃ i, (d.incomingCallbacks i).isSome
    · refine .inr (.inr ⟨- ENOSPC, by decide, ?_⟩)
      rw [lin2canAddRxFilter, if_pos hmask, if_pos htaken]
    · refine .inl ⟨hwild, fun i => ?_, ?_⟩
      · by_contra hne
        exact htaken ⟨i, Option.isSome_iff_ne_none.mpr hne⟩
      · simp only [lin2canAddRxFilter, if_pos hmask, if_neg htaken]
  · have hmask : ¬ filter.mask &&& 0x7FF = 0 := hwild
    by_cases hother : filter.mask ≠ canStdIdMask ∧ filter.mask ≠ canExtIdMask
    · refine .inr (.inr ⟨- ENOTSUP, by decide, ?_⟩)
      rw [lin2canAddRxFilter, if_neg hmask, if_pos hother]
    · rcases mapFromCanId_cases idMapping filter.id with ⟨hnone, -⟩ | ⟨i, -, hi⟩
      · refine .inr (.inr ⟨- ENOTSUP, by decide, ?_⟩)
        simp only [lin2canAddRxFilter, if_neg hmask, if_neg hother, if_pos hnone]
      · obtain ⟨hsome, hnat, hslot⟩ := ofNat_slot i
        rw [← hi] at hsome hnat hslot
        cases hfree : d.incomingCallbacks i with
        | some taken =>
          refine .inr (.inr ⟨- ENOSPC, by decide, ?_⟩)
          simp only [lin2canAddRxFilter, if_neg hmask, if_neg hother, if_neg hsome, hslot, hfree,
            Option.isSome_some, if_true]
        | none =>
          refine .inr (.inl ⟨hwild, i, hi, hfree, ?_⟩)
          simp only [lin2canAddRxFilter, if_neg hmask, if_neg hother, if_neg hsome, hslot, hfree,
            Option.isSome_none, Bool.false_eq_true, if_false]
          rw [hnat]

/-! ## The invariant -/

/-- **Each slot serves its filter**: a slot is covered by at most one live
filter and holds that filter's callback, and a handle tells what its
filter covers. -/
structure Served (idMapping : IdMapping) (s : FilterState C) : Prop where
  single : ∀ i, (s.live.filter fun f => f.filter.Covers idMapping i).length ≤ 1
  slot : ∀ i c, s.data.incomingCallbacks i = some c ↔
    ∃ f ∈ s.live, f.filter.Covers idMapping i ∧ f.callback = c
  handle : ∀ f ∈ s.live,
    (f.filter.Wildcard ∧ f.handle = translatableAddressesLen) ∨
      ¬ f.filter.Wildcard ∧ ∃ i : Fin translatableAddressesLen,
        mapFromCanId idMapping f.filter.id = UInt8.ofNat i ∧ f.handle = i

variable {s : FilterState C} {f g : LiveFilter C} {i j : Fin translatableAddressesLen}

/-- A filter for one id covers its slot and no other. -/
theorem covers_iff_of_single {filter : CanFilter} (hwild : ¬ filter.Wildcard)
    (hi : mapFromCanId idMapping filter.id = UInt8.ofNat i) :
    filter.Covers idMapping j ↔ j = i := by
  rw [CanFilter.Covers, or_iff_right hwild, hi, ofNat_inj, eq_comm]

namespace Served

/-- Two live filters over one slot are one. -/
theorem eq_of_covers (h : Served idMapping s) (hf : f ∈ s.live) (hg : g ∈ s.live)
    (hfi : f.filter.Covers idMapping i) (hgi : g.filter.Covers idMapping i) : f = g := by
  have hfmem : f ∈ s.live.filter fun f => f.filter.Covers idMapping i :=
    List.mem_filter.mpr ⟨hf, decide_eq_true hfi⟩
  have hgmem : g ∈ s.live.filter fun f => f.filter.Covers idMapping i :=
    List.mem_filter.mpr ⟨hg, decide_eq_true hgi⟩
  obtain ⟨x, hx⟩ := List.length_eq_one_iff.mp
    (le_antisymm (h.single i) (List.length_pos_of_mem hfmem))
  rw [hx, List.mem_singleton] at hfmem hgmem
  exact hfmem.trans hgmem.symm

/-- A live filter covers a slot. -/
theorem exists_covers (h : Served idMapping s) (hf : f ∈ s.live) :
    ∃ i, f.filter.Covers idMapping i := by
  rcases h.handle f hf with ⟨hwild, -⟩ | ⟨-, i, hi, -⟩
  · exact ⟨0, .inl hwild⟩
  · exact ⟨i, .inr hi⟩

/-- A slot is free where no live filter covers it. -/
theorem free_iff (h : Served idMapping s) :
    s.data.incomingCallbacks i = none ↔ ∀ f ∈ s.live, ¬ f.filter.Covers idMapping i := by
  rw [Option.eq_none_iff_forall_ne_some]
  constructor
  · exact fun hfree f hf hcovers => hfree f.callback ((h.slot i _).mpr ⟨f, hf, hcovers, rfl⟩)
  · intro hnone c hc
    obtain ⟨f, hf, hcovers, -⟩ := (h.slot i c).mp hc
    exact hnone f hf hcovers

/-- **A live wildcard is alone.** Every other live filter would share a slot
with it. -/
theorem eq_singleton (h : Served idMapping s) (hf : f ∈ s.live) (hwild : f.filter.Wildcard) :
    s.live = [f] := by
  have hall : ∀ g ∈ s.live, g = f := by
    intro g hg
    obtain ⟨i, hgi⟩ := h.exists_covers hg
    exact h.eq_of_covers hg hf hgi (.inl hwild)
  have hone : s.live.length ≤ 1 := by
    have hfilter : (s.live.filter fun f => f.filter.Covers idMapping 0) = s.live :=
      List.filter_eq_self.mpr fun g hg => decide_eq_true (.inl (hall g hg ▸ hwild))
    rw [← hfilter]
    exact h.single 0
  obtain ⟨x, hx⟩ := List.length_eq_one_iff.mp (le_antisymm hone (List.length_pos_of_mem hf))
  rw [hx, List.mem_singleton] at hf
  rw [hx, hf]

/-- A filter over free slots is added to those that are live. -/
theorem concat (h : Served idMapping s) {data : Lin2CanData C}
    (hfree : ∀ i, f.filter.Covers idMapping i → s.data.incomingCallbacks i = none)
    (hdata : ∀ i, data.incomingCallbacks i =
      if f.filter.Covers idMapping i then some f.callback else s.data.incomingCallbacks i)
    (hhandle : (f.filter.Wildcard ∧ f.handle = translatableAddressesLen) ∨
      ¬ f.filter.Wildcard ∧ ∃ i : Fin translatableAddressesLen,
        mapFromCanId idMapping f.filter.id = UInt8.ofNat i ∧ f.handle = i) :
    Served idMapping ⟨data, s.live ++ [f]⟩ where
  single i := by
    rw [List.filter_append, List.length_append]
    by_cases hcovers : f.filter.Covers idMapping i
    · -- the slot was free, so none of the others covers it
      have hnone : (s.live.filter fun g => g.filter.Covers idMapping i) = [] :=
        List.filter_eq_nil_iff.mpr fun g hg hgi =>
          h.free_iff.mp (hfree i hcovers) g hg (of_decide_eq_true hgi)
      simp [hnone, hcovers]
    · simpa [hcovers] using h.single i
  slot i c := by
    show data.incomingCallbacks i = some c ↔ _
    rw [hdata]
    by_cases hcovers : f.filter.Covers idMapping i
    · have hnone := h.free_iff.mp (hfree i hcovers)
      rw [if_pos hcovers, Option.some.injEq]
      constructor
      · rintro rfl
        exact ⟨f, by simp, hcovers, rfl⟩
      · rintro ⟨g, hg, hgi, rfl⟩
        rcases List.mem_append.mp hg with hlive | hnew
        · exact absurd hgi (hnone g hlive)
        · rw [List.mem_singleton.mp hnew]
    · rw [if_neg hcovers, h.slot]
      constructor
      · rintro ⟨g, hg, hgi, rfl⟩
        exact ⟨g, List.mem_append_left _ hg, hgi, rfl⟩
      · rintro ⟨g, hg, hgi, rfl⟩
        rcases List.mem_append.mp hg with hlive | hnew
        · exact ⟨g, hlive, hgi, rfl⟩
        · exact absurd (List.mem_singleton.mp hnew ▸ hgi) hcovers
  handle g hg := by
    rcases List.mem_append.mp hg with hlive | hnew
    · exact h.handle g hlive
    · rw [List.mem_singleton.mp hnew]
      exact hhandle

/-- **An add keeps the slots served**, whether it succeeds or not. -/
theorem add (h : Served idMapping s) (callback : C) (filter : CanFilter) :
    Served idMapping (s.call idMapping (.add callback filter)) := by
  rcases lin2canAddRxFilter_spec idMapping callback filter s.data with
    ⟨hwild, hfree, heq⟩ | ⟨hsingle, i, hi, hfree, heq⟩ | ⟨ret, hneg, heq⟩
  · simp only [FilterState.call, heq]
    refine h.concat (fun i _ => hfree i) (fun i => ?_) (.inl ⟨hwild, rfl⟩)
    rw [if_pos (.inl hwild)]
  · simp only [FilterState.call, heq, Int.natCast_nonneg, if_true, Int.toNat_natCast]
    refine h.concat (fun j hj => ?_) (fun j => ?_) (.inr ⟨hsingle, i, hi, rfl⟩)
    · rw [(covers_iff_of_single hsingle hi).mp hj]
      exact hfree
    · simp only [covers_iff_of_single hsingle hi, Function.update_apply]
  · simp only [FilterState.call, heq, if_neg (not_le.mpr hneg)]
    exact h

/-- **A removal keeps the slots served**: its handle names one live filter,
and the slots of that one are what is cleared. -/
theorem remove (h : Served idMapping s) (hf : f ∈ s.live) :
    Served idMapping (s.call idMapping (.remove f.handle)) := by
  rcases h.handle f hf with ⟨hwild, hhandle⟩ | ⟨hsingle, i, hi, hhandle⟩
  · -- the wildcard was the only one
    have halone := h.eq_singleton hf hwild
    have hnone : (s.live.filter fun g => g.handle ≠ f.handle) = [] := by simp [halone]
    simp only [FilterState.call, hnone, lin2canRemoveRxFilter, if_pos hhandle]
    exact ⟨by simp, by simp, by simp⟩
  · have hlt := i.isLt
    have hdata : lin2canRemoveRxFilter f.handle s.data = { s.data with
        incomingCallbacks := Function.update s.data.incomingCallbacks i none } := by
      rw [lin2canRemoveRxFilter, if_neg (by omega), dif_neg (by omega)]
      simp only [hhandle]
    have hfi : f.filter.Covers idMapping i := .inr hi
    simp only [FilterState.call, hdata]
    refine ⟨fun j => ?_, fun j c => ?_, fun g hg => h.handle g (List.mem_filter.mp hg).1⟩
    · rw [List.filter_filter]
      refine (List.Sublist.length_le ?_).trans (h.single j)
      exact List.monotone_filter_right _ fun g hg => (Bool.and_eq_true _ _ ▸ hg).1
    · show Function.update s.data.incomingCallbacks i none j = some c ↔ _
      rw [Function.update_apply]
      by_cases hj : j = i
      · subst hj
        rw [if_pos rfl]
        refine iff_of_false (by simp) ?_
        rintro ⟨g, hg, hgj, -⟩
        obtain ⟨hlive, hne⟩ := List.mem_filter.mp hg
        exact of_decide_eq_true hne (congrArg _ (h.eq_of_covers hlive hf hgj hfi))
      · rw [if_neg hj, h.slot]
        constructor
        · rintro ⟨g, hg, hgj, rfl⟩
          -- a filter of the same handle would cover the cleared slot alone
          refine ⟨g, List.mem_filter.mpr ⟨hg, decide_eq_true fun hsame => ?_⟩, hgj, rfl⟩
          rcases h.handle g hg with ⟨-, hfour⟩ | ⟨hgsingle, k, hk, hgk⟩
          · omega
          · have hki : k = i := Fin.ext (by omega)
            exact hj ((covers_iff_of_single hgsingle (hki ▸ hk)).mp hgj)
        · rintro ⟨g, hg, hgj, rfl⟩
          exact ⟨g, (List.mem_filter.mp hg).1, hgj, rfl⟩

end Served

/-- **The invariant along every run.** -/
theorem served_of_reachable (h : (filterMachine C idMapping).Reachable s) :
    Served idMapping s := by
  refine h.invariant ?_ ?_
  · rintro s ⟨hfree, hnone⟩
    refine ⟨by simp [hnone], fun i c => ?_, by simp [hnone]⟩
    rw [hfree, hnone]
    simp
  · rintro s e s' hs ⟨hlive, rfl⟩
    cases e with
    | add callback filter => exact hs.add callback filter
    | remove handle =>
      obtain ⟨f, hf, rfl⟩ := hlive handle rfl
      exact hs.remove hf

/-! ## Delivery -/

/-- The slot of a frame: the first two bits of its data. -/
def LinFrame.slot (frame : LinFrame) : Fin translatableAddressesLen :=
  @Fin.ofNat _ ⟨Nat.succ_ne_zero 3⟩ (frame.data.getD 0 0 >>> 6).toNat

/-- A frame goes to the callback of its slot, or nowhere. -/
theorem linIncomingCb_eq (d : Lin2CanData C) (frame : LinFrame) :
    linIncomingCb idMapping d frame = (d.incomingCallbacks frame.slot).map fun callback =>
      (callback, ⟨idMapping frame.slot, 8,
        (frame.data.take frame.len ++ List.replicate (8 - frame.len) 0).set 0
          (frame.data.getD 0 0 &&& 0x3F)⟩) := by
  unfold linIncomingCb LinFrame.slot
  dsimp only
  generalize d.incomingCallbacks _ = occupied
  cases occupied <;> rfl

/-- **What the four slots are worth.** In every state that adds of any
filters and removals of live ones lead to: a slot is covered by at most
one live filter, and a live wildcard is the only one; a slot is occupied
exactly by the callback of the filter that covers it; a frame is handed to
that one callback, or to none where none covers its slot; and an add that
fails changes nothing. -/
theorem filters_of_reachable (h : (filterMachine C idMapping).Reachable s) :
    (∀ i, (s.live.filter fun f => f.filter.Covers idMapping i).length ≤ 1) ∧
      (∀ f ∈ s.live, f.filter.Wildcard → s.live = [f]) ∧
      (∀ i c, s.data.incomingCallbacks i = some c ↔
        ∃ f ∈ s.live, f.filter.Covers idMapping i ∧ f.callback = c) ∧
      (∀ frame : LinFrame,
        (∀ f ∈ s.live, f.filter.Covers idMapping frame.slot →
          ∃ received, linIncomingCb idMapping s.data frame = some (f.callback, received)) ∧
        ((∀ f ∈ s.live, ¬ f.filter.Covers idMapping frame.slot) →
          linIncomingCb idMapping s.data frame = none)) ∧
      ∀ callback filter ret data,
        lin2canAddRxFilter idMapping callback filter s.data = (ret, data) → ret < 0 →
          data = s.data := by
  have hserved := served_of_reachable h
  refine ⟨hserved.single, fun f hf => hserved.eq_singleton hf, hserved.slot, fun frame => ⟨?_, ?_⟩,
    ?_⟩
  · intro f hf hcovers
    rw [linIncomingCb_eq, (hserved.slot frame.slot f.callback).mpr ⟨f, hf, hcovers, rfl⟩]
    exact ⟨_, rfl⟩
  · intro hnone
    rw [linIncomingCb_eq, hserved.free_iff.mpr hnone]
    rfl
  · intro callback filter ret data heq hneg
    rcases lin2canAddRxFilter_spec idMapping callback filter s.data with
      ⟨-, -, hadd⟩ | ⟨-, i, -, -, hadd⟩ | ⟨_, -, hadd⟩
    · rw [heq, Prod.mk.injEq] at hadd
      omega
    · rw [heq, Prod.mk.injEq] at hadd
      omega
    · rw [heq, Prod.mk.injEq] at hadd
      exact hadd.2

/-- Ids 0x700 to 0x703, and no filter yet. -/
def fourIds : IdMapping := fun i => 0x700 + UInt32.ofNat i

/-- A driver without filters. -/
def noFilters : FilterState ℕ := ⟨⟨fun _ => none, [], 0x3C, 0x3D⟩, []⟩

/-- Two filters for one id each, the first removed, and a third for its
slot: a frame of that slot is the third one's. -/
theorem filters_of_reachable_third :
    ∃ s, (filterMachine ℕ fourIds).Reachable s ∧ s.live.map (·.callback) = [2, 3] ∧
      ∃ received, linIncomingCb fourIds s.data ⟨0x3D, 8, [0x41]⟩ = some (3, received) := by
  have h0 : (filterMachine ℕ fourIds).Reachable noFilters := .init ⟨fun _ => rfl, rfl⟩
  have h1 := h0.step (e := .add 1 ⟨0x701, 0x7FF, 0⟩) ⟨by simp, rfl⟩
  have h2 := h1.step (e := .add 2 ⟨0x702, 0x7FF, 0⟩) ⟨by simp, rfl⟩
  have h3 := h2.step (e := .remove 1) ⟨fun handle heq => by cases heq; exact ⟨_, .head _, rfl⟩, rfl⟩
  have h4 := h3.step (e := .add 3 ⟨0x701, 0x7FF, 0⟩) ⟨by simp, rfl⟩
  refine ⟨_, h4, by decide, ?_⟩
  exact ((filters_of_reachable h4).2.2.2.1 ⟨0x3D, 8, [0x41]⟩).1 ⟨1, ⟨0x701, 0x7FF, 0⟩, 3⟩
    (.tail _ (.head _)) (by decide)

end Lin

end Ardep
