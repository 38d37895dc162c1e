import Ardep.Uds.Dynamic.Clear
import Ardep.Uds.Read.Model
/-!
# Dynamic — define requests that fail

What should hold of a define request that is refused: the identifiers
defined before it read as before, and every block it took is back. Both
hold exactly where the request does not come to one of two cleanups
(`FailsCleanly`): the helper that appends frees the elements of the list
it was given, also where the list is one an identifier reads from; and a
registration that cannot be tracked is unregistered, which frees the list
the caller frees once more.
-/

open Ardep.Uds.Read

namespace Ardep

namespace Uds

namespace Dynamic

variable {F : Type} {I : Instance F} {c : Choices F} {s s' : State F}

/-! ## Requests -/

/-- The define request that adds an element to an identifier. -/
def defineRequest (x : UInt16) : DefinedData → DDDIArgs
  | .id id position size => .defineById x id position size
  | .memory memAddr memSize => .defineByMemAddress x memAddr memSize

theorem run_defineRequest (x : UInt16) (d : DefinedData) :
    udsActionDefaultDynamicallyDefineDataIds I c (defineRequest x d) s =
      defineAddNewId I c (appendToRegistration c d) x s := by
  cases d <;> rfl

/-- **No cleanup goes wrong.** An identifier that has elements gets the
block for one more; a new identifier that is registered gets the block
that tracks it. -/
def FailsCleanly (I : Instance F) (c : Choices F) (x : UInt16) (s : State F) : Prop :=
  (∀ r, udsFindExistingRegistrationByDataId I x s = some r →
    c.alloc .dataItem = true ∨ s.lists (dataPtr r.reg) = []) ∧
  (udsFindExistingRegistrationByDataId I x s = none → AllocatesNew c s →
    c.alloc .regIdItem = true)

/-- **A request is accepted, or refused with nothing changed**, where no
cleanup goes wrong. -/
theorem define_of_failsCleanly (h : Inv I s) {x : UInt16} (d : DefinedData)
    (hclean : FailsCleanly I c x s) :
    ∃ ret s', udsActionDefaultDynamicallyDefineDataIds I c (defineRequest x d) s =
      .ok (ret, s') ∧ (ret ≠ .ok → Unchanged s s') := by
  simp only [run_defineRequest]
  cases hfind : udsFindExistingRegistrationByDataId I x s with
  | some r =>
    cases hitem : c.alloc .dataItem with
    | true => exact ⟨.ok, _, define_existing_ok h hfind hitem, fun hne => absurd rfl hne⟩
    | false =>
      have hnil : s.lists (dataPtr r.reg) = [] :=
        (hclean.1 r hfind).resolve_left (by simp [hitem])
      obtain ⟨t, hrun, hlive, hlists, hids, hregs, -⟩ :=
        define_existing_fails (d := d) h hfind hitem
      refine ⟨.generalReject, t, hrun, fun _ => ⟨?_, ?_, hids, hregs⟩⟩
      · rw [hlive, hnil]
        simp
      · rw [hlists, update_nil_of_eq_nil hnil]
  | none =>
    by_cases halloc : AllocatesNew c s
    · exact ⟨.ok, _, define_new_ok h hfind halloc (hclean.2 hfind halloc),
        fun hne => absurd rfl hne⟩
    · obtain ⟨ret, t, -, hrun, hsame⟩ := define_new_fails (d := d) h hfind halloc
      exact ⟨ret, t, hrun, fun _ => hsame⟩

/-- **A cleanup that goes wrong** takes the elements an identifier had, or
faults. -/
theorem define_of_not_failsCleanly (h : Inv I s) {x : UInt16} (d : DefinedData)
    (hclean : ¬ FailsCleanly I c x s) :
    (∃ r t, r ∈ s.dynamicRegistrations ∧ DefinedThrough I s x r ∧
      udsActionDefaultDynamicallyDefineDataIds I c (defineRequest x d) s =
        .ok (.generalReject, t) ∧
      s.lists (dataPtr r.reg) ≠ [] ∧ t.lists (dataPtr r.reg) = [] ∧
      t.heap.live ≠ s.heap.live) ∨
    ∃ fault, udsActionDefaultDynamicallyDefineDataIds I c (defineRequest x d) s =
      .error fault := by
  simp only [run_defineRequest]
  rw [FailsCleanly, not_and_or] at hclean
  rcases hclean with hexisting | hnew
  · push Not at hexisting
    obtain ⟨r, hfind, hitem, hne⟩ := hexisting
    obtain ⟨hr, hd, hx⟩ := h.existing_of_some hfind
    obtain ⟨t, hrun, hlive, hlists, -⟩ :=
      define_existing_fails (d := d) h hfind (by simpa using hitem)
    refine .inl ⟨r, t, hr, ⟨hx, (h.tracked_iff hr).mpr hd⟩, hrun, hne, ?_, fun heq => ?_⟩
    · rw [hlists, Function.update_self]
    · -- the first element was live, and is not any more
      obtain ⟨item, hitem⟩ := List.exists_mem_of_ne_nil _ hne
      have hmem : item.addr ∈ (s.lists (dataPtr r.reg)).map (·.addr) :=
        List.mem_map_of_mem hitem
      have hwas : item.addr ∈ s.heap.live :=
        h.held.live _ (mem_blocks_of_reg hr (by
          rw [regBlocks, if_pos hd]
          exact List.mem_cons_of_mem _ (List.mem_cons_of_mem _ hmem)))
      rw [← heq, hlive, Finset.mem_sdiff] at hwas
      exact hwas.2 (List.mem_toFinset.mpr hmem)
  · push Not at hnew
    obtain ⟨hfind, halloc, hitem⟩ := hnew
    exact .inr ⟨_, define_new_regIdItem h hfind halloc (by simpa using hitem)⟩

/-- **A property of what a refused request leaves** that an unchanged
state has, and one where an identifier lost its elements has not, is
guaranteed exactly where no cleanup goes wrong. -/
theorem define_refused_iff (h : Inv I s) {x : UInt16} (d : DefinedData) {P : State F → Prop}
    (hsame : ∀ t, Unchanged s t → P t)
    (hlost : ∀ r t, r ∈ s.dynamicRegistrations → DefinedThrough I s x r →
      s.lists (dataPtr r.reg) ≠ [] → t.lists (dataPtr r.reg) = [] →
      t.heap.live ≠ s.heap.live → ¬ P t) :
    (∃ ret s', udsActionDefaultDynamicallyDefineDataIds I c (defineRequest x d) s =
      .ok (ret, s') ∧ (ret ≠ .ok → P s')) ↔ FailsCleanly I c x s := by
  constructor
  · rintro ⟨ret, s', hrun, hP⟩
    by_contra hclean
    rcases define_of_not_failsCleanly h d hclean with
      ⟨r, t, hr, hdef, hfails, hne, hnil, hlive⟩ | ⟨fault, hfault⟩
    · rw [hrun, Except.ok.injEq, Prod.mk.injEq] at hfails
      obtain ⟨rfl, rfl⟩ := hfails
      exact hlost r s' hr hdef hne hnil hlive (hP (by decide))
    · rw [hrun] at hfault
      cases hfault
  · intro hclean
    obtain ⟨ret, s', hrun, hunchanged⟩ := define_of_failsCleanly h d hclean
    exact ⟨ret, s', hrun, fun hne => hsame s' (hunchanged hne)⟩

/-! ## What is read -/

/-- **The identifiers are as before**: each has its elements, and reads
the same whatever the application is. -/
def KeepsIdentifiers (I : Instance F) (s s' : State F) : Prop :=
  ∀ x, ∀ r ∈ s.dynamicRegistrations, DefinedThrough I s x r →
    r ∈ s'.dynamicRegistrations ∧
    s'.lists (dataPtr r.reg) = s.lists (dataPtr r.reg) ∧
    ∀ (α : Type) (A : Application F α) (fuel : ℕ) (st : ReadState α),
      readDataByIdent (Env.ofState I A s') fuel x st = readDataByIdent (Env.ofState I A s) fuel x st

theorem Unchanged.keepsIdentifiers (h : Unchanged s s') : KeepsIdentifiers I s s' := by
  intro x r hr _
  refine ⟨h.dynamicRegistrations ▸ hr, by rw [h.lists], fun α A fuel st => ?_⟩
  have henv : Env.ofState I A s' = Env.ofState I A s := by
    simp only [Env.ofState, h.lists, h.dynamicRegistrations]
  rw [henv]

/-- **When a refused define request leaves the other identifiers alone**:
the request is answered, and where the answer is negative every identifier
is as before, exactly if no cleanup goes wrong. -/
theorem define_keepsIdentifiers_iff (h : (machine I).Reachable s) (c : Choices F) (x : UInt16)
    (d : DefinedData) :
    (∃ ret s', udsActionDefaultDynamicallyDefineDataIds I c (defineRequest x d) s =
      .ok (ret, s') ∧ (ret ≠ .ok → KeepsIdentifiers I s s')) ↔ FailsCleanly I c x s := by
  refine define_refused_iff (inv_of_reachable h) d (fun t hsame => hsame.keepsIdentifiers) ?_
  intro r t hr hdef hne hnil _ hkeeps
  have hlists := (hkeeps x r hr hdef).2.1
  rw [hnil] at hlists
  exact hne hlists.symm

/-- A second identifier that gets no list fails at its first
allocation. -/
theorem failsCleanly_noList : FailsCleanly oneHandler (failsAt .dataList) 0xF201 oneIdentifier := by
  have hnew : udsFindExistingRegistrationByDataId oneHandler 0xF201 oneIdentifier = none := by
    decide +kernel
  refine ⟨fun r hfind => ?_, fun _ halloc => absurd halloc.1 (by decide)⟩
  rw [hnew] at hfind
  cases hfind

/-- A second identifier that gets no list: the first reads as before. -/
theorem define_keepsIdentifiers_noList :
    ∃ ret s', udsActionDefaultDynamicallyDefineDataIds oneHandler (failsAt .dataList)
        (defineRequest 0xF201 (.memory 1 1)) oneIdentifier = .ok (ret, s') ∧
      (ret ≠ .ok → KeepsIdentifiers oneHandler oneIdentifier s') :=
  (define_keepsIdentifiers_iff reachable_oneIdentifier (failsAt .dataList) 0xF201 (.memory 1 1)).mpr
    failsCleanly_noList

/-- A second element that gets no block: the first is gone. -/
theorem not_keepsIdentifiers_element :
    ¬ ∀ s, (machine oneHandler).Reachable s → ∀ (c : Choices ℕ) (x : UInt16) (d : DefinedData)
      (ret : UDSErr) (s' : State ℕ),
      udsActionDefaultDynamicallyDefineDataIds oneHandler c (defineRequest x d) s =
        .ok (ret, s') → ret ≠ .ok → KeepsIdentifiers oneHandler s s' := by
  intro hall
  have hinv := inv_of_reachable reachable_oneIdentifier
  have hfind : udsFindExistingRegistrationByDataId oneHandler 0xF200 oneIdentifier =
      some (newRegistration oneHandler 0xF200 setUp) := by decide +kernel
  obtain ⟨hr, hd, hx⟩ := hinv.existing_of_some hfind
  obtain ⟨t, hrun, -, hlists, -⟩ :=
    define_existing_fails (c := failsAt .dataItem) (d := .memory 2 1) hinv hfind rfl
  have hkeeps := hall _ reachable_oneIdentifier (failsAt .dataItem) 0xF200 (.memory 2 1)
    .generalReject t hrun (by decide) 0xF200 _ hr ⟨hx, (hinv.tracked_iff hr).mpr hd⟩
  have hgone := hkeeps.2.1
  rw [hlists, Function.update_self] at hgone
  exact absurd hgone (by decide +kernel)

/-! ## What is live -/

/-- **When a define request neither faults nor leaks**: no block is freed
twice, no freed list is walked and a refused request gives back what it
took, exactly if no cleanup goes wrong. -/
theorem define_live_iff (h : (machine I).Reachable s) (c : Choices F) (x : UInt16)
    (d : DefinedData) :
    (∃ ret s', udsActionDefaultDynamicallyDefineDataIds I c (defineRequest x d) s =
      .ok (ret, s') ∧ (ret ≠ .ok → s'.heap.live = s.heap.live)) ↔ FailsCleanly I c x s :=
  define_refused_iff (inv_of_reachable h) d (fun _ hsame => hsame.live)
    fun _ _ _ _ _ _ hne hlive => hne hlive

/-- A second identifier that gets no list gives back the rest. -/
theorem define_live_noList :
    ∃ ret s', udsActionDefaultDynamicallyDefineDataIds oneHandler (failsAt .dataList)
        (defineRequest 0xF201 (.memory 1 1)) oneIdentifier = .ok (ret, s') ∧
      (ret ≠ .ok → s'.heap.live = oneIdentifier.heap.live) :=
  (define_live_iff reachable_oneIdentifier (failsAt .dataList) 0xF201 (.memory 1 1)).mpr
    failsCleanly_noList

/-- A first identifier that is registered and gets no tracking item: its
list is freed and then walked. -/
theorem define_untracked_faults :
    ¬ ∀ s, (machine oneHandler).Reachable s → ∀ (c : Choices ℕ) (x : UInt16) (d : DefinedData),
      ∃ ret s', udsActionDefaultDynamicallyDefineDataIds oneHandler c (defineRequest x d) s =
        .ok (ret, s') ∧ (ret ≠ .ok → s'.heap.live = s.heap.live) := by
  intro hall
  have hinit : (machine oneHandler).init setUp := ⟨rfl, rfl, rfl⟩
  obtain ⟨ret, s', hrun, -⟩ :=
    hall setUp (.init hinit) (failsAt .regIdItem) 0xF200 (.memory 1 1)
  have hfault : udsActionDefaultDynamicallyDefineDataIds oneHandler (failsAt .regIdItem)
      (defineRequest 0xF200 (.memory 1 1)) setUp = .error (.traversed setUp.heap.next) :=
    define_new_regIdItem (inv_init hinit) rfl ⟨rfl, rfl, rfl, by decide +kernel, rfl⟩ rfl
  rw [hfault] at hrun
  cases hrun

end Dynamic

end Uds

end Ardep
