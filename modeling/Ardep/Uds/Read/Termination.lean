import Ardep.Common.Acyclic
import Ardep.Uds.Dynamic.Definition
import Ardep.Uds.Read.Events
/-!
# Read — when a read comes to an end

A dynamic identifier refers to the data identifiers its elements name, and
reading it reads them. So a read ends where no identifier leads back to
itself (`raise_total`). Defining adds one reference and clearing takes
references away (`refers_of_step`): a run keeps the references acyclic as
long as no define request names a source that leads to the identifier it
defines. Nothing in the source refuses such a request.
-/

open Relation Ardep.Uds.Dynamic

namespace Ardep

namespace Uds

namespace Read

variable {F α : Type} {env : Env F α} {I : Instance F} {s s' : State F}

/-! ## References -/

/-- Reading the first data identifier reads the second: an element of a
dynamic identifier names it. -/
def Env.Refers (env : Env F α) (x y : UInt16) : Prop :=
  ∃ reg ∈ env.statics ++ env.dynamics, reg.dataId? = some x ∧
    readAction reg = some .udsDynamicDataByIdReadDataByIdAction ∧
    ∃ position size, .id y position size ∈ env.elements (dataPtr reg)

/-- Reading memory ends. -/
theorem raise_readMemByAddr_total (fuel memAddr memSize : ℕ) (copy : CopyFn) :
    ProgRel.Total
      (raise env (fuel + 1) .readMemByAddr (.readMemByAddr memAddr memSize copy)) :=
  (respects_total env.app copy).raise_readMemByAddr fuel fuel

theorem finite_uint16 : Finite UInt16 :=
  Finite.of_injective UInt16.toFin fun _ _ => UInt16.toFin_inj.mp

/-- **A read ends** where the references are well founded. -/
theorem raise_total (h : WellFounded (Function.swap env.Refers)) (x : UInt16) :
    ∃ n, ∀ k ≥ n, ∀ copy,
      ProgRel.Total (raise env k .readDataByIdent (.readDataByIdent x copy)) := by
  induction x using h.induction with
  | h x ih =>
    choose! n hn using ih
    -- every source has its fuel, and there are finitely many
    obtain ⟨N, hN⟩ : ∃ N, ∀ y, n y ≤ N := by
      have hfinite : Finite UInt16 := finite_uint16
      exact Finite.exists_le n
    refine ⟨N + 2, fun k hk copy => ?_⟩
    obtain ⟨k, rfl⟩ : ∃ j, k = j + 1 + 1 := ⟨k - 2, by omega⟩
    rw [raise_readDataByIdent]
    refine ProgRel.total_of_rel (udsHandleEvent_rel _ fun reg hreg found consume =>
      (respects_total env.app copy).readDataByIdent (fun hx haction => ?_) found consume)
    refine (respects_total env.app copy).readElements (fun _ _ _ _ => respectsBuffer_total)
      (fun y position size hy => ?_)
      fun memAddr memSize _ => raise_readMemByAddr_total k memAddr memSize copy
    exact hn y ⟨reg, hreg, hx, haction, position, size, hy⟩ (k + 1)
      (by have := hN y; omega) .udsCopy

/-! ## References of a state -/

/-- An identifier defined through 0x2C has an element from the other. -/
def refers (s : State F) (x y : UInt16) : Prop :=
  ∃ elements, definition s x = some elements ∧ ∃ position size, .id y position size ∈ elements

/-- What a read follows are the references of 0x2C. -/
theorem refers_of_env (h : Inv I s) {A : Application F α} {x y : UInt16}
    (href : (Env.ofState I A s).Refers x y) : refers s x y := by
  obtain ⟨reg, hreg, hx, haction, position, size, hy⟩ := href
  rcases List.mem_append.mp hreg with hreg | hreg
  · exact absurd haction (readAction_of_isApplication (I.statics_application reg hreg))
  · obtain ⟨r, hr, rfl⟩ := List.mem_map.mp hreg
    refine ⟨_, h.definition_eq_some.mpr ⟨r, hr, ?_, hx, rfl⟩, position, size, hy⟩
    by_contra hd
    exact readAction_of_isApplication (h.application r hr (by simpa using hd)) haction

/-! ## Runs -/

/-- **The request closes no cycle**: the source it names is not the
identifier it defines and does not lead to it. -/
def ClosesNoCycle (s : State F) : Event F → Prop
  | .request (.defineById x source _ _) _ => ¬ ReflTransGen (refers s) source x
  | _ => True

/-- **One reference more** at most, and it is the one the request
names. -/
theorem refers_of_step (h : Inv I s) {e : Event F} (hstep : (machine I).Step s e s') :
    (∀ a b, refers s' a b → refers s a b) ∨
      ∃ x y position size c, e = .request (.defineById x y position size) c ∧
        ∀ a b, refers s' a b → refers s a b ∨ a = x ∧ b = y := by
  rcases definition_of_step h hstep with ⟨x, d, c, rfl, hdef⟩ | hkept
  · have hnew : ∀ a b, refers s' a b →
        refers s a b ∨ a = x ∧ ∃ position size, d = .id b position size := by
      rintro a b ⟨elements, ha, position, size, hb⟩
      rw [hdef] at ha
      by_cases hax : a = x
      · subst hax
        rw [Function.update_self, Option.some.injEq] at ha
        subst ha
        -- an element that was there, or the one the request adds
        rcases List.mem_append.mp hb with hb | hb
        · cases hold : definition s a with
          | none => rw [hold] at hb; cases hb
          | some old => exact .inl ⟨old, hold, position, size, by simpa [hold] using hb⟩
        · exact .inr ⟨rfl, position, size, (List.mem_singleton.mp hb).symm⟩
      · rw [Function.update_of_ne hax] at ha
        exact .inl ⟨elements, ha, position, size, hb⟩
    cases d with
    | id y position size =>
      refine .inr ⟨x, y, position, size, c, rfl, fun a b hab => ?_⟩
      refine (hnew a b hab).imp_right fun ⟨ha, _, _, hd⟩ => ⟨ha, ?_⟩
      rw [DefinedData.id.injEq] at hd
      exact hd.1.symm
    | memory memAddr memSize =>
      refine .inl fun a b hab => (hnew a b hab).resolve_right ?_
      rintro ⟨-, _, _, hd⟩
      cases hd
  · refine .inl ?_
    rintro a b ⟨elements, ha, position, size, hb⟩
    rcases hkept a elements ha with hold | rfl
    · exact ⟨elements, hold, position, size, hb⟩
    · cases hb

/-- **The references stay acyclic** along a run that closes no cycle. -/
theorem acyclic_of_reachable (h : ((machine I).guard ClosesNoCycle).Reachable s) :
    Inv I s ∧ Acyclic (refers s) := by
  refine Machine.Reachable.invariant (M := (machine I).guard ClosesNoCycle)
    (P := fun s => Inv I s ∧ Acyclic (refers s)) ?_ ?_ h
  · intro s hinit
    refine ⟨inv_init hinit, Acyclic.empty ?_⟩
    rintro a b ⟨elements, ha, -⟩
    obtain ⟨-, -, hregs⟩ := hinit
    simp [definition, hregs] at ha
  · rintro s e s' ⟨hinv, hacyclic⟩ ⟨hok, hstep⟩
    refine ⟨inv_step hinv hstep, ?_⟩
    rcases refers_of_step hinv hstep with hmono | ⟨x, y, position, size, c, rfl, hinsert⟩
    · exact hacyclic.mono hmono
    · exact hacyclic.insert hok hinsert

/-- **Every read ends**, in every state of a run that closes no cycle:
from some fuel on the result is there and does not change. -/
theorem readDataByIdent_terminates (h : ((machine I).guard ClosesNoCycle).Reachable s)
    (A : Application F α) (x : UInt16) (st : ReadState α) :
    ∃ n res, ∀ k ≥ n, readDataByIdent (Env.ofState I A s) k x st = some res := by
  obtain ⟨hinv, hacyclic⟩ := acyclic_of_reachable h
  have hfinite : Finite UInt16 := finite_uint16
  have hwf := (hacyclic.mono fun a b => refers_of_env (A := A) hinv).wellFounded
  obtain ⟨n, hn⟩ := raise_total hwf x
  obtain ⟨res, hres⟩ := hn n le_rfl .request st
  exact ⟨n, res, fun k hk => raise_readDataByIdent_of_le hk hres⟩

/-- An application whose functions do nothing, for the samples. -/
def silent : Application ℕ Unit where
  check := fun _ _ _ app apply => .done .ok apply app
  action := fun _ _ _ app consume => .done .ok consume app
  memory := fun _ _ => 0
  memoryMap := ⟨0xFFFFFFFF, true, none, none⟩
  copy := fun _ _ => 0

/-- An identifier of one element. -/
def oneElement (source : UInt16) : State ℕ := defined oneHandler 0xF200 (.id source 0 1) setUp

theorem step_oneElement (source : UInt16) :
    (machine oneHandler).Step setUp
      (.request (.defineById 0xF200 source 0 1) allSucceed) (oneElement source) := by
  exact ⟨.inl (by decide), .ok, define_setUp oneHandler 0xF200 (.id source 0 1)⟩

/-- An identifier that refers to another one. -/
theorem readDataByIdent_terminates_other :
    ∃ n res, ∀ k ≥ n,
      readDataByIdent (Env.ofState oneHandler silent (oneElement 0xF100)) k 0xF200 ⟨(), [], []⟩ =
        some res := by
  have hok : ClosesNoCycle setUp (.request (.defineById 0xF200 0xF100 0 1) allSucceed) := by
    intro hpath
    rcases ReflTransGen.cases_head hpath with heq | ⟨y, ⟨elements, hy, -⟩, -⟩
    · exact absurd heq (by decide)
    · cases hy
  exact readDataByIdent_terminates
    (.step (.init ⟨rfl, rfl, rfl⟩) ⟨hok, step_oneElement 0xF100⟩) silent 0xF200 ⟨(), [], []⟩

/-- An identifier that refers to itself is read for ever. -/
theorem raise_self (k : ℕ) (copy : CopyFn) (st : ReadState Unit) :
    raise (Env.ofState oneHandler silent (oneElement 0xF200)) k .readDataByIdent
      (.readDataByIdent 0xF200 copy) st = none := by
  induction k generalizing copy st with
  | zero => rfl
  | succ k ih =>
    have hdynamics : (Env.ofState oneHandler silent (oneElement 0xF200)).dynamics =
        [] ++ (newRegistration oneHandler 0xF200 setUp).reg :: [] := rfl
    rw [raise_dynamicIdentifier hdynamics (by simp) rfl
      (by simp [Env.ofState, oneHandler, Registration.dataId?]) k copy]
    show (raise _ k .readDataByIdent (.readDataByIdent 0xF200 .udsCopy)
      { st with tempBuffer := [] }).bind _ = none
    rw [ih]
    rfl

/-- A request that names the identifier it defines, and a read that does
not end. -/
theorem not_terminates_self :
    ¬ ∀ s, (machine oneHandler).Reachable s →
      ∀ (A : Application ℕ Unit) (x : UInt16) (st : ReadState Unit),
        ∃ n res, ∀ k ≥ n, readDataByIdent (Env.ofState oneHandler A s) k x st = some res := by
  intro hall
  obtain ⟨n, res, hread⟩ := hall (oneElement 0xF200)
    (.step (.init ⟨rfl, rfl, rfl⟩) (step_oneElement 0xF200)) silent 0xF200 ⟨(), [], []⟩
  have hres := hread n le_rfl
  rw [readDataByIdent, raise_self] at hres
  cases hres

end Read

end Uds

end Ardep
