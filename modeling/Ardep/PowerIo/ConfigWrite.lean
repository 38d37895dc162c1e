import Mathlib.Tactic.Common
import Ardep.PowerIo.Interrupts
/-!
# The power I/O shield — from the cached interrupt settings to the chip

`pin_interrupt_configure` changes the cached settings in one critical
section and writes them to the chip in another. A thread does the second
itself. An interrupt submits a work item for it, which may stand for
several of them and runs some time later. Each write takes the whole cache,
so it may carry settings of other callers, and a caller's own may reach
the chip before its write.

`settled` says that none is lost: whenever no call and no work item is
under way, the chip has the cached settings, and these are all the accepted
configurations applied in the order in which they took the lock. Behind it
is an invariant of two lines: the chip has what the cache has, or a write
is still to come.
-/

namespace Ardep

namespace PowerIo

/-- The interrupt registers of the chip. -/
structure ChipRegs where
  defval : Reg
  intcon : Reg
  gpinten : Reg
  deriving DecidableEq, Repr

/-- `power_io_shield_write_interrupt_config_work_handler`: what it writes. -/
def writeInterruptConfig (d : Data) : ChipRegs := ⟨d.defval, d.intcon, d.gpinten⟩

/-- Where a caller is: out of the driver; past the checks, before the lock;
or past the first critical section, about to submit the work item or to
write itself. -/
inductive Phase where
  | idle
  | called (isr : Bool) (e : Configure)
  | submitting
  | writing

/-- **The settings, the chip and all that is under way.** `T` are the
threads and interrupts that call. The work item is queued, or its handler
has started, or both: an item submitted while its handler runs is queued
again. -/
structure Control (T : Type) where
  data : Data
  chip : ChipRegs
  phase : T → Phase
  queued : Bool
  running : Bool

inductive ControlEvent (T : Type) where
  | call (t : T) (isr : Bool) (e : Configure)
  | refused (t : T)
  | configure (t : T) (e : Configure)
  | submit (t : T)
  | write (t : T)
  | workStart
  | workWrite

variable {T : Type} [DecidableEq T]

/-- A caller goes on to its next phase. -/
def Control.goOn (s : Control T) (t : T) (phase : Phase) : Control T :=
  { s with phase := Function.update s.phase t phase }

/-- **One step of a caller or of the work queue.** What lies between taking
and giving the lock is one step. -/
inductive ControlStep : Control T → ControlEvent T → Control T → Prop
  | rejected {s : Control T} {t : T} {isr : Bool} {e : Configure} (hat : s.phase t = .idle)
      (hnot : ¬ e.Accepted) : ControlStep s (.call t isr e) s
  | call {s : Control T} {t : T} {isr : Bool} {e : Configure} (hat : s.phase t = .idle)
      (hok : e.Accepted) : ControlStep s (.call t isr e) (s.goOn t (.called isr e))
  -- an interrupt does not wait for the lock
  | refused {s : Control T} {t : T} {e : Configure} (hat : s.phase t = .called true e) :
      ControlStep s (.refused t) (s.goOn t .idle)
  | configure {s : Control T} {t : T} {isr : Bool} {e : Configure} (hat : s.phase t = .called isr e) :
      ControlStep s (.configure t e)
        { s.goOn t (if isr then .submitting else .writing) with
          data := configureInterrupt e.pin.number e.mode e.trig s.data }
  | submit {s : Control T} {t : T} (hat : s.phase t = .submitting) :
      ControlStep s (.submit t) { s.goOn t .idle with queued := true }
  | write {s : Control T} {t : T} (hat : s.phase t = .writing) :
      ControlStep s (.write t) { s.goOn t .idle with chip := writeInterruptConfig s.data }
  | workStart {s : Control T} (hqueued : s.queued = true) (hrunning : s.running = false) :
      ControlStep s .workStart { s with queued := false, running := true }
  | workWrite {s : Control T} (hrunning : s.running = true) :
      ControlStep s .workWrite { s with chip := writeInterruptConfig s.data, running := false }

/-- **The driver under any number of callers**, from cleared registers. -/
def control (T : Type) [DecidableEq T] : Machine (Control T) (ControlEvent T) where
  init s := s.data = Data.zero ∧ s.chip = ⟨0, 0, 0⟩ ∧ (∀ t, s.phase t = .idle) ∧ s.queued = false ∧
    s.running = false
  Step := ControlStep

/-- The accepted configurations of a run, in the order in which they took
the lock. -/
def inOrder (past : List (Control T × ControlEvent T)) : List Configure :=
  past.filterMap fun x =>
    match x.2 with
    | .configure _ e => some e
    | _ => none

/-- Configurations applied one after the other. -/
def applyAll (configs : List Configure) : Data :=
  configs.foldl (fun d e => configureInterrupt e.pin.number e.mode e.trig d) Data.zero

/-- **Nothing is under way.** -/
def Quiescent (s : Control T) : Prop :=
  (∀ t, s.phase t = .idle) ∧ s.queued = false ∧ s.running = false

/-- **A write of the cache is still to come**: by a caller, by the work
item, or by the work item once a caller has submitted it. -/
def WritePending (s : Control T) : Prop :=
  (∃ t, s.phase t = .submitting ∨ s.phase t = .writing) ∨ s.queued = true ∨ s.running = true

/-- **The chip has what the cache has, or a write is still to come.** -/
def UpToDate (s : Control T) : Prop := s.chip = writeInterruptConfig s.data ∨ WritePending s

section Steps

variable {s s' : Control T} {ev : ControlEvent T} {past : List (Control T × ControlEvent T)}

theorem goOn_phase_self (s : Control T) (t : T) (phase : Phase) :
    (s.goOn t phase).phase t = phase :=
  Function.update_self ..

/-- A caller that was not about to write or submit takes no write with it
when it goes on. -/
theorem UpToDate.goOn (h : UpToDate s) {t : T} (phase : Phase) (hsub : s.phase t ≠ .submitting)
    (hwrite : s.phase t ≠ .writing) : UpToDate (s.goOn t phase) := by
  rcases h with hchip | ⟨t', ht'⟩ | hwork
  · exact .inl hchip
  · refine .inr (.inl ⟨t', ?_⟩)
    have hne : t' ≠ t := by
      rintro rfl
      rcases ht' with hs | hw
      · exact hsub hs
      · exact hwrite hw
    unfold Control.goOn
    simpa only [Function.update_of_ne hne] using ht'
  · exact .inr (.inr hwork)

/-- **One step keeps the chip up to date.** -/
theorem upToDate_step (h : UpToDate s) (hstep : ControlStep s ev s') : UpToDate s' := by
  cases hstep with
  | rejected _ _ => exact h
  | call hat _ => exact h.goOn _ (by rw [hat]; exact nofun) (by rw [hat]; exact nofun)
  | refused hat => exact h.goOn _ (by rw [hat]; exact nofun) (by rw [hat]; exact nofun)
  | @configure t isr e hat =>
    -- the cache is new, and its caller is about to write it or have it written
    refine .inr (.inl ⟨t, ?_⟩)
    have hphase := goOn_phase_self s t (if isr then .submitting else .writing)
    cases isr with
    | true => exact .inl hphase
    | false => exact .inr hphase
  | submit hat => exact .inr (.inr (.inl rfl))
  | write hat => exact .inl rfl
  | workStart _ _ => exact .inr (.inr (.inr rfl))
  | workWrite _ => exact .inl rfl

/-- **The cache is the accepted configurations in order.** -/
theorem data_eq (h : (control T).Run past s) : s.data = applyAll (inOrder past) := by
  induction h with
  | init hinit =>
    rw [hinit.1]
    rfl
  | step hrun hstep ih =>
    unfold inOrder applyAll at ih ⊢
    rw [List.filterMap_append, List.foldl_append, ← ih]
    cases hstep <;> rfl

/-- **No configuration is lost.** In every state with nothing under way,
the chip has the cached settings, and these are all the accepted
configurations, in the order in which they took the lock. -/
theorem settled (h : (control T).Run past s) (hquiet : Quiescent s) :
    s.chip.defval = s.data.defval ∧ s.chip.intcon = s.data.intcon ∧
      s.chip.gpinten = s.data.gpinten ∧ s.data = applyAll (inOrder past) := by
  have hdate : UpToDate s := by
    refine h.reachable.invariant (P := UpToDate) (fun s hinit => ?_)
      fun s ev s' hs hstep => upToDate_step hs hstep
    obtain ⟨hdata, hchip, -⟩ := hinit
    refine .inl ?_
    rw [hdata, hchip]
    rfl
  obtain ⟨hidle, hqueued, hrunning⟩ := hquiet
  have hchip : s.chip = writeInterruptConfig s.data := by
    rcases hdate with hchip | ⟨t, hsub | hwrite⟩ | hq | hr
    · exact hchip
    · rw [hidle t] at hsub
      cases hsub
    · rw [hidle t] at hwrite
      cases hwrite
    · rw [hqueued] at hq
      cases hq
    · rw [hrunning] at hr
      cases hr
  rw [hchip]
  exact ⟨rfl, rfl, rfl, data_eq h⟩

end Steps

/-- The driver with two callers, an interrupt and a thread, at rest. -/
def atRest : Control Bool := ⟨Data.zero, ⟨0, 0, 0⟩, fun _ => .idle, false, false⟩

/-- The thread has passed the checks for an edge on input 1 when the interrupt
enables a level on input 0, and writes both; the work item comes last. -/
theorem settled_isr :
    ∃ past s, (control Bool).Run past s ∧ Quiescent s ∧
      inOrder past = [⟨.input 0, .level, .high⟩, ⟨.input 1, .edge, .low⟩] ∧
      s.chip.gpinten = 0x300 ∧ s.chip.intcon = s.data.intcon ∧
      s.data = applyAll [⟨.input 0, .level, .high⟩, ⟨.input 1, .edge, .low⟩] := by
  have hinit : (control Bool).init atRest := ⟨rfl, rfl, fun _ => rfl, rfl, rfl⟩
  have hlevel : (Configure.mk (.input 0) .level .high).Accepted := by decide
  have hedge : (Configure.mk (.input 1) .edge .low).Accepted := by decide
  have hthread : (control Bool).Step atRest (.call false false ⟨.input 1, .edge, .low⟩) _ :=
    .call rfl hedge
  have hisr : (control Bool).Step _ (.call true true ⟨.input 0, .level, .high⟩) _ :=
    .call (s := atRest.goOn false (.called false ⟨.input 1, .edge, .low⟩)) rfl hlevel
  have hrun := ((((((((Machine.Run.init hinit).step hthread).step hisr).step
    (.configure (t := true) rfl)).step (.configure (t := false) rfl)).step
    (.submit (t := true) rfl)).step (.write (t := false) rfl)).step (.workStart rfl rfl)).step
    (.workWrite rfl)
  obtain ⟨-, hintcon, hgpinten, hdata⟩ :=
    settled hrun ⟨Bool.forall_bool.mpr ⟨rfl, rfl⟩, rfl, rfl⟩
  refine ⟨_, _, hrun, ⟨Bool.forall_bool.mpr ⟨rfl, rfl⟩, rfl, rfl⟩, rfl, ?_, hintcon, hdata⟩
  rw [hgpinten]
  decide

end PowerIo

end Ardep
