import Mathlib.Tactic.Common
import Ardep.PowerIo.Outputs
/-!
# The power I/O shield — callbacks under the lock

The interrupt work handler takes the lock, reads the chip, fires the
callbacks and gives the lock. A callback runs in the context of the work
queue, with the lock taken. If it sets an output, the driver takes the
lock again, waits for its own context to give it, and the work queue is
blocked for ever.

`neverReenters_iff` says which callbacks are safe: those that fire without
coming to an operation that takes the lock. With these alone the handler
also returns.
-/

namespace Ardep

namespace PowerIo

/-- An operation of the GPIO API on the shield. -/
inductive Op where
  | setMasked (mask value : PortPins)
  | setBits (mask : PortPins)
  | clearBits (mask : PortPins)
  | get
  | configure (pin : Pin) (flags : Flags)
  | interruptConfigure (pin : Pin) (mode : IntMode) (trig : IntTrig)

/-- What an operation returns before it comes to the lock, if it does not
come to it. `pin_configure` takes the lock where it writes, and
`pin_interrupt_configure` after its checks. -/
def Op.beforeLock : Op → Option ℤ
  | .setMasked _ _ => none
  | .setBits _ => none
  | .clearBits _ => none
  | .get => none
  | .configure pin flags =>
    match pinConfigure true pin.number flags Data.zero with
    | (ret, none, _) => some ret
    | (_, some _, _) => none
  | .interruptConfigure pin mode trig =>
    let err := checkInterrupt pin.number mode trig
    if err = 0 then none else some err

/-- What an operation returns: a status, and the port value of a read. -/
abbrev Answer : Type := ℤ × Option PortPins

/-- **What a callback does**: operations on the shield, each decided by
what the earlier ones returned. -/
inductive Prog where
  | done
  | call (op : Op) (next : Answer → Prog)

/-- A registered callback: its pins, and what it does for those fired. -/
structure Callback where
  pinMask : PortPins
  handler : PortPins → Prog

/-- `gpio_fire_callbacks`: the callbacks that run, in order. -/
def fired (callbacks : List Callback) (pins : PortPins) : List Prog :=
  (callbacks.filter fun cb => cb.pinMask &&& pins ≠ 0).map fun cb => cb.handler (cb.pinMask &&& pins)

/-- Who has the lock. -/
inductive Holder where
  | worker
  | other
  deriving DecidableEq, Repr

/-- Where the work queue is: before the handler's lock, in a callback with
others to follow, in a callback that asks for the lock, or done. -/
inductive WorkerAt where
  | start
  | firing (current : Prog) (rest : List Prog)
  | taking (op : Op) (next : Answer → Prog) (rest : List Prog)
  | finished

/-- The lock and the work queue. -/
structure Worker where
  lock : Option Holder
  place : WorkerAt

/-- **One step of the handler**, or of another context that takes and gives
the lock. `pins` are those the handler fires. -/
inductive WorkerStep (callbacks : List Callback) (pins : PortPins) : Worker → Unit → Worker → Prop
  | otherTakes {s : Worker} (hfree : s.lock = none) :
      WorkerStep callbacks pins s () { s with lock := some .other }
  | otherGives {s : Worker} (hheld : s.lock = some .other) :
      WorkerStep callbacks pins s () { s with lock := none }
  | take {lock : Option Holder} (hfree : lock = none) :
      WorkerStep callbacks pins ⟨lock, .start⟩ ()
        ⟨some .worker, .firing .done (fired callbacks pins)⟩
  | nextCallback {lock : Option Holder} {current : Prog} {rest : List Prog} :
      WorkerStep callbacks pins ⟨lock, .firing .done (current :: rest)⟩ () ⟨lock, .firing current rest⟩
  | returns {lock : Option Holder} {op : Op} {next : Answer → Prog} {rest : List Prog} {ret : ℤ}
      (hret : op.beforeLock = some ret) :
      WorkerStep callbacks pins ⟨lock, .firing (.call op next) rest⟩ ()
        ⟨lock, .firing (next (ret, none)) rest⟩
  | tries {lock : Option Holder} {op : Op} {next : Answer → Prog} {rest : List Prog}
      (hlock : op.beforeLock = none) :
      WorkerStep callbacks pins ⟨lock, .firing (.call op next) rest⟩ () ⟨lock, .taking op next rest⟩
  -- the operation takes the lock, does its work and gives the lock
  | operates {op : Op} {next : Answer → Prog} {rest : List Prog} (answer : Answer) :
      WorkerStep callbacks pins ⟨none, .taking op next rest⟩ () ⟨none, .firing (next answer) rest⟩
  | give {lock : Option Holder} :
      WorkerStep callbacks pins ⟨lock, .firing .done []⟩ () ⟨none, .finished⟩

/-- **A run of the interrupt work handler**, from any holder of the lock but
itself, with what the reads of INTF and INTCAP give. -/
def handler (callbacks : List Callback) (intf intcap : Option Reg) (d : Data) :
    Machine Worker Unit where
  init s := s.lock ≠ some .worker ∧ s.place = .start
  Step := WorkerStep callbacks (interruptWorkHandler intf intcap d)

/-- The context asks for the lock it has. -/
def Worker.Reenters (s : Worker) : Prop :=
  s.lock = some .worker ∧ ∃ op next rest, s.place = .taking op next rest

/-- **No step takes the lock in the context that has it**, and the handler
returns. -/
def NeverReenters (M : Machine Worker Unit) : Prop :=
  (∀ s, M.Reachable s → ¬ s.Reenters) ∧ ∃ s, M.Reachable s ∧ s.place = .finished

/-- A callback comes to an operation that takes the lock. -/
def Prog.ReachesLock : Prog → Prop
  | .done => False
  | .call op next =>
    match op.beforeLock with
    | none => True
    | some ret => (next (ret, none)).ReachesLock

/-! ## One callback -/

section Callbacks

variable {callbacks : List Callback} {intf intcap : Option Reg} {d : Data} {p : Prog}
  {rest : List Prog} {s s' : Worker}

theorem Prog.reachesLock_of_none {op : Op} {next : Answer → Prog} (h : op.beforeLock = none) :
    (Prog.call op next).ReachesLock := by
  rw [Prog.ReachesLock, h]
  trivial

theorem Prog.reachesLock_of_some {op : Op} {next : Answer → Prog} {ret : ℤ}
    (h : op.beforeLock = some ret) :
    (Prog.call op next).ReachesLock ↔ (next (ret, none)).ReachesLock := by
  rw [Prog.ReachesLock, h]

/-- A callback that does not come to the lock returns. -/
theorem reachable_done
    (h : (handler callbacks intf intcap d).Reachable ⟨some .worker, .firing p rest⟩)
    (hsafe : ¬ p.ReachesLock) :
    (handler callbacks intf intcap d).Reachable ⟨some .worker, .firing .done rest⟩ := by
  induction p with
  | done => exact h
  | call op next ih =>
    cases hop : op.beforeLock with
    | none => exact absurd (Prog.reachesLock_of_none hop) hsafe
    | some ret =>
      rw [Prog.reachesLock_of_some hop] at hsafe
      exact ih (ret, none) (h.step (.returns hop)) hsafe

/-- One that does asks for the lock its context has. -/
theorem reachable_reenters
    (h : (handler callbacks intf intcap d).Reachable ⟨some .worker, .firing p rest⟩)
    (hreaches : p.ReachesLock) :
    ∃ s, (handler callbacks intf intcap d).Reachable s ∧ s.Reenters := by
  induction p with
  | done => exact absurd hreaches id
  | call op next ih =>
    cases hop : op.beforeLock with
    | none => exact ⟨_, h.step (.tries hop), rfl, op, next, rest, rfl⟩
    | some ret =>
      rw [Prog.reachesLock_of_some hop] at hreaches
      exact ih (ret, none) (h.step (.returns hop)) hreaches

/-! ## All of them -/

theorem reachable_all_done
    (h : (handler callbacks intf intcap d).Reachable ⟨some .worker, .firing .done rest⟩)
    (hsafe : ∀ q ∈ rest, ¬ q.ReachesLock) :
    (handler callbacks intf intcap d).Reachable ⟨some .worker, .firing .done []⟩ := by
  induction rest with
  | nil => exact h
  | cons q rest ih =>
    have hq := reachable_done (h.step .nextCallback) (hsafe q List.mem_cons_self)
    exact ih hq fun q' hq' => hsafe q' (List.mem_cons_of_mem q hq')

theorem reachable_first_reenters
    (h : (handler callbacks intf intcap d).Reachable ⟨some .worker, .firing .done rest⟩)
    (hreaches : ∃ q ∈ rest, q.ReachesLock) :
    ∃ s, (handler callbacks intf intcap d).Reachable s ∧ s.Reenters := by
  induction rest with
  | nil =>
    obtain ⟨q, hq, -⟩ := hreaches
    exact absurd hq List.not_mem_nil
  | cons q rest ih =>
    have hnext := h.step .nextCallback
    by_cases hq : q.ReachesLock
    · exact reachable_reenters hnext hq
    · refine ih (reachable_done hnext hq) ?_
      obtain ⟨q', hmem, hq'⟩ := hreaches
      rcases List.mem_cons.mp hmem with rfl | hmem
      · exact absurd hq' hq
      · exact ⟨q', hmem, hq'⟩

/-- The invariant of a handler whose callbacks are safe: the work queue has
the lock while it fires them, and none asks for it. -/
def Safe (s : Worker) : Prop :=
  match s.place with
  | .start => s.lock ≠ some .worker
  | .firing current rest =>
    s.lock = some .worker ∧ ¬ current.ReachesLock ∧ ∀ q ∈ rest, ¬ q.ReachesLock
  | .taking _ _ _ => False
  | .finished => True

/-- Other contexts take and give the lock only while the work queue does
not have it. -/
theorem Safe.of_other (h : Safe s) (hlock : s.lock ≠ some .worker) {lock : Option Holder}
    (hlock' : lock ≠ some .worker) : Safe { s with lock := lock } := by
  obtain ⟨_, place⟩ := s
  cases place with
  | start => exact hlock'
  | firing current rest => exact absurd h.1 hlock
  | taking op next rest => exact h
  | finished => trivial

theorem safe_step {pins : PortPins} (hsafe : ∀ q ∈ fired callbacks pins, ¬ q.ReachesLock)
    (h : Safe s) (hstep : WorkerStep callbacks pins s () s') : Safe s' := by
  cases hstep with
  | otherTakes hfree => exact h.of_other (by rw [hfree]; nofun) nofun
  | otherGives hheld => exact h.of_other (by rw [hheld]; nofun) nofun
  | take hfree => exact ⟨rfl, id, hsafe⟩
  | nextCallback =>
    obtain ⟨hlock, -, hrest⟩ := h
    exact ⟨hlock, hrest _ List.mem_cons_self, fun q hq => hrest q (List.mem_cons_of_mem _ hq)⟩
  | returns hret =>
    obtain ⟨hlock, hcurrent, hrest⟩ := h
    rw [Prog.reachesLock_of_some hret] at hcurrent
    exact ⟨hlock, hcurrent, hrest⟩
  | tries hop =>
    obtain ⟨-, hcurrent, -⟩ := h
    exact absurd (Prog.reachesLock_of_none hop) hcurrent
  | operates answer => exact absurd h id
  | give => trivial

/-- **Which callbacks may run under the lock.** The handler never asks for
the lock it has, and returns, exactly if no callback that it fires comes
to an operation that takes the lock. -/
theorem neverReenters_iff :
    NeverReenters (handler callbacks intf intcap d) ↔
      ∀ cb ∈ callbacks, cb.pinMask &&& interruptWorkHandler intf intcap d ≠ 0 →
        ¬ (cb.handler (cb.pinMask &&& interruptWorkHandler intf intcap d)).ReachesLock := by
  have hfired : (∀ cb ∈ callbacks, cb.pinMask &&& interruptWorkHandler intf intcap d ≠ 0 →
      ¬ (cb.handler (cb.pinMask &&& interruptWorkHandler intf intcap d)).ReachesLock) ↔
        ∀ q ∈ fired callbacks (interruptWorkHandler intf intcap d), ¬ q.ReachesLock := by
    unfold fired
    simp only [List.forall_mem_map, List.mem_filter, decide_eq_true_eq, and_imp]
  have hinit : (handler callbacks intf intcap d).init ⟨none, .start⟩ := ⟨nofun, rfl⟩
  have hstart := (Machine.Reachable.init hinit).step (.take rfl)
  rw [hfired]
  constructor
  · rintro ⟨hnever, -⟩ q hq hreaches
    obtain ⟨s, hs, hreenters⟩ := reachable_first_reenters hstart ⟨q, hq, hreaches⟩
    exact hnever s hs hreenters
  · intro hsafe
    refine ⟨fun s hs hreenters => ?_, _, (reachable_all_done hstart hsafe).step .give, rfl⟩
    have hinv : Safe s := by
      refine hs.invariant (P := Safe) (fun s hinit => ?_) fun s _ s' h hstep => safe_step hsafe h hstep
      obtain ⟨hlock, hplace⟩ := hinit
      unfold Safe
      rw [hplace]
      exact hlock
    obtain ⟨-, op, next, rest, hplace⟩ := hreenters
    unfold Safe at hinv
    rw [hplace] at hinv
    exact hinv

/-- **The lock is never given**: a context that asks for the lock it has
stays there, whatever the others do. -/
theorem reenters_forever (h : s.Reenters)
    (hstep : (handler callbacks intf intcap d).Step s () s') : s' = s := by
  obtain ⟨lock, place⟩ := s
  obtain ⟨hlock, op, next, rest, hplace⟩ := h
  obtain rfl : lock = some .worker := hlock
  obtain rfl : place = .taking op next rest := hplace
  cases hstep with
  | otherTakes hfree => cases hfree
  | otherGives hheld => cases hheld

end Callbacks

/-- A callback for input 0 that switches output 0 on. -/
def switchOn : Callback := ⟨1, fun _ => .call (.setBits 0x100) fun _ => .done⟩

/-- Input 0 enabled for a level, flagged by the chip. -/
def levelEnabled : Data := { Data.zero with gpinten := 0x100, intcon := 0x100 }

/-- **The callback blocks the work queue.** -/
theorem not_neverReenters_switchOn :
    ¬ NeverReenters (handler [switchOn] (some 0x100) (some 0x100) levelEnabled) := by
  rintro ⟨hnever, -⟩
  have hinit : (handler [switchOn] (some 0x100) (some 0x100) levelEnabled).init ⟨none, .start⟩ :=
    ⟨nofun, rfl⟩
  have hstart := (Machine.Reachable.init hinit).step (.take rfl)
  have hpins : switchOn.pinMask &&& interruptWorkHandler (some 0x100) (some 0x100) levelEnabled ≠ 0 := by
    decide
  have hmem : switchOn.handler (switchOn.pinMask &&&
      interruptWorkHandler (some 0x100) (some 0x100) levelEnabled) ∈
        fired [switchOn] (interruptWorkHandler (some 0x100) (some 0x100) levelEnabled) :=
    List.mem_map.mpr ⟨switchOn, List.mem_filter.mpr ⟨List.mem_cons_self, decide_eq_true hpins⟩, rfl⟩
  obtain ⟨s, hs, hreenters⟩ := reachable_first_reenters hstart ⟨_, hmem, trivial⟩
  exact hnever s hs hreenters

end PowerIo

end Ardep
