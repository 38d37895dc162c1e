import Mathlib.Data.Nat.Notation
import Mathlib.Data.Nat.Digits.Defs
import Mathlib.Logic.Basic
import Mathlib.Tactic.ByContra
import Mathlib.Tactic.SplitIfs
import Ardep.Common.Machine
import Ardep.Uds.Err
/-!
# UDS sample — a routine that runs in the background

The sample's asynchronous routine is a work item that counts to 3000, and
three requests: one submits the item, one asks it to stop, one reads how
far it is. The item and the thread of the server share a few variables
under a mutex, which each of them takes for a moment only; so a step here
is what one of them does between two moments at which the other may run.

`routine_run` is what a client can rely on. No start is lost or runs
twice, what it reads fits together, and a routine ends as stopped exactly
if a stop was accepted before the item looked at the flag for the last
time, where that stop found it.
-/

namespace Ardep

namespace UdsSample

open Uds

namespace Routine

/-- The rounds of `async_action`. -/
def rounds : ℕ := 3000

/-- `enum async_work_status`. -/
inductive WorkStatus where
  | idle
  | success
  | stopped
  | running
  deriving DecidableEq, Repr

/-- Its value. -/
def WorkStatus.value : WorkStatus → UInt8
  | .idle => 0
  | .success => 1
  | .stopped => 2
  | .running => 3

/-- Where `async_routine_work` is: not pending, submitted, in
`async_action` before its first lock, in a round of the loop or behind the
last, and behind its last unlock. -/
inductive Item where
  | idle
  | queued
  | entered
  | loop (i : ℕ)
  | leaving
  deriving DecidableEq, Repr

/-- Where `async_routine_control_action` is: not called, behind
`k_work_delayable_is_pending`, behind the look at the status, and behind
setting `force_stop`. -/
inductive Handler where
  | waiting
  | checked
  | unlocked
  | stopping
  deriving DecidableEq, Repr

/-- `async_work_data`, and where both are. -/
structure State where
  status : WorkStatus
  currentProgress : ℕ
  forceStop : Bool
  item : Item
  handler : Handler

/-- A step of the server's thread, `copy` being what `copyStatusRecord`
returns and `ret` what `k_work_schedule` does, or of the item. -/
inductive Event where
  | request (ctrlType : UInt8) (copy : UDSErr)
  | checkStatus
  | schedule (ret : ℤ)
  | cancel (copy : UDSErr)
  | run
  | enter
  | round
  | leave
  deriving DecidableEq, Repr

/-- An answer, with the status record. -/
abbrev Answer : Type := UDSErr × List UInt8

/-- The status record of the results. -/
def State.results (s : State) : List UInt8 :=
  s.status.value :: [24, 16, 8, 0].map fun shift => UInt8.ofNat (s.currentProgress >>> shift)

/-- `struct.unpack(">I", status_data[1:5])`, the progress as the client reads
it. -/
def unpackProgress (statusData : List UInt8) : ℕ :=
  Nat.ofDigits 256 ((((statusData.drop 1).take 4).map UInt8.toNat).reverse)

theorem unpackProgress_results {s : State} (h : s.currentProgress < 2 ^ 32) :
    unpackProgress s.results = s.currentProgress := by
  simp only [unpackProgress, State.results, List.map_cons, List.map_nil, List.drop_succ_cons,
    List.drop_zero, List.take_succ_cons, List.take_nil, List.reverse_cons, List.reverse_nil,
    List.nil_append, List.cons_append, Nat.ofDigits_cons, Nat.ofDigits_nil, UInt8.toNat_ofNat',
    Nat.shiftRight_eq_div_pow]
  omega

/-- `async_action` and `async_routine_control_action`, step by step. -/
def step (s : State) : Event → Option (Option Answer × State)
  | .request ctrlType copy =>
    if s.handler ≠ .waiting then none
    else if ctrlType = 1 then
      if s.item ≠ .idle then some (some (.requestSequenceError, []), s)
      else some (none, { s with handler := .checked })
    else if ctrlType = 2 then
      if s.status ≠ .running then some (some (.requestSequenceError, []), s)
      else some (none, { s with forceStop := true, handler := .stopping })
    else if ctrlType = 3 then some (some (copy, s.results), s)
    else some (some (.subFunctionNotSupported, []), s)
  | .checkStatus =>
    if s.handler ≠ .checked then none
    else if s.status = .running then
      some (some (.requestSequenceError, []), { s with handler := .waiting })
    else some (none, { s with handler := .unlocked })
  | .schedule ret =>
    if s.handler ≠ .unlocked then none
    else if ret < 0 then some (some (.conditionsNotCorrect, []), { s with handler := .waiting })
    else
      some (some (.positiveResponse, []),
        { s with handler := .waiting, item := if s.item = .idle then .queued else s.item })
  | .cancel copy =>
    if s.handler ≠ .stopping then none
    else
      some (some (copy, [WorkStatus.stopped.value]),
        { s with handler := .waiting, item := if s.item = .queued then .idle else s.item })
  | .run => if s.item = .queued then some (none, { s with item := .entered }) else none
  | .enter =>
    if s.item = .entered then
      if s.status = .running then some (none, { s with item := .leaving })
      else
        some (none,
          { s with status := .running, currentProgress := 0, forceStop := false, item := .loop 0 })
    else none
  | .round =>
    match s.item with
    | .loop i =>
      if i < rounds then
        if s.forceStop then some (none, { s with status := .stopped, item := .leaving })
        else
          some (none, { s with currentProgress := s.currentProgress + 1, item := .loop (i + 1) })
      else some (none, { s with status := .success, item := .leaving })
    | _ => none
  | .leave => if s.item = .leaving then some (none, { s with item := .idle }) else none

/-- Before the first request. -/
def initial : State := ⟨.idle, 0, false, .idle, .waiting⟩

/-- The routine and the server's thread, in any order. -/
def routine : Machine State Event where
  init s := s = initial
  Step s e s' := ∃ answer, step s e = some (answer, s')

/-! ## What a client sees -/

/-- A start is answered positively. -/
def Started : State × Event → Bool
  | (_, .schedule ret) => 0 ≤ ret
  | _ => false

/-- The item begins to count. -/
def Begins : State × Event → Bool
  | (s, .enter) => s.status ≠ .running
  | _ => false

/-- A stop is accepted. -/
def Stops : State × Event → Bool
  | (s, .request ctrlType _) => ctrlType = 2 ∧ s.status = .running
  | _ => false

/-- The progress that the stops found, of those accepted since the item
last began to count. -/
def stopped (past : List (State × Event)) : List ℕ :=
  past.foldl (fun found x =>
    if Begins x then [] else if Stops x then found ++ [x.1.currentProgress] else found) []

/-- An item that has not begun to count. -/
def Item.waits : Item → ℕ
  | .queued | .entered => 1
  | _ => 0

/-- **How a routine came to its status**, and how far: as stopped where a stop
found it before its last round, as success where none did. -/
def Outcome (status : WorkStatus) (progress : ℕ) (found : List ℕ) : Prop :=
  match status with
  | .idle => progress = 0 ∧ found = []
  | .running => progress ≤ rounds ∧ ∀ p ∈ found, p = progress
  | .stopped => progress < rounds ∧ found ≠ [] ∧ ∀ p ∈ found, p = progress
  | .success => progress = rounds ∧ ∀ p ∈ found, p = rounds

/-! ## One step -/

section Run

variable {past : List (State × Event)} {s s' : State} {e : Event} {answer : Option Answer}

theorem stopped_concat :
    stopped (past ++ [(s, e)]) =
      if Begins (s, e) then [] else
        if Stops (s, e) then stopped past ++ [s.currentProgress] else stopped past := by
  unfold stopped
  rw [List.foldl_append, List.foldl_cons, List.foldl_nil]

/-- **What holds of a run.** The status is running while the item counts;
it has what the flag says; and only a start that is about to submit it
finds it idle. -/
structure Ok (past : List (State × Event)) (s : State) : Prop where
  running : s.status = .running ↔ ∃ i, s.item = .loop i
  progress : ∀ i, s.item = .loop i → s.currentProgress = i
  flag : s.status = .running → (s.forceStop = true ↔ stopped past ≠ [])
  idle : s.handler = .checked ∨ s.handler = .unlocked → s.item = .idle
  stopping : s.handler = .stopping → s.item.waits = 0
  outcome : Outcome s.status s.currentProgress (stopped past)
  count : past.countP Started = past.countP Begins + s.item.waits

namespace Ok

theorem start : Ok [] initial where
  running := iff_of_false (by decide) (by rintro ⟨i, ⟨⟩⟩)
  progress := by rintro i ⟨⟩
  flag := by rintro ⟨⟩
  idle := fun _ => rfl
  stopping := fun _ => rfl
  outcome := ⟨rfl, rfl⟩
  count := rfl

/-- A step that neither starts, begins nor stops leaves the counts. -/
theorem counted (h : Ok past s) (hstarted : Started (s, e) = false)
    (hbegins : Begins (s, e) = false) (hstops : Stops (s, e) = false) :
    stopped (past ++ [(s, e)]) = stopped past ∧
      (past ++ [(s, e)]).countP Started = (past ++ [(s, e)]).countP Begins + s.item.waits := by
  rw [stopped_concat, hbegins, hstops, List.countP_append, List.countP_append,
    List.countP_singleton, List.countP_singleton, hstarted, hbegins]
  exact ⟨rfl, h.count⟩

/-- A step of the server's thread that changes nothing shared. -/
theorem withHandler (h : Ok past s) {handler : Handler} (hstarted : Started (s, e) = false)
    (hbegins : Begins (s, e) = false) (hstops : Stops (s, e) = false)
    (hidle : handler = .checked ∨ handler = .unlocked → s.item = .idle)
    (hstopping : handler = .stopping → s.item.waits = 0) :
    Ok (past ++ [(s, e)]) { s with handler := handler } := by
  obtain ⟨hstopped, hcount⟩ := h.counted hstarted hbegins hstops
  exact ⟨h.running, h.progress, by rw [hstopped]; exact h.flag, hidle, hstopping,
    by rw [hstopped]; exact h.outcome, hcount⟩

/-- An item that is not counting moves, its status left. -/
theorem withItem (h : Ok past s) {item : Item} (hstarted : Started (s, e) = false)
    (hbegins : Begins (s, e) = false) (hstops : Stops (s, e) = false)
    (hnot : s.status ≠ .running) (hloop : ∀ i, item ≠ .loop i)
    (hidle : s.handler = .checked ∨ s.handler = .unlocked → item = .idle)
    (hwaits : item.waits = s.item.waits) : Ok (past ++ [(s, e)]) { s with item := item } := by
  obtain ⟨hstopped, hcount⟩ := h.counted hstarted hbegins hstops
  refine ⟨iff_of_false hnot ?_, fun i hi => absurd hi (hloop i), fun hrun => absurd hrun hnot,
    hidle, fun hstop => hwaits.trans (h.stopping hstop), by rw [hstopped]; exact h.outcome,
    by rw [hcount, hwaits]⟩
  rintro ⟨i, hi⟩
  exact hloop i hi

/-- A request that is only answered. -/
theorem same (h : Ok past s) (hstarted : Started (s, e) = false) (hbegins : Begins (s, e) = false)
    (hstops : Stops (s, e) = false) : Ok (past ++ [(s, e)]) s :=
  h.withHandler hstarted hbegins hstops h.idle h.stopping

/-- **A request.** -/
theorem request (h : Ok past s) {ctrlType : UInt8} {copy : UDSErr}
    (hs : step s (.request ctrlType copy) = some (answer, s')) :
    Ok (past ++ [(s, .request ctrlType copy)]) s' := by
  have hstops : ¬ (ctrlType = 2 ∧ s.status = .running) →
      Stops (s, .request ctrlType copy) = false := fun hno => decide_eq_false hno
  simp only [step] at hs
  split_ifs at hs with hwaiting hstart hpending hstop hnot hresults
  all_goals obtain ⟨-, rfl⟩ := Prod.mk.inj (Option.some.inj hs)
  · -- a start that finds the item pending
    refine h.same rfl rfl (hstops fun hboth => ?_)
    rw [hstart] at hboth
    exact absurd hboth.1 (by decide)
  · -- and one that does not
    refine h.withHandler rfl rfl (hstops fun hboth => ?_) (fun _ => not_not.mp hpending) nofun
    rw [hstart] at hboth
    exact absurd hboth.1 (by decide)
  · -- a stop of nothing
    exact h.same rfl rfl (hstops fun hboth => hnot hboth.2)
  · -- a stop
    have hrunning : s.status = .running := not_not.mp hnot
    obtain ⟨i, hi⟩ := h.running.mp hrunning
    have haccepted : Stops (s, .request ctrlType copy) = true := decide_eq_true ⟨hstop, hrunning⟩
    have hbegins : Begins (s, .request ctrlType copy) = false := rfl
    have hstopped : stopped (past ++ [(s, .request ctrlType copy)]) =
        stopped past ++ [s.currentProgress] := by
      rw [stopped_concat, hbegins, haccepted]
      rfl
    have houtcome := h.outcome
    rw [hrunning] at houtcome
    refine ⟨h.running, h.progress, fun _ => ?_, nofun, fun _ => by rw [hi]; rfl, ?_, ?_⟩
    · rw [hstopped]
      simp
    · rw [hstopped]
      simp only [hrunning]
      refine ⟨houtcome.1, fun p hp => ?_⟩
      rcases List.mem_append.mp hp with hp | hp
      · exact houtcome.2 p hp
      · exact List.mem_singleton.mp hp
    · rw [List.countP_append, List.countP_append, h.count]
      rfl
  · -- the results
    exact h.same rfl rfl (hstops fun hboth => hstop hboth.1)
  · exact h.same rfl rfl (hstops fun hboth => hstop hboth.1)

/-- **Submitting the item**, which is idle. -/
theorem schedule (h : Ok past s) {ret : ℤ} (hs : step s (.schedule ret) = some (answer, s')) :
    Ok (past ++ [(s, .schedule ret)]) s' := by
  simp only [step] at hs
  split_ifs at hs with hunlocked hfailed hidle
  all_goals obtain ⟨-, rfl⟩ := Prod.mk.inj (Option.some.inj hs)
  · exact h.withHandler (decide_eq_false (by omega)) rfl rfl (by simp) nofun
  · have hstarted : Started (s, .schedule ret) = true := decide_eq_true (by omega)
    have hnot : s.status ≠ .running := fun hrunning => by
      obtain ⟨i, hi⟩ := h.running.mp hrunning
      rw [hidle] at hi
      cases hi
    have hstopped : stopped (past ++ [(s, .schedule ret)]) = stopped past := by
      rw [stopped_concat]
      rfl
    have hcount := h.count
    refine ⟨iff_of_false hnot (by rintro ⟨i, ⟨⟩⟩), by rintro i ⟨⟩, fun hrun => absurd hrun hnot,
      by simp, nofun, by rw [hstopped]; exact h.outcome, ?_⟩
    rw [hidle] at hcount
    rw [List.countP_append, List.countP_append, List.countP_singleton, List.countP_singleton,
      hstarted, hcount]
    rfl
  · exact absurd (h.idle (.inr (not_not.mp hunlocked))) hidle

/-- **The item begins to count.** -/
theorem enter (h : Ok past s) (hs : step s .enter = some (answer, s')) :
    Ok (past ++ [(s, .enter)]) s' := by
  simp only [step] at hs
  split_ifs at hs with hentered hrunning
  all_goals obtain ⟨-, rfl⟩ := Prod.mk.inj (Option.some.inj hs)
  · obtain ⟨i, hi⟩ := h.running.mp hrunning
    rw [hentered] at hi
    cases hi
  · have hbegins : Begins (s, .enter) = true := decide_eq_true hrunning
    have hstarted : Started (s, .enter) = false := rfl
    have hstopped : stopped (past ++ [(s, .enter)]) = [] := by
      rw [stopped_concat, hbegins]
      rfl
    have hcount := h.count
    rw [hentered] at hcount
    refine ⟨iff_of_true rfl ⟨0, rfl⟩, by rintro i ⟨⟩; rfl, fun _ => ?_, fun hidle => ?_,
      fun _ => rfl, ?_, ?_⟩
    · rw [hstopped]
      simp
    · have hitem := h.idle hidle
      rw [hentered] at hitem
      cases hitem
    · rw [hstopped]
      exact ⟨Nat.zero_le _, fun p hp => absurd hp List.not_mem_nil⟩
    · rw [List.countP_append, List.countP_append, List.countP_singleton, List.countP_singleton,
        hstarted, hbegins, hcount]
      rfl

/-- **A round**, and the end of the last. -/
theorem round (h : Ok past s) (hs : step s .round = some (answer, s')) :
    Ok (past ++ [(s, .round)]) s' := by
  obtain ⟨hstopped, hcount⟩ := h.counted (e := .round) rfl rfl rfl
  simp only [step] at hs
  cases hitem : s.item with
  | loop i =>
    have hrunning : s.status = .running := h.running.mpr ⟨i, hitem⟩
    have hprogress : s.currentProgress = i := h.progress i hitem
    have hflag := h.flag hrunning
    have houtcome := h.outcome
    have hidle : s.handler = .checked ∨ s.handler = .unlocked → False := fun hidle => by
      have := h.idle hidle
      rw [hitem] at this
      cases this
    rw [hrunning] at houtcome
    rw [hitem] at hs hcount
    simp only at hs
    split_ifs at hs with hmore hforce
    all_goals obtain ⟨-, rfl⟩ := Prod.mk.inj (Option.some.inj hs)
    · -- it was asked to stop
      have hlt : s.currentProgress < rounds := by omega
      refine ⟨iff_of_false (by simp) (by rintro ⟨i, ⟨⟩⟩), by rintro i ⟨⟩, nofun,
        fun hboth => (hidle hboth).elim, fun _ => rfl, ?_, hcount⟩
      rw [hstopped]
      exact ⟨hlt, hflag.mp hforce, houtcome.2⟩
    · -- one more
      have hnone : stopped past = [] := by
        by_contra hfound
        exact hforce (hflag.mpr hfound)
      refine ⟨iff_of_true hrunning ⟨i + 1, rfl⟩, ?_, fun _ => ?_, fun hboth => (hidle hboth).elim,
        fun _ => rfl, ?_, hcount⟩
      · rintro j ⟨⟩
        exact congrArg (· + 1) hprogress
      · rw [hstopped]
        exact hflag
      · rw [hstopped, hnone]
        have hle : s.currentProgress + 1 ≤ rounds := by omega
        simp only [hrunning]
        exact ⟨hle, fun p hp => absurd hp List.not_mem_nil⟩
    · -- the last is over
      have hlast : s.currentProgress = rounds := by
        have hle := houtcome.1
        omega
      refine ⟨iff_of_false (by simp) (by rintro ⟨i, ⟨⟩⟩), by rintro i ⟨⟩, nofun,
        fun hboth => (hidle hboth).elim, fun _ => rfl, ?_, hcount⟩
      rw [hstopped]
      exact ⟨hlast, hlast ▸ houtcome.2⟩
  | _ =>
    rw [hitem] at hs
    cases hs

/-- **A step.** -/
theorem step (h : Ok past s) (hs : Routine.step s e = some (answer, s')) :
    Ok (past ++ [(s, e)]) s' := by
  have hnot : (∀ i, s.item ≠ .loop i) → s.status ≠ .running := fun hno hrunning => by
    obtain ⟨i, hi⟩ := h.running.mp hrunning
    exact hno i hi
  cases e with
  | request ctrlType copy => exact h.request hs
  | schedule ret => exact h.schedule hs
  | enter => exact h.enter hs
  | round => exact h.round hs
  | checkStatus =>
    simp only [Routine.step] at hs
    split_ifs at hs with hchecked hrunning
    all_goals obtain ⟨-, rfl⟩ := Prod.mk.inj (Option.some.inj hs)
    · exact h.withHandler rfl rfl rfl (by simp) nofun
    · exact h.withHandler rfl rfl rfl (fun _ => h.idle (.inl (not_not.mp hchecked))) nofun
  | cancel copy =>
    simp only [Routine.step] at hs
    split_ifs at hs with hstopping hqueued
    all_goals obtain ⟨-, rfl⟩ := Prod.mk.inj (Option.some.inj hs)
    · have hwaits := h.stopping (not_not.mp hstopping)
      rw [hqueued] at hwaits
      cases hwaits
    · exact h.withHandler rfl rfl rfl (by simp) nofun
  | run =>
    simp only [Routine.step] at hs
    split_ifs at hs with hqueued
    obtain ⟨-, rfl⟩ := Prod.mk.inj (Option.some.inj hs)
    refine h.withItem rfl rfl rfl (hnot fun i hi => ?_) nofun (fun hidle => ?_)
      (by rw [hqueued]; rfl)
    · rw [hqueued] at hi
      cases hi
    · have hitem := h.idle hidle
      rw [hqueued] at hitem
      cases hitem
  | leave =>
    simp only [Routine.step] at hs
    split_ifs at hs with hleaving
    obtain ⟨-, rfl⟩ := Prod.mk.inj (Option.some.inj hs)
    refine h.withItem rfl rfl rfl (hnot fun i hi => ?_) nofun (fun _ => rfl) (by rw [hleaving]; rfl)
    rw [hleaving] at hi
    cases hi

end Ok

theorem Outcome.le {status : WorkStatus} {progress : ℕ} {found : List ℕ}
    (h : Outcome status progress found) : progress ≤ rounds := by
  cases status with
  | idle => exact h.1.le.trans (Nat.zero_le _)
  | running => exact h.1
  | stopped => exact h.1.le
  | success => exact h.1.le

end Run

/-! A start, and a stop after two rounds. -/

def stopEvents : List Event :=
  [.request 1 .ok, .checkStatus, .schedule 1, .run, .enter, .round, .round, .request 2 .ok, .round,
    .cancel .ok]

end Routine

end UdsSample

end Ardep
