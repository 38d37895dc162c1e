import Mathlib.Tactic.ByContra
import Mathlib.Tactic.SplitIfs
import Ardep.Common.Machine
import Ardep.Uds.Err
/-!
# Firmware loader — the erase routine

Routine 0xFF00 erases slot 0 in a delayed work item, and the tester asks
for its result later. Two parties share `erasure_status`: the thread that
handles the requests and the queue that runs the work item. A step is what
either of them does between two points where the other can see it: the
check, which reads without the mutex, each critical section, each flash
call, and what the kernel does with the work item.

The record keeps up with the erase started last (`lockstep`), so a result
is never given early. What it keeps is whether the partition could be
opened; the value `flash_area_erase` returns is logged and dropped.
`truthful_iff` says in which runs nobody is told otherwise.
-/

namespace Ardep

namespace Loader

open Uds

/-! ## The routine -/

/-- `UDS_ROUTINE_CONTROL__START_ROUTINE`. -/
abbrev startRoutine : UInt8 := 0x01
/-- `UDS_ROUTINE_CONTROL__STOP_ROUTINE`. -/
abbrev stopRoutine : UInt8 := 0x02
/-- `UDS_ROUTINE_CONTROL__REQUEST_ROUTINE_RESULTS`. -/
abbrev requestRoutineResults : UInt8 := 0x03

/-- The routine the handler is registered for. -/
abbrev eraseMemoryRoutine : UInt16 := 0xFF00

/-- `UDSRoutineCtrlArgs_t`, what the handler reads of it. -/
structure RoutineCtrlArgs where
  ctrlType : UInt8
  id : UInt16
  deriving DecidableEq, Repr

/-- `enum uds_memory_erasure_routine_state`. -/
inductive ErasureState where
  | notStarted
  | inProgress
  | completed
  deriving DecidableEq, Repr

/-- **The work handler**, at the points where the rest of the system can
see it: before `flash_area_open`, before `flash_area_erase`, before the
critical section with the result it is about to store, and after it. -/
inductive Worker where
  | idle
  | opening
  | erasing
  | publishing (result : Int32)
  | returning
  deriving DecidableEq, Repr

/-- **The thread that handles requests**: waiting for one, between the
check and the action, between the critical section of a start and
`k_work_schedule`, or about to copy a status record. -/
inductive Thread where
  | waiting
  | acting (args : RoutineCtrlArgs)
  | scheduling
  | copying (result : Int32)
  deriving DecidableEq, Repr

/-- `erasure_status` and the two parties. `pending` is the work item being
scheduled or queued, which it may also be while its handler runs. -/
structure State where
  state : ErasureState
  result : Int32
  pending : Bool
  worker : Worker
  thread : Thread
  deriving DecidableEq, Repr

/-- The static initialiser. -/
def State.initial : State where
  state := .notStarted
  result := 0
  pending := false
  worker := .idle
  thread := .waiting

/-- The answer to a request. `record` is the routine status record. -/
structure Response where
  ctrlType : UInt8
  code : UDSErr
  record : List UInt8
  deriving DecidableEq, Repr

/-- The bytes of `sys_cpu_to_be32`, in memory order. -/
def sysCpuToBe32 (x : Int32) : List UInt8 :=
  [(x.toUInt32 >>> 24).toUInt8, (x.toUInt32 >>> 16).toUInt8, (x.toUInt32 >>> 8).toUInt8,
    x.toUInt32.toUInt8]

/-- `UDS_NRC_GeneralProgrammingFailure`, as the handler stores it. -/
abbrev programmingFailure : Int32 := 0x72

/-- `erase_memory_routine_check`: the code and whether to act. -/
def eraseMemoryRoutineCheck (args : RoutineCtrlArgs) (state : ErasureState) : UDSErr × Bool :=
  if args.ctrlType = startRoutine ∧ state = .inProgress then (.requestSequenceError, false)
  else if args.ctrlType = requestRoutineResults ∧ state ≠ .completed then
    (.requestSequenceError, false)
  else if args.ctrlType = stopRoutine then (.subFunctionNotSupported, false)
  else (.ok, true)

/-- `uds_check_with_routine_id_fn` for this registration. -/
def udsCheckWithRoutineId (args : RoutineCtrlArgs) (state : ErasureState) : UDSErr × Bool :=
  if args.id ≠ eraseMemoryRoutine then (.ok, false) else eraseMemoryRoutineCheck args state

/-- What either party, or the kernel, does next. The results of the flash
calls and of `copyStatusRecord` come with the event. -/
inductive Event where
  /-- A request is received and checked. -/
  | request (args : RoutineCtrlArgs)
  /-- The action runs up to the end of its critical section. -/
  | action
  /-- `k_work_schedule`, and the positive answer to a start. -/
  | schedule
  /-- `copyStatusRecord` returns, and its code is the answer. -/
  | copyStatusRecord (rc : UDSErr)
  /-- The delay has passed and the queue takes the work item. -/
  | begin
  | flashAreaOpen (rc : ℤ)
  | flashAreaErase (rc : ℤ)
  /-- The critical section of the work handler. -/
  | publish
  | return
  deriving DecidableEq, Repr

/-- `erase_memory_routine_action`, up to the end of its critical section. -/
def eraseMemoryRoutineAction (args : RoutineCtrlArgs) (s : State) : Option Response × State :=
  if args.id ≠ eraseMemoryRoutine then
    (some ⟨args.ctrlType, .requestOutOfRange, []⟩, { s with thread := .waiting })
  else if args.ctrlType = startRoutine then
    (none, { s with state := .inProgress, result := 0, thread := .scheduling })
  else if args.ctrlType = requestRoutineResults then
    if s.state ≠ .completed then
      (some ⟨args.ctrlType, .requestSequenceError, []⟩, { s with thread := .waiting })
    else (none, { s with thread := .copying s.result })
  else (some ⟨args.ctrlType, .subFunctionNotSupported, []⟩, { s with thread := .waiting })

/-- **One step**, with the response it sends. A refused request is answered
by the check; one the registration passes over gets the default code of
the event. -/
def step (s : State) : Event → Option (Option Response × State)
  | .request args =>
    if s.thread = .waiting then
      let (rc, apply) := udsCheckWithRoutineId args s.state
      if rc ≠ .ok then some (some ⟨args.ctrlType, rc, []⟩, s)
      else if apply then some (none, { s with thread := .acting args })
      else some (some ⟨args.ctrlType, .subFunctionNotSupported, []⟩, s)
    else none
  | .action =>
    match s.thread with
    | .acting args => some (eraseMemoryRoutineAction args s)
    | _ => none
  | .schedule =>
    if s.thread = .scheduling then
      -- an item that is scheduled already stays as it is
      some (some ⟨startRoutine, .positiveResponse, []⟩,
        { s with pending := true, thread := .waiting })
    else none
  | .copyStatusRecord rc =>
    match s.thread with
    | .copying result =>
      some (some ⟨requestRoutineResults, rc, sysCpuToBe32 result⟩, { s with thread := .waiting })
    | _ => none
  | .begin =>
    if s.pending ∧ s.worker = .idle then
      some (none, { s with pending := false, worker := .opening })
    else none
  | .flashAreaOpen rc =>
    if s.worker = .opening then
      some (none, { s with
        worker := if rc < 0 then .publishing programmingFailure else .erasing })
    else none
  | .flashAreaErase _ =>
    -- both outcomes are logged, and the result is the one set before the call
    if s.worker = .erasing then some (none, { s with worker := .publishing 0 }) else none
  | .publish =>
    match s.worker with
    | .publishing result =>
      some (none, { s with result := result, state := .completed, worker := .returning })
    | _ => none
  | .return =>
    if s.worker = .returning then some (none, { s with worker := .idle }) else none

/-- **The routine and its work item**, in any order the steps allow. -/
def machine : Machine State Event where
  init := (· = .initial)
  Step s e s' := ∃ response, step s e = some (response, s')

/-! ## The erase started last -/

/-- **How far an erase has come**, with what its flash calls returned. -/
inductive Progress where
  /-- No start has been answered positively. -/
  | never
  | started
  /-- The work item taken from the queue after that start is running. -/
  | running
  | opened (rc : ℤ)
  | erased (opened : ℤ) (rc : ℤ)
  | finished (opened : ℤ) (erased : Option ℤ)
  deriving DecidableEq, Repr

/-- What an event does to it. A positive answer to a start makes another
erase the last one, whatever became of the one before. -/
def Progress.after : Progress → Event → Progress
  | _, .schedule => .started
  | .started, .begin => .running
  | .running, .flashAreaOpen rc => .opened rc
  | .opened o, .flashAreaErase rc => .erased o rc
  | .opened o, .publish => .finished o none
  | .erased o rc, .publish => .finished o (some rc)
  | p, _ => p

@[simp] theorem Progress.after_request (p : Progress) (args : RoutineCtrlArgs) :
    p.after (.request args) = p := by
  cases p <;> rfl

@[simp] theorem Progress.after_action (p : Progress) : p.after .action = p := by
  cases p <;> rfl

@[simp] theorem Progress.after_schedule (p : Progress) : p.after .schedule = .started := by
  cases p <;> rfl

@[simp] theorem Progress.after_copyStatusRecord (p : Progress) (rc : UDSErr) :
    p.after (.copyStatusRecord rc) = p := by
  cases p <;> rfl

@[simp] theorem Progress.after_return (p : Progress) : p.after .return = p := by
  cases p <;> rfl

/-- The most recently started erase of a history. -/
def lastErase (past : List (State × Event)) : Progress :=
  past.foldl (fun p x => p.after x.2) .never

theorem lastErase_concat (past : List (State × Event)) (s : State) (e : Event) :
    lastErase (past ++ [(s, e)]) = (lastErase past).after e := by
  unfold lastErase
  rw [List.foldl_append, List.foldl_cons, List.foldl_nil]

/-- It opened the partition and erased it. -/
def Progress.Succeeded (p : Progress) : Prop :=
  ∃ opened rc, p = .finished opened (some rc) ∧ 0 ≤ opened ∧ 0 ≤ rc

/-- It finished with the partition open and `flash_area_erase` failing. -/
def Progress.EraseFailed (p : Progress) : Prop :=
  ∃ opened rc, p = .finished opened (some rc) ∧ 0 ≤ opened ∧ rc < 0

/-! ## The record keeps up -/

/-- The handler holds no result: it has not begun, or it has stored it. -/
def Worker.AtRest (w : Worker) : Prop := w = .idle ∨ w = .returning

/-- The result stored for an erase: it depends on the opening alone. -/
def outcome (opened : ℤ) : Int32 := if opened < 0 then programmingFailure else 0

/-- **What is known between check and answer**: nothing but this thread
leaves the completed state or enters the one in progress. -/
def Thread.Cleared (t : Thread) (state : ErasureState) (result : Int32) : Prop :=
  match t with
  | .acting args =>
    (args.ctrlType = startRoutine → state ≠ .inProgress) ∧
      (args.ctrlType = requestRoutineResults → state = .completed)
  | .copying r => state = .completed ∧ r = result
  | _ => True

/-- A start has taken the record and not yet scheduled the work item. -/
def Starting (s : State) : Prop :=
  s.state = .inProgress ∧ s.pending = false ∧ s.worker.AtRest

/-- **The record and the work item**, by how far the last erase has come. -/
def Follows (p : Progress) (s : State) : Prop :=
  match p with
  | .never => s.state = .notStarted ∧ s.pending = false ∧ s.worker.AtRest
  | .started => s.state = .inProgress ∧ s.pending = true ∧ s.worker.AtRest
  | .running => s.state = .inProgress ∧ s.pending = false ∧ s.worker = .opening
  | .opened rc =>
    s.state = .inProgress ∧ s.pending = false ∧
      s.worker = if rc < 0 then .publishing programmingFailure else .erasing
  | .erased o _ =>
    s.state = .inProgress ∧ s.pending = false ∧ 0 ≤ o ∧ s.worker = .publishing 0
  | .finished o e =>
    s.state = .completed ∧ s.pending = false ∧ s.worker.AtRest ∧ s.result = outcome o ∧
      (e.isSome ↔ 0 ≤ o)

/-- The invariant. -/
def Lockstep (past : List (State × Event)) (s : State) : Prop :=
  s.thread.Cleared s.state s.result ∧
    (s.thread = .scheduling ∧ Starting s ∨
      s.thread ≠ .scheduling ∧ Follows (lastErase past) s)

section Steps

variable {past : List (State × Event)} {p : Progress} {s s' : State} {e : Event}
  {response : Option Response}

/-- Outside the state in progress the work item has nothing to do. -/
theorem Follows.atRest (h : Follows p s) (hstate : s.state ≠ .inProgress) :
    s.pending = false ∧ s.worker.AtRest := by
  cases p with
  | never => exact h.2
  | finished o e => exact ⟨h.2.1, h.2.2.1⟩
  | _ => exact absurd h.1 hstate

/-- The work item is pending for the erase started last. -/
theorem Follows.of_pending (h : Follows p s) (hpending : s.pending = true) : p = .started := by
  cases p with
  | started => rfl
  | _ =>
    have hnot := h.2.1
    rw [hpending] at hnot
    exact absurd hnot (by decide)

/-- The handler opens the partition for the erase started last. -/
theorem Follows.of_opening (h : Follows p s) (hworker : s.worker = .opening) : p = .running := by
  unfold Follows Worker.AtRest at h
  rw [hworker] at h
  cases p with
  | running => rfl
  | opened rc =>
    have hif := h.2.2
    split_ifs at hif
  | _ => simp at h

/-- It erases for that one, and the partition is open. -/
theorem Follows.of_erasing (h : Follows p s) (hworker : s.worker = .erasing) :
    ∃ opened, p = .opened opened ∧ 0 ≤ opened := by
  unfold Follows Worker.AtRest at h
  rw [hworker] at h
  cases p with
  | opened rc =>
    have hif := h.2.2
    split_ifs at hif with hopen
    exact ⟨rc, rfl, by omega⟩
  | _ => simp at h

/-- **What is about to be stored**: a failure where the partition could not
be opened, and nothing but success once it was. -/
theorem Follows.of_publishing {result : Int32} (h : Follows p s)
    (hworker : s.worker = .publishing result) :
    (∃ opened, p = .opened opened ∧ opened < 0 ∧ result = outcome opened) ∨
      ∃ opened rc, p = .erased opened rc ∧ 0 ≤ opened ∧ result = outcome opened := by
  unfold Follows Worker.AtRest at h
  rw [hworker] at h
  cases p with
  | opened rc =>
    have hif := h.2.2
    split_ifs at hif with hopen
    cases hif
    exact .inl ⟨rc, rfl, hopen, (if_pos hopen).symm⟩
  | erased o rc =>
    obtain ⟨-, -, hopen, hresult⟩ := h
    cases hresult
    exact .inr ⟨o, rc, rfl, hopen, (if_neg (by omega)).symm⟩
  | _ => simp at h

/-- `Follows` reads the record and the work item only. -/
theorem Follows.congr (h : Follows p s) (hstate : s'.state = s.state)
    (hpending : s'.pending = s.pending) (hworker : s'.worker = s.worker)
    (hresult : s'.result = s.result) : Follows p s' := by
  unfold Follows at h ⊢
  rw [hstate, hpending, hworker, hresult]
  exact h

/-! ### The thread -/

/-- A check that lets the action run has seen the state it needs. -/
theorem cleared_of_check {args : RoutineCtrlArgs} {state : ErasureState} {rc : UDSErr}
    (h : udsCheckWithRoutineId args state = (rc, true)) (result : Int32) :
    (Thread.acting args).Cleared state result := by
  unfold udsCheckWithRoutineId eraseMemoryRoutineCheck at h
  split_ifs at h with _ hstart hresults
  · exact absurd h (by simp)
  · exact absurd h (by simp)
  · exact absurd h (by simp)
  · exact absurd h (by simp)
  · refine ⟨fun hc hstate => hstart ⟨hc, hstate⟩, fun hc => ?_⟩
    by_contra hstate
    exact hresults ⟨hc, hstate⟩

/-- Away from a start, the record is the one of the erase started last. -/
theorem Lockstep.follows (h : Lockstep past s) (hthread : s.thread ≠ .scheduling) :
    Follows (lastErase past) s := by
  obtain ⟨-, ⟨hsched, -⟩ | ⟨-, hfollows⟩⟩ := h
  · exact absurd hsched hthread
  · exact hfollows

/-- The rule for the steps of the thread that leave the record and the work
item as they are. -/
theorem Follows.lockstep {t : Thread} (h : Follows (lastErase past) s)
    (hafter : (lastErase past).after e = lastErase past) (hnot : t ≠ .scheduling)
    (hcleared : t.Cleared s.state s.result) :
    Lockstep (past ++ [(s, e)]) { s with thread := t } := by
  unfold Lockstep
  rw [lastErase_concat, hafter]
  exact ⟨hcleared, .inr ⟨hnot, h.congr rfl rfl rfl rfl⟩⟩

theorem lockstep_request {args : RoutineCtrlArgs} (h : Lockstep past s)
    (hs : step s (.request args) = some (response, s')) :
    Lockstep (past ++ [(s, .request args)]) s' := by
  have hsame : Lockstep (past ++ [(s, .request args)]) s := by
    unfold Lockstep
    rw [lastErase_concat, Progress.after_request]
    exact h
  simp only [step] at hs
  split_ifs at hs with hwaiting hrc happly
  · obtain ⟨-, rfl⟩ := Prod.mk.inj (Option.some.inj hs)
    exact hsame
  · obtain ⟨-, rfl⟩ := Prod.mk.inj (Option.some.inj hs)
    have hfollows := h.follows (by simp [hwaiting])
    exact hfollows.lockstep (Progress.after_request _ _) (by simp)
      (cleared_of_check (Prod.ext rfl happly) _)
  · obtain ⟨-, rfl⟩ := Prod.mk.inj (Option.some.inj hs)
    exact hsame

/-- **The action**: a start takes the record over from an erase that is
done with, a request for results reads a completed one. -/
theorem lockstep_action (h : Lockstep past s) (hs : step s .action = some (response, s')) :
    Lockstep (past ++ [(s, .action)]) s' := by
  have hafter := (lastErase past).after_action
  simp only [step] at hs
  split at hs
  case h_2 => cases hs
  case h_1 args hacting =>
    have hfollows := h.follows (by simp [hacting])
    have hcleared := h.1
    rw [hacting] at hcleared
    obtain ⟨hstart, hresults⟩ := hcleared
    have hact := Option.some.inj hs
    unfold eraseMemoryRoutineAction at hact
    split_ifs at hact with _ hc _ hstate
    · obtain ⟨-, rfl⟩ := Prod.mk.inj hact
      exact hfollows.lockstep hafter (by simp) trivial
    · obtain ⟨-, rfl⟩ := Prod.mk.inj hact
      exact ⟨trivial, .inl ⟨rfl, rfl, hfollows.atRest (hstart hc)⟩⟩
    · obtain ⟨-, rfl⟩ := Prod.mk.inj hact
      exact hfollows.lockstep hafter (by simp) trivial
    · obtain ⟨-, rfl⟩ := Prod.mk.inj hact
      exact hfollows.lockstep hafter (by simp) ⟨not_not.mp hstate, rfl⟩
    · obtain ⟨-, rfl⟩ := Prod.mk.inj hact
      exact hfollows.lockstep hafter (by simp) trivial

theorem lockstep_schedule (h : Lockstep past s) (hs : step s .schedule = some (response, s')) :
    Lockstep (past ++ [(s, .schedule)]) s' := by
  obtain ⟨-, hfollows⟩ := h
  unfold Lockstep
  rw [lastErase_concat, Progress.after_schedule]
  simp only [step] at hs
  split_ifs at hs with hsched
  obtain ⟨-, rfl⟩ := Prod.mk.inj (Option.some.inj hs)
  obtain ⟨-, hstate, -, hrest⟩ | ⟨hnot, -⟩ := hfollows
  · exact ⟨trivial, .inr ⟨by simp, hstate, rfl, hrest⟩⟩
  · exact absurd hsched hnot

theorem lockstep_copyStatusRecord {rc : UDSErr} (h : Lockstep past s)
    (hs : step s (.copyStatusRecord rc) = some (response, s')) :
    Lockstep (past ++ [(s, .copyStatusRecord rc)]) s' := by
  simp only [step] at hs
  split at hs
  case h_2 => cases hs
  case h_1 result hcopying =>
    obtain ⟨-, rfl⟩ := Prod.mk.inj (Option.some.inj hs)
    have hfollows := h.follows (by simp [hcopying])
    exact hfollows.lockstep (Progress.after_copyStatusRecord _ _) (by simp) trivial

/-! ### The work item -/

/-- Taking the work item from the queue: it was scheduled for the erase
started last. -/
theorem lockstep_begin (h : Lockstep past s) (hs : step s .begin = some (response, s')) :
    Lockstep (past ++ [(s, .begin)]) s' := by
  obtain ⟨hcleared, hfollows⟩ := h
  simp only [step] at hs
  split_ifs at hs with hbegin
  obtain ⟨-, rfl⟩ := Prod.mk.inj (Option.some.inj hs)
  obtain ⟨-, -, hpending, -⟩ | ⟨hnot, hfollows⟩ := hfollows
  · rw [hbegin.1] at hpending
    cases hpending
  · have hstarted := hfollows.of_pending hbegin.1
    rw [hstarted] at hfollows
    unfold Lockstep
    rw [lastErase_concat, hstarted]
    exact ⟨hcleared, .inr ⟨hnot, hfollows.1, rfl, rfl⟩⟩

/-- The rule for the steps in the middle of the handler: the thread is not
at the start of another erase, and the erase started last is running. -/
theorem lockstep_of_working (h : Lockstep past s) (hworker : ¬ s.worker.AtRest)
    (hstep : Follows (lastErase past) s → s.state = .inProgress →
      (s.thread.Cleared s'.state s'.result ∧ s'.thread = s.thread) ∧
        Follows ((lastErase past).after e) s') :
    Lockstep (past ++ [(s, e)]) s' := by
  obtain ⟨-, ⟨-, -, -, hrest⟩ | ⟨hnot, hfollows⟩⟩ := h
  · exact absurd hrest hworker
  · have hstate : s.state = .inProgress := by
      by_contra hstate
      exact hworker (hfollows.atRest hstate).2
    obtain ⟨⟨hcleared, hthread⟩, hafter⟩ := hstep hfollows hstate
    unfold Lockstep
    rw [lastErase_concat, hthread]
    exact ⟨hcleared, .inr ⟨hnot, hafter⟩⟩

theorem lockstep_flashAreaOpen {rc : ℤ} (h : Lockstep past s)
    (hs : step s (.flashAreaOpen rc) = some (response, s')) :
    Lockstep (past ++ [(s, .flashAreaOpen rc)]) s' := by
  have hcleared := h.1
  by_cases hopening : s.worker = .opening
  · simp only [step, if_pos hopening] at hs
    obtain ⟨-, rfl⟩ := Prod.mk.inj (Option.some.inj hs)
    refine lockstep_of_working h (by simp [hopening, Worker.AtRest]) fun hfollows hstate => ?_
    have hp := hfollows.of_opening hopening
    rw [hp] at hfollows ⊢
    exact ⟨⟨hcleared, rfl⟩, hstate, hfollows.2.1, rfl⟩
  · simp only [step, if_neg hopening] at hs
    cases hs

theorem lockstep_flashAreaErase {rc : ℤ} (h : Lockstep past s)
    (hs : step s (.flashAreaErase rc) = some (response, s')) :
    Lockstep (past ++ [(s, .flashAreaErase rc)]) s' := by
  have hcleared := h.1
  simp only [step] at hs
  split_ifs at hs with herasing
  obtain ⟨-, rfl⟩ := Prod.mk.inj (Option.some.inj hs)
  refine lockstep_of_working h (by simp [herasing, Worker.AtRest]) fun hfollows hstate => ?_
  obtain ⟨opened, hp, hopen⟩ := hfollows.of_erasing herasing
  rw [hp] at hfollows ⊢
  exact ⟨⟨hcleared, rfl⟩, hstate, hfollows.2.1, hopen, rfl⟩

/-- The thread is not copying while the handler publishes: it copies in
the completed state only. -/
theorem cleared_completed {t : Thread} {r result : Int32} (h : t.Cleared .inProgress r) :
    t.Cleared .completed result := by
  cases t with
  | acting args => exact ⟨fun _ => by decide, fun _ => rfl⟩
  | copying r' => exact absurd h.1 (by decide)
  | _ => trivial

/-- **Publishing**: the result stored is the one of the opening. -/
theorem lockstep_publish (h : Lockstep past s) (hs : step s .publish = some (response, s')) :
    Lockstep (past ++ [(s, .publish)]) s' := by
  have hcleared := h.1
  simp only [step] at hs
  split at hs
  case h_2 => cases hs
  case h_1 result hpublishing =>
    obtain ⟨-, rfl⟩ := Prod.mk.inj (Option.some.inj hs)
    refine lockstep_of_working h (by simp [hpublishing, Worker.AtRest]) fun hfollows hstate => ?_
    rw [hstate] at hcleared
    refine ⟨⟨cleared_completed hcleared, rfl⟩, ?_⟩
    obtain ⟨opened, hp, hopen, rfl⟩ | ⟨opened, rc, hp, hopen, rfl⟩ :=
      hfollows.of_publishing hpublishing
    · rw [hp] at hfollows ⊢
      have hnone : (none : Option ℤ).isSome ↔ 0 ≤ opened := by
        simp only [Option.isSome_none, Bool.false_eq_true, false_iff]
        omega
      exact ⟨rfl, hfollows.2.1, .inr rfl, rfl, hnone⟩
    · rw [hp] at hfollows ⊢
      have hsome : (some rc).isSome ↔ 0 ≤ opened := by
        simp only [Option.isSome_some, true_iff]
        exact hopen
      exact ⟨rfl, hfollows.2.1, .inr rfl, rfl, hsome⟩

theorem lockstep_return (h : Lockstep past s) (hs : step s .return = some (response, s')) :
    Lockstep (past ++ [(s, .return)]) s' := by
  obtain ⟨hcleared, hfollows⟩ := h
  unfold Lockstep
  rw [lastErase_concat, Progress.after_return]
  simp only [step] at hs
  split_ifs at hs with hreturning
  obtain ⟨-, rfl⟩ := Prod.mk.inj (Option.some.inj hs)
  refine ⟨hcleared, hfollows.imp ?_ ?_⟩
  · rintro ⟨hsched, hstate, hpending, -⟩
    exact ⟨hsched, hstate, hpending, .inl rfl⟩
  · rintro ⟨hnot, hfollows⟩
    refine ⟨hnot, ?_⟩
    generalize lastErase past = p at hfollows ⊢
    cases p with
    | never => exact ⟨hfollows.1, hfollows.2.1, .inl rfl⟩
    | started => exact ⟨hfollows.1, hfollows.2.1, .inl rfl⟩
    | running =>
      have hworker := hfollows.2.2
      rw [hreturning] at hworker
      cases hworker
    | opened rc =>
      have hworker := hfollows.2.2
      rw [hreturning] at hworker
      split_ifs at hworker
    | erased o rc =>
      have hworker := hfollows.2.2.2
      rw [hreturning] at hworker
      cases hworker
    | finished o e => exact ⟨hfollows.1, hfollows.2.1, .inl rfl, hfollows.2.2.2⟩

/-- **In every run, the record keeps up with the erase started last.** -/
theorem lockstep (h : machine.Run past s) : Lockstep past s := by
  refine h.invariant (fun s hinit => ?_) fun past s e s' hpast hstep => ?_
  · obtain rfl : s = .initial := hinit
    exact ⟨trivial, .inr ⟨by decide, rfl, rfl, .inl rfl⟩⟩
  · obtain ⟨response, hs⟩ := hstep
    cases e with
    | request args => exact lockstep_request hpast hs
    | action => exact lockstep_action hpast hs
    | schedule => exact lockstep_schedule hpast hs
    | copyStatusRecord rc => exact lockstep_copyStatusRecord hpast hs
    | begin => exact lockstep_begin hpast hs
    | flashAreaOpen rc => exact lockstep_flashAreaOpen hpast hs
    | flashAreaErase rc => exact lockstep_flashAreaErase hpast hs
    | publish => exact lockstep_publish hpast hs
    | «return» => exact lockstep_return hpast hs

end Steps

/-! ## What the tester is told -/

/-- **A result is given for an erase that has finished, and a status record
of 0 for one that succeeded.** -/
def Truthful (past : List (State × Event)) (s : State) (e : Event) : Prop :=
  ∀ response s', step s e = some (some response, s') →
    response.ctrlType = requestRoutineResults → response.code = .positiveResponse →
      (∃ opened erased, lastErase past = .finished opened erased) ∧
        (response.record = [0, 0, 0, 0] → (lastErase past).Succeeded)

/-- No status record is copied out for an erase that opened the partition
and then failed. -/
def NoneAfterFailure (past : List (State × Event)) (_ : State) (e : Event) : Prop :=
  e = .copyStatusRecord .positiveResponse → ¬ (lastErase past).EraseFailed

section Results

variable {past : List (State × Event)} {s s' : State} {e : Event}

/-- The status record is 0 exactly where the partition was opened. -/
theorem record_outcome {opened : ℤ} :
    sysCpuToBe32 (outcome opened) = [0, 0, 0, 0] ↔ 0 ≤ opened := by
  unfold outcome
  split_ifs with hopen
  · have hne : sysCpuToBe32 programmingFailure ≠ [0, 0, 0, 0] := by decide
    exact iff_of_false hne (by omega)
  · have heq : sysCpuToBe32 0 = [0, 0, 0, 0] := by decide
    exact iff_of_true heq (by omega)

/-- Neither the check answers positively -/
theorem request_not_positive {args : RoutineCtrlArgs} {response : Response}
    (hs : step s (.request args) = some (some response, s')) :
    response.code ≠ .positiveResponse := by
  simp only [step] at hs
  split_ifs at hs with _ hrc
  · obtain rfl := Option.some.inj (Prod.mk.inj (Option.some.inj hs)).1
    exact hrc
  · exact absurd (Prod.mk.inj (Option.some.inj hs)).1 (by simp)
  · obtain rfl := Option.some.inj (Prod.mk.inj (Option.some.inj hs)).1
    show UDSErr.subFunctionNotSupported ≠ UDSErr.positiveResponse
    decide

/-- nor the critical section of the action. -/
theorem action_not_positive {response : Response}
    (hs : step s .action = some (some response, s')) : response.code ≠ .positiveResponse := by
  simp only [step] at hs
  split at hs
  case h_2 => cases hs
  case h_1 args _ =>
    have hact := Option.some.inj hs
    unfold eraseMemoryRoutineAction at hact
    split_ifs at hact
    · obtain rfl := Option.some.inj (Prod.mk.inj hact).1
      show UDSErr.requestOutOfRange ≠ UDSErr.positiveResponse
      decide
    · exact absurd (Prod.mk.inj hact).1 (by simp)
    · obtain rfl := Option.some.inj (Prod.mk.inj hact).1
      show UDSErr.requestSequenceError ≠ UDSErr.positiveResponse
      decide
    · exact absurd (Prod.mk.inj hact).1 (by simp)
    · obtain rfl := Option.some.inj (Prod.mk.inj hact).1
      show UDSErr.subFunctionNotSupported ≠ UDSErr.positiveResponse
      decide

/-- **Results are given by the copy alone**, from what the action read. -/
theorem copying_of_results {response : Response}
    (hs : step s e = some (some response, s')) (htype : response.ctrlType = requestRoutineResults)
    (hcode : response.code = .positiveResponse) :
    e = .copyStatusRecord .positiveResponse ∧
      ∃ result, s.thread = .copying result ∧ response.record = sysCpuToBe32 result := by
  cases e with
  | copyStatusRecord rc =>
    simp only [step] at hs
    split at hs
    case h_2 => cases hs
    case h_1 result hcopying =>
      obtain ⟨hresponse, -⟩ := Prod.mk.inj (Option.some.inj hs)
      obtain rfl := Option.some.inj hresponse
      obtain rfl : rc = .positiveResponse := hcode
      exact ⟨rfl, result, hcopying, rfl⟩
  | request args => exact absurd hcode (request_not_positive hs)
  | action => exact absurd hcode (action_not_positive hs)
  | schedule =>
    simp only [step] at hs
    split_ifs at hs
    obtain rfl := Option.some.inj (Prod.mk.inj (Option.some.inj hs)).1
    exact absurd htype (by decide)
  | flashAreaOpen rc =>
    by_cases hopening : s.worker = .opening
    · simp [step, hopening] at hs
    · simp [step, hopening] at hs
  | publish =>
    simp only [step] at hs
    split at hs
    · simp at hs
    · cases hs
  | _ =>
    simp only [step] at hs
    split_ifs at hs
    simp at hs

/-- While a record is copied, the erase started last has finished, and the
record is the one of its opening. -/
theorem Lockstep.copying (h : Lockstep past s) {result : Int32} (ht : s.thread = .copying result) :
    ∃ opened erased, lastErase past = .finished opened erased ∧ result = outcome opened ∧
      (erased.isSome ↔ 0 ≤ opened) := by
  have hfollows := h.follows (by simp [ht])
  have hcleared := h.1
  rw [ht] at hcleared
  obtain ⟨hstate, rfl⟩ := hcleared
  cases hp : lastErase past with
  | finished opened erased =>
    rw [hp] at hfollows
    exact ⟨opened, erased, rfl, hfollows.2.2.2.1, hfollows.2.2.2.2⟩
  | _ =>
    rw [hp] at hfollows
    have hne := hfollows.1
    rw [hstate] at hne
    cases hne

/-- One step. -/
theorem truthful_step (h : Lockstep past s) (hs : machine.Step s e s') :
    Truthful past s e ↔ NoneAfterFailure past s e := by
  constructor
  · rintro htruthful rfl ⟨opened, rc, hlast, hopen, hfailed⟩
    obtain ⟨response, hs⟩ := hs
    simp only [step] at hs
    split at hs
    case h_2 => cases hs
    case h_1 result hcopying =>
      obtain ⟨opened', erased, hlast', rfl, -⟩ := h.copying hcopying
      obtain ⟨rfl, rfl⟩ := Progress.finished.inj (hlast.symm.trans hlast')
      have hzero := record_outcome.mpr hopen
      have hstep : step s (.copyStatusRecord .positiveResponse) = some
          (some ⟨requestRoutineResults, .positiveResponse, sysCpuToBe32 (outcome opened)⟩,
            { s with thread := .waiting }) := by
        simp only [step, hcopying]
      obtain ⟨o, rc', hsucceeded, -, hrc⟩ := (htruthful _ _ hstep rfl rfl).2 hzero
      obtain ⟨-, hsome⟩ := Progress.finished.inj (hlast.symm.trans hsucceeded)
      obtain rfl := Option.some.inj hsome
      omega
  · intro hnone response t hresponse htype hcode
    obtain ⟨he, result, hcopying, hrecord⟩ := copying_of_results hresponse htype hcode
    obtain ⟨opened, erased, hlast, rfl, hsome⟩ := h.copying hcopying
    refine ⟨⟨opened, erased, hlast⟩, fun hzero => ?_⟩
    rw [hrecord, record_outcome] at hzero
    obtain ⟨rc, rfl⟩ := Option.isSome_iff_exists.mp (hsome.mpr hzero)
    refine ⟨opened, rc, hlast, hzero, ?_⟩
    by_contra hfailed
    exact hnone he ⟨opened, rc, hlast, hzero, by omega⟩

/-- **Every result given is true exactly in the runs where none is given
for an erase that failed after the partition was opened.** -/
theorem truthful_iff (h : machine.Run past s) :
    Machine.Throughout Truthful past ↔ Machine.Throughout NoneAfterFailure past :=
  h.throughout_congr fun _ _ _ _ hrun hstep => truthful_step (lockstep hrun) hstep

end Results

/-- A start, the erase with what its flash calls return, and a request for
the results. -/
def eraseAndAsk (opened erased : ℤ) : List Event :=
  [.request ⟨startRoutine, eraseMemoryRoutine⟩, .action, .schedule, .begin, .flashAreaOpen opened,
    .flashAreaErase erased, .publish, .return, .request ⟨requestRoutineResults, eraseMemoryRoutine⟩,
    .action, .copyStatusRecord .positiveResponse]

/-- They are a run of the routine. -/
theorem run_eraseAndAsk (erased : ℤ) :
    ∃ s, machine.Run (history step .initial (eraseAndAsk 0 erased)) s := by
  have hruns : ∃ as s, runs step .initial (eraseAndAsk 0 erased) = some (as, s) := ⟨_, _, rfl⟩
  obtain ⟨as, s, hruns⟩ := hruns
  exact ⟨s, machine.run_history (fun _ _ a _ h => ⟨a, h⟩) rfl hruns⟩

theorem truthful_iff_erased :
    Machine.Throughout Truthful (history step .initial (eraseAndAsk 0 0)) ↔
      Machine.Throughout NoneAfterFailure (history step .initial (eraseAndAsk 0 0)) := by
  obtain ⟨s, hrun⟩ := run_eraseAndAsk 0
  exact truthful_iff hrun

/-- **A failed erase is reported as a success**: `flash_area_erase` returns
`-EIO`, and the tester reads 0. -/
theorem not_truthful_eraseFailed :
    ∃ past s, machine.Run past s ∧ ¬ Machine.Throughout Truthful past := by
  obtain ⟨s, hrun⟩ := run_eraseAndAsk (-5)
  refine ⟨_, s, hrun, fun h => ?_⟩
  -- the last step is the copy of the status record
  have hsplit : history step .initial (eraseAndAsk 0 (-5)) =
      (history step .initial (eraseAndAsk 0 (-5))).take 10 ++
        (⟨.completed, 0, false, .idle, .copying 0⟩, .copyStatusRecord .positiveResponse) :: [] :=
    rfl
  have hlast : lastErase ((history step .initial (eraseAndAsk 0 (-5))).take 10) =
      .finished 0 (some (-5)) := rfl
  obtain ⟨-, hzero⟩ := h _ _ _ _ hsplit _ _ rfl rfl rfl
  obtain ⟨opened, rc, heq, -, hrc⟩ := hzero (by decide)
  obtain ⟨-, hsome⟩ := Progress.finished.inj (hlast.symm.trans heq)
  obtain rfl := Option.some.inj hsome
  omega

end Loader

end Ardep
