import Mathlib.Data.Nat.Notation
import Mathlib.Logic.Function.Basic
import Mathlib.Tactic.SplitIfs
import Mathlib.Tactic.TypeStar
import Ardep.Common.Machine
import Ardep.Common.Mutex
import Ardep.Uds.Err
/-!
# The iso14229 thread — starting and stopping it from anywhere

Under `CONFIG_ISO14229_THREAD` the ticks of an instance are made by a
thread of its own. `iso14229_zephyr_thread_start` creates it and
`iso14229_zephyr_thread_stop` asks it to end and joins it; both may be
called by any number of threads, and also by the server's own callback,
which runs inside a tick. `thread_mutex` guards `thread_running`; the
request to stop is an atomic that the loop reads without the mutex.

The machine here takes one statement at a time, of a caller or of a
thread, in any order. Of the kernel it takes that a mutex has one owner,
that a join returns once the thread in `thread_data` has ended, and that
a thread that joins itself is answered at once (the answer is not looked
at).
-/

namespace Ardep

namespace Iso14229

namespace Thread

open Uds

/-- `EALREADY`. -/
abbrev EALREADY : ℤ := 120

/-! ## Where a call and a thread are -/

/-- Who executes a statement: a thread of the application, or the `n`-th
thread that was created for the instance. -/
inductive Agent (Caller : Type*)
  | caller (c : Caller)
  | server (n : ℕ)
  deriving DecidableEq

/-- The two functions. -/
inductive Op
  | start
  | stop
  deriving DecidableEq

/-- The statement of the two functions that is executed next. -/
inductive Call
  | idle
  | startLock
  | startCheck
  | startClear
  | startCreate
  | startRun
  | startUnlock (ret : ℤ)
  | stopLock
  | stopCheck
  | stopRefuse
  | stopRequest
  | stopUnlock
  | stopJoin
  deriving DecidableEq

/-- The first statement of a call. -/
def Op.lock : Op → Call
  | .start => .startLock
  | .stop => .stopLock

/-- The statement of `iso14229_thread_entry` that is executed next. A
thread that has returned is `exit` until the kernel has ended it. -/
inductive Loop
  | absent
  | head
  | tick
  | sleep
  | lock
  | clear
  | unlock
  | exit
  | dead
  deriving DecidableEq

namespace Call

/-- The mutex is locked there. -/
def holds : Call → Bool
  | .startCheck | .startClear | .startCreate | .startRun | .startUnlock _ => true
  | .stopCheck | .stopRefuse | .stopRequest | .stopUnlock => true
  | _ => false

/-- The function it is a call of. -/
def op : Call → Option Op
  | .idle => none
  | .startLock | .startCheck | .startClear | .startCreate | .startRun | .startUnlock _ =>
    some .start
  | .stopLock | .stopCheck | .stopRefuse | .stopRequest | .stopUnlock | .stopJoin => some .stop

end Call

namespace Loop

/-- The mutex is locked there. -/
def holds : Loop → Bool
  | .clear | .unlock => true
  | _ => false

/-- The thread was created and has not yet said that it ends. -/
def live : Loop → Bool
  | .head | .tick | .sleep | .lock | .clear => true
  | _ => false

end Loop

/-! ## The instance, and one statement -/

variable {Caller : Type*}

/-- The thread fields of `struct iso14229_zephyr_instance`, and where
everybody is. `created` counts the threads `k_thread_create` made, and the
last of them is the one in `thread_data`. -/
structure State (Caller : Type*) where
  threadMutex : Option (Agent Caller)
  threadRunning : Bool
  threadStopRequested : Bool
  created : ℕ
  loop : ℕ → Loop
  call : Agent Caller → Call

/-- What is done next: a call begins, a call or a thread executes its next
statement. Of a call it says whether `k_thread_create` would make a
thread. -/
inductive Event (Caller : Type*)
  | begin (a : Agent Caller) (op : Op)
  | call (a : Agent Caller) (kThreadCreate : Bool)
  | thread (n : ℕ)

namespace State

/-- The instance as `iso14229_zephyr_init` leaves it. -/
def init : State Caller := ⟨none, false, false, 0, fun _ => .absent, fun _ => .idle⟩

variable [DecidableEq Caller]

/-- The agent goes on to another statement. -/
def setCall (s : State Caller) (a : Agent Caller) (c : Call) : State Caller :=
  { s with call := Function.update s.call a c }

/-- The thread goes on to another statement. -/
def setLoop (s : State Caller) (n : ℕ) (l : Loop) : State Caller :=
  { s with loop := Function.update s.loop n l }

/-- `k_thread_create`, where it makes a thread. -/
def spawn (s : State Caller) : State Caller :=
  { s with created := s.created + 1 }.setLoop s.created .head

/-- An application thread may call at any time, a server thread from the
callback of a tick. -/
def mayCall (s : State Caller) : Agent Caller → Bool
  | .caller _ => true
  | .server n => s.loop n = .tick

/-- `k_thread_join` of `thread_data` returns. -/
def joined (s : State Caller) (a : Agent Caller) : Bool :=
  match s.created with
  | 0 => true
  | n + 1 => s.loop n = .dead ∨ a = .server n

/-- The call that an agent begins. -/
def beginStep (s : State Caller) (a : Agent Caller) (op : Op) : Option (State Caller) :=
  if s.mayCall a ∧ s.call a = .idle then some (s.setCall a op.lock) else none

/-- `iso14229_zephyr_thread_start` and `iso14229_zephyr_thread_stop`, the
next statement of the agent's call. There is none where it waits. -/
def callStep (s : State Caller) (a : Agent Caller) (kThreadCreate : Bool) :
    Option (State Caller) :=
  match s.call a with
  | .idle => none
  | .startLock =>
    if s.threadMutex = none then some ({ s with threadMutex := some a }.setCall a .startCheck)
    else none
  | .startCheck =>
    some (s.setCall a (if s.threadRunning then .startUnlock (-EALREADY) else .startClear))
  | .startClear => some ({ s with threadStopRequested := false }.setCall a .startCreate)
  | .startCreate =>
    if kThreadCreate then some (s.spawn.setCall a .startRun)
    else some (s.setCall a (.startUnlock (-ENOMEM)))
  | .startRun => some ({ s with threadRunning := true }.setCall a (.startUnlock 0))
  | .startUnlock _ => some ({ s with threadMutex := none }.setCall a .idle)
  | .stopLock =>
    if s.threadMutex = none then some ({ s with threadMutex := some a }.setCall a .stopCheck)
    else none
  | .stopCheck => some (s.setCall a (if s.threadRunning then .stopRequest else .stopRefuse))
  | .stopRefuse => some ({ s with threadMutex := none }.setCall a .idle)
  | .stopRequest => some ({ s with threadStopRequested := true }.setCall a .stopUnlock)
  | .stopUnlock => some ({ s with threadMutex := none }.setCall a .stopJoin)
  | .stopJoin => if s.joined a then some (s.setCall a .idle) else none

/-- `iso14229_thread_entry`, the next statement of the thread. A tick ends
when the callback it is in has returned. -/
def threadStep (s : State Caller) (n : ℕ) : Option (State Caller) :=
  match s.loop n with
  | .absent => none
  | .head => some (s.setLoop n (if s.threadStopRequested then .lock else .tick))
  | .tick => if s.call (.server n) = .idle then some (s.setLoop n .sleep) else none
  | .sleep => some (s.setLoop n .head)
  | .lock =>
    if s.threadMutex = none then
      some ({ s with threadMutex := some (.server n) }.setLoop n .clear)
    else none
  | .clear => some ({ s with threadRunning := false }.setLoop n .unlock)
  | .unlock => some ({ s with threadMutex := none }.setLoop n .exit)
  | .exit => some (s.setLoop n .dead)
  | .dead => none

/-- One statement of one of them. -/
def step (s : State Caller) : Event Caller → Option (State Caller)
  | .begin a op => s.beginStep a op
  | .call a kThreadCreate => s.callStep a kThreadCreate
  | .thread n => s.threadStep n

end State

/-- **The machine**: all callers and all threads, in any order. -/
def machine (Caller : Type*) [DecidableEq Caller] : Machine (State Caller) (Event Caller) where
  init s := s = .init
  Step s e s' := s.step e = some s'

/-! ## What holds between the statements -/

namespace Call

/-- What the holder of the mutex has found out, or made so, of
`thread_running` and of `thread_stop_requested`. -/
def knows (running requested : Bool) : Call → Prop
  | .startClear => running = false
  | .startCreate | .startRun => running = false ∧ requested = false
  | .startUnlock ret => running = decide (ret ≠ -ENOMEM)
  | .stopRefuse => running = false
  | .stopRequest => running = true
  | .stopUnlock => running = true ∧ requested = true
  | _ => True

/-- Without the mutex nothing is known. -/
theorem knows_of_not_holds {c : Call} (h : c.holds = false) (running requested : Bool) :
    c.knows running requested := by
  cases c <;> trivial

theorem holds_of_eq_startRun {c : Call} (h : c = .startRun) : c.holds = true := by
  rw [h]
  rfl

end Call

namespace Loop

/-- The thread has seen the request to stop and has not yet cleared
`thread_running`. -/
def leaves : Loop → Bool
  | .lock | .clear => true
  | _ => false

theorem live_of_leaves {l : Loop} (h : l.leaves = true) : l.live = true := by
  cases l <;> first | rfl | cases h

end Loop

namespace State

variable {s s' : State Caller} {a b : Agent Caller} {n : ℕ}

/-- The agent is at a statement between locking and unlocking. -/
def holds (s : State Caller) : Agent Caller → Bool
  | .caller c => (s.call (.caller c)).holds
  | .server n => (s.call (.server n)).holds || (s.loop n).holds

/-- **The invariant.** -/
structure Ok (s : State Caller) : Prop where
  /-- Who is between locking and unlocking owns the mutex. -/
  owner : Owns s.threadMutex s.holds
  knows : ∀ a, (s.call a).knows s.threadRunning s.threadStopRequested
  /-- A thread calls from its tick only. -/
  calling : ∀ n, s.call (.server n) ≠ .idle → s.loop n = .tick
  absent : ∀ n, s.loop n = .absent ↔ s.created ≤ n
  last : ∀ n, (s.loop n).live = true → n + 1 = s.created
  /-- There is a live thread where `thread_running` says so, and from its
  creation until the flag is set. -/
  serving : (∃ n, (s.loop n).live = true) ↔
    s.threadRunning = true ∨ ∃ a, s.call a = .startRun
  leaving : ∀ n, (s.loop n).leaves = true → s.threadStopRequested = true

theorem ok_init : Ok (.init : State Caller) where
  owner a := by cases a <;> simp [holds, init, Call.holds, Loop.holds]
  knows a := trivial
  calling n h := absurd rfl h
  absent n := by simp [init]
  last n h := by cases h
  serving := by simp [init, Loop.live]
  leaving n h := by cases h

/-- A call between locking and unlocking is one that holds. -/
theorem holds_of_call (h : (s.call a).holds = true) : s.holds a = true := by
  cases a with
  | caller c => exact h
  | server n =>
    rw [holds, h]
    rfl

/-- While one agent holds the mutex no other call knows anything. -/
theorem Ok.knows_of_ne (h : Ok s) (ha : s.holds a = true) (hb : b ≠ a) (running requested : Bool) :
    (s.call b).knows running requested := by
  refine Call.knows_of_not_holds ?_ running requested
  by_contra hhold
  rw [Bool.not_eq_false] at hhold
  exact hb (h.owner.eq (holds_of_call hhold) ha)

/-- An agent in a call is one that may call. -/
theorem Ok.mayCall (h : Ok s) (hcall : s.call a ≠ .idle) : s.mayCall a = true := by
  cases a with
  | caller c => rfl
  | server n => simp [State.mayCall, h.calling n hcall]

/-- A thread that is not in a tick makes no call. -/
theorem Ok.call_server (h : Ok s) (hn : s.loop n ≠ .tick) : s.call (.server n) = .idle := by
  by_contra hcall
  exact hn (h.calling n hcall)

/-! ### Where a statement leads -/

variable [DecidableEq Caller]

@[simp] theorem setCall_call_self {c : Call} : (s.setCall a c).call a = c :=
  Function.update_self ..

theorem setCall_call_of_ne {c : Call} (hb : b ≠ a) : (s.setCall a c).call b = s.call b :=
  Function.update_of_ne hb ..

omit [DecidableEq Caller] in
@[simp] theorem setLoop_loop_self {l : Loop} : (s.setLoop n l).loop n = l :=
  Function.update_self ..

omit [DecidableEq Caller] in
theorem setLoop_loop_of_ne {l : Loop} {m : ℕ} (hm : m ≠ n) : (s.setLoop n l).loop m = s.loop m :=
  Function.update_of_ne hm ..

omit [DecidableEq Caller] in
theorem holds_eq_of_mayCall (hmay : s.mayCall a = true) : s.holds a = (s.call a).holds := by
  cases a with
  | caller c => rfl
  | server n =>
    have htick : s.loop n = .tick := by simpa [State.mayCall] using hmay
    rw [holds, htick]
    exact Bool.or_false _

theorem holds_setCall_self {c : Call} (hmay : s.mayCall a = true) :
    (s.setCall a c).holds a = c.holds := by
  have hsame : (s.setCall a c).mayCall a = true := by cases a <;> exact hmay
  rw [holds_eq_of_mayCall hsame, setCall_call_self]

theorem holds_setCall_of_ne {c : Call} (hb : b ≠ a) : (s.setCall a c).holds b = s.holds b := by
  cases b with
  | caller c => exact congrArg Call.holds (setCall_call_of_ne hb)
  | server n =>
    rw [holds, holds, setCall_call_of_ne hb]
    rfl

omit [DecidableEq Caller] in
theorem holds_setLoop_of_ne {l : Loop} (hb : b ≠ .server n) :
    (s.setLoop n l).holds b = s.holds b := by
  cases b with
  | caller c => rfl
  | server m =>
    have hm : m ≠ n := fun heq => hb (heq ▸ rfl)
    rw [holds, holds, setLoop_loop_of_ne hm]
    rfl

omit [DecidableEq Caller] in
/-- In the loop, outside a tick, a thread holds what its statement holds. -/
theorem Ok.holds_server (h : Ok s) (hn : s.loop n ≠ .tick) : s.holds (.server n) = (s.loop n).holds := by
  rw [holds, h.call_server hn]
  rfl

/-- The other agents' knowledge is as it was, or there was none to have. -/
theorem Ok.knows_setCall {c : Call} {running requested : Bool} (h : Ok s)
    (hc : c.knows running requested)
    (hflags : s.holds a = true ∨ running = s.threadRunning ∧ requested = s.threadStopRequested)
    (b : Agent Caller) : ((s.setCall a c).call b).knows running requested := by
  by_cases hb : b = a
  · rw [hb, setCall_call_self]
    exact hc
  · rw [setCall_call_of_ne hb]
    rcases hflags with hheld | ⟨rfl, rfl⟩
    · exact h.knows_of_ne hheld hb running requested
    · exact h.knows b

theorem Ok.calling_setCall {c : Call} (h : Ok s) (hmay : s.mayCall a = true) (n : ℕ)
    (hcall : (s.setCall a c).call (.server n) ≠ .idle) : s.loop n = .tick := by
  by_cases hn : .server n = a
  · rw [← hn] at hmay
    simpa [State.mayCall] using hmay
  · rw [setCall_call_of_ne hn] at hcall
    exact h.calling n hcall

omit [DecidableEq Caller] in
/-- Of the agents only the holder can have created a thread just now. -/
theorem Ok.exists_startRun_iff (h : Ok s) (ha : s.holds a = true) :
    (∃ b, s.call b = .startRun) ↔ s.call a = .startRun := by
  constructor
  · rintro ⟨b, hb⟩
    have hholds : s.holds b = true := holds_of_call (Call.holds_of_eq_startRun hb)
    rwa [h.owner.eq hholds ha] at hb
  · exact fun h => ⟨a, h⟩

/-- A live thread is still announced, or is as long as its creator has not
come to announce it. -/
theorem Ok.serving_setCall {c : Call} {running : Bool} (h : Ok s)
    (hiff : running = true ∨ c = .startRun ↔ s.threadRunning = true ∨ s.call a = .startRun) :
    (∃ n, (s.loop n).live = true) ↔
      running = true ∨ ∃ b, (s.setCall a c).call b = .startRun := by
  have hothers : (∃ b, (s.setCall a c).call b = .startRun) ↔
      c = .startRun ∨ ∃ b, b ≠ a ∧ s.call b = .startRun := by
    constructor
    · rintro ⟨b, hb⟩
      by_cases hba : b = a
      · rw [hba, setCall_call_self] at hb
        exact .inl hb
      · rw [setCall_call_of_ne hba] at hb
        exact .inr ⟨b, hba, hb⟩
    · rintro (hc | ⟨b, hba, hb⟩)
      · exact ⟨a, setCall_call_self.trans hc⟩
      · exact ⟨b, (setCall_call_of_ne hba).trans hb⟩
  have hall : (∃ b, s.call b = .startRun) ↔
      s.call a = .startRun ∨ ∃ b, b ≠ a ∧ s.call b = .startRun := by
    constructor
    · rintro ⟨b, hb⟩
      by_cases hba : b = a
      · exact .inl (hba ▸ hb)
      · exact .inr ⟨b, hba, hb⟩
    · rintro (ha | ⟨b, -, hb⟩)
      · exact ⟨a, ha⟩
      · exact ⟨b, hb⟩
  rw [h.serving, hothers, hall, ← or_assoc, ← or_assoc, hiff]

/-! ### What the statements of a call keep -/

/-- **The next statement of a call**, with the mutex and the flags it
leaves. Only the holder of the mutex sets a flag. -/
theorem Ok.setCall {c : Call} {mutex : Option (Agent Caller)} {running requested : Bool} (h : Ok s)
    (hmay : s.mayCall a = true) (howner : Owns mutex (s.setCall a c).holds)
    (hknows : c.knows running requested)
    (hflags : s.holds a = true ∨ running = s.threadRunning ∧ requested = s.threadStopRequested)
    (hserving : running = true ∨ c = .startRun ↔ s.threadRunning = true ∨ s.call a = .startRun)
    (hleaving : ∀ n, (s.loop n).leaves = true → requested = true) :
    Ok ({ s with
      threadMutex := mutex, threadRunning := running, threadStopRequested := requested }.setCall
        a c) where
  owner := howner
  knows := h.knows_setCall hknows hflags
  calling := h.calling_setCall hmay
  absent := h.absent
  last := h.last
  serving := h.serving_setCall hserving
  leaving := hleaving

variable {c : Call}

theorem Ok.owner_keep (h : Ok s) (hmay : s.mayCall a = true) (hc : c.holds = (s.call a).holds) :
    Owns s.threadMutex (s.setCall a c).holds := by
  refine h.owner.keep fun b => ?_
  by_cases hb : b = a
  · rw [hb, holds_setCall_self hmay, hc, holds_eq_of_mayCall hmay]
  · exact holds_setCall_of_ne hb

theorem Ok.owner_take (h : Ok s) (hmay : s.mayCall a = true) (hfree : s.threadMutex = none)
    (hc : c.holds = true) : Owns (some a) (s.setCall a c).holds := by
  have hown : Owns none s.holds := hfree ▸ h.owner
  exact hown.take ((holds_setCall_self hmay).trans hc) fun _ hb => holds_setCall_of_ne hb

theorem Ok.owner_give (h : Ok s) (hmay : s.mayCall a = true) (hheld : (s.call a).holds = true)
    (hc : c.holds = false) : Owns none (s.setCall a c).holds :=
  h.owner.give (holds_of_call hheld) ((holds_setCall_self hmay).trans hc)
    fun _ hb => holds_setCall_of_ne hb

/-- Nothing but the statement changes. -/
theorem Ok.goOn (h : Ok s) (hmay : s.mayCall a = true) (hc : c.holds = (s.call a).holds)
    (hknows : c.knows s.threadRunning s.threadStopRequested)
    (hrun : c = .startRun ↔ s.call a = .startRun) : Ok (s.setCall a c) :=
  h.setCall hmay (h.owner_keep hmay hc) hknows (.inr ⟨rfl, rfl⟩) (or_congr_right hrun) h.leaving

omit [DecidableEq Caller] in
/-- No thread is live where `thread_running` is clear and nobody is about
to set it. -/
theorem Ok.not_live (h : Ok s) (hheld : s.holds a = true) (hrunning : s.threadRunning = false)
    (hcall : s.call a ≠ .startRun) (n : ℕ) : (s.loop n).live = false := by
  cases hn : (s.loop n).live with
  | false => rfl
  | true =>
    rcases h.serving.mp ⟨n, hn⟩ with hrun | hrun
    · rw [hrunning] at hrun
      cases hrun
    · exact absurd ((h.exists_startRun_iff hheld).mp hrun) hcall

/-! ### The creation of a thread -/

omit [DecidableEq Caller] in
theorem spawn_loop_self : s.spawn.loop s.created = .head := setLoop_loop_self

omit [DecidableEq Caller] in
theorem spawn_loop_of_ne (hn : n ≠ s.created) : s.spawn.loop n = s.loop n := setLoop_loop_of_ne hn

omit [DecidableEq Caller] in
theorem Ok.loop_created (h : Ok s) : s.loop s.created = .absent := (h.absent _).mpr (Nat.le_refl _)

omit [DecidableEq Caller] in
/-- A thread calls from its tick, so one that is not there yet does not. -/
theorem Ok.call_created (h : Ok s) : s.call (.server s.created) = .idle := by
  refine h.call_server ?_
  rw [h.loop_created]
  decide

omit [DecidableEq Caller] in
theorem Ok.holds_spawn (h : Ok s) : s.spawn.holds b = s.holds b := by
  by_cases hb : b = .server s.created
  · rw [hb, holds, holds, spawn_loop_self, h.loop_created]
    rfl
  · exact holds_setLoop_of_ne hb

/-- `k_thread_create` keeps the invariant where no thread is live: the new
one is at the head of its loop, with no request to stop. -/
theorem Ok.create (h : Ok s) (hcall : s.call a = .startCreate) : Ok (s.spawn.setCall a .startRun) := by
  have hheld : (s.call a).holds = true := by rw [hcall]; rfl
  have hmay : s.mayCall a = true := h.mayCall (by rw [hcall]; exact Call.noConfusion)
  have hne : a ≠ .server s.created := by
    rintro rfl
    rw [h.call_created] at hcall
    cases hcall
  obtain ⟨hrunning, hrequested⟩ : s.threadRunning = false ∧ s.threadStopRequested = false := by
    have hknows := h.knows a
    rwa [hcall] at hknows
  have hdead : ∀ n, (s.loop n).live = false :=
    h.not_live (holds_of_call hheld) hrunning (by rw [hcall]; exact Call.noConfusion)
  have hlive : ∀ n, (s.spawn.loop n).live = true → n = s.created := by
    intro n hn
    by_contra hne
    rw [spawn_loop_of_ne hne, hdead n] at hn
    cases hn
  refine ⟨?_, ?_, ?_, ?_, ?_, ?_, ?_⟩
  · refine h.owner.keep fun b => ?_
    by_cases hb : b = a
    · rw [hb, holds_of_call (s := s.spawn.setCall a .startRun), holds_of_call hheld]
      rw [setCall_call_self]
      rfl
    · rw [holds_setCall_of_ne hb, h.holds_spawn]
  · exact h.knows_setCall ⟨hrunning, hrequested⟩ (.inr ⟨rfl, rfl⟩)
  · intro n hn
    have htick := h.calling_setCall hmay n hn
    have hold : n ≠ s.created := by
      rintro rfl
      rw [h.loop_created] at htick
      cases htick
    exact (spawn_loop_of_ne hold).trans htick
  · intro n
    by_cases hn : n = s.created
    · subst hn
      show s.spawn.loop s.created = .absent ↔ s.created + 1 ≤ s.created
      rw [spawn_loop_self]
      exact ⟨Loop.noConfusion, fun hle => absurd hle (by omega)⟩
    · show s.spawn.loop n = .absent ↔ s.created + 1 ≤ n
      rw [spawn_loop_of_ne hn, h.absent]
      omega
  · intro n hn
    rw [hlive n hn]
    rfl
  · refine iff_of_true ⟨s.created, ?_⟩ (.inr ⟨a, setCall_call_self⟩)
    exact congrArg Loop.live spawn_loop_self
  · intro n hn
    have hnew : n = s.created := hlive n (Loop.live_of_leaves hn)
    rw [hnew] at hn
    have hhead : (s.spawn.loop s.created).leaves = true := hn
    rw [spawn_loop_self] at hhead
    cases hhead

/-! ### One statement keeps the invariant -/

theorem Ok.begin {op : Op} (h : Ok s) (hs : s.beginStep a op = some s') : Ok s' := by
  unfold beginStep at hs
  split_ifs at hs with hmay
  obtain ⟨hmay, hidle⟩ := hmay
  cases hs
  cases op with
  | start => exact h.goOn hmay (by rw [hidle]; rfl) trivial (by rw [hidle]; decide)
  | stop => exact h.goOn hmay (by rw [hidle]; rfl) trivial (by rw [hidle]; decide)

/-- **A statement of a call keeps the invariant.** -/
theorem Ok.callStep {kThreadCreate : Bool} (h : Ok s)
    (hs : s.callStep a kThreadCreate = some s') : Ok s' := by
  have hknows := h.knows a
  have hmay : s.call a ≠ .idle → s.mayCall a = true := h.mayCall
  have hgive : ∀ {c : Call}, s.call a ≠ .idle → (s.call a).holds = true → c.holds = false →
      (c = .startRun ↔ s.call a = .startRun) → Ok ({ s with threadMutex := none }.setCall a c) := by
    intro c hbusy hheld hc hrun
    exact h.setCall (h.mayCall hbusy) (h.owner_give (h.mayCall hbusy) hheld hc)
      (Call.knows_of_not_holds hc _ _) (.inr ⟨rfl, rfl⟩) (or_congr_right hrun) h.leaving
  unfold State.callStep at hs
  cases hc : s.call a <;> rw [hc] at hs hknows hmay <;> simp only at hs
  case idle => cases hs
  case startLock | stopLock =>
    split_ifs at hs with hfree
    cases hs
    have hmay := hmay Call.noConfusion
    exact h.setCall hmay (h.owner_take hmay hfree rfl) trivial (.inr ⟨rfl, rfl⟩)
      (by rw [hc]; simp) h.leaving
  case startCheck | stopCheck =>
    cases hs
    have hmay := hmay Call.noConfusion
    cases hrun : s.threadRunning with
    | false => exact h.goOn hmay (by rw [hc]; rfl) (by exact hrun) (by simp [hc])
    | true => exact h.goOn hmay (by rw [hc]; rfl) (by exact hrun) (by simp [hc])
  case startClear =>
    cases hs
    have hmay := hmay Call.noConfusion
    have hheld : s.holds a = true := holds_of_call (by rw [hc]; rfl)
    refine h.setCall hmay (h.owner_keep hmay (by rw [hc]; rfl)) ⟨hknows, rfl⟩ (.inl hheld)
      (by simp [hc]) fun n hn => ?_
    -- no thread is on its way out: none is live
    have hdead := h.not_live hheld hknows (by rw [hc]; exact Call.noConfusion) n
    rw [Loop.live_of_leaves hn] at hdead
    cases hdead
  case startCreate =>
    split_ifs at hs
    · cases hs
      exact h.create hc
    · cases hs
      exact h.goOn (hmay Call.noConfusion) (by rw [hc]; rfl) hknows.1 (by simp [hc])
  case startRun =>
    cases hs
    have hmay := hmay Call.noConfusion
    exact h.setCall hmay (h.owner_keep hmay (by rw [hc]; rfl)) rfl
      (.inl (holds_of_call (by rw [hc]; rfl))) (by simp [hc]) h.leaving
  case startUnlock =>
    cases hs
    exact hgive (by rw [hc]; exact Call.noConfusion) (by rw [hc]; rfl) rfl (by simp [hc])
  case stopRefuse | stopUnlock =>
    cases hs
    exact hgive (by rw [hc]; exact Call.noConfusion) (by rw [hc]; rfl) rfl (by simp [hc])
  case stopRequest =>
    cases hs
    have hmay := hmay Call.noConfusion
    exact h.setCall hmay (h.owner_keep hmay (by rw [hc]; rfl)) ⟨hknows, rfl⟩
      (.inl (holds_of_call (by rw [hc]; rfl))) (by simp [hc]) fun _ _ => rfl
  case stopJoin =>
    split_ifs at hs
    cases hs
    exact h.goOn (hmay Call.noConfusion) (by rw [hc]; rfl) trivial (by simp [hc])

section Loop

variable {l : Loop}

omit [DecidableEq Caller] in
theorem holds_setLoop_self (hidle : s.call (.server n) = .idle) :
    (s.setLoop n l).holds (.server n) = l.holds := by
  have hsame : (s.setLoop n l).call (.server n) = .idle := hidle
  rw [holds, hsame, setLoop_loop_self]
  rfl

omit [DecidableEq Caller] in
theorem Ok.calling_setLoop (h : Ok s) (hidle : s.call (.server n) = .idle) (m : ℕ)
    (hcall : s.call (.server m) ≠ .idle) : (s.setLoop n l).loop m = .tick := by
  have hm : m ≠ n := by
    rintro rfl
    exact hcall hidle
  rw [setLoop_loop_of_ne hm]
  exact h.calling m hcall

omit [DecidableEq Caller] in
theorem Ok.absent_setLoop (h : Ok s) (hcreated : s.loop n ≠ .absent) (hl : l ≠ .absent) (m : ℕ) :
    (s.setLoop n l).loop m = .absent ↔ s.created ≤ m := by
  rw [← h.absent m]
  by_cases hm : m = n
  · rw [hm, setLoop_loop_self]
    exact iff_of_false hl hcreated
  · rw [setLoop_loop_of_ne hm]

omit [DecidableEq Caller] in
/-- **The next statement of a thread** that is as live after it as before. -/
theorem Ok.setLoop {mutex : Option (Agent Caller)} (h : Ok s)
    (hidle : s.call (.server n) = .idle) (hcreated : s.loop n ≠ .absent) (hl : l ≠ .absent)
    (howner : Owns mutex (s.setLoop n l).holds) (hlive : l.live = (s.loop n).live)
    (hleaving : l.leaves = true → s.threadStopRequested = true) :
    Ok ({ s with threadMutex := mutex }.setLoop n l) := by
  have hsame : ∀ m, ((s.setLoop n l).loop m).live = (s.loop m).live := by
    intro m
    by_cases hm : m = n
    · rw [hm, setLoop_loop_self, hlive]
    · rw [setLoop_loop_of_ne hm]
  refine ⟨howner, h.knows, h.calling_setLoop hidle, h.absent_setLoop hcreated hl, ?_, ?_, ?_⟩
  · intro m hm
    exact h.last m ((hsame m).symm.trans hm)
  · exact (exists_congr fun m => by rw [← hsame m]; rfl).trans h.serving
  · intro m hm
    by_cases hmn : m = n
    · rw [hmn] at hm
      exact hleaving ((congrArg Loop.leaves setLoop_loop_self).symm.trans hm)
    · exact h.leaving m ((congrArg Loop.leaves (setLoop_loop_of_ne hmn)).symm.trans hm)

omit [DecidableEq Caller] in
/-- A thread that clears `thread_running`: it was the only live one. -/
theorem Ok.clear (h : Ok s) (hn : s.loop n = .clear) :
    Ok ({ s with threadRunning := false }.setLoop n .unlock) := by
  have hidle : s.call (.server n) = .idle := h.call_server (by rw [hn]; decide)
  have hheld : s.holds (.server n) = true := by
    rw [h.holds_server (by rw [hn]; decide), hn]
    rfl
  have hlast : ∀ m, ((s.setLoop n .unlock).loop m).live = false := by
    intro m
    by_cases hm : m = n
    · rw [hm, setLoop_loop_self]
      rfl
    · rw [setLoop_loop_of_ne hm]
      cases hlive : (s.loop m).live with
      | false => rfl
      | true =>
        have hone := h.last n (by rw [hn]; rfl)
        have htwo := h.last m hlive
        exact absurd (by omega) hm
  refine ⟨?_, ?_, h.calling_setLoop hidle, h.absent_setLoop (by rw [hn]; decide) (by decide), ?_,
    ?_, ?_⟩
  · refine h.owner.keep fun b => ?_
    by_cases hb : b = .server n
    · rw [hb, hheld]
      exact holds_setLoop_self hidle
    · exact holds_setLoop_of_ne hb
  · intro b
    by_cases hb : b = .server n
    · show (s.call b).knows false s.threadStopRequested
      rw [hb, hidle]
      trivial
    · exact h.knows_of_ne hheld hb _ _
  · intro m hm
    exact absurd (hm.symm.trans (hlast m)) (by decide)
  · refine iff_of_false ?_ ?_
    · rintro ⟨m, hm⟩
      exact absurd (hm.symm.trans (hlast m)) (by decide)
    · rintro (hrun | hrun)
      · cases hrun
      · have hstart := (h.exists_startRun_iff hheld).mp hrun
        rw [hidle] at hstart
        cases hstart
  · intro m hm
    exact absurd ((Loop.live_of_leaves hm).symm.trans (hlast m)) (by decide)

end Loop

/-- **A statement of a thread keeps the invariant.** -/
theorem Ok.threadStep (h : Ok s) (hs : s.threadStep n = some s') : Ok s' := by
  have hidle : s.loop n ≠ .tick → s.call (.server n) = .idle := h.call_server
  have hself : s.call (.server n) = .idle → ∀ {l : Loop}, s.loop n ≠ .tick →
      l.holds = (s.loop n).holds → Owns s.threadMutex (s.setLoop n l).holds := by
    intro hidle l hn hl
    refine h.owner.keep fun b => ?_
    by_cases hb : b = .server n
    · rw [hb, holds_setLoop_self hidle, hl, h.holds_server hn]
    · exact holds_setLoop_of_ne hb
  unfold State.threadStep at hs
  cases hl : s.loop n <;> rw [hl] at hs hidle <;> simp only at hs
  case absent | dead => cases hs
  case head =>
    cases hs
    have hidle := hidle Loop.noConfusion
    cases hreq : s.threadStopRequested with
    | false =>
      exact h.setLoop hidle (by simp [hl]) Loop.noConfusion (hself hidle (by simp [hl]) (by rw [hl]; rfl))
        (by rw [hl]; rfl) (fun h => by cases h)
    | true =>
      exact h.setLoop hidle (by simp [hl]) Loop.noConfusion (hself hidle (by simp [hl]) (by rw [hl]; rfl))
        (by rw [hl]; rfl) (fun _ => hreq)
  case tick =>
    split_ifs at hs with hidle
    cases hs
    refine h.setLoop hidle (by simp [hl]) Loop.noConfusion ?_ (by rw [hl]; rfl) (fun h => by cases h)
    refine h.owner.keep fun b => ?_
    by_cases hb : b = .server n
    · rw [hb, holds_setLoop_self hidle, holds, hidle, hl]
      rfl
    · exact holds_setLoop_of_ne hb
  case sleep | exit =>
    cases hs
    have hidle := hidle Loop.noConfusion
    exact h.setLoop hidle (by simp [hl]) Loop.noConfusion (hself hidle (by simp [hl]) (by rw [hl]; rfl))
      (by rw [hl]; rfl) (fun h => by cases h)
  case lock =>
    split_ifs at hs with hfree
    cases hs
    have hidle := hidle Loop.noConfusion
    have hown : Owns none s.holds := hfree ▸ h.owner
    refine h.setLoop hidle (by simp [hl]) Loop.noConfusion ?_ (by rw [hl]; rfl)
      (fun _ => h.leaving n (by rw [hl]; rfl))
    exact hown.take (holds_setLoop_self hidle) fun b hb => holds_setLoop_of_ne hb
  case clear =>
    cases hs
    exact h.clear hl
  case unlock =>
    cases hs
    have hidle := hidle Loop.noConfusion
    refine h.setLoop hidle (by simp [hl]) Loop.noConfusion ?_ (by rw [hl]; rfl) (fun h => by cases h)
    refine h.owner.give (a := .server n) ?_ (holds_setLoop_self hidle)
      fun b hb => holds_setLoop_of_ne hb
    rw [h.holds_server (by simp [hl]), hl]
    rfl

theorem Ok.step {e : Event Caller} (h : Ok s) (hs : s.step e = some s') : Ok s' := by
  cases e with
  | begin a op => exact h.begin hs
  | call a k => exact h.callStep hs
  | thread n => exact h.threadStep hs

end State

/-- The invariant holds in every reachable state. -/
theorem ok_of_reachable [DecidableEq Caller] {s : State Caller}
    (h : (machine Caller).Reachable s) : s.Ok :=
  h.invariant (fun _ hs => hs ▸ State.ok_init) fun _ _ _ hok hs => hok.step hs

/-! ## One thread at a time -/

section Exclusive

variable [DecidableEq Caller] {s : State Caller} {a : Agent Caller}

/-- **At most one thread ticks**, and what the functions find and answer
is so: a thread is created only where none is live; with the mutex free
`thread_running` tells whether one is; and when a call gives the mutex
back, `start` answers other than `-ENOMEM` exactly where one is live, and
`stop` refuses only where none is. -/
theorem thread_exclusive (h : (machine Caller).Reachable s) :
    (∀ m n, (s.loop m).live = true → (s.loop n).live = true → m = n) ∧
      (s.call a = .startCreate → ∀ n, (s.loop n).live = false) ∧
      (s.threadMutex = none → (s.threadRunning = true ↔ ∃ n, (s.loop n).live = true)) ∧
      (∀ ret, s.call a = .startUnlock ret → (ret ≠ -ENOMEM ↔ ∃ n, (s.loop n).live = true)) ∧
      (s.call a = .stopRefuse → ∀ n, (s.loop n).live = false) := by
  have hok := ok_of_reachable h
  have hknows := hok.knows a
  have hheld : (s.call a).holds = true → s.call a ≠ .startRun →
      ((∃ n, (s.loop n).live = true) ↔ s.threadRunning = true) := by
    intro hheld hrun
    rw [hok.serving, hok.exists_startRun_iff (State.holds_of_call hheld)]
    exact or_iff_left hrun
  refine ⟨?_, ?_, ?_, ?_, ?_⟩
  · intro m n hm hn
    have hone := hok.last m hm
    have htwo := hok.last n hn
    omega
  · intro hc
    rw [hc] at hknows
    exact hok.not_live (State.holds_of_call (by rw [hc]; rfl)) hknows.1 (by simp [hc])
  · intro hfree
    rw [hok.serving]
    refine (or_iff_left ?_).symm
    rintro ⟨b, hb⟩
    have hown := (hok.owner b).mp (State.holds_of_call (by rw [hb]; rfl))
    rw [hfree] at hown
    cases hown
  · intro ret hc
    have hrun : s.threadRunning = decide (ret ≠ -ENOMEM) := by
      rw [hc] at hknows
      exact hknows
    rw [hheld (by rw [hc]; rfl) (by simp [hc]), hrun, decide_eq_true_iff]
  · intro hc
    rw [hc] at hknows
    exact hok.not_live (State.holds_of_call (by rw [hc]; rfl)) hknows (by simp [hc])

/-- After a start, the flag says that a thread is live. -/
theorem thread_exclusive_started : ∃ s : State Unit,
    s.threadMutex = none ∧ (s.threadRunning = true ↔ ∃ n, (s.loop n).live = true) := by
  have hstep : ∀ (s : State Unit) e s', True → s.step e = some s' → (machine Unit).Step s e s' :=
    fun _ _ _ _ hs => hs
  have hstarted := Machine.Reachable.foldlM hstep
    (.begin (.caller ()) .start :: List.replicate 6 (.call (.caller ()) true)) (.init rfl)
    (fun _ _ => trivial) rfl
  exact ⟨_, rfl, (thread_exclusive hstarted (a := .caller ())).2.2.1 rfl⟩

end Exclusive

end Thread

end Iso14229

end Ardep
