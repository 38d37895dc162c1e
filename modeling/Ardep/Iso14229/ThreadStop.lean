import Ardep.Iso14229.Thread
/-!
# The iso14229 thread — what a stop is good for

A stop asks the thread to end and waits for it. Here is what the caller of
`iso14229_zephyr_thread_stop` has from that, whoever else starts and stops
at the same time: the request is not lost (`stop_final`), and under a
discipline of the callers the memory of the thread is free when the next
one is made in it (`thread_data_free`).

The second needs the discipline. A thread clears `thread_running` before
it has ended, and a start that comes in between makes the next thread on
the same stack.
-/

namespace Ardep

namespace Iso14229

namespace Thread

variable {Caller : Type*}

/-! ## What a statement does to the threads -/

section Effect

variable [DecidableEq Caller] {s s' : State Caller} {e : Event Caller} {k n : ℕ}

namespace State

/-- What the threads and the request to stop see of a statement. -/
inductive Effect (s s' : State Caller) : Prop
  /-- A statement of a call that leaves the request or makes it. -/
  | call : s'.created = s.created → s'.loop = s.loop →
      (s.threadStopRequested = true → s'.threadStopRequested = true) → Effect s s'
  /-- A start takes the request back. -/
  | clear (a : Agent Caller) : s'.created = s.created → s'.loop = s.loop →
      s.call a = .startClear → Effect s s'
  /-- A start creates a thread. -/
  | create (a : Agent Caller) : s'.created = s.created + 1 → s'.loop = s.spawn.loop →
      s.call a = .startCreate → s'.threadStopRequested = s.threadStopRequested → Effect s s'
  /-- A thread goes on. -/
  | loop (n : ℕ) (l : Loop) : s'.created = s.created → s'.loop = (s.setLoop n l).loop →
      (l.live = true → (s.loop n).live = true) →
      s'.threadStopRequested = s.threadStopRequested → Effect s s'

theorem effect_of_step (hs : s.step e = some s') : Effect s s' := by
  cases e with
  | begin a op =>
    simp only [step, beginStep] at hs
    split_ifs at hs
    cases hs
    exact .call rfl rfl id
  | call a k =>
    simp only [step, callStep] at hs
    cases hc : s.call a <;> rw [hc] at hs <;> simp only at hs
    case idle => cases hs
    case startClear =>
      cases hs
      exact .clear a rfl rfl hc
    case startCreate =>
      split_ifs at hs
      · cases hs
        exact .create a rfl rfl hc rfl
      · cases hs
        exact .call rfl rfl id
    case startLock | stopLock | stopJoin =>
      split_ifs at hs
      cases hs
      exact .call rfl rfl id
    case stopRequest =>
      cases hs
      exact .call rfl rfl fun _ => rfl
    all_goals
      cases hs
      exact .call rfl rfl id
  | thread n =>
    simp only [step, threadStep] at hs
    cases hl : s.loop n <;> rw [hl] at hs <;> simp only at hs
    case absent | dead => cases hs
    case tick | lock =>
      split_ifs at hs
      cases hs
      exact .loop n _ rfl rfl (fun _ => by rw [hl]; rfl) rfl
    case unlock | exit =>
      cases hs
      exact .loop n _ rfl rfl (fun h => by cases h) rfl
    all_goals
      cases hs
      exact .loop n _ rfl rfl (fun _ => by rw [hl]; rfl) rfl

theorem created_le_of_step (hs : s.step e = some s') : s.created ≤ s'.created := by
  rcases effect_of_step hs with ⟨hc, -, -⟩ | ⟨-, hc, -, -⟩ | ⟨-, hc, -, -, -⟩ | ⟨-, -, hc, -, -, -⟩ <;>
    omega

/-- No thread comes back to its loop. -/
theorem live_of_step (hs : s.step e = some s') (hn : n < s.created)
    (hlive : (s'.loop n).live = true) : (s.loop n).live = true := by
  rcases effect_of_step hs with
    ⟨-, hl, -⟩ | ⟨-, -, hl, -⟩ | ⟨-, -, hl, -, -⟩ | ⟨m, l, -, hl, hkeep, -⟩ <;> rw [hl] at hlive
  · exact hlive
  · exact hlive
  · rwa [spawn_loop_of_ne (by omega)] at hlive
  · by_cases hm : n = m
    · rw [hm, setLoop_loop_self] at hlive
      exact hm ▸ hkeep hlive
    · rwa [setLoop_loop_of_ne hm] at hlive

/-- The request to stop is taken back only where no thread is live. -/
theorem Ok.requested_of_step (h : Ok s) (hs : s.step e = some s')
    (hreq : s.threadStopRequested = true) :
    s'.threadStopRequested = true ∨ ∀ n, (s.loop n).live = false := by
  rcases effect_of_step hs with
    ⟨-, -, hkeep⟩ | ⟨a, -, -, hc⟩ | ⟨-, -, -, -, hkeep⟩ | ⟨-, -, -, -, -, hkeep⟩
  · exact .inl (hkeep hreq)
  · have hknows := h.knows a
    rw [hc] at hknows
    exact .inr (h.not_live (holds_of_call (by rw [hc]; rfl)) hknows (by simp [hc]))
  · exact .inl (hkeep.trans hreq)
  · exact .inl (hkeep.trans hreq)

end State

end Effect

/-! ## A request to stop is not lost -/

section Stop

variable [DecidableEq Caller] {s s' t : State Caller} {e : Event Caller} {k n : ℕ}

namespace State

/-- The threads before the `k`-th are asked to end, or have come to it. -/
def Ending (k : ℕ) (s : State Caller) : Prop :=
  k ≤ s.created ∧ (s.threadStopRequested = true ∨ ∀ n, n < k → (s.loop n).live = false)

theorem Ok.ending_step (h : Ok s) (hs : s.step e = some s') (hk : s.Ending k) : s'.Ending k := by
  obtain ⟨hle, hending⟩ := hk
  have hkeep : (∀ n, n < k → (s.loop n).live = false) → ∀ n, n < k → (s'.loop n).live = false := by
    intro hdead n hn
    cases hlive : (s'.loop n).live with
    | false => rfl
    | true =>
      have hbefore := live_of_step hs (Nat.lt_of_lt_of_le hn hle) hlive
      rw [hdead n hn] at hbefore
      cases hbefore
  refine ⟨Nat.le_trans hle (created_le_of_step hs), ?_⟩
  rcases hending with hreq | hdead
  · exact (h.requested_of_step hs hreq).imp_right fun hdead => hkeep fun n _ => hdead n
  · exact .inr (hkeep hdead)

end State

/-- A stop that is accepted asks all threads that there are. -/
theorem ending_of_stopRequest {a : Agent Caller} {kThreadCreate : Bool}
    (hc : t.call a = .stopRequest) (hs : t.step (.call a kThreadCreate) = some s) :
    s.Ending t.created := by
  simp only [State.step, State.callStep, hc] at hs
  cases hs
  exact ⟨Nat.le_refl _, .inl rfl⟩

variable {past : List (State Caller × Event Caller)}

end Stop

/-! ## The memory of the thread -/

section Apart

variable [DecidableEq Caller]

/-- Only application threads call, and no start overlaps a stop. -/
def Apart (s : State Caller) : Event Caller → Prop
  | .begin a op => (∃ c, a = .caller c) ∧ ∀ b op', (s.call b).op = some op' → op' = op
  | _ => True

variable {s s' : State Caller} {e : Event Caller} {a : Agent Caller} {n : ℕ}

theorem Op.op_lock (op : Op) : op.lock.op = some op := by cases op <;> rfl

namespace Loop

/-- The thread has returned from its loop, or goes on to. -/
def leaving : Loop → Bool
  | .lock | .clear | .unlock | .exit => true
  | _ => false

end Loop

namespace State

/-- **The invariant where starts and stops keep apart**: as long as a
thread that was asked to end is not dead, a stop waits for it. -/
structure Joined (s : State Caller) : Prop where
  callers : ∀ n, s.call (.server n) = .idle
  apart : ∀ a b, (s.call a).op = some .start → (s.call b).op ≠ some .stop
  before : ∀ n, n + 1 < s.created → s.loop n = .dead
  waits : ∀ n, n < s.created → s.loop n ≠ .dead →
    s.threadStopRequested = true ∨ (s.loop n).leaving = true →
      ∃ a, s.call a = .stopUnlock ∨ s.call a = .stopJoin

omit [DecidableEq Caller] in
theorem joined_init : Joined (.init : State Caller) where
  callers _ := rfl
  apart _ _ h := by cases h
  before n h := absurd h (Nat.not_lt_zero _)
  waits n h := absurd h (Nat.not_lt_zero _)

omit [DecidableEq Caller] in
/-- Where a thread is created, all others are dead. -/
theorem Joined.dead_of_startCreate (hok : Ok s) (h : Joined s) (hc : s.call a = .startCreate)
    (hn : n < s.created) : s.loop n = .dead := by
  have hknows := hok.knows a
  rw [hc] at hknows
  have hlive := hok.not_live (holds_of_call (by rw [hc]; rfl)) hknows.1 (by simp [hc]) n
  by_contra hdead
  have hleaving : (s.loop n).leaving = true := by
    have habsent : s.loop n ≠ .absent := fun habs => absurd ((hok.absent n).mp habs) (by omega)
    cases hl : s.loop n <;> simp_all [Loop.live, Loop.leaving]
  obtain ⟨b, hb⟩ := h.waits n hn hdead (.inr hleaving)
  refine h.apart a b (by rw [hc]; rfl) ?_
  rcases hb with hb | hb <;> rw [hb] <;> rfl

/-- A statement of a call is one of the same call, or its last. -/
theorem op_of_callStep {kThreadCreate : Bool} (hs : s.callStep a kThreadCreate = some s')
    (b : Agent Caller) : s'.call b = .idle ∨ (s'.call b).op = (s.call b).op := by
  have hset : ∃ c, s'.call = Function.update s.call a c ∧ (c = .idle ∨ c.op = (s.call a).op) := by
    unfold callStep at hs
    cases hc : s.call a <;> rw [hc] at hs <;> simp only at hs
    case idle => cases hs
    case startCheck | stopCheck =>
      cases hs
      refine ⟨_, rfl, .inr ?_⟩
      split <;> rfl
    case startLock | stopLock =>
      split_ifs at hs
      cases hs
      exact ⟨_, rfl, .inr rfl⟩
    case stopJoin =>
      split_ifs at hs
      cases hs
      exact ⟨_, rfl, .inl rfl⟩
    case startCreate =>
      split_ifs at hs <;> cases hs
      · exact ⟨_, rfl, .inr rfl⟩
      · exact ⟨_, rfl, .inr rfl⟩
    case startUnlock | stopRefuse =>
      cases hs
      exact ⟨_, rfl, .inl rfl⟩
    all_goals
      cases hs
      exact ⟨_, rfl, .inr rfl⟩
  obtain ⟨c, hcall, hc⟩ := hset
  rw [hcall]
  by_cases hb : b = a
  · rw [hb, Function.update_self]
    exact hc
  · rw [Function.update_of_ne hb]
    exact .inr rfl

omit [DecidableEq Caller] in
/-- A stop that waits is still there after a statement of another call. -/
theorem Joined.waits_of_ne (h : Joined s) (hloop : s'.loop = s.loop)
    (hcreated : s'.created = s.created)
    (hreq : s'.threadStopRequested = true → s.threadStopRequested = true)
    (hcall : ∀ b, b ≠ a → s'.call b = s.call b)
    (ha : s.call a ≠ .stopUnlock ∧ s.call a ≠ .stopJoin) (hn : n < s'.created)
    (hdead : s'.loop n ≠ .dead)
    (hasked : s'.threadStopRequested = true ∨ (s'.loop n).leaving = true) :
    ∃ b, s'.call b = .stopUnlock ∨ s'.call b = .stopJoin := by
  rw [hloop] at hdead hasked
  obtain ⟨b, hb⟩ := h.waits n (hcreated ▸ hn) hdead (hasked.imp_left hreq)
  refine ⟨b, ?_⟩
  rw [hcall b]
  · exact hb
  · rintro rfl
    exact hb.elim ha.1 ha.2

omit [DecidableEq Caller] in
/-- A join from outside returns when all threads are dead. -/
theorem Joined.dead_of_joined [DecidableEq Caller] (h : Joined s) (ha : ∀ m, a ≠ .server m)
    (hjoined : s.joined a = true) (hn : n < s.created) : s.loop n = .dead := by
  by_cases hlast : n + 1 = s.created
  · unfold joined at hjoined
    rw [← hlast] at hjoined
    rcases of_decide_eq_true hjoined with hdead | hself
    · exact hdead
    · exact absurd hself (ha n)
  · exact h.before n (by omega)

theorem Joined.callStep {kThreadCreate : Bool} (hok : Ok s) (h : Joined s)
    (hs : s.callStep a kThreadCreate = some s') : Joined s' := by
  have hop := op_of_callStep hs
  have hapart : ∀ b c, (s'.call b).op = some .start → (s'.call c).op ≠ some .stop := by
    intro b c hb hc
    rcases hop b with hidle | hb'
    · rw [hidle] at hb
      cases hb
    · rcases hop c with hidle | hc'
      · rw [hidle] at hc
        cases hc
      · exact h.apart b c (hb' ▸ hb) (hc' ▸ hc)
  have hcallers : ∀ n, s'.call (.server n) = .idle := by
    intro n
    rcases hop (.server n) with hidle | hsame
    · exact hidle
    · rw [h.callers n] at hsame
      cases hc : s'.call (.server n) <;> rw [hc] at hsame <;> first | rfl | cases hsame
  have hne : ∀ {c : Call} b, b ≠ a → (s.setCall a c).call b = s.call b :=
    fun b hb => setCall_call_of_ne hb
  unfold State.callStep at hs
  cases hc : s.call a <;> rw [hc] at hs <;> simp only at hs
  case idle => cases hs
  case startLock | stopLock =>
    split_ifs at hs
    cases hs
    exact ⟨hcallers, hapart, h.before, fun n => h.waits_of_ne (a := a) rfl rfl id hne (by simp [hc])⟩
  case startCreate =>
    have hdead : ∀ n, n < s.created → s.loop n = .dead :=
      fun n hn => h.dead_of_startCreate hok hc hn
    split_ifs at hs
    · cases hs
      refine ⟨hcallers, hapart, ?_, ?_⟩
      · intro n hn
        have hn : n < s.created := Nat.lt_of_succ_lt_succ hn
        exact (spawn_loop_of_ne (by omega)).trans (hdead n hn)
      · intro n hn hnd hasked
        -- the new thread has not been asked, the others are dead
        have hloop : s.spawn.loop n ≠ .dead := hnd
        by_cases hnew : n = s.created
        · have hreq : s.threadStopRequested = false := by
            have hknows := hok.knows a
            rw [hc] at hknows
            exact hknows.2
          rcases hasked with hasked | hasked
          · exact absurd (hreq.symm.trans hasked) (by decide)
          · rw [hnew] at hasked
            have hhead : (s.spawn.loop s.created).leaving = true := hasked
            rw [spawn_loop_self] at hhead
            cases hhead
        · rw [spawn_loop_of_ne hnew] at hloop
          have hlt : n < s.created + 1 := hn
          exact absurd (hdead n (by omega)) hloop
    · cases hs
      exact ⟨hcallers, hapart, h.before,
        fun n => h.waits_of_ne (a := a) rfl rfl id hne (by simp [hc])⟩
  case startClear =>
    cases hs
    exact ⟨hcallers, hapart, h.before,
      fun n => h.waits_of_ne (a := a) rfl rfl (fun h => by cases h) hne (by simp [hc])⟩
  case stopRequest =>
    cases hs
    exact ⟨hcallers, hapart, h.before, fun n _ _ _ => ⟨a, .inl setCall_call_self⟩⟩
  case stopUnlock =>
    cases hs
    exact ⟨hcallers, hapart, h.before, fun n _ _ _ => ⟨a, .inr setCall_call_self⟩⟩
  case stopJoin =>
    split_ifs at hs with hjoined
    cases hs
    refine ⟨hcallers, hapart, h.before, fun n hn hnd _ => absurd (h.dead_of_joined ?_ hjoined hn) hnd⟩
    rintro m rfl
    rw [h.callers m] at hc
    cases hc
  all_goals
    cases hs
    exact ⟨hcallers, hapart, h.before, fun n => h.waits_of_ne (a := a) rfl rfl id hne (by simp [hc])⟩

omit [DecidableEq Caller] in
/-- **A statement of a thread** leaves a stop waiting for it. -/
theorem Joined.threadStep (hok : Ok s) (h : Joined s) (hs : s.threadStep n = some s') :
    Joined s' := by
  have hset : ∃ l, s'.loop = Function.update s.loop n l ∧ s'.call = s.call ∧
      s'.created = s.created ∧ s'.threadStopRequested = s.threadStopRequested ∧
      n < s.created ∧ s.loop n ≠ .dead ∧
      (l.leaving = true → s.threadStopRequested = true ∨ (s.loop n).leaving = true) := by
    have hlt : s.loop n ≠ .absent → n < s.created :=
      fun habs => Nat.lt_of_not_le fun hle => habs ((hok.absent n).mpr hle)
    unfold State.threadStep at hs
    cases hl : s.loop n <;> rw [hl] at hs hlt <;> simp only at hs
    case absent | dead => cases hs
    case head =>
      cases hs
      refine ⟨_, rfl, rfl, rfl, rfl, hlt Loop.noConfusion, Loop.noConfusion, fun hl => .inl ?_⟩
      by_contra hreq
      rw [if_neg hreq] at hl
      cases hl
    case tick =>
      split_ifs at hs
      cases hs
      exact ⟨_, rfl, rfl, rfl, rfl, hlt Loop.noConfusion, Loop.noConfusion, fun hl => by cases hl⟩
    case sleep =>
      cases hs
      exact ⟨_, rfl, rfl, rfl, rfl, hlt Loop.noConfusion, Loop.noConfusion, fun hl => by cases hl⟩
    case lock =>
      split_ifs at hs
      cases hs
      exact ⟨_, rfl, rfl, rfl, rfl, hlt Loop.noConfusion, Loop.noConfusion, fun _ => .inr rfl⟩
    all_goals
      cases hs
      exact ⟨_, rfl, rfl, rfl, rfl, hlt Loop.noConfusion, Loop.noConfusion, fun _ => .inr rfl⟩
  obtain ⟨l, hloop, hcall, hcreated, hreq, hn, hdead, hleaving⟩ := hset
  refine ⟨?_, ?_, ?_, ?_⟩
  · rw [hcall]
    exact h.callers
  · rw [hcall]
    exact h.apart
  · intro m hm
    rw [hcreated] at hm
    have hne : m ≠ n := by
      rintro rfl
      exact hdead (h.before m hm)
    rw [hloop, Function.update_of_ne hne]
    exact h.before m hm
  · intro m hm hnd hasked
    rw [hcall]
    rw [hcreated] at hm
    rw [hloop] at hnd hasked
    rw [hreq] at hasked
    by_cases hmn : m = n
    · rw [hmn, Function.update_self] at hasked
      exact h.waits n hn hdead (hasked.elim .inl hleaving)
    · rw [Function.update_of_ne hmn] at hnd hasked
      exact h.waits m hm hnd hasked

theorem Joined.begin {op : Op} (h : Joined s) (hapart : Apart s (.begin a op))
    (hs : s.beginStep a op = some s') : Joined s' := by
  obtain ⟨⟨c, rfl⟩, hother⟩ := hapart
  unfold beginStep at hs
  split_ifs at hs with hmay
  cases hs
  have hop : ∀ b o, ((s.setCall (.caller c) op.lock).call b).op = some o → o = op := by
    intro b o ho
    by_cases hb : b = .caller c
    · rw [hb, setCall_call_self, op.op_lock] at ho
      exact (Option.some.inj ho).symm
    · rw [setCall_call_of_ne hb] at ho
      exact hother b o ho
  refine ⟨?_, ?_, h.before, ?_⟩
  · intro n
    rw [setCall_call_of_ne (by simp)]
    exact h.callers n
  · intro b d hb hd
    exact absurd ((hop b _ hb).trans (hop d _ hd).symm) (by decide)
  · exact fun n => h.waits_of_ne (a := .caller c) rfl rfl id (fun b hb => setCall_call_of_ne hb)
      (by simp [hmay.2])

end State

/-- **The memory of a thread is free when the next one is made in it.**
`thread_data` and its stack are there once; where only application
threads call, and no start overlaps a stop, `k_thread_create` finds every
earlier thread dead. -/
theorem thread_data_free (h : ((machine Caller).guard Apart).Reachable s)
    (hc : s.call a = .startCreate) : ∀ n, n < s.created → s.loop n = .dead := by
  have hboth : s.Ok ∧ s.Joined := by
    refine h.invariant (P := fun s => s.Ok ∧ s.Joined) ?_ ?_
    · rintro _ rfl
      exact ⟨State.ok_init, State.joined_init⟩
    · rintro s e s' ⟨hok, hjoined⟩ ⟨hapart, hs⟩
      refine ⟨hok.step hs, ?_⟩
      cases e with
      | begin a op => exact hjoined.begin hapart hs
      | call a k => exact hjoined.callStep hok hs
      | thread n => exact hjoined.threadStep hok hs
  exact fun n => hboth.2.dead_of_startCreate hboth.1 hc

/-- The statements that are not the beginning of a call. -/
def Event.inside : Event Caller → Bool
  | .begin _ _ => false
  | _ => true

theorem reachable_inside (es : List (Event Caller))
    (h : ((machine Caller).guard Apart).Reachable s) (hes : ∀ e ∈ es, e.inside = true) (hrun : es.foldlM State.step s = some s') :
    ((machine Caller).guard Apart).Reachable s' := by
  have hstep : ∀ (s : State Caller) (e : Event Caller) s', e.inside = true →
      s.step e = some s' → ((machine Caller).guard Apart).Step s e s' := by
    intro s e s' he hs
    refine ⟨?_, hs⟩
    cases e with
    | begin a op => cases he
    | call a k => trivial
    | thread n => trivial
  exact Machine.Reachable.foldlM hstep es h hes hrun

/-- A call that begins while no other is under way, and what is done until
the next begins. -/
theorem reachable_call (c : Caller) (op : Op) (es : List (Event Caller))
    (h : ((machine Caller).guard Apart).Reachable s) (hidle : ∀ b, s.call b = .idle)
    (hes : ∀ e ∈ es, e.inside = true)
    (hrun : es.foldlM State.step (s.setCall (.caller c) op.lock) = some s') :
    ((machine Caller).guard Apart).Reachable s' := by
  have hapart : Apart s (.begin (.caller c) op) := by
    refine ⟨⟨c, rfl⟩, fun b op' hb => ?_⟩
    rw [hidle b] at hb
    cases hb
  have hbegin : s.step (.begin (.caller c) op) = some (s.setCall (.caller c) op.lock) := by
    rw [State.step, State.beginStep, if_pos ⟨rfl, hidle _⟩]
  exact reachable_inside es (h.step ⟨hapart, hbegin⟩) hes hrun

/-- After a start and a stop, the next start finds the first thread dead. -/
theorem thread_data_free_restart : ∃ s : State Unit,
    s.created = 1 ∧ s.call (.caller ()) = .startCreate ∧ s.loop 0 = .dead := by
  have hstarted := reachable_call () .start (List.replicate 6 (.call (.caller ()) true))
    (.init rfl) (fun _ => rfl) (by decide) rfl
  have hstopped := reachable_call () .stop
    (List.replicate 4 (.call (.caller ()) true) ++ List.replicate 5 (.thread 0) ++
      [.call (.caller ()) true]) hstarted (fun b => by cases b <;> rfl) (by decide) rfl
  have hagain := reachable_call () .start (List.replicate 3 (.call (.caller ()) true)) hstopped
    (fun b => by cases b <;> rfl) (by decide) rfl
  exact ⟨_, rfl, rfl, thread_data_free hagain (a := .caller ()) rfl 0 Nat.one_pos⟩

end Apart

end Thread

end Iso14229

end Ardep
