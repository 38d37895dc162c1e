import Ardep.BusSample.Run
/-!
# Bus sample — the routine comes to its end

Where nothing fails, the time is not up and no further start is requested, a
started routine has one thing to happen next at every moment: a `Stage`
says which, and each event leads to the stage after it. So no order of
things blocks the chain, and the routine has its result after as many
events as `left` counts.
-/

namespace Ardep

namespace BusSample

/-- The stages of a routine, those between with the board they are at. -/
inductive Stage
  | submitted
  | running
  | filtered
  | onBus (j : ℕ)
  | queued (i : ℕ)
  | copied (i : ℕ)
  | arrived
  | taken
  | removed
  | done

namespace Stage

/-- The stage after a stage, in a chain of `n` boards. -/
def next (n : ℕ) : Stage → Stage
  | submitted => running
  | running => filtered
  | filtered => onBus 0
  | onBus j => if j = n - 1 then arrived else queued (j + 1)
  | queued i => copied i
  | copied i => onBus i
  | arrived => taken
  | taken => removed
  | removed => done
  | done => done

/-- The events that are left. -/
def left (n : ℕ) : Stage → ℕ
  | submitted => 3 * n + 4
  | running => 3 * n + 3
  | filtered => 3 * n + 2
  | onBus j => 3 * (n - 1 - j) + 4
  | queued i => 3 * (n - i) + 3
  | copied i => 3 * (n - i) + 2
  | arrived => 3
  | taken => 2
  | removed => 1
  | done => 0

/-- Where the routine is. -/
def phase : Stage → RoutinePhase
  | submitted => .submitted
  | running => .running
  | filtered => .filtered
  | onBus _ | queued _ | copied _ | arrived => .sent
  | taken => .taken true
  | removed => .removed true
  | done => .idle

/-- The board whose frame is on its way. -/
def sender : Stage → Option ℕ
  | onBus j => some j
  | _ => none

/-- The board whose work is submitted. -/
def queuedAt : Stage → Option ℕ
  | queued i => some i
  | _ => none

/-- The board whose work has copied the frame. -/
def copiedAt : Stage → Option ℕ
  | copied i => some i
  | _ => none

end Stage

namespace Chain

variable {C : Chain}

/-- **The routine is at a stage.** -/
structure At (C : Chain) (st : Stage) (s : State) : Prop where
  ok : Ok C s
  phase : s.ctl.phase = st.phase
  bus : s.bus.map Prod.fst = st.sender.toList
  queued : ∀ i, (s.work i).queued = true ↔ st.queuedAt = some i
  copied : ∀ i, (s.work i).toSend ≠ none ↔ st.copiedAt = some i
  sem : s.ctl.sem = true ↔ st = .arrived
  filter : (st = .filtered ∨ s.ctl.phase = .sent) → s.ctl.filter = true
  status : st = .done → s.ctl.status = 0x00

/-- **Nothing fails**: every send and the filter are accepted, frames come to
the filter of the routine, the semaphore is taken once it is given, and
nobody asks for another start. -/
def Smooth (s : State) : Event → Prop
  | .transmit _ served => served = .own
  | .send _ accepted => accepted = true
  | .addFilter added _ => added = true
  | .sendFirst accepted => accepted = true
  | .take => s.ctl.sem = true
  | .startRoutine => False
  | _ => True

namespace At

variable {s s' : State} {st : Stage}

theorem start (h : Started s) : At C .submitted s where
  ok := Ok.start h
  phase := h.phase
  bus := by rw [h.bus]; rfl
  queued := fun i => iff_of_false (by rw [(h.work i).1]; decide) (by rintro ⟨⟩)
  copied := fun i => iff_of_false (not_not.mpr (h.work i).2) (by rintro ⟨⟩)
  sem := iff_of_false (by rw [h.sem]; decide) (by rintro ⟨⟩)
  filter := fun hwait => by
    rw [h.phase] at hwait
    rcases hwait with hwait | hwait <;> cases hwait
  status := (by rintro ⟨⟩)

/-- A frame that is on its way is one of a board. -/
theorem of_mem_bus (h : At C st s) {p : ℕ × CanFrame} (hp : p ∈ s.bus) :
    st = .onBus p.1 ∧ s.bus = [p] := by
  have hmem : p.1 ∈ st.sender.toList := by
    rw [← h.bus]
    exact List.mem_map_of_mem hp
  have hst : st = .onBus p.1 := by
    cases st with
    | onBus j =>
      rw [List.mem_singleton.mp hmem]
    | _ => cases hmem
  refine ⟨hst, ?_⟩
  have hbus := h.bus
  rw [hst] at hbus
  have hlen : s.bus.length = 1 := (List.length_map Prod.fst).symm.trans (congrArg List.length hbus)
  obtain ⟨q, hq⟩ := List.length_eq_one_iff.mp hlen
  rw [hq] at hp ⊢
  rw [List.mem_singleton.mp hp]

/-- A step that only the controller takes. -/
theorem withCtl (h : At C st s) {st' : Stage} {ctl : ControllerState}
    (hok : Ok C { s with ctl := ctl }) (hphase : ctl.phase = st'.phase)
    (hsender : st.sender = none ∧ st'.sender = none)
    (hqueued : st.queuedAt = none ∧ st'.queuedAt = none)
    (hcopied : st.copiedAt = none ∧ st'.copiedAt = none)
    (hsem : ctl.sem = true ↔ st' = .arrived)
    (hfilter : (st' = .filtered ∨ ctl.phase = .sent) → ctl.filter = true)
    (hstatus : st' = .done → ctl.status = 0x00) : At C st' { s with ctl := ctl } where
  ok := hok
  phase := hphase
  bus := by rw [hsender.2, ← hsender.1]; exact h.bus
  queued := fun i => by rw [hqueued.2, ← hqueued.1]; exact h.queued i
  copied := fun i => by rw [hcopied.2, ← hcopied.1]; exact h.copied i
  sem := hsem
  filter := hfilter
  status := hstatus

/-- The stage of a phase that no other stage has. -/
theorem stage_eq (h : At C st s) :
    (s.ctl.phase = .submitted → st = .submitted) ∧ (s.ctl.phase = .running → st = .running) ∧
      (s.ctl.phase = .filtered → st = .filtered) ∧
      (∀ ret, s.ctl.phase = .taken ret → st = .taken ∧ ret = true) ∧
      (∀ ret, s.ctl.phase = .removed ret → st = .removed ∧ ret = true) := by
  have hphase := h.phase
  cases st <;> simp [hphase, Stage.phase, eq_comm]

/-- What happens is in time. -/
theorem inTime (h : At C st s) {e : Event} (hsmooth : Smooth s e) : InTime s e := by
  refine ⟨fun k served he p hp _ => ?_, fun he => ?_⟩
  · subst he
    obtain ⟨rfl, -⟩ := h.of_mem_bus (List.mem_of_getElem? hp)
    exact ⟨hsmooth, .inr h.phase⟩
  · subst he
    cases hsmooth

/-- The state once a frame has come to whoever gets it, with none on its
way. -/
def received (C : Chain) (j : ℕ) (s : State) : State where
  work := fun i => C.canRx j (C.frameAt j) i (s.work i)
  ctl := controllerRoutineRx j (C.frameAt j) .own s.ctl
  bus := []

/-- No work is under way while a frame is. -/
theorem work_onBus {j : ℕ} (h : At C (.onBus j) s) (i : ℕ) :
    (s.work i).queued = false ∧ (s.work i).toSend = none :=
  ⟨Bool.eq_false_iff.mpr (fun hq => by cases (h.queued i).mp hq),
    by_contra (fun hc => by cases (h.copied i).mp hc)⟩

/-- The frame of the last board arrives. -/
theorem arrive (hC : C.Ready) {j : ℕ} (hj : j < C.n) (hlast : j = C.n - 1)
    (h : At C (.onBus j) s) (hok : Ok C (received C j s)) : At C .arrived (received C j s) := by
  have hfilter := h.filter (.inr h.phase)
  have hctl : (received C j s).ctl =
      { s.ctl with sem := true, controllerReceivedFrame := C.frameAt j } := by
    rw [received, controllerRoutineRx,
      if_pos ((reaches_frameAt_iff hC hj s.ctl).mpr ⟨hlast, .inl hfilter⟩)]
  have hwork : ∀ i, (received C j s).work i = s.work i := fun i => by
    show C.canRx j (C.frameAt j) i (s.work i) = s.work i
    rw [canRx_frameAt hC hj, if_neg (by omega)]
  refine ⟨hok, ?_, rfl, fun i => ?_, fun i => ?_, ?_, fun _ => ?_, (by rintro ⟨⟩)⟩
  · rw [hctl]
    exact h.phase
  · rw [hwork, (h.work_onBus i).1]
    exact iff_of_false Bool.false_ne_true (by rintro ⟨⟩)
  · rw [hwork, (h.work_onBus i).2]
    exact iff_of_false (not_not.mpr rfl) (by rintro ⟨⟩)
  · simp only [hctl]
  · rw [hctl]
    exact hfilter

/-- That of another board is for the next one. -/
theorem forward (hC : C.Ready) {j : ℕ} (hj : j < C.n) (hlast : j ≠ C.n - 1)
    (h : At C (.onBus j) s) (hok : Ok C (received C j s)) :
    At C (.queued (j + 1)) (received C j s) := by
  have hctl : (received C j s).ctl = s.ctl :=
    if_neg fun hreach => hlast ((reaches_frameAt_iff hC hj s.ctl).mp hreach).1
  have hsem : ¬ s.ctl.sem = true := fun hgiven => by cases h.sem.mp hgiven
  refine ⟨hok, ?_, rfl, fun i => ?_, fun i => ?_, ?_, fun _ => ?_, (by rintro ⟨⟩)⟩
  · rw [hctl]
    exact h.phase
  · simp only [received, canRx_frameAt hC hj]
    by_cases hi : i = j + 1
    · rw [if_pos ⟨hi, by omega⟩]
      exact iff_of_true rfl (congrArg some hi.symm)
    · rw [if_neg fun hboth => hi hboth.1, (h.work_onBus i).1]
      exact iff_of_false Bool.false_ne_true fun heq => hi (Option.some.inj heq).symm
  · simp only [received, canRx_frameAt hC hj]
    split_ifs <;> exact iff_of_false (not_not.mpr (h.work_onBus i).2) (by rintro ⟨⟩)
  · rw [hctl]
    exact iff_of_false hsem (by rintro ⟨⟩)
  · rw [hctl]
    exact h.filter (.inr h.phase)

/-- The frame goes to the next worker, or arrives. -/
theorem transmit (hC : C.Ready) (h : At C st s) {k : ℕ}
    (hs : C.step s (.transmit k .own) = some s') : At C (st.next C.n) s' ∧ st ≠ .done := by
  have hok := h.ok.step hC (h.inTime (e := .transmit k .own) rfl) hs
  simp only [Chain.step] at hs
  cases hp : s.bus[k]? with
  | none => rw [hp] at hs; cases hs
  | some p =>
    obtain ⟨j, frame⟩ := p
    have hmem := List.mem_of_getElem? hp
    obtain ⟨hj, rfl⟩ : j < C.n ∧ frame = C.frameAt j := h.ok.bus _ hmem
    obtain ⟨hst, hbus⟩ := h.of_mem_bus hmem
    have hst : st = .onBus j := hst
    subst hst
    have hempty : s.bus.eraseIdx k = [] := by
      have hk : k = 0 := by
        rw [hbus] at hp
        cases k with
        | zero => rfl
        | succ k => simp at hp
      rw [hbus, hk]
      rfl
    simp only [hp, hempty] at hs
    split_ifs at hs
    obtain rfl : received C j s = s' := Option.some.inj hs
    refine And.intro ?_ (by rintro ⟨⟩)
    by_cases hlast : j = C.n - 1
    · rw [show Stage.next C.n (.onBus j) = .arrived from if_pos hlast]
      exact h.arrive hC hj hlast hok
    · rw [show Stage.next C.n (.onBus j) = .queued (j + 1) from if_neg hlast]
      exact h.forward hC hj hlast hok

/-- The work that is submitted copies the frame. -/
theorem copy (h : At C st s) {i : ℕ} (hok : Ok C s') (hs : C.step s (.copy i) = some s') :
    At C (st.next C.n) s' ∧ st ≠ .done := by
  simp only [Chain.step] at hs
  split_ifs at hs with hen
  obtain rfl := Option.some.inj hs
  have hst : st = .queued i := by
    have hqueued := (h.queued i).mp hen.2.1
    cases st <;> simp_all [Stage.queuedAt]
  subst hst
  refine And.intro ⟨hok, h.phase, h.bus, fun m => ?_, fun m => ?_, h.sem.trans ?_,
    fun _ => h.filter (.inr h.phase), (by rintro ⟨⟩)⟩ (by rintro ⟨⟩)
  · simp only
    by_cases hmi : m = i
    · subst hmi
      simp [Stage.next, Stage.queuedAt]
    · rw [Function.update_of_ne hmi]
      refine iff_of_false (fun hq => hmi ?_) (by rintro ⟨⟩)
      exact (Option.some.inj ((h.queued m).mp hq)).symm
  · simp only
    by_cases hmi : m = i
    · subst hmi
      simp [Stage.next, Stage.copiedAt]
    · rw [Function.update_of_ne hmi]
      exact iff_of_false (fun hc => by cases (h.copied m).mp hc)
        fun heq => hmi (Option.some.inj heq).symm
  · exact iff_of_false (by rintro ⟨⟩) (by rintro ⟨⟩)

/-- And sends its own. -/
theorem send (h : At C st s) {i : ℕ} {accepted : Bool} (hok : Ok C s')
    (hsmooth : Smooth s (.send i accepted)) (hs : C.step s (.send i accepted) = some s') :
    At C (st.next C.n) s' ∧ st ≠ .done := by
  obtain rfl : accepted = true := hsmooth
  simp only [Chain.step] at hs
  cases hto : (s.work i).toSend with
  | none => rw [hto] at hs; cases hs
  | some toSend =>
    simp only [hto] at hs
    split_ifs at hs with hi
    obtain rfl := Option.some.inj hs
    have hst : st = .copied i := by
      have hcopied := (h.copied i).mp (by rw [hto]; exact Option.some_ne_none _)
      cases st <;> simp_all [Stage.copiedAt]
    subst hst
    have hbus : s.bus = [] := List.map_eq_nil_iff.mp h.bus
    refine And.intro ⟨hok, h.phase, ?_, fun m => ?_, fun m => ?_, h.sem.trans ?_,
      fun _ => h.filter (.inr h.phase), (by rintro ⟨⟩)⟩ (by rintro ⟨⟩)
    · simp only [hbus]
      rfl
    · simp only
      by_cases hmi : m = i
      · subst hmi
        rw [Function.update_self]
        exact iff_of_false (fun hq => by cases (h.queued m).mp hq) (by rintro ⟨⟩)
      · rw [Function.update_of_ne hmi]
        exact iff_of_false (fun hq => by cases (h.queued m).mp hq) (by rintro ⟨⟩)
    · simp only
      by_cases hmi : m = i
      · subst hmi
        rw [Function.update_self]
        exact iff_of_false (not_not.mpr rfl) (by rintro ⟨⟩)
      · rw [Function.update_of_ne hmi]
        refine iff_of_false (fun hc => hmi ?_) (by rintro ⟨⟩)
        exact (Option.some.inj ((h.copied m).mp hc)).symm
    · exact iff_of_false (by rintro ⟨⟩) (by rintro ⟨⟩)

/-- **An event leads to the next stage.** -/
theorem step (hC : C.Ready) (h : At C st s) {e : Event} (hsmooth : Smooth s e)
    (hs : C.step s e = some s') : At C (st.next C.n) s' ∧ st ≠ .done := by
  have hok := h.ok.step hC (h.inTime hsmooth) hs
  obtain ⟨hsubmitted, hrunning, hfiltered, htaken, hremoved⟩ := h.stage_eq
  cases e with
  | transmit k served =>
    obtain rfl : served = .own := hsmooth
    exact h.transmit hC hs
  | copy i => exact h.copy hok hs
  | send i accepted => exact h.send hok hsmooth hs
  | startRoutine => cases hsmooth
  | begin =>
    simp only [Chain.step] at hs
    split_ifs at hs with hphase
    obtain rfl := Option.some.inj hs
    obtain rfl := hsubmitted hphase
    exact And.intro (h.withCtl hok rfl ⟨rfl, rfl⟩ ⟨rfl, rfl⟩ ⟨rfl, rfl⟩
      (h.sem.trans (iff_of_false (by rintro ⟨⟩) (by rintro ⟨⟩)))
      (by simp [Stage.next]) (by rintro ⟨⟩)) (by rintro ⟨⟩)
  | addFilter added uninitialised =>
    simp only [Chain.step] at hs
    split_ifs at hs with hphase
    obtain rfl := Option.some.inj hs
    obtain rfl := hrunning hphase
    exact And.intro (h.withCtl hok rfl ⟨rfl, rfl⟩ ⟨rfl, rfl⟩ ⟨rfl, rfl⟩
      (h.sem.trans (iff_of_false (by rintro ⟨⟩) (by rintro ⟨⟩)))
      (fun _ => hsmooth) (by rintro ⟨⟩)) (by rintro ⟨⟩)
  | sendFirst accepted =>
    obtain rfl : accepted = true := hsmooth
    simp only [Chain.step] at hs
    split_ifs at hs with hphase
    obtain rfl := Option.some.inj hs
    obtain rfl := hfiltered hphase
    have hbus : s.bus = [] := List.map_eq_nil_iff.mp h.bus
    refine And.intro ⟨hok, rfl, ?_, h.queued, h.copied, h.sem.trans ?_,
      fun _ => h.filter (.inl rfl), (by rintro ⟨⟩)⟩ (by rintro ⟨⟩)
    · simp only [hbus]
      rfl
    · exact iff_of_false (by rintro ⟨⟩) (by rintro ⟨⟩)
  | take =>
    have hgiven : s.ctl.sem = true := hsmooth
    obtain rfl := h.sem.mp hgiven
    simp only [Chain.step] at hs
    split_ifs at hs with hphase
    obtain rfl := Option.some.inj hs
    exact And.intro (h.withCtl hok (by rw [hgiven]; rfl) ⟨rfl, rfl⟩ ⟨rfl, rfl⟩ ⟨rfl, rfl⟩
      (iff_of_false (by rintro ⟨⟩) (by rintro ⟨⟩))
      (by simp [Stage.next]) (by rintro ⟨⟩)) (by rintro ⟨⟩)
  | removeFilter =>
    simp only [Chain.step] at hs
    cases hphase : s.ctl.phase with
    | taken ret =>
      rw [hphase] at hs
      obtain rfl := Option.some.inj hs
      obtain ⟨rfl, rfl⟩ := htaken ret hphase
      exact And.intro (h.withCtl hok rfl ⟨rfl, rfl⟩ ⟨rfl, rfl⟩ ⟨rfl, rfl⟩
        (h.sem.trans (iff_of_false (by rintro ⟨⟩) (by rintro ⟨⟩)))
        (by simp [Stage.next]) (by rintro ⟨⟩)) (by rintro ⟨⟩)
    | _ => rw [hphase] at hs; cases hs
  | finish =>
    simp only [Chain.step] at hs
    cases hphase : s.ctl.phase with
    | removed ret =>
      rw [hphase] at hs
      obtain ⟨rfl, rfl⟩ := hremoved ret hphase
      obtain rfl := Option.some.inj hs
      exact And.intro (h.withCtl hok rfl ⟨rfl, rfl⟩ ⟨rfl, rfl⟩ ⟨rfl, rfl⟩
        (h.sem.trans (iff_of_false (by rintro ⟨⟩) (by rintro ⟨⟩)))
        (by simp [Stage.next]) fun _ => rfl) (by rintro ⟨⟩)
    | _ => rw [hphase] at hs; cases hs

/-- A stage between is at a board. -/
theorem board (h : At C st s) :
    (∀ j, st = .onBus j → j < C.n) ∧ (∀ i, st = .queued i → 0 < i ∧ i < C.n) ∧
      ∀ i, st = .copied i → 0 < i ∧ i < C.n := by
  refine ⟨fun j hst => ?_, fun i hst => ?_, fun i hst => ?_⟩
  · have hbus := h.bus
    rw [hst] at hbus
    have hmem : j ∈ s.bus.map Prod.fst := by
      rw [hbus]
      exact List.mem_singleton.mpr rfl
    obtain ⟨p, hp, rfl⟩ := List.mem_map.mp hmem
    exact (h.ok.bus p hp).1
  · obtain ⟨h0, hi, -⟩ := h.ok.received i (.inl ((h.queued i).mpr (by rw [hst]; rfl)))
    exact ⟨h0, hi⟩
  · obtain ⟨h0, hi, -⟩ := h.ok.received i (.inr ((h.copied i).mpr (by rw [hst]; rfl)))
    exact ⟨h0, hi⟩

/-- An event is one less to come. -/
theorem left_next (hC : C.Ready) (h : At C st s) (hst : st ≠ .done) :
    (st.next C.n).left C.n + 1 = st.left C.n := by
  have htwo := hC.two_le
  obtain ⟨hbus, hqueued, hcopied⟩ := h.board
  cases st with
  | onBus j =>
    have hj := hbus j rfl
    have hnext : Stage.next C.n (.onBus j) =
        if j = C.n - 1 then .arrived else .queued (j + 1) := rfl
    rw [hnext]
    split_ifs <;> simp only [Stage.left] <;> omega
  | queued i => rfl
  | copied i =>
    have hi := hcopied i rfl
    simp only [Stage.next, Stage.left]
    omega
  | filtered =>
    simp only [Stage.next, Stage.left]
    omega
  | done => exact absurd rfl hst
  | _ => rfl

/-- There is an event until the routine is done. -/
theorem progress (h : At C st s) (hst : st ≠ .done) :
    ∃ e, Smooth s e ∧ (C.step s e).isSome := by
  obtain ⟨-, hqueued, hcopied⟩ := h.board
  have hphase := h.phase
  cases st with
  | submitted =>
    refine ⟨.begin, trivial, ?_⟩
    simp only [Chain.step, hphase, Stage.phase, if_true, Option.isSome_some]
  | running =>
    refine ⟨.addFilter true s.ctl.controllerReceivedFrame, rfl, ?_⟩
    simp only [Chain.step, hphase, Stage.phase, if_true, Option.isSome_some]
  | filtered =>
    refine ⟨.sendFirst true, rfl, ?_⟩
    simp only [Chain.step, hphase, Stage.phase, if_true, Option.isSome_some]
  | onBus j =>
    have hlen : s.bus.length = 1 :=
      (List.length_map Prod.fst).symm.trans (congrArg List.length h.bus)
    obtain ⟨p, hp⟩ := List.length_eq_one_iff.mp hlen
    have hserves : Serves s.ctl .own := .inl (h.filter (.inr hphase))
    refine ⟨.transmit 0 .own, rfl, ?_⟩
    simp only [Chain.step, hp, List.getElem?_cons_zero, if_pos hserves, Option.isSome_some]
  | queued i =>
    have hnone : (s.work i).toSend = none := by_contra fun hc => by cases (h.copied i).mp hc
    refine ⟨.copy i, trivial, ?_⟩
    simp only [Chain.step]
    rw [if_pos ⟨(hqueued i rfl).2, (h.queued i).mpr rfl, hnone⟩, Option.isSome_some]
  | copied i =>
    obtain ⟨toSend, hto⟩ := Option.ne_none_iff_exists'.mp ((h.copied i).mpr rfl)
    refine ⟨.send i true, rfl, ?_⟩
    simp only [Chain.step, hto, if_pos (hcopied i rfl).2, Option.isSome_some]
  | arrived =>
    refine ⟨.take, h.sem.mpr rfl, ?_⟩
    simp only [Chain.step, hphase, Stage.phase, if_true, Option.isSome_some]
  | taken =>
    refine ⟨.removeFilter, trivial, ?_⟩
    simp only [Chain.step, hphase, Stage.phase, Option.isSome_some]
  | removed =>
    refine ⟨.finish, trivial, ?_⟩
    simp only [Chain.step, hphase, Stage.phase, Option.isSome_some]
  | done => exact absurd rfl hst

end At

end Chain

/-- The events of the routine of two boards, in the only order there is. -/
def twoBoardsEvents : List Event :=
  [.begin, .addFilter true emptyFrame, .sendFirst true, .transmit 0 .own, .copy 1, .send 1 true,
    .transmit 0 .own, .take, .removeFilter, .finish]

theorem run_step {C : Chain} {past : List (State × Event)} {s s' : State} (e : Event)
    (h : (C.machine.guard Chain.Smooth).Run past s) (hsmooth : Chain.Smooth s e)
    (hs : C.step s e = some s') : (C.machine.guard Chain.Smooth).Run (past ++ [(s, e)]) s' :=
  h.step ⟨hsmooth, hs⟩

end BusSample

end Ardep
