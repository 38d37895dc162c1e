import Ardep.Uds.Dispatch.Model
/-!
# Dispatch — which functions an event reaches, and in which order

`Behaviour.traced` runs the same functions and logs each call with what
it returned. What the log of one event looks like is said in terms of
visits: a visit is the check of a registration and, where it ran, its
action. `exists_visit` is one round of a loop and
`exists_visits` a whole loop.
-/

namespace Ardep

namespace Uds

namespace Dispatch

variable {C A U Arg σ : Type}

theorem bind_run {τ β γ : Type} (x : StateM τ β) (f : β → StateM τ γ) (t : τ) :
    (x >>= f) t = f (x t).1 (x t).2 := rfl

theorem pure_run {τ β : Type} (b : β) (t : τ) : (pure b : StateM τ β) t = (b, t) := rfl

/-! ## Traced functions -/

/-- A call of a registration's check or action, with what it returned and
left in its out-parameter. -/
inductive Call (C A U : Type)
  | check (reg : Registration C A U) (ret : UDSErr) (applyAction : Bool)
  | action (reg : Registration C A U) (ret : UDSErr) (consumeEvent : Bool)
  deriving DecidableEq

/-- The registration whose function was called. -/
def Call.reg : Call C A U → Registration C A U
  | .check reg _ _ => reg
  | .action reg _ _ => reg

/-- The functions with their calls logged beside the state. -/
def traced (β : Behaviour (StateM σ) C A U Arg) :
    Behaviour (StateM (σ × List (Call C A U))) C A U Arg where
  check := fun f context b t =>
    let ((ret, b), world) := β.check f context b t.1
    ((ret, b), world, t.2 ++ [.check context.registration ret b])
  action := fun f context b t =>
    let ((ret, b), world) := β.action f context b t.1
    ((ret, b), world, t.2 ++ [.action context.registration ret b])

/-! ## Visits -/

/-- A registration that was reached: what its check returned, and what its
action returned if it ran. -/
structure Visit (C A U : Type) where
  reg : Registration C A U
  checkRet : UDSErr
  applyAction : Bool
  acted : Option (UDSErr × Bool)

namespace Visit

/-- The calls of a visit. -/
def calls (v : Visit C A U) : List (Call C A U) :=
  .check v.reg v.checkRet v.applyAction ::
    match v.acted with
    | some (ret, consumeEvent) => [.action v.reg ret consumeEvent]
    | none => []

/-- What the visit returned: the action's value, or the check's where no
action ran. -/
def ret (v : Visit C A U) : UDSErr :=
  match v.acted with
  | some (ret, _) => ret
  | none => v.checkRet

/-- The error the visit ended with. -/
def error? (v : Visit C A U) : Option UDSErr := if v.ret = .ok then none else some v.ret

/-- The action consumed the event. -/
def consumed (v : Visit C A U) : Bool :=
  match v.acted with
  | some (_, consumeEvent) => consumeEvent
  | none => false

/-- The visit is the last one: it failed or it consumed the event. -/
def stops (v : Visit C A U) : Prop := v.ret ≠ .ok ∨ v.consumed = true

instance (v : Visit C A U) : Decidable v.stops := inferInstanceAs (Decidable (_ ∨ _))

/-- The action ran and succeeded. -/
def matched (v : Visit C A U) : Bool := v.acted.isSome && decide (v.ret = .ok)

/-- The action ran exactly when the check let it and there is one. -/
def Faithful (handler : EventHandlerData C A U) (v : Visit C A U) : Prop :=
  v.acted.isSome ↔
    v.checkRet = .ok ∧ v.applyAction = true ∧ (handler.getAction v.reg).isSome

theorem reg_of_mem_calls {v : Visit C A U} {c : Call C A U} (h : c ∈ v.calls) :
    c.reg = v.reg := by
  unfold calls at h
  rcases List.mem_cons.mp h with rfl | h
  · rfl
  · split at h
    · rw [List.mem_singleton.mp h]; rfl
    · cases h

end Visit

/-- The entry serves the registration: its type matches and it has a
check. -/
def Serves (handler : EventHandlerData C A U) (reg : Registration C A U) : Prop :=
  reg.type = handler.registrationType ∧ (handler.getCheck reg).isSome

instance (handler : EventHandlerData C A U) (reg : Registration C A U) :
    Decidable (Serves handler reg) := inferInstanceAs (Decidable (_ ∧ _))

section Walk

variable {β : Behaviour (StateM σ) C A U Arg} {handler : EventHandlerData C A U}
variable {inst : InstancePtr} {event : UDSEvent} {arg : Arg}

/-- A registration the entry does not serve is passed over. -/
theorem udsCheckAndActOnEvent_of_not_serves {m : Type → Type} [Monad m]
    {β : Behaviour m C A U Arg} {context : Context C A U Arg} {found consume : Bool}
    (h : ¬ Serves handler context.registration) :
    udsCheckAndActOnEvent β context handler found consume = pure (.ok, found, false) := by
  unfold udsCheckAndActOnEvent
  by_cases htype : context.registration.type = handler.registrationType
  · have hnone : handler.getCheck context.registration = none := by
      by_contra hne
      exact h ⟨htype, Option.isSome_iff_ne_none.mpr hne⟩
    simp [htype, hnone]
  · simp [htype]

/-- **One round.** A registration the entry serves gets one visit, whose
calls are logged, and the round reports the visit. -/
theorem exists_visit (context : Context C A U Arg) (found consume : Bool) (w : σ)
    (log : List (Call C A U)) (h : Serves handler context.registration) :
    ∃ (v : Visit C A U) (w' : σ), v.reg = context.registration ∧ v.Faithful handler ∧
      udsCheckAndActOnEvent (traced β) context handler found consume (w, log) =
        ((v.ret, found || v.matched, v.consumed), w', log ++ v.calls) ∧
      udsCheckAndActOnEvent β context handler found consume w =
        ((v.ret, found || v.matched, v.consumed), w') := by
  obtain ⟨htype, hsome⟩ := h
  obtain ⟨check, hcheck⟩ := Option.isSome_iff_exists.mp hsome
  rcases hc : β.check check context false w with ⟨⟨ret, apply⟩, w1⟩
  have hstay : ∀ acts : ret ≠ .ok ∨ apply = false ∨ handler.getAction context.registration = none,
      Visit.Faithful handler ⟨context.registration, ret, apply, none⟩ := by
    intro acts
    unfold Visit.Faithful
    rcases acts with hne | hap | hno
    · simp [hne]
    · simp [hap]
    · simp [hno]
  -- the check fails, or declines, or lets the action run if there is one
  by_cases hret : ret = .ok
  · cases hap : apply with
    | false =>
      refine ⟨⟨context.registration, ret, apply, none⟩, w1, rfl, hstay (.inr (.inl hap)),
        ?_, ?_⟩ <;>
        simp [udsCheckAndActOnEvent, traced, htype, hcheck, hc, hret, hap, bind_run,
          pure_run, Visit.ret, Visit.consumed, Visit.matched, Visit.calls]
    | true =>
      cases hact : handler.getAction context.registration with
      | none =>
        refine ⟨⟨context.registration, ret, apply, none⟩, w1, rfl, hstay (.inr (.inr hact)),
          ?_, ?_⟩ <;>
          simp [udsCheckAndActOnEvent, traced, htype, hcheck, hc, hret, hap, hact, bind_run,
            pure_run, Visit.ret, Visit.consumed, Visit.matched, Visit.calls, -bind_pure_comp]
      | some action =>
        rcases ha : β.action action context consume w1 with ⟨⟨ret', consumed⟩, w2⟩
        refine ⟨⟨context.registration, ret, apply, some (ret', consumed)⟩, w2, rfl,
          by simp [Visit.Faithful, hret, hap, hact], ?_, ?_⟩ <;>
          by_cases hret' : ret' = .ok <;>
          simp [udsCheckAndActOnEvent, traced, htype, hcheck, hc, hret, hap, hact, ha, hret',
            bind_run, pure_run, Visit.ret, Visit.consumed, Visit.matched, Visit.calls]
  · refine ⟨⟨context.registration, ret, apply, none⟩, w1, rfl, hstay (.inl hret), ?_, ?_⟩ <;>
      simp [udsCheckAndActOnEvent, traced, htype, hcheck, hc, hret, bind_run, pure_run, Visit.ret,
        Visit.consumed, Visit.matched, Visit.calls]

/-- **A walk over registrations.** The visits go through the served ones
in order from the first, an action runs when it should, no visit follows
one that stopped the walk, and a walk nothing stopped has visited them
all. -/
structure Walked (handler : EventHandlerData C A U) (regs : List (Registration C A U))
    (visits : List (Visit C A U)) : Prop where
  order : visits.map (·.reg) <+: regs.filter (Serves handler)
  faithful : ∀ v ∈ visits, v.Faithful handler
  last : visits.Pairwise fun v _ => ¬ v.stops
  complete : (∀ v ∈ visits, ¬ v.stops) → visits.map (·.reg) = regs.filter (Serves handler)

namespace Walked

variable {regs regs' : List (Registration C A U)} {reg : Registration C A U}
variable {visits visits' : List (Visit C A U)} {v : Visit C A U}

theorem nil : Walked handler [] ([] : List (Visit C A U)) :=
  ⟨by simp, by simp, .nil, by simp⟩

theorem skip (hs : ¬ Serves handler reg) (h : Walked handler regs visits) :
    Walked handler (reg :: regs) visits := by
  have hfilter : (reg :: regs).filter (Serves handler) = regs.filter (Serves handler) := by
    simp [hs]
  exact ⟨hfilter ▸ h.order, h.faithful, h.last, hfilter ▸ h.complete⟩

theorem stop (hs : Serves handler v.reg) (hf : v.Faithful handler) (hstop : v.stops) :
    Walked handler (v.reg :: regs) [v] where
  order := by simp [hs]
  faithful := by simpa using hf
  last := by simp
  complete := fun hno => absurd hstop (hno v (by simp))

theorem cons (hs : Serves handler v.reg) (hf : v.Faithful handler) (hgo : ¬ v.stops)
    (h : Walked handler regs visits) : Walked handler (v.reg :: regs) (v :: visits) where
  order := by simpa [hs] using h.order
  faithful := List.forall_mem_cons.mpr ⟨hf, h.faithful⟩
  last := List.pairwise_cons.mpr ⟨fun _ _ => hgo, h.last⟩
  complete := fun hno => by
    simpa [hs] using h.complete fun u hu => hno u (List.mem_cons_of_mem _ hu)

/-- A stopped walk is one over any longer list. -/
theorem append_of_stops (h : Walked handler regs visits) (rest : List (Registration C A U))
    (hstop : ∃ v ∈ visits, v.stops) : Walked handler (regs ++ rest) visits where
  order := by
    rw [List.filter_append]
    exact h.order.trans (List.prefix_append _ _)
  faithful := h.faithful
  last := h.last
  complete := fun hno => by
    obtain ⟨v, hv, hs⟩ := hstop
    exact absurd hs (hno v hv)

/-- A walk nothing stopped goes on into what follows. -/
theorem append (h : Walked handler regs visits) (hgo : ∀ v ∈ visits, ¬ v.stops)
    (h' : Walked handler regs' visits') : Walked handler (regs ++ regs') (visits ++ visits') where
  order := by
    rw [List.filter_append, List.map_append, h.complete hgo]
    exact (List.prefix_append_right_inj _).mpr h'.order
  faithful := fun v hv => (List.mem_append.mp hv).elim (h.faithful v) (h'.faithful v)
  last := List.pairwise_append.mpr ⟨h.last, h'.last, fun v hv _ _ => hgo v hv⟩
  complete := fun hno => by
    rw [List.filter_append, List.map_append, h.complete hgo,
      h'.complete fun v hv => hno v (List.mem_append_right _ hv)]

end Walked

/-- How a loop ends: it returns what the stopping visit returned, or goes
to its end. -/
def outcome (visits : List (Visit C A U)) (found : Bool) : Except UDSErr Bool :=
  match visits.find? (fun v => decide v.stops) with
  | some v => .error v.ret
  | none => .ok (found || visits.any (·.matched))

/-- **A whole loop.** It makes a walk over its registrations, whatever the
functions do; tracing changes nothing but the log. -/
theorem exists_visits (β : Behaviour (StateM σ) C A U Arg) (handler : EventHandlerData C A U)
    (inst : InstancePtr) (event : UDSEvent) (arg : Arg) (consume : Bool) :
    ∀ (regs : List (Registration C A U)) (found : Bool) (w : σ) (log : List (Call C A U)),
      ∃ (visits : List (Visit C A U)) (w' : σ), Walked handler regs visits ∧
        handleRegistrations (traced β) inst event arg handler consume regs found (w, log) =
          (outcome visits found, w', log ++ visits.flatMap (·.calls)) ∧
        handleRegistrations β inst event arg handler consume regs found w =
          (outcome visits found, w') := by
  intro regs
  induction regs with
  | nil =>
    intro found w log
    exact ⟨[], w, .nil, by simp [handleRegistrations, outcome, pure_run],
      by simp [handleRegistrations, outcome, pure_run]⟩
  | cons reg regs ih =>
    intro found w log
    by_cases hs : Serves handler reg
    · obtain ⟨v, w1, hreg, hfaithful, hrun, hplain⟩ :=
        exists_visit (β := β) ⟨inst, reg, event, arg⟩ found consume w log hs
      simp only at hreg
      subst hreg
      by_cases hstop : v.stops
      · refine ⟨[v], w1, .stop hs hfaithful hstop, ?_, ?_⟩
        all_goals
          have hor : v.consumed = true ∨ v.ret ≠ .ok := hstop.symm
          simp only [handleRegistrations, bind_run, hrun, hplain, if_pos hor]
          simp [outcome, hstop, pure_run]
      · obtain ⟨visits, w2, hw, hrun', hplain'⟩ :=
          ih (found || v.matched) w1 (log ++ v.calls)
        refine ⟨v :: visits, w2, .cons hs hfaithful hstop hw, ?_, ?_⟩
        all_goals
          have hor : ¬ (v.consumed = true ∨ v.ret ≠ .ok) := fun h => hstop h.symm
          simp only [handleRegistrations, bind_run, hrun, hplain, if_neg hor, hrun',
            hplain']
          simp [outcome, hstop, Bool.or_assoc]
    · obtain ⟨visits, w1, hw, hrun, hplain⟩ := ih found w log
      refine ⟨visits, w1, hw.skip hs, ?_, ?_⟩
      · rw [handleRegistrations, udsCheckAndActOnEvent_of_not_serves hs]
        simpa [bind_run, pure_run] using hrun
      · rw [handleRegistrations, udsCheckAndActOnEvent_of_not_serves hs]
        simpa [bind_run, pure_run] using hplain

/-- The answer to an event: the error of the visit that failed, and else
whether an action ran. -/
def answer (handler : EventHandlerData C A U) (visits : List (Visit C A U)) : UDSErr :=
  match visits.findSome? (·.error?) with
  | some err => err
  | none => if visits.any (·.acted.isSome) then .positiveResponse else handler.defaultNrc

theorem Visit.error?_of_not_stops {v : Visit C A U} (h : ¬ v.stops) : v.error? = none := by
  unfold Visit.error?
  rw [if_pos (by_contra fun hne => h (.inl hne))]

/-- With no visit stopping, an action that ran succeeded. -/
theorem Visit.acted_of_not_stops {v : Visit C A U} (h : ¬ v.stops) :
    v.acted.isSome = v.matched := by
  have hret : v.ret = .ok := by_contra fun hne => h (.inl hne)
  simp [Visit.matched, hret]

/-- What the loops return is the answer: where a visit stopped the walk
its return value, and else whether a visit matched. -/
theorem answer_eq_outcome {regs : List (Registration C A U)} {visits : List (Visit C A U)}
    (h : Walked handler regs visits) :
    answer handler visits =
      match outcome visits false with
      | .error ret => ret
      | .ok found => if found then .positiveResponse else handler.defaultNrc := by
  have hlast := h.last
  clear h
  unfold outcome
  cases hfind : visits.find? (fun v => decide v.stops) with
  | none =>
    have hgo : ∀ v ∈ visits, ¬ v.stops := by simpa using hfind
    have herr : visits.findSome? (·.error?) = none :=
      List.findSome?_eq_none_iff.mpr fun v hv => Visit.error?_of_not_stops (hgo v hv)
    have hany : visits.any (·.acted.isSome) = visits.any (·.matched) := by
      rw [Bool.eq_iff_iff, List.any_eq_true, List.any_eq_true]
      exact exists_congr fun v => and_congr_right fun hv => by
        rw [Visit.acted_of_not_stops (hgo v hv)]
    simp [answer, herr, hany]
  | some v =>
    obtain ⟨hstop, pre, post, rfl, hpre⟩ := List.find?_eq_some_iff_append.mp hfind
    have hstop : v.stops := by simpa using hstop
    have hpre : ∀ u ∈ pre, ¬ u.stops := by simpa using hpre
    -- nothing follows the visit that stopped
    have hpost : post = [] := by
      cases post with
      | nil => rfl
      | cons u post =>
        have hv := (List.pairwise_append.mp hlast).2.1
        exact absurd hstop ((List.pairwise_cons.mp hv).1 u List.mem_cons_self)
    subst hpost
    have herr : pre.findSome? (·.error?) = none :=
      List.findSome?_eq_none_iff.mpr fun u hu => Visit.error?_of_not_stops (hpre u hu)
    by_cases hret : v.ret = .ok
    · have hact : v.acted.isSome := by
        rcases hstop with hne | hcons
        · exact absurd hret hne
        · unfold Visit.consumed at hcons
          split at hcons
          · next heq => rw [heq]; rfl
          · cases hcons
      have hnone : v.error? = none := if_pos hret
      simp [answer, herr, hnone, hret, hact]
    · have hsome : v.error? = some v.ret := if_neg hret
      simp [answer, herr, hsome]

/-- **A whole event** makes a walk over the static registrations and then
the dynamic ones. -/
theorem exists_walk (β : Behaviour (StateM σ) C A U Arg) (handler : EventHandlerData C A U)
    (inst : InstancePtr) (event : UDSEvent) (arg : Arg)
    (statics dynamics : List (Registration C A U)) (w : σ) :
    ∃ (visits : List (Visit C A U)) (w' : σ),
      udsHandleEvent (traced β) inst event arg handler statics dynamics (w, []) =
        (answer handler visits, w', visits.flatMap (·.calls)) ∧
      udsHandleEvent β inst event arg handler statics dynamics w = (answer handler visits, w') ∧
      Walked handler (statics ++ dynamics) visits := by
  obtain ⟨visits, w1, hwalk, hrun, hplain⟩ :=
    exists_visits β handler inst event arg true statics false w []
  by_cases hstop : ∃ v ∈ visits, v.stops
  · -- a static registration ended the event, and the dynamic ones are not reached
    have hall := hwalk.append_of_stops dynamics hstop
    obtain ⟨u, hu⟩ : ∃ u, outcome visits false = .error u := by
      unfold outcome
      cases hfind : visits.find? (fun v => decide v.stops) with
      | none =>
        obtain ⟨v, hv, hs⟩ := hstop
        simp only [List.find?_eq_none, decide_eq_true_eq] at hfind
        exact absurd hs (hfind v hv)
      | some v => exact ⟨_, rfl⟩
    have hanswer := answer_eq_outcome hall
    rw [hu] at hanswer hrun hplain
    refine ⟨visits, w1, ?_, ?_, hall⟩
    · simp only [udsHandleEvent, bind_run, hrun]
      simp [pure_run, hanswer]
    · simp only [udsHandleEvent, bind_run, hplain]
      simp [pure_run, hanswer]
  · have hgo : ∀ v ∈ visits, ¬ v.stops := fun v hv hs => hstop ⟨v, hv, hs⟩
    have hfind : visits.find? (fun v => decide v.stops) = none := by simpa using hgo
    obtain ⟨visits', w2, hwalk', hrun', hplain'⟩ :=
      exists_visits β handler inst event arg false dynamics (visits.any (·.matched)) w1
        (visits.flatMap (·.calls))
    have hall := hwalk.append hgo hwalk'
    have hok : outcome visits false = .ok (visits.any (·.matched)) := by
      simp [outcome, hfind]
    have hjoin : outcome (visits ++ visits') false =
        outcome visits' (visits.any (·.matched)) := by
      simp [outcome, hfind, List.find?_append]
    have hanswer := answer_eq_outcome hall
    rw [hjoin] at hanswer
    rw [hok, List.nil_append] at hrun
    rw [hok] at hplain
    refine ⟨visits ++ visits', w2, ?_, ?_, hall⟩
    · simp only [udsHandleEvent, bind_run, hrun, hrun', List.flatMap_append]
      rw [hanswer]
      cases outcome visits' (visits.any (·.matched)) <;> rfl
    · simp only [udsHandleEvent, bind_run, hplain, hplain']
      rw [hanswer]
      cases outcome visits' (visits.any (·.matched)) <;> rfl

/-- **Checks in order, actions when they should, one answer.** Whatever
the functions do, an event makes a walk over the static registrations and
then the dynamic ones: the check of each served registration at most once
and in order; the action of a visited one exactly when its check returned
`UDS_OK` with `apply_action` set and there is an action; nothing after an
error or a consumed event, and everything where neither came. The answer
is the first error, and else positive exactly when an action ran, the
default otherwise. The log is of the calls the event really makes: tracing
them does not change its answer or its effect. The functions do not change
the lists. -/
theorem udsHandleEvent_walks (β : Behaviour (StateM σ) C A U Arg)
    (handler : EventHandlerData C A U) (inst : InstancePtr) (event : UDSEvent) (arg : Arg)
    (statics dynamics : List (Registration C A U)) (w : σ) :
    ∃ (visits : List (Visit C A U)) (w' : σ),
      udsHandleEvent (traced β) inst event arg handler statics dynamics (w, []) =
        (answer handler visits, w', visits.flatMap (·.calls)) ∧
      udsHandleEvent β inst event arg handler statics dynamics w = (answer handler visits, w') ∧
      visits.map (·.reg) <+: (statics ++ dynamics).filter (Serves handler) ∧
      (∀ v ∈ visits, v.acted.isSome ↔
        v.checkRet = .ok ∧ v.applyAction = true ∧ (handler.getAction v.reg).isSome) ∧
      (visits.Pairwise fun v _ => ¬ v.stops) ∧
      ((∀ v ∈ visits, ¬ v.stops) →
        visits.map (·.reg) = (statics ++ dynamics).filter (Serves handler)) := by
  obtain ⟨visits, w', hrun, hplain, hwalk⟩ :=
    exists_walk β handler inst event arg statics dynamics w
  exact ⟨visits, w', hrun, hplain, hwalk.order, hwalk.faithful, hwalk.last, hwalk.complete⟩

end Walk

/-! ## Instances -/

/-- The calls an event makes. -/
def invoked (β : Behaviour (StateM σ) C A U Arg) (handler : EventHandlerData C A U)
    (inst : InstancePtr) (event : UDSEvent) (arg : Arg)
    (statics dynamics : List (Registration C A U)) (w : σ) : List (Call C A U) :=
  (udsHandleEvent (traced β) inst event arg handler statics dynamics (w, [])).2.2

/-- The registration is for the instance, or for none in particular. -/
def BelongsTo (inst : InstancePtr) (reg : Registration C A U) : Prop :=
  reg.inst = none ∨ reg.inst = some inst

instance (inst : InstancePtr) (reg : Registration C A U) : Decidable (BelongsTo inst reg) :=
  inferInstanceAs (Decidable (_ ∨ _))

/-- Functions of which every check passes without asking for the action:
no visit stops, so an event reaches every registration it can. -/
def passing : Behaviour (StateM Unit) C A U Arg where
  check := fun _ _ _ => pure (.ok, false)
  action := fun _ _ _ => pure (.ok, false)

section Passing

variable {handler : EventHandlerData C A U} {inst : InstancePtr} {event : UDSEvent} {arg : Arg}

/-- With `passing` functions a loop checks every registration it serves. -/
theorem handleRegistrations_passing (consume : Bool) :
    ∀ (regs : List (Registration C A U)) (found : Bool) (log : List (Call C A U)),
      handleRegistrations (traced passing) inst event arg handler consume regs found ((), log) =
        (.ok found, (), log ++ (regs.filter (Serves handler)).map (.check · .ok false)) := by
  intro regs
  induction regs with
  | nil => intro found log; simp [handleRegistrations, pure_run]
  | cons reg regs ih =>
    intro found log
    by_cases hs : Serves handler reg
    · obtain ⟨check, hcheck⟩ := Option.isSome_iff_exists.mp hs.2
      have hround : udsCheckAndActOnEvent (traced passing) ⟨inst, reg, event, arg⟩ handler found
          consume ((), log) = ((.ok, found, false), (), log ++ [.check reg .ok false]) := by
        simp [udsCheckAndActOnEvent, traced, passing, hs.1, hcheck, bind_run, pure_run]
      simp only [handleRegistrations, bind_run, hround]
      simp [ih, hs]
    · rw [handleRegistrations, udsCheckAndActOnEvent_of_not_serves hs]
      simp [bind_run, pure_run, ih, hs]

theorem invoked_passing (statics dynamics : List (Registration C A U)) :
    invoked passing handler inst event arg statics dynamics () =
      ((statics ++ dynamics).filter (Serves handler)).map (.check · .ok false) := by
  simp only [invoked, udsHandleEvent, bind_run, handleRegistrations_passing]
  simp [pure_run]

end Passing

/-- **Only an instance's own registrations**, exactly when there are no
others to reach. `uds_handle_event` never looks at `reg->instance`, so
whatever the functions do an event reaches only static registrations of
its instance (or of none) if and only if every static registration its
entry serves is one. The functions do not change the lists. -/
theorem invoked_belongsTo_iff (handler : EventHandlerData C A U) (inst : InstancePtr)
    (event : UDSEvent) (arg : Arg) (statics dynamics : List (Registration C A U)) :
    (∀ (σ : Type) (β : Behaviour (StateM σ) C A U Arg) (w : σ),
      ∀ c ∈ invoked β handler inst event arg statics dynamics w,
        c.reg ∈ statics → BelongsTo inst c.reg) ↔
      ∀ reg ∈ statics, Serves handler reg → BelongsTo inst reg := by
  constructor
  · intro h reg hreg hs
    refine h Unit passing () (.check reg .ok false) ?_ hreg
    rw [invoked_passing]
    exact List.mem_map.mpr ⟨reg, by simp [hreg, hs], rfl⟩
  · intro h σ β w c hc hstatic
    obtain ⟨visits, w', hrun, -, hwalk⟩ :=
      exists_walk β handler inst event arg statics dynamics w
    rw [invoked, hrun] at hc
    obtain ⟨v, hv, hcv⟩ := List.mem_flatMap.mp hc
    have hreg := v.reg_of_mem_calls hcv
    have hserved : v.reg ∈ (statics ++ dynamics).filter (Serves handler) :=
      hwalk.order.subset (List.mem_map_of_mem hv)
    rw [hreg] at hstatic ⊢
    exact h v.reg hstatic (by simpa using (List.mem_filter.mp hserved).2)

/-- Two servers: an event on instance 0 runs the ECU reset check of the
handler registered for instance 1. -/
theorem invoked_other_instance :
    ¬ ∀ (σ : Type) (β : Behaviour (StateM σ) (CheckFn ℕ) (ActionFn ℕ) Unit Unit) (w : σ),
      ∀ c ∈ invoked β
          (.ofActor .ecuReset .subFunctionNotSupported .ecuReset fun
            | .ecuReset ecuReset _ => some ecuReset
            | _ => none)
          0 .ecuReset () [⟨some 1, .ecuReset ⟨some (.app 7), some (.app 8)⟩ .null, 0, none⟩] [] w,
        c.reg ∈ [(⟨some 1, .ecuReset ⟨some (.app 7), some (.app 8)⟩ .null, 0, none⟩ :
          Registration (CheckFn ℕ) (ActionFn ℕ) Unit)] → BelongsTo 0 c.reg := by
  intro h
  have hmem := h Unit passing () (.check
    ⟨some 1, .ecuReset ⟨some (.app 7), some (.app 8)⟩ .null, 0, none⟩ .ok false)
    (by rw [invoked_passing]; decide) List.mem_cons_self
  exact absurd hmem (by decide)

end Dispatch

end Uds

end Ardep
