import Ardep.Uds.Dispatch.Order
import Ardep.Uds.Dispatch.Relate
import Ardep.Uds.Link.Model
/-!
# Link control — what an event comes to

The walk over the registrations, worked out for the events of a server. A
LinkControl event is answered by the first registration for them, as that
one always ends the walk (`raise_linkControl`). An event of the session
reaches every registration for it, and `raise_keeps` is the rule for what
they all leave alone.
-/

namespace Ardep

namespace Uds

namespace Link

/-- Setting a bitrate, call by call. -/
theorem udsSetCanBitrate_run {D : Type} (driver : CanDriver D) (baudRate : UInt32) (d : D) :
    udsSetCanBitrate driver baudRate d =
      if (driver.canStop d).1 ≠ 0 then (.conditionsNotCorrect, (driver.canStop d).2)
      else if (driver.canSetBitrate baudRate (driver.canStop d).2).1 ≠ 0 then
        (.conditionsNotCorrect,
          (driver.canStart (driver.canSetBitrate baudRate (driver.canStop d).2).2).2)
      else if (driver.canStart (driver.canSetBitrate baudRate (driver.canStop d).2).2).1 ≠ 0 then
        (.conditionsNotCorrect,
          (driver.canStart (driver.canSetBitrate baudRate (driver.canStop d).2).2).2)
      else (.ok, (driver.canStart (driver.canSetBitrate baudRate (driver.canStop d).2).2).2) := by
  unfold udsSetCanBitrate
  rw [Dispatch.bind_run, ite_apply]
  refine if_congr Iff.rfl rfl ?_
  rw [Dispatch.bind_run, ite_apply]
  refine if_congr Iff.rfl rfl ?_
  rw [Dispatch.bind_run, ite_apply]
  rfl

/-! ## The entries -/

section Entries

variable {F U : Type}

/-- The entry for LinkControl. -/
def linkControlHandler : EventHandlerData (CheckFn F) (ActionFn F) U :=
  .ofActor .linkControl .subFunctionNotSupported .linkControl fun
    | .linkControl actor => some actor
    | _ => none

/-- The entry for DiagSessCtrl. -/
def diagSessCtrlHandler : EventHandlerData (CheckFn F) (ActionFn F) U :=
  .ofActor .diagSessCtrl .positiveResponse .diagSessionCtrl fun
    | .diagSessionCtrl diagSessCtrl _ => some diagSessCtrl
    | _ => none

/-- The entry for SessionTimeout. -/
def sessionTimeoutHandler : EventHandlerData (CheckFn F) (ActionFn F) U :=
  .ofActor .sessionTimeout .positiveResponse .diagSessionCtrl fun
    | .diagSessionCtrl _ sessionTimeout => some sessionTimeout
    | _ => none

/-- The entry an event is handled with. -/
def Request.handler : Request → EventHandlerData (CheckFn F) (ActionFn F) U
  | .linkControl _ => linkControlHandler
  | .diagSessCtrl _ => diagSessCtrlHandler
  | .sessionTimeout => sessionTimeoutHandler

/-- It is the one the section has. -/
theorem find?_handler (request : Request) :
    eventHandlers.find? (·.event = request.event) = some (request.handler (F := F) (U := U)) := by
  cases request <;> rfl

end Entries

/-! ## The default handler in the section -/

section Installed

variable {F U D σ : Type}

/-- The registration names none of the functions of the default handler
for these events. -/
def OfApplication (q : Reg F U) : Prop :=
  ∀ request : Request,
    (∀ check, request.handler.getCheck q = some check →
      check ≠ .app .defaultLinkControl ∧ check ≠ .app .defaultLinkControlChangeDiagSession) ∧
    ∀ action, request.handler.getAction q = some action →
      action ≠ .app .defaultLinkControl ∧ action ≠ .app .defaultLinkControlChangeDiagSession

/-- **An instance with the default link control handler**: its two
registrations are in the section, and every other one, static or not, is
the application's or one of the same two for another instance. -/
structure Setup.Installed (S : Setup F U D σ) : Prop where
  linkControl : linkControlRegistration S.inst ∈ S.statics
  changeDiagSession : changeDiagSessionRegistration S.inst ∈ S.statics
  others : ∀ q, q ∈ S.statics ∨ S.Dynamic q → (∃ inst, q = linkControlRegistration inst) ∨
    (∃ inst, q = changeDiagSessionRegistration inst) ∨ OfApplication q

/-- The first registration for LinkControl is the default handler's, so it
answers them. -/
def Setup.First (S : Setup F U D σ) : Prop :=
  ∃ pre inst post, S.statics = pre ++ linkControlRegistration inst :: post ∧
    ∀ q ∈ pre, q.type ≠ .linkControl

variable {S : Setup F U D σ}

theorem raise_eq (request : Request) (dynamics : List (Reg F U)) :
    S.raise request dynamics = udsHandleEvent S.behaviour S.inst request.event request.args
      request.handler S.statics dynamics := by
  rw [Setup.raise, udsEventCallback, find?_handler]

end Installed

/-- A round with a registration that has both functions, from what each of
them does. -/
theorem round_of_calls {C A U Arg τ : Type} {β : Behaviour (StateM τ) C A U Arg}
    {context : Context C A U Arg} {handler : EventHandlerData C A U} {check : C} {action : A}
    {ret ret' : UDSErr} {apply found consume consumed : Bool} {t t' t'' : τ}
    (htype : context.registration.type = handler.registrationType)
    (hcheck : handler.getCheck context.registration = some check)
    (haction : handler.getAction context.registration = some action)
    (hc : β.check check context false t = ((ret, apply), t'))
    (ha : β.action action context consume t' = ((ret', consumed), t'')) :
    udsCheckAndActOnEvent β context handler found consume t =
      if ret ≠ .ok then ((ret, found, false), t')
      else if apply = false then ((ret, found, false), t')
      else if ret' ≠ .ok then ((ret', found, consumed), t'')
      else ((.ok, true, consumed), t'') := by
  by_cases hret : ret = .ok
  · cases apply with
    | false =>
      simp [udsCheckAndActOnEvent, htype, hcheck, haction, hc, hret, Dispatch.bind_run,
        Dispatch.pure_run]
    | true =>
      by_cases hret' : ret' = .ok <;>
        simp [udsCheckAndActOnEvent, htype, hcheck, haction, hc, ha, hret, hret',
          Dispatch.bind_run, Dispatch.pure_run]
  · simp [udsCheckAndActOnEvent, htype, hcheck, hc, hret, Dispatch.bind_run, Dispatch.pure_run]

/-! ## LinkControl -/

section LinkControl

variable {F U D σ : Type} {S : Setup F U D σ} {args : Args}

/-- What the default handler answers to a LinkControl request, its check
and then its action. -/
def answerLinkControl (driver : CanDriver D) (args : Args) : StateM (World D σ) UDSErr := fun w =>
  let (ret, _) := udsCheckDefaultLinkControl args false w
  if ret ≠ .ok then (ret, w)
  else
    let ((ret, _), w) := udsActionDefaultLinkControl driver args true w
    (ret, w)

/-- A check that finds no fault asks for the action. -/
theorem check_apply {w : World D σ} (h : (udsCheckDefaultLinkControl args false w).1 = .ok) :
    (udsCheckDefaultLinkControl args false w).2 = true := by
  simp only [udsCheckDefaultLinkControl] at h ⊢
  split_ifs at h ⊢ <;> first | rfl | cases h

/-- An action that succeeds has consumed the event. -/
theorem action_consumes {driver : CanDriver D} {w : World D σ}
    (h : (udsActionDefaultLinkControl driver args true w).1.1 = .ok) :
    (udsActionDefaultLinkControl driver args true w).1.2 = true := by
  simp only [udsActionDefaultLinkControl] at h ⊢
  split_ifs at h ⊢ <;> first | rfl | cases h

/-- **A round of the default handler** ends the walk: it fails, or its
action has consumed the event. -/
theorem round_linkControl (inst inst' : InstancePtr) (found : Bool) (w : World D σ) :
    ∃ found' consumed, (consumed = true ∨ (answerLinkControl S.driver args w).1 ≠ .ok) ∧
      udsCheckAndActOnEvent S.behaviour ⟨inst, linkControlRegistration inst', .linkControl, args⟩
        linkControlHandler found true w =
      (((answerLinkControl S.driver args w).1, found', consumed),
        (answerLinkControl S.driver args w).2) := by
  have happly : (udsCheckDefaultLinkControl args false w).1 = .ok → _ := check_apply
  have hconsumes : (udsActionDefaultLinkControl S.driver args true w).1.1 = .ok → _ :=
    action_consumes
  rcases hc : udsCheckDefaultLinkControl args false w with ⟨ret, apply⟩
  rcases ha : udsActionDefaultLinkControl S.driver args true w with ⟨⟨ret', consumed⟩, w'⟩
  rw [hc] at happly
  rw [ha] at hconsumes
  have hround : udsCheckAndActOnEvent S.behaviour
      ⟨inst, linkControlRegistration inst', .linkControl, args⟩ linkControlHandler found true w =
      _ := round_of_calls rfl rfl rfl (congrArg (·, w) hc) ha
  by_cases hret : ret = .ok
  · have hanswer : answerLinkControl S.driver args w = (ret', w') := by
      simp [answerLinkControl, hc, ha, hret]
    rw [hround, hanswer, if_neg (not_not.mpr hret), 
      if_neg (ne_false_of_eq_true (happly hret))]
    by_cases hret' : ret' = .ok
    · refine ⟨true, consumed, .inl (hconsumes hret'), ?_⟩
      rw [if_neg (not_not.mpr hret'), hret']
    · exact ⟨found, consumed, .inr hret', if_pos hret'⟩
  · have hanswer : answerLinkControl S.driver args w = (ret, w) := by
      simp [answerLinkControl, hc, hret]
    rw [hround, hanswer, if_pos hret]
    exact ⟨found, false, .inr hret, rfl⟩

/-- **A LinkControl event** comes to what the default handler answers. -/
theorem raise_linkControl (hfirst : S.First) (dynamics : List (Reg F U)) :
    S.raise (.linkControl args) dynamics = answerLinkControl S.driver args := by
  obtain ⟨pre, inst, post, hstatics, hpre⟩ := hfirst
  have hskips : ∀ q ∈ pre, Skips S.behaviour linkControlHandler S.inst .linkControl args q :=
    fun q hq => skips_of_type (hpre q hq)
  funext w
  have hwalk : handleRegistrations S.behaviour S.inst .linkControl args linkControlHandler true
      S.statics false w =
      (.error (answerLinkControl S.driver args w).1, (answerLinkControl S.driver args w).2) := by
    obtain ⟨found, consumed, hstops, hround⟩ := round_linkControl S.inst inst false w
    rw [hstatics, handleRegistrations_append_of_skips hskips, handleRegistrations,
      Dispatch.bind_run, hround]
    exact congrFun (if_pos hstops) _
  have hevent : S.raise (.linkControl args) dynamics = udsHandleEvent S.behaviour S.inst
      .linkControl args linkControlHandler S.statics dynamics := raise_eq _ _
  rw [hevent, udsHandleEvent, Dispatch.bind_run, hwalk]
  rfl

/-- The modifiers a verify request may name. -/
def Verifiable (modifier : UInt8) : Prop :=
  modifier = Modifier.can125000Baud ∨ modifier = Modifier.can250000Baud ∨
    modifier = Modifier.can500000Baud

instance (modifier : UInt8) : Decidable (Verifiable modifier) :=
  inferInstanceAs (Decidable (_ ∨ _ ∨ _))

theorem answerLinkControl_verify (driver : CanDriver D) (data : UInt8) (w : World D σ) :
    answerLinkControl driver ⟨verifyModeTransitionWithFixedParameter, data⟩ w =
      if ¬ Verifiable data then (.requestOutOfRange, w)
      else if w.sessionType = diagSessionDefault then (.subFunctionNotSupportedInActiveSession, w)
      else (.ok, { w with modifier := data, modifierSet := true }) := by
  unfold answerLinkControl udsCheckDefaultLinkControl udsActionDefaultLinkControl Verifiable
  simp only [not_or, ↓reduceIte]
  split_ifs <;> first | rfl | contradiction

theorem answerLinkControl_transition (driver : CanDriver D) (data : UInt8) (w : World D σ) :
    answerLinkControl driver ⟨transitionMode, data⟩ w =
      if w.modifierSet = false then (.requestSequenceError, w)
      else if w.sessionType = diagSessionDefault then (.subFunctionNotSupportedInActiveSession, w)
      else onCan (udsSetCanBitrate driver (udsLinkControlModifierToBaudrate data)) w := by
  have htype : transitionMode ≠ verifyModeTransitionWithFixedParameter := by decide
  unfold answerLinkControl udsCheckDefaultLinkControl udsActionDefaultLinkControl
  simp only [htype, ↓reduceIte]
  split_ifs <;> first | rfl | contradiction

theorem answerLinkControl_other (driver : CanDriver D) (w : World D σ)
    (hverify : args.type ≠ verifyModeTransitionWithFixedParameter)
    (htransition : args.type ≠ transitionMode) :
    answerLinkControl driver args w = (.subFunctionNotSupported, w) := by
  unfold answerLinkControl udsCheckDefaultLinkControl
  rw [if_neg hverify, if_neg htransition]
  rfl

end LinkControl

/-! ## What an event leaves alone -/

/-- The event takes the link back to its default bitrate. -/
def Request.Returning : Request → Prop
  | .linkControl _ => False
  | .diagSessCtrl type => type = diagSessionDefault
  | .sessionTimeout => True

instance (request : Request) : Decidable request.Returning :=
  match request with
  | .linkControl _ => inferInstanceAs (Decidable False)
  | .diagSessCtrl _ => inferInstanceAs (Decidable (_ = _))
  | .sessionTimeout => inferInstanceAs (Decidable True)

section Keeps

variable {F U D σ : Type} {S : Setup F U D σ} {request : Request} {q : Reg F U}
  {I : World D σ → Prop}

/-- A check of the application writes what is the application's. -/
theorem check_of_application {f : CheckFn (Fn F)}
    (hf : f ≠ .app .defaultLinkControl ∧ f ≠ .app .defaultLinkControlChangeDiagSession)
    (context : Ctx F U) (apply : Bool) (w : World D σ) :
    ∃ ret app, S.behaviour.check f context apply w = (ret, { w with app := app }) := by
  cases f with
  | app g =>
    cases g with
    | app g => exact ⟨_, _, rfl⟩
    | defaultLinkControl => exact absurd rfl hf.1
    | defaultLinkControlChangeDiagSession => exact absurd rfl hf.2
  | _ => exact ⟨_, _, rfl⟩

/-- So does an action. -/
theorem action_of_application {f : ActionFn (Fn F)}
    (hf : f ≠ .app .defaultLinkControl ∧ f ≠ .app .defaultLinkControlChangeDiagSession)
    (context : Ctx F U) (consume : Bool) (w : World D σ) :
    ∃ ret app, S.behaviour.action f context consume w = (ret, { w with app := app }) := by
  cases f with
  | app g =>
    cases g with
    | app g => exact ⟨_, _, rfl⟩
    | defaultLinkControl => exact absurd rfl hf.1
    | defaultLinkControlChangeDiagSession => exact absurd rfl hf.2
  | _ => exact ⟨_, _, rfl⟩

/-- The check of the session registration asks for the action exactly on
the events that take the link back. -/
theorem check_changeDiagSession :
    udsCheckDefaultLinkControlChangeDiagSession request.event request.args false =
      (.ok, decide request.Returning) := by
  cases request with
  | linkControl args => rfl
  | diagSessCtrl type =>
    unfold udsCheckDefaultLinkControlChangeDiagSession Request.Returning
    by_cases htype : type = diagSessionDefault <;> simp [Request.event, Request.args, htype]
  | sessionTimeout => rfl

/-- The session registration is passed over by every other event. -/
theorem skips_changeDiagSession (hreq : ¬ request.Returning) (inst : InstancePtr) :
    Skips S.behaviour request.handler S.inst request.event request.args
      (changeDiagSessionRegistration inst) := by
  cases request with
  | linkControl args => exact skips_of_type nofun
  | diagSessCtrl type =>
    refine skips_of_check fun check hcheck => ?_
    cases hcheck
    funext w
    have hcheck : udsCheckDefaultLinkControlChangeDiagSession (Request.diagSessCtrl type).event
        (Request.diagSessCtrl type).args false = _ := check_changeDiagSession
    rw [decide_eq_false hreq] at hcheck
    exact congrArg (·, w) hcheck
  | sessionTimeout => exact absurd trivial hreq

/-- **A round keeps a property** that the application's part of the state
does not enter and that the two actions of the default handler keep, each
on the events that reach it. -/
theorem round_keeps (hS : S.Installed) (happ : ∀ w app, I w → I { w with app := app })
    (hlink : ∀ args, request = .linkControl args → ∀ consume w, I w →
      I (udsActionDefaultLinkControl S.driver args consume w).2)
    (hreturn : request.Returning → ∀ w, I w →
      I (udsActionDefaultLinkControlChangeDiagSession S.driver S.defaultCanBitrate w).2)
    (hq : q ∈ S.statics ∨ S.Dynamic q) (found consume : Bool) :
    (ProgRel.keeps I).Rel
      (udsCheckAndActOnEvent S.behaviour ⟨S.inst, q, request.event, request.args⟩ request.handler
        found consume)
      (udsCheckAndActOnEvent S.behaviour ⟨S.inst, q, request.event, request.args⟩ request.handler
        found consume) := by
  have hpassed : ∀ {q : Reg F U}, Skips S.behaviour request.handler S.inst request.event
      request.args q → (ProgRel.keeps I).Rel
        (udsCheckAndActOnEvent S.behaviour ⟨S.inst, q, request.event, request.args⟩
          request.handler found consume)
        (udsCheckAndActOnEvent S.behaviour ⟨S.inst, q, request.event, request.args⟩
          request.handler found consume) := by
    intro q hskips
    rw [hskips found consume]
    exact (ProgRel.keeps I).rel_pure _
  rcases hS.others q hq with ⟨inst, rfl⟩ | ⟨inst, rfl⟩ | hown
  · cases request with
    | linkControl args =>
      refine udsCheckAndActOnEvent_rel _ ?_ ?_ found consume
      · intro check apply hcheck w hw
        cases hcheck
        exact hw
      · intro action consume haction w hw
        cases haction
        exact hlink args rfl consume w hw
    | diagSessCtrl type => exact hpassed (skips_of_type nofun)
    | sessionTimeout => exact hpassed (skips_of_type nofun)
  · by_cases hreq : request.Returning
    · refine udsCheckAndActOnEvent_rel _ ?_ ?_ found consume
      · intro check apply hcheck w hw
        cases request <;> cases hcheck <;> exact hw
      · intro action consume haction w hw
        cases request <;> cases haction <;> exact hreturn hreq w hw
    · exact hpassed (skips_changeDiagSession hreq inst)
  · refine udsCheckAndActOnEvent_rel _ ?_ ?_ found consume
    · intro check apply hcheck w hw
      obtain ⟨ret, app, hrun⟩ := check_of_application ((hown request).1 check hcheck) _ apply w
      rw [hrun]
      exact happ w app hw
    · intro action consume haction w hw
      obtain ⟨ret, app, hrun⟩ := action_of_application ((hown request).2 action haction) _ consume w
      rw [hrun]
      exact happ w app hw

/-- **An event keeps** what each of its rounds keeps. -/
theorem raise_keeps (hS : S.Installed) (happ : ∀ w app, I w → I { w with app := app })
    (hlink : ∀ args, request = .linkControl args → ∀ consume w, I w →
      I (udsActionDefaultLinkControl S.driver args consume w).2)
    (hreturn : request.Returning → ∀ w, I w →
      I (udsActionDefaultLinkControlChangeDiagSession S.driver S.defaultCanBitrate w).2)
    {dynamics : List (Reg F U)} (hdynamics : ∀ q ∈ dynamics, S.Dynamic q) {w : World D σ}
    (hw : I w) : I (S.raise request dynamics w).2 := by
  have hrel : (ProgRel.keeps I).Rel (S.raise request dynamics) (S.raise request dynamics) := by
    rw [raise_eq]
    refine udsHandleEvent_rel _ fun q hq found consume => ?_
    refine round_keeps hS happ hlink hreturn ?_ found consume
    exact (List.mem_append.mp hq).imp_right (hdynamics q)
  exact hrel w hw

end Keeps

/-! ## A bench -/

/-- A step of a run with no registration made at run time. -/
theorem run_alone {F U D σ : Type} {S : Setup F U D σ} {init : World D σ → Prop}
    {past : List (World D σ × Event F U)} {w : World D σ} (h : (S.server init).Run past w)
    (request : Request) (session : UInt8)
    (henters : Enters request (S.raise request [] w).1 w.sessionType session) :
    (S.server init).Run (past ++ [(w, ⟨request, [], (S.raise request [] w).1⟩)])
      { (S.raise request [] w).2 with sessionType := session } :=
  h.step ⟨by simp, rfl, session, henters, rfl⟩

/-- A controller that does as it is told; its state is its bitrate. -/
def willing : CanDriver UInt32 where
  canStop := fun d => (0, d)
  canSetBitrate := fun b _ => (0, b)
  canStart := fun d => (0, d)

/-- An instance with the default handler and nothing else. -/
def bench : Setup Empty Unit UInt32 Unit where
  inst := 0
  driver := willing
  defaultCanBitrate := 500000
  application := ⟨fun _ _ b w => ((.ok, b), w.app), fun _ _ b w => ((.ok, b), w.app)⟩
  statics := [linkControlRegistration 0, changeDiagSessionRegistration 0]
  Dynamic := fun _ => False

theorem bench_installed : bench.Installed where
  linkControl := List.mem_cons_self
  changeDiagSession := List.mem_cons_of_mem _ List.mem_cons_self
  others := by
    rintro q (hq | hq)
    · rcases List.mem_cons.mp hq with rfl | hq
      · exact .inl ⟨0, rfl⟩
      · exact .inr (.inl ⟨0, List.mem_singleton.mp hq⟩)
    · cases hq

theorem bench_first : bench.First :=
  ⟨[], 0, [changeDiagSessionRegistration 0], rfl, fun _ hq => nomatch hq⟩

end Link

end Uds

end Ardep
