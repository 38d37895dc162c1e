import Ardep.Common.ProgRel
import Ardep.Uds.Dispatch.Model
/-!
# Dispatch — the same walk over related functions

A walk does nothing but call the functions a `Behaviour` gives, so what
relates the functions relates the walks (`udsHandleEvent_rel`). A
registration whose check declines is passed over: the first one that does
not decline and always stops the walk answers the event.
-/

namespace Ardep

namespace Uds

section Relate

variable {m n : Type → Type} [Monad m] [Monad n] {C A U Arg : Type} (R : ProgRel m n)
  {β : Behaviour m C A U Arg} {β' : Behaviour n C A U Arg} {handler : EventHandlerData C A U}

variable {inst : InstancePtr} {event : UDSEvent} {arg : Arg}

/-- One registration, where its functions are related. -/
theorem udsCheckAndActOnEvent_rel {reg : Registration C A U}
    (hcheck : ∀ check apply, handler.getCheck reg = some check →
      R.Rel (β.check check ⟨inst, reg, event, arg⟩ apply)
        (β'.check check ⟨inst, reg, event, arg⟩ apply))
    (haction : ∀ action consume, handler.getAction reg = some action →
      R.Rel (β.action action ⟨inst, reg, event, arg⟩ consume)
        (β'.action action ⟨inst, reg, event, arg⟩ consume))
    (found consume : Bool) :
    R.Rel (udsCheckAndActOnEvent β ⟨inst, reg, event, arg⟩ handler found consume)
      (udsCheckAndActOnEvent β' ⟨inst, reg, event, arg⟩ handler found consume) := by
  unfold udsCheckAndActOnEvent
  refine R.rel_ite (R.rel_pure _) ?_
  cases hc : handler.getCheck reg with
  | none => exact R.rel_pure _
  | some check =>
    refine R.rel_bind (hcheck check false hc) ?_
    rintro ⟨ret, apply⟩
    refine R.rel_ite (R.rel_pure _) ?_
    cases ha : handler.getAction reg with
    | none => cases apply <;> exact R.rel_pure _
    | some action =>
      cases apply with
      | false => exact R.rel_pure _
      | true =>
        refine R.rel_bind (haction action consume ha) ?_
        rintro ⟨ret, consumed⟩
        exact R.rel_ite (R.rel_pure _) (R.rel_pure _)

/-- A walk, where each of its registrations is related. -/
theorem handleRegistrations_rel {consume : Bool} {regs : List (Registration C A U)}
    (h : ∀ reg ∈ regs, ∀ found,
      R.Rel (udsCheckAndActOnEvent β ⟨inst, reg, event, arg⟩ handler found consume)
        (udsCheckAndActOnEvent β' ⟨inst, reg, event, arg⟩ handler found consume))
    (found : Bool) :
    R.Rel (handleRegistrations β inst event arg handler consume regs found)
      (handleRegistrations β' inst event arg handler consume regs found) := by
  induction regs generalizing found with
  | nil => exact R.rel_pure _
  | cons reg regs ih =>
    refine R.rel_bind (h reg List.mem_cons_self found) ?_
    rintro ⟨ret, found, consumed⟩
    exact R.rel_ite (R.rel_pure _) (ih (fun q hq => h q (List.mem_cons_of_mem _ hq)) found)

/-- **An event**, where each registration is related in both walks. -/
theorem udsHandleEvent_rel {statics dynamics : List (Registration C A U)}
    (h : ∀ reg ∈ statics ++ dynamics, ∀ found consume,
      R.Rel (udsCheckAndActOnEvent β ⟨inst, reg, event, arg⟩ handler found consume)
        (udsCheckAndActOnEvent β' ⟨inst, reg, event, arg⟩ handler found consume)) :
    R.Rel (udsHandleEvent β inst event arg handler statics dynamics)
      (udsHandleEvent β' inst event arg handler statics dynamics) := by
  unfold udsHandleEvent
  refine R.rel_bind (handleRegistrations_rel R (fun reg hreg found =>
    h reg (List.mem_append_left _ hreg) found true) false) ?_
  rintro (ret | found)
  · exact R.rel_pure _
  · refine R.rel_bind (handleRegistrations_rel R (fun reg hreg found =>
      h reg (List.mem_append_right _ hreg) found false) found) ?_
    rintro (ret | found)
    · exact R.rel_pure _
    · exact R.rel_pure _

end Relate

section Reach

variable {τ C A U Arg : Type} {β : Behaviour (StateM τ) C A U Arg}
  {handler : EventHandlerData C A U} {inst : InstancePtr} {event : UDSEvent} {arg : Arg}
  {I : τ → Prop}

/-- A walk keeps what its rounds keep. -/
theorem handleRegistrations_keeps {consume : Bool} {regs : List (Registration C A U)}
    (hkeep : ∀ q ∈ regs, ∀ found t, I t →
      I (udsCheckAndActOnEvent β ⟨inst, q, event, arg⟩ handler found consume t).2)
    (found : Bool) {t : τ} (ht : I t) :
    I (handleRegistrations β inst event arg handler consume regs found t).2 := by
  have hrel : (ProgRel.keeps I).Rel
      (handleRegistrations β inst event arg handler consume regs found)
      (handleRegistrations β inst event arg handler consume regs found) :=
    handleRegistrations_rel _ hkeep found
  exact hrel t ht

/-- The event goes on after the registration: no error, and nobody
consumed it. -/
def Passes (β : Behaviour (StateM τ) C A U Arg) (handler : EventHandlerData C A U)
    (inst : InstancePtr) (event : UDSEvent) (arg : Arg) (reg : Registration C A U) : Prop :=
  ∀ found consume t, ∃ found' t',
    udsCheckAndActOnEvent β ⟨inst, reg, event, arg⟩ handler found consume t =
      ((.ok, found', false), t')

/-- **A walk nobody ends reaches every registration**: what one of them
establishes and all of them keep holds afterwards. -/
theorem handleRegistrations_reaches {consume : Bool} {regs : List (Registration C A U)}
    (hpass : ∀ q ∈ regs, Passes β handler inst event arg q)
    (hkeep : ∀ q ∈ regs, ∀ found t, I t →
      I (udsCheckAndActOnEvent β ⟨inst, q, event, arg⟩ handler found consume t).2)
    (hreach : ∃ q ∈ regs, ∀ found t,
      I (udsCheckAndActOnEvent β ⟨inst, q, event, arg⟩ handler found consume t).2)
    (found : Bool) (t : τ) :
    I (handleRegistrations β inst event arg handler consume regs found t).2 := by
  induction regs generalizing found t with
  | nil =>
    obtain ⟨q, hq, -⟩ := hreach
    cases hq
  | cons q regs ih =>
    obtain ⟨found', t', hround⟩ := hpass q List.mem_cons_self found consume t
    have hrest : ∀ p ∈ regs, ∀ found t, I t →
        I (udsCheckAndActOnEvent β ⟨inst, p, event, arg⟩ handler found consume t).2 :=
      fun p hp => hkeep p (List.mem_cons_of_mem _ hp)
    have hgo : handleRegistrations β inst event arg handler consume (q :: regs) found t =
        handleRegistrations β inst event arg handler consume regs found' t' := by
      have hbind : ∀ f : UDSErr × Bool × Bool → StateM τ (Except UDSErr Bool),
          (udsCheckAndActOnEvent β ⟨inst, q, event, arg⟩ handler found consume >>= f) t =
            f (.ok, found', false) t' := by
        intro f
        change f (udsCheckAndActOnEvent β _ handler found consume t).1
          (udsCheckAndActOnEvent β _ handler found consume t).2 = _
        rw [hround]
      rw [handleRegistrations, hbind]
      exact congrFun (if_neg (by decide)) t'
    rw [hgo]
    obtain ⟨p, hp, hreach⟩ := hreach
    rcases List.mem_cons.mp hp with rfl | hp
    · have hI := hreach found t
      rw [hround] at hI
      exact handleRegistrations_keeps hrest found' hI
    · exact ih (fun r hr => hpass r (List.mem_cons_of_mem _ hr)) hrest ⟨p, hp, hreach⟩ found' t'

/-- So does an event: what a static registration establishes, where the
event passes them all, holds at the end. -/
theorem udsHandleEvent_reaches {statics dynamics : List (Registration C A U)}
    (hpass : ∀ q ∈ statics, Passes β handler inst event arg q)
    (hkeep : ∀ q ∈ statics ++ dynamics, ∀ found consume t, I t →
      I (udsCheckAndActOnEvent β ⟨inst, q, event, arg⟩ handler found consume t).2)
    (hreach : ∃ q ∈ statics, ∀ found consume t,
      I (udsCheckAndActOnEvent β ⟨inst, q, event, arg⟩ handler found consume t).2) (t : τ) :
    I (udsHandleEvent β inst event arg handler statics dynamics t).2 := by
  obtain ⟨q, hq, hreach⟩ := hreach
  unfold udsHandleEvent
  refine ProgRel.keeps_bind ?_ ?_
  · exact handleRegistrations_reaches hpass
      (fun p hp found => hkeep p (List.mem_append_left _ hp) found true)
      ⟨q, hq, fun found => hreach found true⟩ false t
  · rintro (ret | found) s hs
    · exact hs
    · refine ProgRel.keeps_bind ?_ ?_
      · exact handleRegistrations_keeps
          (fun p hp found => hkeep p (List.mem_append_right _ hp) found false) found hs
      · rintro (ret | found) r hr
        · exact hr
        · exact hr

end Reach

section Skip

variable {m : Type → Type} [Monad m] {C A U Arg : Type}
  {β : Behaviour m C A U Arg} {handler : EventHandlerData C A U}
  {inst : InstancePtr} {event : UDSEvent} {arg : Arg}

/-- The event passes the registration over. -/
def Skips (β : Behaviour m C A U Arg) (handler : EventHandlerData C A U) (inst : InstancePtr)
    (event : UDSEvent) (arg : Arg) (reg : Registration C A U) : Prop :=
  ∀ found consume, udsCheckAndActOnEvent β ⟨inst, reg, event, arg⟩ handler found consume =
    pure (.ok, found, false)

/-- The registration is of another type. -/
theorem skips_of_type {reg : Registration C A U} (h : reg.type ≠ handler.registrationType) :
    Skips β handler inst event arg reg := by
  intro found consume
  simp only [udsCheckAndActOnEvent, if_pos h]

variable [LawfulMonad m]

/-- The check lets the event through and does not ask for the action. -/
theorem skips_of_check {reg : Registration C A U}
    (h : ∀ check, handler.getCheck reg = some check →
      β.check check ⟨inst, reg, event, arg⟩ false = pure (.ok, false)) :
    Skips β handler inst event arg reg := by
  intro found consume
  simp only [udsCheckAndActOnEvent]
  split
  · rfl
  · split
    · rfl
    · next check hcheck => simp [h check hcheck]

/-- **Registrations that are passed over** leave a walk where it was. -/
theorem handleRegistrations_append_of_skips {consume : Bool} {pre : List (Registration C A U)}
    (h : ∀ reg ∈ pre, Skips β handler inst event arg reg) (regs : List (Registration C A U))
    (found : Bool) :
    handleRegistrations β inst event arg handler consume (pre ++ regs) found =
      handleRegistrations β inst event arg handler consume regs found := by
  induction pre with
  | nil => rfl
  | cons reg pre ih =>
    rw [List.cons_append, handleRegistrations, h reg List.mem_cons_self found consume, pure_bind]
    simp only [Bool.false_eq_true, ne_eq, not_true_eq_false, or_self, if_false]
    exact ih fun q hq => h q (List.mem_cons_of_mem _ hq)

/-- So do those between others. -/
theorem handleRegistrations_filter_of_skips {consume : Bool} {keep : Registration C A U → Bool}
    (h : ∀ reg, keep reg = false → Skips β handler inst event arg reg)
    (regs : List (Registration C A U)) (found : Bool) :
    handleRegistrations β inst event arg handler consume regs found =
      handleRegistrations β inst event arg handler consume (regs.filter keep) found := by
  induction regs generalizing found with
  | nil => rfl
  | cons reg regs ih =>
    cases hkeep : keep reg with
    | false =>
      rw [List.filter_cons, hkeep, if_neg Bool.false_ne_true, ← ih]
      refine handleRegistrations_append_of_skips (fun q (hq : q ∈ [reg]) => ?_) regs found
      rw [List.mem_singleton.mp hq]
      exact h reg hkeep
    | true =>
      rw [List.filter_cons, hkeep, if_pos rfl, handleRegistrations, handleRegistrations]
      simp only [ih]

theorem handleRegistrations_of_skips {consume : Bool} {regs : List (Registration C A U)}
    (h : ∀ reg ∈ regs, Skips β handler inst event arg reg) (found : Bool) :
    handleRegistrations β inst event arg handler consume regs found = pure (.ok found) := by
  rw [← List.append_nil regs, handleRegistrations_append_of_skips h]
  rfl

/-- With every registration passed over the event has no answer but the
default one. -/
theorem udsHandleEvent_of_skips {statics dynamics : List (Registration C A U)}
    (h : ∀ reg ∈ statics ++ dynamics, Skips β handler inst event arg reg) :
    udsHandleEvent β inst event arg handler statics dynamics = pure handler.defaultNrc := by
  obtain ⟨hstatics, hdynamics⟩ := List.forall_mem_append.mp h
  rw [udsHandleEvent, handleRegistrations_of_skips hstatics, pure_bind]
  simp only [handleRegistrations_of_skips hdynamics, pure_bind]
  rfl

/-- An event is as it is without the registrations it passes over. -/
theorem udsHandleEvent_filter_of_skips {keep : Registration C A U → Bool}
    (h : ∀ reg, keep reg = false → Skips β handler inst event arg reg)
    (statics dynamics : List (Registration C A U)) :
    udsHandleEvent β inst event arg handler statics dynamics =
      udsHandleEvent β inst event arg handler (statics.filter keep) (dynamics.filter keep) := by
  simp only [udsHandleEvent, handleRegistrations_filter_of_skips h statics,
    handleRegistrations_filter_of_skips h dynamics]

/-- **The first registration that is not passed over** ends the walk where
each of its answers does. -/
theorem handleRegistrations_of_stops {consume : Bool} {pre post : List (Registration C A U)}
    {reg : Registration C A U} (h : ∀ q ∈ pre, Skips β handler inst event arg q) {found : Bool}
    {γ : Type} {x : m γ} {f : γ → UDSErr × Bool × Bool}
    (hreg : udsCheckAndActOnEvent β ⟨inst, reg, event, arg⟩ handler found consume =
      x >>= fun b => pure (f b))
    (hstops : ∀ b, (f b).2.2 = true ∨ (f b).1 ≠ .ok) :
    handleRegistrations β inst event arg handler consume (pre ++ reg :: post) found =
      x >>= fun b => pure (.error (f b).1) := by
  rw [handleRegistrations_append_of_skips h, handleRegistrations, hreg, bind_assoc]
  refine congrArg _ (funext fun b => ?_)
  rw [pure_bind]
  exact if_pos (hstops b)

theorem udsHandleEvent_of_static_stops {pre post dynamics : List (Registration C A U)}
    {reg : Registration C A U} (h : ∀ q ∈ pre, Skips β handler inst event arg q)
    {γ : Type} {x : m γ} {f : γ → UDSErr × Bool × Bool}
    (hreg : udsCheckAndActOnEvent β ⟨inst, reg, event, arg⟩ handler false true =
      x >>= fun b => pure (f b))
    (hstops : ∀ b, (f b).2.2 = true ∨ (f b).1 ≠ .ok) :
    udsHandleEvent β inst event arg handler (pre ++ reg :: post) dynamics =
      x >>= fun b => pure (f b).1 := by
  rw [udsHandleEvent, handleRegistrations_of_stops h hreg hstops, bind_assoc]
  exact congrArg _ (funext fun b => pure_bind _ _)

theorem udsHandleEvent_of_dynamic_stops {statics pre post : List (Registration C A U)}
    {reg : Registration C A U} (hstatics : ∀ q ∈ statics, Skips β handler inst event arg q)
    (h : ∀ q ∈ pre, Skips β handler inst event arg q)
    {γ : Type} {x : m γ} {f : γ → UDSErr × Bool × Bool}
    (hreg : udsCheckAndActOnEvent β ⟨inst, reg, event, arg⟩ handler false false =
      x >>= fun b => pure (f b))
    (hstops : ∀ b, (f b).2.2 = true ∨ (f b).1 ≠ .ok) :
    udsHandleEvent β inst event arg handler statics (pre ++ reg :: post) =
      x >>= fun b => pure (f b).1 := by
  rw [udsHandleEvent, handleRegistrations_of_skips hstatics, pure_bind]
  simp only [handleRegistrations_of_stops h hreg hstops, bind_assoc]
  exact congrArg _ (funext fun b => pure_bind _ _)

end Skip

end Uds

end Ardep
