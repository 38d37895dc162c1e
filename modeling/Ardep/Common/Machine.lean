import Mathlib.Logic.Relation
/-!
# Machines — states, events, and what a run keeps

A machine is a set of starting states and a step relation labelled by
events. An invariant that holds at the start and survives every step
holds in every reachable state (`Reachable.invariant`); `guard` cuts a
machine down to the steps that meet a condition, which is how a property
of all runs is stated when only some runs have it.

A `Run` keeps the steps taken, for properties that look back over them;
`Run.throughout_congr` turns what one step owes to the run before it into
what a whole run does.

`runs` is the deterministic side: a partial step function iterated over a
list of events, collecting one answer per event. `Along` is the condition
on the steps of such a run.
-/

namespace Ardep

/-- **A machine**: where it may start and how an event moves it. -/
structure Machine (State Event : Type*) where
  /-- The states a run may start in. -/
  init : State → Prop
  /-- The event `e` may take the first state to the second. -/
  Step : State → Event → State → Prop

namespace Machine

variable {State Event : Type*} {M : Machine State Event}

/-- The states some run of the machine ends in. -/
inductive Reachable (M : Machine State Event) : State → Prop
  | init {s : State} : M.init s → Reachable M s
  | step {s s' : State} {e : Event} : Reachable M s → M.Step s e s' → Reachable M s'

/-- **The invariant rule.** What holds at the start and survives a step
from a state that has it holds wherever a run ends. -/
theorem Reachable.invariant {P : State → Prop} (hinit : ∀ s, M.init s → P s)
    (hstep : ∀ s e s', P s → M.Step s e s' → P s') {s : State} (h : M.Reachable s) :
    P s := by
  induction h with
  | init h0 => exact hinit _ h0
  | step _ hs ih => exact hstep _ _ _ ih hs

/-- Where a step function leads along a list of events, if its steps on
them are steps of the machine. -/
theorem Reachable.foldlM {step : State → Event → Option State} {ok : Event → Prop}
    (hstep : ∀ s e s', ok e → step s e = some s' → M.Step s e s') :
    ∀ (es : List Event) {s s' : State}, M.Reachable s → (∀ e ∈ es, ok e) →
      es.foldlM step s = some s' → M.Reachable s'
  | [], s, s', h, _, hes => by
    cases hes
    exact h
  | e :: es, s, s', h, hok, hes => by
    rw [List.foldlM_cons] at hes
    obtain ⟨t, hs, hrest⟩ := Option.bind_eq_some_iff.mp hes
    have ht : M.Reachable t := h.step (hstep _ _ _ (hok e List.mem_cons_self) hs)
    exact foldlM hstep es ht (fun e he => hok e (List.mem_cons_of_mem _ he)) hrest

/-- The machine that takes only the steps meeting `ok`. -/
def guard (M : Machine State Event) (ok : State → Event → Prop) : Machine State Event where
  init := M.init
  Step s e s' := ok s e ∧ M.Step s e s'

/-! ## Histories -/

/-- **A run**: the steps taken, each with the state it was taken in, and
the state they lead to. -/
inductive Run (M : Machine State Event) : List (State × Event) → State → Prop
  | init {s : State} : M.init s → Run M [] s
  | step {past : List (State × Event)} {s s' : State} {e : Event} :
      Run M past s → M.Step s e s' → Run M (past ++ [(s, e)]) s'

variable {past pre : List (State × Event)} {s : State}

/-- The invariant rule for a property of the history and the state. -/
theorem Run.invariant {P : List (State × Event) → State → Prop} (hinit : ∀ s, M.init s → P [] s)
    (hstep : ∀ past s e s', P past s → M.Step s e s' → P (past ++ [(s, e)]) s')
    (h : M.Run past s) : P past s := by
  induction h with
  | init h0 => exact hinit _ h0
  | step _ hs ih => exact hstep _ _ _ _ ih hs

theorem Run.reachable (h : M.Run past s) : M.Reachable s := by
  induction h with
  | init h0 => exact .init h0
  | step _ hs ih => exact ih.step hs

/-- A step of a run is a step of the machine, and what came before it is a
run. -/
theorem Run.before (h : M.Run past s) : ∀ {t e post}, past = pre ++ (t, e) :: post →
    M.Run pre t ∧ ∃ t', M.Step t e t' := by
  induction h with
  | init _ =>
    intro t e post hpast
    simp at hpast
  | step hrun hs ih =>
    intro t e post hpast
    -- the step asked for is the last one or one of those before
    rcases List.eq_nil_or_concat post with rfl | ⟨post, last, rfl⟩
    · obtain ⟨rfl, hlast⟩ := List.append_inj' hpast rfl
      cases hlast
      exact ⟨hrun, _, hs⟩
    · rw [List.concat_eq_append, ← List.cons_append, ← List.append_assoc] at hpast
      exact ih (List.append_inj' hpast rfl).1

/-- **Ever since.** What a step brings about, and later steps keep, holds of
the state it was taken in and of every state after it. -/
theorem Run.since {A : State → Event → Prop} {Q : State → State → Prop}
    (hstart : ∀ t e t', M.Reachable t → A t e → M.Step t e t' → Q t t')
    (hkeep : ∀ t u e u', M.Reachable u → Q t u → M.Step u e u' → Q t u') (h : M.Run past s) :
    ∀ {t e post}, past = pre ++ (t, e) :: post → A t e → Q t s := by
  induction h with
  | init _ =>
    intro t e post hpast
    simp at hpast
  | step hrun hs ih =>
    intro t e post hpast hA
    rcases List.eq_nil_or_concat post with rfl | ⟨post, last, rfl⟩
    · obtain ⟨rfl, hlast⟩ := List.append_inj' hpast rfl
      cases hlast
      exact hstart _ _ _ hrun.reachable hA hs
    · rw [List.concat_eq_append, ← List.cons_append, ← List.append_assoc] at hpast
      exact hkeep _ _ _ _ hrun.reachable (ih (List.append_inj' hpast rfl).1 hA) hs

/-- Every step of a history meets a condition on what came before it, the
state it was taken in and its event. -/
def Throughout (P : List (State × Event) → State → Event → Prop) (past : List (State × Event)) :
    Prop :=
  ∀ pre t e post, past = pre ++ (t, e) :: post → P pre t e

/-- A condition that the steps meet whatever came before them. -/
theorem throughout_of_forall {P : List (State × Event) → State → Event → Prop}
    (h : ∀ x ∈ past, ∀ pre, P pre x.1 x.2) : Throughout P past := by
  intro pre t e post hpast
  exact h (t, e) (by rw [hpast]; exact List.mem_append_right _ List.mem_cons_self) pre

theorem throughout_nil {P : List (State × Event) → State → Event → Prop} : Throughout P [] := by
  intro pre t e post hpast
  simp at hpast

theorem throughout_concat {P : List (State × Event) → State → Event → Prop} {e : Event} :
    Throughout P (past ++ [(s, e)]) ↔ Throughout P past ∧ P past s e := by
  constructor
  · intro h
    refine ⟨fun pre t e' post hpast => ?_, h past s e [] rfl⟩
    refine h pre t e' (post ++ [(s, e)]) ?_
    rw [hpast, List.append_assoc, List.cons_append]
  · rintro ⟨hpast, hlast⟩ pre t e' post heq
    rcases List.eq_nil_or_concat post with rfl | ⟨post, last, rfl⟩
    · obtain ⟨rfl, hsame⟩ := List.append_inj' heq rfl
      cases hsame
      exact hlast
    · rw [List.concat_eq_append, ← List.cons_append, ← List.append_assoc] at heq
      exact hpast pre t e' post (List.append_inj' heq rfl).1

/-- **Step by step.** Two conditions that agree on the step after any run
agree throughout a run. -/
theorem Run.throughout_congr {P Q : List (State × Event) → State → Event → Prop}
    (hiff : ∀ pre t e t', M.Run pre t → M.Step t e t' → (P pre t e ↔ Q pre t e))
    (h : M.Run past s) : Throughout P past ↔ Throughout Q past := by
  refine forall₄_congr fun pre t e post => ?_
  refine forall_congr' fun hpast => ?_
  obtain ⟨hrun, t', hstep⟩ := h.before hpast
  exact hiff pre t e t' hrun hstep

end Machine

section Runs

variable {State Event Answer : Type*}

/-- Iterate a partial step function, collecting the answers. A step that
gives nothing gives the whole run nothing. -/
def runs (step : State → Event → Option (Answer × State)) :
    State → List Event → Option (List Answer × State)
  | s, [] => some ([], s)
  | s, e :: es =>
    match step s e with
    | none => none
    | some (a, s') =>
      match runs step s' es with
      | none => none
      | some (as, s'') => some (a :: as, s'')

variable {step : State → Event → Option (Answer × State)}

@[simp] theorem runs_nil {s : State} : runs step s [] = some ([], s) := rfl

/-- A run over a list with a head is a step and a run from where it led. -/
theorem runs_cons_eq_some {s s'' : State} {e : Event} {es : List Event} {as : List Answer} :
    runs step s (e :: es) = some (as, s'') ↔
      ∃ a s' as', step s e = some (a, s') ∧ runs step s' es = some (as', s'') ∧
        as = a :: as' := by
  constructor
  · intro h
    rw [runs] at h
    cases hs : step s e with
    | none => rw [hs] at h; cases h
    | some p =>
        obtain ⟨a, s'⟩ := p
        cases hr : runs step s' es with
        | none => simp only [hs, hr] at h; cases h
        | some q =>
            obtain ⟨as', t⟩ := q
            simp only [hs, hr, Option.some.injEq, Prod.mk.injEq] at h
            obtain ⟨rfl, rfl⟩ := h
            exact ⟨a, s', as', rfl, hr, rfl⟩
  · rintro ⟨a, s', as', hs, hr, rfl⟩
    simp only [runs, hs, hr]

/-- The steps a run over a list of events takes. -/
def history (step : State → Event → Option (Answer × State)) :
    State → List Event → List (State × Event)
  | _, [] => []
  | s, e :: es =>
    match step s e with
    | none => []
    | some (_, s') => (s, e) :: history step s' es

theorem length_history : ∀ {es : List Event} {s s' : State} {as : List Answer},
    runs step s es = some (as, s') → (history step s es).length = as.length
  | [], _, _, _, h => by
    rw [runs_nil] at h
    cases h
    rfl
  | _ :: _, _, _, _, h => by
    obtain ⟨a, t, as', hs, hr, rfl⟩ := runs_cons_eq_some.mp h
    rw [history, hs, List.length_cons, List.length_cons, length_history hr]

/-- **A run over a list of events continues a run of the machine** that the
step function is the step relation of. -/
theorem Machine.Run.append_history {M : Machine State Event}
    (hstep : ∀ s e a s', step s e = some (a, s') → M.Step s e s') :
    ∀ {es : List Event} {past : List (State × Event)} {s s' : State} {as : List Answer},
      M.Run past s → runs step s es = some (as, s') → M.Run (past ++ history step s es) s'
  | [], past, s, s', as, hrun, h => by
    rw [runs_nil] at h
    cases h
    rw [history, List.append_nil]
    exact hrun
  | e :: es, past, s, s', as, hrun, h => by
    obtain ⟨a, t, as', hs, hr, -⟩ := runs_cons_eq_some.mp h
    have hhead := hrun.step (hstep s e a t hs)
    have hrest := append_history hstep hhead hr
    rw [List.append_assoc, List.singleton_append] at hrest
    rw [history, hs]
    exact hrest

/-- Taken from the start, it is a run of the machine. -/
theorem Machine.run_history {M : Machine State Event} {es : List Event} {s s' : State}
    {as : List Answer} (hstep : ∀ s e a s', step s e = some (a, s') → M.Step s e s')
    (hinit : M.init s) (h : runs step s es = some (as, s')) : M.Run (history step s es) s' := by
  have hrun := Run.append_history hstep (.init hinit) h
  rwa [List.nil_append] at hrun

/-- **Every step of the run meets a condition** on the state it finds and
its event. -/
def Along (step : State → Event → Option (Answer × State)) (ok : State → Event → Prop) :
    State → List Event → Prop
  | _, [] => True
  | s, e :: es => ok s e ∧ ∀ a s', step s e = some (a, s') → Along step ok s' es

theorem along_cons {ok : State → Event → Prop} {s s' : State} {e : Event} {es : List Event}
    {a : Answer} (h : step s e = some (a, s')) :
    Along step ok s (e :: es) ↔ ok s e ∧ Along step ok s' es := by
  rw [Along]
  refine and_congr_right fun _ => ⟨fun hall => hall a s' h, fun hrest b t hb => ?_⟩
  rw [h, Option.some.injEq, Prod.mk.injEq] at hb
  exact hb.2 ▸ hrest

theorem along_of_forall {ok : State → Event → Prop} :
    ∀ {es : List Event} {s : State}, (∀ e ∈ es, ∀ t, ok t e) → Along step ok s es
  | [], _, _ => trivial
  | e :: _, s, h =>
    ⟨h e List.mem_cons_self s, fun _ _ _ =>
      along_of_forall fun e' he => h e' (List.mem_cons_of_mem _ he)⟩

/-- **Two conditions that agree wherever an invariant holds** agree along a
run. -/
theorem along_congr {P : State → Prop} {ok ok' : State → Event → Prop}
    (hkeep : ∀ s e a s', P s → step s e = some (a, s') → P s')
    (hiff : ∀ s e, P s → (ok s e ↔ ok' s e)) :
    ∀ {es : List Event} {s : State}, P s → (Along step ok s es ↔ Along step ok' s es)
  | [], _, _ => Iff.rfl
  | e :: _, s, hs =>
    and_congr (hiff s e hs) (forall₃_congr fun a s' hstep =>
      along_congr hkeep hiff (hkeep s e a s' hs hstep))

/-- **Two step functions that agree where a condition holds** have the same
run where every step meets it. -/
theorem runs_eq_of_along {step' : State → Event → Option (Answer × State)}
    {ok : State → Event → Prop} (hstep : ∀ s e, ok s e → step s e = step' s e) :
    ∀ {es : List Event} {s : State}, Along step ok s es → runs step s es = runs step' s es
  | [], _, _ => rfl
  | e :: es, s, ⟨hok, hrest⟩ => by
    rw [runs, runs, ← hstep s e hok]
    cases hs : step s e with
    | none => rfl
    | some p =>
      obtain ⟨a, s'⟩ := p
      have hsame := runs_eq_of_along hstep (hrest a s' hs)
      simp only [hsame]

end Runs

end Ardep
