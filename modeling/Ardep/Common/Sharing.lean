import Ardep.Common.Machine
import Mathlib.Data.Set.Basic
/-!
# Sharing — one server, several clients

Two things are said about a state that several parties use. `Confined` is
about a call: it reads and changes certain places of the state and no
others. `Views` is about a server whose clients take turns: what a client
is answered does not depend on the requests of the others, if each
request keeps what the others see, and what is left of one client's turn
is not looked at in the next (`Views.undisturbed`).
-/

namespace Ardep

section Footprint

variable {σ Loc V β γ : Type*}

/-- **Two states hold the same** at some of their places. -/
def AgreeOn (look : σ → Loc → V) (X : Set Loc) (t t' : σ) : Prop :=
  ∀ l ∈ X, look t l = look t' l

/-- **A call confined to some places**, for states with a property. What it
returns and what it leaves at these places follows from what it finds
there, and it leaves the rest as it is. -/
structure Confined (look : σ → Loc → V) (I : σ → Prop) (X : Set Loc) (f : σ → β × σ) : Prop where
  same : ∀ t t', I t → I t' → AgreeOn look X t t' →
    (f t).1 = (f t').1 ∧ AgreeOn look X (f t).2 (f t').2
  frame : ∀ t, I t → AgreeOn look Xᶜ (f t).2 t

variable {look : σ → Loc → V} {X Y : Set Loc} {t t' t'' : σ} {I : σ → Prop} {f : σ → β × σ}

theorem AgreeOn.refl : AgreeOn look X t t := fun _ _ => rfl

theorem AgreeOn.trans (h : AgreeOn look X t t') (h' : AgreeOn look X t' t'') :
    AgreeOn look X t t'' :=
  fun l hl => (h l hl).trans (h' l hl)

theorem AgreeOn.mono (h : AgreeOn look Y t t') (hXY : X ⊆ Y) : AgreeOn look X t t' :=
  fun l hl => h l (hXY hl)

/-- **The call in two states that agree**: one result, and what each leaves. -/
theorem Confined.exists_calls (h : Confined look I X f) (ht : I t) (ht' : I t')
    (hagree : AgreeOn look X t t') :
    ∃ b u u', f t = (b, u) ∧ f t' = (b, u') ∧ AgreeOn look X u u' ∧ AgreeOn look Xᶜ u t := by
  obtain ⟨hresult, hinside⟩ := h.same t t' ht ht' hagree
  refine ⟨(f t).1, (f t).2, (f t').2, rfl, ?_, hinside, h.frame t ht⟩
  rw [hresult]

/-- A call that does nothing. -/
theorem confined_pure (b : β) : Confined look I X fun t => (b, t) :=
  ⟨fun _ _ _ _ h => ⟨rfl, h⟩, fun _ _ => .refl⟩

/-- **A call is confined to more places than it needs**: where it does not
go, two states that agree still do. -/
theorem Confined.mono (h : Confined look I X f) (hXY : X ⊆ Y) : Confined look I Y f := by
  refine ⟨fun t t' ht ht' hagree => ?_, fun t ht => ?_⟩
  · obtain ⟨hresult, hinside⟩ := h.same t t' ht ht' (hagree.mono hXY)
    refine ⟨hresult, fun l hl => ?_⟩
    by_cases hlX : l ∈ X
    · exact hinside l hlX
    · rw [h.frame t ht l hlX, h.frame t' ht' l hlX]
      exact hagree l hl
  · exact (h.frame t ht).mono (fun _ hl hlX => hl (hXY hlX))

/-- What is made of the result afterwards needs no place. -/
theorem Confined.map (h : Confined look I X f) (k : β → γ) {g : σ → γ × σ}
    (hg : ∀ t, g t = (k (f t).1, (f t).2)) : Confined look I X g := by
  refine ⟨fun t t' ht ht' hagree => ?_, fun t ht => ?_⟩
  · obtain ⟨hresult, hinside⟩ := h.same t t' ht ht' hagree
    rw [hg, hg]
    exact ⟨congrArg k hresult, hinside⟩
  · rw [hg]
    exact h.frame t ht

/-- **One call after another**, the second chosen by the first's result. -/
theorem Confined.bind {g : β → σ → γ × σ} (hf : Confined look (fun _ => True) X f)
    (hg : ∀ b, Confined look (fun _ => True) X (g b)) :
    Confined look (fun _ => True) X fun t => g (f t).1 (f t).2 := by
  refine ⟨fun t t' _ _ hagree => ?_, fun t _ => ?_⟩
  · obtain ⟨hresult, hinside⟩ := hf.same t t' trivial trivial hagree
    rw [hresult]
    exact (hg (f t').1).same _ _ trivial trivial hinside
  · exact ((hg (f t).1).frame _ trivial).trans (hf.frame t trivial)

end Footprint

section Clients

variable {ι State Event Answer α : Type*}

/-- **A server of several clients**, with a note of whom it served last. -/
def served (step : State → Event → Option (Answer × State)) (s : State × ι) (e : ι × Event) :
    Option ((ι × Answer) × (State × ι)) :=
  (step s.1 e.2).map fun r => ((e.1, r.1), (r.2, e.1))

/-- What belongs to one client, of requests or of answers. -/
def ofClient [DecidableEq ι] (i : ι) (xs : List (ι × α)) : List α :=
  (xs.filter (·.1 = i)).map (·.2)

/-- **Taking turns**: a client that was not served last finds the server
quiet. -/
def TakingTurns (quiet : State → Prop) (s : State × ι) (e : ι × Event) : Prop :=
  s.2 = e.1 ∨ quiet s.1

/-- **A client is undisturbed** in a run: it is answered as it is with the
requests of all others removed. -/
def Undisturbed [DecidableEq ι] (step : State → Event → Option (Answer × State)) (i : ι)
    (s : State × ι) (es : List (ι × Event)) : Prop :=
  ∃ as s' bs t', runs (served step) s es = some (as, s') ∧
    runs step s.1 (ofClient i es) = some (bs, t') ∧ ofClient i as = bs

/-- **What the clients see of the server.** `Like i` says that a client
would find the same in two states, and `Serves i` that this is so while
its requests are being served. -/
structure Views (step : State → Event → Option (Answer × State)) (quiet : State → Prop)
    (mine : ι → Event → Prop) where
  Like : ι → State → State → Prop
  Serves : ι → State → State → Prop
  like_refl : ∀ i s, Like i s s
  like_of_serves : ∀ i s t, Serves i s t → Like i s t
  /-- Nothing but what it would find is left for a client's turn. -/
  serves_of_quiet : ∀ i s t, quiet s → quiet t → Like i s t → Serves i s t
  quiet_of_serves : ∀ i s t, Serves i s t → quiet s → quiet t
  /-- A request is answered alike and keeps what the others would find. -/
  serves_step : ∀ i s t e, Serves i s t → mine i e →
    ∃ a s' t', step s e = some (a, s') ∧ step t e = some (a, t') ∧ Serves i s' t' ∧
      ∀ j, j ≠ i → ∀ r, Like j s r → Like j s' r

variable {step : State → Event → Option (Answer × State)} {quiet : State → Prop}
variable {mine : ι → Event → Prop} {i j : ι}

theorem served_eq_some {s s' : State} (last j : ι) {e : Event} {a : Answer}
    (h : step s e = some (a, s')) : served step (s, last) (j, e) = some ((j, a), (s', j)) := by
  simp [served, h]

variable [DecidableEq ι]

theorem ofClient_cons_self {x : α} {xs : List (ι × α)} :
    ofClient i ((i, x) :: xs) = x :: ofClient i xs := by
  simp [ofClient]

theorem ofClient_cons_of_ne (h : j ≠ i) {x : α} {xs : List (ι × α)} :
    ofClient i ((j, x) :: xs) = ofClient i xs := by
  simp [ofClient, h]

/-- **Two runs side by side**, the second without the requests of the
others. While `i` has its turn the two states serve it alike; in the turn
of another the second is quiet, and `i` would find the same in both. -/
theorem Views.runs_served (V : Views step quiet mine) :
    ∀ (es : List (ι × Event)) (s t : State) (last : ι),
      (last = i → V.Serves i s t) →
      (last ≠ i → V.Like i s t ∧ quiet t ∧ V.Serves last s s) →
      (∀ x ∈ es, mine x.1 x.2) →
      Along (served step) (TakingTurns quiet) (s, last) es →
      ∃ as s' bs t', runs (served step) (s, last) es = some (as, s') ∧
        runs step t (ofClient i es) = some (bs, t') ∧ ofClient i as = bs := by
  intro es
  induction es with
  | nil => exact fun s t last _ _ _ _ => ⟨[], (s, last), [], t, rfl, rfl, rfl⟩
  | cons x es ih =>
    obtain ⟨j, e⟩ := x
    intro s t last hown hother hmine halong
    have hhead : mine j e := hmine (j, e) List.mem_cons_self
    have htail : ∀ x ∈ es, mine x.1 x.2 := fun x hx => hmine x (List.mem_cons_of_mem _ hx)
    have hturn : last = j ∨ quiet s := halong.1
    by_cases hji : j = i
    · subst hji
      have hserves : V.Serves j s t := by
        by_cases hlast : last = j
        · exact hown hlast
        · obtain ⟨hlike, hquiet, -⟩ := hother hlast
          exact V.serves_of_quiet j s t (hturn.resolve_left hlast) hquiet hlike
      obtain ⟨a, s', t', hs, ht, hserves', -⟩ := V.serves_step j s t e hserves hhead
      have hstep := served_eq_some last j hs
      obtain ⟨as, s'', bs, t'', hruns, hruns', hanswers⟩ := ih s' t' j
        (fun _ => hserves') (fun hne => absurd rfl hne) htail ((along_cons hstep).mp halong).2
      refine ⟨(j, a) :: as, s'', a :: bs, t'', ?_, ?_, ?_⟩
      · exact runs_cons_eq_some.mpr ⟨_, _, _, hstep, hruns, rfl⟩
      · rw [ofClient_cons_self]
        exact runs_cons_eq_some.mpr ⟨_, _, _, ht, hruns', rfl⟩
      · rw [ofClient_cons_self, hanswers]
    · -- the turn of another, which it may have had before
      have hserves : V.Serves j s s := by
        by_cases hlast : last = j
        · have hne : last ≠ i := fun h => hji (hlast ▸ h)
          exact hlast ▸ (hother hne).2.2
        · have hquiet := hturn.resolve_left hlast
          exact V.serves_of_quiet j s s hquiet hquiet (V.like_refl j s)
      have hleft : V.Like i s t ∧ quiet t := by
        by_cases hlast : last = i
        · have hquiet := hturn.resolve_left fun h => hji (h ▸ hlast)
          exact ⟨V.like_of_serves i s t (hown hlast), V.quiet_of_serves i s t (hown hlast) hquiet⟩
        · exact ⟨(hother hlast).1, (hother hlast).2.1⟩
      obtain ⟨a, s', t', hs, ht, hserves', hkeeps⟩ := V.serves_step j s s e hserves hhead
      rw [hs] at ht
      obtain ⟨-, rfl⟩ := Prod.mk.inj (Option.some.inj ht)
      have hstep := served_eq_some last j hs
      obtain ⟨as, s'', bs, t'', hruns, hruns', hanswers⟩ := ih s' t j
        (fun h => absurd h hji)
        (fun _ => ⟨hkeeps i (Ne.symm hji) t hleft.1, hleft.2, hserves'⟩) htail
        ((along_cons hstep).mp halong).2
      refine ⟨(j, a) :: as, s'', bs, t'', ?_, ?_, ?_⟩
      · exact runs_cons_eq_some.mpr ⟨_, _, _, hstep, hruns, rfl⟩
      · rw [ofClient_cons_of_ne hji]
        exact hruns'
      · rw [ofClient_cons_of_ne hji]
        exact hanswers

/-- **Clients that take turns do not disturb each other.** -/
theorem Views.undisturbed (V : Views step quiet mine) {es : List (ι × Event)} {s : State}
    {last : ι} (hquiet : quiet s) (hmine : ∀ x ∈ es, mine x.1 x.2)
    (halong : Along (served step) (TakingTurns quiet) (s, last) es) (i : ι) :
    Undisturbed step i (s, last) es := by
  have hserves : ∀ j, V.Serves j s s := fun j =>
    V.serves_of_quiet j s s hquiet hquiet (V.like_refl j s)
  exact V.runs_served es s s last (fun _ => hserves i)
    (fun _ => ⟨V.like_refl i s, hquiet, hserves last⟩) hmine halong

end Clients

end Ardep
