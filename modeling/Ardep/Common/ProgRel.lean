import Mathlib.Logic.Basic
/-!
# Programs related step by step

A relation between the programs of two monads that holds of programs
returning one value and is kept by sequencing. A function that is the same
text over two sets of primitives then maps related primitives to related
programs, and the text is gone through once for all relations: for
equality, for a program keeping a property of its state (`keeps`) or
having more of a state than another one (`through`), for one program
giving what another gives (`below`), and for a program always giving
something (`total`).
-/

namespace Ardep

/-- **A relation between programs**, kept by sequencing. -/
structure ProgRel (m n : Type → Type) [Monad m] [Monad n] where
  /-- The two programs are related. -/
  Rel : ∀ {β : Type}, m β → n β → Prop
  rel_pure : ∀ {β : Type} (b : β), Rel (pure b : m β) (pure b : n β)
  rel_bind : ∀ {β γ : Type} {x : m β} {y : n β} {f : β → m γ} {g : β → n γ},
    Rel x y → (∀ b, Rel (f b) (g b)) → Rel (x >>= f) (y >>= g)

namespace ProgRel

section General

variable {m n : Type → Type} [Monad m] [Monad n] (R : ProgRel m n)

theorem rel_ite {β : Type} {p : Prop} [Decidable p] {x x' : m β} {y y' : n β}
    (h : R.Rel x y) (h' : R.Rel x' y') : R.Rel (if p then x else x') (if p then y else y') := by
  split
  · exact h
  · exact h'

/-- Programs that are equal. -/
def eq (m : Type → Type) [Monad m] : ProgRel m m where
  Rel := fun x y => x = y
  rel_pure := fun _ => rfl
  rel_bind := fun hx hf => by rw [hx, funext hf]

end General

/-- The first program leads from states with a property to such states. -/
def keeps {σ : Type} (I : σ → Prop) : ProgRel (StateM σ) (StateM σ) where
  Rel := fun x _ => ∀ s, I s → I (x s).2
  rel_pure := fun _ _ h => h
  rel_bind := fun hx hf s h => hf _ _ (hx s h)

/-- What holds after a first program and is kept by the rest. -/
theorem keeps_bind {σ β γ : Type} {I : σ → Prop} {x : StateM σ β} {f : β → StateM σ γ} {s : σ}
    (hx : I (x s).2) (hf : ∀ b t, I t → I (f b t).2) : I ((x >>= f) s).2 := hf _ _ hx

/-- The second program is the first one seen through a function of the
state. -/
def through {σ τ : Type} (f : σ → τ) : ProgRel (StateM σ) (StateM τ) where
  Rel := fun x y => ∀ s, y (f s) = ((x s).1, f (x s).2)
  rel_pure := fun _ _ => rfl
  rel_bind := by
    intro β γ x y g h hx hf s
    have hrest := hf (x s).1 (x s).2
    change h (y (f s)).1 (y (f s)).2 = _
    rw [hx s]
    exact hrest

section Partial

variable {σ : Type}

/-- What the first program gives, the second gives. -/
def below (σ : Type) : ProgRel (StateT σ Option) (StateT σ Option) where
  Rel := fun x y => ∀ s r, x s = some r → y s = some r
  rel_pure := fun _ _ _ h => h
  rel_bind := by
    intro β γ x y f g hx hf s r h
    obtain ⟨⟨b, s'⟩, hb, hr⟩ := Option.bind_eq_some_iff.mp h
    exact Option.bind_eq_some_iff.mpr ⟨(b, s'), hx s _ hb, hf b s' r hr⟩

/-- The program gives something from every state. -/
def Total {β : Type} (x : StateT σ Option β) : Prop := ∀ s, ∃ r, x s = some r

/-- The first program is total. -/
def total (σ : Type) : ProgRel (StateT σ Option) (StateT σ Option) where
  Rel := fun x _ => Total x
  rel_pure := fun b s => ⟨(b, s), rfl⟩
  rel_bind := by
    intro β γ x y f g hx hf s
    obtain ⟨⟨b, s'⟩, hb⟩ := hx s
    obtain ⟨r, hr⟩ := hf b s'
    exact ⟨r, Option.bind_eq_some_iff.mpr ⟨(b, s'), hb, hr⟩⟩

theorem total_of_rel {β : Type} {x : StateT σ Option β} (h : (total σ).Rel x x) : Total x := h

end Partial

end ProgRel

end Ardep
