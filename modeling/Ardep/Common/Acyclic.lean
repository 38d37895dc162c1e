import Mathlib.Logic.Relation
import Mathlib.Order.WellFounded
import Mathlib.Data.Fintype.Order
/-!
# Acyclic relations — references that lead nowhere twice

A relation with no way from a point back to itself. It stays one under a
new edge whose end does not reach its start, and over a finite type
following it comes to an end.
-/

namespace Ardep

open Relation

/-- No point leads to itself. -/
def Acyclic {α : Type*} (r : α → α → Prop) : Prop := ∀ a, ¬ TransGen r a a

namespace Acyclic

variable {α : Type*} {r r' : α → α → Prop} {x y : α}

theorem empty (h : ∀ a b, ¬ r a b) : Acyclic r := by
  intro a ha
  obtain ⟨b, hb, -⟩ := TransGen.head'_iff.mp ha
  exact h a b hb

/-- Fewer edges have no more cycles. -/
theorem mono (h : Acyclic r) (hr : ∀ a b, r' a b → r a b) : Acyclic r' :=
  fun a ha => h a (TransGen.mono hr a a ha)

/-- A path over one edge more is a path without it, or takes it once: for
a second time round its end would reach its start. -/
theorem transGen_insert (hyx : ¬ ReflTransGen r y x) {a b : α}
    (hr : ∀ a b, r' a b → r a b ∨ a = x ∧ b = y) (h : TransGen r' a b) :
    TransGen r a b ∨ ReflTransGen r a x ∧ ReflTransGen r y b := by
  induction h with
  | single hab =>
    rcases hr _ _ hab with hab | ⟨rfl, rfl⟩
    · exact .inl (.single hab)
    · exact .inr ⟨.refl, .refl⟩
  | tail _ hbc ih =>
    rcases hr _ _ hbc with hbc | ⟨rfl, rfl⟩
    · exact ih.imp (·.tail hbc) fun hxy => ⟨hxy.1, hxy.2.tail hbc⟩
    · rcases ih with hab | hxy
      · exact .inr ⟨hab.to_reflTransGen, .refl⟩
      · exact absurd hxy.2 hyx

/-- **One edge more**, whose end does not reach its start. -/
theorem insert (h : Acyclic r) (hyx : ¬ ReflTransGen r y x)
    (hr : ∀ a b, r' a b → r a b ∨ a = x ∧ b = y) : Acyclic r' := by
  intro a ha
  rcases transGen_insert hyx hr ha with haa | ⟨hax, hya⟩
  · exact h a haa
  · exact hyx (hya.trans hax)

/-- **Over a finite type** following an acyclic relation comes to an end. -/
theorem wellFounded [Finite α] (h : Acyclic r) : WellFounded (Function.swap r) := by
  have htrans : IsTrans α (TransGen (Function.swap r)) := ⟨fun _ _ _ => TransGen.trans⟩
  have hirrefl : Std.Irrefl (TransGen (Function.swap r)) :=
    ⟨fun a ha => h a (transGen_swap.mp ha)⟩
  have hwf : WellFounded (TransGen (Function.swap r)) :=
    Finite.wellFounded_of_trans_of_irrefl _
  exact Subrelation.wf (r := TransGen (Function.swap r)) (fun hab => .single hab) hwf

end Acyclic

end Ardep
