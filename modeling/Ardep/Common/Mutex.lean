import Mathlib.Tactic.TypeStar
/-!
# A mutex and the agents around it

Every agent is at some statement, and some statements lie between locking
and unlocking. `Owns owner holds` says that the owner the mutex has on
record is exactly the agent at such a statement; it excludes a second one
(`Owns.eq`), and it survives taking a free mutex, giving it back, and every
statement that does neither.
-/

namespace Ardep

variable {Agent : Type*} {owner : Option Agent} {holds holds' : Agent → Bool} {a b : Agent}

/-- **The mutex is owned by whoever holds it.** -/
def Owns (owner : Option Agent) (holds : Agent → Bool) : Prop :=
  ∀ a, holds a = true ↔ owner = some a

namespace Owns

theorem none_iff : Owns none holds ↔ ∀ a, holds a = false := by
  simp [Owns]

/-- Two agents do not hold it at once. -/
theorem eq (h : Owns owner holds) (ha : holds a = true) (hb : holds b = true) : a = b := by
  have hown : owner = some a := (h a).mp ha
  rw [(h b).mp hb] at hown
  exact (Option.some.inj hown).symm

/-- A statement that neither locks nor unlocks. -/
theorem keep (h : Owns owner holds) (hsame : ∀ a, holds' a = holds a) : Owns owner holds' := by
  intro a
  rw [hsame a]
  exact h a

/-- Locking, where the mutex is free. -/
theorem take (h : Owns none holds) (ha : holds' a = true) (hsame : ∀ b, b ≠ a → holds' b = holds b) :
    Owns (some a) holds' := by
  intro b
  constructor
  · intro hb
    by_cases hba : b = a
    · rw [hba]
    · rw [hsame b hba, none_iff.mp h b] at hb
      cases hb
  · intro hb
    cases hb
    exact ha

/-- Unlocking, by the agent that holds it. -/
theorem give (h : Owns owner holds) (hheld : holds a = true) (ha : holds' a = false)
    (hsame : ∀ b, b ≠ a → holds' b = holds b) : Owns none holds' := by
  refine none_iff.mpr fun b => ?_
  by_cases hba : b = a
  · rw [hba, ha]
  · rw [hsame b hba]
    cases hb : holds b with
    | false => rfl
    | true => exact absurd (h.eq hb hheld) hba

end Owns

end Ardep
