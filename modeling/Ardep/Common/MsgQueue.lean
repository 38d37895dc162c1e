import Mathlib.Data.Nat.Notation
import Mathlib.Tactic.ByContra
import Mathlib.Tactic.TypeStar
/-!
# Message queues — bounded, first in first out, never waiting

A queue of at most `capacity` messages. A message put in a full queue is
refused, and `offer` is the put of a caller who then drops it: it leaves
the queue as it was exactly when the queue is full (`offer_eq_self_iff`).

`drain` is the loop of a reader who takes messages until there is none.
`drain_eq` says that the loop ends, and with all of them in order.
-/

namespace Ardep

/-- **A queue of at most `capacity` messages**, the oldest first. -/
structure MsgQueue (α : Type*) (capacity : ℕ) where
  msgs : List α
  bounded : msgs.length ≤ capacity

namespace MsgQueue

variable {α : Type*} {capacity n : ℕ} {q : MsgQueue α capacity} {m : α}

/-- The queue without messages. -/
def empty : MsgQueue α capacity := ⟨[], Nat.zero_le capacity⟩

/-- There is no room for another message. -/
def Full (q : MsgQueue α capacity) : Prop := capacity ≤ q.msgs.length

instance (q : MsgQueue α capacity) : Decidable q.Full := inferInstanceAs (Decidable (_ ≤ _))

/-! ## Putting -/

/-- Put a message in at the end, where there is room. -/
def put (q : MsgQueue α capacity) (m : α) : Option (MsgQueue α capacity) :=
  if h : q.msgs.length < capacity then
    some ⟨q.msgs ++ [m], by rw [List.length_append]; exact h⟩
  else none

/-- Put a message in, or drop it. -/
def offer (q : MsgQueue α capacity) (m : α) : MsgQueue α capacity := (q.put m).getD q

theorem offer_of_full (h : q.Full) : q.offer m = q := by
  rw [offer, put, dif_neg (Nat.not_lt.mpr h), Option.getD_none]

theorem msgs_offer_of_not_full (h : ¬ q.Full) : (q.offer m).msgs = q.msgs ++ [m] := by
  rw [offer, put, dif_pos (Nat.not_le.mp h), Option.getD_some]

/-- **An offer shows**, unless the queue is full. -/
theorem offer_eq_self_iff : q.offer m = q ↔ q.Full := by
  refine ⟨fun h => ?_, offer_of_full⟩
  by_contra hroom
  have hlen : (q.msgs ++ [m]).length = q.msgs.length := by
    rw [← msgs_offer_of_not_full hroom, h]
  rw [List.length_append] at hlen
  exact Nat.succ_ne_self _ hlen

/-! ## Taking -/

/-- Take the oldest message. -/
def get : MsgQueue α capacity → Option (α × MsgQueue α capacity)
  | ⟨[], _⟩ => none
  | ⟨m :: msgs, h⟩ => some (m, ⟨msgs, Nat.le_of_succ_le h⟩)

/-- Take messages until there is none, at most `n`. -/
def drainFor : ℕ → MsgQueue α capacity → List α × MsgQueue α capacity
  | 0, q => ([], q)
  | n + 1, q =>
    match q.get with
    | none => ([], q)
    | some (m, q') =>
      let rest := drainFor n q'
      (m :: rest.1, rest.2)

/-- Take messages until there is none. -/
def drain (q : MsgQueue α capacity) : List α × MsgQueue α capacity := drainFor capacity q

/-- The loop ends within as many rounds as there are messages. -/
theorem drainFor_of_length_le {msgs : List α} (hn : msgs.length ≤ n)
    (h : msgs.length ≤ capacity) :
    drainFor n (⟨msgs, h⟩ : MsgQueue α capacity) = (msgs, empty) := by
  induction msgs generalizing n with
  | nil => cases n <;> rfl
  | cons m msgs ih =>
    cases n with
    | zero => exact absurd hn (Nat.not_succ_le_zero _)
    | succ n =>
      -- the head is taken in this round, and the rest is as long as the fuel that is left
      have hrest := ih (Nat.le_of_succ_le_succ hn) (Nat.le_of_succ_le h)
      rw [drainFor, get]
      simp only [hrest]

/-- **A drain takes everything, in order.** -/
theorem drain_eq (q : MsgQueue α capacity) : q.drain = (q.msgs, empty) :=
  drainFor_of_length_le q.bounded q.bounded

end MsgQueue

end Ardep
