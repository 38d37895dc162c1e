import Ardep.Common.Machine
/-!
# Latest — the value last given to a key

An event may give a key a new value or leave it as it is. `latest` is the
value a key has after a list of events, the one it was given last. A
machine whose step changes what it stores under a key exactly as its event
says stores the latest value of every key (`Run.eq_latest`).
-/

namespace Ardep

variable {Event Key Value : Type*}

/-- **The value last given to a key**, or the one it had at the start. -/
def latest (gives : Event → Key → Option Value) (start : Key → Value) (past : List Event)
    (key : Key) : Value :=
  past.foldl (fun value e => (gives e key).getD value) (start key)

variable {gives : Event → Key → Option Value} {start : Key → Value} {past : List Event} {e : Event}
  {key : Key}

@[simp] theorem latest_concat :
    latest gives start (past ++ [e]) key = (gives e key).getD (latest gives start past key) := by
  unfold latest
  rw [List.foldl_append, List.foldl_cons, List.foldl_nil]

/-- **Two records that take the same of an event** agree after it exactly if
it gives the key a value, or they agreed before. -/
theorem latest_concat_eq_iff {gives' : Event → Key → Option Value} {start' : Key → Value}
    (hsame : gives e key = gives' e key) :
    latest gives start (past ++ [e]) key = latest gives' start' (past ++ [e]) key ↔
      (gives e key = none → latest gives start past key = latest gives' start' past key) := by
  rw [latest_concat, latest_concat, ← hsame]
  cases hgives : gives e key with
  | none => exact ⟨fun h _ => h, fun h => h rfl⟩
  | some value => exact iff_of_true rfl nofun

/-- What is computed from the latest value is the latest of what is
computed. -/
theorem latest_map {Value' : Type*} (f : Value → Value') (past : List Event) :
    latest (fun e key => (gives e key).map f) (fun key => f (start key)) past key =
      f (latest gives start past key) := by
  show past.foldl (fun value e => ((gives e key).map f).getD value) (f (start key)) =
    f (past.foldl (fun value e => (gives e key).getD value) (start key))
  generalize start key = value
  induction past generalizing value with
  | nil => rfl
  | cons e past ih =>
    rw [List.foldl_cons, List.foldl_cons, ← ih]
    cases gives e key <;> rfl

/-- **A machine that does as its events say** stores the latest values. -/
theorem Machine.Run.eq_latest {State : Type*} {M : Machine State Event}
    {gives : State × Event → Key → Option Value} {past : List (State × Event)} {s : State}
    (stored : State → Key → Value) (hinit : ∀ s, M.init s → ∀ key, stored s key = start key)
    (hstep : ∀ s e s', M.Reachable s → M.Step s e s' → ∀ key,
      stored s' key = (gives (s, e) key).getD (stored s key))
    (h : M.Run past s) (key : Key) : stored s key = latest gives start past key := by
  induction h with
  | init h0 => exact hinit _ h0 key
  | step hrun hs ih => rw [latest_concat, hstep _ _ _ hrun.reachable hs, ih]

end Ardep
