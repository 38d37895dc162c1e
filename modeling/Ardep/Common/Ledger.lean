import Mathlib.Data.Finset.Basic
import Mathlib.Data.Finset.SDiff
import Mathlib.Data.List.Perm.Basic
import Mathlib.Data.Finset.Dedup
/-!
# Ledgers — the live blocks of a heap

A ledger records which blocks are live. `malloc` hands out a block that
was never used, or nothing; `free` of a block that is not live is a
fault, and so is reading a list through one.

`Holds` is ownership: the blocks listed are live and distinct. A part of
what is held can be freed, and what is left is still held
(`Holds.freeAll`); a fresh block joins it (`Holds.malloc`).
-/

namespace Ardep

/-- What goes wrong with a block that is not live. -/
inductive Fault
  | freed (block : ℕ)
  | traversed (block : ℕ)
  deriving DecidableEq, Repr

/-- **A ledger of live blocks.** Every block handed out so far is below
`next`. -/
structure Ledger where
  live : Finset ℕ
  next : ℕ
  lt_next : ∀ b ∈ live, b < next

namespace Ledger

variable {L L' : Ledger} {b : ℕ} {bs cs : List ℕ}

/-- A ledger on which nothing is live. -/
def empty : Ledger := ⟨∅, 0, by simp⟩

theorem next_notMem (L : Ledger) : L.next ∉ L.live :=
  fun h => lt_irrefl _ (L.lt_next _ h)

/-- The ledger once a fresh block is handed out: the block is `L.next`. -/
def grow (L : Ledger) : Ledger where
  live := insert L.next L.live
  next := L.next + 1
  lt_next := by
    intro b hb
    rcases Finset.mem_insert.mp hb with rfl | hb
    · exact Nat.lt_succ_self _
    · exact Nat.lt_succ_of_lt (L.lt_next b hb)

/-- The ledger without a block. -/
def drop (L : Ledger) (b : ℕ) : Ledger where
  live := L.live.erase b
  next := L.next
  lt_next := fun c hc => L.lt_next c (Finset.mem_of_mem_erase hc)

/-- `k_malloc`: it gives a block where the call succeeds. -/
def malloc (succeeds : Bool) (L : Ledger) : Option ℕ × Ledger :=
  if succeeds then (some L.next, L.grow) else (none, L)

/-- `k_free`. -/
def free (b : ℕ) (L : Ledger) : Except Fault Ledger :=
  if b ∈ L.live then .ok (L.drop b) else .error (.freed b)

/-- Free one block after the other. -/
def freeAll : List ℕ → Ledger → Except Fault Ledger
  | [], L => .ok L
  | b :: bs, L => (L.free b).bind (freeAll bs)

/-- Walk a list: its head and its nodes must be live. -/
def traverse (head : ℕ) (nodes : List ℕ) (L : Ledger) : Except Fault Unit :=
  match (head :: nodes).find? (· ∉ L.live) with
  | some b => .error (.traversed b)
  | none => .ok ()

@[simp] theorem live_grow : L.grow.live = insert L.next L.live := rfl
@[simp] theorem next_grow : L.grow.next = L.next + 1 := rfl
@[simp] theorem live_drop : (L.drop b).live = L.live.erase b := rfl
@[simp] theorem malloc_true : L.malloc true = (some L.next, L.grow) := rfl
@[simp] theorem malloc_false : L.malloc false = (none, L) := rfl

theorem free_of_mem (h : b ∈ L.live) : L.free b = .ok (L.drop b) := if_pos h

theorem traverse_of_mem {head : ℕ} {nodes : List ℕ} (h : ∀ b ∈ head :: nodes, b ∈ L.live) :
    L.traverse head nodes = .ok () := by
  have hnone : (head :: nodes).find? (· ∉ L.live) = none := by
    simpa [List.find?_eq_none] using h
  rw [traverse, hnone]

theorem traverse_of_notMem {head : ℕ} {nodes : List ℕ} (h : head ∉ L.live) :
    L.traverse head nodes = .error (.traversed head) := by
  simp [traverse, h]

/-! ## Ownership -/

/-- The blocks are live and no two of them the same. -/
structure Holds (L : Ledger) (bs : List ℕ) : Prop where
  nodup : bs.Nodup
  live : ∀ b ∈ bs, b ∈ L.live

namespace Holds

theorem nil : L.Holds [] := ⟨List.nodup_nil, by simp⟩

theorem perm (h : L.Holds bs) (hp : bs.Perm cs) : L.Holds cs :=
  ⟨hp.nodup_iff.mp h.nodup, fun b hb => h.live b (hp.mem_iff.mpr hb)⟩

theorem left (h : L.Holds (bs ++ cs)) : L.Holds bs :=
  ⟨(List.nodup_append.mp h.nodup).1, fun b hb => h.live b (List.mem_append_left _ hb)⟩

/-- Two parts of what is held have no block in common. -/
theorem disjoint (h : L.Holds (bs ++ cs)) : ∀ b ∈ bs, b ∉ cs :=
  fun b hb hc => (List.nodup_append.mp h.nodup).2.2 b hb b hc rfl

/-- A fresh block is not among those held. -/
theorem grow (h : L.Holds bs) : L.grow.Holds (L.next :: bs) where
  nodup := List.nodup_cons.mpr ⟨fun hb => L.next_notMem (h.live _ hb), h.nodup⟩
  live := by
    intro b hb
    rw [live_grow, Finset.mem_insert]
    exact (List.mem_cons.mp hb).imp id (h.live b)

/-- **Freeing a block that is held** leaves the others held. -/
theorem free (h : L.Holds (b :: bs)) : L.free b = .ok (L.drop b) ∧ (L.drop b).Holds bs := by
  obtain ⟨hb, hbs⟩ := List.nodup_cons.mp h.nodup
  refine ⟨free_of_mem (h.live b List.mem_cons_self), hbs, fun c hc => ?_⟩
  rw [live_drop, Finset.mem_erase]
  exact ⟨fun heq => hb (heq ▸ hc), h.live c (List.mem_cons_of_mem _ hc)⟩

/-- **Freeing a part of what is held** succeeds, takes just that part off
the ledger and leaves the rest held. -/
theorem freeAll : ∀ {bs : List ℕ} {L : Ledger}, L.Holds (bs ++ cs) →
    ∃ L', L.freeAll bs = .ok L' ∧ L'.Holds cs ∧ L'.live = L.live \ bs.toFinset ∧
      L'.next = L.next := by
  intro bs
  induction bs with
  | nil => intro L h; exact ⟨L, rfl, h, by simp, rfl⟩
  | cons b bs ih =>
    intro L h
    obtain ⟨hfree, hrest⟩ := Holds.free h
    obtain ⟨L', hall, hcs, hlive, hnext⟩ := ih hrest
    refine ⟨L', ?_, hcs, ?_, hnext⟩
    · rw [Ledger.freeAll, hfree]
      exact hall
    · ext c
      simp only [hlive, live_drop, List.toFinset_cons, Finset.mem_sdiff, Finset.mem_erase,
        Finset.mem_insert]
      tauto

/-- What is held can be walked. -/
theorem traverse {head : ℕ} {nodes : List ℕ} (h : L.Holds (head :: nodes ++ cs)) :
    L.traverse head nodes = .ok () :=
  traverse_of_mem h.left.live

end Holds

end Ledger

end Ardep
