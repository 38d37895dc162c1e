import Mathlib.Data.Nat.Notation
import Ardep.Common.Machine
import Ardep.Loader.Switch
/-!
# Firmware loader — over any number of starts

A switch leaves a session type for the loader's next start, and the loader
resets it before it injects the request, so that a start that ends in
another reset does not inject it again.

`injected_le` counts: over any stretch of a run of switches and starts,
with any of their calls failing and whatever decides which image a reset
starts, the loader injects no more requests than switches have left, and
one that was pending. So between two of them is a switch, and there is no
reboot loop.
-/

namespace Ardep

namespace Loader

open Uds

namespace Switch

/-- What the retained byte sees: a request for the programming session in
the application, and a start of the loader, with what its read and its
write return. -/
inductive BootEvent where
  | switch (c : Calls)
  | start (read written : ℤ)
  deriving DecidableEq, Repr

/-- The byte over resets, which leave it. -/
def boots (physSa : UInt32) (start : Retained) : Machine Retained BootEvent where
  init r := r = start
  Step r e r' := r' = match e with
    | .switch c => (udsSwitchToFirmwareLoaderWithProgrammingSession c r).2
    | .start read written => (main physSa read written r).retained

/-- The step leaves a session pending. -/
def BootEvent.Leaves : Retained × BootEvent → Bool
  | (_, .switch c) => c.retentionWrite = 0
  | (_, .start ..) => false

/-- The step injects a request. -/
def BootEvent.Injects (physSa : UInt32) : Retained × BootEvent → Bool
  | (_, .switch _) => false
  | (r, .start read written) => (main physSa read written r).injected ≠ []

/-- A session is pending. -/
def Retained.pending (r : Retained) : ℕ := if r.sessionType = programmingSession then 1 else 0

variable {physSa : UInt32} {r r' : Retained}

/-- A switch leaves a session pending exactly if it writes the byte. -/
theorem sessionType_switch (c : Calls) (r : Retained) :
    (udsSwitchToFirmwareLoaderWithProgrammingSession c r).2.sessionType =
      if c.retentionWrite = 0 then programmingSession else r.sessionType := by
  simp only [udsSwitchToFirmwareLoaderWithProgrammingSession, retentionWrite, bootmodeSet]
  split_ifs <;> rfl

/-- A start that injects found a session pending, and leaves none. -/
theorem main_injects {read written : ℤ} (h : (main physSa read written r).injected ≠ []) :
    r.sessionType = programmingSession ∧
      (main physSa read written r).retained.sessionType = defaultSession := by
  refine ⟨pending_of_injected h, ?_⟩
  simp only [main, retentionWrite] at h ⊢
  split_ifs at h ⊢ <;> simp_all

/-- A start leaves the byte as it was, or reset. -/
theorem main_retained (physSa : UInt32) (r : Retained) (read written : ℤ) :
    (main physSa read written r).retained.sessionType = r.sessionType ∨
      (main physSa read written r).retained.sessionType = defaultSession := by
  simp only [main, retentionWrite]
  split_ifs <;> first | exact .inl rfl | exact .inr rfl

theorem pending_le_one (r : Retained) : r.pending ≤ 1 := by
  unfold Retained.pending
  split_ifs <;> omega

theorem pending_congr {r r' : Retained} (h : r'.sessionType = r.sessionType) :
    r'.pending = r.pending := by
  unfold Retained.pending
  rw [h]

theorem pending_default {r : Retained} (h : r.sessionType = defaultSession) : r.pending = 0 :=
  if_neg (by rw [h]; decide)

/-- **One step** takes what it injects from what was pending. -/
theorem injects_le {start : Retained} {e : BootEvent} (hs : (boots physSa start).Step r e r') :
    (BootEvent.Injects physSa (r, e)).toNat + r'.pending ≤
      (BootEvent.Leaves (r, e)).toNat + r.pending := by
  subst hs
  cases e with
  | switch c =>
    have hone := pending_le_one (udsSwitchToFirmwareLoaderWithProgrammingSession c r).2
    simp only [BootEvent.Injects, BootEvent.Leaves, Bool.toNat_false]
    by_cases hwrite : c.retentionWrite = 0
    · rw [decide_eq_true hwrite, Bool.toNat_true]
      omega
    · rw [pending_congr (r := r) (by rw [sessionType_switch, if_neg hwrite])]
      omega
  | start read written =>
    simp only [BootEvent.Injects, BootEvent.Leaves, Bool.toNat_false]
    by_cases hinjects : (main physSa read written r).injected ≠ []
    · obtain ⟨hpending, hreset⟩ := main_injects hinjects
      have hone : r.pending = 1 := if_pos hpending
      have hnone := pending_default hreset
      rw [decide_eq_true hinjects, Bool.toNat_true]
      omega
    · rw [decide_eq_false hinjects, Bool.toNat_false]
      rcases main_retained physSa r read written with hsame | hreset
      · have hpending := pending_congr hsame
        omega
      · have hpending := pending_default hreset
        omega

/-- What a stretch of a run injects, from the state it starts in. -/
theorem injected_stretch {start : Retained} {past : List (Retained × BootEvent)}
    (h : (boots physSa start).Run past r) : ∀ pre stretch, past = pre ++ stretch →
      ∃ t, (boots physSa start).Run pre t ∧
        stretch.countP (BootEvent.Injects physSa) + r.pending ≤
          stretch.countP BootEvent.Leaves + t.pending := by
  induction h with
  | init h0 =>
    intro pre stretch hpast
    obtain ⟨rfl, rfl⟩ := List.append_eq_nil_iff.mp hpast.symm
    exact ⟨_, .init h0, Nat.le_refl _⟩
  | step hrun hs ih =>
    intro pre stretch hpast
    -- the stretch ends with the last step, or is empty
    rcases List.eq_nil_or_concat stretch with rfl | ⟨stretch, last, rfl⟩
    · rw [List.append_nil] at hpast
      exact ⟨_, hpast ▸ hrun.step hs, Nat.le_refl _⟩
    · rw [List.concat_eq_append, ← List.append_assoc] at hpast
      obtain ⟨hbefore, hlast⟩ := List.append_inj' hpast rfl
      obtain ⟨t, hpre, hcount⟩ := ih pre stretch hbefore
      have hone := injects_le hs
      refine ⟨t, hpre, ?_⟩
      rw [List.concat_eq_append, ← hlast, List.countP_append, List.countP_append,
        List.countP_singleton, List.countP_singleton]
      have htoNat : ∀ b : Bool, b.toNat = if b = true then 1 else 0 := by decide
      rw [htoNat, htoNat] at hone
      omega

/-- **No reboot loop.** Over every run, with any calls failing, the loader
injects at most as many requests as switches have left, and the one that
was pending at the start; what is still pending has not been injected. So
is it in every stretch of a run, from at most one pending session: between
two requests that are injected a switch has left one. -/
theorem injected_le {start : Retained} {past : List (Retained × BootEvent)}
    (h : (boots physSa start).Run past r) :
    (past.countP (BootEvent.Injects physSa) + r.pending ≤
        past.countP BootEvent.Leaves + start.pending) ∧
      ∀ pre stretch post, past = pre ++ stretch ++ post →
        stretch.countP (BootEvent.Injects physSa) ≤ stretch.countP BootEvent.Leaves + 1 := by
  constructor
  · obtain ⟨t, hnone, hcount⟩ := injected_stretch h [] past rfl
    have ht : t = start := by
      generalize hnil : ([] : List (Retained × BootEvent)) = before at hnone
      cases hnone with
      | init h0 => exact h0
      | step => simp at hnil
    rwa [ht] at hcount
  · intro pre stretch post hpast
    obtain ⟨t, hrun, -⟩ := injected_stretch h (pre ++ stretch) post hpast
    obtain ⟨u, -, hcount⟩ := injected_stretch hrun pre stretch rfl
    have hone := pending_le_one u
    omega

/-- A switch that fails at the boot mode, and two starts of the loader. -/
def twoStarts : List (Retained × BootEvent) :=
  [(⟨0, defaultSession⟩, .switch ⟨0, -EACCES, true⟩), (⟨0, programmingSession⟩, .start 0 0),
    (⟨0, defaultSession⟩, .start 0 0)]

/-- One of them injects. -/
theorem injected_le_twoStarts : twoStarts.countP (BootEvent.Injects 0x7E8) ≤ 1 := by
  have h : (boots 0x7E8 ⟨0, defaultSession⟩).Run twoStarts ⟨0, defaultSession⟩ :=
    .step (.step (.step (.init rfl) rfl) rfl) rfl
  exact (injected_le h).1

end Switch

end Loader

end Ardep
