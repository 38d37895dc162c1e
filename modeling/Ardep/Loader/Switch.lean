import Mathlib.Tactic.ByContra
import Mathlib.Tactic.SplitIfs
import Ardep.Uds.Err
/-!
# Firmware loader — the switch into the programming session

The application hands a programming session over to the firmware loader
through two retained bytes: the session type it writes first, and the boot
mode the bootloader looks at. The loader reads the session type on its
next start, whatever started it, and injects the session request it
stands for.

A switch that fails at the boot mode has written the session type
already. `undone_iff` says which failed switches the loader does not
notice, and `pending_attempts` what is left after any number of them.
-/

namespace Ardep

namespace Loader

open Uds

namespace Switch

/-- `UDS_DIAG_SESSION__DEFAULT`. -/
abbrev defaultSession : UInt8 := 0x01
/-- `UDS_DIAG_SESSION__PROGRAMMING`. -/
abbrev programmingSession : UInt8 := 0x02
/-- `BOOT_MODE_TYPE_BOOTLOADER`. -/
abbrev bootloaderMode : UInt8 := 0x01

/-- **The retained memory**: a byte for `zephyr,boot-mode` and one for
`zephyr,firmware-loader-args`. -/
structure Retained where
  bootMode : UInt8
  sessionType : UInt8
  deriving DecidableEq, Repr

/-- `retention_write` to the second area, returning `ret`. -/
def retentionWrite (ret : ℤ) (b : UInt8) (r : Retained) : Retained :=
  if ret = 0 then { r with sessionType := b } else r

/-- `bootmode_set`, returning `ret`. -/
def bootmodeSet (ret : ℤ) (mode : UInt8) (r : Retained) : Retained :=
  if ret = 0 then { r with bootMode := mode } else r

/-! ## The application -/

/-- What the calls of one switch return, and whether `sys_reboot` takes
effect. -/
structure Calls where
  retentionWrite : ℤ
  bootmodeSet : ℤ
  reboots : Bool
  deriving DecidableEq, Repr

inductive Outcome where
  | returned (code : UDSErr)
  | rebooting
  deriving DecidableEq, Repr

/-- `uds_switch_to_firmware_loader_with_programming_session`. -/
def udsSwitchToFirmwareLoaderWithProgrammingSession (c : Calls) (r : Retained) :
    Outcome × Retained :=
  let r := retentionWrite c.retentionWrite programmingSession r
  if c.retentionWrite ≠ 0 then (.returned .conditionsNotCorrect, r)
  else
    let r := bootmodeSet c.bootmodeSet bootloaderMode r
    if c.bootmodeSet ≠ 0 then (.returned .conditionsNotCorrect, r)
    else if c.reboots then (.rebooting, r)
    else (.returned .generalReject, r)

/-! ## The loader -/

/-- `struct can_frame`, what the receive callback reads of it. -/
structure CanFrame where
  id : UInt32
  dlc : UInt8
  flags : UInt8
  data : List UInt8
  deriving DecidableEq, Repr

/-- A start of the loader: what `main` returned, the frames injected, and
the retained memory it left. -/
structure Start where
  ret : ℤ
  injected : List CanFrame
  retained : Retained
  deriving DecidableEq, Repr

/-- The frame of a request for the programming session.
`iso14229_inject_can_frame_rx` sets its id. -/
def programmingRequest (physSa : UInt32) : CanFrame where
  id := physSa
  dlc := 3
  flags := 0
  data := [0x02, 0x10, 0x02, 0, 0, 0, 0, 0]

/-- `main`, with what its read and its write of the retained byte return. -/
def main (physSa : UInt32) (read written : ℤ) (r : Retained) : Start :=
  if read ≠ 0 then ⟨read, [], r⟩
  else
    let r' := retentionWrite written defaultSession r
    if written ≠ 0 then ⟨written, [], r'⟩
    else if r.sessionType = programmingSession then ⟨0, [programmingRequest physSa], r'⟩
    else ⟨0, [], r'⟩

/-! ## A switch that failed -/

variable {c : Calls} {r : Retained}

/-- It is this code that stands for a failed call. -/
theorem conditionsNotCorrect_iff :
    (udsSwitchToFirmwareLoaderWithProgrammingSession c r).1 = .returned .conditionsNotCorrect ↔
      c.retentionWrite ≠ 0 ∨ c.bootmodeSet ≠ 0 := by
  simp only [udsSwitchToFirmwareLoaderWithProgrammingSession]
  split_ifs with hwrite hset hreboot
  · exact iff_of_true rfl (.inl hwrite)
  · exact iff_of_true rfl (.inr hset)
  · exact iff_of_false (by simp) (by simp [hwrite, hset])
  · have hne : Outcome.returned .generalReject ≠ .returned .conditionsNotCorrect := by decide
    exact iff_of_false hne (by simp [hwrite, hset])

/-- **What a failed switch leaves**: nothing where the first call failed,
and the session type where the second did. -/
theorem retained_of_failed (h : c.retentionWrite ≠ 0 ∨ c.bootmodeSet ≠ 0) :
    (udsSwitchToFirmwareLoaderWithProgrammingSession c r).2 =
      if c.retentionWrite = 0 then { r with sessionType := programmingSession } else r := by
  simp only [udsSwitchToFirmwareLoaderWithProgrammingSession, retentionWrite, bootmodeSet]
  by_cases hwrite : c.retentionWrite = 0
  · have hset : c.bootmodeSet ≠ 0 := h.resolve_left (not_not.mpr hwrite)
    simp only [hwrite, hset, ne_eq, not_true_eq_false, not_false_eq_true, if_true, if_false]
  · simp only [hwrite, ne_eq, not_false_eq_true, if_true, if_false]

/-- A frame is injected for a pending session only. -/
theorem pending_of_injected {physSa : UInt32} {read written : ℤ}
    (h : (main physSa read written r).injected ≠ []) : r.sessionType = programmingSession := by
  unfold main at h
  by_contra hpending
  apply h
  simp only [hpending, if_false]
  split_ifs <;> rfl

/-- With its calls succeeding, the loader tells a pending session from none. -/
theorem main_injected (physSa : UInt32) :
    (main physSa 0 0 r).injected =
      if r.sessionType = programmingSession then [programmingRequest physSa] else [] := by
  simp only [main, ne_eq, not_true_eq_false, if_false]
  split_ifs <;> rfl

/-- **A failed switch is undone**: the loader starts as if it had not been
called, and injects nothing that was not pending before. -/
def Undone (c : Calls) (r : Retained) : Prop :=
  (udsSwitchToFirmwareLoaderWithProgrammingSession c r).1 = .returned .conditionsNotCorrect →
    ∀ physSa read written,
      let after := (udsSwitchToFirmwareLoaderWithProgrammingSession c r).2
      main physSa read written after = main physSa read written r ∧
        ((main physSa read written after).injected ≠ [] → r.sessionType = programmingSession)

/-- **Exactly the failures at the boot mode leave a trace**, unless a
session was pending anyway. -/
theorem undone_iff :
    Undone c r ↔
      (c.retentionWrite = 0 → c.bootmodeSet ≠ 0 → r.sessionType = programmingSession) := by
  unfold Undone
  rw [conditionsNotCorrect_iff]
  constructor
  · intro hundone hwrite hset
    have hfailed : c.retentionWrite ≠ 0 ∨ c.bootmodeSet ≠ 0 := .inr hset
    obtain ⟨-, hpending⟩ := hundone hfailed 0 0 0
    rw [retained_of_failed hfailed, if_pos hwrite] at hpending
    apply hpending
    rw [main_injected, if_pos rfl]
    exact List.cons_ne_nil _ _
  · intro hcond hfailed physSa read written
    have hsame : (udsSwitchToFirmwareLoaderWithProgrammingSession c r).2 = r := by
      rw [retained_of_failed hfailed]
      split_ifs with hwrite
      · have hpending := hcond hwrite (hfailed.resolve_left (not_not.mpr hwrite))
        rw [← hpending]
      · rfl
    simp only [hsame, true_and]
    exact pending_of_injected

/-- **A programming session out of nothing**: the boot mode cannot be set,
the tester is told so, and the next start of the loader injects the
request all the same. -/
theorem not_undone_bootmode :
    ¬ Undone ⟨0, -EACCES, true⟩ ⟨0, defaultSession⟩ := by
  intro h
  obtain ⟨hsame, -⟩ := h (by decide) 0 0 0
  exact absurd hsame (by decide)

/-! ## Several of them -/

/-- The retained memory after a number of switches. -/
def attempts (cs : List Calls) (r : Retained) : Retained :=
  cs.foldl (fun r c => (udsSwitchToFirmwareLoaderWithProgrammingSession c r).2) r

/-- **After any number of failed switches** a session is pending where one
was before, or where one of them got as far as the boot mode. -/
theorem pending_attempts {cs : List Calls} :
    ∀ {r : Retained}, (∀ c ∈ cs, c.retentionWrite ≠ 0 ∨ c.bootmodeSet ≠ 0) →
      ((attempts cs r).sessionType = programmingSession ↔
        r.sessionType = programmingSession ∨ ∃ c ∈ cs, c.retentionWrite = 0) := by
  induction cs with
  | nil =>
    intro r _
    simp [attempts]
  | cons c cs ih =>
    intro r hfailed
    have hrest := fun d hd => hfailed d (List.mem_cons_of_mem c hd)
    have hfirst := retained_of_failed (r := r) (hfailed c List.mem_cons_self)
    have hcons : attempts (c :: cs) r =
        attempts cs (udsSwitchToFirmwareLoaderWithProgrammingSession c r).2 := rfl
    rw [hcons, ih hrest, hfirst]
    split_ifs with hwrite
    · simp [hwrite]
    · simp [hwrite]

end Switch

end Loader

end Ardep
