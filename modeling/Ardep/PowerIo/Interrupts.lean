import Ardep.Common.Latest
import Ardep.PowerIo.Model
/-!
# The power I/O shield — which interrupts fire

A pin's interrupt is in five bit sets: enabled, compared with a default
value or on change, that default value, and the two edges. Each mode
changes only some of them, so bits of earlier configurations stay behind.
The handler combines the sets with the flags and the captured levels of
the chip.

`fired_iff` is what comes of it after any sequence of configurations: a
pin fires by its most recent configuration alone, and by the logical level
of the pin, where the chip sees the inputs inverted.
-/

namespace Ardep

namespace PowerIo

/-- A call of `pin_interrupt_configure`. -/
structure Configure where
  pin : Pin
  mode : IntMode
  trig : IntTrig

/-- The call passes the checks. -/
def Configure.Accepted (e : Configure) : Prop := checkInterrupt e.pin.number e.mode e.trig = 0

instance (e : Configure) : Decidable e.Accepted := inferInstanceAs (Decidable (_ = _))

/-- **The interrupt settings**: an accepted call changes them. -/
def interruptSettings : Machine Data Configure where
  init d := d = Data.zero
  Step d e d' :=
    d' = if e.Accepted then configureInterrupt e.pin.number e.mode e.trig d else d

/-- What a call asks for. -/
structure IntConfig where
  mode : IntMode
  trig : IntTrig
  deriving DecidableEq, Repr

/-- **The most recent configuration of a pin**, disabled at first. -/
def configured (past : List (Data × Configure)) (p : Pin) : IntConfig :=
  latest (fun x p => if x.2.Accepted ∧ x.2.pin = p then some ⟨x.2.mode, x.2.trig⟩ else none)
    (fun _ => ⟨.disabled, .other⟩) past p

/-- The input and fault pins. -/
def Pin.Interruptible : Pin → Prop
  | .output _ => False
  | _ => True

/-- The chip sees the level of the pin inverted. -/
def Pin.inverted (p : Pin) : Bool := hardInvertPins.getLsbD p.bit

/-- The logical level of a pin that the chip captured. -/
def capturedLevel (intcap : Reg) (p : Pin) : Bool := (intcap ^^^ hardInvertPins).getLsbD p.bit

/-- **When a flagged pin fires**: it is not disabled, and is configured for
a level, or for an edge to the level it was captured at. -/
def IntConfig.Fires (c : IntConfig) (level : Bool) : Prop :=
  c.mode ≠ .disabled ∧
    (c.mode = .level ∨
      c.mode = .edge ∧ (c.trig = .both ∨ c.trig = .high ∧ level = true ∨ c.trig = .low ∧ level = false))

instance (c : IntConfig) (level : Bool) : Decidable (c.Fires level) :=
  inferInstanceAs (Decidable (_ ∧ _))

/-! ## One pin -/

/-- Whether the settings of a pin let it fire at a logical level. -/
def answers (d : Data) (p : Pin) (level : Bool) : Bool :=
  let captured := level ^^ p.inverted
  d.gpinten.getLsbD p.bit &&
    (d.intcon.getLsbD p.bit || captured && d.intTriggerRising.getLsbD p.bit ||
      !captured && d.intTriggerFalling.getLsbD p.bit)

/-- **What the handler finds for a pin**: it is flagged, and its settings
let it fire. -/
theorem getLsbD_interrupts (intf intcap : Reg) (d : Data) (p : Pin) :
    (interrupts intf intcap d).getLsbD p.bit =
      (intf.getLsbD p.bit && answers d p (capturedLevel intcap p)) := by
  have hbit := p.bit_lt
  have hcaptured : (capturedLevel intcap p ^^ p.inverted) = intcap.getLsbD p.bit := by
    unfold capturedLevel Pin.inverted
    rw [BitVec.getLsbD_xor, Bool.xor_assoc, Bool.xor_self, Bool.xor_false]
  unfold interrupts answers
  simp only [hcaptured, BitVec.getLsbD_and, BitVec.getLsbD_or, BitVec.getLsbD_not, hbit,
    decide_true, Bool.true_and]
  rw [Bool.and_comm (d.gpinten.getLsbD p.bit), Bool.and_assoc]

/-- The trigger is inverted where the level is. -/
theorem invert_iff (p : Pin) :
    (BitVec.twoPow 16 (zephyrPinToGpioBit p.number) &&& hardInvertPins ≠ 0) ↔ p.inverted = true :=
  Register.twoPow_and_ne_zero_iff hardInvertPins p.bit_lt

/-- What the checks let through. -/
theorem checkInterrupt_eq_zero {pin : UInt8} {mode : IntMode} {trig : IntTrig}
    (h : checkInterrupt pin mode trig = 0) :
    (pin &&& baseMask = inputBase ∨ pin &&& baseMask = faultBase) ∧ mode ≠ .other ∧
      (mode = .edge → trig ≠ .other) ∧ (mode = .level → trig = .high ∨ trig = .low) := by
  have hnotsup : (-ENOTSUP : ℤ) ≠ 0 := by decide
  have hinval : (-Uds.EINVAL : ℤ) ≠ 0 := by decide
  unfold checkInterrupt at h
  split_ifs at h with hpin
  · exact absurd h hnotsup
  · rw [not_and_or, not_not, not_not] at hpin
    refine ⟨hpin, ?_⟩
    cases mode with
    | disabled => exact ⟨nofun, nofun, nofun⟩
    | level =>
      cases trig with
      | low => exact ⟨nofun, nofun, fun _ => .inr rfl⟩
      | high => exact ⟨nofun, nofun, fun _ => .inl rfl⟩
      | both => exact absurd h hinval
      | other => exact absurd h hinval
    | edge =>
      cases trig with
      | other => exact absurd h hinval
      | low => exact ⟨nofun, fun _ => nofun, nofun⟩
      | high => exact ⟨nofun, fun _ => nofun, nofun⟩
      | both => exact ⟨nofun, fun _ => nofun, nofun⟩
    | other => exact absurd h hinval

theorem Configure.Accepted.cases {e : Configure} (h : e.Accepted) :
    e.pin.Interruptible ∧ e.mode ≠ .other ∧ (e.mode = .edge → e.trig ≠ .other) := by
  have houtput : ∀ i, (Pin.output i).number &&& baseMask ≠ inputBase ∧
      (Pin.output i).number &&& baseMask ≠ faultBase := by
    decide
  obtain ⟨hpin, hmode, hedge, -⟩ := checkInterrupt_eq_zero h
  refine ⟨?_, hmode, hedge⟩
  cases hp : e.pin with
  | output i =>
    rw [hp] at hpin
    exact absurd hpin (not_or.mpr (houtput i))
  | input i => trivial
  | fault i => trivial

/-- **Configuring a pin** lets it fire as the configuration says, whatever
its settings were. -/
theorem answers_configureInterrupt_self {p : Pin} {mode : IntMode} {trig : IntTrig}
    (hok : (Configure.mk p mode trig).Accepted) (d : Data) (level : Bool) :
    answers (configureInterrupt p.number mode trig d) p level =
      decide ((IntConfig.mk mode trig).Fires level) := by
  have hbit : zephyrPinToGpioBit p.number < 16 := p.bit_lt
  obtain ⟨-, hmode, htrig⟩ := hok.cases
  unfold answers configureInterrupt Pin.bit
  simp only [invert_iff]
  cases mode with
  | disabled => simp [hbit, IntConfig.Fires]
  | level => simp [hbit, IntConfig.Fires]
  | edge =>
    -- both edges are written, so nothing is left of earlier ones
    cases trig with
    | other => exact absurd rfl (htrig rfl)
    | both => cases p.inverted <;> cases level <;> simp [hbit, IntConfig.Fires, IntTrig.invert]
    | high => cases p.inverted <;> cases level <;> simp [hbit, IntConfig.Fires, IntTrig.invert]
    | low => cases p.inverted <;> cases level <;> simp [hbit, IntConfig.Fires, IntTrig.invert]
  | other => exact absurd rfl hmode

/-- And the other pins as before. -/
theorem answers_configureInterrupt_of_ne {p q : Pin} (hne : q ≠ p) (mode : IntMode) (trig : IntTrig)
    (d : Data) (level : Bool) :
    answers (configureInterrupt q.number mode trig d) p level = answers d p level := by
  have hbit : zephyrPinToGpioBit q.number < 16 := q.bit_lt
  have hother : ¬ zephyrPinToGpioBit q.number = zephyrPinToGpioBit p.number :=
    fun heq => hne (Pin.bit_injective heq)
  have hset : ∀ r : Reg, (r ||| BitVec.twoPow 16 (zephyrPinToGpioBit q.number)).getLsbD
      (zephyrPinToGpioBit p.number) = r.getLsbD (zephyrPinToGpioBit p.number) := by
    intro r
    rw [Register.getLsbD_or_twoPow r hbit, if_neg hother]
  have hclear : ∀ r : Reg, (r &&& ~~~BitVec.twoPow 16 (zephyrPinToGpioBit q.number)).getLsbD
      (zephyrPinToGpioBit p.number) = r.getLsbD (zephyrPinToGpioBit p.number) := by
    intro r
    rw [Register.getLsbD_and_not_twoPow r hbit, if_neg hother]
  unfold answers configureInterrupt Pin.bit
  cases mode with
  | disabled => simp only [hclear]
  | level => simp only [hset]
  | edge =>
    dsimp only
    generalize (if BitVec.twoPow 16 (zephyrPinToGpioBit q.number) &&& hardInvertPins ≠ 0
      then trig.invert else trig) = trig'
    cases trig' <;> simp only [hset, hclear]
  | other => rfl

/-! ## Every sequence of configurations -/

section Runs

variable {past : List (Data × Configure)} {d : Data}

/-- **The settings of a pin are those of its most recent configuration**,
as far as the handler can tell. -/
theorem answers_eq (h : interruptSettings.Run past d) (p : Pin) (level : Bool) :
    answers d p level = decide ((configured past p).Fires level) := by
  unfold configured
  rw [← latest_map fun c : IntConfig => decide (c.Fires level)]
  refine h.eq_latest (fun d p => answers d p level) (fun d hinit p => ?_)
    (fun d e d' _ hstep p => ?_) p
  · rw [show d = Data.zero from hinit]
    simp [answers, Data.zero, IntConfig.Fires]
  · obtain rfl : d' = if e.Accepted then configureInterrupt e.pin.number e.mode e.trig d else d :=
      hstep
    by_cases hok : e.Accepted
    · by_cases hpin : e.pin = p
      · subst hpin
        simp only [hok, if_true, true_and, Option.map_some, Option.getD_some]
        exact answers_configureInterrupt_self hok d level
      · simp only [hok, if_true, true_and, hpin, if_false, Option.map_none, Option.getD_none]
        exact answers_configureInterrupt_of_ne hpin e.mode e.trig d level
    · simp only [hok, if_false, false_and, Option.map_none, Option.getD_none]

/-- An output is never configured. -/
theorem configured_output (h : interruptSettings.Run past d) (i : Fin 6) :
    (configured past (.output i)).mode = .disabled := by
  induction h with
  | init _ => rfl
  | @step past d d' e hrun hstep ih =>
    have hnot : ¬ (e.Accepted ∧ e.pin = .output i) := by
      rintro ⟨hok, hpin⟩
      have hinterruptible := hok.cases.1
      rw [hpin] at hinterruptible
      exact hinterruptible
    unfold configured at ih ⊢
    rw [latest_concat]
    simp only [if_neg hnot, Option.getD_none]
    exact ih

/-- **The handler fires a pin by its most recent configuration.** After any
sequence of configurations and for every value of INTF and INTCAP, the
pins it fires callbacks for are the input and fault pins that are flagged
and whose most recent configuration is a level, or an edge to the logical
level captured. -/
theorem fired_iff (h : interruptSettings.Run past d) (intf intcap : Reg) (n : ℕ) :
    (interruptWorkHandler (some intf) (some intcap) d).getLsbD n = true ↔
      ∃ p : Pin, p.number.toNat = n ∧ p.Interruptible ∧ intf.getLsbD p.bit = true ∧
        (configured past p).Fires (capturedLevel intcap p) := by
  have hhandler : (interruptWorkHandler (some intf) (some intcap) d).getLsbD n = true ↔
      ∃ p : Pin, p.number.toNat = n ∧ (interrupts intf intcap d).getLsbD p.bit = true := by
    unfold interruptWorkHandler
    by_cases hzero : intf = 0
    · -- nothing is flagged, and no pin is
      subst hzero
      refine iff_of_false (by simp) ?_
      rintro ⟨p, -, hbit⟩
      rw [getLsbD_interrupts, Bool.and_eq_true] at hbit
      exact absurd hbit.1 (by simp)
    · simp only [if_neg hzero]
      exact getLsbD_gpioBitsToZephyrBits_iff _ n
  rw [hhandler]
  refine exists_congr fun p => and_congr_right fun _ => ?_
  rw [getLsbD_interrupts, answers_eq h, Bool.and_eq_true, decide_eq_true_eq]
  constructor
  · rintro ⟨hflag, hfires⟩
    refine ⟨?_, hflag, hfires⟩
    cases p with
    | output i => exact absurd (configured_output h i) hfires.1
    | input i => trivial
    | fault i => trivial
  · rintro ⟨-, hflag, hfires⟩
    exact ⟨hflag, hfires⟩

end Runs

/-- An input, first for a level and then for a falling edge, and the chip
flags it and captures it low, which is a logical high. -/
theorem fired_iff_reconfigured :
    ∃ past d, interruptSettings.Run past d ∧
      (interruptWorkHandler (some 0x100) (some 0) d).getLsbD 0 = false := by
  have hrun := ((Machine.Run.init (M := interruptSettings) rfl).step
    (e := ⟨.input 0, .level, .high⟩) rfl).step (e := ⟨.input 0, .edge, .low⟩) rfl
  refine ⟨_, _, hrun, ?_⟩
  rw [Bool.eq_false_iff, ne_eq, fired_iff hrun]
  rintro ⟨p, hnumber, -, hflag, hfires⟩
  have hpin : ∀ q : Pin, q.number.toNat = 0 → q = .input 0 := by decide
  obtain rfl := hpin p hnumber
  revert hfires
  decide

end PowerIo

end Ardep
