import Ardep.PowerIo.ConfigWrite
import Ardep.PowerIo.Outputs
/-!
# The power I/O shield — what a failed write leaves behind

The driver updates its cache and the chip one after the other, and a write
of the chip can fail. The operations on the port write first and keep the
old cache where that fails; configuring an output updates the cache first,
and what it asked for goes out with the next write of any output. The
interrupt settings are cached too before they are written, by a helper
that returns nothing.

`leavesNothing_iff` and `reportsWrites_iff` say when neither shows.
-/

namespace Ardep

namespace PowerIo

/-! ## Outputs -/

/-- An operation whose write of the GPIO register succeeds or fails: what
it returns, what it tries to write, and the data after it. -/
def PortEvent.attempt (written : Bool) (d : Data) : PortEvent → ℤ × Option Reg × Data
  | .configure pin flags => pinConfigure written pin.number flags d
  | .setMasked mask value =>
    let (ret, newGpio, d) := gpioSetMaskedRaw written mask value d
    (ret, some newGpio, d)
  | .setBits mask =>
    let (ret, newGpio, d) := gpioSetBitsRaw written mask d
    (ret, some newGpio, d)
  | .clearBits mask =>
    let (ret, newGpio, d) := gpioClearBitsRaw written mask d
    (ret, some newGpio, d)
  | .get levels =>
    let (ret, _, d) := portGetRaw (some levels) d
    (ret, none, d)

/-- With a write that succeeds it is the operation of the port. -/
theorem PortEvent.attempt_true (e : PortEvent) (d : Data) : (e.attempt true d).2 = e.run d := by
  cases e <;> rfl

/-- **A failed write leaves nothing.** The cache is as it was, and whatever
operation comes next and succeeds, it writes every output it does not
command itself as it was before. -/
structure LeavesNothing (d : Data) (e : PortEvent) : Prop where
  cache : ∀ ret out d', e.attempt false d = (ret, some out, d') → d' = d
  later : ∀ ret out d', e.attempt false d = (ret, some out, d') →
    ∀ (next : PortEvent) gpio, (next.run d').1 = some gpio →
      ∀ i, next.commands i = none → gpio.getLsbD (2 + i) = d.gpio.getLsbD (2 + i)

section Outputs

variable {d : Data} {e : PortEvent}

/-- A write puts out, for an output it does not command, what the cache
has. -/
theorem PortEvent.getLsbD_written {next : PortEvent} {gpio : Reg}
    (h : (next.run d).1 = some gpio) {i : Fin 6} (hother : next.commands i = none) :
    gpio.getLsbD (2 + i) = d.gpio.getLsbD (2 + i) := by
  rcases next.run_fst d with ⟨hwrites, hrun⟩ | ⟨-, hrun⟩
  · obtain rfl : (next.run d).2.gpio = gpio := Option.some.inj (hrun.symm.trans h)
    rw [next.getLsbD_run, PortEvent.shows_of_writes hwrites, hother, Option.getD_none]
  · rw [hrun] at h
    cases h

/-- Where the cache is kept, nothing is left for a later write. -/
theorem leavesNothing_of_cache
    (h : ∀ ret out d', e.attempt false d = (ret, some out, d') → d' = d) : LeavesNothing d e where
  cache := h
  later := by
    intro ret out d' heq next gpio hwritten i hother
    rw [h ret out d' heq] at hwritten
    exact PortEvent.getLsbD_written hwritten hother

/-- Driving an output to the level the cache has changes nothing. -/
theorem drive_eq_self_iff (r : Reg) (high : Bool) (i : Fin 6) :
    (if high then r ||| BitVec.twoPow 16 (2 + i) else r &&& ~~~BitVec.twoPow 16 (2 + i)) = r ↔
      r.getLsbD (2 + i) = high := by
  have hi : 2 + (i : ℕ) < 16 := by omega
  constructor
  · intro heq
    have hbit := getLsbD_drive r high i i
    rwa [if_pos rfl, heq] at hbit
  · intro hbit
    refine BitVec.eq_of_getLsbD_eq fun j _ => ?_
    cases high with
    | true =>
      rw [if_pos rfl, Register.getLsbD_or_twoPow r hi]
      split_ifs with hj
      · rw [← hj, hbit]
      · rfl
    | false =>
      rw [if_neg (by decide), Register.getLsbD_and_not_twoPow r hi]
      split_ifs with hj
      · rw [← hj, hbit]
      · rfl

/-- **When a failed write leaves nothing**: for every state and operation,
unless an output is configured to another level than the cache has. -/
theorem leavesNothing_iff (d : Data) (e : PortEvent) :
    LeavesNothing d e ↔ ∀ i flags, e = .configure (.output i) flags → flags.forOutput →
      d.gpio.getLsbD (2 + i) = flags.outputInitHigh := by
  constructor
  · rintro h i flags rfl hflags
    have hsnd := pinConfigure_output false i flags d
    rw [if_pos hflags] at hsnd
    have hcache := h.cache _ _ _ (Prod.ext rfl hsnd)
    have hgpio := congrArg Data.gpio hcache
    exact (drive_eq_self_iff d.gpio flags.outputInitHigh i).mp hgpio
  · intro h
    refine leavesNothing_of_cache fun ret out d' heq => ?_
    have hsnd : (e.attempt false d).2 = (some out, d') := by rw [heq]
    cases e with
    | configure pin flags =>
      -- an output is the only pin for which the cache changes before the write
      cases pin with
      | input i =>
        have hnone := pinConfigure_of_not_output (.inl (Pin.base_input i)) false flags d
        cases hsnd.symm.trans hnone
      | fault i =>
        have hnone := pinConfigure_of_not_output (.inr (Pin.base_fault i)) false flags d
        cases hsnd.symm.trans hnone
      | output i =>
        have hout := hsnd.symm.trans (pinConfigure_output false i flags d)
        by_cases hflags : flags.forOutput
        · rw [if_pos hflags] at hout
          have hlevel := (drive_eq_self_iff d.gpio flags.outputInitHigh i).mpr
            (h i flags rfl hflags)
          simp only [hlevel] at hout
          exact (Prod.mk.inj hout).2
        · rw [if_neg hflags] at hout
          cases hout
    | setMasked mask value => exact (Prod.mk.inj hsnd).2.symm
    | setBits mask => exact (Prod.mk.inj hsnd).2.symm
    | clearBits mask => exact (Prod.mk.inj hsnd).2.symm
    | get levels => cases (Prod.mk.inj hsnd).1

/-- Configuring output 0 high fails, and setting output 1 then drives both. -/
theorem not_leavesNothing_configure :
    let high : Flags := ⟨false, true, true, false, false, false⟩
    (PortEvent.configure (.output 0) high).attempt false Data.zero =
        (- EIO, some 4, { Data.zero with gpio := 4 }) ∧
      (gpioSetBitsRaw true 0x200 { Data.zero with gpio := 4 }).2.1 = 0xC ∧
      ¬ LeavesNothing Data.zero (.configure (.output 0) high) := by
  refine ⟨by decide, by decide, fun h => ?_⟩
  have hcache := h.cache (- EIO) 4 { Data.zero with gpio := 4 } (by decide)
  exact absurd (congrArg Data.gpio hcache) (by decide)

end Outputs

/-! ## Interrupt settings -/

/-- What becomes of a register that is written: it takes the value, or the
write fails and leaves something in it, what it had or a part of the
value. -/
inductive WriteResult where
  | written
  | failed (left : Reg)
  deriving DecidableEq, Repr

/-- The register after it. -/
def WriteResult.reg (value : Reg) : WriteResult → Reg
  | .written => value
  | .failed left => left

/-- The results of the three writes of the handler. -/
structure WriteResults where
  defval : WriteResult
  intcon : WriteResult
  gpinten : WriteResult
  deriving DecidableEq, Repr

/-- `power_io_shield_write_interrupt_config_work_handler`, with the results
of its writes: what the chip has after it. It logs an error and goes on. -/
def writeInterruptConfigWorkHandler (results : WriteResults) (d : Data) : ChipRegs where
  defval := results.defval.reg d.defval
  intcon := results.intcon.reg d.intcon
  gpinten := results.gpinten.reg d.gpinten

/-- `power_io_shield_pin_interrupt_configure` in a thread, which waits for
the lock and calls the handler itself. -/
def pinInterruptConfigure (results : WriteResults) (pin : UInt8) (mode : IntMode) (trig : IntTrig)
    (d : Data) (chip : ChipRegs) : ℤ × Data × ChipRegs :=
  if checkInterrupt pin mode trig ≠ 0 then (checkInterrupt pin mode trig, d, chip)
  else
    let d := configureInterrupt pin mode trig d
    (0, d, writeInterruptConfigWorkHandler results d)

/-- The level of the chip's pin at which the interrupt of a level fires. -/
def chipLevel (pin : UInt8) (trig : IntTrig) : Bool :=
  decide (trig = .high) ^^ hardInvertPins.getLsbD (zephyrPinToGpioBit pin)

/-- The bits of a pin a configuration asks for, where it asks for one. A
level is compared with its opposite in DEFVAL; an edge does not use that
register. -/
structure Asked where
  defval : Option Bool
  intcon : Option Bool
  gpinten : Option Bool

/-- What a call asks for. -/
def asked (pin : UInt8) (mode : IntMode) (trig : IntTrig) : Asked :=
  match mode with
  | .disabled => ⟨some false, some false, some false⟩
  | .level => ⟨some (!chipLevel pin trig), some true, some true⟩
  | .edge => ⟨none, some false, some true⟩
  | .other => ⟨none, none, none⟩

/-- The register has the bit of the pin as asked. -/
def HasBit (reg : Reg) (pin : UInt8) (ask : Option Bool) : Prop :=
  ∀ b, ask = some b → reg.getLsbD (zephyrPinToGpioBit pin) = b

/-- **The chip holds the requested configuration of the pin.** -/
structure ChipRegs.Holds (chip : ChipRegs) (pin : UInt8) (mode : IntMode) (trig : IntTrig) :
    Prop where
  defval : HasBit chip.defval pin (asked pin mode trig).defval
  intcon : HasBit chip.intcon pin (asked pin mode trig).intcon
  gpinten : HasBit chip.gpinten pin (asked pin mode trig).gpinten

/-- The register is written, or what the write leaves has the bit. -/
def WriteResult.Serves (result : WriteResult) (pin : UInt8) (ask : Option Bool) : Prop :=
  ∀ left, result = .failed left → HasBit left pin ask

section Interrupts

variable {pin : UInt8} {mode : IntMode} {trig : IntTrig}

/-- The trigger the driver goes by is the level at the chip. -/
theorem chipTrigger (h : trig = .high ∨ trig = .low) :
    let bit : Reg := BitVec.twoPow 16 (zephyrPinToGpioBit pin)
    let trig' := if bit &&& hardInvertPins ≠ 0 then trig.invert else trig
    trig' = .high ∧ chipLevel pin trig = true ∨ trig' = .low ∧ chipLevel pin trig = false := by
  intro bit trig'
  have hinvert : bit &&& hardInvertPins ≠ 0 ↔ _ :=
    Register.twoPow_and_ne_zero_iff hardInvertPins (zephyrPinToGpioBit_lt pin)
  unfold chipLevel
  cases hpin : hardInvertPins.getLsbD (zephyrPinToGpioBit pin) with
  | true =>
    have htrig : trig' = trig.invert := if_pos (hinvert.mpr hpin)
    rw [htrig]
    rcases h with rfl | rfl
    · exact .inr ⟨rfl, rfl⟩
    · exact .inl ⟨rfl, rfl⟩
  | false =>
    have htrig : trig' = trig := if_neg fun hne => Bool.noConfusion (hpin.symm.trans (hinvert.mp hne))
    rw [htrig]
    rcases h with rfl | rfl
    · exact .inl ⟨rfl, rfl⟩
    · exact .inr ⟨rfl, rfl⟩

/-- **The cache takes what is asked for.** -/
theorem holds_configureInterrupt (hok : checkInterrupt pin mode trig = 0) (d : Data) :
    (writeInterruptConfig (configureInterrupt pin mode trig d)).Holds pin mode trig := by
  have hlt := zephyrPinToGpioBit_lt pin
  have hset : ∀ r : Reg, (r ||| BitVec.twoPow 16 (zephyrPinToGpioBit pin)).getLsbD
      (zephyrPinToGpioBit pin) = true := by
    intro r
    rw [Register.getLsbD_or_twoPow r hlt, if_pos rfl]
  have hclear : ∀ r : Reg, (r &&& ~~~BitVec.twoPow 16 (zephyrPinToGpioBit pin)).getLsbD
      (zephyrPinToGpioBit pin) = false := by
    intro r
    rw [Register.getLsbD_and_not_twoPow r hlt, if_pos rfl]
  cases mode with
  | disabled =>
    refine ⟨?_, ?_, ?_⟩ <;> rintro _ ⟨⟩
    · exact hclear d.defval
    · exact hclear d.intcon
    · exact hclear d.gpinten
  | level =>
    refine ⟨?_, ?_, ?_⟩ <;> rintro _ ⟨⟩
    · unfold writeInterruptConfig configureInterrupt
      rcases chipTrigger ((checkInterrupt_eq_zero hok).2.2.2 rfl) with ⟨htrig, hlevel⟩ | ⟨htrig, hlevel⟩
      · rw [hlevel]
        simp only [htrig]
        exact hclear d.defval
      · rw [hlevel]
        simp only [htrig]
        exact hset d.defval
    · exact hset d.intcon
    · exact hset d.gpinten
  | edge =>
    refine ⟨?_, ?_, ?_⟩ <;> rintro _ ⟨⟩
    · exact hclear d.intcon
    · exact hset d.gpinten
  | other =>
    refine ⟨?_, ?_, ?_⟩ <;> rintro _ ⟨⟩

/-- A register has the bit exactly if its write serves, where the value
written has it. -/
theorem hasBit_reg_iff {value : Reg} {ask : Option Bool} (hvalue : HasBit value pin ask)
    (result : WriteResult) : HasBit (result.reg value) pin ask ↔ result.Serves pin ask := by
  cases result with
  | written =>
    refine iff_of_true hvalue fun left hfailed => ?_
    cases hfailed
  | failed left =>
    constructor
    · intro h left' hfailed
      cases hfailed
      exact h
    · exact fun h => h left rfl

/-- **When a return value of 0 is true**: for every state, every call and
all results of its writes, if the call is rejected or each of the three
registers is written or left with the bit that was asked for. -/
theorem reportsWrites_iff (results : WriteResults) (pin : UInt8) (mode : IntMode) (trig : IntTrig)
    (d : Data) (chip : ChipRegs) :
    ((pinInterruptConfigure results pin mode trig d chip).1 = 0 →
        (pinInterruptConfigure results pin mode trig d chip).2.2.Holds pin mode trig) ↔
      checkInterrupt pin mode trig ≠ 0 ∨
        results.defval.Serves pin (asked pin mode trig).defval ∧
          results.intcon.Serves pin (asked pin mode trig).intcon ∧
            results.gpinten.Serves pin (asked pin mode trig).gpinten := by
  unfold pinInterruptConfigure
  by_cases hok : checkInterrupt pin mode trig = 0
  · -- each register has what the cache has, or what its failed write left
    have hcache := holds_configureInterrupt hok d
    rw [if_neg (not_not.mpr hok), ← hasBit_reg_iff hcache.defval, ← hasBit_reg_iff hcache.intcon,
      ← hasBit_reg_iff hcache.gpinten]
    constructor
    · intro h
      have hholds := h rfl
      exact .inr ⟨hholds.defval, hholds.intcon, hholds.gpinten⟩
    · rintro (hnot | ⟨hdefval, hintcon, hgpinten⟩) -
      · exact absurd hok hnot
      · exact ⟨hdefval, hintcon, hgpinten⟩
  · rw [if_pos hok]
    exact iff_of_true (fun hret => absurd hret hok) (.inl hok)

/-- The interrupt of input 0 is enabled, for a high level, and the write of
GPINTEN fails: the call returns 0 and the interrupt is off. -/
theorem not_holds_failed :
    let results : WriteResults := ⟨.written, .written, .failed 0⟩
    let (ret, d, chip) := pinInterruptConfigure results 0 .level .high Data.zero ⟨0, 0, 0⟩
    ret = 0 ∧ d.gpinten = 0x100 ∧ chip = ⟨0x100, 0x100, 0⟩ ∧ ¬ chip.Holds 0 .level .high := by
  refine ⟨by decide, by decide, by decide, fun h => ?_⟩
  have hbit := h.gpinten true rfl
  revert hbit
  decide

end Interrupts

end PowerIo

end Ardep
