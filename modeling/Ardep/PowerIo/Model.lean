import Mathlib.Logic.Function.Basic
import Mathlib.Tactic.SplitIfs
import Ardep.Common.Register
import Ardep.Uds.Err
/-!
# The power I/O shield — the driver of its port expander

The shield has six inputs, six outputs and three fault lines on a port
expander with 16 pins. The driver maps its pin numbers to the bits of the
chip's registers, keeps a copy of the registers it writes, and guards the
copy with a semaphore that also code in interrupts can take.

What an operation does between taking and giving the semaphore is a
function here. An I2C transfer that can fail is an argument: whether a
write succeeds, and what a read returns.
-/

namespace Ardep

namespace PowerIo

open Uds

/-- `ENOTSUP`. -/
abbrev ENOTSUP : ℤ := 134
/-- `EIO`. -/
abbrev EIO : ℤ := 5

/-- A pair of registers of the chip, as one word. -/
abbrev Reg : Type := BitVec 16

/-- `gpio_port_pins_t` and `gpio_port_value_t`. -/
abbrev PortPins : Type := BitVec 32

/-! ## Pins -/

/-- `POWER_IO_SHIELD_BASE_MASK`. -/
abbrev baseMask : UInt8 := 0xF8
/-- `POWER_IO_SHIELD_INPUT_BASE`. -/
abbrev inputBase : UInt8 := 0x00
/-- `POWER_IO_SHIELD_OUTPUT_BASE`. -/
abbrev outputBase : UInt8 := 0x08
/-- `POWER_IO_SHIELD_FAULT_BASE`. -/
abbrev faultBase : UInt8 := 0x10

/-- `POWER_IO_SHIELD_INPUT_PINS_MASK`. -/
abbrev inputPinsMask : Reg := 0x3F00
/-- `POWER_IO_SHIELD_OUTPUT_PINS_MASK`. -/
abbrev outputPinsMask : Reg := 0x00FC
/-- `POWER_IO_SHIELD_HARD_INVERT_PINS`. -/
abbrev hardInvertPins : Reg := inputPinsMask

/-- `power_io_shield_zephyr_pin_to_gpio_bit`. -/
def zephyrPinToGpioBit (pin : UInt8) : ℕ :=
  let pinBase := pin &&& baseMask
  let pinIndex := pin &&& ~~~baseMask
  if pinBase = inputBase then pinIndex.toNat + 8
  else if pinBase = outputBase then pinIndex.toNat + 2
  else if pinBase = faultBase then
    if pinIndex = 0 then 14
    else if pinIndex = 1 then 0
    else if pinIndex = 2 then 1
    else 0
  else 0

/-- `power_io_shield_gpio_bits_to_zephyr_bits`. -/
def gpioBitsToZephyrBits (mcpPinBits : Reg) : PortPins :=
  let inputValues : PortPins := ((mcpPinBits &&& inputPinsMask) >>> 8).setWidth 32
  let outputValues : PortPins := ((mcpPinBits &&& outputPinsMask) >>> 2).setWidth 32
  let faultValues : PortPins :=
    ((mcpPinBits >>> 14) &&& 1).setWidth 32 ||| ((mcpPinBits >>> 0) &&& 1).setWidth 32 <<< 1 |||
      ((mcpPinBits >>> 1) &&& 1).setWidth 32 <<< 2
  inputValues <<< 0x00 ||| outputValues <<< 0x08 ||| faultValues <<< 0x10

/-- The pins of the port. The GPIO API lets no other number through. -/
inductive Pin where
  | input (i : Fin 6)
  | output (i : Fin 6)
  | fault (i : Fin 3)
  deriving DecidableEq, Repr

/-- The number of a pin. -/
def Pin.number : Pin → UInt8
  | .input i => inputBase ||| UInt8.ofNat i
  | .output i => outputBase ||| UInt8.ofNat i
  | .fault i => faultBase ||| UInt8.ofNat i

/-- Its bit in the registers of the chip. -/
def Pin.bit (p : Pin) : ℕ := zephyrPinToGpioBit p.number

/-! ## Data -/

/-- `struct power_io_shield_data`, as far as the operations use it: the
register cache and the two edge sets. -/
structure Data where
  gpinten : Reg
  intcon : Reg
  defval : Reg
  gpio : Reg
  intTriggerRising : Reg
  intTriggerFalling : Reg
  deriving DecidableEq, Repr

/-- The data at the start. -/
def Data.zero : Data := ⟨0, 0, 0, 0, 0, 0⟩

/-! ## The port -/

/-- `power_io_shield_port_get_raw`, with what the read of the GPIO register
gives. -/
def portGetRaw (read : Option Reg) (d : Data) : ℤ × Option PortPins × Data :=
  match read with
  | none => (- EIO, none, d)
  | some regValue =>
    (0, some (gpioBitsToZephyrBits (regValue ^^^ hardInvertPins)), { d with gpio := regValue })

/-- The output bits of a port mask, at the chip's bits. -/
def mapOutputs (pins : PortPins) : Reg :=
  let outputPins : BitVec 8 := (pins >>> 8).setWidth 8
  outputPins.setWidth 16 <<< 2 &&& outputPinsMask

/-- `power_io_shield_gpio_set_masked_raw`: what it returns, what it writes
to the GPIO register, and the data. -/
def gpioSetMaskedRaw (written : Bool) (mask value : PortPins) (d : Data) : ℤ × Reg × Data :=
  let mappedMask := mapOutputs mask
  let mappedValue := mapOutputs value
  let newGpio := d.gpio &&& ~~~mappedMask ||| mappedValue &&& mappedMask
  if written then (0, newGpio, { d with gpio := newGpio }) else (- EIO, newGpio, d)

/-- `power_io_shield_gpio_set_bits_raw`. -/
def gpioSetBitsRaw (written : Bool) (mask : PortPins) (d : Data) : ℤ × Reg × Data :=
  gpioSetMaskedRaw written mask mask d

/-- `power_io_shield_gpio_clear_bits_raw`. -/
def gpioClearBitsRaw (written : Bool) (mask : PortPins) (d : Data) : ℤ × Reg × Data :=
  gpioSetMaskedRaw written mask 0 d

/-- The flags of `gpio_flags_t` that the driver looks at. -/
structure Flags where
  input : Bool
  output : Bool
  outputInitHigh : Bool
  pullUp : Bool
  pullDown : Bool
  singleEnded : Bool
  deriving DecidableEq, Repr

/-- `power_io_shield_pin_configure`: an output pin is written to the GPIO
register, high or low. -/
def pinConfigure (written : Bool) (pin : UInt8) (flags : Flags) (d : Data) :
    ℤ × Option Reg × Data :=
  let bit := zephyrPinToGpioBit pin
  let pinBase := pin &&& baseMask
  if pinBase = inputBase ∨ pinBase = faultBase then
    if flags.output then (-ENOTSUP, none, d)
    else if flags.pullDown ∨ flags.pullUp then (-ENOTSUP, none, d)
    else (0, none, d)
  else if pinBase = outputBase then
    if flags.input then (-ENOTSUP, none, d)
    else if flags.pullDown ∨ flags.pullUp then (-ENOTSUP, none, d)
    else if flags.singleEnded then (-ENOTSUP, none, d)
    else
      let gpio :=
        if flags.outputInitHigh then d.gpio ||| BitVec.twoPow 16 bit
        else d.gpio &&& ~~~BitVec.twoPow 16 bit
      (if written then 0 else - EIO, some gpio, { d with gpio := gpio })
  else (-ENOTSUP, none, d)

/-! ## Interrupts -/

/-- `enum gpio_int_mode`, with one value for those the driver does not
know. -/
inductive IntMode where
  | disabled
  | level
  | edge
  | other
  deriving DecidableEq, Repr

/-- `enum gpio_int_trig`, likewise. -/
inductive IntTrig where
  | low
  | high
  | both
  | other
  deriving DecidableEq, Repr

/-- The trigger of a pin whose level is inverted in hardware. -/
def IntTrig.invert : IntTrig → IntTrig
  | .high => .low
  | .low => .high
  | trig => trig

/-- What `power_io_shield_pin_interrupt_configure` checks before it takes
the semaphore. -/
def checkInterrupt (pin : UInt8) (mode : IntMode) (trig : IntTrig) : ℤ :=
  if pin &&& baseMask ≠ inputBase ∧ pin &&& baseMask ≠ faultBase then -ENOTSUP
  else
    match mode with
    | .level =>
      match trig with
      | .high | .low => 0
      | _ => -EINVAL
    | .edge =>
      match trig with
      | .high | .low | .both => 0
      | _ => -EINVAL
    | .disabled => 0
    | .other => -EINVAL

/-- What it does to the data while it has the semaphore. -/
def configureInterrupt (pin : UInt8) (mode : IntMode) (trig : IntTrig) (d : Data) : Data :=
  let bit : Reg := BitVec.twoPow 16 (zephyrPinToGpioBit pin)
  let trig := if bit &&& hardInvertPins ≠ 0 then trig.invert else trig
  match mode with
  | .disabled =>
    { d with
      gpinten := d.gpinten &&& ~~~bit
      intcon := d.intcon &&& ~~~bit
      defval := d.defval &&& ~~~bit }
  | .level =>
    { d with
      gpinten := d.gpinten ||| bit
      intcon := d.intcon ||| bit
      defval :=
        match trig with
        | .high => d.defval &&& ~~~bit
        | .low => d.defval ||| bit
        | _ => d.defval }
  | .edge =>
    { d with
      gpinten := d.gpinten ||| bit
      intcon := d.intcon &&& ~~~bit
      intTriggerRising :=
        match trig with
        | .high | .both => d.intTriggerRising ||| bit
        | .low => d.intTriggerRising &&& ~~~bit
        | _ => d.intTriggerRising
      intTriggerFalling :=
        match trig with
        | .low | .both => d.intTriggerFalling ||| bit
        | .high => d.intTriggerFalling &&& ~~~bit
        | _ => d.intTriggerFalling }
  | .other => d

/-- The interrupts the handler finds: `ints`. -/
def interrupts (intf intcap : Reg) (d : Data) : Reg :=
  let levelInterrupts := d.intcon
  let risingEdgeInterrupts := intcap &&& d.intTriggerRising
  let fallingEdgeInterrupts := ~~~intcap &&& d.intTriggerFalling
  d.gpinten &&& intf &&& (levelInterrupts ||| risingEdgeInterrupts ||| fallingEdgeInterrupts)

/-- `power_io_shield_interrupt_work_handler`: the pins it fires callbacks
for, with what the reads of INTF and INTCAP give. It fires none where a
read fails or no interrupt is flagged. -/
def interruptWorkHandler (intf intcap : Option Reg) (d : Data) : PortPins :=
  match intf with
  | none => 0
  | some intf =>
    if intf = 0 then 0
    else
      match intcap with
      | none => 0
      | some intcap => gpioBitsToZephyrBits (interrupts intf intcap d)

/-! ## Numbers and bits -/

theorem Pin.forall_iff {P : Pin → Prop} :
    ((∀ i, P (.input i)) ∧ (∀ i, P (.output i)) ∧ ∀ i, P (.fault i)) ↔ ∀ p, P p := by
  constructor
  · rintro ⟨hinput, houtput, hfault⟩ p
    cases p with
    | input i => exact hinput i
    | output i => exact houtput i
    | fault i => exact hfault i
  · exact fun h => ⟨fun i => h _, fun i => h _, fun i => h _⟩

/-- What holds of every pin can be checked. -/
instance {P : Pin → Prop} [DecidablePred P] : Decidable (∀ p, P p) :=
  decidable_of_iff _ Pin.forall_iff

/-- Every number has a bit of the chip, also one that no pin has. -/
theorem zephyrPinToGpioBit_lt (pin : UInt8) : zephyrPinToGpioBit pin < 16 := by
  have hindex : (pin &&& ~~~baseMask).toNat ≤ 7 := by
    rw [UInt8.toNat_and]
    exact Nat.and_le_right
  unfold zephyrPinToGpioBit
  dsimp only
  split_ifs <;> omega

theorem Pin.bit_lt (p : Pin) : p.bit < 16 := zephyrPinToGpioBit_lt p.number

/-- Two pins have two bits. -/
theorem Pin.bit_injective : Function.Injective Pin.bit := by
  unfold Function.Injective
  decide +kernel

/-- A bit of the port is the bit of the chip that the pin of this number
has. -/
theorem getLsbD_gpioBitsToZephyrBits (m : Reg) (n : ℕ) :
    (gpioBitsToZephyrBits m).getLsbD n =
      if n < 6 then m.getLsbD (n + 8)
      else if 8 ≤ n ∧ n < 14 then m.getLsbD (n - 6)
      else if n = 16 then m.getLsbD 14
      else if n = 17 then m.getLsbD 0
      else if n = 18 then m.getLsbD 1
      else false := by
  have hinputs : ∀ j, (((m &&& inputPinsMask) >>> 8).setWidth 32).getLsbD j =
      (decide (j < 6) && m.getLsbD (8 + j)) :=
    Register.getLsbD_field m inputPinsMask (by decide) (by decide) (by decide)
  have houtputs : ∀ j, (((m &&& outputPinsMask) >>> 2).setWidth 32).getLsbD j =
      (decide (j < 6) && m.getLsbD (2 + j)) :=
    Register.getLsbD_field m outputPinsMask (by decide) (by decide) (by decide)
  have hfault : ∀ b j, ((m >>> b &&& 1).setWidth 32).getLsbD j = (decide (j = 0) && m.getLsbD b) :=
    Register.getLsbD_lowest m (by decide)
  unfold gpioBitsToZephyrBits
  simp only [BitVec.getLsbD_or, BitVec.getLsbD_shiftLeft, hinputs, houtputs, hfault]
  -- the three fields do not overlap
  grind

/-- **The pins of a port mask**: those whose bits of the chip are set. -/
theorem getLsbD_gpioBitsToZephyrBits_iff (m : Reg) (n : ℕ) :
    (gpioBitsToZephyrBits m).getLsbD n = true ↔
      ∃ p : Pin, p.number.toNat = n ∧ m.getLsbD p.bit = true := by
  have hinput : ∀ i : Fin 6, (Pin.input i).number.toNat = i ∧ (Pin.input i).bit = i + 8 := by
    decide
  have houtput : ∀ i : Fin 6, (Pin.output i).number.toNat = 8 + i ∧ (Pin.output i).bit = 2 + i := by
    decide
  have hfault : ∀ i : Fin 3, (Pin.fault i).number.toNat = 16 + i ∧
      (Pin.fault i).bit = if i = 0 then 14 else if i = 1 then 0 else 1 := by
    decide
  rw [getLsbD_gpioBitsToZephyrBits]
  constructor
  · intro h
    split_ifs at h with hin hout hzero hone htwo
    · exact ⟨.input ⟨n, hin⟩, (hinput _).1, by rw [(hinput _).2]; exact h⟩
    · refine ⟨.output ⟨n - 8, by omega⟩, ?_, ?_⟩
      · rw [(houtput _).1]
        show 8 + (n - 8) = n
        omega
      · rw [(houtput _).2]
        show m.getLsbD (2 + (n - 8)) = true
        rw [show 2 + (n - 8) = n - 6 by omega]
        exact h
    · exact ⟨.fault 0, hzero ▸ (hfault 0).1, h⟩
    · exact ⟨.fault 1, hone ▸ (hfault 1).1, h⟩
    · exact ⟨.fault 2, htwo ▸ (hfault 2).1, h⟩
  · rintro ⟨p, rfl, hbit⟩
    cases p with
    | input i =>
      rw [(hinput i).1, if_pos i.isLt, ← (hinput i).2]
      exact hbit
    | output i =>
      have hi := i.isLt
      rw [(houtput i).1, if_neg (by omega), if_pos (by omega),
        show 8 + (i : ℕ) - 6 = 2 + i by omega, ← (houtput i).2]
      exact hbit
    | fault i =>
      rw [(hfault i).2] at hbit
      rw [(hfault i).1]
      have hall : ∀ j : Fin 3, ¬ 16 + (j : ℕ) < 6 ∧ ¬ (8 ≤ 16 + (j : ℕ) ∧ 16 + (j : ℕ) < 14) ∧
          (16 + (j : ℕ) = 16 ↔ j = 0) ∧ (16 + (j : ℕ) = 17 ↔ j = 1) ∧
            (¬ j = 0 → ¬ j = 1 → 16 + (j : ℕ) = 18) := by
        decide
      obtain ⟨hin, hout, hzero, hone, htwo⟩ := hall i
      simp only [if_neg hin, if_neg hout, hzero, hone]
      split_ifs at hbit ⊢ with h0 h1 h2
      · exact hbit
      · exact hbit
      · exact hbit
      · exact absurd (htwo h0 h1) h2

end PowerIo

end Ardep
