import Mathlib.Data.Nat.Notation
import Mathlib.Tactic.SplitIfs
import Ardep.Common.Latest
import Ardep.Common.Register
import Ardep.Uds.Err
/-!
# The high-voltage shield — its shift registers and their shadow

The direction of 32 pins and the gain of two DACs are in a chain of five
shift registers. The driver keeps them in a packed structure, changes one
field of it and sends the whole, byte by byte from the last. If the
transfer fails the call returns the error, and the field stays changed:
the next call that succeeds sends it along.

`carriesGiven_iff` says that the frame of a successful call has every
value in its place, for all 40 bits, and when the values are those of the
successful calls: when no pin or DAC but the call's own was last tried,
without success, with another value.
-/

namespace Ardep

namespace HvShield

open Uds

/-- `enum hv_shield_dac_gains_t`. -/
inductive DacGain where
  | gain1
  | gain2
  | gain4
  | gain8
  | gain16
  deriving DecidableEq, Repr

/-- Its value, in the four bits of the field. -/
def DacGain.value : DacGain → BitVec 4
  | .gain1 => 0b0000
  | .gain2 => 0b0001
  | .gain4 => 0b0011
  | .gain8 => 0b0111
  | .gain16 => 0b1111

/-- `struct hv_shield_registers_t`. -/
structure Registers where
  gpioOutput : BitVec 32
  dac0 : BitVec 4
  dac1 : BitVec 4
  deriving DecidableEq, Repr

/-- The registers at the start. -/
def Registers.zero : Registers := ⟨0, 0, 0⟩

/-- The packed structure as one word: the fields from the lowest bit on. -/
def Registers.word (r : Registers) : BitVec 40 := r.dac1 ++ r.dac0 ++ r.gpioOutput

/-- Its bytes in memory. -/
def Registers.rawBuffer (r : Registers) : List (BitVec 8) :=
  (List.range 5).map fun i => r.word.extractLsb' (8 * i) 8

/-- `_hv_shield_update`: the frame it sends, the bytes from the last to the
first. -/
def hvShieldUpdate (r : Registers) : List (BitVec 8) :=
  (List.range 5).map fun i => r.rawBuffer.getD (5 - i - 1) 0

/-- `hvs_set_dac_gain`, with what the SPI write returns: the status, the
frame sent, and the registers. -/
def hvsSetDacGain (spiWrite : ℤ) (dac : UInt8) (gain : DacGain) (r : Registers) :
    ℤ × Option (List (BitVec 8)) × Registers :=
  if dac > 1 then (-EINVAL, none, r)
  else
    let r := if dac = 0 then { r with dac0 := gain.value } else { r with dac1 := gain.value }
    (spiWrite, some (hvShieldUpdate r), r)

/-- The bit of a pin: the halves of each byte change places. -/
def remapIndex (index : UInt8) : UInt8 := if index % 8 < 4 then index + 4 else index - 4

/-- `hvs_set_gpio_output_enable`. -/
def hvsSetGpioOutputEnable (spiWrite : ℤ) (index : UInt8) (enable : Bool) (r : Registers) :
    ℤ × Option (List (BitVec 8)) × Registers :=
  if index > 31 then (-EINVAL, none, r)
  else
    let bit : BitVec 32 := BitVec.twoPow 32 (remapIndex index).toNat
    let r := { r with gpioOutput := if enable then r.gpioOutput ||| bit else r.gpioOutput &&& ~~~bit }
    (spiWrite, some (hvShieldUpdate r), r)

/-! ## The layout of the shift registers -/

/-- The bitmap of the direction bits: from which bit on which four pins
are, where pins count from 1. -/
def directionBitmap : List (ℕ × ℕ) :=
  [(0, 5), (4, 1), (8, 13), (12, 9), (16, 21), (20, 17), (24, 29), (28, 25)]

/-- What is configured: the direction of a pin, or the gain of a DAC. -/
inductive Target where
  | pin (index : Fin 32)
  | dac (channel : Fin 2)
  deriving DecidableEq, Repr

/-- **The bits the layout assigns.** A pin has one; a gain has four, from
bit 32 on. -/
def Target.position : Target → Fin 4 → ℕ
  | .pin index, _ =>
    match directionBitmap.find? fun row => row.2 ≤ (index : ℕ) + 1 ∧ (index : ℕ) + 1 < row.2 + 4 with
    | some row => row.1 + (index + 1 - row.2)
    | none => 40
  | .dac channel, k => 32 + 4 * channel + k

/-- A bit of the shift registers in a frame. The frame is sent from the
highest bit of its first byte on, so its last byte is in bits 0 to 7. -/
def frameBit (frame : List (BitVec 8)) (bit : ℕ) : Bool :=
  (frame.getD (4 - bit / 8) 0).getLsbD (bit % 8)

/-! ## Runs -/

/-- A call, with what the SPI write returns. -/
inductive Call where
  | setGpioOutputEnable (index : Fin 32) (enable : Bool) (spiWrite : ℤ)
  | setDacGain (channel : Fin 2) (gain : DacGain) (spiWrite : ℤ)

def Call.run (r : Registers) : Call → ℤ × Option (List (BitVec 8)) × Registers
  | .setGpioOutputEnable index enable spiWrite =>
    hvsSetGpioOutputEnable spiWrite (UInt8.ofNat index) enable r
  | .setDacGain channel gain spiWrite => hvsSetDacGain spiWrite (UInt8.ofNat channel) gain r

/-- **The shield**, from the cleared registers. -/
def shield : Machine Registers Call where
  init r := r = Registers.zero
  Step r call r' := r' = (call.run r).2.2

/-- What the SPI write of a call returns. -/
def Call.spiWrite : Call → ℤ
  | .setGpioOutputEnable _ _ spiWrite => spiWrite
  | .setDacGain _ _ spiWrite => spiWrite

/-- The value a call gives to a target, bit by bit. -/
def Call.gives (call : Call) (target : Target) : Option (Fin 4 → Bool) :=
  match call with
  | .setGpioOutputEnable index enable _ =>
    if Target.pin index = target then some fun _ => enable else none
  | .setDacGain channel gain _ =>
    if Target.dac channel = target then some fun k => gain.value.getLsbD k else none

/-- The same, if the call succeeds. -/
def Call.givesIfOk (call : Call) (target : Target) : Option (Fin 4 → Bool) :=
  if call.spiWrite = 0 then call.gives target else none

/-- **The value of the most recent successful call**, 0 at first. -/
def given (past : List (Registers × Call)) (target : Target) : Fin 4 → Bool :=
  latest (fun x => x.2.givesIfOk) (fun _ _ => false) past target

/-- The value of the most recent call, successful or not. -/
def tried (past : List (Registers × Call)) (target : Target) : Fin 4 → Bool :=
  latest (fun x => x.2.gives) (fun _ _ => false) past target

/-- **A call that returns 0 has sent a frame** with every target's value
of its most recent successful call in its place. -/
def CarriesGiven (pre : List (Registers × Call)) (r : Registers) (call : Call) : Prop :=
  (call.run r).1 = 0 → ∃ frame, (call.run r).2.1 = some frame ∧
    ∀ target k, frameBit frame (target.position k) = given (pre ++ [(r, call)]) target k

/-- **No other target was last tried in vain with another value.** -/
def NothingLeftOver (pre : List (Registers × Call)) (_ : Registers) (call : Call) : Prop :=
  call.spiWrite = 0 → ∀ target, call.gives target = none → tried pre target = given pre target

/-! ## The frame -/

section Frame

variable (r : Registers)

/-- **Every bit of the frame** is the bit of the packed word. -/
theorem frameBit_hvShieldUpdate {b : ℕ} (hb : b < 40) :
    frameBit (hvShieldUpdate r) b = r.word.getLsbD b := by
  have hbyte : b / 8 < 5 := by omega
  have hback : 5 - (4 - b / 8) - 1 = b / 8 := by omega
  have hbit : 8 * (b / 8) + b % 8 = b := Nat.div_add_mod b 8
  have hraw : r.rawBuffer.getD (b / 8) 0 = r.word.extractLsb' (8 * (b / 8)) 8 := by
    unfold Registers.rawBuffer
    rw [List.getD_eq_getElem?_getD, List.getElem?_map, List.getElem?_range hbyte]
    rfl
  have hframe : (hvShieldUpdate r).getD (4 - b / 8) 0 = r.rawBuffer.getD (b / 8) 0 := by
    unfold hvShieldUpdate
    rw [List.getD_eq_getElem?_getD, List.getElem?_map, List.getElem?_range (by omega),
      Option.map_some, hback]
    rfl
  unfold frameBit
  rw [hframe, hraw, BitVec.getLsbD_extractLsb', hbit, decide_eq_true (Nat.mod_lt b (by decide)),
    Bool.true_and]

theorem getLsbD_word_gpioOutput {b : ℕ} (hb : b < 32) : r.word.getLsbD b = r.gpioOutput.getLsbD b := by
  unfold Registers.word
  rw [BitVec.getLsbD_append, if_pos hb]

theorem getLsbD_word_dac0 (k : Fin 4) : r.word.getLsbD (32 + k) = r.dac0.getLsbD k := by
  have hk := k.isLt
  unfold Registers.word
  rw [BitVec.getLsbD_append, if_neg (by omega), BitVec.getLsbD_append, if_pos (by omega),
    Nat.add_sub_cancel_left]

theorem getLsbD_word_dac1 (k : Fin 4) : r.word.getLsbD (36 + k) = r.dac1.getLsbD k := by
  unfold Registers.word
  rw [BitVec.getLsbD_append, if_neg (by omega), BitVec.getLsbD_append, if_neg (by omega),
    show 36 + (k : ℕ) - 32 - 4 = k by omega]

end Frame

/-! ## The layout -/

/-- **The driver's bit of a pin is the one of the bitmap.** -/
theorem position_pin (i : Fin 32) (k : Fin 4) :
    (Target.pin i).position k = (remapIndex (UInt8.ofNat i)).toNat := by
  have hall : ∀ i : Fin 32, (Target.pin i).position 0 = (remapIndex (UInt8.ofNat i)).toNat := by
    decide +kernel
  exact hall i

theorem remapIndex_lt : ∀ i : Fin 32, (remapIndex (UInt8.ofNat i)).toNat < 32 := by
  decide +kernel

theorem remapIndex_injective : ∀ {i j : Fin 32},
    (remapIndex (UInt8.ofNat i)).toNat = (remapIndex (UInt8.ofNat j)).toNat → i = j := by
  decide +kernel

theorem position_lt (target : Target) (k : Fin 4) : target.position k < 40 := by
  cases target with
  | pin i =>
    have hlt := remapIndex_lt i
    rw [position_pin]
    omega
  | dac c =>
    show 32 + 4 * (c : ℕ) + k < 40
    omega

/-! ## One call -/

/-- What the registers have for a target. -/
def stored (r : Registers) (target : Target) : Fin 4 → Bool :=
  fun k => r.word.getLsbD (target.position k)

theorem stored_pin (r : Registers) (i : Fin 32) :
    stored r (.pin i) = fun _ => r.gpioOutput.getLsbD (remapIndex (UInt8.ofNat i)).toNat := by
  funext k
  unfold stored
  rw [position_pin, getLsbD_word_gpioOutput r (remapIndex_lt i)]

theorem stored_dac (r : Registers) (c : Fin 2) :
    stored r (.dac c) = fun k : Fin 4 => (if c = 0 then r.dac0 else r.dac1).getLsbD k := by
  funext k
  match c with
  | 0 => exact getLsbD_word_dac0 r k
  | 1 => exact getLsbD_word_dac1 r k

theorem run_setGpioOutputEnable (r : Registers) (i : Fin 32) (enable : Bool) (spiWrite : ℤ) :
    (Call.setGpioOutputEnable i enable spiWrite).run r =
      let bit : BitVec 32 := BitVec.twoPow 32 (remapIndex (UInt8.ofNat i)).toNat
      let r := { r with
        gpioOutput := if enable then r.gpioOutput ||| bit else r.gpioOutput &&& ~~~bit }
      (spiWrite, some (hvShieldUpdate r), r) := by
  have hall : ∀ i : Fin 32, ¬ UInt8.ofNat i > 31 := by decide
  exact if_neg (hall i)

theorem run_setDacGain (r : Registers) (c : Fin 2) (gain : DacGain) (spiWrite : ℤ) :
    (Call.setDacGain c gain spiWrite).run r =
      let r := if c = 0 then { r with dac0 := gain.value } else { r with dac1 := gain.value }
      (spiWrite, some (hvShieldUpdate r), r) := by
  match c with
  | 0 => rfl
  | 1 => rfl

/-- A call returns what the SPI write does and sends the registers it
leaves. -/
theorem Call.run_eq (call : Call) (r : Registers) :
    call.run r = (call.spiWrite, some (hvShieldUpdate (call.run r).2.2), (call.run r).2.2) := by
  cases call with
  | setGpioOutputEnable i enable spiWrite =>
    rw [run_setGpioOutputEnable]
    rfl
  | setDacGain c gain spiWrite =>
    rw [run_setDacGain]
    rfl

/-- **A call changes what the registers have for its target**, and nothing
else, whether it succeeds or not. -/
theorem stored_run (call : Call) (r : Registers) (target : Target) :
    stored (call.run r).2.2 target = (call.gives target).getD (stored r target) := by
  cases call with
  | setGpioOutputEnable i enable spiWrite =>
    rw [run_setGpioOutputEnable]
    cases target with
    | pin j =>
      have hlt := remapIndex_lt i
      rw [stored_pin, stored_pin]
      by_cases hij : i = j
      · subst hij
        cases enable <;> simp [Call.gives, hlt]
      · have hne : ¬ (remapIndex (UInt8.ofNat i)).toNat = (remapIndex (UInt8.ofNat j)).toNat :=
          fun heq => hij (remapIndex_injective heq)
        cases enable with
        | true => simp [Call.gives, hij, Register.getLsbD_or_twoPow _ hlt, hne]
        | false => simp [Call.gives, hij, Register.getLsbD_and_not_twoPow _ hlt, hne]
    | dac c =>
      rw [stored_dac, stored_dac]
      rfl
  | setDacGain c gain spiWrite =>
    rw [run_setDacGain]
    cases target with
    | pin j =>
      rw [stored_pin, stored_pin]
      dsimp only
      split_ifs <;> rfl
    | dac c' =>
      rw [stored_dac, stored_dac]
      match c, c' with
      | 0, 0 => rfl
      | 0, 1 => rfl
      | 1, 0 => rfl
      | 1, 1 => rfl

/-! ## Whole runs -/

section Runs

variable {past : List (Registers × Call)} {r : Registers}

/-- **The registers have what was last tried.** -/
theorem stored_eq_tried (h : shield.Run past r) (target : Target) :
    stored r target = tried past target := by
  refine h.eq_latest stored (fun r hinit target => ?_) (fun r call r' _ hstep target => ?_) target
  · obtain rfl : r = Registers.zero := hinit
    funext k
    exact BitVec.getLsbD_zero
  · obtain rfl : r' = (call.run r).2.2 := hstep
    exact stored_run call r target

/-- **One call** sends the values of the successful calls exactly if
nothing is left over for another target. -/
theorem carriesGiven_step (h : shield.Run past r) (call : Call) :
    CarriesGiven past r call ↔ NothingLeftOver past r call := by
  unfold CarriesGiven NothingLeftOver
  rw [call.run_eq]
  refine imp_congr_right fun hok => ?_
  -- the frame has what was last tried, this call included, which is what succeeded for its target
  have hframe : ∀ target k, frameBit (hvShieldUpdate (call.run r).2.2) (target.position k) =
      tried (past ++ [(r, call)]) target k := by
    intro target k
    rw [frameBit_hvShieldUpdate _ (position_lt target k), ← stored_eq_tried (h.step rfl)]
    rfl
  have hagree : ∀ target, tried (past ++ [(r, call)]) target = given (past ++ [(r, call)]) target ↔
      (call.gives target = none → tried past target = given past target) := by
    intro target
    have hsame : call.givesIfOk target = call.gives target := if_pos hok
    exact latest_concat_eq_iff hsame.symm
  constructor
  · rintro ⟨frame, hsent, hbits⟩ target
    obtain rfl : hvShieldUpdate (call.run r).2.2 = frame := Option.some.inj hsent
    rw [← hagree]
    funext k
    rw [← hframe]
    exact hbits target k
  · intro hleft
    refine ⟨_, rfl, fun target k => ?_⟩
    rw [hframe, (hagree target).mpr (hleft target)]

/-- **When the shield is configured by the successful calls.** In a run
every call that returns 0 has sent a frame with the value of the most
recent successful call in every target's place exactly if no such call
finds another target that was last tried in vain with another value. -/
theorem carriesGiven_iff (h : shield.Run past r) :
    Machine.Throughout CarriesGiven past ↔ Machine.Throughout NothingLeftOver past :=
  h.throughout_congr fun _ _ call _ hrun _ => carriesGiven_step hrun call

end Runs

/-- Enabling the output of pin 0 fails with `-EIO`, then enabling that of
pin 1 succeeds. -/
def leftOver : List (Registers × Call) :=
  [(Registers.zero, .setGpioOutputEnable 0 true (-5)),
    ({ Registers.zero with gpioOutput := 0x10 }, .setGpioOutputEnable 1 true 0)]

theorem run_leftOver : shield.Run leftOver { Registers.zero with gpioOutput := 0x30 } := by
  have hfailed : shield.Step Registers.zero (.setGpioOutputEnable 0 true (-5))
      { Registers.zero with gpioOutput := 0x10 } := by
    show _ = _
    decide
  have hnext : shield.Step { Registers.zero with gpioOutput := 0x10 }
      (.setGpioOutputEnable 1 true 0) { Registers.zero with gpioOutput := 0x30 } := by
    show _ = _
    decide
  exact ((Machine.Run.init rfl).step hfailed).step hnext

theorem carriesGiven_iff_leftOver :
    Machine.Throughout CarriesGiven leftOver ↔ Machine.Throughout NothingLeftOver leftOver :=
  carriesGiven_iff run_leftOver

/-- **The second call turns the driver of pin 0 on**, whose own call
returned an error. -/
theorem not_carriesGiven_leftOver :
    ∃ past r, shield.Run past r ∧ ¬ Machine.Throughout CarriesGiven past := by
  refine ⟨leftOver, _, run_leftOver, fun h => ?_⟩
  obtain ⟨frame, hsent, hbits⟩ := h (leftOver.take 1) { Registers.zero with gpioOutput := 0x10 }
    (.setGpioOutputEnable 1 true 0) [] rfl rfl
  obtain rfl : hvShieldUpdate { Registers.zero with gpioOutput := 0x30 } = frame :=
    Option.some.inj hsent
  have hbit := hbits (.pin 0) 0
  revert hbit
  decide

end HvShield

end Ardep
