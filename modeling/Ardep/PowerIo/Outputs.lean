import Ardep.Common.Latest
import Ardep.PowerIo.Model
/-!
# The power I/O shield — what its outputs are driven to

One word of the register cache is two things: the shadow of the outputs,
which every write of the GPIO register starts from, and the last value
read from that register, which is the level of the pins. An output that is
overloaded or shorted reads at another level than the one it is driven to,
and the next write of any other output then drives it to what was read.

`drivesCommanded_iff` says when this cannot happen: when no output that a
write leaves alone was last read at another level than commanded.
-/

namespace Ardep

namespace PowerIo

/-- An operation on the port, with what a read of the GPIO register gives.
All transfers succeed. -/
inductive PortEvent where
  | configure (pin : Pin) (flags : Flags)
  | setMasked (mask value : PortPins)
  | setBits (mask : PortPins)
  | clearBits (mask : PortPins)
  | get (levels : Reg)

/-- What an operation writes to the GPIO register, and the data after it. -/
def PortEvent.run (d : Data) : PortEvent → Option Reg × Data
  | .configure pin flags => (pinConfigure true pin.number flags d).2
  | .setMasked mask value =>
    let (_, newGpio, d) := gpioSetMaskedRaw true mask value d
    (some newGpio, d)
  | .setBits mask =>
    let (_, newGpio, d) := gpioSetBitsRaw true mask d
    (some newGpio, d)
  | .clearBits mask =>
    let (_, newGpio, d) := gpioClearBitsRaw true mask d
    (some newGpio, d)
  | .get levels => (none, (portGetRaw (some levels) d).2.2)

/-- **The port**, from the cleared cache. -/
def port : Machine Data PortEvent where
  init d := d.gpio = 0
  Step d e d' := d' = (e.run d).2

/-! ## What is commanded and what is read -/

/-- The flags an output can be configured with. -/
def Flags.forOutput (flags : Flags) : Prop :=
  ¬ (flags.input ∨ flags.pullDown ∨ flags.pullUp ∨ flags.singleEnded)

instance (flags : Flags) : Decidable flags.forOutput :=
  inferInstanceAs (Decidable (¬ _))

/-- The operations that write the GPIO register. -/
def PortEvent.Writes : PortEvent → Prop
  | .configure (.output _) flags => flags.forOutput
  | .configure _ _ => False
  | .setMasked _ _ | .setBits _ | .clearBits _ => True
  | .get _ => False

/-- The level an operation commands for an output. -/
def PortEvent.commands (e : PortEvent) (i : Fin 6) : Option Bool :=
  match e with
  | .configure (.output j) flags => if flags.forOutput ∧ j = i then some flags.outputInitHigh else none
  | .configure _ _ => none
  | .setMasked mask value =>
    if mask.getLsbD (8 + i) then some (value.getLsbD (8 + i)) else none
  | .setBits mask => if mask.getLsbD (8 + i) then some true else none
  | .clearBits mask => if mask.getLsbD (8 + i) then some false else none
  | .get _ => none

/-- The level an operation shows for an output: the one it commands, or the
one it reads. -/
def PortEvent.shows (e : PortEvent) (i : Fin 6) : Option Bool :=
  match e with
  | .get levels => some (levels.getLsbD (2 + i))
  | e => e.commands i

/-- **The value most recently commanded for an output**, 0 at first. -/
def commanded (past : List (Data × PortEvent)) (i : Fin 6) : Bool :=
  latest (fun x => x.2.commands) (fun _ => false) past i

/-- The value most recently commanded or read. -/
def shown (past : List (Data × PortEvent)) (i : Fin 6) : Bool :=
  latest (fun x => x.2.shows) (fun _ => false) past i

/-- **A write drives every output to its commanded value.** -/
def DrivesCommanded (pre : List (Data × PortEvent)) (d : Data) (e : PortEvent) : Prop :=
  ∀ gpio, (e.run d).1 = some gpio → ∀ i : Fin 6,
    gpio.getLsbD (2 + i) = commanded (pre ++ [(d, e)]) i

/-- **No output that the write leaves alone was misread**: what it was last
read at since it was last commanded, if it was, is what was commanded. -/
def NotMisread (pre : List (Data × PortEvent)) (_ : Data) (e : PortEvent) : Prop :=
  e.Writes → ∀ i, e.commands i = none → shown pre i = commanded pre i

/-! ## One operation -/

section Bits

/-- The bits of the outputs in a port mask. -/
theorem getLsbD_mapOutputs (pins : PortPins) (i : Fin 6) :
    (mapOutputs pins).getLsbD (2 + i) = pins.getLsbD (8 + i) := by
  have hmask : ∀ j : Fin 6, outputPinsMask.getLsbD (2 + j) = true := by decide
  have hi := i.isLt
  have hwide : 2 + (i : ℕ) < 16 := by omega
  have hshifted : ¬ 2 + (i : ℕ) < 2 := by omega
  have hword : (i : ℕ) < 16 := by omega
  have hbyte : (i : ℕ) < 8 := by omega
  unfold mapOutputs
  rw [BitVec.getLsbD_and, hmask, Bool.and_true, BitVec.getLsbD_shiftLeft, decide_eq_true hwide,
    decide_eq_false hshifted, Bool.not_false, Bool.and_true, Bool.true_and, Nat.add_sub_cancel_left,
    BitVec.getLsbD_setWidth, decide_eq_true hword, Bool.true_and, BitVec.getLsbD_setWidth,
    decide_eq_true hbyte, Bool.true_and, BitVec.getLsbD_ushiftRight]

theorem Pin.bit_output : ∀ i : Fin 6, zephyrPinToGpioBit (Pin.output i).number = 2 + i := by
  decide

/-- The base of a pin's number. -/
theorem Pin.base_output : ∀ i : Fin 6, (Pin.output i).number &&& baseMask = outputBase := by
  decide

theorem Pin.base_input : ∀ i : Fin 6, (Pin.input i).number &&& baseMask = inputBase := by
  decide

theorem Pin.base_fault : ∀ i : Fin 3, (Pin.fault i).number &&& baseMask = faultBase := by
  decide

/-- A masked write, bit by bit. -/
theorem getLsbD_setMasked (mask value : PortPins) (d : Data) (i : Fin 6) :
    (d.gpio &&& ~~~mapOutputs mask ||| mapOutputs value &&& mapOutputs mask).getLsbD (2 + i) =
      if mask.getLsbD (8 + i) then value.getLsbD (8 + i) else d.gpio.getLsbD (2 + i) := by
  rw [Register.getLsbD_replace, getLsbD_mapOutputs, getLsbD_mapOutputs]

/-- One output driven high or low, bit by bit. -/
theorem getLsbD_drive (r : Reg) (high : Bool) (j i : Fin 6) :
    (if high then r ||| BitVec.twoPow 16 (2 + j) else r &&& ~~~BitVec.twoPow 16 (2 + j)).getLsbD
        (2 + i) = if j = i then high else r.getLsbD (2 + i) := by
  have hj : 2 + (j : ℕ) < 16 := by omega
  have heq : 2 + (j : ℕ) = 2 + (i : ℕ) ↔ j = i := by omega
  cases high with
  | true => simp only [if_true, Register.getLsbD_or_twoPow r hj, heq]
  | false =>
    simp only [Bool.false_eq_true, if_false, Register.getLsbD_and_not_twoPow r hj, heq]

end Bits

/-- An input or a fault line is not written. -/
theorem pinConfigure_of_not_output {pin : UInt8}
    (hbase : pin &&& baseMask = inputBase ∨ pin &&& baseMask = faultBase) (written : Bool)
    (flags : Flags) (d : Data) : (pinConfigure written pin flags d).2 = (none, d) := by
  unfold pinConfigure
  simp only [if_pos hbase]
  split_ifs <;> rfl

/-- An output is, if the flags allow it, and the cache has the new level
whether the write succeeds or not. -/
theorem pinConfigure_output (written : Bool) (i : Fin 6) (flags : Flags) (d : Data) :
    (pinConfigure written (Pin.output i).number flags d).2 =
      if flags.forOutput then
        let gpio :=
          if flags.outputInitHigh then d.gpio ||| BitVec.twoPow 16 (2 + i)
          else d.gpio &&& ~~~BitVec.twoPow 16 (2 + i)
        (some gpio, { d with gpio := gpio })
      else (none, d) := by
  have hne : ¬ ((Pin.output i).number &&& baseMask = inputBase ∨
      (Pin.output i).number &&& baseMask = faultBase) := by
    rw [Pin.base_output]
    decide
  unfold pinConfigure Flags.forOutput
  simp only [if_neg hne, if_pos (Pin.base_output i), Pin.bit_output]
  split_ifs <;> simp_all

theorem PortEvent.run_configure (d : Data) (pin : Pin) (flags : Flags) :
    (PortEvent.configure pin flags).run d = (pinConfigure true pin.number flags d).2 := rfl

/-- **What an operation writes** is the cache it leaves, and it writes
whatever the data. -/
theorem PortEvent.run_fst (e : PortEvent) (d : Data) :
    (e.Writes ∧ (e.run d).1 = some (e.run d).2.gpio) ∨ ¬ e.Writes ∧ (e.run d).1 = none := by
  cases e with
  | configure pin flags =>
    rw [PortEvent.run_configure]
    cases pin with
    | input i =>
      rw [pinConfigure_of_not_output (.inl (Pin.base_input i))]
      exact .inr ⟨id, rfl⟩
    | fault i =>
      rw [pinConfigure_of_not_output (.inr (Pin.base_fault i))]
      exact .inr ⟨id, rfl⟩
    | output i =>
      rw [pinConfigure_output]
      by_cases hflags : flags.forOutput
      · rw [if_pos hflags]
        exact .inl ⟨hflags, rfl⟩
      · rw [if_neg hflags]
        exact .inr ⟨hflags, rfl⟩
  | setMasked mask value => exact .inl ⟨trivial, rfl⟩
  | setBits mask => exact .inl ⟨trivial, rfl⟩
  | clearBits mask => exact .inl ⟨trivial, rfl⟩
  | get levels => exact .inr ⟨id, rfl⟩

/-- **What an operation does to the cache of an output**: it has the level
the operation shows. -/
theorem PortEvent.getLsbD_run (e : PortEvent) (d : Data) (i : Fin 6) :
    (e.run d).2.gpio.getLsbD (2 + i) = (e.shows i).getD (d.gpio.getLsbD (2 + i)) := by
  cases e with
  | configure pin flags =>
    rw [PortEvent.run_configure]
    cases pin with
    | input j =>
      rw [pinConfigure_of_not_output (.inl (Pin.base_input j))]
      rfl
    | fault j =>
      rw [pinConfigure_of_not_output (.inr (Pin.base_fault j))]
      rfl
    | output j =>
      rw [pinConfigure_output]
      by_cases hflags : flags.forOutput
      · rw [if_pos hflags]
        refine (getLsbD_drive d.gpio flags.outputInitHigh j i).trans ?_
        simp only [PortEvent.shows, PortEvent.commands, hflags, true_and]
        split_ifs <;> rfl
      · rw [if_neg hflags]
        simp only [PortEvent.shows, PortEvent.commands, hflags, false_and, if_false,
          Option.getD_none]
  | setMasked mask value =>
    simp only [PortEvent.run, PortEvent.shows, PortEvent.commands, gpioSetMaskedRaw, if_true,
      getLsbD_setMasked]
    split_ifs <;> rfl
  | setBits mask =>
    simp only [PortEvent.run, PortEvent.shows, PortEvent.commands, gpioSetBitsRaw, gpioSetMaskedRaw,
      if_true, getLsbD_setMasked]
    split_ifs with hmask
    · rw [hmask]
      rfl
    · rfl
  | clearBits mask =>
    have hzero : (0 : PortPins).getLsbD (8 + i) = false := BitVec.getLsbD_zero
    simp only [PortEvent.run, PortEvent.shows, PortEvent.commands, gpioClearBitsRaw,
      gpioSetMaskedRaw, if_true, getLsbD_setMasked, hzero]
    split_ifs <;> rfl
  | get levels => rfl

/-- A write shows what it commands. -/
theorem PortEvent.shows_of_writes {e : PortEvent} (h : e.Writes) (i : Fin 6) :
    e.shows i = e.commands i := by
  cases e with
  | get levels => exact absurd h id
  | _ => rfl

/-! ## Every run -/

section Runs

variable {past : List (Data × PortEvent)} {d d' : Data} {e : PortEvent}

/-- **The cache of an output is what was last commanded or read.** -/
theorem getLsbD_gpio (h : port.Run past d) (i : Fin 6) : d.gpio.getLsbD (2 + i) = shown past i := by
  refine h.eq_latest (fun d (i : Fin 6) => d.gpio.getLsbD (2 + i)) (fun d hinit i => ?_)
    (fun d e d' _ hstep i => ?_) i
  · rw [show d.gpio = 0 from hinit]
    exact BitVec.getLsbD_zero
  · obtain rfl : d' = (e.run d).2 := hstep
    exact e.getLsbD_run d i

/-- **One write** drives every output as commanded exactly if it leaves no
misread output alone. -/
theorem drivesCommanded_step (h : port.Run past d) (e : PortEvent) :
    DrivesCommanded past d e ↔ NotMisread past d e := by
  unfold DrivesCommanded NotMisread
  rcases e.run_fst d with ⟨hwrites, hrun⟩ | ⟨hwrites, hrun⟩
  · -- a write puts out what is shown after it, which is the command for those it commands
    have hout : ∀ i : Fin 6, (e.run d).2.gpio.getLsbD (2 + i) = shown (past ++ [(d, e)]) i :=
      getLsbD_gpio (h.step rfl)
    have hagree : ∀ i, shown (past ++ [(d, e)]) i = commanded (past ++ [(d, e)]) i ↔
        (e.commands i = none → shown past i = commanded past i) := by
      intro i
      have hshows := PortEvent.shows_of_writes hwrites i
      rw [← hshows]
      exact latest_concat_eq_iff hshows
    constructor
    · intro hdrives _ i
      rw [← hagree, ← hout]
      exact hdrives _ hrun i
    · intro hshown gpio hgpio i
      obtain rfl : (e.run d).2.gpio = gpio := Option.some.inj (hrun.symm.trans hgpio)
      rw [hout, hagree]
      exact hshown hwrites i
  · refine iff_of_true (fun gpio hgpio => ?_) fun hw => absurd hw hwrites
    rw [hrun] at hgpio
    cases hgpio

/-- **When the outputs are driven as commanded.** In a run of the port
every write drives every output to the value last commanded for it exactly
if no write finds an output, other than those it commands itself, that was
last read at another level. -/
theorem drivesCommanded_iff (h : port.Run past d) :
    Machine.Throughout DrivesCommanded past ↔ Machine.Throughout NotMisread past :=
  h.throughout_congr fun _ _ e _ hrun _ => drivesCommanded_step hrun e

end Runs

/-- Output 0 is set, the port is read while the output is shorted to
ground, and output 1 is set. -/
def shorted : List (Data × PortEvent) :=
  [(Data.zero, .setBits 0x100), ({ Data.zero with gpio := 4 }, .get 0), (Data.zero, .setBits 0x200)]

theorem run_shorted : port.Run shorted { Data.zero with gpio := 8 } := by
  have hset : port.Step Data.zero (.setBits 0x100) { Data.zero with gpio := 4 } := by
    show _ = _
    decide
  have hget : port.Step { Data.zero with gpio := 4 } (.get 0) Data.zero := rfl
  have hnext : port.Step Data.zero (.setBits 0x200) { Data.zero with gpio := 8 } := by
    show _ = _
    decide
  exact (((Machine.Run.init rfl).step hset).step hget).step hnext

theorem drivesCommanded_iff_shorted :
    Machine.Throughout DrivesCommanded shorted ↔ Machine.Throughout NotMisread shorted :=
  drivesCommanded_iff run_shorted

/-- **The second write drives output 0 low**, which was set and never
cleared. -/
theorem not_drivesCommanded_shorted :
    ∃ past d, port.Run past d ∧ ¬ Machine.Throughout DrivesCommanded past := by
  refine ⟨shorted, _, run_shorted, fun h => ?_⟩
  have hlast := h (shorted.take 2) Data.zero (.setBits 0x200) [] rfl 8 (by decide) 0
  revert hlast
  decide

end PowerIo

end Ardep
