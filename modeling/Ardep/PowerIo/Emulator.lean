import Ardep.Common.RegFile
import Ardep.PowerIo.Failure
/-!
# The power I/O shield — the driver on the emulated chip

The tests of the driver run it against an emulator of the port expander:
27 byte registers behind `power_io_shield_emul_transfer_i2c`, which follows
the messages of a transfer with an address that counts up. It has no
notion of a pin; a register has what was last written to it, by the driver
or by a test.

The transfers here are the driver's own, message by message, and an access
past the last register has no result. `emulated_run` says that the driver
never makes one, that every transfer is accepted, and that the driver's
cache and the emulated registers agree at all times. On the emulator the
outputs are thus always as commanded, which the chip itself does not
guarantee.
-/

namespace Ardep

namespace PowerIo

open Uds RegFile

/-! ## The emulator -/

/-- `NUM_REGS`. -/
abbrev numRegs : ℕ := 27

/-- `struct power_io_shield_emul_data`. -/
abbrev EmulData : Type := RegFile numRegs

/-- `struct i2c_msg`, with the flags the emulator looks at. -/
structure I2cMsg where
  buf : List UInt8
  read : Bool
  stop : Bool

/-- The loop of `power_io_shield_emul_transfer_i2c`: what it returns, the
messages with what was read, and the registers. It reads the address of a
message without looking at its length. -/
def emulTransferLoop : List I2cMsg → UInt8 → Bool → EmulData → Option (ℤ × List I2cMsg × EmulData)
  | [], _, _, data => some (0, [], data)
  | msg :: msgs, regAddr, stopSeen, data =>
    if stopSeen then
      if msg.read then some (- EIO, msg :: msgs, data)
      else
        match msg.buf with
        | [] => none
        | addr :: bytes => do
          let data ← data.write addr.toNat bytes
          let (ret, rest, data) ←
            emulTransferLoop msgs (addr + UInt8.ofNat bytes.length) msg.stop data
          some (ret, msg :: rest, data)
    else if msg.read then do
      let bytes ← data.read regAddr.toNat msg.buf.length
      let (ret, rest, data) ←
        emulTransferLoop msgs (regAddr + UInt8.ofNat msg.buf.length) msg.stop data
      some (ret, { msg with buf := bytes } :: rest, data)
    else do
      let data ← data.write regAddr.toNat msg.buf
      let (ret, rest, data) ←
        emulTransferLoop msgs (regAddr + UInt8.ofNat msg.buf.length) msg.stop data
      some (ret, msg :: rest, data)

/-- `power_io_shield_emul_transfer_i2c`. -/
def emulTransferI2c (msgs : List I2cMsg) (data : EmulData) :
    Option (ℤ × List I2cMsg × EmulData) :=
  if msgs.length < 1 then some (- EIO, msgs, data) else emulTransferLoop msgs 0 true data

/-- `power_io_shield_emul_init`. -/
def emulInit : EmulData := fun _ => 0

/-- `power_io_shield_emul_set_u16_reg`. -/
def emulSetU16Reg (regAddr : UInt8) (val : Reg) (data : EmulData) : Option EmulData :=
  data.write regAddr.toNat [loByte val, hiByte val]

/-- `power_io_shield_emul_get_u16_reg`, where it stays inside. -/
def emulGetU16Reg (regAddr : UInt8) (data : EmulData) : Reg := data.word regAddr.toNat

/-! ## The driver's transfers -/

/-- The register pairs the driver uses, by the address of the first. -/
inductive RegPair
  | iodir
  | gpinten
  | defval
  | intcon
  | iocon
  | intf
  | intcap
  | gpio
  deriving DecidableEq

/-- `REG_IODIRA`, `REG_GPINTENA`, and so on. -/
def RegPair.addr : RegPair → UInt8
  | .iodir => 0x00
  | .gpinten => 0x04
  | .defval => 0x06
  | .intcon => 0x08
  | .iocon => 0x0A
  | .intf => 0x0E
  | .intcap => 0x10
  | .gpio => 0x12

/-- `write_u16_reg`: one message, as `i2c_write_dt` makes it. -/
def writeU16Reg (regAddr : UInt8) (value : Reg) (data : EmulData) : Option (ℤ × EmulData) := do
  let (ret, _, data) ← emulTransferI2c [⟨[regAddr, loByte value, hiByte value], false, true⟩] data
  some (ret, data)

/-- `read_u16_reg`: two messages, as `i2c_write_read_dt` makes them. -/
def readU16Reg (regAddr : UInt8) (data : EmulData) : Option (ℤ × Option Reg × EmulData) := do
  let (ret, msgs, data) ← emulTransferI2c [⟨[regAddr], false, false⟩, ⟨[0, 0], true, true⟩] data
  if ret ≠ 0 then some (ret, none, data)
  else
    match msgs with
    | [_, ⟨[lo, hi], _, _⟩] => some (0, some (leWord lo hi), data)
    | _ => none

/-- The word of a register pair. -/
def pair (data : EmulData) (p : RegPair) : Reg := emulGetU16Reg p.addr data

section Transfers

variable {data : EmulData}

theorem RegPair.addr_lt (p : RegPair) : p.addr.toNat + 1 < numRegs := by
  cases p <;> decide

/-- Two pairs do not overlap. -/
theorem RegPair.addr_apart (p q : RegPair) :
    q.addr.toNat = p.addr.toNat ∧ q = p ∨
      q.addr.toNat + 1 < p.addr.toNat ∧ q ≠ p ∨ p.addr.toNat + 1 < q.addr.toNat ∧ q ≠ p := by
  cases p <;> cases q <;> decide

/-- A pair that a test sets. -/
theorem emulSetU16Reg_pair (data : EmulData) (p : RegPair) (value : Reg) :
    ∃ data', emulSetU16Reg p.addr value data = some data' ∧
      pair data' = Function.update (pair data) p value := by
  obtain ⟨data', hwrite⟩ := write_eq_some [loByte value, hiByte value] data p.addr.toNat p.addr_lt
  refine ⟨data', hwrite, funext fun q => ?_⟩
  have hword := word_write hwrite q.addr.toNat
  rcases p.addr_apart q with ⟨heq, rfl⟩ | ⟨hlt, hne⟩ | ⟨hlt, hne⟩
  · rw [Function.update_self]
    exact (hword (.inl rfl)).trans (if_pos rfl)
  · rw [Function.update_of_ne hne]
    exact (hword (.inr (.inl hlt))).trans (if_neg (by omega))
  · rw [Function.update_of_ne hne]
    exact (hword (.inr (.inr hlt))).trans (if_neg (by omega))

/-- **A write of a pair** is accepted, and leaves the pair with the value
and the others as they were. -/
theorem writeU16Reg_pair (data : EmulData) (p : RegPair) (value : Reg) :
    ∃ data', writeU16Reg p.addr value data = some (0, data') ∧
      pair data' = Function.update (pair data) p value := by
  obtain ⟨data', hset, hpair⟩ := emulSetU16Reg_pair data p value
  have hwrite : data.write p.addr.toNat [loByte value, hiByte value] = some data' := hset
  refine ⟨data', ?_, hpair⟩
  simp [writeU16Reg, emulTransferI2c, emulTransferLoop, hwrite]

/-- **A read of a pair** is accepted and gives its word. -/
theorem readU16Reg_pair (data : EmulData) (p : RegPair) :
    readU16Reg p.addr data = some (0, some (pair data p), data) := by
  have hlt := p.addr_lt
  have hread := read_eq_some data p.addr.toNat 2 hlt
  simp [readU16Reg, emulTransferI2c, emulTransferLoop, write, hread]
  rfl

end Transfers

/-! ## The driver on the emulator -/

/-- The data of the driver and the registers of the emulator. -/
structure Sim where
  data : Data
  regs : EmulData

/-- What surrounds the initialisation of the driver: whether the bus is
ready; of every interrupt GPIO whether it is and what configuring it
returns; what adding the callback, configuring its interrupt and
`k_sem_init` return. -/
structure InitResults where
  busReady : Bool
  intGpios : List (Bool × ℤ)
  addCallback : ℤ
  interruptConfigure : ℤ
  kSemInit : ℤ

/-- `ENODEV`. -/
abbrev ENODEV : ℤ := 19

/-- The loop of `power_io_shield_init` over the interrupt GPIOs. -/
def initIntGpios : List (Bool × ℤ) → ℤ
  | [] => 0
  | (ready, ret) :: rest => if !ready then -ENODEV else if ret ≠ 0 then ret else initIntGpios rest

/-- `write_iocon`. -/
def writeIocon (value : BitVec 8) (regs : EmulData) : Option (ℤ × EmulData) :=
  writeU16Reg RegPair.iocon.addr (value.setWidth 16 <<< 8 ||| value.setWidth 16) regs

/-- The directions `power_io_shield_init` sets: inputs and fault lines. -/
def iodirValue : Reg :=
  (inputPinsMask ||| BitVec.twoPow 16 14 ||| BitVec.twoPow 16 0 ||| BitVec.twoPow 16 1) &&& 0x7F7F

/-- `power_io_shield_init`: what it returns, and the registers. -/
def powerIoShieldInit (env : InitResults) (regs : EmulData) : Option (ℤ × EmulData) :=
  if !env.busReady then some (-ENODEV, regs)
  else if initIntGpios env.intGpios ≠ 0 then some (initIntGpios env.intGpios, regs)
  else if env.intGpios ≠ [] ∧ env.addCallback ≠ 0 then some (env.addCallback, regs)
  else if env.intGpios ≠ [] ∧ env.interruptConfigure ≠ 0 then some (env.interruptConfigure, regs)
  else do
    let (ret, regs) ← writeIocon (BitVec.twoPow 8 2 ||| BitVec.twoPow 8 6) regs
    if ret ≠ 0 then some (- EIO, regs)
    else
      let (ret, regs) ← writeU16Reg RegPair.iodir.addr iodirValue regs
      if ret ≠ 0 then some (- EIO, regs)
      else if env.kSemInit < 0 then some (env.kSemInit, regs)
      else some (0, regs)

/-- What is done with the device and the emulator: the operations of the
port, a configuration of an interrupt from a thread, the interrupt work
item, and a test that sets the flagged and captured pins. -/
inductive SimOp
  | configure (pin : Pin) (flags : Flags)
  | setMasked (mask value : PortPins)
  | setBits (mask : PortPins)
  | clearBits (mask : PortPins)
  | get
  | interruptConfigure (pin : UInt8) (mode : IntMode) (trig : IntTrig)
  | interruptWork
  | bench (intf intcap : Reg)

/-- What an operation returns, and the pins it reads or fires. -/
structure SimAnswer where
  ret : ℤ
  pins : PortPins

namespace Sim

/-- An operation that writes the GPIO register. What it tries to write does
not depend on whether the transfer succeeds. -/
def drive (e : PortEvent) (s : Sim) : Option (SimAnswer × Sim) :=
  match (e.attempt true s.data).2.1 with
  | none =>
    let (ret, _, data) := e.attempt true s.data
    some (⟨ret, 0⟩, { s with data := data })
  | some gpio => do
    let (err, regs) ← writeU16Reg RegPair.gpio.addr gpio s.regs
    let (ret, _, data) := e.attempt (err = 0) s.data
    some (⟨ret, 0⟩, ⟨data, regs⟩)

/-- `power_io_shield_port_get_raw`. -/
def portGet (s : Sim) : Option (SimAnswer × Sim) := do
  let (_, regValue, regs) ← readU16Reg RegPair.gpio.addr s.regs
  let (ret, value, data) := portGetRaw regValue s.data
  some (⟨ret, value.getD 0⟩, ⟨data, regs⟩)

/-- `power_io_shield_write_interrupt_config_work_handler`. Errors are
logged. -/
def writeInterruptConfigWork (s : Sim) : Option Sim := do
  let (_, regs) ← writeU16Reg RegPair.defval.addr s.data.defval s.regs
  let (_, regs) ← writeU16Reg RegPair.intcon.addr s.data.intcon regs
  let (_, regs) ← writeU16Reg RegPair.gpinten.addr s.data.gpinten regs
  some { s with regs := regs }

/-- `power_io_shield_pin_interrupt_configure` in a thread. -/
def interruptConfigure (pin : UInt8) (mode : IntMode) (trig : IntTrig) (s : Sim) :
    Option (SimAnswer × Sim) :=
  if checkInterrupt pin mode trig ≠ 0 then some (⟨checkInterrupt pin mode trig, 0⟩, s)
  else do
    let s ← { s with data := configureInterrupt pin mode trig s.data }.writeInterruptConfigWork
    some (⟨0, 0⟩, s)

/-- `power_io_shield_interrupt_work_handler`: it reads INTCAP only where
INTF has a flag. -/
def interruptWork (s : Sim) : Option (SimAnswer × Sim) := do
  let (_, intf, regs) ← readU16Reg RegPair.intf.addr s.regs
  match intf with
  | none => some (⟨0, 0⟩, { s with regs := regs })
  | some intf =>
    if intf = 0 then some (⟨0, 0⟩, { s with regs := regs })
    else
      let (_, intcap, regs) ← readU16Reg RegPair.intcap.addr regs
      some (⟨0, interruptWorkHandler (some intf) intcap s.data⟩, { s with regs := regs })

/-- One operation: its answer and what it leaves, if every access of it
stays inside the registers. -/
def run (s : Sim) : SimOp → Option (SimAnswer × Sim)
  | .configure pin flags => s.drive (.configure pin flags)
  | .setMasked mask value => s.drive (.setMasked mask value)
  | .setBits mask => s.drive (.setBits mask)
  | .clearBits mask => s.drive (.clearBits mask)
  | .get => s.portGet
  | .interruptConfigure pin mode trig => s.interruptConfigure pin mode trig
  | .interruptWork => s.interruptWork
  | .bench intf intcap => do
    let regs ← emulSetU16Reg RegPair.intf.addr intf s.regs
    let regs ← emulSetU16Reg RegPair.intcap.addr intcap regs
    some (⟨0, 0⟩, { s with regs := regs })

end Sim

/-- **The device on the emulator**, from an initialisation that succeeded. -/
def emulated : Machine Sim SimOp where
  init s := s.data = Data.zero ∧ ∃ env, powerIoShieldInit env emulInit = some (0, s.regs)
  Step s e s' := ∃ answer, s.run e = some (answer, s')

/-! ## What the driver is to the emulator -/

/-- **The device as the model of the driver has it**: no registers but the
cache, transfers that succeed, and reads that give the cache, for the GPIO
register, or what a test has set. -/
structure Device where
  data : Data
  intf : Reg
  intcap : Reg

/-- The writes of the interrupt settings, all of which succeed. -/
def allWritten : WriteResults := ⟨.written, .written, .written⟩

/-- One operation on the device. -/
def Device.run (s : Device) : SimOp → SimAnswer × Device
  | .configure pin flags =>
    let (ret, _, data) := pinConfigure true pin.number flags s.data
    (⟨ret, 0⟩, { s with data := data })
  | .setMasked mask value =>
    let (ret, _, data) := gpioSetMaskedRaw true mask value s.data
    (⟨ret, 0⟩, { s with data := data })
  | .setBits mask =>
    let (ret, _, data) := gpioSetBitsRaw true mask s.data
    (⟨ret, 0⟩, { s with data := data })
  | .clearBits mask =>
    let (ret, _, data) := gpioClearBitsRaw true mask s.data
    (⟨ret, 0⟩, { s with data := data })
  | .get =>
    let (ret, value, data) := portGetRaw (some s.data.gpio) s.data
    (⟨ret, value.getD 0⟩, { s with data := data })
  | .interruptConfigure pin mode trig =>
    let (ret, data, _) := pinInterruptConfigure allWritten pin mode trig s.data ⟨0, 0, 0⟩
    (⟨ret, 0⟩, { s with data := data })
  | .interruptWork => (⟨0, interruptWorkHandler (some s.intf) (some s.intcap) s.data⟩, s)
  | .bench intf intcap => (⟨0, 0⟩, { s with intf := intf, intcap := intcap })

/-- What the emulated device is a device of. -/
def Sim.device (s : Sim) : Device := ⟨s.data, pair s.regs .intf, pair s.regs .intcap⟩

/-- What a register pair is to hold: what is cached of it, or what the
initialisation wrote. -/
def Data.mirror (data : Data) : RegPair → Option Reg
  | .gpio => some data.gpio
  | .defval => some data.defval
  | .intcon => some data.intcon
  | .gpinten => some data.gpinten
  | .iodir => some 0x7F03
  | .iocon => some 0x4444
  | .intf | .intcap => none

/-- **The registers mirror the cache.** -/
def Sim.Mirrors (s : Sim) : Prop := ∀ p value, s.data.mirror p = some value → pair s.regs p = value

section Refinement

variable {s s' : Sim}

theorem pair_emulInit (p : RegPair) : pair emulInit p = 0 := by
  have hbyte : ∀ i, byteAt emulInit i = 0 := by
    intro i
    unfold byteAt
    split_ifs <;> rfl
  unfold pair emulGetU16Reg word
  rw [hbyte, hbyte]
  decide

/-- An initialisation that succeeds has made its two writes. -/
theorem mirrors_init {env : InitResults} (hdata : s.data = Data.zero)
    (h : powerIoShieldInit env emulInit = some (0, s.regs)) : s.Mirrors := by
  obtain ⟨regs, hiocon, hpair⟩ := writeU16Reg_pair emulInit .iocon 0x4444
  obtain ⟨regs', hiodir, hpair'⟩ := writeU16Reg_pair regs .iodir iodirValue
  have hvalue : (BitVec.setWidth 16 (BitVec.twoPow 8 2 ||| BitVec.twoPow 8 6) <<< 8 |||
      BitVec.setWidth 16 (BitVec.twoPow 8 2 ||| BitVec.twoPow 8 6) : Reg) = 0x4444 := by decide
  have hregs : s.regs = regs' := by
    unfold powerIoShieldInit writeIocon at h
    have hzero : ¬ (0 : ℤ) ≠ 0 := fun hne => hne rfl
    rw [hvalue, hiocon] at h
    simp only [Option.bind_eq_bind, Option.bind_some, if_neg hzero] at h
    rw [hiodir] at h
    simp only [Option.bind_some, if_neg hzero] at h
    -- every other way out returns something else than 0
    split_ifs at h with hbus hgpios hadd hint hsem <;>
      obtain ⟨hret, hregs⟩ := Prod.mk.inj (Option.some.inj h)
    · exact absurd hret (by decide)
    · exact absurd hret hgpios
    · exact absurd hret hadd.2
    · exact absurd hret hint.2
    · omega
    · exact hregs.symm
  have hword : pair s.regs =
      Function.update (Function.update (fun _ => 0) .iocon 0x4444) .iodir iodirValue := by
    rw [hregs, hpair', hpair, show pair emulInit = fun _ => 0 from funext pair_emulInit]
  intro p value hvalue
  rw [hdata] at hvalue
  rw [hword]
  cases p <;> first | exact Option.some.inj hvalue | cases hvalue

/-- One pair is written, and its cache with it. -/
theorem Sim.Mirrors.write {p : RegPair} {value : Reg} {data : Data} {regs : EmulData}
    (h : s.Mirrors) (hregs : pair regs = Function.update (pair s.regs) p value)
    (hp : ∀ v, data.mirror p = some v → value = v)
    (hothers : ∀ q, q ≠ p → data.mirror q = s.data.mirror q) : Sim.Mirrors ⟨data, regs⟩ := by
  intro q v hv
  show pair regs q = v
  rw [hregs]
  by_cases hq : q = p
  · subst hq
    rw [Function.update_self]
    exact hp v hv
  · rw [Function.update_of_ne hq]
    exact h q v ((hothers q hq).symm.trans hv)

/-- An operation on the port changes no cache but that of the GPIO
register, and that only by writing it. -/
theorem PortEvent.attempt_data {e : PortEvent} (he : ∀ levels, e ≠ .get levels) (d : Data) :
    (e.attempt true d).2 = (none, d) ∨
      ∃ gpio, (e.attempt true d).2 = (some gpio, { d with gpio := gpio }) := by
  cases e with
  | configure pin flags =>
    simp only [PortEvent.attempt]
    cases pin with
    | input i => exact .inl (pinConfigure_of_not_output (.inl (Pin.base_input i)) _ _ _)
    | fault i => exact .inl (pinConfigure_of_not_output (.inr (Pin.base_fault i)) _ _ _)
    | output i =>
      rw [pinConfigure_output]
      by_cases hflags : flags.forOutput
      · rw [if_pos hflags]
        exact .inr ⟨_, rfl⟩
      · rw [if_neg hflags]
        exact .inl rfl
  | get levels => exact absurd rfl (he levels)
  | _ => exact .inr ⟨_, rfl⟩

/-- **An operation on the port** writes what the cache has after it. -/
theorem Sim.drive_eq (h : s.Mirrors) {e : PortEvent} (he : ∀ levels, e ≠ .get levels) :
    ∃ s', s.drive e = some (⟨(e.attempt true s.data).1, 0⟩, s') ∧ s'.Mirrors ∧
      s'.device = { s.device with data := (e.attempt true s.data).2.2 } := by
  have hdata := PortEvent.attempt_data he s.data
  rcases hattempt : e.attempt true s.data with ⟨ret, out, data⟩
  unfold Sim.drive
  rw [hattempt] at hdata ⊢
  rcases hdata with hnone | ⟨gpio, hsome⟩
  · obtain ⟨rfl, rfl⟩ := Prod.mk.inj hnone
    exact ⟨s, rfl, h, rfl⟩
  · obtain ⟨rfl, rfl⟩ := Prod.mk.inj hsome
    obtain ⟨regs, hwrite, hregs⟩ := writeU16Reg_pair s.regs .gpio gpio
    simp only [hwrite, Option.bind_eq_bind, Option.bind_some, decide_true, hattempt]
    refine ⟨_, rfl, ?_, ?_⟩
    · refine h.write hregs (fun v hv => Option.some.inj hv) fun q hq => ?_
      cases q <;> first | rfl | exact absurd rfl hq
    · simp [Sim.device, hregs]

theorem Sim.portGet_eq (h : s.Mirrors) :
    s.portGet = some (⟨0, gpioBitsToZephyrBits (s.data.gpio ^^^ hardInvertPins)⟩, s) := by
  unfold Sim.portGet
  rw [readU16Reg_pair, h .gpio s.data.gpio rfl]
  rfl

/-- The three writes of the interrupt settings. -/
theorem Sim.writeInterruptConfigWork_eq (s : Sim) :
    ∃ regs, s.writeInterruptConfigWork = some { s with regs := regs } ∧
      pair regs = Function.update (Function.update (Function.update (pair s.regs)
        .defval s.data.defval) .intcon s.data.intcon) .gpinten s.data.gpinten := by
  obtain ⟨r₁, hdefval, h₁⟩ := writeU16Reg_pair s.regs .defval s.data.defval
  obtain ⟨r₂, hintcon, h₂⟩ := writeU16Reg_pair r₁ .intcon s.data.intcon
  obtain ⟨r₃, hgpinten, h₃⟩ := writeU16Reg_pair r₂ .gpinten s.data.gpinten
  refine ⟨r₃, ?_, by rw [h₃, h₂, h₁]⟩
  simp [Sim.writeInterruptConfigWork, hdefval, hintcon, hgpinten]

theorem configureInterrupt_gpio (pin : UInt8) (mode : IntMode) (trig : IntTrig) (d : Data) :
    (configureInterrupt pin mode trig d).gpio = d.gpio := by
  cases mode <;> rfl

/-- What a configuration returns is what its checks say. -/
theorem pinInterruptConfigure_fst (results : WriteResults) (pin : UInt8) (mode : IntMode)
    (trig : IntTrig) (d : Data) (chip : ChipRegs) :
    (pinInterruptConfigure results pin mode trig d chip).1 = checkInterrupt pin mode trig := by
  unfold pinInterruptConfigure
  split_ifs with hok
  · rfl
  · exact (not_not.mp hok).symm

theorem pinInterruptConfigure_gpio (results : WriteResults) (pin : UInt8) (mode : IntMode)
    (trig : IntTrig) (d : Data) (chip : ChipRegs) :
    (pinInterruptConfigure results pin mode trig d chip).2.1.gpio = d.gpio := by
  unfold pinInterruptConfigure
  split_ifs
  · rfl
  · exact configureInterrupt_gpio pin mode trig d

theorem Sim.interruptConfigure_eq (h : s.Mirrors) (pin : UInt8) (mode : IntMode) (trig : IntTrig) :
    ∃ s', s.interruptConfigure pin mode trig = some (⟨checkInterrupt pin mode trig, 0⟩, s') ∧
      s'.Mirrors ∧ s'.device = { s.device with
        data := (pinInterruptConfigure allWritten pin mode trig s.data ⟨0, 0, 0⟩).2.1 } := by
  unfold Sim.interruptConfigure pinInterruptConfigure
  by_cases hok : checkInterrupt pin mode trig = 0
  · obtain ⟨regs, hwork, hregs⟩ := Sim.writeInterruptConfigWork_eq
      { s with data := configureInterrupt pin mode trig s.data }
    rw [if_neg (not_not.mpr hok), if_neg (not_not.mpr hok), hwork, hok]
    refine ⟨_, rfl, ?_, ?_⟩
    · intro p v hv
      show pair regs p = v
      rw [hregs]
      -- the three pairs were just written, the others have what they had
      cases p <;> first | exact Option.some.inj hv | skip
      · exact h .iodir v hv
      · exact h .iocon v hv
      · cases hv
      · cases hv
      · obtain rfl : (configureInterrupt pin mode trig s.data).gpio = v := Option.some.inj hv
        rw [configureInterrupt_gpio]
        exact h .gpio _ rfl
    · simp [Sim.device, hregs]
  · rw [if_pos hok, if_pos hok]
    exact ⟨s, rfl, h, rfl⟩

theorem Sim.interruptWork_eq (s : Sim) : s.interruptWork =
    some (⟨0, interruptWorkHandler (some (pair s.regs .intf)) (some (pair s.regs .intcap)) s.data⟩,
      s) := by
  unfold Sim.interruptWork interruptWorkHandler
  rw [readU16Reg_pair]
  by_cases hintf : pair s.regs .intf = 0
  · simp [hintf]
  · simp only [Option.bind_eq_bind, Option.bind_some, if_neg hintf, readU16Reg_pair]

theorem Sim.bench_eq (h : s.Mirrors) (intf intcap : Reg) :
    ∃ s', s.run (.bench intf intcap) = some (⟨0, 0⟩, s') ∧ s'.Mirrors ∧
      s'.device = ⟨s.data, intf, intcap⟩ := by
  obtain ⟨r₁, hintf, h₁⟩ := emulSetU16Reg_pair s.regs .intf intf
  obtain ⟨r₂, hintcap, h₂⟩ := emulSetU16Reg_pair r₁ .intcap intcap
  refine ⟨⟨s.data, r₂⟩, ?_, ?_, ?_⟩
  · simp [Sim.run, hintf, hintcap]
  · intro p v hv
    show pair r₂ p = v
    rw [h₂, h₁]
    cases p <;> first | exact h _ v hv | cases hv
  · simp [Sim.device, h₂, h₁]

/-- **The refinement.** Every operation on the emulator has a result, the
one it has on the device, and leaves the device it leads to. -/
theorem Sim.run_eq (h : s.Mirrors) (e : SimOp) :
    ∃ s', s.run e = some ((s.device.run e).1, s') ∧ s'.Mirrors ∧
      s'.device = (s.device.run e).2 := by
  cases e with
  | configure pin flags => exact s.drive_eq h (e := .configure pin flags) (fun _ => nofun)
  | setMasked mask value => exact s.drive_eq h (e := .setMasked mask value) (fun _ => nofun)
  | setBits mask => exact s.drive_eq h (e := .setBits mask) (fun _ => nofun)
  | clearBits mask => exact s.drive_eq h (e := .clearBits mask) (fun _ => nofun)
  | get => exact ⟨s, s.portGet_eq h, h, rfl⟩
  | interruptConfigure pin mode trig =>
    obtain ⟨s', hrun, hmirrors, hdevice⟩ := s.interruptConfigure_eq h pin mode trig
    refine ⟨s', hrun.trans (congrArg (fun ret => some (SimAnswer.mk ret 0, s')) ?_), hmirrors,
      hdevice⟩
    exact (pinInterruptConfigure_fst allWritten pin mode trig s.data ⟨0, 0, 0⟩).symm
  | interruptWork => exact ⟨s, s.interruptWork_eq, h, rfl⟩
  | bench intf intcap => exact s.bench_eq h intf intcap

/-- The level an operation commands for an output. -/
def SimOp.commands : SimOp → Fin 6 → Option Bool
  | .configure pin flags => (PortEvent.configure pin flags).commands
  | .setMasked mask value => (PortEvent.setMasked mask value).commands
  | .setBits mask => (PortEvent.setBits mask).commands
  | .clearBits mask => (PortEvent.clearBits mask).commands
  | _ => fun _ => none

/-- What an operation does to the cache of an output. -/
theorem Device.getLsbD_run (d : Device) (e : SimOp) (i : Fin 6) :
    (d.run e).2.data.gpio.getLsbD (2 + i) = (e.commands i).getD (d.data.gpio.getLsbD (2 + i)) := by
  cases e with
  | configure pin flags => exact PortEvent.getLsbD_run (.configure pin flags) d.data i
  | setMasked mask value => exact PortEvent.getLsbD_run (.setMasked mask value) d.data i
  | setBits mask => exact PortEvent.getLsbD_run (.setBits mask) d.data i
  | clearBits mask => exact PortEvent.getLsbD_run (.clearBits mask) d.data i
  | interruptConfigure pin mode trig =>
    exact congrArg (BitVec.getLsbD · (2 + i)) (pinInterruptConfigure_gpio allWritten pin mode trig _ _)
  | _ => rfl

end Refinement

/-! ## Every run -/

section Runs

variable {past : List (Sim × SimOp)} {s : Sim}

theorem mirrors_of_reachable (h : emulated.Reachable s) : s.Mirrors := by
  refine h.invariant (fun s ⟨hdata, env, hinit⟩ => mirrors_init hdata hinit) ?_
  rintro s e s' hs ⟨answer, hrun⟩
  obtain ⟨t, ht, hmirrors, -⟩ := s.run_eq hs e
  rw [ht] at hrun
  cases hrun
  exact hmirrors

/-- The cache of an output is what was last commanded for it. -/
theorem getLsbD_cached (h : emulated.Run past s) (i : Fin 6) :
    s.data.gpio.getLsbD (2 + i) = latest (fun x => x.2.commands) (fun _ => false) past i := by
  refine h.eq_latest (fun s (i : Fin 6) => s.data.gpio.getLsbD (2 + i)) (fun s hinit i => ?_)
    (fun s e s' hreach hstep i => ?_) i
  · rw [hinit.1]
    exact BitVec.getLsbD_zero
  · obtain ⟨answer, hstep⟩ := hstep
    obtain ⟨t, ht, -, hdevice⟩ := s.run_eq (mirrors_of_reachable hreach) e
    rw [ht] at hstep
    cases hstep
    exact (congrArg (fun d : Device => d.data.gpio.getLsbD (2 + i)) hdevice).trans
      (Device.getLsbD_run s.device e i)

/-- **The driver on the emulator.** In every run of operations, interrupts
and tests after the initialisation, every operation has a result: no
access leaves the registers and no transfer is refused, and the result is
that of the driver whose reads of the GPIO register give its own cache.
The registers hold what is cached, and every output reads as it was last
commanded. -/
theorem emulated_run (h : emulated.Run past s) :
    (∀ e, ∃ s', s.run e = some ((s.device.run e).1, s') ∧ s'.device = (s.device.run e).2) ∧
      (∀ p value, s.data.mirror p = some value → pair s.regs p = value) ∧
      ∀ answer s', s.run .get = some (answer, s') → answer.ret = 0 ∧
        ∀ i : Fin 6, answer.pins.getLsbD (8 + i) =
          latest (fun x => x.2.commands) (fun _ => false) past i := by
  have hmirrors := mirrors_of_reachable h.reachable
  refine ⟨fun e => ?_, hmirrors, ?_⟩
  · obtain ⟨s', hrun, -, hdevice⟩ := s.run_eq hmirrors e
    exact ⟨s', hrun, hdevice⟩
  · intro answer s' hget
    rw [Sim.run, s.portGet_eq hmirrors] at hget
    cases hget
    refine ⟨rfl, fun i => ?_⟩
    have houtput : ∀ i : Fin 6, hardInvertPins.getLsbD (2 + i) = false := by decide
    rw [← getLsbD_cached h i, getLsbD_gpioBitsToZephyrBits, if_neg (by omega), if_pos (by omega),
      show 8 + (i : ℕ) - 6 = 2 + i by omega, BitVec.getLsbD_xor, houtput, Bool.xor_false]

/-- Output 0 is switched on, and reads so. -/
theorem emulated_run_on : ∃ (s s' : Sim) (answer : SimAnswer),
    s.run .get = some (answer, s') ∧ answer.pins.getLsbD 8 = true := by
  obtain ⟨s₀, hstart⟩ : ∃ s, emulated.init s :=
    ⟨⟨Data.zero, _⟩, rfl, ⟨true, [], 0, 0, 0⟩, rfl⟩
  obtain ⟨s₁, hset, -⟩ := s₀.run_eq (mirrors_of_reachable (.init hstart)) (.setBits 0x100)
  have hrun : emulated.Run [(s₀, .setBits 0x100)] s₁ := (Machine.Run.init hstart).step ⟨_, hset⟩
  obtain ⟨hresult, -, hget⟩ := emulated_run hrun
  obtain ⟨s', hs', -⟩ := hresult .get
  refine ⟨_, s', _, hs', ?_⟩
  exact ((hget _ _ hs').2 0).trans rfl

end Runs

end PowerIo

end Ardep
