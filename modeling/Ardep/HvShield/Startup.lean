import Ardep.HvShield.Registers
/-!
# The high-voltage shield — from power-on to its first outputs

The shift registers hold anything at power-on, and their outputs drive
nothing until the output enable pin is set. So `hv_shield_init` clears
them before it sets the pin, and the DAC driver then sets the gains of the
devicetree, one transfer each. Any of these calls may fail, and the
application goes on all the same.

The chip select of the bus is the latch clock of the registers: a transfer
that ends early shows them shifted, and pins may drive that nobody asked
for, until the next one that comes through.

`startup_safe` is what the order is good for. Where the last transfer came
through, no pin drives high voltage unless a call made it an output,
whatever failed before; and what a step that returns 0 asked for is what
the shift registers have.
-/

namespace Ardep

namespace HvShield

open Uds

/-- `ENOTSUP`. -/
abbrev ENOTSUP : ℤ := 134

/-- A call to the driver of the output enable pin: what it returns, and
whether it did what it was asked for. One that returns 0 did. -/
structure Attempt where
  ret : ℤ
  done : Bool
  done_of_ok : ret = 0 → done = true

/-- What `spi_write_dt` returns, and what the shift registers show where it
fails: any bits, since it may stop anywhere. -/
structure Transfer where
  ret : ℤ
  cutOff : ℕ → Bool

/-- **The shield**: whether its outputs are enabled, the bits its shift
registers show, whether the last transfer to them failed, and the driver's
registers. -/
structure Board where
  outputEnabled : Bool
  latched : ℕ → Bool
  torn : Bool
  registers : Registers

/-- What a call of the driver leaves: its registers, and the frame it sent,
or what there is of it where the transfer failed. -/
def Board.after (b : Board) (cutOff : ℕ → Bool) (out : ℤ × Option (List (BitVec 8)) × Registers) :
    Board :=
  match out.2.1 with
  | none => { b with registers := out.2.2 }
  | some frame =>
    { b with
      latched := if out.1 = 0 then frameBit frame else cutOff
      torn := out.1 ≠ 0
      registers := out.2.2 }

/-- `hv_shield_init`, with what `gpio_pin_configure_dt`, the transfer and
`gpio_pin_set_dt` do. -/
def hvShieldInit (configure : Attempt) (spi : Transfer) (set : Attempt) (b : Board) : ℤ × Board :=
  let b := { b with outputEnabled := b.outputEnabled && !configure.done }
  if configure.ret ≠ 0 then (configure.ret, b)
  else
    let b := b.after spi.cutOff (spi.ret, some (hvShieldUpdate Registers.zero), Registers.zero)
    if spi.ret ≠ 0 then (spi.ret, b)
    else (set.ret, { b with outputEnabled := set.done })

/-! ## The DAC driver -/

/-- `struct hv_shield_dac_config_t`, less the mapping. -/
structure DacConfig where
  channelCount : ℕ
  gains : ℕ → UInt8

/-- `hvs_dac_convert_gain`. -/
def hvsDacConvertGain (rawGain : UInt8) : Option DacGain :=
  if rawGain = 1 then some .gain1
  else if rawGain = 2 then some .gain2
  else if rawGain = 4 then some .gain4
  else if rawGain = 8 then some .gain8
  else if rawGain = 16 then some .gain16
  else none

/-- The loop of `hv_shield_dac_init`, with the transfer of each channel. -/
def dacInitFrom (D : DacConfig) (spi : ℕ → Transfer) : ℕ → ℕ → Board → ℤ × Board
  | 0, _, b => (0, b)
  | left + 1, i, b =>
    match hvsDacConvertGain (D.gains i) with
    | none => (-ENOTSUP, b)
    | some gain =>
      let out := hvsSetDacGain (spi i).ret (UInt8.ofNat i) gain b.registers
      let b := b.after (spi i).cutOff out
      if out.1 ≠ 0 then (out.1, b) else dacInitFrom D spi left (i + 1) b

/-- `hv_shield_dac_init`. -/
def hvShieldDacInit (D : DacConfig) (spi : ℕ → Transfer) (b : Board) : ℤ × Board :=
  dacInitFrom D spi D.channelCount 0 b

/-! ## Runs -/

/-- The initialisation of either driver, and a call with what its transfer
does. -/
inductive StartupEvent where
  | init (configure : Attempt) (spi : Transfer) (set : Attempt)
  | dacInit (D : DacConfig) (spi : ℕ → Transfer)
  | setGpioOutputEnable (index : Fin 32) (enable : Bool) (spi : Transfer)
  | setDacGain (channel : Fin 2) (gain : DacGain) (spi : Transfer)

/-- What an event returns, and the shield after it. -/
def StartupEvent.run (b : Board) : StartupEvent → ℤ × Board
  | .init configure spi set => hvShieldInit configure spi set b
  | .dacInit D spi => hvShieldDacInit D spi b
  | .setGpioOutputEnable index enable spi =>
    let out := (Call.setGpioOutputEnable index enable spi.ret).run b.registers
    (out.1, b.after spi.cutOff out)
  | .setDacGain channel gain spi =>
    let out := (Call.setDacGain channel gain spi.ret).run b.registers
    (out.1, b.after spi.cutOff out)

/-- **The shield from power-on**: its outputs are not enabled, its shift
registers have any bits. -/
def startup : Machine Board StartupEvent where
  init b := b.outputEnabled = false ∧ b.registers = Registers.zero
  Step b e b' := b' = (e.run b).2

/-- A pin drives high voltage. -/
def Board.Drives (b : Board) (index : Fin 32) : Prop :=
  b.outputEnabled = true ∧ ∀ k, b.latched ((Target.pin index).position k) = true

/-- The call asks for an output. -/
def StartupEvent.Enables (index : Fin 32) : StartupEvent → Prop
  | .setGpioOutputEnable index' enable _ => index' = index ∧ enable = true
  | _ => False

/-- The shift registers were cleared of it, and the caller was told so. -/
def StartupEvent.Clears (index : Fin 32) : StartupEvent → Prop
  | .init configure spi _ => configure.ret = 0 ∧ spi.ret = 0
  | .setGpioOutputEnable index' enable spi => index' = index ∧ enable = false ∧ spi.ret = 0
  | _ => False

/-- **Enabled since**: a call asked for the output, and nothing has cleared
it. -/
def EnabledSince (past : List (Board × StartupEvent)) (index : Fin 32) : Prop :=
  ∃ pre t e post, past = pre ++ (t, e) :: post ∧ e.Enables index ∧ ∀ x ∈ post, ¬ x.2.Clears index

/-- **What was asked for is what the shift registers have.** -/
def StartupEvent.Shown (b : Board) : StartupEvent → Prop
  | .init .. =>
    b.outputEnabled = true ∧ ∀ (target : Target) k, b.latched (target.position k) = false
  | .dacInit D _ => D.channelCount ≤ 2 ∧ ∀ c : Fin 2, c < D.channelCount →
      ∃ gain, hvsDacConvertGain (D.gains c) = some gain ∧
        ∀ k, b.latched ((Target.dac c).position k) = gain.value.getLsbD k
  | .setGpioOutputEnable index enable _ =>
    ∀ k, b.latched ((Target.pin index).position k) = enable
  | .setDacGain channel gain _ =>
    ∀ k, b.latched ((Target.dac channel).position k) = gain.value.getLsbD k

/-! ## The shift registers after a call -/

section Step

variable {b : Board} {cutOff : ℕ → Bool}

@[simp] theorem Board.after_outputEnabled (out : ℤ × Option (List (BitVec 8)) × Registers) :
    (b.after cutOff out).outputEnabled = b.outputEnabled := by
  unfold Board.after
  split <;> rfl

@[simp] theorem Board.after_registers (out : ℤ × Option (List (BitVec 8)) × Registers) :
    (b.after cutOff out).registers = out.2.2 := by
  unfold Board.after
  split <;> rfl

/-- A call sends a frame: the registers, unless the transfer fails. -/
theorem after_run (call : Call) :
    b.after cutOff (call.run b.registers) =
      { b with
        latched := if call.spiWrite = 0 then frameBit (hvShieldUpdate (call.run b.registers).2.2)
          else cutOff
        torn := call.spiWrite ≠ 0
        registers := (call.run b.registers).2.2 } := by
  rw [call.run_eq]
  rfl

/-- A transfer that came through shows the registers. -/
theorem latched_after {call : Call} (hok : call.spiWrite = 0) (target : Target) (k : Fin 4) :
    (b.after cutOff (call.run b.registers)).latched (target.position k) =
      stored (call.run b.registers).2.2 target k := by
  rw [after_run, if_pos hok]
  exact frameBit_hvShieldUpdate _ (position_lt target k)

theorem stored_zero (target : Target) (k : Fin 4) : stored Registers.zero target k = false :=
  BitVec.getLsbD_zero

/-- The outputs that the registers ask for, or that a whole frame shows, are
among some. -/
structure Covered (b : Board) (on : Fin 32 → Prop) : Prop where
  registers : ∀ index, (∀ k, stored b.registers (.pin index) k = true) → on index
  drives : b.torn = false → ∀ index, b.Drives index → on index

/-- **A call**, for the outputs it leaves. -/
theorem Covered.run {on' : Fin 32 → Prop} {call : Call}
    (hregisters : ∀ index, (∀ k, stored (call.run b.registers).2.2 (.pin index) k = true) →
      on' index) :
    Covered (b.after cutOff (call.run b.registers)) on' := by
  refine ⟨?_, fun htorn index hdrives => ?_⟩
  · rw [Board.after_registers]
    exact hregisters
  · have hok : call.spiWrite = 0 := by
      rw [after_run] at htorn
      simpa using htorn
    refine hregisters index fun k => ?_
    rw [← latched_after hok]
    exact hdrives.2 k

/-- A gain leaves the outputs. -/
theorem Covered.setDacGain {on : Fin 32 → Prop} (h : Covered b on) (channel : Fin 2)
    (gain : DacGain) (spiWrite : ℤ) (cutOff : ℕ → Bool) :
    Covered (b.after cutOff ((Call.setDacGain channel gain spiWrite).run b.registers)) on := by
  refine Covered.run fun index hstored => ?_
  simp only [stored_run] at hstored
  exact h.registers index hstored

end Step

/-! ## The DAC driver's loop -/

section DacInit

variable {D : DacConfig} {spi : ℕ → Transfer}

/-- A round of the loop for one of the two channels. -/
theorem dacInitFrom_lt {left i : ℕ} {b : Board} (hlt : i < 2) :
    dacInitFrom D spi (left + 1) i b =
      match hvsDacConvertGain (D.gains i) with
      | none => (-ENOTSUP, b)
      | some gain =>
        let b := b.after (spi i).cutOff
          ((Call.setDacGain ⟨i, hlt⟩ gain (spi i).ret).run b.registers)
        if (spi i).ret ≠ 0 then ((spi i).ret, b) else dacInitFrom D spi left (i + 1) b := by
  rw [dacInitFrom]
  cases hvsDacConvertGain (D.gains i) with
  | none => rfl
  | some gain =>
    have hout : hvsSetDacGain (spi i).ret (UInt8.ofNat i) gain b.registers =
        (Call.setDacGain ⟨i, hlt⟩ gain (spi i).ret).run b.registers := rfl
    have hret : ((Call.setDacGain ⟨i, hlt⟩ gain (spi i).ret).run b.registers).1 = (spi i).ret :=
      congrArg Prod.fst (Call.run_eq _ _)
    simp only [hout, hret]

/-- A third is refused, with nothing sent. -/
theorem dacInitFrom_two (left : ℕ) (b : Board) :
    (dacInitFrom D spi (left + 1) 2 b).1 ≠ 0 ∧ (dacInitFrom D spi (left + 1) 2 b).2 = b := by
  have hneg : (-ENOTSUP : ℤ) ≠ 0 ∧ (-EINVAL : ℤ) ≠ 0 := by decide
  rw [dacInitFrom]
  cases hvsDacConvertGain (D.gains 2) with
  | none => exact ⟨hneg.1, rfl⟩
  | some gain =>
    have hrefused : hvsSetDacGain (spi 2).ret (UInt8.ofNat 2) gain b.registers =
        (-EINVAL, none, b.registers) := if_pos (by decide)
    simp only [hrefused]
    rw [if_pos hneg.2]
    exact ⟨hneg.2, rfl⟩

/-- **The loop keeps the outputs**, wherever it stops. -/
theorem Covered.dacInitFrom {on : Fin 32 → Prop} : ∀ {left i : ℕ} {b : Board}, i ≤ 2 →
    Covered b on → Covered (dacInitFrom D spi left i b).2 on
  | 0, _, _, _, h => h
  | left + 1, i, b, hi, h => by
    rcases Nat.lt_or_eq_of_le hi with hlt | rfl
    · rw [dacInitFrom_lt hlt]
      cases hvsDacConvertGain (D.gains i) with
      | none => exact h
      | some gain =>
        have hcall := h.setDacGain ⟨i, hlt⟩ gain (spi i).ret (spi i).cutOff
        simp only
        split_ifs
        · exact hcall
        · exact dacInitFrom (by omega) hcall
    · rw [(dacInitFrom_two left b).2]
      exact h

theorem dacInitFrom_outputEnabled : ∀ {left i : ℕ} {b : Board},
    (dacInitFrom D spi left i b).2.outputEnabled = b.outputEnabled
  | 0, _, _ => rfl
  | left + 1, i, b => by
    rw [dacInitFrom]
    cases hvsDacConvertGain (D.gains i) with
    | none => rfl
    | some gain =>
      simp only
      split_ifs
      · exact Board.after_outputEnabled _
      · exact dacInitFrom_outputEnabled.trans (Board.after_outputEnabled _)

/-- The gains of the first `i` channels are set, and shown. -/
def GainsSet (D : DacConfig) (i : ℕ) (b : Board) : Prop :=
  ∀ c : Fin 2, c < i → ∃ gain, hvsDacConvertGain (D.gains c) = some gain ∧
    (∀ k, stored b.registers (.dac c) k = gain.value.getLsbD k) ∧
    ∀ k, b.latched ((Target.dac c).position k) = gain.value.getLsbD k

/-- **A round of the loop** sets one more. -/
theorem GainsSet.round {i : ℕ} {b : Board} {gain : DacGain} (h : GainsSet D i b) (hlt : i < 2)
    (hgain : hvsDacConvertGain (D.gains i) = some gain) {spiWrite : ℤ} (hok : spiWrite = 0)
    (cutOff : ℕ → Bool) :
    GainsSet D (i + 1)
      (b.after cutOff ((Call.setDacGain ⟨i, hlt⟩ gain spiWrite).run b.registers)) := by
  intro c hc
  have hshown : ∀ k, (b.after cutOff ((Call.setDacGain ⟨i, hlt⟩ gain spiWrite).run
        b.registers)).latched ((Target.dac c).position k) =
      stored ((Call.setDacGain ⟨i, hlt⟩ gain spiWrite).run b.registers).2.2 (.dac c) k :=
    fun k => @latched_after _ _ (.setDacGain ⟨i, hlt⟩ gain spiWrite) hok (.dac c) k
  simp only [hshown, Board.after_registers, and_self, stored_run]
  by_cases hci : c = ⟨i, hlt⟩
  · subst hci
    exact ⟨gain, hgain, fun k => by simp [Call.gives]⟩
  · have hlow : (c : ℕ) < i := by
      have hne : (c : ℕ) ≠ i := fun heq => hci (Fin.ext heq)
      omega
    obtain ⟨gain', hgain', hstored, -⟩ := h c hlow
    refine ⟨gain', hgain', fun k => ?_⟩
    have hnone : (Call.setDacGain ⟨i, hlt⟩ gain spiWrite).gives (.dac c) = none :=
      if_neg fun heq => hci (Target.dac.inj heq).symm
    rw [hnone]
    exact hstored k

/-- **A loop that returns 0** has set them all, and they are no more than
two. -/
theorem dacInitFrom_eq_zero : ∀ {left i : ℕ} {b : Board}, i ≤ 2 → GainsSet D i b →
    (dacInitFrom D spi left i b).1 = 0 →
    i + left ≤ 2 ∧ GainsSet D (i + left) (dacInitFrom D spi left i b).2
  | 0, _, _, hi, h, _ => ⟨hi, h⟩
  | left + 1, i, b, hi, h, hret => by
    rcases Nat.lt_or_eq_of_le hi with hlt | rfl
    · rw [dacInitFrom_lt hlt] at hret ⊢
      cases hgain : hvsDacConvertGain (D.gains i) with
      | none =>
        have hneg : (-ENOTSUP : ℤ) ≠ 0 := by decide
        rw [hgain] at hret
        exact absurd hret hneg
      | some gain =>
        simp only [hgain] at hret ⊢
        by_cases hok : (spi i).ret = 0
        · have hone := h.round hlt hgain hok (spi i).cutOff
          rw [if_neg (not_not.mpr hok)] at hret ⊢
          obtain ⟨hle, hset⟩ := dacInitFrom_eq_zero (by omega) hone hret
          rw [Nat.add_right_comm] at hle hset
          exact ⟨hle, hset⟩
        · rw [if_pos hok] at hret
          exact absurd hret hok
    · exact absurd hret (dacInitFrom_two left b).1

end DacInit

/-! ## One event -/

section Events

variable {past : List (Board × StartupEvent)} {b : Board} {e : StartupEvent}

/-- An event that asks for the output. -/
theorem EnabledSince.of_enables {index : Fin 32} (h : e.Enables index) :
    EnabledSince (past ++ [(b, e)]) index :=
  ⟨past, b, e, [], rfl, h, fun _ hx => absurd hx List.not_mem_nil⟩

/-- One that does not clear it. -/
theorem EnabledSince.keep {index : Fin 32} (h : EnabledSince past index)
    (hkeep : ¬ e.Clears index) : EnabledSince (past ++ [(b, e)]) index := by
  obtain ⟨pre, t, e', post, rfl, henables, hpost⟩ := h
  refine ⟨pre, t, e', post ++ [(b, e)], by rw [List.append_assoc, List.cons_append], henables,
    fun x hx => ?_⟩
  rcases List.mem_append.mp hx with hx | hx
  · exact hpost x hx
  · rw [List.mem_singleton.mp hx]
    exact hkeep

/-- The initialisation shows the cleared registers before it enables the
outputs. -/
theorem hvShieldInit_cases (configure : Attempt) (spi : Transfer) (set : Attempt) (b : Board) :
    (configure.ret ≠ 0 ∧ (hvShieldInit configure spi set b).1 = configure.ret ∧
        (hvShieldInit configure spi set b).2 =
          { b with outputEnabled := b.outputEnabled && !configure.done }) ∨
      (configure.ret = 0 ∧ (hvShieldInit configure spi set b).2.registers = Registers.zero ∧
        (spi.ret ≠ 0 ∧ (hvShieldInit configure spi set b).1 = spi.ret ∧
            (hvShieldInit configure spi set b).2.outputEnabled = false ∨
          spi.ret = 0 ∧ (hvShieldInit configure spi set b).1 = set.ret ∧
            (hvShieldInit configure spi set b).2.outputEnabled = set.done ∧
            ∀ (target : Target) k,
              (hvShieldInit configure spi set b).2.latched (target.position k) = false)) := by
  unfold hvShieldInit
  by_cases hconfigure : configure.ret = 0
  · right
    have hdone := configure.done_of_ok hconfigure
    by_cases hspi : spi.ret = 0
    · refine ⟨hconfigure, ?_, .inr ⟨hspi, ?_⟩⟩
      · simp [hconfigure, hspi]
      · simp only [hconfigure, hspi, ne_eq, not_true_eq_false, if_false, true_and, Board.after,
          if_true]
        intro target k
        rw [frameBit_hvShieldUpdate _ (position_lt target k)]
        exact stored_zero target k
    · refine ⟨hconfigure, ?_, .inl ⟨hspi, ?_⟩⟩
      · simp [hconfigure, hspi]
      · simp [hconfigure, hspi, hdone]
  · exact .inl ⟨hconfigure, by simp [hconfigure], by simp [hconfigure]⟩

/-- **An event leaves the outputs covered** by the calls that asked for
them. -/
theorem covered_step (h : Covered b (EnabledSince past)) (e : StartupEvent) :
    Covered (e.run b).2 (EnabledSince (past ++ [(b, e)])) := by
  cases e with
  | init configure spi set =>
    rcases hvShieldInit_cases configure spi set b with ⟨hfailed, -, hleft⟩ | ⟨-, hzero, hrest⟩
    · -- nothing was sent
      have hkeep : ∀ index, ¬ (StartupEvent.init configure spi set).Clears index :=
        fun _ hclears => hfailed hclears.1
      show Covered (hvShieldInit configure spi set b).2 _
      rw [hleft]
      refine ⟨fun index hstored => (h.registers index hstored).keep (hkeep index),
        fun htorn index hdrives => (h.drives htorn index ⟨?_, hdrives.2⟩).keep (hkeep index)⟩
      exact (Bool.and_eq_true_iff.mp hdrives.1).1
    · refine ⟨fun index hstored => ?_, fun _ index hdrives => ?_⟩
      · have hbit : stored (hvShieldInit configure spi set b).2.registers (.pin index) 0 = true :=
          hstored 0
        rw [hzero, stored_zero] at hbit
        cases hbit
      · obtain ⟨henabled, hlatched⟩ := hdrives
        rcases hrest with ⟨-, -, hoff⟩ | ⟨-, -, -, hclear⟩
        · exact absurd (hoff.symm.trans henabled) Bool.false_ne_true
        · exact absurd ((hclear (.pin index) 0).symm.trans (hlatched 0)) Bool.false_ne_true
  | dacInit D spi =>
    have hafter : Covered (hvShieldDacInit D spi b).2 (EnabledSince past) :=
      h.dacInitFrom (by omega)
    exact ⟨fun index hstored => (hafter.registers index hstored).keep id,
      fun htorn index hdrives => (hafter.drives htorn index hdrives).keep id⟩
  | setGpioOutputEnable index enable spi =>
    refine Covered.run fun other hstored => ?_
    simp only [stored_run] at hstored
    by_cases hother : index = other
    · -- the pin of the call: it asks for what the register has
      have hgives : (Call.setGpioOutputEnable index enable spi.ret).gives (.pin other) =
          some fun _ => enable := if_pos (congrArg Target.pin hother)
      rw [hgives] at hstored
      exact .of_enables ⟨hother, hstored 0⟩
    · have hnone : (Call.setGpioOutputEnable index enable spi.ret).gives (.pin other) = none :=
        if_neg fun heq => hother (Target.pin.inj heq)
      rw [hnone] at hstored
      exact (h.registers other hstored).keep fun hclears => hother hclears.1
  | setDacGain channel gain spi =>
    have hafter := h.setDacGain channel gain spi.ret spi.cutOff
    exact ⟨fun index hstored => (hafter.registers index hstored).keep id,
      fun htorn index hdrives => (hafter.drives htorn index hdrives).keep id⟩

/-- **An event that returns 0** shows what it was asked for. -/
theorem shown_of_run (e : StartupEvent) (hret : (e.run b).1 = 0) : e.Shown (e.run b).2 := by
  cases e with
  | init configure spi set =>
    rcases hvShieldInit_cases configure spi set b with ⟨hfailed, hconfigure, -⟩ | ⟨-, -, hrest⟩
    · exact absurd (hconfigure.symm.trans hret) hfailed
    · rcases hrest with ⟨hspi, hspiRet, -⟩ | ⟨-, hset, henabled, hclear⟩
      · exact absurd (hspiRet.symm.trans hret) hspi
      · exact ⟨henabled.trans (set.done_of_ok (hset.symm.trans hret)), hclear⟩
  | dacInit D spi =>
    have hnone : GainsSet D 0 b := fun c hc => absurd hc (Nat.not_lt_zero c)
    obtain ⟨hle, hset⟩ := dacInitFrom_eq_zero (by omega) hnone hret
    rw [Nat.zero_add] at hle hset
    refine ⟨hle, fun c hc => ?_⟩
    obtain ⟨gain, hgain, -, hlatched⟩ := hset c hc
    exact ⟨gain, hgain, hlatched⟩
  | setGpioOutputEnable index enable spi =>
    have hok : spi.ret = 0 := (congrArg Prod.fst (Call.run_eq _ _)).symm.trans hret
    intro k
    refine (@latched_after _ _ (.setGpioOutputEnable index enable spi.ret) hok
      (.pin index) k).trans ?_
    rw [stored_run]
    simp [Call.gives]
  | setDacGain channel gain spi =>
    have hok : spi.ret = 0 := (congrArg Prod.fst (Call.run_eq _ _)).symm.trans hret
    intro k
    refine (@latched_after _ _ (.setDacGain channel gain spi.ret) hok (.dac channel) k).trans ?_
    rw [stored_run]
    simp [Call.gives]

/-- Only an initialisation that has cleared the shift registers enables the
outputs. -/
theorem cleared_of_run (hon : (e.run b).2.outputEnabled = true) :
    b.outputEnabled = true ∨ ∀ index, e.Clears index := by
  cases e with
  | init configure spi set =>
    rcases hvShieldInit_cases configure spi set b with ⟨-, -, hleft⟩ | ⟨hconfigure, -, hrest⟩
    · have hboth : (b.outputEnabled && !configure.done) = true :=
        (congrArg Board.outputEnabled hleft).symm.trans hon
      exact .inl (Bool.and_eq_true_iff.mp hboth).1
    · rcases hrest with ⟨-, -, hoff⟩ | ⟨hspi, -⟩
      · exact absurd (hoff.symm.trans hon) Bool.false_ne_true
      · exact .inr fun _ => ⟨hconfigure, hspi⟩
  | dacInit D spi => exact .inl (dacInitFrom_outputEnabled.symm.trans hon)
  | _ => exact .inl ((Board.after_outputEnabled _).symm.trans hon)

/-- **Safe from power-on.** Whatever the shift registers held, in every
order of initialisations and calls, any of whose transfers and pin accesses
may fail: unless the last transfer failed, a pin drives high voltage only if
a call made it an output and nothing that cleared it has been successful
since, and after a step that returned 0 the shift registers have what it
was for. The outputs have been enabled only where an initialisation had
sent the cleared registers before. -/
theorem startup_safe (h : startup.Run past b) :
    (b.torn = false → ∀ index, b.Drives index → EnabledSince past index) ∧
      (∀ pre t e, past = pre ++ [(t, e)] → (e.run t).1 = 0 → e.Shown b) ∧
      (b.outputEnabled = true → ∃ x ∈ past, ∀ index, x.2.Clears index) := by
  have hall : Covered b (EnabledSince past) ∧
      (b.outputEnabled = true → ∃ x ∈ past, ∀ index, x.2.Clears index) := by
    refine h.invariant (P := fun past b => Covered b (EnabledSince past) ∧
      (b.outputEnabled = true → ∃ x ∈ past, ∀ index, x.2.Clears index)) ?_ ?_
    · rintro b ⟨hoff, hzero⟩
      refine ⟨⟨fun index hstored => ?_, fun _ index hdrives => ?_⟩, fun hon => ?_⟩
      · have hbit := hstored 0
        rw [hzero, stored_zero] at hbit
        cases hbit
      · exact absurd (hoff.symm.trans hdrives.1) Bool.false_ne_true
      · exact absurd (hoff.symm.trans hon) Bool.false_ne_true
    · rintro past b e b' ⟨hcovered, hcleared⟩ rfl
      refine ⟨covered_step hcovered e, fun hon => ?_⟩
      rcases cleared_of_run hon with hbefore | hclears
      · obtain ⟨x, hx, hclears⟩ := hcleared hbefore
        exact ⟨x, List.mem_append_left _ hx, hclears⟩
      · exact ⟨(b, e), List.mem_append_right _ List.mem_cons_self, hclears⟩
  refine ⟨hall.1.drives, fun pre t e hpast hret => ?_, hall.2⟩
  cases h with
  | init => simp at hpast
  | step hrun hs =>
    obtain ⟨-, hlast⟩ := List.append_inj' hpast rfl
    cases hlast
    obtain rfl : b = (e.run t).2 := hs
    exact shown_of_run e hret

end Events

/-! The shield of the overlay, powered on with every bit set. The transfer
of its first output is cut off with every pin driving; the next one comes
through. -/

def okAttempt : Attempt := ⟨0, true, fun _ => rfl⟩

def okTransfer : Transfer := ⟨0, fun _ => false⟩

def failedTransfer : Transfer := ⟨-5, fun _ => true⟩

def poweredOn : Board := ⟨false, fun _ => true, false, Registers.zero⟩

/-- `gains = <1 1>`. -/
def overlayGains : DacConfig := ⟨2, fun _ => 1⟩

/-- Up to the transfer that is cut off, which is to set an output. -/
def tornBoard (index : Fin 32) : Board :=
  ((StartupEvent.setGpioOutputEnable index true failedTransfer).run
    ((StartupEvent.dacInit overlayGains fun _ => okTransfer).run
      ((StartupEvent.init okAttempt okTransfer okAttempt).run poweredOn).2).2).2

/-- A pin drives that nobody asked for, until the next output is set. -/
theorem startup_safe_poweredOn :
    (tornBoard 0).Drives 1 ∧
      ¬ ((StartupEvent.setGpioOutputEnable 2 true okTransfer).run (tornBoard 0)).2.Drives 1 := by
  have h0 : startup.Run [] poweredOn := .init ⟨rfl, rfl⟩
  have h1 := h0.step (e := .init okAttempt okTransfer okAttempt) rfl
  have h2 := h1.step (e := .dacInit overlayGains fun _ => okTransfer) rfl
  have h3 := h2.step (e := .setGpioOutputEnable 0 true failedTransfer) rfl
  have h4 := h3.step (e := .setGpioOutputEnable 2 true okTransfer) rfl
  refine ⟨⟨rfl, fun _ => rfl⟩, fun hdrives => ?_⟩
  obtain ⟨pre, t, e, post, hpast, henables, -⟩ := (startup_safe h4).1 rfl 1 hdrives
  have hmem := List.mem_append_right pre (List.mem_cons_self (a := (t, e)) (l := post))
  rw [← hpast] at hmem
  simp only [List.nil_append, List.mem_append, List.mem_singleton] at hmem
  rcases hmem with ((heq | heq) | heq) | heq
  · cases heq
    exact henables
  · cases heq
    exact henables
  · cases heq
    exact absurd henables.1 (by decide)
  · cases heq
    exact absurd henables.1 (by decide)

end HvShield

end Ardep
