import Ardep.HvShield.Registers
/-!
# The high-voltage shield — its pins over those of other ports

A pin of the shield is a pin of another GPIO port, given in the devicetree,
and an output driver whose direction is in the shift registers. The port
operations of the shield run over its pins and call the other ports for
each. Setting and clearing go to the raw API of the port, which is about
physical levels. Setting under a mask and reading go to the logical API of
the pin, which inverts a pin recorded as active low.

`rawAlike_iff` says when the two agree: where no input pin is active low,
and no masked output either.
-/

namespace Ardep

namespace HvShield

open Uds

/-- `gpio_port_pins_t` and `gpio_port_value_t`. -/
abbrev PortPins : Type := BitVec 32

/-- `gpio_flags_t`. -/
abbrev GpioFlags : Type := BitVec 32

/-- `GPIO_ACTIVE_LOW`. -/
abbrev gpioActiveLow : GpioFlags := 0x1
/-- `GPIO_INPUT`. -/
abbrev gpioInput : GpioFlags := 0x10000
/-- `GPIO_OUTPUT`. -/
abbrev gpioOutput : GpioFlags := 0x20000

/-! ## The underlying ports -/

/-- **The GPIO API of the underlying ports**, which is not part of the
repository: its calls, and what they are about, the physical level of a
pin, whether the pin is an output that drives it, and the inversion
recorded for a pin that is active low. -/
structure GpioApi (Port S : Type*) where
  pinConfigure : Port → Fin 32 → GpioFlags → S → ℤ × S
  pinGet : Port → Fin 32 → S → ℤ
  pinSet : Port → Fin 32 → Bool → S → ℤ × S
  portSetBitsRaw : Port → PortPins → S → ℤ × S
  portClearBitsRaw : Port → PortPins → S → ℤ × S
  level : S → Port × Fin 32 → Bool
  drives : S → Port × Fin 32 → Bool
  activeLow : S → Port × Fin 32 → Bool

namespace GpioApi

variable {Port S : Type*} (api : GpioApi Port S)

/-- The logical level of a pin. -/
def logical (s : S) (u : Port × Fin 32) : Bool := api.level s u ^^ api.activeLow s u

/-- **Some pins are given a level.** Those that are outputs have it
afterwards; nothing else changes. -/
structure Writes (s s' : S) (put : Port × Fin 32 → Option Bool) : Prop where
  level : ∀ u, api.level s' u = if api.drives s u then (put u).getD (api.level s u) else api.level s u
  drives : api.drives s' = api.drives s
  activeLow : api.activeLow s' = api.activeLow s

/-- **What the driver relies on**, of calls that succeed: the logical API
applies the inversion recorded for a pin, the raw API does not, and
configuring a pin records it. -/
structure Lawful [DecidableEq Port] : Prop where
  pinSet : ∀ port pin value s, 0 ≤ (api.pinSet port pin value s).1 →
    api.Writes s (api.pinSet port pin value s).2 fun u =>
      if u = (port, pin) then some (value ^^ api.activeLow s u) else none
  portSetBitsRaw : ∀ port pins s, 0 ≤ (api.portSetBitsRaw port pins s).1 →
    api.Writes s (api.portSetBitsRaw port pins s).2 fun u =>
      if u.1 = port ∧ pins.getLsbD u.2 then some true else none
  portClearBitsRaw : ∀ port pins s, 0 ≤ (api.portClearBitsRaw port pins s).1 →
    api.Writes s (api.portClearBitsRaw port pins s).2 fun u =>
      if u.1 = port ∧ pins.getLsbD u.2 then some false else none
  pinGet : ∀ port pin s, 0 ≤ api.pinGet port pin s →
    api.pinGet port pin s = if api.logical s (port, pin) then 1 else 0
  pinConfigure : ∀ port pin flags s, (api.pinConfigure port pin flags s).1 = 0 →
    ∀ u, api.activeLow (api.pinConfigure port pin flags s).2 u =
      if u = (port, pin) then decide (flags &&& gpioActiveLow ≠ 0) else api.activeLow s u

end GpioApi

/-! ## The driver -/

/-- `struct gpio_dt_spec`. -/
structure GpioDtSpec (Port : Type*) where
  port : Port
  pin : Fin 32
  dtFlags : GpioFlags

/-- The underlying pin. -/
def GpioDtSpec.place {Port : Type*} (spec : GpioDtSpec Port) : Port × Fin 32 := (spec.port, spec.pin)

/-- `struct hv_shield_gpio_config_t`: there are at most 32 pins. -/
structure GpioConfig (Port : Type*) where
  lvGpios : List (GpioDtSpec Port)
  length_le : lvGpios.length ≤ 32

/-- `struct hv_shield_gpio_data_t`, with the ports and the registers of the
shield that the driver works on. -/
structure GpioData (S : Type*) where
  ports : S
  registers : Registers
  inputMap : PortPins
  outputMap : PortPins

section Driver

variable {Port S : Type*} (api : GpioApi Port S) (config : GpioConfig Port)

/-- `hvs_gpio_pin_configure`, with what the SPI write of the shield
returns. -/
def hvsGpioPinConfigure (spiWrite : ℤ) (pin : UInt8) (flags : GpioFlags) (data : GpioData S) :
    ℤ × GpioData S :=
  match config.lvGpios[pin.toNat]? with
  | none => (-EINVAL, data)
  | some spec =>
    -- `gpio_pin_configure_dt` adds the flags of the devicetree
    let (err, ports) := api.pinConfigure spec.port spec.pin (spec.dtFlags ||| flags) data.ports
    let data := { data with ports := ports }
    if err ≠ 0 then (err, data)
    else
      let (err, _, registers) :=
        hvsSetGpioOutputEnable spiWrite pin (decide (flags &&& gpioOutput ≠ 0)) data.registers
      let data := { data with registers := registers }
      if err ≠ 0 then (err, data)
      else
        let bit : PortPins := BitVec.twoPow 32 pin.toNat
        (0, { data with
          inputMap :=
            if flags &&& gpioInput ≠ 0 then data.inputMap ||| bit else data.inputMap &&& ~~~bit
          outputMap :=
            if flags &&& gpioOutput ≠ 0 then data.outputMap ||| bit else data.outputMap &&& ~~~bit })

/-- A loop over the pins of a mask: `call` for each, up to the first that
returns an error. -/
def runForeachMask (call : GpioDtSpec Port × ℕ → S → ℤ × S) (mask : PortPins) :
    List (GpioDtSpec Port × ℕ) → S → ℤ × S
  | [], s => (0, s)
  | p :: rest, s =>
    if mask.getLsbD p.2 then
      let (ret, s) := call p s
      if ret < 0 then (ret, s) else runForeachMask call mask rest s
    else runForeachMask call mask rest s

/-- `hvs_set_masked_raw`. -/
def hvsSetMaskedRaw (mask value : PortPins) (s : S) : ℤ × S :=
  runForeachMask (fun p => api.pinSet p.1.port p.1.pin (value.getLsbD p.2)) mask
    config.lvGpios.zipIdx s

/-- `_HVS_GPIO_RUN_LL_API_FOREACH_MASK`. -/
def hvsGpioRunLlApiForeachMask (apiFunc : Port → PortPins → S → ℤ × S) (pinMask : PortPins) (s : S) :
    ℤ × S :=
  runForeachMask (fun p => apiFunc p.1.port (BitVec.twoPow 32 p.1.pin)) pinMask
    config.lvGpios.zipIdx s

/-- `hvs_gpio_clear_pins`. -/
def hvsGpioClearPins (pins : PortPins) (s : S) : ℤ × S :=
  hvsGpioRunLlApiForeachMask config api.portClearBitsRaw pins s

/-- `hvs_gpio_set_pins`. -/
def hvsGpioSetPins (pins : PortPins) (s : S) : ℤ × S :=
  hvsGpioRunLlApiForeachMask config api.portSetBitsRaw pins s

/-- The loop of `hvs_gpio_port_get_raw`. -/
def getRawLoop (s : S) (inputMap : PortPins) :
    List (GpioDtSpec Port × ℕ) → PortPins → ℤ × PortPins
  | [], value => (0, value)
  | p :: rest, value =>
    if inputMap.getLsbD p.2 then
      let ret := api.pinGet p.1.port p.1.pin s
      if ret < 0 then (ret, value)
      else getRawLoop s inputMap rest (if ret = 1 then value ||| BitVec.twoPow 32 p.2 else value)
    else getRawLoop s inputMap rest value

/-- `hvs_gpio_port_get_raw`, with what `value` points to, where it points
to something: what it returns, and what is there afterwards. -/
def hvsGpioPortGetRaw (value : Option PortPins) (data : GpioData S) : ℤ × Option PortPins :=
  match value with
  | none => (-EINVAL, none)
  | some _ =>
    -- `*value` is cleared before the loop, and has what was read where that fails
    let (ret, value) := getRawLoop api data.ports data.inputMap config.lvGpios.zipIdx 0
    (ret, some value)

end Driver

/-! ## Logical and raw -/

section Raw

variable {Port S : Type*} [DecidableEq Port] (api : GpioApi Port S) (config : GpioConfig Port)

/-- **Setting under a mask is setting and clearing**, on the physical
levels. -/
def SetsAlike (mask value : PortPins) (s : S) : Prop :=
  let masked := (hvsSetMaskedRaw api config mask value s).2
  let set := (hvsGpioSetPins api config (mask &&& value) s).2
  let cleared := (hvsGpioClearPins api config (mask &&& ~~~value) set).2
  ∀ u, api.level masked u = api.level cleared u

/-- **What is read of an input pin is its physical level.** -/
def ReadsLevels (data : GpioData S) : Prop :=
  ∀ before read, (hvsGpioPortGetRaw api config (some before) data).2 = some read →
    ∀ i spec, config.lvGpios[i]? = some spec → data.inputMap.getLsbD i = true →
      read.getLsbD i = api.level data.ports spec.place

/-- The values that the masked pins of the shield ask of an underlying pin,
in their order. More than one pin of the shield may be over it. -/
def asked (mask value : PortPins) (pins : List (GpioDtSpec Port × ℕ)) (u : Port × Fin 32) :
    List Bool :=
  pins.filterMap fun p =>
    if mask.getLsbD p.2 = true ∧ p.1.place = u then some (value.getLsbD p.2) else none

/-- **No masked output is active low.** If several masked pins are over one
output, it is active low exactly if the last is to be set and another one
cleared. -/
def MaskedActiveHigh (mask value : PortPins) (s : S) : Prop :=
  ∀ u, api.drives s u = true →
    ∀ last, (asked mask value config.lvGpios.zipIdx u).getLast? = some last →
      api.activeLow s u = (last && (asked mask value config.lvGpios.zipIdx u).contains false)

/-- **No input is active low.** -/
def InputsActiveHigh (data : GpioData S) : Prop :=
  ∀ i spec, config.lvGpios[i]? = some spec → data.inputMap.getLsbD i = true →
    api.activeLow data.ports spec.place = false

variable {api config} {s s' s'' : S} {mask value : PortPins} {u : Port × Fin 32}

omit [DecidableEq Port] in
theorem GpioApi.Writes.refl (s : S) : api.Writes s s fun _ => none where
  level _ := (ite_self _).symm
  drives := rfl
  activeLow := rfl

omit [DecidableEq Port] in
/-- What is put last stays. -/
theorem GpioApi.Writes.trans {put put' : Port × Fin 32 → Option Bool} (h : api.Writes s s' put)
    (h' : api.Writes s' s'' put') : api.Writes s s'' fun u => (put' u).or (put u) where
  level u := by
    rw [h'.level, h.level, h.drives]
    cases api.drives s u with
    | false => rfl
    | true => cases put' u <;> rfl
  drives := h'.drives.trans h.drives
  activeLow := h'.activeLow.trans h.activeLow

omit [DecidableEq Port] in
theorem GpioApi.Writes.congr {put put' : Port × Fin 32 → Option Bool} (h : api.Writes s s' put)
    (hput : ∀ u, put u = put' u) : api.Writes s s' put' :=
  funext hput ▸ h

theorem asked_cons (p : GpioDtSpec Port × ℕ) (rest : List (GpioDtSpec Port × ℕ)) :
    asked mask value (p :: rest) u =
      if mask.getLsbD p.2 = true ∧ p.1.place = u then value.getLsbD p.2 :: asked mask value rest u
      else asked mask value rest u := by
  unfold asked
  rw [List.filterMap_cons]
  split_ifs <;> rfl

/-- **A loop over the pins of a mask** leaves in every underlying pin what
the last call for it put there. -/
theorem writes_runForeachMask (level : Bool → Bool → Bool) {call : GpioDtSpec Port × ℕ → S → ℤ × S}
    (hcall : ∀ p s, 0 ≤ (call p s).1 → api.Writes s (call p s).2 fun u =>
      if u = p.1.place then some (level (api.activeLow s u) (value.getLsbD p.2)) else none)
    {pins : List (GpioDtSpec Port × ℕ)} (h : (runForeachMask call mask pins s).1 = 0) :
    api.Writes s (runForeachMask call mask pins s).2 fun u =>
      (asked mask value pins u).getLast?.map (level (api.activeLow s u)) := by
  induction pins generalizing s with
  | nil => exact .refl s
  | cons p rest ih =>
    unfold runForeachMask at h ⊢
    by_cases hmask : mask.getLsbD p.2 = true
    · rw [if_pos hmask] at h ⊢
      dsimp only at h ⊢
      by_cases hret : (call p s).1 < 0
      · rw [if_pos hret] at h
        omega
      · rw [if_neg hret] at h ⊢
        have hfirst := hcall p s (Int.not_lt.mp hret)
        -- what the rest of the loop puts in a pin is put over what this call did
        refine (hfirst.trans (ih h)).congr fun u => ?_
        rw [asked_cons, hfirst.activeLow]
        by_cases hplace : p.1.place = u
        · rw [if_pos hplace.symm, if_pos ⟨hmask, hplace⟩, List.getLast?_cons]
          cases (asked mask value rest u).getLast? <;> rfl
        · rw [if_neg fun heq => hplace heq.symm, if_neg fun hat => hplace hat.2, Option.or_none]
    · rw [if_neg hmask] at h ⊢
      refine (ih h).congr fun u => ?_
      rw [asked_cons, if_neg fun hat => hmask hat.1]

omit [DecidableEq Port] in
/-- The mask of one pin. -/
theorem named_twoPow_iff (spec : GpioDtSpec Port) :
    u.1 = spec.port ∧ (BitVec.twoPow 32 (spec.pin : ℕ)).getLsbD u.2 = true ↔ u = spec.place := by
  have hpin := spec.pin.isLt
  rw [BitVec.getLsbD_twoPow, decide_eq_true hpin, Bool.true_and, decide_eq_true_eq, Prod.ext_iff]
  exact and_congr_right fun _ => Fin.val_inj.trans eq_comm

section Laws

variable (hlaw : api.Lawful)

include hlaw

/-- Setting under a mask inverts what is asked of a pin that is active
low. -/
theorem writes_hvsSetMaskedRaw (h : (hvsSetMaskedRaw api config mask value s).1 = 0) :
    api.Writes s (hvsSetMaskedRaw api config mask value s).2 fun u =>
      (asked mask value config.lvGpios.zipIdx u).getLast?.map (· ^^ api.activeLow s u) := by
  refine writes_runForeachMask (fun low v => v ^^ low) (fun p s hret => ?_) h
  exact hlaw.pinSet p.1.port p.1.pin (value.getLsbD p.2) s hret

theorem writes_hvsGpioSetPins (value : PortPins) {pins : PortPins}
    (h : (hvsGpioSetPins api config pins s).1 = 0) :
    api.Writes s (hvsGpioSetPins api config pins s).2 fun u =>
      (asked pins value config.lvGpios.zipIdx u).getLast?.map fun _ => true := by
  refine writes_runForeachMask (fun _ _ => true) (fun p s hret => ?_) h
  refine (hlaw.portSetBitsRaw p.1.port (BitVec.twoPow 32 p.1.pin) s hret).congr fun u => ?_
  simp only [named_twoPow_iff]

theorem writes_hvsGpioClearPins (value : PortPins) {pins : PortPins}
    (h : (hvsGpioClearPins api config pins s).1 = 0) :
    api.Writes s (hvsGpioClearPins api config pins s).2 fun u =>
      (asked pins value config.lvGpios.zipIdx u).getLast?.map fun _ => false := by
  refine writes_runForeachMask (fun _ _ => false) (fun p s hret => ?_) h
  refine (hlaw.portClearBitsRaw p.1.port (BitVec.twoPow 32 p.1.pin) s hret).congr fun u => ?_
  simp only [named_twoPow_iff]

end Laws

/-- Where the mask takes the pins of one value, what is asked is filtered
by it. -/
theorem asked_filter {mask' : PortPins} (b : Bool)
    (hmask : ∀ i, mask'.getLsbD i = true ↔ mask.getLsbD i = true ∧ value.getLsbD i = b)
    (pins : List (GpioDtSpec Port × ℕ)) :
    asked mask' value pins u = (asked mask value pins u).filter (· == b) := by
  induction pins with
  | nil => rfl
  | cons p rest ih =>
    rw [asked_cons, asked_cons, ih]
    by_cases hat : mask.getLsbD p.2 = true ∧ p.1.place = u
    · rw [if_pos hat, List.filter_cons]
      by_cases hb : value.getLsbD p.2 = b
      · rw [if_pos ⟨(hmask p.2).mpr ⟨hat.1, hb⟩, hat.2⟩, if_pos (beq_iff_eq.mpr hb)]
      · rw [if_neg fun h => hb ((hmask p.2).mp h.1).2, if_neg fun h => hb (beq_iff_eq.mp h)]
    · rw [if_neg hat, if_neg fun h => hat ⟨((hmask p.2).mp h.1).1, h.2⟩]

/-! ## One pin of the shield over each underlying pin -/

/-- A pin has its value alone, where no two are over one. -/
theorem asked_of_nodup {pins : List (GpioDtSpec Port × ℕ)}
    (hnodup : (pins.map fun p => p.1.place).Nodup) {p : GpioDtSpec Port × ℕ} (hp : p ∈ pins)
    (hmask : mask.getLsbD p.2 = true) : asked mask value pins p.1.place = [value.getLsbD p.2] := by
  induction pins with
  | nil => cases hp
  | cons q rest ih =>
    rw [List.map_cons, List.nodup_cons] at hnodup
    rw [asked_cons]
    rcases List.mem_cons.mp hp with rfl | hp
    · have hrest : asked mask value rest p.1.place = [] := by
        refine List.filterMap_eq_nil_iff.mpr fun q hq => if_neg ?_
        rintro ⟨-, hplace⟩
        exact hnodup.1 (hplace ▸ List.mem_map_of_mem hq)
      rw [if_pos ⟨hmask, rfl⟩, hrest]
    · have hplace : q.1.place ≠ p.1.place := fun heq =>
        hnodup.1 (heq ▸ List.mem_map_of_mem hp)
      rw [if_neg fun hat => hplace hat.2]
      exact ih hnodup.2 hp

/-- **The condition on the masked pins**, where no two are over one: those
that are outputs are not active low. -/
theorem maskedActiveHigh_iff_of_nodup (hnodup : (config.lvGpios.map GpioDtSpec.place).Nodup) :
    MaskedActiveHigh api config mask value s ↔
      ∀ i spec, config.lvGpios[i]? = some spec → mask.getLsbD i = true →
        api.drives s spec.place = true → api.activeLow s spec.place = false := by
  have hpins : (config.lvGpios.zipIdx.map fun p => p.1.place).Nodup := by
    have hmap : config.lvGpios.zipIdx.map (fun p => p.1.place) =
        (config.lvGpios.zipIdx.map Prod.fst).map GpioDtSpec.place := by
      rw [List.map_map]
      rfl
    rw [hmap, List.zipIdx_map_fst]
    exact hnodup
  have hone : ∀ v : Bool, (v && [v].contains false) = false := by decide
  constructor
  · intro h i spec hspec hmask hdrives
    have hasked : asked mask value config.lvGpios.zipIdx spec.place = [value.getLsbD i] :=
      asked_of_nodup (p := (spec, i)) hpins (List.mem_zipIdx_iff_getElem?.mpr hspec) hmask
    have hlow := h spec.place hdrives (value.getLsbD i) (by rw [hasked]; rfl)
    rw [hlow, hasked, hone]
  · intro h u hdrives last hlast
    obtain ⟨p, hp, hat⟩ := List.mem_filterMap.mp (List.mem_of_getLast? hlast)
    split_ifs at hat with hplace
    obtain ⟨hmask, rfl⟩ := hplace
    -- the one value asked is the last, so no other clears the pin
    obtain rfl := Option.some.inj hat
    rw [asked_of_nodup hpins hp hmask, hone]
    exact h p.2 p.1 (List.mem_zipIdx_iff_getElem?.mp hp) hmask hdrives

/-! ## All pins -/

/-- **One underlying pin**: the value asked last, inverted if it is active
low, against a pin cleared if any value asked is 0. -/
theorem put_eq_iff {values : List Bool} {last : Bool} (hlast : values.getLast? = some last)
    (low before : Bool) :
    (values.getLast?.map (· ^^ low)).getD before =
        (((values.filter (· == false)).getLast?.map fun _ => false).or
          ((values.filter (· == true)).getLast?.map fun _ => true)).getD before ↔
      low = (last && values.contains false) := by
  have hany : ∀ b, b ∈ values → (values.filter (· == b)).getLast?.map (fun _ => b) = some b := by
    intro b hb
    have hne : values.filter (· == b) ≠ [] :=
      List.ne_nil_of_mem (List.mem_filter.mpr ⟨hb, beq_self_eq_true b⟩)
    rw [List.getLast?_eq_some_getLast hne, Option.map_some]
  have hmem : last ∈ values := List.mem_of_getLast? hlast
  rw [hlast, Option.map_some, Option.getD_some]
  by_cases hzero : false ∈ values
  · -- clearing comes second, so one 0 decides
    rw [hany false hzero, Option.some_or, Option.getD_some, List.contains_iff_mem.mpr hzero]
    cases last <;> cases low <;> decide
  · have hcontains : values.contains false = false :=
      Bool.eq_false_iff.mpr fun h => hzero (List.contains_iff_mem.mp h)
    have hnone : values.filter (· == false) = [] :=
      List.filter_eq_nil_iff.mpr fun b hb heq => hzero (beq_iff_eq.mp heq ▸ hb)
    cases last with
    | false => exact absurd hmem hzero
    | true =>
      rw [hcontains, hnone, hany true hmem]
      cases low <;> simp

/-- **Setting under a mask, against setting and clearing.** -/
theorem setsAlike_iff (hlaw : api.Lawful)
    (hmasked : (hvsSetMaskedRaw api config mask value s).1 = 0)
    (hset : (hvsGpioSetPins api config (mask &&& value) s).1 = 0)
    (hcleared : (hvsGpioClearPins api config (mask &&& ~~~value)
      (hvsGpioSetPins api config (mask &&& value) s).2).1 = 0) :
    SetsAlike api config mask value s ↔ MaskedActiveHigh api config mask value s := by
  have hmasked' := writes_hvsSetMaskedRaw hlaw hmasked
  have hboth := (writes_hvsGpioSetPins hlaw value hset).trans
    (writes_hvsGpioClearPins hlaw value hcleared)
  have hones : ∀ u, asked (mask &&& value) value config.lvGpios.zipIdx u =
      (asked mask value config.lvGpios.zipIdx u).filter (· == true) := by
    refine fun u => asked_filter true (fun i => ?_) _
    rw [BitVec.getLsbD_and, Bool.and_eq_true]
  have hzeros : ∀ u, asked (mask &&& ~~~value) value config.lvGpios.zipIdx u =
      (asked mask value config.lvGpios.zipIdx u).filter (· == false) := by
    refine fun u => asked_filter false (fun i => ?_) _
    have hlt := BitVec.lt_of_getLsbD (x := mask) (i := i)
    rw [BitVec.getLsbD_and, Bool.and_eq_true, BitVec.getLsbD_not, Bool.and_eq_true, Bool.not_eq_true']
    exact and_congr_right fun hmask => and_iff_right (decide_eq_true (hlt hmask))
  refine forall_congr' fun u => ?_
  rw [hmasked'.level, hboth.level, hones, hzeros]
  cases hdrives : api.drives s u with
  | false => exact iff_of_true rfl nofun
  | true =>
    rw [if_pos rfl, if_pos rfl]
    -- an output keeps its level where no masked pin is over it
    cases hlast : (asked mask value config.lvGpios.zipIdx u).getLast? with
    | none =>
      rw [List.getLast?_eq_none_iff.mp hlast]
      exact iff_of_true rfl fun _ _ => nofun
    | some last =>
      rw [← hlast, put_eq_iff hlast]
      refine ⟨fun h _ last' heq => ?_, fun h => h rfl last hlast⟩
      rw [← Option.some.inj (hlast.symm.trans heq)]
      exact h

/-- **What the loop reads**: a bit is set if it was before, or its pin is an
input that is read as 1. -/
theorem getLsbD_getRawLoop (hlaw : api.Lawful) {inputMap : PortPins}
    {pins : List (GpioDtSpec Port × ℕ)} {before : PortPins}
    (h : (getRawLoop api s inputMap pins before).1 = 0) (i : ℕ) :
    (getRawLoop api s inputMap pins before).2.getLsbD i = true ↔
      before.getLsbD i = true ∨ inputMap.getLsbD i = true ∧
        ∃ p ∈ pins, p.2 = i ∧ api.logical s p.1.place = true := by
  induction pins generalizing before with
  | nil => simp [getRawLoop]
  | cons p rest ih =>
    simp only [List.mem_cons, exists_eq_or_imp]
    unfold getRawLoop at h ⊢
    by_cases hinput : inputMap.getLsbD p.2 = true
    · rw [if_pos hinput] at h ⊢
      dsimp only at h ⊢
      by_cases hret : api.pinGet p.1.port p.1.pin s < 0
      · rw [if_pos hret] at h
        dsimp only at h
        omega
      · rw [if_neg hret] at h ⊢
        have hlt : p.2 < 32 := BitVec.lt_of_getLsbD hinput
        have hread : api.pinGet p.1.port p.1.pin s = if api.logical s p.1.place then 1 else 0 :=
          hlaw.pinGet p.1.port p.1.pin s (Int.not_lt.mp hret)
        have hbit : (if api.pinGet p.1.port p.1.pin s = 1 then before ||| BitVec.twoPow 32 p.2
            else before).getLsbD i = true ↔
            before.getLsbD i = true ∨ p.2 = i ∧ api.logical s p.1.place = true := by
          rw [hread]
          cases api.logical s p.1.place with
          | true =>
            rw [if_pos rfl, if_pos rfl, Register.getLsbD_or_twoPow before hlt]
            by_cases hi : p.2 = i <;> simp [hi]
          | false => simp
        rw [ih h, hbit, or_assoc, and_or_left]
        refine or_congr_right (or_congr_left (and_iff_right_of_imp ?_).symm)
        rintro ⟨rfl, -⟩
        exact hinput
    · rw [if_neg hinput] at h ⊢
      rw [ih h]
      refine or_congr_right (and_congr_right fun hi => (or_iff_right ?_).symm)
      rintro ⟨rfl, -⟩
      exact hinput hi

omit [DecidableEq Port] in
theorem logical_eq_level_iff : api.logical s u = api.level s u ↔ api.activeLow s u = false := by
  unfold GpioApi.logical
  cases api.level s u <;> cases api.activeLow s u <;> decide

/-- **Reading, against the physical levels.** -/
theorem readsLevels_iff (hlaw : api.Lawful) {data : GpioData S} {before : PortPins}
    (hread : (hvsGpioPortGetRaw api config (some before) data).1 = 0) :
    ReadsLevels api config data ↔ InputsActiveHigh api config data := by
  have hloop : (getRawLoop api data.ports data.inputMap config.lvGpios.zipIdx 0).1 = 0 := hread
  have hbit : ∀ i spec, config.lvGpios[i]? = some spec → data.inputMap.getLsbD i = true →
      (getRawLoop api data.ports data.inputMap config.lvGpios.zipIdx 0).2.getLsbD i =
        api.logical data.ports spec.place := by
    intro i spec hspec hinput
    rw [Bool.eq_iff_iff, getLsbD_getRawLoop hlaw hloop]
    constructor
    · rintro (hzero | ⟨-, p, hp, rfl, hone⟩)
      · exact absurd hzero (by simp)
      · have hsame := List.mem_zipIdx_iff_getElem?.mp hp
        rw [← Option.some.inj (hsame.symm.trans hspec)]
        exact hone
    · intro hone
      exact .inr ⟨hinput, (spec, i), List.mem_zipIdx_iff_getElem?.mpr hspec, rfl, hone⟩
  constructor
  · intro h i spec hspec hinput
    rw [← logical_eq_level_iff, ← hbit i spec hspec hinput]
    exact h before _ rfl i spec hspec hinput
  · intro h before' read hresult i spec hspec hinput
    obtain rfl := Option.some.inj hresult
    rw [hbit i spec hspec hinput]
    exact logical_eq_level_iff.mpr (h i spec hspec hinput)

/-- **Configuring a pin** records it as active low if the devicetree or the
caller says so. -/
theorem activeLow_hvsGpioPinConfigure (hlaw : api.Lawful) {spiWrite : ℤ} {pin : UInt8}
    {flags : GpioFlags} {data data' : GpioData S}
    (h : hvsGpioPinConfigure api config spiWrite pin flags data = (0, data')) :
    ∃ spec, config.lvGpios[pin.toNat]? = some spec ∧ ∀ u, api.activeLow data'.ports u =
      if u = spec.place then decide ((spec.dtFlags ||| flags) &&& gpioActiveLow ≠ 0)
      else api.activeLow data.ports u := by
  unfold hvsGpioPinConfigure at h
  cases hspec : config.lvGpios[pin.toNat]? with
  | none =>
    rw [hspec] at h
    exact absurd (Prod.mk.inj h).1 (by decide)
  | some spec =>
    refine ⟨spec, rfl, fun u => ?_⟩
    rw [hspec] at h
    dsimp only at h
    by_cases herr : (api.pinConfigure spec.port spec.pin (spec.dtFlags ||| flags) data.ports).1 = 0
    · rw [if_neg (not_not.mpr herr)] at h
      -- what follows is about the shield and leaves the ports as they are
      have hports : data'.ports =
          (api.pinConfigure spec.port spec.pin (spec.dtFlags ||| flags) data.ports).2 := by
        split at h
        · exact absurd (Prod.mk.inj h).1 ‹_›
        · rw [← (Prod.mk.inj h).2]
      rw [hports]
      exact hlaw.pinConfigure spec.port spec.pin (spec.dtFlags ||| flags) data.ports herr u
    · rw [if_pos herr] at h
      exact absurd (Prod.mk.inj h).1 herr

/-- **When the raw operations of the shield are raw.** For every inversion
recorded for the underlying pins, every mask and every value, of calls that
succeed: setting under the mask leaves the physical levels of setting and
clearing, and reading gives the physical level of every input, exactly if
no masked output and no input is active low. -/
theorem rawAlike_iff (hlaw : api.Lawful) {data : GpioData S} {before : PortPins}
    (hmasked : (hvsSetMaskedRaw api config mask value data.ports).1 = 0)
    (hset : (hvsGpioSetPins api config (mask &&& value) data.ports).1 = 0)
    (hcleared : (hvsGpioClearPins api config (mask &&& ~~~value)
      (hvsGpioSetPins api config (mask &&& value) data.ports).2).1 = 0)
    (hread : (hvsGpioPortGetRaw api config (some before) data).1 = 0) :
    (SetsAlike api config mask value data.ports ∧ ReadsLevels api config data) ↔
      MaskedActiveHigh api config mask value data.ports ∧ InputsActiveHigh api config data := by
  rw [setsAlike_iff hlaw hmasked hset hcleared, readsLevels_iff hlaw hread]

end Raw

/-! ## One port -/

/-- One port as three words: the levels of its pins, which of them are
outputs, and which are active low. -/
structure PortWord where
  level : PortPins
  output : PortPins
  invert : PortPins
  deriving DecidableEq, Repr

/-- A word with one bit given a value. -/
def putBit (r : PortPins) (i : Fin 32) (b : Bool) : PortPins :=
  if b then r ||| BitVec.twoPow 32 i else r &&& ~~~BitVec.twoPow 32 i

def wordApi : GpioApi Unit PortWord where
  pinConfigure _ pin flags s := (0, { s with
    output := putBit s.output pin (decide (flags &&& gpioOutput ≠ 0))
    invert := putBit s.invert pin (decide (flags &&& gpioActiveLow ≠ 0)) })
  pinGet _ pin s := if s.level.getLsbD pin ^^ s.invert.getLsbD pin then 1 else 0
  pinSet _ pin value s := (0, { s with
    level :=
      if s.output.getLsbD pin then putBit s.level pin (value ^^ s.invert.getLsbD pin) else s.level })
  portSetBitsRaw _ pins s := (0, { s with level := s.level ||| pins &&& s.output })
  portClearBitsRaw _ pins s := (0, { s with level := s.level &&& ~~~(pins &&& s.output) })
  level s u := s.level.getLsbD u.2
  drives s u := s.output.getLsbD u.2
  activeLow s u := s.invert.getLsbD u.2

theorem getLsbD_putBit (r : PortPins) (i j : Fin 32) (b : Bool) :
    (putBit r i b).getLsbD j = if j = i then b else r.getLsbD j := by
  have hi := i.isLt
  have hval : (i : ℕ) = j ↔ j = i := Fin.val_inj.trans eq_comm
  unfold putBit
  cases b with
  | true => rw [if_pos rfl, Register.getLsbD_or_twoPow r hi]; simp only [hval]
  | false => rw [if_neg (by decide), Register.getLsbD_and_not_twoPow r hi]; simp only [hval]

/-- What a write does to the levels is all there is to check. -/
theorem wordApi_writes {s : PortWord} {level : PortPins} {put : Unit × Fin 32 → Option Bool}
    (h : ∀ pin : Fin 32, level.getLsbD pin =
      if s.output.getLsbD pin then (put ((), pin)).getD (s.level.getLsbD pin)
      else s.level.getLsbD pin) :
    wordApi.Writes s { s with level := level } put where
  level u := h u.2
  drives := rfl
  activeLow := rfl

theorem wordApi_lawful : wordApi.Lawful where
  pinSet _ pin value s _ := by
    refine wordApi_writes fun pin' => ?_
    show _ = if _ then
      (if ((), pin') = ((), pin) then some (value ^^ s.invert.getLsbD pin') else none).getD _ else _
    by_cases hpin : pin' = pin
    · subst hpin
      rw [if_pos rfl, Option.getD_some]
      split_ifs
      · rw [getLsbD_putBit, if_pos rfl]
      · rfl
    · rw [if_neg (fun heq => hpin (Prod.mk.inj heq).2), Option.getD_none, ite_self]
      split_ifs
      · rw [getLsbD_putBit, if_neg hpin]
      · rfl
  portSetBitsRaw _ pins s _ := by
    refine wordApi_writes fun pin => ?_
    rw [BitVec.getLsbD_or, BitVec.getLsbD_and]
    cases s.output.getLsbD pin <;> cases pins.getLsbD pin <;> simp
  portClearBitsRaw _ pins s _ := by
    refine wordApi_writes fun pin => ?_
    rw [BitVec.getLsbD_and, BitVec.getLsbD_not, BitVec.getLsbD_and]
    cases s.output.getLsbD pin <;> cases pins.getLsbD pin <;> simp
  pinGet _ _ _ _ := rfl
  pinConfigure := by
    rintro ⟨⟩ pin flags s - ⟨⟨⟩, pin'⟩
    dsimp only [wordApi]
    rw [getLsbD_putBit]
    simp only [Prod.mk.injEq, true_and]

/-- A shield with one pin, over pin 13 of a port. -/
def onePin : GpioConfig Unit := ⟨[⟨(), ⟨13, Nat.le_add_left 14 18⟩, 0⟩], Nat.le_add_left 1 31⟩

/-- The shield at the start. -/
def GpioData.start : GpioData PortWord := ⟨⟨0, 0, 0⟩, Registers.zero, 0, 0⟩

/-- The pin configured as input and output, with further flags. -/
def configured (flags : GpioFlags) : ℤ × GpioData PortWord :=
  hvsGpioPinConfigure wordApi onePin 0 0 (gpioInput ||| gpioOutput ||| flags) GpioData.start

/-- A shield with three pins. -/
def threePins : GpioConfig Unit :=
  ⟨[⟨(), ⟨13, Nat.le_add_left 14 18⟩, 0⟩, ⟨(), ⟨5, Nat.le_add_left 6 26⟩, 0⟩,
    ⟨(), ⟨7, Nat.le_add_left 8 24⟩, 0⟩], Nat.le_add_left 3 29⟩

/-- Its outer pins configured as input and output, and the one between as an
output that is active low. -/
def threeConfigured : GpioData PortWord :=
  (hvsGpioPinConfigure wordApi threePins 0 2 (gpioInput ||| gpioOutput)
    (hvsGpioPinConfigure wordApi threePins 0 1 (gpioOutput ||| gpioActiveLow)
      (hvsGpioPinConfigure wordApi threePins 0 0 (gpioInput ||| gpioOutput)
        GpioData.start).2).2).2

/-- The outer pins are given different levels under a mask, and read. -/
theorem rawAlike_iff_activeHigh :
    wordApi.activeLow threeConfigured.ports ((), 5) = true ∧
      SetsAlike wordApi threePins 0b101 0b100 threeConfigured.ports ∧
        ReadsLevels wordApi threePins threeConfigured := by
  have hread : (hvsGpioPortGetRaw wordApi threePins (some 0) threeConfigured).1 = 0 := by decide
  refine ⟨by decide, (rawAlike_iff wordApi_lawful (by decide) (by decide) (by decide) hread).mpr
    ⟨?_, ?_⟩⟩
  · rintro ⟨⟨⟩, pin⟩
    revert pin
    decide +kernel
  · intro i spec hspec
    match i with
    | 0 | 1 | 2 =>
      obtain rfl := Option.some.inj hspec
      decide
    | i + 3 => cases hspec

/-- **The pin is configured as active low**, set under a mask, and set: the
first drives it low, the second high. And low, it is read as high. -/
theorem not_rawAlike_activeLow :
    wordApi.Lawful ∧ (configured gpioActiveLow).1 = 0 ∧
      ¬ SetsAlike wordApi onePin 1 1 (configured gpioActiveLow).2.ports ∧
        ¬ ReadsLevels wordApi onePin (configured gpioActiveLow).2 := by
  refine ⟨wordApi_lawful, by decide, fun h => ?_, fun h => ?_⟩
  · have hlevel := h ((), 13)
    revert hlevel
    decide
  · have hlevel := h 0 1 (by decide) 0 ⟨(), 13, 0⟩ rfl (by decide)
    revert hlevel
    decide

end HvShield

end Ardep
