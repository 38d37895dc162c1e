import Mathlib.Data.Nat.Digits.Defs
import Mathlib.Data.List.Basic
/-!
# Gearshift — addresses from the position of a switch

A gearshift is a binary encoded switch: its pins are the digits of a
number, and each board adds the number to the two base addresses of the
build. The boards on a bus run one firmware, and differ by their switches
alone.

`addresses_apart_iff` says when that keeps their CAN ids apart. Boards
share an address only if their switches are in the same position, and no
board sends on an address another one listens to as long as the switch has
no more positions than there are ids between the two bases.
-/

namespace Ardep

namespace Gearshift

/-! ## The switch -/

/-- What `gpio_pin_get_dt` gives: the level of a pin, or a negative errno
value. -/
abbrev PinRead : Type := Except ℤ Bool

/-- The loop of `get_value` from its `i`-th round on. -/
def getValueLoop : List PinRead → ℕ → ℕ → Except ℤ ℕ
  | [], _, value => .ok value
  | .error ret :: _, _, _ => .error ret
  | .ok level :: pins, i, value => getValueLoop pins (i + 1) (value ||| level.toNat <<< i)

/-- `get_value` of the binary encoded GPIO driver, of what its pins read. -/
def getValue (pins : List PinRead) : Except ℤ ℕ := getValueLoop pins 0 0

/-- The position of a switch whose pins have some levels. -/
def position (levels : List Bool) : ℕ := Nat.ofDigits 2 (levels.map Bool.toNat)

variable {levels levels' : List Bool} {i value k : ℕ}

theorem position_cons (level : Bool) (levels : List Bool) :
    position (level :: levels) = level.toNat + 2 * position levels := by
  simp [position, Nat.ofDigits_cons]

theorem position_lt (levels : List Bool) : position levels < 2 ^ levels.length := by
  have hlt := Nat.ofDigits_lt_base_pow_length (b := 2) (l := levels.map Bool.toNat) (by omega)
    (by
      intro x hx
      obtain ⟨level, -, rfl⟩ := List.mem_map.mp hx
      exact Bool.toNat_lt level)
  rwa [List.length_map] at hlt

/-- Switches of as many pins are in one position only if their pins
agree. -/
theorem position_inj (hlen : levels.length = levels'.length)
    (h : position levels = position levels') : levels = levels' := by
  induction levels generalizing levels' with
  | nil => exact (List.length_eq_zero_iff.mp hlen.symm).symm
  | cons level levels ih =>
    cases levels' with
    | nil => cases hlen
    | cons level' levels' =>
      rw [position_cons, position_cons] at h
      have hlevel := Bool.toNat_lt level
      have hlevel' := Bool.toNat_lt level'
      have hfirst : level = level' := by
        cases level <;> cases level' <;>
          first | rfl | (simp only [Bool.toNat_true, Bool.toNat_false] at h; omega)
      rw [hfirst, ih (Nat.succ.inj hlen) (by omega)]

/-- Every number with as many digits is a position. -/
theorem exists_position : ∀ {k v : ℕ}, v < 2 ^ k →
    ∃ levels : List Bool, levels.length = k ∧ position levels = v
  | 0, v, h => ⟨[], rfl, by rw [show v = 0 by omega]; rfl⟩
  | k + 1, v, h => by
    obtain ⟨levels, hlen, hpos⟩ := exists_position (k := k) (v := v / 2) (by omega)
    refine ⟨decide (v % 2 = 1) :: levels, by rw [List.length_cons, hlen], ?_⟩
    rw [position_cons, hpos]
    rcases Nat.mod_two_eq_zero_or_one v with hzero | hone
    · rw [decide_eq_false (by omega)]
      show 0 + _ = _
      omega
    · rw [decide_eq_true hone]
      show 1 + _ = _
      omega

/-- A round sets a digit above the ones before it. -/
theorem getValueLoop_ok (h : value < 2 ^ i) :
    getValueLoop (levels.map .ok) i value = .ok (value + 2 ^ i * position levels) := by
  induction levels generalizing i value with
  | nil => rfl
  | cons level levels ih =>
    have hor : value ||| level.toNat <<< i = value + 2 ^ i * level.toNat := by
      rw [Nat.shiftLeft_eq, Nat.mul_comm, Nat.or_comm, ← Nat.two_pow_add_eq_or_of_lt h,
        Nat.add_comm]
    have hlevel := Bool.toNat_lt level
    have hlt : value + 2 ^ i * level.toNat < 2 ^ (i + 1) := by
      have hmul : 2 ^ i * level.toNat ≤ 2 ^ i * 1 := Nat.mul_le_mul_left _ (by omega)
      rw [Nat.pow_succ]
      omega
    show getValueLoop (levels.map .ok) (i + 1) (value ||| level.toNat <<< i) = _
    rw [hor, ih hlt, position_cons, Nat.pow_succ]
    ring_nf

/-- **What the driver reads is the position of the switch.** -/
theorem getValue_ok (levels : List Bool) : getValue (levels.map .ok) = .ok (position levels) := by
  rw [getValue, getValueLoop_ok (Nat.two_pow_pos 0)]
  simp

/-- A pin that cannot be read ends the loop with its errno value. -/
theorem getValueLoop_error (ret : ℤ) (rest : List PinRead) :
    getValueLoop (levels.map .ok ++ .error ret :: rest) i value = .error ret := by
  induction levels generalizing i value with
  | nil => rfl
  | cons level levels ih => exact ih

theorem getValue_error (levels : List Bool) (ret : ℤ) (rest : List PinRead) :
    getValue (levels.map .ok ++ .error ret :: rest) = .error ret := getValueLoop_error ret rest

/-! ## The addresses of a board -/

/-- The base ids of the build, CAN ids of at most 29 bits. -/
structure BaseIds where
  physSa : ℕ
  physTa : ℕ
  canLog : ℕ
  physSa_lt : physSa < 2 ^ 29
  physTa_lt : physTa < 2 ^ 29

/-- `UDSISOTpCConfig_t`. A functional address is `none` where it is
`UDS_TP_NOOP_ADDR`. -/
structure UDSISOTpCConfig where
  sourceAddr : ℕ
  targetAddr : ℕ
  sourceAddrFunc : Option ℕ
  targetAddrFunc : Option ℕ

/-- `uds_default_instance_get_addresses`. The addresses are `uint32_t`. -/
def udsDefaultInstanceGetAddresses (C : BaseIds) (pins : List PinRead) : UDSISOTpCConfig :=
  let cfg : UDSISOTpCConfig := ⟨C.physSa, C.physTa, none, none⟩
  match getValue pins with
  | .error _ => cfg
  | .ok ret =>
    { cfg with
      sourceAddr := (cfg.sourceAddr + ret) % 2 ^ 32
      targetAddr := (cfg.targetAddr + ret) % 2 ^ 32 }

/-- `can_log_get_id`, which returns a `uint16_t`. -/
def canLogGetId (C : BaseIds) (pins : List PinRead) : ℕ :=
  match getValue pins with
  | .error _ => C.canLog % 2 ^ 16
  | .ok ret => (C.canLog + ret) % 2 ^ 16

section Addresses

variable {C : BaseIds}

/-- The addresses of a board whose switch can be read. -/
theorem getAddresses_ok (hlen : levels.length ≤ 31) :
    udsDefaultInstanceGetAddresses C (levels.map .ok) =
      ⟨C.physSa + position levels, C.physTa + position levels, none, none⟩ := by
  have hlt : position levels < 2 ^ 31 :=
    Nat.lt_of_lt_of_le (position_lt levels) (Nat.pow_le_pow_right (by omega) hlen)
  have hsa := C.physSa_lt
  have hta := C.physTa_lt
  rw [udsDefaultInstanceGetAddresses, getValue_ok]
  simp only
  rw [Nat.mod_eq_of_lt (by omega), Nat.mod_eq_of_lt (by omega)]

/-- **Switches keep the addresses apart**, of boards with the same `k` pins
and the same firmware. Two boards have the same source address, or target
address, or CAN log id, exactly if their switches are in the same position,
the log id as long as it is not cut off. No board's source address is
another's target address exactly if the two bases are `2 ^ k` ids apart. A
board whose switch cannot be read takes the addresses of position 0. -/
theorem addresses_apart_iff (C : BaseIds) (hk : k ≤ 31) :
    (∀ levels levels' : List Bool, levels.length = k → levels'.length = k →
      ((udsDefaultInstanceGetAddresses C (levels.map .ok)).sourceAddr =
          (udsDefaultInstanceGetAddresses C (levels'.map .ok)).sourceAddr ↔ levels = levels') ∧
        ((udsDefaultInstanceGetAddresses C (levels.map .ok)).targetAddr =
          (udsDefaultInstanceGetAddresses C (levels'.map .ok)).targetAddr ↔ levels = levels') ∧
        (k ≤ 16 → (canLogGetId C (levels.map .ok) = canLogGetId C (levels'.map .ok) ↔
          levels = levels'))) ∧
      ((∀ levels levels' : List Bool, levels.length = k → levels'.length = k →
        (udsDefaultInstanceGetAddresses C (levels.map .ok)).sourceAddr ≠
          (udsDefaultInstanceGetAddresses C (levels'.map .ok)).targetAddr) ↔
        2 ^ k ≤ C.physSa - C.physTa ∨ 2 ^ k ≤ C.physTa - C.physSa) ∧
      ∀ (levels : List Bool) (ret : ℤ) (rest : List PinRead),
        udsDefaultInstanceGetAddresses C (levels.map .ok ++ .error ret :: rest) =
          udsDefaultInstanceGetAddresses C ((List.replicate k false).map .ok) := by
  refine ⟨fun levels levels' hlen hlen' => ?_, ?_, fun levels ret rest => ?_⟩
  · rw [getAddresses_ok (hlen.trans_le hk), getAddresses_ok (hlen'.trans_le hk)]
    have hinj : position levels = position levels' ↔ levels = levels' :=
      ⟨position_inj (hlen.trans hlen'.symm), congrArg position⟩
    refine ⟨?_, ?_, fun hlog => ?_⟩
    · show C.physSa + _ = C.physSa + _ ↔ _
      rw [Nat.add_left_cancel_iff, hinj]
    · show C.physTa + _ = C.physTa + _ ↔ _
      rw [Nat.add_left_cancel_iff, hinj]
    · have hpow : (2 : ℕ) ^ k ≤ 2 ^ 16 := Nat.pow_le_pow_right (by omega) hlog
      have hlt := position_lt levels
      have hlt' := position_lt levels'
      rw [hlen] at hlt
      rw [hlen'] at hlt'
      rw [canLogGetId, canLogGetId, getValue_ok, getValue_ok, ← hinj]
      simp only
      omega
  · constructor
    · intro hapart
      -- otherwise a position reaches the other base
      by_contra hno
      rw [not_or] at hno
      obtain ⟨levels, hlen, hpos⟩ := exists_position (k := k) (v := C.physTa - C.physSa)
        (by omega)
      obtain ⟨levels', hlen', hpos'⟩ := exists_position (k := k) (v := C.physSa - C.physTa)
        (by omega)
      refine hapart levels levels' hlen hlen' ?_
      rw [getAddresses_ok (hlen.trans_le hk), getAddresses_ok (hlen'.trans_le hk)]
      show C.physSa + position levels = C.physTa + position levels'
      omega
    · intro hfar levels levels' hlen hlen'
      have hlt := position_lt levels
      have hlt' := position_lt levels'
      rw [hlen] at hlt
      rw [hlen'] at hlt'
      rw [getAddresses_ok (hlen.trans_le hk), getAddresses_ok (hlen'.trans_le hk)]
      show C.physSa + position levels ≠ C.physTa + position levels'
      omega
  · have hzero : position (List.replicate k false) = 0 := by
      rw [position, List.map_replicate]
      exact Nat.ofDigits_replicate_zero ..
    rw [getAddresses_ok (by rw [List.length_replicate]; exact hk), hzero,
      udsDefaultInstanceGetAddresses, getValue_error]
    rfl

end Addresses

/-- The bases of the Kconfig defaults. -/
def defaultBaseIds : BaseIds := ⟨0x7E8, 0x7E0, 0x100, by decide, by decide⟩

/-- With the default bases, the last of three pins does not make position 0
listen where position 4 sends. -/
theorem addresses_apart_iff_default :
    (udsDefaultInstanceGetAddresses defaultBaseIds ([false, false, false].map .ok)).sourceAddr ≠
      (udsDefaultInstanceGetAddresses defaultBaseIds ([false, false, true].map .ok)).targetAddr :=
  (addresses_apart_iff defaultBaseIds (k := 3) (by decide)).2.1.mpr (.inl (by decide)) _ _ rfl rfl

end Gearshift

end Ardep
