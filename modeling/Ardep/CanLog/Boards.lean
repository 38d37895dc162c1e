import Mathlib.Data.Nat.Bitwise
import Ardep.CanLog.RoundTrip
import Ardep.Gearshift.Address
/-!
# CAN log — several boards on one bus

Boards with gearshifts log on the ids of their positions, and frames of
different boards mix on the bus in any way. A receiver listens to one id
with a mask of eleven bits.

`receiver_alone` says that it does not notice the others: with as many ids left
below the mask as the switch has positions, it prints what it would print
of its board alone, up to where it ends by an exception.
-/

namespace Ardep

namespace CanLog

open Gearshift Lin

/-! ## The filter -/

/-- The filter compares eleven bits. -/
theorem passes_iff (canId : UInt32) (message : CanFrame) :
    passes canId message = true ↔ message.id.toNat % 2 ^ 11 = canId.toNat % 2 ^ 11 := by
  have hmask : (0x7FF : UInt32).toNat = 2 ^ 11 - 1 := rfl
  rw [passes, decide_eq_true_iff, ← UInt32.toNat_inj, UInt32.toNat_and, UInt32.toNat_xor, hmask,
    Nat.and_two_pow_sub_one_eq_mod, Nat.xor_mod_two_pow]
  exact Nat.xor_eq_zero_iff

/-- The receiver prints what passes the filter. -/
theorem receive_filterMap (canId : UInt32) (arrivals : List (Option CanFrame)) :
    receive canId arrivals =
      receive canId ((arrivals.filterMap (Option.filter (passes canId))).map some) := by
  induction arrivals with
  | nil => rfl
  | cons arrival arrivals ih =>
    cases arrival with
    | none => exact ih
    | some message =>
      cases hpasses : passes canId message with
      | false =>
        rw [receive, if_neg (by rw [hpasses]; decide), ih,
          List.filterMap_cons_none (by simp [Option.filter, hpasses])]
      | true =>
        rw [List.filterMap_cons_some (b := message) (by simp [Option.filter, hpasses]),
          List.map_cons, receive, receive, if_pos hpasses, if_pos hpasses, ih]

/-- A buffer is flushed in frames with the id of the log. -/
theorem id_of_mem_flush {dev : CanDev} {canLogId : UInt16} {message : CanFrame}
    (data : List UInt8) (h : message ∈ flush dev canLogId data) :
    message.id = canLogId.toUInt32 := by
  induction hlen : data.length using Nat.strongRecOn generalizing data with
  | _ len ih =>
    rw [flush] at h
    by_cases hdata : data = []
    · rw [if_pos hdata] at h
      cases h
    · rw [if_neg hdata] at h
      rcases List.mem_append.mp h with hfirst | hrest
      · unfold canLogLineOut at hfirst
        split_ifs at hfirst
        · cases hfirst
        all_goals
          rw [List.mem_singleton.mp hfirst]
      · have hpos := canLogLineOut_snd_pos dev canLogId hdata
        have hsize := List.length_pos_iff.mpr hdata
        exact ih _ (by rw [List.length_drop]; omega) _ hrest rfl

/-! ## The boards -/

/-- **A board that logs**: the levels of its switch, its CAN device, and the
buffers that its log output flushes. -/
structure LogBoard where
  levels : List Bool
  dev : CanDev
  buffers : List (List UInt8)

namespace LogBoard

/-- `can_log_id`, as `can_log_init` sets it. -/
def canLogId (C : BaseIds) (b : LogBoard) : UInt16 :=
  UInt16.ofNat (canLogGetId C (b.levels.map .ok))

/-- What it sends. -/
def frames (C : BaseIds) (b : LogBoard) : List CanFrame :=
  b.buffers.flatMap (flush b.dev (b.canLogId C))

variable {C : BaseIds} {k : ℕ}

/-- The id of a board's position, below the mask. -/
theorem toNat_canLogId {b : LogBoard} (hlen : b.levels.length = k)
    (hids : C.canLog + 2 ^ k ≤ 2 ^ 11) :
    (b.canLogId C).toUInt32.toNat = C.canLog + position b.levels := by
  have hlt := position_lt b.levels
  rw [hlen] at hlt
  have hid : canLogGetId C (b.levels.map .ok) = C.canLog + position b.levels := by
    rw [canLogGetId, getValue_ok]
    exact Nat.mod_eq_of_lt (by omega)
  rw [UInt16.toNat_toUInt32, canLogId, hid]
  exact Nat.mod_eq_of_lt (by omega)

theorem id_of_mem_frames {b : LogBoard} {message : CanFrame} (h : message ∈ b.frames C) :
    message.id = (b.canLogId C).toUInt32 := by
  obtain ⟨buffer, -, hmem⟩ := List.mem_flatMap.mp h
  exact id_of_mem_flush buffer hmem

end LogBoard

section Bus

variable {ι : Type} [DecidableEq ι]

/-- A frame on the bus with the board that sent it, or none if it is not
of a log. `recv` may return `None`. -/
abbrev Arrival (ι : Type) : Type := Option (Option ι × CanFrame)

/-- The frame of an arrival, if the board sent it. -/
def ofBoard (i : ι) : Arrival ι → Option CanFrame
  | some (some j, message) => if j = i then some message else none
  | _ => none

/-- **What is on the bus**: the frames of the boards, each board's in their
order, with others that no receiver of a log listens to. -/
structure Traffic (C : BaseIds) (boards : ι → LogBoard) where
  arrivals : List (Arrival ι)
  inOrder : ∀ i, arrivals.filterMap (ofBoard i) = (boards i).frames C
  others : ∀ message, some (none, message) ∈ arrivals →
    ∀ i, passes ((boards i).canLogId C).toUInt32 message = false

variable {C : BaseIds} {k : ℕ} {boards : ι → LogBoard}

/-- What passes the filter for a board's id is what the board sent. -/
theorem filter_passes (T : Traffic C boards) (hlen : ∀ i, (boards i).levels.length = k)
    (hids : C.canLog + 2 ^ k ≤ 2 ^ 11)
    (hapart : ∀ i j, (boards i).levels = (boards j).levels → i = j) (i : ι) {arrival : Arrival ι}
    (h : arrival ∈ T.arrivals) :
    (arrival.map Prod.snd).filter (passes ((boards i).canLogId C).toUInt32) =
      ofBoard i arrival := by
  obtain _ | ⟨_ | j, message⟩ := arrival
  · rfl
  · show Option.filter _ (some message) = none
    rw [Option.filter, T.others message h i]
    rfl
  · have hmem : message ∈ (boards j).frames C := by
      rw [← T.inOrder j]
      exact List.mem_filterMap.mpr ⟨_, h, if_pos rfl⟩
    have hpasses : passes ((boards i).canLogId C).toUInt32 message = true ↔ j = i := by
      have hposi := position_lt (boards i).levels
      have hposj := position_lt (boards j).levels
      rw [hlen] at hposi hposj
      rw [passes_iff, LogBoard.id_of_mem_frames hmem, LogBoard.toNat_canLogId (hlen i) hids,
        LogBoard.toNat_canLogId (hlen j) hids]
      constructor
      · intro hsame
        exact hapart j i (position_inj ((hlen j).trans (hlen i).symm) (by omega))
      · rintro rfl
        rfl
    show Option.filter _ (some message) = if j = i then some message else none
    by_cases hji : j = i
    · rw [if_pos hji, Option.filter, hpasses.mpr hji]
      rfl
    · rw [if_neg hji, Option.filter, Bool.eq_false_iff.mpr (mt hpasses.mp hji)]
      rfl

/-- **A receiver hears its own board.** Boards in different positions of a
switch of `k` pins, whose ids stay below the receiver's mask, may log at
the same time, with any other traffic between: the receiver of a board's id
prints what it would print if that board were alone on the bus, and ends by
an exception exactly if it would then. -/
theorem receiver_alone (T : Traffic C boards) (hlen : ∀ i, (boards i).levels.length = k)
    (hids : C.canLog + 2 ^ k ≤ 2 ^ 11)
    (hapart : ∀ i j, (boards i).levels = (boards j).levels → i = j) (interface : String) (i : ι) :
    run interface ((boards i).canLogId C).toUInt32 (T.arrivals.map (Option.map Prod.snd)) =
      run interface ((boards i).canLogId C).toUInt32 (((boards i).frames C).map some) := by
  have hown : (T.arrivals.map (Option.map Prod.snd)).filterMap
      (Option.filter (passes ((boards i).canLogId C).toUInt32)) = (boards i).frames C := by
    rw [List.filterMap_map, ← T.inOrder i]
    exact List.filterMap_congr fun arrival harrival => filter_passes T hlen hids hapart i harrival
  rw [run, receive_filterMap, hown, run]

end Bus

/-! Two boards, of which the second one's letter comes first. -/

def twoLogs (i : Bool) : LogBoard := ⟨[i, false, false], readyDev, [[if i then 0x62 else 0x61]]⟩

def letterFrame (i : Bool) : CanFrame :=
  logFrame ((twoLogs i).canLogId defaultBaseIds) [if i then 0x62 else 0x61]

theorem frames_twoLogs (i : Bool) : (twoLogs i).frames defaultBaseIds = [letterFrame i] := by
  have hslice : slices 8 [if i then (0x62 : UInt8) else 0x61] = [[if i then 0x62 else 0x61]] := by
    rw [slices_of_ne_nil (by decide) (List.cons_ne_nil _ _)]
    exact congrArg _ (slices_nil (by decide))
  rw [LogBoard.frames]
  show flush readyDev _ [if i then (0x62 : UInt8) else 0x61] ++ [] = _
  rw [List.append_nil, flush_of_ready rfl, hslice]
  rfl

def twoLogsTraffic : Traffic defaultBaseIds twoLogs where
  arrivals := [some (some true, letterFrame true), none, some (some false, letterFrame false)]
  inOrder := fun i => by
    rw [frames_twoLogs]
    cases i <;> rfl
  others := fun message h => by simp at h

theorem receiver_alone_twoLogs :
    run "can0" ((twoLogs false).canLogId defaultBaseIds).toUInt32
        (twoLogsTraffic.arrivals.map (Option.map Prod.snd)) =
      run "can0" ((twoLogs false).canLogId defaultBaseIds).toUInt32
        (((twoLogs false).frames defaultBaseIds).map some) :=
  receiver_alone twoLogsTraffic (fun _ => rfl) (by decide) (fun i j h => (List.cons.inj h).1) "can0"
    false

end CanLog

end Ardep
