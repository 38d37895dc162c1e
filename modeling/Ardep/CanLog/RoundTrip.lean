import Ardep.Common.Slices
import Ardep.Common.Utf8
import Ardep.Lin.Model
/-!
# The CAN log — from the log buffer to the receiver's screen

The log backend sends what the log output flushes in frames of at most
eight bytes. The receiver decodes every frame by itself, strictly, and
prints it. A character whose bytes end up in two frames is valid in
neither, and `decode` then raises an exception that nothing catches.

`prints_iff` says that the receiver prints the log text exactly if every
place where a buffer is flushed or cut is between two characters. Zephyr's
log output is not part of the repository; it is taken to call the output
function with what is left until its buffer is used up, and to flush where
it likes.
-/

namespace Ardep

namespace CanLog

open Lin

/-- `EIO`. -/
abbrev EIO : ℤ := 5
/-- `ENODEV`. -/
abbrev ENODEV : ℤ := 19

/-! ## The backend -/

/-- `enum can_state`. -/
inductive CanState where
  | errorActive
  | errorWarning
  | errorPassive
  | busOff
  | stopped
  deriving DecidableEq, Repr

/-- The CAN device, as `device_is_ready` and `can_get_state` show it. -/
structure CanDev where
  isReady : Bool
  getState : ℤ × CanState

/-- `can_log_is_ready`. -/
def canLogIsReady (dev : CanDev) : ℤ :=
  if ¬ dev.isReady then -ENODEV
  else if dev.getState.1 ≠ 0 then -ENODEV
  else
    match dev.getState.2 with
    | .busOff | .stopped => - EIO
    | _ => 0

/-- `CAN_MAX_DLEN`. -/
def canMaxDlen : ℕ := 8

/-- `can_log_line_out`: the frame it sends, if any, and the count it
returns. How it waits for the transmission makes no difference to either. -/
def canLogLineOut (dev : CanDev) (canLogId : UInt16) (data : List UInt8) : Option CanFrame × ℕ :=
  if canLogIsReady dev ≠ 0 then (none, data.length)
  else
    let length := if data.length > canMaxDlen then canMaxDlen else data.length
    (some ⟨canLogId.toUInt32, length, data.take length⟩, length)

theorem canLogLineOut_snd_pos (dev : CanDev) (canLogId : UInt16) {data : List UInt8}
    (hdata : data ≠ []) : 0 < (canLogLineOut dev canLogId data).2 := by
  have hpos := List.length_pos_iff.mpr hdata
  unfold canLogLineOut canMaxDlen
  split_ifs
  · exact hpos
  · exact Nat.zero_lt_succ 7
  · exact hpos

/-- **The log output with its buffer**: it calls the output function with
the bytes that are left until the counts add up to the buffer's length. -/
def flush (dev : CanDev) (canLogId : UInt16) (data : List UInt8) : List CanFrame :=
  if data = [] then []
  else
    (canLogLineOut dev canLogId data).1.toList ++
      flush dev canLogId (data.drop (canLogLineOut dev canLogId data).2)
termination_by data.length
decreasing_by
  rename_i hdata
  have hpos := canLogLineOut_snd_pos dev canLogId hdata
  have hlen := List.length_pos_iff.mpr hdata
  rw [List.length_drop]
  omega

/-! ## The receiver -/

/-- `hex`. -/
def hex (n : ℕ) : String := "0x" ++ String.ofList (Nat.toDigits 16 n)

/-- The line the receiver begins with. -/
def startLine (interface : String) (canId : UInt32) : String :=
  "Starting CAN Log Receiver on interface: " ++ interface ++ " listening to ID: " ++
    hex canId.toNat ++ "\n"

/-- The filter the receiver sets: `can_id`, with the mask `0x7FF`. -/
def passes (canId : UInt32) (message : CanFrame) : Bool := (message.id ^^^ canId) &&& 0x7FF = 0

/-- What the receiver has printed, and whether an exception has ended it. -/
structure Output where
  printed : String
  raised : Bool
  deriving DecidableEq, Repr

/-- `message.data.decode()`, which raises on bytes that are not UTF-8. -/
def decode (message : CanFrame) : Option String :=
  String.fromUTF8? (message.data.take message.dlc).toByteArray

/-- The loop of the receiver over what arrives. `recv` may return `None`. -/
def receive (canId : UInt32) : List (Option CanFrame) → Output
  | [] => ⟨"", false⟩
  | none :: arrivals => receive canId arrivals
  | some message :: arrivals =>
    if passes canId message then
      match decode message with
      | none => ⟨"", true⟩
      | some text =>
        let rest := receive canId arrivals
        ⟨text ++ rest.printed, rest.raised⟩
    else receive canId arrivals

/-- `CanLogReceiver.run`. -/
def run (interface : String) (canId : UInt32) (arrivals : List (Option CanFrame)) : Output :=
  let received := receive canId arrivals
  { received with printed := startLine interface canId ++ received.printed }

/-! ## What is asked of them -/

/-- **Every send is delivered in order**: what passes the filter is what
was sent. -/
def Delivered (canId : UInt32) (sent : List CanFrame) (arrivals : List (Option CanFrame)) : Prop :=
  arrivals.filterMap (Option.filter (passes canId)) = sent

/-- **Every cut is between two characters**: where a buffer begins, every
eight bytes from there on, and where it ends. -/
def CutBetweenCharacters (text : String) (buffers : List (List UInt8)) : Prop :=
  ∀ before buffer after, buffers = before ++ buffer :: after →
    ∀ k, (⟨before.flatten.length + min (8 * k) buffer.length⟩ : String.Pos.Raw).IsValid text

/-! ## The backend cuts the buffer -/

section Backend

variable {dev : CanDev} (hready : canLogIsReady dev = 0) (canLogId : UInt16)

/-- A frame of the log. -/
def logFrame (canLogId : UInt16) (piece : List UInt8) : CanFrame :=
  ⟨canLogId.toUInt32, piece.length, piece⟩

include hready in
theorem canLogLineOut_of_ready (data : List UInt8) :
    canLogLineOut dev canLogId data = (some (logFrame canLogId (data.take 8)), min 8 data.length) := by
  have hmin : (if data.length > 8 then 8 else data.length) = min 8 data.length := by
    split_ifs <;> omega
  unfold canLogLineOut canMaxDlen logFrame
  rw [if_neg (not_not_intro hready), hmin, List.length_take]
  dsimp only
  rw [← List.take_eq_take_min]

include hready in
/-- **The frames of a buffer** have its bytes in pieces of eight. -/
theorem flush_of_ready (data : List UInt8) :
    flush dev canLogId data = (slices 8 data).map (logFrame canLogId) := by
  induction hlen : data.length using Nat.strongRecOn generalizing data with
  | _ len ih =>
    rw [flush]
    by_cases hdata : data = []
    · rw [if_pos hdata, hdata, slices_nil (Nat.zero_lt_succ 7), List.map_nil]
    · have hpos := List.length_pos_iff.mpr hdata
      have hdrop : data.drop (min 8 data.length) = data.drop 8 := List.drop_eq_drop_min.symm
      have hrest := ih (data.drop 8).length (by rw [List.length_drop]; omega) (data.drop 8) rfl
      rw [if_neg hdata, canLogLineOut_of_ready hready, hdrop, hrest,
        slices_of_ne_nil (Nat.zero_lt_succ 7) hdata]
      rfl

end Backend

/-! ## The receiver prints the pieces -/

/-- The bytes of a message. -/
def payload (message : CanFrame) : List UInt8 := message.data.take message.dlc

theorem payload_logFrame (canLogId : UInt16) (piece : List UInt8) :
    payload (logFrame canLogId piece) = piece := List.take_length

/-- **What is printed** is what can be decoded of the messages that pass
the filter, up to the first that cannot. -/
theorem printed_receive (canId : UInt32) (arrivals : List (Option CanFrame)) :
    (receive canId arrivals).printed.toUTF8 =
      (Utf8.decodable
        ((arrivals.filterMap (Option.filter (passes canId))).map payload)).flatten.toByteArray := by
  induction arrivals with
  | nil => rfl
  | cons arrival arrivals ih =>
    cases arrival with
    | none => exact ih
    | some message =>
      cases hpasses : passes canId message with
      | false =>
        rw [receive, if_neg (by simp [hpasses]), ih,
          List.filterMap_cons_none (by simp [Option.filter, hpasses])]
      | true =>
        rw [receive, if_pos hpasses, List.filterMap_cons_some (b := message)
          (by simp [Option.filter, hpasses]), List.map_cons]
        by_cases hvalid : (payload message).toByteArray.IsValidUTF8
        · have hdecode : decode message = some (String.fromUTF8 _ hvalid) :=
            Utf8.fromUTF8?_of_valid hvalid
          rw [hdecode, Utf8.decodable_cons_of_valid hvalid, List.flatten_cons,
            List.toByteArray_append, ← ih]
          rfl
        · have hdecode : decode message = none := Utf8.fromUTF8?_of_not_valid hvalid
          rw [hdecode, Utf8.decodable_cons_of_not_valid hvalid]
          rfl

/-! ## The places of the cuts -/

section Cuts

variable {text : String} {buffers : List (List UInt8)}

/-- The bytes before a cut and those after it. -/
theorem flatten_split (before : List (List UInt8)) (buffer : List UInt8) (after : List (List UInt8))
    (n : ℕ) : before.flatten ++ buffer.take n ++ (buffer.drop n ++ after.flatten) =
      (before ++ buffer :: after).flatten := by
  rw [List.append_assoc, ← List.append_assoc (buffer.take n), List.take_append_drop,
    List.flatten_append, List.flatten_cons]

theorem length_before (before : List (List UInt8)) (buffer : List UInt8) (n : ℕ) :
    (before.flatten ++ buffer.take n).length = before.flatten.length + min n buffer.length := by
  rw [List.length_append, List.length_take]

/-- **Every piece is valid** exactly if every cut is between two
characters. -/
theorem valid_iff_cutBetweenCharacters (htext : buffers.flatten.toByteArray = text.toUTF8) :
    (∀ piece ∈ buffers.flatMap (slices 8), piece.toByteArray.IsValidUTF8) ↔
      CutBetweenCharacters text buffers := by
  have hpos : 0 < 8 := Nat.zero_lt_succ 7
  constructor
  · -- the pieces before a cut are valid, so it is between two characters
    rintro hvalid before buffer after rfl k
    have hpieces : ∀ piece ∈ before.flatMap (slices 8) ++ (slices 8 buffer).take k,
        piece.toByteArray.IsValidUTF8 := by
      intro piece hmem
      refine hvalid piece ?_
      rw [List.flatMap_append, List.flatMap_cons]
      rcases List.mem_append.mp hmem with hbefore | htake
      · exact List.mem_append_left _ hbefore
      · exact List.mem_append_right _ (List.mem_append_left _ (List.mem_of_mem_take htake))
    have hbefore := Utf8.isValidUTF8_flatten hpieces
    rw [List.flatten_append, flatten_flatMap_slices hpos, flatten_take_slices hpos] at hbefore
    rw [← length_before]
    rw [← flatten_split before buffer after (8 * k)] at htext
    exact Utf8.isValid_length htext hbefore
  · -- a piece is between two cuts
    intro hcuts piece hmem
    obtain ⟨buffer, hbuffer, hpiece⟩ := List.mem_flatMap.mp hmem
    obtain ⟨before, after, rfl⟩ := List.append_of_mem hbuffer
    obtain ⟨k, rfl⟩ := exists_of_mem_slices hpiece
    have hnext : before.flatten ++ buffer.take (8 * (k + 1)) =
        before.flatten ++ buffer.take (8 * k) ++ (buffer.drop (8 * k)).take 8 := by
      rw [Nat.mul_succ, List.take_add, List.append_assoc]
    have hfirst := hcuts before buffer after rfl k
    have hlast := hcuts before buffer after rfl (k + 1)
    rw [← length_before] at hfirst hlast
    rw [hnext] at hlast
    rw [← flatten_split before buffer after (8 * (k + 1)), hnext] at htext
    exact Utf8.isValidUTF8_between htext hfirst hlast

end Cuts

/-! ## The round trip -/

section RoundTrip

variable {dev : CanDev} {canLogId : UInt16} {text : String} {buffers : List (List UInt8)}
  {arrivals : List (Option CanFrame)}

/-- The bytes that arrive are the pieces the backend cuts. -/
theorem map_payload_of_delivered (hready : canLogIsReady dev = 0)
    (hdelivered : Delivered canLogId.toUInt32 (buffers.flatMap (flush dev canLogId)) arrivals) :
    (arrivals.filterMap (Option.filter (passes canLogId.toUInt32))).map payload =
      buffers.flatMap (slices 8) := by
  rw [show arrivals.filterMap (Option.filter (passes canLogId.toUInt32)) = _ from hdelivered,
    List.map_flatMap]
  congr 1
  funext buffer
  rw [flush_of_ready hready, List.map_map]
  exact List.map_id'' (payload_logFrame canLogId) _

/-- **The receiver prints the log text** exactly if every place where a
buffer is flushed or cut is between two characters. -/
theorem prints_iff (interface : String) (hready : canLogIsReady dev = 0)
    (htext : buffers.flatten.toByteArray = text.toUTF8)
    (hdelivered : Delivered canLogId.toUInt32 (buffers.flatMap (flush dev canLogId)) arrivals) :
    (run interface canLogId.toUInt32 arrivals).printed =
        startLine interface canLogId.toUInt32 ++ text ↔
      CutBetweenCharacters text buffers := by
  have hbytes := printed_receive canLogId.toUInt32 arrivals
  rw [map_payload_of_delivered hready hdelivered] at hbytes
  have hall : (receive canLogId.toUInt32 arrivals).printed = text ↔
      (Utf8.decodable (buffers.flatMap (slices 8))).flatten =
        (buffers.flatMap (slices 8)).flatten := by
    rw [← String.toByteArray_inj, ← String.toUTF8_eq_toByteArray, ← String.toUTF8_eq_toByteArray,
      hbytes, ← htext, List.toByteArray_inj, flatten_flatMap_slices (Nat.zero_lt_succ 7)]
  have hline : (run interface canLogId.toUInt32 arrivals).printed =
      startLine interface canLogId.toUInt32 ++ (receive canLogId.toUInt32 arrivals).printed := rfl
  rw [hline, String.append_right_inj, hall, Utf8.flatten_decodable_iff,
    valid_iff_cutBetweenCharacters htext]

end RoundTrip

/-! Seven characters of one byte and one of two: the last byte, which goes
into a second frame, is the second half of the last character. -/

def readyDev : CanDev := ⟨true, 0, .errorActive⟩

/-- `CONFIG_CAN_LOG_ID`, by default. -/
def defaultLogId : UInt16 := 0x100

def splitText : String := "1234567é"

def splitBytes : List UInt8 := [0x31, 0x32, 0x33, 0x34, 0x35, 0x36, 0x37, 0xC3, 0xA9]

def splitFrames : List CanFrame :=
  [⟨0x100, 8, [0x31, 0x32, 0x33, 0x34, 0x35, 0x36, 0x37, 0xC3]⟩, ⟨0x100, 1, [0xA9]⟩]

theorem splitBytes_eq : [splitBytes].flatten.toByteArray = splitText.toUTF8 := by
  decide

theorem delivered_split :
    Delivered defaultLogId.toUInt32 ([splitBytes].flatMap (flush readyDev defaultLogId))
      (splitFrames.map some) := by
  have hflush : flush readyDev defaultLogId splitBytes = splitFrames := by
    rw [flush_of_ready rfl]
    decide
  rw [List.flatMap_singleton, hflush]
  unfold Delivered
  decide

theorem prints_iff_split :
    (run "can0" defaultLogId.toUInt32 (splitFrames.map some)).printed =
        startLine "can0" defaultLogId.toUInt32 ++ splitText ↔
      CutBetweenCharacters splitText [splitBytes] :=
  prints_iff "can0" rfl splitBytes_eq delivered_split

/-- **The receiver prints nothing of this text**, for its first frame ends
in the middle of a character. -/
theorem not_prints_split : ∃ (dev : CanDev) (canLogId : UInt16) (text : String)
    (buffers : List (List UInt8)) (arrivals : List (Option CanFrame)),
    canLogIsReady dev = 0 ∧ buffers.flatten.toByteArray = text.toUTF8 ∧
      Delivered canLogId.toUInt32 (buffers.flatMap (flush dev canLogId)) arrivals ∧
      run "can0" canLogId.toUInt32 arrivals = ⟨startLine "can0" canLogId.toUInt32, true⟩ ∧
      (run "can0" canLogId.toUInt32 arrivals).printed ≠
        startLine "can0" canLogId.toUInt32 ++ text := by
  have hreceive : receive defaultLogId.toUInt32 (splitFrames.map some) = ⟨"", true⟩ := by
    decide +kernel
  refine ⟨readyDev, defaultLogId, splitText, [splitBytes], splitFrames.map some, rfl, splitBytes_eq,
    delivered_split, ?_, ?_⟩
  · unfold run
    rw [hreceive]
    rfl
  · unfold run
    rw [hreceive]
    dsimp only
    rw [Ne, String.append_right_inj]
    decide

end CanLog

end Ardep
