import Ardep.Lin.Bridge
/-!
# CAN over LIN — which frames the format can carry

`lin2can_send` refuses a frame whose id is not one of the four, and takes
any other. The bridge of two nodes is proved for ISO-TP frames, whose
first two bits are free. The driver also sits behind the catch-all CAN
router of the gateway, which hands it whatever is on the bus: any classic
CAN frame, of any length and with any first byte.

`representedBy_iff` says which of those arrive as they were sent: of the
frames that are taken, the ones with a free first two bits, and the empty
ones of the last id.
-/

namespace Ardep

namespace Lin

variable {C : Type}

/-- **A classic CAN frame**: eight bytes of room, of which the first `dlc`
count. -/
structure ClassicFrame extends CanFrame where
  dlc_le : dlc ≤ 8
  length_data : data.length = 8

/-- **The frame is refused or arrives as it was sent**: what the peer's
`lin_incoming_cb` makes of the frame that `lin2can_send` has queued has
the id and the first `dlc` bytes of the frame. -/
def RepresentedBy (idMapping : IdMapping) (queueSize : ℕ) (d peer : Lin2CanData C)
    (frame : CanFrame) : Prop :=
  ∀ d' queued, lin2canSend idMapping queueSize frame d = .ok d' →
    d'.outgoingFrameQueue = d.outgoingFrameQueue ++ [queued] →
      ∃ callback arrived, linIncomingCb idMapping peer queued = some (callback, arrived) ∧
        arrived.id = frame.id ∧ arrived.data.take frame.dlc = frame.data.take frame.dlc

/-! ## The first byte -/

/-- What holds of the 256 numbers holds of every byte. -/
theorem forall_byte {P : UInt8 → Prop} (h : ∀ n < 256, P (UInt8.ofNat n)) (x : UInt8) : P x := by
  have hx := h x.toNat x.toNat_lt
  rwa [UInt8.ofNat_toNat] at hx

/-- The index goes into the first two bits and leaves the others alone. -/
theorem merged_byte (x : UInt8) (i : Fin translatableAddressesLen) :
    (x ||| UInt8.ofNat i <<< 6) &&& 0x3F = x &&& 0x3F := by
  have hall : ∀ n < 256, ∀ j : Fin 4,
      (UInt8.ofNat n ||| UInt8.ofNat j <<< 6) &&& 0x3F = UInt8.ofNat n &&& 0x3F := by
    decide +kernel
  revert x
  exact forall_byte fun n hn => hall n hn i

/-- A byte is its last six bits if the first two are free. -/
theorem low_bits_eq_iff (x : UInt8) : x &&& 0x3F = x ↔ x < 0x40 := by
  have hall : ∀ n < 256, UInt8.ofNat n &&& 0x3F = UInt8.ofNat n ↔ UInt8.ofNat n < 0x40 := by
    decide +kernel
  revert x
  exact forall_byte hall

/-- The padding has no room: it reads as the last index. -/
theorem merged_padding (i : Fin translatableAddressesLen) :
    Fin.ofNat translatableAddressesLen (((0xFF : UInt8) ||| UInt8.ofNat i <<< 6) >>> 6).toNat =
      Fin.last 3 := by
  have hall : ∀ j : Fin 4, Fin.ofNat 4 (((0xFF : UInt8) ||| UInt8.ofNat j <<< 6) >>> 6).toNat =
      Fin.last 3 := by
    decide
  exact hall i

/-! ## What is queued and what arrives -/

/-- `map_from_can_id` finds a place of the id or says there is none. -/
theorem mapFromCanId_cases (idMapping : IdMapping) (canId : UInt32) :
    (mapFromCanId idMapping canId = 0xFF ∧ ∀ i, idMapping i ≠ canId) ∨
      ∃ i, idMapping i = canId ∧ mapFromCanId idMapping canId = UInt8.ofNat i := by
  unfold mapFromCanId
  split
  · rename_i i hi
    have heq := List.find?_some hi
    exact .inr ⟨i, of_decide_eq_true heq, rfl⟩
  · rename_i hnone
    rw [List.find?_eq_none] at hnone
    refine .inl ⟨rfl, fun i heq => ?_⟩
    exact hnone i (List.mem_finRange i) (decide_eq_true heq)

/-- The bytes on the bus before the index is merged in: a first byte, which
is the frame's own if it has one, and seven more that begin with the
others. -/
theorem ClassicFrame.padded_eq (f : ClassicFrame) :
    ∃ first rest, f.data.take f.dlc ++ List.replicate (8 - f.dlc) 0xFF = first :: rest ∧
      rest.length = 7 ∧
        ((f.dlc = 0 ∧ first = 0xFF) ∨
          1 ≤ f.dlc ∧ first = f.data.getD 0 0 ∧
            f.data.take f.dlc = first :: rest.take (f.dlc - 1)) := by
  have hlen := f.length_data
  have hdlc := f.dlc_le
  rcases Nat.eq_zero_or_pos f.dlc with hzero | hpos
  · exact ⟨0xFF, List.replicate 7 0xFF, by rw [hzero]; rfl, rfl, .inl ⟨hzero, rfl⟩⟩
  · obtain ⟨first, tail, hdata⟩ : ∃ first tail, f.data = first :: tail :=
      List.exists_cons_of_length_pos (by omega)
    rw [hdata, List.length_cons] at hlen
    obtain ⟨n, hn⟩ : ∃ n, f.dlc = n + 1 := Nat.exists_eq_add_of_le' hpos
    have htail : (tail.take n).length = n := by
      rw [List.length_take]
      omega
    refine ⟨first, tail.take n ++ List.replicate (8 - f.dlc) 0xFF, ?_, ?_,
      .inr ⟨hpos, ?_, ?_⟩⟩
    · rw [hdata, hn, List.take_succ_cons, List.cons_append]
    · rw [List.length_append, htail, List.length_replicate]
      omega
    · rw [hdata, List.getD_cons_zero]
    · have hrest : List.take n (tail.take n ++ List.replicate (8 - f.dlc) 0xFF) = tail.take n := by
        rw [List.take_append_of_le_length htail.ge, List.take_take, Nat.min_self]
      rw [hdata, hn, List.take_succ_cons, Nat.add_sub_cancel, ← hn, hrest]

/-- What the peer makes of a queued frame. -/
theorem linIncomingCb_translate {peer : Lin2CanData C}
    (hpeer : ∀ i, (peer.incomingCallbacks i).isSome) (idMapping : IdMapping)
    (outgoingId mappedId : UInt8) {frame : CanFrame} {first : UInt8} {rest : List UInt8}
    (hpadded : frame.data.take frame.dlc ++ List.replicate (8 - frame.dlc) 0xFF = first :: rest)
    (hrest : rest.length = 7) :
    ∃ callback, linIncomingCb idMapping peer (translate outgoingId mappedId frame) =
      some (callback,
        ⟨idMapping (Fin.ofNat _ ((first ||| mappedId <<< 6) >>> 6).toNat), 8,
          ((first ||| mappedId <<< 6) &&& 0x3F) :: rest⟩) := by
  obtain ⟨callback, hcallback⟩ := Option.isSome_iff_exists.mp
    (hpeer (Fin.ofNat _ ((first ||| mappedId <<< 6) >>> 6).toNat))
  refine ⟨callback, ?_⟩
  have hdata : (translate outgoingId mappedId frame).data = (first ||| mappedId <<< 6) :: rest := by
    unfold translate
    simp only [hpadded, List.getD_cons_zero, List.set_cons_zero]
  have hlen : (translate outgoingId mappedId frame).len = 8 := rfl
  have htake : List.take 8 ((first ||| mappedId <<< 6) :: rest) = (first ||| mappedId <<< 6) :: rest :=
    List.take_of_length_le (by rw [List.length_cons]; omega)
  unfold linIncomingCb
  simp only [hdata, hlen, List.getD_cons_zero, hcallback, htake]
  simp

/-- Sending a frame of one of the four ids, where there is room. -/
theorem lin2canSend_eq_ok {idMapping : IdMapping} {queueSize : ℕ} {frame : CanFrame}
    {d d' : Lin2CanData C} :
    lin2canSend idMapping queueSize frame d = .ok d' ↔
      mapFromCanId idMapping frame.id ≠ 0xFF ∧ d.outgoingFrameQueue.length < queueSize ∧
        d' = { d with
          outgoingFrameQueue := d.outgoingFrameQueue ++
            [translate d.outgoingId (mapFromCanId idMapping frame.id) frame] } := by
  unfold lin2canSend
  constructor
  · intro h
    simp only at h
    split_ifs at h with hunmapped hroom
    exact ⟨hunmapped, hroom, (Except.ok.inj h).symm⟩
  · rintro ⟨hmapped, hroom, rfl⟩
    simp only [if_neg hmapped, if_pos hroom]

/-- **What a frame that is taken has to be**, byte by byte. -/
theorem representedBy_iff_of_mapped {idMapping : IdMapping} {queueSize : ℕ} {d peer : Lin2CanData C}
    (hpeer : ∀ i, (peer.incomingCallbacks i).isSome) (f : ClassicFrame)
    {i : Fin translatableAddressesLen} (hid : idMapping i = f.id)
    (hmapped : mapFromCanId idMapping f.id = UInt8.ofNat i)
    (hroom : d.outgoingFrameQueue.length < queueSize) :
    RepresentedBy idMapping queueSize d peer f.toCanFrame ↔
      (f.dlc = 0 ∧ idMapping (Fin.last 3) = f.id) ∨ 1 ≤ f.dlc ∧ f.data.getD 0 0 < 0x40 := by
  obtain ⟨first, rest, hpadded, hrest, hfirst⟩ := f.padded_eq
  obtain ⟨callback, hincoming⟩ :=
    linIncomingCb_translate hpeer idMapping d.outgoingId (UInt8.ofNat i) hpadded hrest
  -- there is one frame it can have queued, and one it can arrive as
  have hrepresented : RepresentedBy idMapping queueSize d peer f.toCanFrame ↔
      idMapping (Fin.ofNat _ ((first ||| UInt8.ofNat i <<< 6) >>> 6).toNat) = f.id ∧
        List.take f.dlc (((first ||| UInt8.ofNat i <<< 6) &&& 0x3F) :: rest) =
          f.data.take f.dlc := by
    constructor
    · intro h
      obtain ⟨_, arrived, harrived, hsame⟩ := h _ (translate d.outgoingId (UInt8.ofNat i) f.toCanFrame)
        (lin2canSend_eq_ok.mpr ⟨hmapped ▸ ofNat_ne_unmapped i, hroom, rfl⟩) (by rw [hmapped])
      rw [hincoming, Option.some.injEq, Prod.mk.injEq] at harrived
      obtain ⟨-, rfl⟩ := harrived
      exact hsame
    · intro hsame d' queued hsend hqueued
      obtain ⟨-, -, rfl⟩ := lin2canSend_eq_ok.mp hsend
      have hlast := List.append_cancel_left hqueued
      rw [List.cons.injEq, hmapped] at hlast
      obtain ⟨rfl, -⟩ := hlast
      exact ⟨callback, _, hincoming, hsame⟩
  rw [hrepresented]
  rcases hfirst with ⟨hzero, rfl⟩ | ⟨hpos, rfl, htake⟩
  · rw [merged_padding]
    simp [hzero]
  · obtain ⟨n, hn⟩ : ∃ n, f.dlc = n + 1 := Nat.exists_eq_add_of_le' hpos
    rw [htake, hn, List.take_succ_cons, Nat.add_sub_cancel, List.cons.injEq, merged_byte,
      low_bits_eq_iff]
    constructor
    · rintro ⟨-, hlow, -⟩
      exact .inr ⟨Nat.le_add_left 1 n, hlow⟩
    · rintro (⟨hzero, -⟩ | ⟨-, hlow⟩)
      · omega
      · refine ⟨?_, hlow, rfl⟩
        rw [(first_byte hlow i).1, fin_ofNat_ofNat]
        exact hid

/-- **Which frames the format carries.** A classic frame is refused or
arrives as it was sent exactly if its id is not one of the four, there is
no room in the queue, it has a first byte with the first two bits free, or
it is empty and of the last id. -/
theorem representedBy_iff {idMapping : IdMapping} {queueSize : ℕ} {d peer : Lin2CanData C}
    (hpeer : ∀ i, (peer.incomingCallbacks i).isSome) (f : ClassicFrame) :
    RepresentedBy idMapping queueSize d peer f.toCanFrame ↔
      (∀ i, idMapping i ≠ f.id) ∨ queueSize ≤ d.outgoingFrameQueue.length ∨
        (f.dlc = 0 ∧ idMapping (Fin.last 3) = f.id) ∨ 1 ≤ f.dlc ∧ f.data.getD 0 0 < 0x40 := by
  rcases mapFromCanId_cases idMapping f.id with ⟨hunmapped, hnone⟩ | ⟨i, hid, hmapped⟩
  · -- refused for its id
    refine iff_of_true (fun d' queued hsend => ?_) (.inl hnone)
    exact absurd hunmapped (lin2canSend_eq_ok.mp hsend).1
  · rcases Nat.lt_or_ge d.outgoingFrameQueue.length queueSize with hroom | hfull
    · rw [representedBy_iff_of_mapped hpeer f hid hmapped hroom]
      constructor
      · exact fun h => .inr (.inr h)
      · rintro (hnone | hfull | h)
        · exact absurd hid (hnone i)
        · omega
        · exact h
    · -- refused for want of room
      refine iff_of_true (fun d' queued hsend => ?_) (.inr (.inl hfull))
      exact absurd (lin2canSend_eq_ok.mp hsend).2.1 (Nat.not_lt.mpr hfull)

/-- A node of the default configuration with a callback for every id. -/
def listening : Lin2CanData Unit := ⟨fun _ => some (), [], 0x3C, 0x3D⟩

/-- A frame of the first id with the first two bits in use. -/
def tallFrame : ClassicFrame where
  id := 0x80
  dlc := 1
  data := [0x40, 0, 0, 0, 0, 0, 0, 0]
  dlc_le := Nat.le_add_left 1 7
  length_data := rfl

/-- The frame is not represented: it has a byte, and that is 0x40. -/
theorem representedBy_iff_tallFrame :
    RepresentedBy defaultConfig.idMapping 32 listening listening tallFrame.toCanFrame ↔
      (∀ i, defaultConfig.idMapping i ≠ tallFrame.id) ∨ 32 ≤ listening.outgoingFrameQueue.length ∨
        (tallFrame.dlc = 0 ∧ defaultConfig.idMapping (Fin.last 3) = tallFrame.id) ∨
          1 ≤ tallFrame.dlc ∧ tallFrame.data.getD 0 0 < 0x40 :=
  representedBy_iff (fun _ => rfl) tallFrame

/-- **A frame is taken and arrives under another id**: 0x80 with the first
byte 0x40 is delivered as 0x180 with the first byte 0. -/
theorem not_representedBy_tallFrame :
    ¬ RepresentedBy defaultConfig.idMapping 32 listening listening tallFrame.toCanFrame := by
  intro h
  have hsend : lin2canSend defaultConfig.idMapping 32 tallFrame.toCanFrame listening =
      .ok { listening with outgoingFrameQueue := [⟨0x3C, 8, [0x40, 255, 255, 255, 255, 255, 255, 255]⟩] } := by
    rfl
  obtain ⟨callback, arrived, harrived, hid, -⟩ := h _ _ hsend rfl
  have hother : linIncomingCb defaultConfig.idMapping listening
      ⟨0x3C, 8, [0x40, 255, 255, 255, 255, 255, 255, 255]⟩ =
        some ((), ⟨0x180, 8, [0, 255, 255, 255, 255, 255, 255, 255]⟩) := by
    rfl
  rw [hother, Option.some.injEq, Prod.mk.injEq] at harrived
  obtain ⟨-, rfl⟩ := harrived
  revert hid
  decide

end Lin

end Ardep
