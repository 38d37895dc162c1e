import Mathlib.Data.List.FinRange
import Mathlib.Logic.Function.Basic
import Mathlib.Tactic.SplitIfs
import Mathlib.Tactic.ByContra
import Ardep.Uds.Err
/-!
# CAN over LIN — the lin2can driver and the LIN layer below it

The lin2can driver carries CAN frames of four ids over the two frame ids
of a LIN diagnostic exchange: which of the four an id is goes into the
first two bits of the data, where ISO-TP leaves room. Outgoing frames wait
in a queue until the LIN layer asks for one; incoming ones are handed to
the callback registered for their id.

The LIN layer keeps a table of frame ids, each incoming or outgoing, and
is driven by the commander's schedule. Here the table holds the two
entries of the driver, and `C` is the type of receive callbacks.
-/

namespace Ardep

namespace Lin

open Uds

/-- `ENOTSUP`. -/
abbrev ENOTSUP : ℤ := 134
/-- `EEXIST`. -/
abbrev EEXIST : ℤ := 17
/-- `ENOMSG`, what a full message queue returns. -/
abbrev ENOMSG : ℤ := 35

/-- `struct can_frame`, less the flags: lin2can does not look at those of a
frame it is given, and hands over frames without any. -/
structure CanFrame where
  id : UInt32
  dlc : ℕ
  data : List UInt8
  deriving DecidableEq, Repr

/-- `struct can_filter`. -/
structure CanFilter where
  id : UInt32
  mask : UInt32
  flags : UInt8
  deriving DecidableEq, Repr

/-- `struct lin_frame`, less the checksum type. -/
structure LinFrame where
  id : UInt8
  len : ℕ
  data : List UInt8
  deriving DecidableEq, Repr

/-! ## The driver -/

/-- `TRANSLATABLE_ADDRESSES_LEN`. -/
abbrev translatableAddressesLen : ℕ := 4

/-- `id_mapping`, set by the configuration. -/
abbrev IdMapping : Type := Fin translatableAddressesLen → UInt32

/-- `struct lin2can_data`. -/
structure Lin2CanData (C : Type) where
  incomingCallbacks : Fin translatableAddressesLen → Option C
  outgoingFrameQueue : List LinFrame
  outgoingId : UInt8
  incomingId : UInt8

variable {C : Type}

/-- `map_from_can_id`. -/
def mapFromCanId (idMapping : IdMapping) (canId : UInt32) : UInt8 :=
  match (List.finRange translatableAddressesLen).find? fun i => idMapping i = canId with
  | some i => UInt8.ofNat i
  | none => 0xFF

/-- `CAN_STD_ID_MASK`. -/
abbrev canStdIdMask : UInt32 := 0x7FF
/-- `CAN_EXT_ID_MASK`. -/
abbrev canExtIdMask : UInt32 := 0x1FFFFFFF

/-- `lin2can_add_rx_filter`: the id of the filter, or an error. A wildcard
takes all four callbacks and has an id of its own. -/
def lin2canAddRxFilter (idMapping : IdMapping) (callback : C) (filter : CanFilter)
    (d : Lin2CanData C) : ℤ × Lin2CanData C :=
  if filter.mask &&& 0x7FF = 0 then
    if ∃ i, (d.incomingCallbacks i).isSome then (-ENOSPC, d)
    else (translatableAddressesLen, { d with incomingCallbacks := fun _ => some callback })
  else if filter.mask ≠ canStdIdMask ∧ filter.mask ≠ canExtIdMask then (-ENOTSUP, d)
  else
    let mappedId := mapFromCanId idMapping filter.id
    let i : Fin translatableAddressesLen := Fin.ofNat _ mappedId.toNat
    if mappedId = 0xFF then (-ENOTSUP, d)
    else if (d.incomingCallbacks i).isSome then (-ENOSPC, d)
    else
      (mappedId.toNat,
        { d with incomingCallbacks := Function.update d.incomingCallbacks i (some callback) })

/-- The LIN frame for a CAN frame: padded with 0xFF to eight bytes, with
the mapped id in the first two bits. -/
def translate (outgoingId mappedId : UInt8) (frame : CanFrame) : LinFrame :=
  let data := frame.data.take frame.dlc ++ List.replicate (8 - frame.dlc) 0xFF
  ⟨outgoingId, 8, data.set 0 (data.getD 0 0 ||| mappedId <<< 6)⟩

/-- `lin2can_send`, with `k_msgq_put` on a queue of the given size. -/
def lin2canSend (idMapping : IdMapping) (queueSize : ℕ) (frame : CanFrame) (d : Lin2CanData C) :
    Except ℤ (Lin2CanData C) :=
  let mappedId := mapFromCanId idMapping frame.id
  if mappedId = 0xFF then .error (-EINVAL)
  else if d.outgoingFrameQueue.length < queueSize then
    .ok { d with
      outgoingFrameQueue := d.outgoingFrameQueue ++ [translate d.outgoingId mappedId frame] }
  else .error (-ENOMSG)

/-- `lin_outgoing_cb`: the next frame of the queue, if there is one. -/
def linOutgoingCb (d : Lin2CanData C) : Option (LinFrame × Lin2CanData C) :=
  match d.outgoingFrameQueue with
  | [] => none
  | frame :: rest => some (frame, { d with outgoingFrameQueue := rest })

/-- `lin_incoming_cb`: the callback it calls and the frame it calls it
with. -/
def linIncomingCb (idMapping : IdMapping) (d : Lin2CanData C) (frame : LinFrame) :
    Option (C × CanFrame) :=
  let mappedId : Fin translatableAddressesLen := Fin.ofNat _ (frame.data.getD 0 0 >>> 6).toNat
  match d.incomingCallbacks mappedId with
  | none => none
  | some callback =>
    let data := frame.data.take frame.len ++ List.replicate (8 - frame.len) 0
    some (callback, ⟨idMapping mappedId, 8, data.set 0 (frame.data.getD 0 0 &&& 0x3F)⟩)

/-! ## The LIN layer -/

inductive CallbackType where
  | incoming
  | outgoing
  deriving DecidableEq, Repr

/-- `struct abstract_lin_callback_entry_t`. -/
structure CallbackEntry where
  frameId : UInt8
  frameSize : ℕ
  type : CallbackType
  deriving DecidableEq, Repr

/-- `al_register_incoming_cb` and `al_register_outgoing_cb`, with
`allocate_callback`. -/
def alRegister (maxFrameCount : ℕ) (entry : CallbackEntry) (callbacks : List CallbackEntry) :
    Except ℤ (List CallbackEntry) :=
  if entry.frameId > 0x3F ∨ entry.frameSize < 1 ∨ entry.frameSize > 8 then .error (-EINVAL)
  else if callbacks.length ≥ maxFrameCount then .error (-ENOSPC)
  else if ∃ cb ∈ callbacks, cb.frameId = entry.frameId then .error (-EEXIST)
  else .ok (callbacks ++ [entry])

/-- `enum lin_mode`. -/
inductive LinMode where
  | commander
  | responder
  deriving DecidableEq, Repr

/-- A node: the callback table of its LIN layer and its driver. -/
structure Node (C : Type) where
  callbacks : List CallbackEntry
  driver : Lin2CanData C

/-- The frame ids and sizes the configuration sets. -/
structure Config where
  idMapping : IdMapping
  queueSize : ℕ
  maxFrameCount : ℕ
  masterRequestId : UInt8
  slaveResponseId : UInt8

/-- The frame id a node sends on. -/
def Config.outgoingId (cfg : Config) : LinMode → UInt8
  | .commander => cfg.masterRequestId
  | .responder => cfg.slaveResponseId

/-- And the one it receives. -/
def Config.incomingId (cfg : Config) : LinMode → UInt8
  | .commander => cfg.slaveResponseId
  | .responder => cfg.masterRequestId

/-- `lin2can_init`. -/
def lin2canInit (cfg : Config) (mode : LinMode) : Except ℤ (Node C) :=
  match alRegister cfg.maxFrameCount ⟨cfg.incomingId mode, 8, .incoming⟩ [] with
  | .error err => .error err
  | .ok callbacks =>
    match alRegister cfg.maxFrameCount ⟨cfg.outgoingId mode, 8, .outgoing⟩ callbacks with
    | .error err => .error err
    | .ok callbacks =>
      .ok ⟨callbacks, ⟨fun _ => none, [], cfg.outgoingId mode, cfg.incomingId mode⟩⟩

/-- What the LIN layer does in a slot. -/
inductive LinAction where
  | none
  | receive (len : ℕ)
  | send (frame : LinFrame)
  deriving DecidableEq, Repr

/-- The entry of a frame id, as the loops over the table find it. -/
def Node.entry (n : Node C) (frameId : UInt8) : Option CallbackEntry :=
  n.callbacks.find? fun cb => cb.frameId = frameId

/-- `lin_header_callback`: a header is seen on the bus. The length is the
one of the entry, whatever the callback wrote. -/
def linHeaderCallback (n : Node C) (frameId : UInt8) : LinAction × Node C :=
  match n.entry frameId with
  | none => (.none, n)
  | some cb =>
    match cb.type with
    | .incoming => (.receive cb.frameSize, n)
    | .outgoing =>
      match linOutgoingCb n.driver with
      | none => (.none, n)
      | some (frame, driver) => (.send { frame with len := cb.frameSize }, { n with driver := driver })

/-- `lin_rx_callback` without an error: every incoming entry of the frame
id is called. -/
def linRxCallback (idMapping : IdMapping) (n : Node C) (frame : LinFrame) : List CanFrame :=
  (n.callbacks.filter fun cb => cb.frameId = frame.id ∧ cb.type = .incoming).filterMap fun _ =>
    (linIncomingCb idMapping n.driver frame).map Prod.snd

/-- `al_schedule_now` on the commander: what it puts on the bus. An
outgoing frame keeps the id and the length of its entry. -/
def alScheduleNow (n : Node C) (frameId : UInt8) : Except ℤ (LinAction × Node C) :=
  if frameId > 0x3F then .error (-EINVAL)
  else
    match n.entry frameId with
    | none => .error (-EINVAL)
    | some cb =>
      match cb.type with
      | .incoming => .ok (.receive cb.frameSize, n)
      | .outgoing =>
        match linOutgoingCb n.driver with
        | none => .ok (.none, n)
        | some (frame, driver) =>
          .ok (.send { frame with id := cb.frameId, len := cb.frameSize },
            { n with driver := driver })

end Lin

end Ardep
