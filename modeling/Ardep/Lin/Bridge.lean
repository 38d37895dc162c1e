import Ardep.Common.Machine
import Ardep.Lin.Model
/-!
# CAN over LIN — two nodes and the bus between them

A commander and a responder with the same configuration, frames sent on
either side at any time, and slots of the commander's schedule. A slot is
one exchange on a bus that delivers: the frame the sender's queue gives up
reaches the receive callback of the other node.

`delivered_reachable` is the contract of the pair: in both directions,
what arrives is what was accepted, in order and once each, and all of it
once the queue is empty. It rests on the round trip of one frame
(`incoming_translate`) and an invariant that the accepted frames are those
that have arrived and those that wait.
-/

namespace Ardep

namespace Lin

variable {C : Type}

/-- The other node. -/
def LinMode.peer : LinMode → LinMode
  | .commander => .responder
  | .responder => .commander

/-- **A frame the bridge carries**: its id is one of the four, it has one
to eight bytes, and the first two bits are free. -/
structure IsoTpFrame (cfg : Config) extends CanFrame where
  index : Fin translatableAddressesLen
  id_eq : cfg.idMapping index = id
  one_le_dlc : 1 ≤ dlc
  dlc_le : dlc ≤ 8
  length_data : data.length = 8
  first_lt : data.getD 0 0 < 0x40

/-- The frame as it arrives: the same id, the same bytes, padded. -/
def CanFrame.arrives (frame : CanFrame) : CanFrame :=
  ⟨frame.id, 8, frame.data.take frame.dlc ++ List.replicate (8 - frame.dlc) 0xFF⟩

/-- **Both nodes**, with what each has accepted for sending and what its
callbacks have received. -/
structure System (C : Type) where
  node : LinMode → Node C
  accepted : LinMode → List CanFrame
  received : LinMode → List CanFrame

inductive Event (cfg : Config) where
  | send (mode : LinMode) (frame : IsoTpFrame cfg)
  | slot (frameId : UInt8)

/-- `lin2can_send` on one of the nodes. -/
def System.send (cfg : Config) (s : System C) (mode : LinMode) (frame : CanFrame) : System C :=
  match lin2canSend cfg.idMapping cfg.queueSize frame (s.node mode).driver with
  | .error _ => s
  | .ok driver =>
    { s with
      node := Function.update s.node mode { s.node mode with driver := driver }
      accepted := Function.update s.accepted mode (s.accepted mode ++ [frame]) }

/-- A node hands a frame from the bus to its callbacks. -/
def System.arrive (cfg : Config) (s : System C) (mode : LinMode) (frame : LinFrame) : System C :=
  { s with
    received := Function.update s.received mode
      (s.received mode ++ linRxCallback cfg.idMapping (s.node mode) frame) }

/-- **A slot**: the commander schedules a frame id, the responder sees the
header, and a frame sent by one is received by the other. -/
def System.slot (cfg : Config) (s : System C) (frameId : UInt8) : System C :=
  match alScheduleNow (s.node .commander) frameId with
  | .error _ => s
  | .ok (action, commander) =>
    let s := { s with node := Function.update s.node .commander commander }
    match action with
    | .none => s
    | .send frame =>
      let (action, responder) := linHeaderCallback (s.node .responder) frame.id
      let s := { s with node := Function.update s.node .responder responder }
      match action with
      | .receive len => s.arrive cfg .responder { frame with len := len }
      | _ => s
    | .receive len =>
      let (action, responder) := linHeaderCallback (s.node .responder) frameId
      let s := { s with node := Function.update s.node .responder responder }
      match action with
      | .send frame => s.arrive cfg .commander { frame with id := frameId, len := len }
      | _ => s

/-- A node after `lin2can_init`, with a receive callback for every id and
nothing to send. -/
def Installed (cfg : Config) (mode : LinMode) (n : Node C) : Prop :=
  ∃ n₀ : Node C, lin2canInit cfg mode = .ok n₀ ∧ n.callbacks = n₀.callbacks ∧
    n.driver.outgoingId = n₀.driver.outgoingId ∧ n.driver.outgoingFrameQueue = [] ∧
      ∀ i, (n.driver.incomingCallbacks i).isSome

/-- **The bridge.** -/
def bridge (cfg : Config) : Machine (System C) (Event cfg) where
  init s := (∀ mode, Installed cfg mode (s.node mode)) ∧ (∀ mode, s.accepted mode = []) ∧
    ∀ mode, s.received mode = []
  Step s e s' :=
    match e with
    | .send mode frame => s' = s.send cfg mode frame.toCanFrame
    | .slot frameId => s' = s.slot cfg frameId

/-! ## One frame -/

/-- The first two bits carry the index, and taking them away gives the
byte back. -/
theorem first_byte {x : UInt8} (hx : x < 0x40) (i : Fin translatableAddressesLen) :
    (x ||| UInt8.ofNat i <<< 6) >>> 6 = UInt8.ofNat i ∧
      (x ||| UInt8.ofNat i <<< 6) &&& 0x3F = x := by
  have hall : ∀ n < 64, ∀ j : Fin 4,
      (UInt8.ofNat n ||| UInt8.ofNat j <<< 6) >>> 6 = UInt8.ofNat j ∧
        (UInt8.ofNat n ||| UInt8.ofNat j <<< 6) &&& 0x3F = UInt8.ofNat n := by decide +kernel
  have hn : x.toNat < 64 := UInt8.lt_iff_toNat_lt.mp hx
  have hx' : UInt8.ofNat x.toNat = x := UInt8.ofNat_toNat
  have hone := hall x.toNat hn i
  rwa [hx'] at hone

/-- An id of the table is mapped to its place. -/
theorem mapFromCanId_eq {idMapping : IdMapping} (hinj : Function.Injective idMapping)
    (i : Fin translatableAddressesLen) : mapFromCanId idMapping (idMapping i) = UInt8.ofNat i := by
  unfold mapFromCanId
  split
  · rename_i j hj
    have heq := List.find?_some hj
    rw [hinj (of_decide_eq_true heq)]
  · rename_i hnone
    rw [List.find?_eq_none] at hnone
    exact absurd (hnone i (List.mem_finRange i)) (by simp)

/-- A frame that can be sent has an index of its own. -/
theorem ofNat_ne_unmapped (i : Fin translatableAddressesLen) : UInt8.ofNat i ≠ 0xFF := by
  have hall : ∀ j : Fin 4, UInt8.ofNat j ≠ 0xFF := by decide
  exact hall i

theorem fin_ofNat_ofNat (i : Fin translatableAddressesLen) :
    Fin.ofNat translatableAddressesLen (UInt8.ofNat i).toNat = i := by
  have hall : ∀ j : Fin 4, Fin.ofNat 4 (UInt8.ofNat j).toNat = j := by decide
  exact hall i

/-- The bytes on the bus. -/
def IsoTpFrame.padded {cfg : Config} (f : IsoTpFrame cfg) : List UInt8 :=
  f.data.take f.dlc ++ List.replicate (8 - f.dlc) 0xFF

variable {cfg : Config}

theorem IsoTpFrame.length_padded (f : IsoTpFrame cfg) : f.padded.length = 8 := by
  unfold IsoTpFrame.padded
  have hdlc := f.dlc_le
  have hlen := f.length_data
  rw [List.length_append, List.length_take, List.length_replicate]
  omega

/-- The first of them is the first of the frame. -/
theorem IsoTpFrame.padded_eq (f : IsoTpFrame cfg) :
    ∃ rest, f.padded = f.data.getD 0 0 :: rest ∧ rest.length = 7 := by
  have hlen := f.length_padded
  obtain ⟨first, tail, hdata⟩ : ∃ first tail, f.data = first :: tail := by
    have hpos := f.length_data
    exact List.exists_cons_of_length_pos (by omega)
  obtain ⟨n, hn⟩ : ∃ n, f.dlc = n + 1 := Nat.exists_eq_add_of_le' f.one_le_dlc
  refine ⟨tail.take n ++ List.replicate (8 - f.dlc) 0xFF, ?_, ?_⟩
  · unfold IsoTpFrame.padded
    rw [hdata, hn, List.take_succ_cons, List.cons_append]
    rfl
  · have htail : tail.length = 7 := by
      have htotal := f.length_data
      rw [hdata, List.length_cons] at htotal
      omega
    have hdlc := f.dlc_le
    rw [List.length_append, List.length_take, List.length_replicate]
    omega

/-- **The round trip of one frame**: what the receiver makes of the LIN
frame is the frame as it should arrive, under the id it was sent with. -/
theorem incoming_translate (hinj : Function.Injective cfg.idMapping) {d : Lin2CanData C}
    (hcallbacks : ∀ i, (d.incomingCallbacks i).isSome) (f : IsoTpFrame cfg)
    (outgoingId id : UInt8) :
    (linIncomingCb cfg.idMapping d
        { translate outgoingId (mapFromCanId cfg.idMapping f.id) f.toCanFrame with
          id := id, len := 8 }).map Prod.snd =
      some f.toCanFrame.arrives := by
  obtain ⟨rest, hpadded, hrest⟩ := f.padded_eq
  obtain ⟨hshift, hmask⟩ := first_byte f.first_lt f.index
  have hmapped : mapFromCanId cfg.idMapping f.id = UInt8.ofNat f.index := by
    rw [← f.id_eq]
    exact mapFromCanId_eq hinj f.index
  have hdata : (translate outgoingId (mapFromCanId cfg.idMapping f.id) f.toCanFrame).data =
      (f.data.getD 0 0 ||| UInt8.ofNat f.index <<< 6) :: rest := by
    unfold translate
    have heq : f.data.take f.dlc ++ List.replicate (8 - f.dlc) 0xFF = f.data.getD 0 0 :: rest :=
      hpadded
    simp only [heq, hmapped]
    rfl
  have harrives : f.toCanFrame.arrives = ⟨f.id, 8, f.data.getD 0 0 :: rest⟩ := by
    unfold CanFrame.arrives
    rw [← hpadded]
    rfl
  obtain ⟨callback, hcallback⟩ := Option.isSome_iff_exists.mp (hcallbacks f.index)
  unfold linIncomingCb
  simp only [hdata, List.getD_cons_zero, hshift, hmask, fin_ofNat_ofNat, hcallback, f.id_eq]
  rw [harrives]
  have htake : List.take 8 ((f.data.getD 0 0 ||| UInt8.ofNat f.index <<< 6) :: rest) =
      (f.data.getD 0 0 ||| UInt8.ofNat f.index <<< 6) :: rest :=
    List.take_of_length_le (by rw [List.length_cons]; omega)
  rw [htake]
  simp

/-! ## The wiring -/

/-- **A node of the bridge**: its table has the two entries, and its
callbacks are there. -/
structure Wired (cfg : Config) (mode : LinMode) (n : Node C) : Prop where
  callbacks : n.callbacks =
    [⟨cfg.incomingId mode, 8, .incoming⟩, ⟨cfg.outgoingId mode, 8, .outgoing⟩]
  distinct : cfg.incomingId mode ≠ cfg.outgoingId mode
  incomingId_le : ¬ cfg.incomingId mode > 0x3F
  outgoingId_le : ¬ cfg.outgoingId mode > 0x3F
  outgoingId : n.driver.outgoingId = cfg.outgoingId mode
  registered : ∀ i, (n.driver.incomingCallbacks i).isSome

section Wiring

variable {mode : LinMode} {n : Node C} {callbacks callbacks' : List CallbackEntry}
  {entry : CallbackEntry} {maxFrameCount : ℕ}

/-- What a successful registration has checked. -/
theorem alRegister_eq_ok (h : alRegister maxFrameCount entry callbacks = .ok callbacks') :
    ¬ entry.frameId > 0x3F ∧ (∀ cb ∈ callbacks, cb.frameId ≠ entry.frameId) ∧
      callbacks' = callbacks ++ [entry] := by
  unfold alRegister at h
  split_ifs at h with hinvalid hspace hexists
  refine ⟨fun hid => hinvalid (.inl hid), fun cb hcb heq => hexists ⟨cb, hcb, heq⟩, ?_⟩
  exact (Except.ok.inj h).symm

theorem wired_of_installed (h : Installed cfg mode n) : Wired cfg mode n := by
  obtain ⟨n₀, hinit, hcallbacks, hout, -, hregistered⟩ := h
  unfold lin2canInit at hinit
  split at hinit
  · cases hinit
  · rename_i callbacks hin
    split at hinit
    · cases hinit
    · rename_i callbacks' hout'
      obtain rfl := Except.ok.inj hinit
      obtain ⟨hinle, -, rfl⟩ := alRegister_eq_ok hin
      obtain ⟨houtle, hdistinct, rfl⟩ := alRegister_eq_ok hout'
      exact ⟨hcallbacks, hdistinct _ List.mem_cons_self, hinle, houtle, hout, hregistered⟩

/-- The driver may be changed but for its callbacks and its id. -/
theorem Wired.driver (h : Wired cfg mode n) {queue : List LinFrame} :
    Wired cfg mode { n with driver := { n.driver with outgoingFrameQueue := queue } } :=
  ⟨h.callbacks, h.distinct, h.incomingId_le, h.outgoingId_le, h.outgoingId, h.registered⟩

theorem Wired.entry_incoming (h : Wired cfg mode n) :
    n.entry (cfg.incomingId mode) = some ⟨cfg.incomingId mode, 8, .incoming⟩ := by
  unfold Node.entry
  rw [h.callbacks, List.find?_cons_of_pos (by simp)]

theorem Wired.entry_outgoing (h : Wired cfg mode n) :
    n.entry (cfg.outgoingId mode) = some ⟨cfg.outgoingId mode, 8, .outgoing⟩ := by
  unfold Node.entry
  rw [h.callbacks, List.find?_cons_of_neg (by simpa using h.distinct),
    List.find?_cons_of_pos (by simp)]

theorem Wired.entry_other (h : Wired cfg mode n) {frameId : UInt8}
    (hin : cfg.incomingId mode ≠ frameId) (hout : cfg.outgoingId mode ≠ frameId) :
    n.entry frameId = none := by
  unfold Node.entry
  rw [h.callbacks, List.find?_cons_of_neg (by simpa using hin),
    List.find?_cons_of_neg (by simpa using hout), List.find?_nil]

/-- A header of the id a node receives. -/
theorem Wired.header_incoming (h : Wired cfg mode n) :
    linHeaderCallback n (cfg.incomingId mode) = (.receive 8, n) := by
  unfold linHeaderCallback
  rw [h.entry_incoming]

/-- A header of the id it sends on. -/
theorem Wired.header_outgoing (h : Wired cfg mode n) :
    linHeaderCallback n (cfg.outgoingId mode) =
      match n.driver.outgoingFrameQueue with
      | [] => (.none, n)
      | frame :: rest =>
        (.send { frame with len := 8 },
          { n with driver := { n.driver with outgoingFrameQueue := rest } }) := by
  unfold linHeaderCallback linOutgoingCb
  rw [h.entry_outgoing]
  cases n.driver.outgoingFrameQueue <;> rfl

/-- The schedule of the commander, likewise. -/
theorem Wired.schedule_incoming (h : Wired cfg mode n) :
    alScheduleNow n (cfg.incomingId mode) = .ok (.receive 8, n) := by
  unfold alScheduleNow
  rw [if_neg h.incomingId_le, h.entry_incoming]

theorem Wired.schedule_outgoing (h : Wired cfg mode n) :
    alScheduleNow n (cfg.outgoingId mode) =
      match n.driver.outgoingFrameQueue with
      | [] => .ok (.none, n)
      | frame :: rest =>
        .ok (.send { frame with id := cfg.outgoingId mode, len := 8 },
          { n with driver := { n.driver with outgoingFrameQueue := rest } }) := by
  unfold alScheduleNow linOutgoingCb
  rw [if_neg h.outgoingId_le, h.entry_outgoing]
  cases n.driver.outgoingFrameQueue <;> rfl

theorem Wired.schedule_other (h : Wired cfg mode n) {frameId : UInt8}
    (hin : cfg.incomingId mode ≠ frameId) (hout : cfg.outgoingId mode ≠ frameId) :
    ∃ err, alScheduleNow n frameId = .error err := by
  unfold alScheduleNow
  rw [h.entry_other hin hout]
  split_ifs
  · exact ⟨_, rfl⟩
  · exact ⟨_, rfl⟩

/-- **A frame of the id a node receives is received once.** -/
theorem Wired.rx (h : Wired cfg mode n) (hinj : Function.Injective cfg.idMapping)
    (f : IsoTpFrame cfg) (outgoingId : UInt8) :
    linRxCallback cfg.idMapping n
        { translate outgoingId (mapFromCanId cfg.idMapping f.id) f.toCanFrame with
          id := cfg.incomingId mode, len := 8 } =
      [f.toCanFrame.arrives] := by
  unfold linRxCallback
  rw [h.callbacks, List.filter_cons_of_pos (by simp), List.filter_cons_of_neg (by simp),
    List.filter_nil, List.filterMap_cons, List.filterMap_nil, incoming_translate hinj h.registered]

end Wiring

/-! ## The run -/

/-- The frame on its way. -/
def IsoTpFrame.onBus (f : IsoTpFrame cfg) (mode : LinMode) : LinFrame :=
  translate (cfg.outgoingId mode) (mapFromCanId cfg.idMapping f.id) f.toCanFrame

/-- **One direction**: the frames accepted are those that have arrived and
those that wait in the queue, in this order. -/
def InOrder (cfg : Config) (s : System C) (mode : LinMode) : Prop :=
  ∃ arrived waiting : List (IsoTpFrame cfg),
    s.accepted mode = (arrived ++ waiting).map (·.toCanFrame) ∧
      (s.node mode).driver.outgoingFrameQueue = waiting.map (·.onBus mode) ∧
        s.received mode.peer = arrived.map (·.toCanFrame.arrives)

/-- The invariant. -/
structure Carrying (cfg : Config) (s : System C) : Prop where
  wired : ∀ mode, Wired cfg mode (s.node mode)
  inOrder : ∀ mode, InOrder cfg s mode

section Runs

variable {s s' : System C} {mode : LinMode}

@[simp] theorem LinMode.peer_peer (mode : LinMode) : mode.peer.peer = mode := by
  cases mode <;> rfl

theorem LinMode.peer_injective {mode other : LinMode} (h : other.peer = mode.peer) :
    other = mode := by
  rw [← other.peer_peer, h, mode.peer_peer]

theorem Config.incomingId_peer (cfg : Config) (mode : LinMode) :
    cfg.incomingId mode.peer = cfg.outgoingId mode := by
  cases mode <;> rfl

/-- A frame that can be sent is accepted where there is room. -/
theorem lin2canSend_eq (hinj : Function.Injective cfg.idMapping) (f : IsoTpFrame cfg)
    (d : Lin2CanData C) :
    lin2canSend cfg.idMapping cfg.queueSize f.toCanFrame d =
      if d.outgoingFrameQueue.length < cfg.queueSize then
        .ok { d with outgoingFrameQueue := d.outgoingFrameQueue ++
          [translate d.outgoingId (mapFromCanId cfg.idMapping f.id) f.toCanFrame] }
      else .error (-ENOMSG) := by
  have hmapped : mapFromCanId cfg.idMapping f.id ≠ 0xFF := by
    rw [← f.id_eq, mapFromCanId_eq hinj]
    exact ofNat_ne_unmapped _
  unfold lin2canSend
  simp only [hmapped, if_false]

/-- **Sending** puts a frame behind those that wait. -/
theorem carrying_send (hinj : Function.Injective cfg.idMapping) (h : Carrying cfg s)
    (f : IsoTpFrame cfg) : Carrying cfg (s.send cfg mode f.toCanFrame) := by
  unfold System.send
  rw [lin2canSend_eq hinj]
  split_ifs with hroom
  swap
  · exact h
  refine ⟨fun other => ?_, fun other => ?_⟩
  · by_cases hother : other = mode
    · rw [hother]
      simp only [Function.update_self]
      exact (h.wired mode).driver
    · simp only [Function.update_of_ne hother]
      exact h.wired other
  · obtain ⟨arrived, waiting, haccepted, hqueue, hreceived⟩ := h.inOrder other
    by_cases hother : other = mode
    · subst hother
      refine ⟨arrived, waiting ++ [f], ?_, ?_, hreceived⟩
      · simp only [Function.update_self, haccepted]
        rw [← List.append_assoc, List.map_append, List.map_append, List.map_append]
        rfl
      · simp only [Function.update_self, hqueue, (h.wired other).outgoingId]
        rw [List.map_append]
        rfl
    · refine ⟨arrived, waiting, ?_, ?_, hreceived⟩
      · simp only [Function.update_of_ne hother]
        exact haccepted
      · simp only [Function.update_of_ne hother]
        exact hqueue

/-- The system after the first waiting frame of a node has arrived. -/
def System.carried (cfg : Config) (s : System C) (mode : LinMode) (frame : LinFrame)
    (rest : List LinFrame) : System C where
  node := Function.update s.node mode
    { s.node mode with driver := { (s.node mode).driver with outgoingFrameQueue := rest } }
  accepted := s.accepted
  received := Function.update s.received mode.peer (s.received mode.peer ++
    linRxCallback cfg.idMapping (s.node mode.peer) { frame with id := cfg.outgoingId mode, len := 8 })

/-- **A slot** carries the first waiting frame of the node that sends on its
id, and does nothing else. -/
theorem slot_eq (h : ∀ mode, Wired cfg mode (s.node mode)) (mode : LinMode) :
    s.slot cfg (cfg.outgoingId mode) =
      match (s.node mode).driver.outgoingFrameQueue with
      | [] => s
      | frame :: rest => s.carried cfg mode frame rest := by
  cases mode with
  | commander =>
    unfold System.slot
    rw [(h .commander).schedule_outgoing]
    cases (s.node .commander).driver.outgoingFrameQueue with
    | nil => simp only [Function.update_eq_self]
    | cons frame rest =>
      have hpeer : cfg.outgoingId .commander = cfg.incomingId .responder := rfl
      have hne : LinMode.responder ≠ .commander := by decide
      -- the responder receives, and its node is the one it was
      have hself : ∀ n, Function.update (Function.update s.node .commander n) .responder
          (s.node .responder) = Function.update s.node .commander n := by
        intro n
        rw [Function.update_comm hne.symm, Function.update_eq_self]
      simp only [Function.update_of_ne hne, hpeer, (h .responder).header_incoming]
      unfold System.arrive System.carried
      simp only [hself, Function.update_of_ne hne]
      rfl
  | responder =>
    unfold System.slot
    have hpeer : cfg.outgoingId .responder = cfg.incomingId .commander := rfl
    have hne : LinMode.responder ≠ .commander := by decide
    rw [hpeer, (h .commander).schedule_incoming]
    simp only [Function.update_eq_self]
    rw [← hpeer, (h .responder).header_outgoing]
    cases (s.node .responder).driver.outgoingFrameQueue with
    | nil => simp only [Function.update_eq_self]
    | cons frame rest =>
      unfold System.arrive System.carried
      simp only [Function.update_of_ne hne.symm]
      rfl

/-- **Carrying a frame** moves it from those that wait to those that have
arrived. -/
theorem carrying_carried (hinj : Function.Injective cfg.idMapping) (h : Carrying cfg s)
    {frame : LinFrame} {rest : List LinFrame}
    (hqueue : (s.node mode).driver.outgoingFrameQueue = frame :: rest) :
    Carrying cfg (s.carried cfg mode frame rest) := by
  unfold System.carried
  refine ⟨fun other => ?_, fun other => ?_⟩
  · by_cases hother : other = mode
    · rw [hother]
      simp only [Function.update_self]
      exact (h.wired mode).driver
    · simp only [Function.update_of_ne hother]
      exact h.wired other
  · obtain ⟨arrived, waiting, haccepted, hwaiting, hreceived⟩ := h.inOrder other
    by_cases hother : other = mode
    · subst hother
      rw [hqueue] at hwaiting
      -- the frame is the first that waits
      obtain ⟨f, waiting, rfl, rfl, rfl⟩ := List.map_eq_cons_iff.mp hwaiting.symm
      refine ⟨arrived ++ [f], waiting, ?_, ?_, ?_⟩
      · rw [haccepted, List.append_assoc]
        rfl
      · simp only [Function.update_self]
      · have hrx := (h.wired other.peer).rx hinj f (cfg.outgoingId other)
        rw [cfg.incomingId_peer] at hrx
        simp only [Function.update_self, hreceived]
        rw [List.map_append]
        exact congrArg _ hrx
    · have hpeer : other.peer ≠ mode.peer := fun heq => hother (LinMode.peer_injective heq)
      refine ⟨arrived, waiting, haccepted, ?_, ?_⟩
      · simp only [Function.update_of_ne hother]
        exact hwaiting
      · simp only [Function.update_of_ne hpeer]
        exact hreceived

theorem carrying_slot (hinj : Function.Injective cfg.idMapping) (h : Carrying cfg s)
    (frameId : UInt8) : Carrying cfg (s.slot cfg frameId) := by
  by_cases hid : ∃ mode, cfg.outgoingId mode = frameId
  · obtain ⟨mode, rfl⟩ := hid
    rw [slot_eq h.wired]
    cases hqueue : (s.node mode).driver.outgoingFrameQueue with
    | nil => exact h
    | cons frame rest => exact carrying_carried hinj h hqueue
  · -- nobody sends on this id, and the commander does not schedule it
    have hnone : ∀ mode, cfg.outgoingId mode ≠ frameId := fun mode heq => hid ⟨mode, heq⟩
    obtain ⟨err, herr⟩ := (h.wired .commander).schedule_other (hnone .responder) (hnone .commander)
    unfold System.slot
    rw [herr]
    exact h

/-- **In every reachable state** the bridge is carrying. -/
theorem carrying (hinj : Function.Injective cfg.idMapping) (h : (bridge (C := C) cfg).Reachable s) :
    Carrying cfg s := by
  refine h.invariant (fun s hinit => ?_) fun s e s' hs hstep => ?_
  · obtain ⟨hinstalled, haccepted, hreceived⟩ := hinit
    refine ⟨fun mode => wired_of_installed (hinstalled mode), fun mode => ⟨[], [], ?_, ?_, ?_⟩⟩
    · exact haccepted mode
    · obtain ⟨n₀, -, -, -, hempty, -⟩ := hinstalled mode
      exact hempty
    · exact hreceived mode.peer
  · cases e with
    | send mode frame =>
      obtain rfl : s' = s.send cfg mode frame.toCanFrame := hstep
      exact carrying_send hinj hs frame
    | slot frameId =>
      obtain rfl : s' = s.slot cfg frameId := hstep
      exact carrying_slot hinj hs frameId

/-- **Nothing is lost, duplicated, reordered or renamed**: at every point
of every interleaving of sends and slots, and in both directions, what a
node's callbacks have received is a prefix of what its peer has accepted,
frame by frame as it should arrive, and all of it once the queue is
empty. -/
theorem delivered_reachable (hinj : Function.Injective cfg.idMapping)
    (h : (bridge (C := C) cfg).Reachable s) (mode : LinMode) :
    s.received mode.peer <+: (s.accepted mode).map CanFrame.arrives ∧
      ((s.node mode).driver.outgoingFrameQueue = [] →
        s.received mode.peer = (s.accepted mode).map CanFrame.arrives) := by
  obtain ⟨arrived, waiting, haccepted, hqueue, hreceived⟩ := (carrying hinj h).inOrder mode
  have hall : (s.accepted mode).map CanFrame.arrives =
      s.received mode.peer ++ waiting.map (·.toCanFrame.arrives) := by
    rw [haccepted, hreceived, List.map_append, List.map_append, List.map_map, List.map_map]
    rfl
  refine ⟨?_, fun hempty => ?_⟩
  · rw [hall]
    exact List.prefix_append _ _
  · rw [hempty] at hqueue
    have hnil : waiting = [] := List.map_eq_nil_iff.mp hqueue.symm
    rw [hall, hnil, List.map_nil, List.append_nil]

end Runs

/-- The default configuration. -/
def defaultConfig : Config where
  idMapping i := [0x80, 0x180, 0x01, 0x181].getD i 0
  queueSize := 32
  maxFrameCount := 8
  masterRequestId := 0x3C
  slaveResponseId := 0x3D

/-- Two nodes with the same callback for every id. -/
def freshSystem : System Unit where
  node mode :=
    ⟨[⟨defaultConfig.incomingId mode, 8, .incoming⟩, ⟨defaultConfig.outgoingId mode, 8, .outgoing⟩],
      ⟨fun _ => some (), [], defaultConfig.outgoingId mode, defaultConfig.incomingId mode⟩⟩
  accepted _ := []
  received _ := []

/-- The first frame of an ISO-TP message. -/
def firstFrame : IsoTpFrame defaultConfig where
  id := 0x180
  dlc := 3
  data := [0x02, 0x10, 0x02, 0, 0, 0, 0, 0]
  index := ⟨1, Nat.one_lt_succ_succ 2⟩
  id_eq := rfl
  one_le_dlc := Nat.le_add_left 1 2
  dlc_le := Nat.le_add_right 3 5
  length_data := rfl
  first_lt := UInt8.lt_iff_toNat_lt.mpr (Nat.le_add_left 3 61)

theorem init_freshSystem : (bridge defaultConfig).init freshSystem := by
  refine ⟨fun mode => ?_, fun _ => rfl, fun _ => rfl⟩
  cases mode with
  | commander => exact ⟨_, rfl, rfl, rfl, rfl, fun _ => rfl⟩
  | responder => exact ⟨_, rfl, rfl, rfl, rfl, fun _ => rfl⟩

/-- A single frame of one of the ids. -/
def singleFrame (index : Fin translatableAddressesLen) : IsoTpFrame defaultConfig where
  id := defaultConfig.idMapping index
  dlc := 2
  data := [0x01, 0x3E, 0, 0, 0, 0, 0, 0]
  index := index
  id_eq := rfl
  one_le_dlc := Nat.le_add_left 1 1
  dlc_le := Nat.le_add_right 2 6
  length_data := rfl
  first_lt := UInt8.lt_iff_toNat_lt.mpr (Nat.le_add_left 2 62)

theorem reachable_send {s : System Unit} (h : (bridge defaultConfig).Reachable s) (mode : LinMode)
    (frame : IsoTpFrame defaultConfig) :
    (bridge defaultConfig).Reachable (s.send defaultConfig mode frame.toCanFrame) :=
  h.step (e := .send mode frame) rfl

theorem reachable_slot {s : System Unit} (h : (bridge defaultConfig).Reachable s)
    (frameId : UInt8) : (bridge defaultConfig).Reachable (s.slot defaultConfig frameId) :=
  h.step (e := .slot frameId) rfl

/-- Two frames of the commander, the first frame and `g`, and two of the
responder, `f` and `h`, with slots for all but the last. -/
def exchanged (f g h : IsoTpFrame defaultConfig) : System Unit :=
  (((((((freshSystem.send defaultConfig .commander firstFrame.toCanFrame).send defaultConfig
    .responder f.toCanFrame).send defaultConfig .commander g.toCanFrame).slot defaultConfig
    0x3C).send defaultConfig .responder h.toCanFrame).slot defaultConfig 0x3D).slot defaultConfig
    0x3C)

theorem delivered_exchanged :
    (exchanged (singleFrame 3) (singleFrame 0) (singleFrame 2)).received .responder =
        [firstFrame.toCanFrame.arrives, (singleFrame 0).toCanFrame.arrives] ∧
      (exchanged (singleFrame 3) (singleFrame 0) (singleFrame 2)).received .commander <+:
        [(singleFrame 3).toCanFrame.arrives, (singleFrame 2).toCanFrame.arrives] := by
  have hinj : Function.Injective defaultConfig.idMapping := by
    unfold Function.Injective
    decide
  have hreach : (bridge defaultConfig).Reachable
      (exchanged (singleFrame 3) (singleFrame 0) (singleFrame 2)) :=
    reachable_slot (reachable_slot (reachable_send (reachable_slot (reachable_send (reachable_send
      (reachable_send (.init init_freshSystem) .commander firstFrame) .responder (singleFrame 3))
      .commander (singleFrame 0)) 0x3C) .responder (singleFrame 2)) 0x3D) 0x3C
  exact ⟨(delivered_reachable hinj hreach .commander).2 rfl,
    (delivered_reachable hinj hreach .responder).1⟩

end Lin

end Ardep
