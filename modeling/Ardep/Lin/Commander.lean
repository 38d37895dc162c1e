import Ardep.Lin.Bridge
/-!
# CAN over LIN — what the commander reports as sent

The queue of the driver keeps a transmit callback beside each frame. A
slot of the schedule takes a frame off the queue, and the driver calls the
callback with error 0 there and then (`lin_outgoing_cb`); the LIN layer
puts the frame on the bus afterwards, and the scheduler thread drops what
`lin_send` returns.

The model of `Lin.Model` forgets the callbacks (`forget_send`,
`forget_schedule`). Here they are kept, each with the number of the send it
belongs to, and `reported_sent_iff` says when a commander reports only
frames that the LIN driver has accepted: when no slot that takes a frame
fails.
-/

namespace Ardep

namespace Lin

namespace Commander

open Uds

/-- `struct lin2can_outgoing_frame_t`. `T` is a transmit callback with its
user data. -/
structure OutgoingFrame (T : Type) where
  frame : LinFrame
  callback : T
  deriving DecidableEq, Repr

/-- The sending side of a node. -/
structure TxNode (T : Type) where
  callbacks : List CallbackEntry
  outgoingId : UInt8
  incomingId : UInt8
  outgoingFrameQueue : List (OutgoingFrame T)

variable {T : Type} {cfg : Config}

/-- `lin2can_send`. -/
def lin2canSend (cfg : Config) (frame : CanFrame) (callback : T) (n : TxNode T) :
    Except ℤ (TxNode T) :=
  let mappedId := mapFromCanId cfg.idMapping frame.id
  if mappedId = 0xFF then .error (-EINVAL)
  else if n.outgoingFrameQueue.length < cfg.queueSize then
    .ok { n with
      outgoingFrameQueue := n.outgoingFrameQueue ++ [⟨translate n.outgoingId mappedId frame, callback⟩] }
  else .error (-ENOMSG)

/-- `lin_outgoing_cb`: the next frame, and the transmit callback it calls
with the error it gives. -/
def linOutgoingCb (n : TxNode T) : Option (LinFrame × (T × ℤ) × TxNode T) :=
  match n.outgoingFrameQueue with
  | [] => none
  | outgoing :: rest =>
    some (outgoing.frame, (outgoing.callback, 0), { n with outgoingFrameQueue := rest })

/-- What the LIN layer does in a slot. -/
inductive Action (T : Type) where
  | none
  | receive (len : ℕ)
  | send (frame : LinFrame) (report : T × ℤ)

/-- `al_schedule_now` on a commander, up to the call of the LIN driver. -/
def alScheduleNow (n : TxNode T) (frameId : UInt8) : Except ℤ (Action T × TxNode T) :=
  if frameId > 0x3F then .error (-EINVAL)
  else
    match n.callbacks.find? fun cb => cb.frameId = frameId with
    | none => .error (-EINVAL)
    | some cb =>
      match cb.type with
      | .incoming => .ok (.receive cb.frameSize, n)
      | .outgoing =>
        match linOutgoingCb n with
        | none => .ok (.none, n)
        | some (frame, report, n) =>
          .ok (.send { frame with id := cb.frameId, len := cb.frameSize } report, n)

/-! ## Without the callbacks -/

/-- The node as the bridge has it. The receiving side plays no part here
and has a callback for every id. -/
def TxNode.toNode (n : TxNode T) : Node Unit :=
  ⟨n.callbacks,
    ⟨fun _ => some (), n.outgoingFrameQueue.map (·.frame), n.outgoingId, n.incomingId⟩⟩

def Action.toLinAction : Action T → LinAction
  | .none => .none
  | .receive len => .receive len
  | .send frame _ => .send frame

/-- Sending is `lin2can_send` of the bridge. -/
theorem forget_send (frame : CanFrame) (callback : T) (n : TxNode T) :
    (lin2canSend cfg frame callback n).map (·.toNode.driver) =
      Lin.lin2canSend cfg.idMapping cfg.queueSize frame n.toNode.driver := by
  unfold lin2canSend Lin.lin2canSend
  simp only [TxNode.toNode, List.length_map]
  split_ifs
  · rfl
  · simp only [Except.map, List.map_append, List.map_cons, List.map_nil]
  · rfl

/-- And a slot is its `al_schedule_now`. -/
theorem forget_schedule (n : TxNode T) (frameId : UInt8) :
    (alScheduleNow n frameId).map (fun x => (x.1.toLinAction, x.2.toNode)) =
      Lin.alScheduleNow n.toNode frameId := by
  have hentry : n.toNode.entry frameId = n.callbacks.find? fun cb => cb.frameId = frameId := rfl
  unfold alScheduleNow Lin.alScheduleNow
  rw [hentry]
  split_ifs
  · rfl
  · cases n.callbacks.find? fun cb => cb.frameId = frameId with
    | none => rfl
    | some cb =>
      cases htype : cb.type with
      | incoming => simp only [htype]; rfl
      | outgoing =>
        unfold linOutgoingCb Lin.linOutgoingCb
        cases hqueue : n.outgoingFrameQueue with
        | nil => simp [htype, hqueue, TxNode.toNode, Except.map, Action.toLinAction]
        | cons outgoing rest => simp [htype, hqueue, TxNode.toNode, Except.map, Action.toLinAction]

/-! ## Runs -/

/-- **A commander**, with the sends it has accepted, the calls of transmit
callbacks and what `lin_send` returned for each frame handed to it. A
callback comes with the number of its send. -/
structure System (T : Type) where
  node : TxNode (ℕ × T)
  count : ℕ
  reported : List ((ℕ × T) × ℤ)
  sent : List ((ℕ × T) × ℤ)

/-- A send, or a slot with what `lin_send` returns should it be called. -/
inductive Event (T : Type) where
  | send (frame : CanFrame) (callback : T)
  | slot (frameId : UInt8) (linSend : ℤ)

/-- `lin2can_send`. -/
def System.send (cfg : Config) (s : System T) (frame : CanFrame) (callback : T) : System T :=
  match lin2canSend cfg frame (s.count, callback) s.node with
  | .error _ => s
  | .ok node => { s with node := node, count := s.count + 1 }

/-- One turn of the scheduler thread: it drops the value of
`abstract_lin_schedule_now`. -/
def System.slot (s : System T) (frameId : UInt8) (linSend : ℤ) : System T :=
  match alScheduleNow s.node frameId with
  | .ok (.send _ report, node) =>
    { s with
      node := node
      reported := s.reported ++ [report]
      sent := s.sent ++ [(report.1, linSend)] }
  | .ok (_, node) => { s with node := node }
  | .error _ => s

/-- **The commander.** -/
def commander (cfg : Config) : Machine (System T) (Event T) where
  init s := Installed cfg .commander s.node.toNode ∧ s.count = 0 ∧ s.reported = [] ∧ s.sent = []
  Step s e s' :=
    match e with
    | .send frame callback => s' = s.send cfg frame callback
    | .slot frameId linSend => s' = s.slot frameId linSend

/-- **Nothing is reported as sent and then lost**: the LIN driver has
accepted every frame whose callback was called with error 0. -/
def ReportedSent (s : System T) : Prop :=
  ∀ callback, (callback, 0) ∈ s.reported → (callback, 0) ∈ s.sent

/-- A slot that takes a frame off the queue. -/
def TakesFrame (cfg : Config) (s : System T) (frameId : UInt8) : Prop :=
  frameId = cfg.masterRequestId ∧ s.node.outgoingFrameQueue ≠ []

/-- **The LIN driver accepts** the frame the step hands to it. -/
def SlotSucceeds (cfg : Config) (s : System T) : Event T → Prop
  | .send _ _ => True
  | .slot frameId linSend => TakesFrame cfg s frameId → linSend = 0

/-- The invariant: the node is wired, every report is one of success and
the frame was then handed on, and the frames handed on and those that wait
are those accepted, in order and numbered. -/
structure Reporting (cfg : Config) (s : System T) : Prop where
  wired : Wired cfg .commander s.node.toNode
  reported : s.reported = s.sent.map fun x => (x.1, 0)
  numbered : (s.sent.map fun x => x.1.1) ++ (s.node.outgoingFrameQueue.map fun x => x.callback.1) =
    List.range s.count

section Steps

variable {s s' : System T} {past : List (System T × Event T)}

/-- What a send does: nothing, or one frame more in the queue. -/
theorem send_cases (cfg : Config) (s : System T) (frame : CanFrame) (callback : T) :
    s.send cfg frame callback = s ∨ ∃ linFrame, s.send cfg frame callback =
      { s with
        node := { s.node with
          outgoingFrameQueue := s.node.outgoingFrameQueue ++ [⟨linFrame, (s.count, callback)⟩] }
        count := s.count + 1 } := by
  unfold System.send lin2canSend
  simp only
  split_ifs
  · exact .inl rfl
  · exact .inr ⟨_, rfl⟩
  · exact .inl rfl

/-- What a slot does: it takes the first frame that waits, or nothing. -/
theorem slot_cases (hwired : Wired cfg .commander s.node.toNode) (frameId : UInt8) (linSend : ℤ) :
    (¬ TakesFrame cfg s frameId ∧ s.slot frameId linSend = s) ∨
      TakesFrame cfg s frameId ∧ ∃ outgoing rest, s.node.outgoingFrameQueue = outgoing :: rest ∧
        s.slot frameId linSend =
          { s with
            node := { s.node with outgoingFrameQueue := rest }
            reported := s.reported ++ [(outgoing.callback, 0)]
            sent := s.sent ++ [(outgoing.callback, linSend)] } := by
  unfold System.slot alScheduleNow
  by_cases hout : frameId = cfg.masterRequestId
  · subst hout
    have hle : ¬ cfg.masterRequestId > 0x3F := hwired.outgoingId_le
    have hentry : (s.node.callbacks.find? fun cb => cb.frameId = cfg.masterRequestId) =
        some ⟨cfg.masterRequestId, 8, .outgoing⟩ := hwired.entry_outgoing
    rw [if_neg hle, hentry]
    unfold linOutgoingCb
    cases hqueue : s.node.outgoingFrameQueue with
    | nil =>
      refine .inl ⟨fun htakes => htakes.2 hqueue, ?_⟩
      rfl
    | cons outgoing rest =>
      refine .inr ⟨⟨rfl, ?_⟩, outgoing, rest, rfl, rfl⟩
      rw [hqueue]
      exact List.cons_ne_nil outgoing rest
  · refine .inl ⟨fun htakes => hout htakes.1, ?_⟩
    by_cases hin : frameId = cfg.slaveResponseId
    · subst hin
      have hle : ¬ cfg.slaveResponseId > 0x3F := hwired.incomingId_le
      have hentry : (s.node.callbacks.find? fun cb => cb.frameId = cfg.slaveResponseId) =
          some ⟨cfg.slaveResponseId, 8, .incoming⟩ := hwired.entry_incoming
      rw [if_neg hle, hentry]
    · have hentry : (s.node.callbacks.find? fun cb => cb.frameId = frameId) = none :=
        hwired.entry_other (Ne.symm hin) (Ne.symm hout)
      rw [hentry]
      split_ifs <;> rfl

/-- The queue may change and the node stays wired. -/
theorem wired_queue (hwired : Wired cfg .commander s.node.toNode)
    (queue : List (OutgoingFrame (ℕ × T))) :
    Wired cfg .commander ({ s.node with outgoingFrameQueue := queue } : TxNode (ℕ × T)).toNode :=
  hwired.driver

/-- **One step keeps the invariant.** -/
theorem reporting_step {e : Event T} (h : Reporting cfg s) (hstep : (commander cfg).Step s e s') :
    Reporting cfg s' := by
  obtain ⟨hwired, hreported, hnumbered⟩ := h
  cases e with
  | send frame callback =>
    obtain rfl : s' = s.send cfg frame callback := hstep
    rcases send_cases cfg s frame callback with hsend | ⟨linFrame, hsend⟩
    · rw [hsend]
      exact ⟨hwired, hreported, hnumbered⟩
    · rw [hsend]
      refine ⟨wired_queue hwired _, hreported, ?_⟩
      rw [List.map_append, ← List.append_assoc, hnumbered, List.range_succ]
      rfl
  | slot frameId linSend =>
    obtain rfl : s' = s.slot frameId linSend := hstep
    rcases slot_cases hwired frameId linSend with ⟨-, hslot⟩ | ⟨-, outgoing, rest, hqueue, hslot⟩
    · rw [hslot]
      exact ⟨hwired, hreported, hnumbered⟩
    · rw [hslot]
      refine ⟨wired_queue hwired _, ?_, ?_⟩
      · rw [hreported, List.map_append]
        rfl
      · rw [hqueue, List.map_cons] at hnumbered
        rw [List.map_append, List.append_assoc]
        exact hnumbered

theorem reporting (h : (commander cfg).Reachable s) : Reporting cfg s := by
  refine h.invariant (fun s hinit => ?_) fun s e s' hs hstep => reporting_step hs hstep
  obtain ⟨hinstalled, hcount, hreported, hsent⟩ := hinit
  refine ⟨wired_of_installed hinstalled, by rw [hreported, hsent]; rfl, ?_⟩
  obtain ⟨-, -, -, -, hqueue, -⟩ := hinstalled
  have hempty : s.node.outgoingFrameQueue = [] := List.map_eq_nil_iff.mp hqueue
  rw [hsent, hempty, hcount]
  rfl

/-- The numbers tell the frames apart, so a frame is handed on once. -/
theorem Reporting.unique (h : Reporting cfg s) {callback : ℕ × T} {result result' : ℤ}
    (hsent : (callback, result) ∈ s.sent) (hsent' : (callback, result') ∈ s.sent) :
    result = result' := by
  have hnodup : (s.sent.map fun x => x.1.1).Nodup := by
    have hall : ((s.sent.map fun x => x.1.1) ++
        s.node.outgoingFrameQueue.map fun x => x.callback.1).Nodup := by
      rw [h.numbered]
      exact List.nodup_range
    exact (List.nodup_append.mp hall).1
  have hsame := List.inj_on_of_nodup_map hnodup hsent hsent' rfl
  exact (Prod.mk.injEq .. ▸ hsame).2

/-- **The reports are true if every frame handed on was accepted.** -/
theorem Reporting.reportedSent_iff (h : Reporting cfg s) :
    ReportedSent s ↔ ∀ x ∈ s.sent, x.2 = 0 := by
  unfold ReportedSent
  rw [h.reported]
  constructor
  · rintro hall ⟨callback, result⟩ hx
    have hzero := hall callback (List.mem_map.mpr ⟨_, hx, rfl⟩)
    exact h.unique hx hzero
  · intro hall callback hmem
    obtain ⟨⟨callback', result⟩, hx, heq⟩ := List.mem_map.mp hmem
    obtain rfl : callback' = callback := congrArg Prod.fst heq
    obtain rfl : result = 0 := hall _ hx
    exact hx

/-- **A run reports only what was accepted exactly if no slot that takes a
frame fails**: the callback has been called with error 0 before `lin_send`
is, whatever that returns. -/
theorem reported_sent_iff (h : (commander cfg).Run past s) :
    ReportedSent s ↔ Machine.Throughout (fun _ s e => SlotSucceeds cfg s e) past := by
  rw [(reporting h.reachable).reportedSent_iff]
  induction h with
  | init hinit =>
    obtain ⟨-, -, -, hsent⟩ := hinit
    rw [hsent]
    refine iff_of_true (fun x hx => absurd hx List.not_mem_nil) fun pre t e post hpast => ?_
    exact absurd hpast (by simp)
  | @step past s s' e hrun hstep ih =>
    rw [Machine.throughout_concat, ← ih]
    have hwired := (reporting hrun.reachable).wired
    cases e with
    | send frame callback =>
      obtain rfl : s' = s.send cfg frame callback := hstep
      have hsent : (s.send cfg frame callback).sent = s.sent := by
        rcases send_cases cfg s frame callback with hsend | ⟨linFrame, hsend⟩ <;> rw [hsend]
      rw [hsent]
      exact (and_iff_left trivial).symm
    | slot frameId linSend =>
      obtain rfl : s' = s.slot frameId linSend := hstep
      rcases slot_cases hwired frameId linSend with
        ⟨hno, hslot⟩ | ⟨htakes, outgoing, rest, -, hslot⟩
      · rw [hslot]
        exact (and_iff_left fun htakes => absurd htakes hno).symm
      · rw [hslot, List.forall_mem_append]
        refine and_congr_right fun _ => ⟨fun hlast _ => ?_, fun hzero => ?_⟩
        · exact hlast _ List.mem_cons_self
        · rw [List.forall_mem_singleton]
          exact hzero htakes

end Steps

/-- A commander that has just started. -/
def started : System Unit where
  node := ⟨[⟨0x3D, 8, .incoming⟩, ⟨0x3C, 8, .outgoing⟩], 0x3C, 0x3D, []⟩
  count := 0
  reported := []
  sent := []

theorem init_started : (commander defaultConfig).init started :=
  ⟨⟨_, rfl, rfl, rfl, rfl, fun _ => rfl⟩, rfl, rfl, rfl⟩

/-- One frame, and a slot in which the bus is busy (`-EBUSY`). -/
def busySlot : List (System Unit × Event Unit) :=
  [(started, .send firstFrame.toCanFrame ()),
    (started.send defaultConfig firstFrame.toCanFrame (), .slot 0x3C (-16))]

theorem run_busySlot : (commander defaultConfig).Run busySlot
    ((started.send defaultConfig firstFrame.toCanFrame ()).slot 0x3C (-16)) := by
  have hsend : (commander defaultConfig).Step started (.send firstFrame.toCanFrame ())
      (started.send defaultConfig firstFrame.toCanFrame ()) := rfl
  have hslot : (commander defaultConfig).Step
      (started.send defaultConfig firstFrame.toCanFrame ()) (.slot 0x3C (-16))
      ((started.send defaultConfig firstFrame.toCanFrame ()).slot 0x3C (-16)) := rfl
  exact ((Machine.Run.init init_started).step hsend).step hslot

/-- The callback was called with error 0, and the frame is gone. -/
theorem reported_sent_iff_busySlot :
    ReportedSent ((started.send defaultConfig firstFrame.toCanFrame ()).slot 0x3C (-16)) ↔
      Machine.Throughout (fun _ s e => SlotSucceeds defaultConfig s e) busySlot :=
  reported_sent_iff run_busySlot

theorem not_reportedSent_busySlot :
    ∃ past s, (commander (T := Unit) defaultConfig).Run past s ∧ ¬ ReportedSent s := by
  refine ⟨busySlot, _, run_busySlot, fun h => ?_⟩
  have hsent := h (0, ()) List.mem_cons_self
  revert hsent
  decide

end Commander

end Lin

end Ardep
