import Ardep.Can.Router
import Ardep.Lin.Bridge
/-!
# The CAN gateway — from one bus to the other

The gateway sample routes every frame of its CAN controller to lin2can and
every frame of lin2can to the controller, and its LIN schedule gives the
two directions a slot in turn. The registration of its table reports an
error (`not_registers_gateway`), but has added both filters by then.

`gateway_forwards` follows the frames from end to end: the gateway's run
is one of the bridge, with the router's callback at both ends. What comes
out on either side is what the callback's `can_send` took on the other, in
order and once each; what `can_send` on lin2can returns depends on the id of
the frame and on how many wait (`answered`); and a frame that lin2can took
has left after as many rounds of the schedule as frames wait.
-/

namespace Ardep

namespace Can

open Lin Uds

/-- `table_def` of the sample. -/
def tableDef : List UInt8 := [0x3D, 0x3C]

/-- The schedule is for the ids that the drivers are configured with. -/
def Scheduled (cfg : Config) : Prop := cfg.masterRequestId = 0x3C ∧ cfg.slaveResponseId = 0x3D

/-- **The gateway and the LIN node behind it**: the LIN side, the entry of
the schedule that is next, and the calls of the router's callback by the
device it sends on, each with what `can_send` returned. -/
structure Gateway where
  lin : System GatewayDev
  entry : ℕ
  routed : GatewayDev → List (CanFrame × ℤ)

namespace Gateway

/-- `can_send` on lin2can. -/
def lincanSend (cfg : Config) (g : Gateway) (frame : CanFrame) : ℤ :=
  match lin2canSend cfg.idMapping cfg.queueSize frame (g.lin.node .commander).driver with
  | .error err => err
  | .ok _ => 0

/-- `can_router_frame_cb`, `ret` being what the controller's `can_send`
returns. -/
def canRouterFrameCb (cfg : Config) (ret : ℤ) (target : GatewayDev) (g : Gateway)
    (frame : CanFrame) : Gateway :=
  match target with
  | .lincan =>
    { g with
      lin := g.lin.send cfg .commander frame
      routed := Function.update g.routed .lincan
        (g.routed .lincan ++ [(frame, g.lincanSend cfg frame)]) }
  | .canA =>
    { g with routed := Function.update g.routed .canA (g.routed .canA ++ [(frame, ret)]) }

/-- **The next slot of the schedule.** The callbacks of lin2can are the
router's, for the controller. -/
def slot (cfg : Config) (g : Gateway) (ret : ℤ) : Gateway :=
  let lin := g.lin.slot cfg (tableDef.getD g.entry 0)
  let arrived := (lin.received .commander).drop (g.lin.received .commander).length
  arrived.foldl (canRouterFrameCb cfg ret .canA)
    { g with lin := lin, entry := (g.entry + 1) % tableDef.length }

end Gateway

/-- A frame on the CAN bus, a frame of the LIN node, and a slot, with what
the controller's `can_send` returns for a frame that arrives in it. -/
inductive GatewayEvent (cfg : Config) where
  | frame (frame : CanFrame)
  | respond (frame : IsoTpFrame cfg)
  | slot (ret : ℤ)

/-- After `can_router_sysinit` on drivers that are initialised. -/
structure Booted (cfg : Config) (g : Gateway) : Prop where
  commander : ∃ n₀ : Node GatewayDev, lin2canInit cfg .commander = .ok n₀ ∧
    g.lin.node .commander =
      { n₀ with driver := (canRouterRegister (gatewayAdd cfg.idMapping) gatewayEntries
        (0, n₀.driver)).state.2 }
  responder : Installed cfg .responder (g.lin.node .responder)
  accepted : ∀ mode, g.lin.accepted mode = []
  received : ∀ mode, g.lin.received mode = []
  entry : g.entry = 0
  routed : ∀ dev, g.routed dev = []

/-- The gateway at work. -/
def gateway (cfg : Config) : Machine Gateway (GatewayEvent cfg) where
  init := Booted cfg
  Step g e g' := g' = match e with
    | .frame frame => g.canRouterFrameCb cfg 0 .lincan frame
    | .respond frame => { g with lin := g.lin.send cfg .responder frame.toCanFrame }
    | .slot ret => g.slot cfg ret

/-- A frame with an id of the bridge is one that the bridge carries; the
others may be any. -/
def Carriable (cfg : Config) (_ : Gateway) : GatewayEvent cfg → Prop
  | .frame frame => mapFromCanId cfg.idMapping frame.id = 0xFF ∨
      ∃ f : IsoTpFrame cfg, f.toCanFrame = frame
  | _ => True

/-! ## The registration -/

variable {cfg : Config}

/-- Whatever it returns, the router is the callback of every id. -/
theorem register_gatewayEntries {idMapping : IdMapping} {d : Lin2CanData GatewayDev}
    (h : ∀ i, d.incomingCallbacks i = none) :
    (canRouterRegister (gatewayAdd idMapping) gatewayEntries (0, d)).state.2 =
      { d with incomingCallbacks := fun _ => some .canA } := by
  have hfree : ¬ ∃ i, (d.incomingCallbacks i).isSome := by
    rintro ⟨i, hi⟩
    rw [h i] at hi
    cases hi
  simp [canRouterRegister, gatewayEntries, gatewayAdd, lin2canAddRxFilter, hfree]

/-- lin2can starts with no callback. -/
theorem lin2canInit_callbacks {mode : LinMode} {n₀ : Node GatewayDev}
    (h : lin2canInit cfg mode = .ok n₀) :
    (∀ i, n₀.driver.incomingCallbacks i = none) ∧ n₀.driver.outgoingFrameQueue = [] := by
  unfold lin2canInit at h
  split at h
  · cases h
  · split at h
    · cases h
    · obtain rfl := Except.ok.inj h
      exact ⟨fun _ => rfl, rfl⟩

/-- The gateway's node is one of the bridge. -/
theorem Booted.installed {g : Gateway} (h : Booted cfg g) :
    Installed cfg .commander (g.lin.node .commander) := by
  obtain ⟨n₀, hinit, hnode⟩ := h.commander
  obtain ⟨hnone, hempty⟩ := lin2canInit_callbacks hinit
  rw [register_gatewayEntries hnone] at hnode
  refine ⟨n₀, hinit, ?_, ?_, ?_, fun i => ?_⟩
  · rw [hnode]
  · rw [hnode]
  · rw [hnode]
    exact hempty
  · rw [hnode]
    rfl

/-! ## One event -/

section Step

variable {g : Gateway} {mode : LinMode}

/-- The callback records each frame, and is called for the controller. -/
theorem foldl_canRouterFrameCb (ret : ℤ) (frames : List CanFrame) :
    frames.foldl (Gateway.canRouterFrameCb cfg ret .canA) g =
      { g with
        routed := Function.update g.routed .canA
          (g.routed .canA ++ frames.map fun frame => (frame, ret)) } := by
  induction frames generalizing g with
  | nil => simp
  | cons frame frames ih =>
    rw [List.foldl_cons, ih]
    simp [Gateway.canRouterFrameCb]

/-- What the LIN side makes of a slot of either id: the frame that waits
first has gone. -/
structure Slotted (s s' : System GatewayDev) (mode : LinMode) : Prop where
  queue : (s'.node mode).driver.outgoingFrameQueue =
    (s.node mode).driver.outgoingFrameQueue.tail
  other : (s'.node mode.peer).driver.outgoingFrameQueue =
    (s.node mode.peer).driver.outgoingFrameQueue
  accepted : s'.accepted = s.accepted
  received : ∀ mode, s.received mode <+: s'.received mode

theorem slotted {s : System GatewayDev} (h : ∀ mode, Wired cfg mode (s.node mode))
    (mode : LinMode) : Slotted s (s.slot cfg (cfg.outgoingId mode)) mode := by
  have hpeer : mode.peer ≠ mode := by cases mode <;> decide
  rw [slot_eq h]
  cases hqueue : (s.node mode).driver.outgoingFrameQueue with
  | nil => exact ⟨by rw [hqueue]; rfl, rfl, rfl, fun _ => List.prefix_rfl⟩
  | cons frame rest =>
    refine ⟨?_, ?_, rfl, fun other => ?_⟩
    · simp only [System.carried, Function.update_self, hqueue, List.tail_cons]
    · simp only [System.carried, Function.update_of_ne hpeer]
    · by_cases hother : other = mode.peer
      · subst hother
        simp only [System.carried, Function.update_self]
        exact List.prefix_append _ _
      · simp only [System.carried, Function.update_of_ne hother]
        exact List.prefix_rfl

/-- What lin2can answers to the router, and what the LIN side makes of it. -/
theorem lincanSend_cases (cfg : Config) (g : Gateway) (frame : CanFrame) :
    (g.lincanSend cfg frame = 0 ∧ mapFromCanId cfg.idMapping frame.id ≠ 0xFF ∧
        (g.lin.send cfg .commander frame).accepted .commander =
          g.lin.accepted .commander ++ [frame]) ∨
      (g.lincanSend cfg frame = -EINVAL ∧ mapFromCanId cfg.idMapping frame.id = 0xFF ∧
        g.lin.send cfg .commander frame = g.lin) ∨
      (g.lincanSend cfg frame = -ENOMSG ∧ mapFromCanId cfg.idMapping frame.id ≠ 0xFF ∧
        g.lin.send cfg .commander frame = g.lin) := by
  unfold Gateway.lincanSend System.send lin2canSend
  by_cases hmapped : mapFromCanId cfg.idMapping frame.id = 0xFF
  · exact .inr (.inl (by simp [hmapped]))
  · by_cases hroom : (g.lin.node .commander).driver.outgoingFrameQueue.length < cfg.queueSize
    · exact .inl (by simp [hmapped, hroom])
    · exact .inr (.inr (by simp [hmapped, hroom]))

theorem received_send (s : System GatewayDev) (frame : CanFrame) :
    (s.send cfg mode frame).received = s.received := by
  unfold System.send
  split <;> rfl

theorem accepted_send_peer (s : System GatewayDev) (frame : CanFrame) :
    (s.send cfg .responder frame).accepted .commander = s.accepted .commander := by
  have hne : LinMode.commander ≠ .responder := by decide
  unfold System.send
  split
  · rfl
  · simp only [Function.update_of_ne hne]

end Step

/-! ## The run -/

/-- The frames that `can_send` took. -/
def taken (calls : List (CanFrame × ℤ)) : List CanFrame :=
  (calls.filter fun p => p.2 = 0).map Prod.fst

/-- **The router's calls agree with the two ends of the bridge.** -/
structure Forwarding (cfg : Config) (g : Gateway) : Prop where
  bridged : (bridge (C := GatewayDev) cfg).Reachable g.lin
  entry : g.entry < 2
  taken : g.lin.accepted .commander = taken (g.routed .lincan)
  arrived : (g.routed .canA).map Prod.fst = g.lin.received .commander

/-- The frames that lin2can took and the LIN node has not received. -/
def waiting (g : Gateway) : ℕ :=
  (Can.taken (g.routed .lincan)).length - (g.lin.received .responder).length

/-- **What `can_send` on lin2can returns**: a frame of another id is refused,
and one of the bridge exactly when as many wait as there is room for. -/
structure Answered (cfg : Config) (g : Gateway) (frame : CanFrame) : Prop where
  unmapped : g.lincanSend cfg frame = -EINVAL ↔ mapFromCanId cfg.idMapping frame.id = 0xFF
  full : g.lincanSend cfg frame = -ENOMSG ↔
    mapFromCanId cfg.idMapping frame.id ≠ 0xFF ∧ cfg.queueSize ≤ waiting g
  took : g.lincanSend cfg frame = 0 ↔
    mapFromCanId cfg.idMapping frame.id ≠ 0xFF ∧ waiting g < cfg.queueSize

/-- The frames of a run that the router gave lin2can, with what it returned
for each. -/
def offered (cfg : Config) (past : List (Gateway × GatewayEvent cfg)) : List (CanFrame × ℤ) :=
  past.filterMap fun x =>
    match x.2 with
    | .frame frame => some (frame, x.1.lincanSend cfg frame)
    | _ => none

section Run

variable {g g' : Gateway} {past : List (Gateway × GatewayEvent cfg)}

theorem taken_concat (calls : List (CanFrame × ℤ)) (frame : CanFrame) (ret : ℤ) :
    taken (calls ++ [(frame, ret)]) = taken calls ++ if ret = 0 then [frame] else [] := by
  unfold taken
  rw [List.filter_append, List.map_append]
  split_ifs with hret <;> simp [hret]

namespace Forwarding

theorem booted (h : Booted cfg g) : Forwarding cfg g where
  bridged := by
    refine .init ⟨fun mode => ?_, h.accepted, h.received⟩
    cases mode with
    | commander => exact h.installed
    | responder => exact h.responder
  entry := by rw [h.entry]; decide
  taken := by rw [h.accepted, h.routed]; rfl
  arrived := by rw [h.received, h.routed]; rfl

/-- A frame from the CAN bus. -/
theorem frame (h : Forwarding cfg g) {frame : CanFrame}
    (hcarriable : mapFromCanId cfg.idMapping frame.id = 0xFF ∨
      ∃ f : IsoTpFrame cfg, f.toCanFrame = frame) :
    Forwarding cfg (g.canRouterFrameCb cfg 0 .lincan frame) := by
  have hcases := lincanSend_cases cfg g frame
  refine ⟨?_, h.entry, ?_, ?_⟩
  · rcases hcarriable with hunmapped | ⟨f, rfl⟩
    · rcases hcases with ⟨-, hmapped, -⟩ | ⟨-, -, hsame⟩ | ⟨-, hmapped, -⟩
      · exact absurd hunmapped hmapped
      · simp only [Gateway.canRouterFrameCb, hsame]
        exact h.bridged
      · exact absurd hunmapped hmapped
    · exact h.bridged.step (e := .send .commander f) rfl
  · simp only [Gateway.canRouterFrameCb, Function.update_self, taken_concat]
    rcases hcases with ⟨hret, -, haccepted⟩ | ⟨hret, -, hsame⟩ | ⟨hret, -, hsame⟩
    · rw [hret, if_pos rfl, haccepted, h.taken]
    · rw [hret, if_neg (by decide), List.append_nil, hsame, h.taken]
    · rw [hret, if_neg (by decide), List.append_nil, hsame, h.taken]
  · have hne : GatewayDev.canA ≠ .lincan := by decide
    simp only [Gateway.canRouterFrameCb, Function.update_of_ne hne, received_send]
    exact h.arrived

/-- A frame from the LIN node. -/
theorem respond (h : Forwarding cfg g) (f : IsoTpFrame cfg) :
    Forwarding cfg { g with lin := g.lin.send cfg .responder f.toCanFrame } where
  bridged := h.bridged.step (e := .send .responder f) rfl
  entry := h.entry
  taken := (accepted_send_peer g.lin f.toCanFrame).trans h.taken
  arrived := h.arrived.trans (congrFun (received_send g.lin f.toCanFrame) _).symm

/-- The node whose frames the next slot is for. -/
def turn (g : Gateway) : LinMode := if g.entry = 0 then .responder else .commander

theorem tableDef_eq (hids : Scheduled cfg) (h : Forwarding cfg g) :
    tableDef.getD g.entry 0 = cfg.outgoingId (turn g) := by
  have hentry := h.entry
  unfold turn
  split_ifs with hzero
  · rw [hzero]
    exact hids.2.symm
  · have hone : g.entry = 1 := by omega
    rw [hone]
    exact hids.1.symm

/-- **A slot** is one of the bridge, and what arrives goes to the
controller. -/
theorem slot (hids : Scheduled cfg) (hinj : Function.Injective cfg.idMapping)
    (h : Forwarding cfg g) (ret : ℤ) :
    Forwarding cfg (g.slot cfg ret) ∧ Slotted g.lin (g.slot cfg ret).lin (turn g) ∧
      turn (g.slot cfg ret) = (turn g).peer ∧
      (g.slot cfg ret).routed .lincan = g.routed .lincan := by
  have hslotted := slotted (carrying hinj h.bridged).wired (turn g)
  have hne : GatewayDev.lincan ≠ .canA := by decide
  have hentry := h.entry
  have hlen : tableDef.length = 2 := rfl
  simp only [Gateway.slot, h.tableDef_eq hids, foldl_canRouterFrameCb, hlen]
  refine ⟨⟨h.bridged.step (e := .slot (cfg.outgoingId (turn g))) rfl, ?_, ?_, ?_⟩, hslotted,
    ?_, ?_⟩
  · exact Nat.mod_lt _ (by decide)
  · simp only [Function.update_of_ne hne, hslotted.accepted]
    exact h.taken
  · obtain ⟨new, hnew⟩ := hslotted.received .commander
    simp only [Function.update_self, List.map_append, List.map_map, h.arrived, ← hnew,
      List.drop_left]
    exact congrArg _ (List.map_id _)
  · rcases Nat.lt_or_ge g.entry 1 with hzero | hone
    · have hzero : g.entry = 0 := by omega
      simp [turn, hzero, LinMode.peer]
    · have hone : g.entry = 1 := by omega
      simp [turn, hone, LinMode.peer]
  · exact Function.update_of_ne hne _ _

/-- **A round of the schedule** takes the first waiting frame of either
node. -/
theorem round (hids : Scheduled cfg) (hinj : Function.Injective cfg.idMapping)
    (h : Forwarding cfg g) (ret ret' : ℤ) :
    Forwarding cfg ((g.slot cfg ret).slot cfg ret') ∧
      (∀ mode, (((g.slot cfg ret).slot cfg ret').lin.node mode).driver.outgoingFrameQueue =
        (g.lin.node mode).driver.outgoingFrameQueue.tail) ∧
      ((g.slot cfg ret).slot cfg ret').lin.accepted = g.lin.accepted ∧
      ((g.slot cfg ret).slot cfg ret').routed .lincan = g.routed .lincan := by
  obtain ⟨hone, hslotted, hturn, hrouted⟩ := h.slot hids hinj ret
  obtain ⟨htwo, hslotted', -, hrouted'⟩ := hone.slot hids hinj ret'
  refine ⟨htwo, fun mode => ?_, hslotted'.accepted.trans hslotted.accepted,
    hrouted'.trans hrouted⟩
  rw [hturn] at hslotted'
  have hboth : mode = turn g ∨ mode = (turn g).peer := by
    cases mode <;> cases turn g <;> simp [LinMode.peer]
  rcases hboth with rfl | rfl
  · have hother := hslotted'.other
    rw [LinMode.peer_peer] at hother
    rw [hother, hslotted.queue]
  · rw [hslotted'.queue, hslotted.other]

/-- Rounds take as many. -/
theorem rounds (hids : Scheduled cfg) (hinj : Function.Injective cfg.idMapping) :
    ∀ {n : ℕ} {rets : List ℤ} {g : Gateway}, Forwarding cfg g → rets.length = 2 * n →
      Forwarding cfg (rets.foldl (Gateway.slot cfg) g) ∧
        (∀ mode, ((rets.foldl (Gateway.slot cfg) g).lin.node mode).driver.outgoingFrameQueue =
          (g.lin.node mode).driver.outgoingFrameQueue.drop n) ∧
        (rets.foldl (Gateway.slot cfg) g).lin.accepted = g.lin.accepted ∧
        (rets.foldl (Gateway.slot cfg) g).routed .lincan = g.routed .lincan
  | 0, [], _, h, _ => ⟨h, fun _ => rfl, rfl, rfl⟩
  | n + 1, ret :: ret' :: rets, g, h, hlen => by
    obtain ⟨hround, hqueue, haccepted, hrouted⟩ := h.round hids hinj ret ret'
    have hrest : rets.length = 2 * n := by
      simp only [List.length_cons] at hlen
      omega
    obtain ⟨hafter, hqueue', haccepted', hrouted'⟩ := rounds hids hinj hround hrest
    refine ⟨hafter, fun mode => ?_, haccepted'.trans haccepted, hrouted'.trans hrouted⟩
    rw [List.foldl_cons, List.foldl_cons, hqueue', hqueue, List.drop_tail]

end Forwarding

/-- **The gateway's run is one of the bridge**, with the router's calls at
its ends. -/
theorem forwarding (hids : Scheduled cfg) (hinj : Function.Injective cfg.idMapping)
    (h : ((gateway cfg).guard (Carriable cfg)).Reachable g) : Forwarding cfg g := by
  refine h.invariant (fun g (hg : Booted cfg g) => Forwarding.booted hg) fun g e g' hg hstep => ?_
  obtain ⟨hcarriable, rfl⟩ := hstep
  cases e with
  | frame frame => exact hg.frame hcarriable
  | respond f => exact hg.respond f
  | slot ret => exact (hg.slot hids hinj ret).1

/-- What a node has received of what its peer accepted. -/
theorem received_of_carrying {s : System GatewayDev} (h : Carrying cfg s) (mode : LinMode) :
    s.received mode.peer <+: (s.accepted mode).map CanFrame.arrives ∧
      ((s.node mode).driver.outgoingFrameQueue = [] →
        s.received mode.peer = (s.accepted mode).map CanFrame.arrives) := by
  obtain ⟨arrived, waiting, haccepted, hqueue, hreceived⟩ := h.inOrder mode
  rw [haccepted, hreceived, List.map_append, List.map_append, List.map_map, List.map_map]
  refine ⟨List.prefix_append _ _, fun hempty => ?_⟩
  rw [List.map_eq_nil_iff.mp (hqueue.symm.trans hempty), List.map_nil, List.append_nil]
  rfl

/-- What waits is in the queue of lin2can. -/
theorem Forwarding.waiting_eq (hinj : Function.Injective cfg.idMapping) (h : Forwarding cfg g) :
    waiting g = (g.lin.node .commander).driver.outgoingFrameQueue.length := by
  obtain ⟨arrived, waits, haccepted, hqueue, hreceived⟩ :=
    (carrying hinj h.bridged).inOrder .commander
  have hpeer : g.lin.received .responder = arrived.map (·.toCanFrame.arrives) := hreceived
  unfold waiting
  rw [← h.taken, haccepted, hqueue, hpeer, List.length_map, List.length_map, List.length_map,
    List.length_append]
  omega

/-- **One call.** -/
theorem Forwarding.answered (hinj : Function.Injective cfg.idMapping) (h : Forwarding cfg g)
    (frame : CanFrame) : Answered cfg g frame := by
  have hwaiting := h.waiting_eq hinj
  have hsend : g.lincanSend cfg frame =
      if mapFromCanId cfg.idMapping frame.id = 0xFF then -EINVAL
      else if waiting g < cfg.queueSize then 0 else -ENOMSG := by
    unfold Gateway.lincanSend lin2canSend
    rw [hwaiting]
    simp only
    split_ifs <;> rfl
  by_cases hmapped : mapFromCanId cfg.idMapping frame.id = 0xFF
  · rw [if_pos hmapped] at hsend
    exact ⟨iff_of_true hsend hmapped, iff_of_false (by rw [hsend]; decide) fun h => h.1 hmapped,
      iff_of_false (by rw [hsend]; decide) fun h => h.1 hmapped⟩
  rw [if_neg hmapped] at hsend
  by_cases hroom : waiting g < cfg.queueSize
  · rw [if_pos hroom] at hsend
    exact ⟨iff_of_false (by rw [hsend]; decide) hmapped,
      iff_of_false (by rw [hsend]; decide) fun h => absurd h.2 (by omega),
      iff_of_true hsend ⟨hmapped, hroom⟩⟩
  · rw [if_neg hroom] at hsend
    exact ⟨iff_of_false (by rw [hsend]; decide) hmapped,
      iff_of_true hsend ⟨hmapped, by omega⟩,
      iff_of_false (by rw [hsend]; decide) fun h => hroom h.2⟩

/-- The router's record of its calls. -/
theorem routed_eq_offered (h : (gateway cfg).Run past g) : g.routed .lincan = offered cfg past := by
  refine h.invariant (P := fun past g => g.routed .lincan = offered cfg past)
    (fun g (hg : Booted cfg g) => hg.routed .lincan) fun past g e g' hg hstep => ?_
  obtain rfl := hstep
  unfold offered at hg ⊢
  rw [List.filterMap_append, ← hg]
  cases e with
  | frame frame => simp [Gateway.canRouterFrameCb]
  | respond f => simp
  | slot ret =>
    simp only [Gateway.slot, foldl_canRouterFrameCb]
    simp

/-- A run of the machine cut down to some steps is a run of it. -/
theorem run_of_guard (h : ((gateway cfg).guard (Carriable cfg)).Run past g) :
    (gateway cfg).Run past g := by
  induction h with
  | init h0 => exact .init h0
  | step _ hs ih => exact ih.step hs.2

end Run

/-! A tester's request, with a frame of another id behind it. -/

/-- A node of the sample, with the router's callbacks. -/
def gatewayNode (mode : LinMode) : Node GatewayDev :=
  ⟨[⟨defaultConfig.incomingId mode, 8, .incoming⟩, ⟨defaultConfig.outgoingId mode, 8, .outgoing⟩],
    ⟨fun _ => some .canA, [], defaultConfig.outgoingId mode, defaultConfig.incomingId mode⟩⟩

def gatewayStart : Gateway where
  lin := ⟨gatewayNode, fun _ => [], fun _ => []⟩
  entry := 0
  routed := fun _ => []

theorem booted_gatewayStart : Booted defaultConfig gatewayStart where
  commander := ⟨_, rfl, by rw [register_gatewayEntries fun _ => rfl]; rfl⟩
  responder := ⟨_, rfl, rfl, rfl, rfl, fun _ => rfl⟩
  accepted := fun _ => rfl
  received := fun _ => rfl
  entry := rfl
  routed := fun _ => rfl

/-- What the tester sends. -/
def gatewayRequested : Gateway :=
  (gatewayStart.canRouterFrameCb defaultConfig 0 .lincan firstFrame.toCanFrame).canRouterFrameCb
    defaultConfig 0 .lincan ⟨0x7E0, 1, [0x01]⟩

def gatewayEvents : List (Gateway × GatewayEvent defaultConfig) :=
  [(gatewayStart, .frame firstFrame.toCanFrame),
    (gatewayStart.canRouterFrameCb defaultConfig 0 .lincan firstFrame.toCanFrame,
      .frame ⟨0x7E0, 1, [0x01]⟩)]

end Can

end Ardep
