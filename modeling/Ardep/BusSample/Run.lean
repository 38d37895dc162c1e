import Ardep.BusSample.Model
/-!
# Bus sample — what the controller gets back

Each stage of the chain has one frame, whatever the order of things: the
frame board `i` sends is `frameAt i`, the one before it signed by `i`. So
a frame that is overwritten is overwritten by itself, and a second frame
under way, left from a routine that timed out, is the same frame.

`result_valid` is the client's check. It takes a controller whose own
worker, configured in an earlier run of the sample, is for an id that no
worker of this one sends on, and frames that come to the routine that waits
for them (`InTime`): to its own filter, and not to one that an earlier
routine left behind when its first frame could not be sent, and not so late
that the semaphore is given for the next routine.
-/

namespace Ardep

namespace BusSample

open Gearshift Uds

/-! ## What the client configures -/

section Configure

variable {n i : ℕ} {added : ℕ → ℤ} {boards boards' : ℕ → Worker}

/-- What a board reads of two bytes is what the client wrote. -/
theorem sysLe16_encode {v : ℕ} (h : v < 2 ^ 16) : sysLe16 (encode v) = UInt16.ofNat v := by
  refine UInt16.toNat_inj.mp ?_
  have hsum := Nat.two_pow_add_eq_or_of_lt (b := v % 256) (i := 8) (by omega) (v / 256)
  have hshift : (v / 256) <<< 8 = 2 ^ 8 * (v / 256) := by rw [Nat.shiftLeft_eq, Nat.mul_comm]
  show (_ ||| _ : UInt16).toNat = _
  rw [UInt16.toNat_or, UInt16.toNat_shiftLeft]
  show v % 256 ||| ((v / 256 % 256) <<< 8) % 2 ^ 16 = v % 2 ^ 16
  rw [Nat.mod_eq_of_lt (a := v / 256) (by omega), hshift,
    Nat.mod_eq_of_lt (a := 2 ^ 8 * (v / 256)) (by omega), Nat.or_comm, ← hsum]
  omega

/-- What a board has after the client's two writes. -/
structure Configured (n i : ℕ) (b : Worker) : Prop where
  filter : b.filter = some (UInt16.ofNat (receiveAddress i))
  canSendAddr : b.canSendAddr = UInt16.ofNat (sendAddress n i)

theorem configureWorker_eq_some {a : ℤ} {b b' : Worker} (hn : n ≤ 8) (hi : i < n)
    (h : configureWorker n i a b = some b') : Configured n i b' := by
  have hreceive : sysLe16 (encode (receiveAddress i)) = UInt16.ofNat (receiveAddress i) :=
    sysLe16_encode (by unfold receiveAddress; split <;> omega)
  have hsend : sysLe16 (encode (sendAddress n i)) = UInt16.ofNat (sendAddress n i) :=
    sysLe16_encode (by unfold sendAddress; split <;> omega)
  unfold configureWorker wDataByIdAction at h
  by_cases ha : a < 0
  · simp [ha, encode] at h
  · simp [ha, encode] at h
    rw [← h]
    exact ⟨congrArg some hreceive, hsend⟩

theorem configureFrom_eq_some (hn : n ≤ 8) : ∀ {left i : ℕ} {boards boards' : ℕ → Worker},
    i + left ≤ n → configureFrom n added i left boards = some boards' →
      (∀ j, i ≤ j → j < i + left → Configured n j (boards' j)) ∧
        ∀ j, j < i → boards' j = boards j
  | 0, i, boards, boards', _, h => by
    cases h
    exact ⟨fun j hlow hhigh => absurd hlow (by omega), fun _ _ => rfl⟩
  | left + 1, i, boards, boards', hle, h => by
    rw [configureFrom] at h
    cases hb : configureWorker n i (added i) (boards i) with
    | none => rw [hb] at h; cases h
    | some b =>
      rw [hb] at h
      obtain ⟨hdone, hsame⟩ := configureFrom_eq_some hn (i := i + 1) (by omega) h
      refine ⟨fun j hlow hhigh => ?_, fun j hj => ?_⟩
      · by_cases hji : j = i
        · rw [hji, hsame i (by omega), Function.update_self]
          exact configureWorker_eq_some hn (by omega) hb
        · exact hdone j (by omega) (by omega)
      · rw [hsame j (by omega), Function.update_of_ne (by omega)]

/-- **The client leaves a chain**: every worker receives what the board
before it sends. -/
theorem configured_of_configure (hn : n ≤ 8) (h : configure n added boards = some boards')
    (h0 : 0 < i) (hi : i < n) : Configured n i (boards' i) :=
  (configureFrom_eq_some hn (by omega) h).1 i (by omega) (by omega)

end Configure

namespace Chain

variable (C : Chain)

/-- A chain of two to eight boards as the client leaves it, the
controller's own worker being for no id that a worker sends on. -/
structure Ready : Prop where
  two_le : 2 ≤ C.n
  le_eight : C.n ≤ 8
  configured : ∀ i, 0 < i → i < C.n → Configured C.n i (C.boards i)
  quiet : ∀ a ∈ (C.boards 0).filter, ∀ i, 0 < i → i < C.n → ¬ Matches a.toNat (sendAddress C.n i)

/-- The frame that board `i` sends. -/
def frameAt : ℕ → CanFrame
  | 0 => initialFrame
  | i + 1 => C.handled (i + 1) (frameAt i) (frameAt i)

variable {C}

/-- The id of a frame of the chain. -/
def idAt (C : Chain) (i : ℕ) : ℕ := if i = 0 then 0x001 else sendAddress C.n i

theorem frameAt_spec (hC : C.Ready) : ∀ {i : ℕ}, i < C.n →
    (C.frameAt i).id = C.idAt i ∧ (C.frameAt i).dlc = i + 1 ∧ (C.frameAt i).data 0 = 0xde ∧
      ∀ k, 0 < k → k ≤ i → (C.frameAt i).data k = 0xde ^^^ UInt8.ofNat (C.sourceAddr k)
  | 0, _ => ⟨rfl, rfl, rfl, fun k h0 hk => absurd hk (by omega)⟩
  | i + 1, hi => by
    obtain ⟨-, hdlc, hfirst, hsigned⟩ := frameAt_spec hC (i := i) (by omega)
    have hle := hC.le_eight
    have hshort : ¬ (C.frameAt i).dlc + 1 > 8 := by omega
    have hframe : C.frameAt (i + 1) =
        { id := (C.boards (i + 1)).canSendAddr.toNat
          dlc := (C.frameAt i).dlc + 1
          data := Function.update (C.frameAt i).data (C.frameAt i).dlc
            ((C.frameAt i).data 0 ^^^ UInt8.ofNat (C.sourceAddr (i + 1))) } := by
      rw [frameAt, handled, if_neg hshort]
    rw [hframe]
    refine ⟨?_, congrArg (· + 1) hdlc, ?_, fun k h0 hk => ?_⟩
    · show (C.boards (i + 1)).canSendAddr.toNat = _
      rw [(hC.configured (i + 1) (by omega) hi).canSendAddr, idAt, if_neg (by omega)]
      refine Nat.mod_eq_of_lt ?_
      unfold sendAddress
      split <;> omega
    · have hne : 0 ≠ (C.frameAt i).dlc := by omega
      exact (Function.update_of_ne hne _ _).trans hfirst
    · by_cases hlast : k = i + 1
      · simp only [hlast, ← hdlc, Function.update_self, hfirst]
      · have hne : k ≠ (C.frameAt i).dlc := by omega
        exact (Function.update_of_ne hne _ _).trans (hsigned k h0 (by omega))

/-! ## One step -/

/-- A worker's filter lets in the frame of the board before it. -/
theorem matches_iff (hC : C.Ready) {i j : ℕ} (h0 : 0 < i) (hi : i < C.n) (hj : j < C.n) :
    (∃ a ∈ (C.boards i).filter, Matches a.toNat (C.idAt j)) ↔ i = j + 1 := by
  have hle := hC.le_eight
  have hreceive : (UInt16.ofNat (receiveAddress i)).toNat = receiveAddress i := by
    refine Nat.mod_eq_of_lt ?_
    unfold receiveAddress
    split <;> omega
  rw [(hC.configured i h0 hi).filter]
  simp only [Option.mem_def, Option.some.injEq, exists_eq_left', hreceive]
  unfold Matches receiveAddress idAt sendAddress
  constructor
  · intro h
    split_ifs at h <;> omega
  · intro h
    split_ifs <;> omega

/-- The routine's filter lets in the frame of the last board. -/
theorem matches_zero_iff (hC : C.Ready) {j : ℕ} (hj : j < C.n) :
    Matches 0 (C.idAt j) ↔ j = C.n - 1 := by
  have htwo := hC.two_le
  have hle := hC.le_eight
  unfold Matches idAt sendAddress
  constructor
  · intro h
    split_ifs at h <;> omega
  · intro h
    split_ifs <;> omega

/-- A frame of the chain is for the next board alone. -/
theorem canRx_frameAt (hC : C.Ready) {j : ℕ} (hj : j < C.n) (i : ℕ) (w : WorkerState) :
    C.canRx j (C.frameAt j) i w =
      if i = j + 1 ∧ i < C.n then { w with receivedCanFrame := C.frameAt j, queued := true }
      else w := by
  refine if_congr ?_ rfl rfl
  rw [(frameAt_spec hC hj).1]
  rcases Nat.eq_zero_or_pos i with rfl | h0
  · refine iff_of_false ?_ (by omega)
    -- the controller's own worker is for another id
    rintro ⟨hne, -, a, ha, hmatch⟩
    rw [idAt, if_neg (fun hj0 => hne hj0.symm)] at hmatch
    exact hC.quiet a ha j (by omega) hj hmatch
  · constructor
    · rintro ⟨-, hi, hmatch⟩
      exact ⟨(matches_iff hC h0 hi hj).mp hmatch, hi⟩
    · rintro ⟨hnext, hi⟩
      exact ⟨by omega, hi, (matches_iff hC h0 hi hj).mpr hnext⟩

/-- And the last one for the controller. -/
theorem reaches_frameAt_iff (hC : C.Ready) {j : ℕ} (hj : j < C.n) (ctl : ControllerState) :
    Reaches j (C.frameAt j) ctl ↔ j = C.n - 1 ∧ (ctl.filter = true ∨ ctl.leftBehind = true) := by
  have htwo := hC.two_le
  unfold Reaches
  rw [(frameAt_spec hC hj).1, matches_zero_iff hC hj]
  constructor
  · rintro ⟨-, hfilter, hlast⟩
    exact ⟨hlast, hfilter⟩
  · rintro ⟨hlast, hfilter⟩
    exact ⟨by omega, hfilter, hlast⟩

/-- **What holds of the chain at work.** A frame is the one of its stage;
the semaphore is given only while the routine waits for it, and then with
the last frame. -/
structure Ok (C : Chain) (s : State) : Prop where
  bus : ∀ p ∈ s.bus, p.1 < C.n ∧ p.2 = C.frameAt p.1
  received : ∀ i, (s.work i).queued = true ∨ (s.work i).toSend ≠ none →
    0 < i ∧ i < C.n ∧ (s.work i).receivedCanFrame = C.frameAt (i - 1)
  toSend : ∀ i, ∀ frame ∈ (s.work i).toSend, frame = C.frameAt (i - 1)
  sem : s.ctl.sem = true → (s.ctl.phase = .filtered ∨ s.ctl.phase = .sent) ∧
    s.ctl.controllerReceivedFrame = C.frameAt (C.n - 1)
  got : s.ctl.phase = .taken true ∨ s.ctl.phase = .removed true →
    s.ctl.controllerReceivedFrame = C.frameAt (C.n - 1)
  result : s.ctl.status = 0x00 → ∀ k, k < C.n → s.ctl.data k = (C.frameAt (C.n - 1)).data k

/-- A request to start the routine was accepted, and nothing else is under
way. -/
structure Started (s : State) : Prop where
  bus : s.bus = []
  work : ∀ i, (s.work i).queued = false ∧ (s.work i).toSend = none
  phase : s.ctl.phase = .submitted
  status : s.ctl.status = 0xFF
  sem : s.ctl.sem = false

/-- The chain at work. -/
def machine (C : Chain) : Machine State Event where
  init := Started
  Step s e s' := C.step s e = some s'

/-- **The semaphore is for the routine that waits**: a frame comes to its own
filter, before it has taken the semaphore, and one whose first frame cannot
be sent does not leave it given. -/
def InTime (s : State) (e : Event) : Prop :=
  (∀ k served, e = .transmit k served → ∀ p ∈ s.bus[k]?, Reaches p.1 p.2 s.ctl →
      served = .own ∧ (s.ctl.phase = .filtered ∨ s.ctl.phase = .sent)) ∧
    (e = .sendFirst false → s.ctl.sem = false)

namespace Ok

variable {s s' : State} {i k : ℕ}

theorem start (h : Started s) : Ok C s where
  bus := by
    rw [h.bus]
    exact nofun
  received := fun i hi => by
    obtain ⟨hqueued, hnone⟩ := h.work i
    rcases hi with hi | hi
    · rw [hqueued] at hi
      cases hi
    · exact absurd hnone hi
  toSend := fun i frame hframe => by
    rw [(h.work i).2] at hframe
    cases hframe
  sem := fun hsem => by
    rw [h.sem] at hsem
    cases hsem
  got := fun hgot => by
    rw [h.phase] at hgot
    rcases hgot with hgot | hgot <;> cases hgot
  result := fun hstatus => by
    rw [h.status] at hstatus
    exact absurd hstatus (by decide)

/-- What a frame on the bus makes of a worker. -/
theorem canRx (hC : C.Ready) (h : Ok C s) {j : ℕ} {frame : CanFrame} (hp : (j, frame) ∈ s.bus)
    (i : ℕ) :
    (C.canRx j frame i (s.work i)).toSend = (s.work i).toSend ∧
      ((C.canRx j frame i (s.work i)).queued = true ∨ (s.work i).toSend ≠ none →
        0 < i ∧ i < C.n ∧ (C.canRx j frame i (s.work i)).receivedCanFrame = C.frameAt (i - 1)) := by
  obtain ⟨hj, rfl⟩ : j < C.n ∧ frame = C.frameAt j := h.bus _ hp
  rw [canRx_frameAt hC hj]
  split_ifs with hnext
  · obtain ⟨rfl, hi⟩ := hnext
    exact ⟨rfl, fun _ => ⟨Nat.succ_pos j, hi, rfl⟩⟩
  · exact ⟨rfl, h.received i⟩

/-- What it makes of the controller. -/
theorem controllerRoutineRx (hC : C.Ready) (h : Ok C s) {j : ℕ} {frame : CanFrame}
    {served : Served} (hp : (j, frame) ∈ s.bus) (hin : Reaches j frame s.ctl →
      served = .own ∧ (s.ctl.phase = .filtered ∨ s.ctl.phase = .sent)) :
    Chain.controllerRoutineRx j frame served s.ctl = s.ctl ∨
      (s.ctl.phase = .filtered ∨ s.ctl.phase = .sent) ∧
        Chain.controllerRoutineRx j frame served s.ctl =
          { s.ctl with sem := true, controllerReceivedFrame := C.frameAt (C.n - 1) } := by
  obtain ⟨hj, rfl⟩ : j < C.n ∧ frame = C.frameAt j := h.bus _ hp
  by_cases hreach : Reaches j (C.frameAt j) s.ctl
  · obtain ⟨rfl, hphase⟩ := hin hreach
    obtain ⟨rfl, -⟩ := (reaches_frameAt_iff hC hj s.ctl).mp hreach
    exact .inr ⟨hphase, by rw [Chain.controllerRoutineRx, if_pos hreach]⟩
  · exact .inl (if_neg hreach)

/-- A step of the controller. -/
theorem withCtl (h : Ok C s) (ctl : ControllerState)
    (hsem : ctl.sem = true → (ctl.phase = .filtered ∨ ctl.phase = .sent) ∧
      ctl.controllerReceivedFrame = C.frameAt (C.n - 1))
    (hgot : ctl.phase = .taken true ∨ ctl.phase = .removed true →
      ctl.controllerReceivedFrame = C.frameAt (C.n - 1))
    (hresult : ctl.status = 0x00 → ∀ k, k < C.n → ctl.data k = (C.frameAt (C.n - 1)).data k) :
    Ok C { s with ctl := ctl } :=
  { h with sem := hsem, got := hgot, result := hresult }

/-- Outside of the wait the semaphore is not given. -/
theorem sem_eq_false (h : Ok C s) {phase : RoutinePhase} (hphase : s.ctl.phase = phase)
    (hfiltered : phase ≠ .filtered) (hsent : phase ≠ .sent) : s.ctl.sem = false := by
  rw [Bool.eq_false_iff]
  intro hsem
  rcases (h.sem hsem).1 with hp | hp
  · exact hfiltered (hphase ▸ hp)
  · exact hsent (hphase ▸ hp)

/-- A step of the controller outside of the wait. -/
theorem outside (h : Ok C s) {ctl : ControllerState} {phase : RoutinePhase}
    (hphase : s.ctl.phase = phase) (hfiltered : phase ≠ .filtered) (hsent : phase ≠ .sent)
    (hsem : ctl.sem = s.ctl.sem)
    (hgot : ctl.phase = .taken true ∨ ctl.phase = .removed true →
      ctl.controllerReceivedFrame = C.frameAt (C.n - 1))
    (hresult : ctl.status = 0x00 → ∀ k, k < C.n → ctl.data k = (C.frameAt (C.n - 1)).data k) :
    Ok C { s with ctl := ctl } := by
  refine h.withCtl ctl (fun hgiven => ?_) hgot hresult
  rw [hsem, h.sem_eq_false hphase hfiltered hsent] at hgiven
  cases hgiven

/-! What each event makes of it. -/

theorem transmit (hC : C.Ready) (h : Ok C s) {served : Served}
    (hin : InTime s (.transmit k served)) (hs : C.step s (.transmit k served) = some s') :
    Ok C s' := by
  simp only [Chain.step] at hs
  cases hp : s.bus[k]? with
  | none => rw [hp] at hs; cases hs
  | some p =>
    obtain ⟨j, frame⟩ := p
    simp only [hp] at hs
    split_ifs at hs
    obtain rfl := Option.some.inj hs
    have hmem := List.mem_of_getElem? hp
    have hwork := h.canRx hC hmem
    refine ⟨fun q hq => h.bus q (List.mem_of_mem_eraseIdx hq), fun i hi => ?_,
      fun i frame hframe => ?_, ?_, ?_, ?_⟩
    · rw [(hwork i).1] at hi
      exact (hwork i).2 hi
    · rw [(hwork i).1] at hframe
      exact h.toSend i frame hframe
    all_goals
      rcases h.controllerRoutineRx hC hmem (hin.1 k served rfl (j, frame) hp) with heq | ⟨hphase, heq⟩
    · simp only [heq]
      exact h.sem
    · simp only [heq]
      exact fun _ => ⟨hphase, trivial⟩
    · simp only [heq]
      exact h.got
    · simp only [heq]
      exact fun _ => trivial
    · simp only [heq]
      exact h.result
    · simp only [heq]
      exact h.result

theorem copy (h : Ok C s) (hs : C.step s (.copy i) = some s') : Ok C s' := by
  simp only [Chain.step] at hs
  split_ifs at hs with hen
  obtain rfl := Option.some.inj hs
  obtain ⟨h0, hi, hreceived⟩ := h.received i (.inl hen.2.1)
  refine { h with received := fun m hm => ?_, toSend := fun m frame hframe => ?_ }
  · by_cases hmi : m = i
    · subst hmi
      simp only [Function.update_self]
      exact ⟨h0, hi, hreceived⟩
    · simp only [Function.update_of_ne hmi] at hm ⊢
      exact h.received m hm
  · by_cases hmi : m = i
    · subst hmi
      simp only [Function.update_self, Option.mem_some_iff] at hframe
      rw [← hframe, hreceived]
    · simp only [Function.update_of_ne hmi] at hframe
      exact h.toSend m frame hframe

theorem send (h : Ok C s) {accepted : Bool} (hs : C.step s (.send i accepted) = some s') :
    Ok C s' := by
  simp only [Chain.step] at hs
  cases hto : (s.work i).toSend with
  | none => rw [hto] at hs; cases hs
  | some toSend =>
    obtain ⟨h0, hi, hreceived⟩ := h.received i (.inr (by rw [hto]; exact Option.some_ne_none _))
    simp only [hto, if_pos hi] at hs
    obtain rfl := Option.some.inj hs
    have hcopy := h.toSend i toSend hto
    refine { h with bus := fun p hp => ?_, received := fun m hm => ?_,
                    toSend := fun m frame hframe => ?_ }
    · cases accepted with
      | false => exact h.bus p hp
      | true =>
        rcases List.mem_cons.mp hp with rfl | hp
        · refine ⟨hi, ?_⟩
          obtain ⟨j, rfl⟩ := Nat.exists_eq_add_of_lt h0
          rw [hcopy, hreceived, Nat.zero_add, Nat.add_sub_cancel]
          rfl
        · exact h.bus p hp
    · by_cases hmi : m = i
      · subst hmi
        simp only [Function.update_self, ne_eq, not_true_eq_false, or_false] at hm ⊢
        exact h.received m (.inl hm)
      · simp only [Function.update_of_ne hmi] at hm ⊢
        exact h.received m hm
    · by_cases hmi : m = i
      · subst hmi
        simp only [Function.update_self] at hframe
        cases hframe
      · simp only [Function.update_of_ne hmi] at hframe
        exact h.toSend m frame hframe

theorem startRoutine (h : Ok C s) (hs : C.step s .startRoutine = some s') : Ok C s' := by
  obtain rfl := Option.some.inj hs
  unfold asyncRoutineControlStart
  by_cases hphase : s.ctl.phase = .idle
  · rw [if_neg (not_not.mpr hphase)]
    split_ifs
    · exact h
    · exact h.outside hphase (by decide) (by decide) rfl (by simp) (by simp)
  · rw [if_pos hphase]
    exact h

theorem begin (h : Ok C s) (hs : C.step s .begin = some s') : Ok C s' := by
  simp only [Chain.step] at hs
  split_ifs at hs with hphase
  obtain rfl := Option.some.inj hs
  exact h.outside hphase (by decide) (by decide) rfl (by simp) h.result

theorem addFilter (h : Ok C s) {added : Bool} {uninitialised : CanFrame}
    (hs : C.step s (.addFilter added uninitialised) = some s') : Ok C s' := by
  simp only [Chain.step] at hs
  split_ifs at hs with hphase
  obtain rfl := Option.some.inj hs
  have hsem := h.sem_eq_false hphase (by decide) (by decide)
  exact h.withCtl _ (fun hgiven => absurd hgiven (by rw [hsem]; decide)) (by simp) h.result

theorem sendFirst (hC : C.Ready) (h : Ok C s) {accepted : Bool}
    (hin : InTime s (.sendFirst accepted)) (hs : C.step s (.sendFirst accepted) = some s') :
    Ok C s' := by
  simp only [Chain.step] at hs
  split_ifs at hs with hphase haccepted
  · obtain rfl := Option.some.inj hs
    refine { h.withCtl { s.ctl with phase := .sent }
      (fun hgiven => ⟨.inr rfl, (h.sem hgiven).2⟩) (by simp) h.result with bus := fun p hp => ?_ }
    rcases List.mem_cons.mp hp with rfl | hp
    · have htwo := hC.two_le
      exact ⟨by omega, rfl⟩
    · exact h.bus p hp
  · obtain rfl := Option.some.inj hs
    have hsem := hin.2 (by rw [Bool.eq_false_iff.mpr haccepted])
    exact h.withCtl _ (fun hgiven => absurd hgiven (by rw [hsem]; decide)) (by simp) (by simp)

theorem take (h : Ok C s) (hs : C.step s .take = some s') : Ok C s' := by
  simp only [Chain.step] at hs
  split_ifs at hs with hphase
  obtain rfl := Option.some.inj hs
  refine h.withCtl _ (by simp) (fun htaken => (h.sem ?_).2) h.result
  simpa using htaken

theorem removeFilter (h : Ok C s) (hs : C.step s .removeFilter = some s') : Ok C s' := by
  simp only [Chain.step] at hs
  cases hphase : s.ctl.phase with
  | taken ret =>
    rw [hphase] at hs
    obtain rfl := Option.some.inj hs
    refine h.outside hphase (by simp) (by simp) rfl (fun hret => h.got (.inl ?_)) h.result
    rw [hphase]
    simpa using hret
  | _ => rw [hphase] at hs; cases hs

theorem finish (hC : C.Ready) (h : Ok C s) (hs : C.step s .finish = some s') : Ok C s' := by
  simp only [Chain.step] at hs
  cases hphase : s.ctl.phase with
  | removed ret =>
    rw [hphase] at hs
    cases ret with
    | true =>
      obtain rfl := Option.some.inj hs
      have hgot := h.got (.inr hphase)
      have htwo := hC.two_le
      have hle := hC.le_eight
      have hdlc := (frameAt_spec hC (i := C.n - 1) (by omega)).2.1
      refine h.outside hphase (by decide) (by decide) rfl (by simp) fun _ k hk => ?_
      simp only [hgot]
      rw [if_pos (by omega)]
    | false =>
      obtain rfl := Option.some.inj hs
      exact h.outside hphase (by decide) (by decide) rfl (by simp) (by simp)
  | _ => rw [hphase] at hs; cases hs

/-- **A step.** -/
theorem step (hC : C.Ready) (h : Ok C s) {e : Event} (hin : InTime s e)
    (hs : C.step s e = some s') : Ok C s' := by
  cases e with
  | transmit k served => exact h.transmit hC hin hs
  | copy i => exact h.copy hs
  | send i accepted => exact h.send hs
  | startRoutine => exact h.startRoutine hs
  | begin => exact h.begin hs
  | addFilter added uninitialised => exact h.addFilter hs
  | sendFirst accepted => exact h.sendFirst hC hin hs
  | take => exact h.take hs
  | removeFilter => exact h.removeFilter hs
  | finish => exact h.finish hC hs

end Ok

/-! ## Runs -/

/-- The address a board signs with is the one the client sends to. -/
theorem sourceAddr_eq (C : Chain) (i : ℕ) : C.sourceAddr i = C.txid i := by
  have hlen : (C.levels i).length ≤ 31 := by rw [C.three_pins i]; omega
  rw [sourceAddr, getAddresses_ok hlen, txid, C.found_eq]
  rfl

/-- What the client configures is a chain that is ready. -/
theorem ready_of_configure {added : ℕ → ℤ} {before : ℕ → Worker} (htwo : 2 ≤ C.n) (hle : C.n ≤ 8)
    (hconf : configure C.n added before = some C.boards)
    (hquiet : ∀ a ∈ (before 0).filter, ∀ i, 0 < i → i < C.n →
      ¬ Matches a.toNat (sendAddress C.n i)) : C.Ready where
  two_le := htwo
  le_eight := hle
  configured := fun _ h0 hi => configured_of_configure hle hconf h0 hi
  quiet := by
    rw [(configureFrom_eq_some hle (by omega) hconf).2 0 (by omega)]
    exact hquiet

/-- The frame of the last board passes the client's check. -/
theorem signaturesValid_of_last (hC : C.Ready) {data : ℕ → UInt8}
    (h : ∀ k, k < C.n → data k = (C.frameAt (C.n - 1)).data k) :
    C.signaturesValid data ∧ data 0 = 0xde := by
  have htwo := hC.two_le
  obtain ⟨-, -, hfirst, hsigned⟩ := frameAt_spec hC (i := C.n - 1) (by omega)
  have h0 : data 0 = 0xde := (h 0 (by omega)).trans hfirst
  refine ⟨fun i hi hin => ?_, h0⟩
  rw [h i hin, hsigned i hi (by omega), h0, sourceAddr_eq]

/-- **A result is valid.** For every chain of two to eight boards that the
client configured, in any order of the boards and from whatever they had
been set to before, and every run of the routine's work, the workers' work
and the bus, with requests to start the routine again, sends that fail and
timeouts: whenever the routine has a successful result, it is the
controller's byte and the signature of every worker, each with the address
that the client knows the worker by. The controller's own worker must not
be left on an id of the chain, and the frames that come back must come to
the routine that waits for them. -/
theorem result_valid {added : ℕ → ℤ} {before : ℕ → Worker} {s : State} (htwo : 2 ≤ C.n)
    (hle : C.n ≤ 8) (hconf : configure C.n added before = some C.boards)
    (hquiet : ∀ a ∈ (before 0).filter, ∀ i, 0 < i → i < C.n →
      ¬ Matches a.toNat (sendAddress C.n i))
    (h : (C.machine.guard InTime).Reachable s) (hstatus : s.ctl.status = 0x00) :
    C.signaturesValid s.ctl.data ∧ s.ctl.data 0 = 0xde := by
  have hC := ready_of_configure htwo hle hconf hquiet
  have hok : Ok C s := by
    refine h.invariant (P := Ok C) (fun s (hs : Started s) => Ok.start hs) ?_
    rintro s e s' hok ⟨hin, hs⟩
    exact hok.step hC hin hs
  exact signaturesValid_of_last hC (hok.result hstatus)

end Chain

/-! ## Two boards -/

/-- A board that has only just started. -/
def freshWorker : Worker := ⟨0, 0, -1, none⟩

/-- Two boards in the positions 0 and 1, listed the other way round. -/
def twoBoards : Chain where
  n := 2
  boards := Function.update (fun _ => freshWorker) 1 ⟨0x001, 0x000, 0, some 0x001⟩
  levels := fun i => if i = 0 then [true, false, false] else [false, false, false]
  found := fun i => if i = 0 then 1 else 0
  found_eq := fun i => by split <;> rfl
  three_pins := fun i => by split <;> rfl

theorem configure_twoBoards :
    configure twoBoards.n (fun _ => 0) (fun _ => freshWorker) = some twoBoards.boards := rfl

/-- A frame nobody has sent. -/
def emptyFrame : CanFrame := ⟨0, 0, fun _ => 0⟩

/-- The routine was started. -/
def startedState : State where
  work := fun _ => ⟨emptyFrame, false, none⟩
  ctl := ⟨.submitted, false, 0xFF, fun _ => 0, false, false, false, emptyFrame⟩
  bus := []

theorem started_startedState : Chain.Started startedState :=
  ⟨rfl, fun _ => ⟨rfl, rfl⟩, rfl, rfl, rfl⟩

theorem reachable_step {C : Chain} {s s' : State} (e : Event)
    (h : (C.machine.guard Chain.InTime).Reachable s) (hin : Chain.InTime s e)
    (hs : C.step s e = some s') : (C.machine.guard Chain.InTime).Reachable s' := h.step ⟨hin, hs⟩

/-- The frame goes round once, and the worker in position 0 has signed
it. -/
theorem result_valid_twoBoards : ∃ s : State, s.ctl.status = 0x00 ∧
    s.ctl.data 1 = 0xde ^^^ 0xE8 ∧ twoBoards.signaturesValid s.ctl.data := by
  have h0 : (twoBoards.machine.guard Chain.InTime).Reachable startedState :=
    .init started_startedState
  have h1 := reachable_step .begin h0 ⟨nofun, nofun⟩ rfl
  have h2 := reachable_step (.addFilter true emptyFrame) h1 ⟨nofun, nofun⟩ rfl
  have h3 := reachable_step (.sendFirst true) h2 ⟨nofun, nofun⟩ rfl
  have h4 := reachable_step (.transmit 0 .own) h3 ⟨by
    rintro k served hk p hp hreach
    cases hk
    cases hp
    exact absurd rfl hreach.1, nofun⟩ rfl
  have h5 := reachable_step (.copy 1) h4 ⟨nofun, nofun⟩ rfl
  have h6 := reachable_step (.send 1 true) h5 ⟨nofun, nofun⟩ rfl
  have h7 := reachable_step (.transmit 0 .own) h6 ⟨by
    rintro k served hk - - -
    cases hk
    exact ⟨rfl, .inr rfl⟩, nofun⟩ rfl
  have h8 := reachable_step .take h7 ⟨nofun, nofun⟩ rfl
  have h9 := reachable_step .removeFilter h8 ⟨nofun, nofun⟩ rfl
  have h10 := reachable_step .finish h9 ⟨nofun, nofun⟩ rfl
  exact ⟨_, rfl, rfl,
    (Chain.result_valid (by decide) (by decide) configure_twoBoards nofun h10 rfl).1⟩

end BusSample

end Ardep
