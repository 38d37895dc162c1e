import Ardep.Uds.Link.Walk
/-!
# Link control — what a verification is good for

A TransitionMode request carries out what a verify request prepared. The
handler keeps the modifier verified last and that there was one
(`recorded`), and of the two it reads the second only: the bitrate comes
from the byte the transition itself shows, and the flag, once set, is
never taken back. `setsVerified_iff` and `authorised_iff` say in which
runs neither is noticed.
-/

namespace Ardep

namespace Uds

namespace Link

/-! ## Histories -/

section Histories

variable {F U W : Type}

/-- The modifier a request verified, where it is a verify request and was
accepted. -/
def Event.verified? (e : Event F U) : Option UInt8 :=
  match e.request with
  | .linkControl args =>
    if args.type = verifyModeTransitionWithFixedParameter ∧ e.answer = .positiveResponse then
      some args.data
    else none
  | _ => none

/-- The modifier of the most recently accepted verify request. -/
def lastVerified (past : List (W × Event F U)) : Option UInt8 :=
  past.reverse.findSome? (·.2.verified?)

/-- The event returned the link to its default bitrate: a change to the
default session or a session timeout. -/
def Event.returned (e : Event F U) : Bool :=
  match e.request with
  | .linkControl _ => false
  | .diagSessCtrl type => type = diagSessionDefault ∧ e.answer = .positiveResponse
  | .sessionTimeout => true

/-- A verify request was accepted after the last event that returned the
link. -/
def VerifiedSinceReturn (past : List (W × Event F U)) : Prop :=
  ∃ x ∈ past.reverse.takeWhile (fun x => !x.2.returned), x.2.verified?.isSome

instance (past : List (W × Event F U)) : Decidable (VerifiedSinceReturn past) :=
  inferInstanceAs (Decidable (∃ x ∈ _, _))

/-- A history none of whose requests is a transition. -/
theorem not_transition_of_mem {past : List (W × Event F U)}
    (h : past.all fun x =>
      x.2.request.event ≠ .linkControl ∨ x.2.request.args.type ≠ transitionMode)
    {x : W × Event F U} (hx : x ∈ past) (data : UInt8) :
    x.2.request ≠ .linkControl ⟨transitionMode, data⟩ := by
  intro hreq
  have hor := of_decide_eq_true (List.all_eq_true.mp h x hx)
  rw [hreq] at hor
  exact hor.elim (· rfl) (· rfl)

theorem lastVerified_concat {past : List (W × Event F U)} {w : W} {e : Event F U} :
    lastVerified (past ++ [(w, e)]) = e.verified?.or (lastVerified past) := by
  simp [lastVerified, List.findSome?_cons]
  cases e.verified? <;> rfl

end Histories

/-! ## The controller -/

section Controller

variable {D : Type} {driver : CanDriver D} {b : UInt32}

/-- The controller stops and takes the bitrate. -/
def Takes (driver : CanDriver D) (b : UInt32) (d : D) : Prop :=
  (driver.canStop d).1 = 0 ∧ (driver.canSetBitrate b (driver.canStop d).2).1 = 0

/-- And it starts again. -/
def Accepts (driver : CanDriver D) (b : UInt32) (d : D) : Prop :=
  Takes driver b d ∧ (driver.canStart (driver.canSetBitrate b (driver.canStop d).2).2).1 = 0

instance (driver : CanDriver D) (b : UInt32) (d : D) : Decidable (Takes driver b d) :=
  inferInstanceAs (Decidable (_ ∧ _))

instance (driver : CanDriver D) (b : UInt32) (d : D) : Decidable (Accepts driver b d) :=
  inferInstanceAs (Decidable (_ ∧ _))

/-- The driver with the bitrates it took logged beside the controller. -/
def CanDriver.logged (driver : CanDriver D) : CanDriver (D × List UInt32) where
  canStop := fun d => ((driver.canStop d.1).1, (driver.canStop d.1).2, d.2)
  canSetBitrate := fun b d =>
    let (ret, can) := driver.canSetBitrate b d.1
    (ret, can, if ret = 0 then d.2 ++ [b] else d.2)
  canStart := fun d => ((driver.canStart d.1).1, (driver.canStart d.1).2, d.2)

/-- A bitrate is set without an error when every call succeeds. -/
theorem udsSetCanBitrate_eq_ok {d : D} :
    (udsSetCanBitrate driver b d).1 = .ok ↔ Accepts driver b d := by
  have hne : UDSErr.conditionsNotCorrect ≠ .ok := by decide
  rw [udsSetCanBitrate_run, Accepts, Takes]
  split_ifs with hstop htake hstart
  · exact iff_of_false hne fun h => hstop h.1.1
  · exact iff_of_false hne fun h => htake h.1.2
  · exact iff_of_false hne fun h => hstart h.2
  · exact iff_of_true rfl ⟨⟨not_not.mp hstop, not_not.mp htake⟩, not_not.mp hstart⟩

/-- Setting a bitrate logs it where the controller takes it. -/
theorem udsSetCanBitrate_log {d : D × List UInt32} :
    (udsSetCanBitrate driver.logged b d).2.2 = if Takes driver b d.1 then d.2 ++ [b] else d.2 := by
  have hafter : (driver.logged.canStart
      (driver.logged.canSetBitrate b (driver.logged.canStop d).2).2).2.2 =
      if (driver.canSetBitrate b (driver.canStop d.1).2).1 = 0 then d.2 ++ [b] else d.2 := rfl
  have hstopped : (driver.logged.canStop d).1 = (driver.canStop d.1).1 := rfl
  rw [udsSetCanBitrate_run, hstopped]
  by_cases hstop : (driver.canStop d.1).1 = 0
  · have htakes : Takes driver b d.1 ↔ (driver.canSetBitrate b (driver.canStop d.1).2).1 = 0 :=
      and_iff_right hstop
    rw [if_congr htakes rfl rfl, ← hafter, if_neg (not_not.mpr hstop)]
    split_ifs <;> rfl
  · rw [if_pos hstop, if_neg fun h : Takes driver b d.1 => hstop h.1]
    rfl

end Controller

/-! ## What the statics record -/

section Recorded

variable {F U D σ : Type} {S : Setup F U D σ} {past : List (World D σ × Event F U)}
  {w w' : World D σ} {e : Event F U}

/-- **The statics are the history's**: the flag says whether a verify
request was accepted, and the modifier is the last one's. -/
def Recorded (past : List (World D σ × Event F U)) (w : World D σ) : Prop :=
  w.modifierSet = (lastVerified past).isSome ∧
    ∀ m, lastVerified past = some m → w.modifier = m ∧ Verifiable m

/-- An event that verified nothing and left the statics alone. -/
theorem recorded_of_same (h : Recorded past w) (hverified : e.verified? = none)
    (hmodifier : w'.modifier = w.modifier) (hset : w'.modifierSet = w.modifierSet) :
    Recorded (past ++ [(w, e)]) w' := by
  unfold Recorded
  rw [lastVerified_concat, hverified, Option.none_or, hmodifier, hset]
  exact h

/-- The events of the session leave the statics alone. -/
theorem raise_statics (hS : S.Installed) {request : Request} {dynamics : List (Reg F U)}
    (hdynamics : ∀ q ∈ dynamics, S.Dynamic q) (hreq : ∀ args, request ≠ .linkControl args) :
    (S.raise request dynamics w).2.modifier = w.modifier ∧
      (S.raise request dynamics w).2.modifierSet = w.modifierSet := by
  let I : World D σ → Prop := fun v => v.modifier = w.modifier ∧ v.modifierSet = w.modifierSet
  have happ : ∀ v app, I v → I { v with app := app } := fun _ _ h => h
  have hlink : ∀ args, request = .linkControl args → ∀ consume v, I v →
      I (udsActionDefaultLinkControl S.driver args consume v).2 :=
    fun args h => absurd h (hreq args)
  have hreturn : request.Returning → ∀ v, I v →
      I (udsActionDefaultLinkControlChangeDiagSession S.driver S.defaultCanBitrate v).2 :=
    fun _ _ h => h
  exact raise_keeps hS happ hlink hreturn hdynamics ⟨rfl, rfl⟩

/-- A LinkControl request keeps the record. -/
theorem recorded_linkControl (hfirst : S.First) {args : Args} {dynamics : List (Reg F U)}
    (h : Recorded past w) :
    Recorded
      (past ++ [(w, ⟨.linkControl args, dynamics, (S.raise (.linkControl args) dynamics w).1⟩)])
      (S.raise (.linkControl args) dynamics w).2 := by
  rw [raise_linkControl hfirst]
  obtain ⟨type, data⟩ := args
  by_cases hverify : type = verifyModeTransitionWithFixedParameter
  · subst hverify
    rw [answerLinkControl_verify]
    split_ifs with hdata hsession
    · exact recorded_of_same h rfl rfl rfl
    · -- the one way the statics change
      unfold Recorded
      rw [lastVerified_concat]
      refine ⟨rfl, fun m hm => ?_⟩
      obtain rfl : data = m := Option.some.inj hm
      exact ⟨rfl, hdata⟩
    · exact recorded_of_same h rfl rfl rfl
  · have hverified : ∀ answer, (⟨.linkControl ⟨type, data⟩, dynamics, answer⟩ :
        Event F U).verified? = none := fun answer => if_neg fun h => hverify h.1
    by_cases htransition : type = transitionMode
    · subst htransition
      rw [answerLinkControl_transition]
      split_ifs
      · exact recorded_of_same h rfl rfl rfl
      · exact recorded_of_same h rfl rfl rfl
      · exact recorded_of_same h (hverified _) rfl rfl
    · rw [answerLinkControl_other _ _ hverify htransition]
      exact recorded_of_same h (hverified _) rfl rfl

/-- **Along every run** the statics are the history's. -/
theorem recorded (hS : S.Installed) (hfirst : S.First) (h : (S.server Boot).Run past w) :
    Recorded past w := by
  refine h.invariant ?_ ?_
  · rintro s ⟨-, hset, -⟩
    exact ⟨hset, nofun⟩
  · rintro past s ⟨request, dynamics, answer⟩ s' hrec ⟨hdynamics, hanswer, session, -, rfl⟩
    obtain rfl : (S.raise request dynamics s).1 = answer := hanswer
    have hsame : (∀ args, request ≠ .linkControl args) → _ := raise_statics (w := s) hS hdynamics
    cases request with
    | linkControl args => exact recorded_linkControl hfirst hrec
    | diagSessCtrl type =>
      obtain ⟨hmodifier, hset⟩ := hsame (by rintro _ ⟨⟩)
      exact recorded_of_same hrec rfl hmodifier hset
    | sessionTimeout =>
      obtain ⟨hmodifier, hset⟩ := hsame (by rintro _ ⟨⟩)
      exact recorded_of_same hrec rfl hmodifier hset

end Recorded

/-! ## The bitrates set -/

section Logged

variable {F U D σ : Type}

/-- The state without the log. -/
def World.unlogged (w : World (D × List UInt32) σ) : World D σ :=
  ⟨w.modifier, w.modifierSet, w.sessionType, w.can.1, w.app⟩

/-- The instance with the bitrates its controller took logged. -/
def Setup.logged (S : Setup F U D σ) : Setup F U (D × List UInt32) σ where
  inst := S.inst
  driver := S.driver.logged
  defaultCanBitrate := S.defaultCanBitrate
  application :=
    ⟨fun f context applyAction w => S.application.check f context applyAction w.unlogged,
      fun f context consumeEvent w => S.application.action f context consumeEvent w.unlogged⟩
  statics := S.statics
  Dynamic := S.Dynamic

theorem Setup.Installed.logged {S : Setup F U D σ} (h : S.Installed) : S.logged.Installed :=
  ⟨h.linkControl, h.changeDiagSession, h.others⟩

theorem Setup.First.logged {S : Setup F U D σ} (h : S.First) : S.logged.First := h

/-- Setting a bitrate, seen without the log. -/
theorem udsSetCanBitrate_logged (driver : CanDriver D) (b : UInt32) :
    (ProgRel.through Prod.fst).Rel (udsSetCanBitrate driver.logged b)
      (udsSetCanBitrate driver b) := by
  refine ProgRel.rel_bind _ (fun _ => rfl) fun stopped => ?_
  refine ProgRel.rel_ite _ (ProgRel.rel_pure _ _) ?_
  refine ProgRel.rel_bind _ (fun _ => rfl) fun taken => ?_
  refine ProgRel.rel_ite _ ?_ ?_
  · exact ProgRel.rel_bind _ (fun _ => rfl) fun _ => ProgRel.rel_pure _ _
  · refine ProgRel.rel_bind _ (fun _ => rfl) fun started => ?_
    exact ProgRel.rel_ite _ (ProgRel.rel_pure _ _) (ProgRel.rel_pure _ _)

/-- A program on the controller, seen without the log, on the whole state. -/
theorem onCan_through {β : Type} {x : StateM (D × List UInt32) β} {y : StateM D β}
    (h : (ProgRel.through Prod.fst).Rel x y) :
    (ProgRel.through (World.unlogged (σ := σ))).Rel (onCan x) (onCan y) := by
  intro w
  have hrun : y w.can.1 = ((x w.can).1, (x w.can).2.1) := h w.can
  unfold onCan World.unlogged
  rw [hrun]
  rfl

theorem udsActionDefaultLinkControl_logged (driver : CanDriver D) (args : Args)
    (consume : Bool) :
    (ProgRel.through (World.unlogged (σ := σ))).Rel
      (udsActionDefaultLinkControl driver.logged args consume)
      (udsActionDefaultLinkControl driver args consume) := by
  intro w
  have hset : onCan (udsSetCanBitrate driver (udsLinkControlModifierToBaudrate args.data))
      w.unlogged = _ := onCan_through (udsSetCanBitrate_logged driver _) w
  have hsession : w.unlogged.sessionType = w.sessionType := rfl
  simp only [udsActionDefaultLinkControl, hset, hsession]
  split_ifs <;> rfl

/-- **The log changes nothing**: seen without it, an event is answered and
moves the state as before. -/
theorem raise_logged (S : Setup F U D σ) (request : Request) (dynamics : List (Reg F U)) :
    (ProgRel.through World.unlogged).Rel (S.logged.raise request dynamics)
      (S.raise request dynamics) := by
  rw [raise_eq, raise_eq]
  refine udsHandleEvent_rel _ fun q _ found consume => ?_
  refine udsCheckAndActOnEvent_rel _ ?_ ?_ found consume
  · intro check apply _ w
    cases check with
    | app f => cases f <;> rfl
    | _ => rfl
  · intro action consume _ w
    cases action with
    | app f =>
      cases f with
      | app f => rfl
      | defaultLinkControl =>
        exact udsActionDefaultLinkControl_logged S.driver request.args consume w
      | defaultLinkControlChangeDiagSession =>
        have hset : onCan (udsSetCanDefaultBitrate S.driver S.defaultCanBitrate) w.unlogged = _ :=
          onCan_through (udsSetCanBitrate_logged S.driver _) w
        change udsActionDefaultLinkControlChangeDiagSession _ _ w.unlogged = _
        rw [udsActionDefaultLinkControlChangeDiagSession, hset]
        rfl
    | _ => rfl

/-- So every run is a logged one, seen without the log. -/
theorem exists_logged_run {S : Setup F U D σ} {past : List (World D σ × Event F U)} {w : World D σ}
    (h : (S.server Boot).Run past w) :
    ∃ past' w', (S.logged.server Boot).Run past' w' ∧ w'.unlogged = w ∧
      past'.map (fun x => (x.1.unlogged, x.2)) = past := by
  induction h with
  | @init w hboot => exact ⟨[], ⟨w.modifier, w.modifierSet, w.sessionType, (w.can, []), w.app⟩,
      .init hboot, rfl, rfl⟩
  | @step past w w' e _ hstep ih =>
    obtain ⟨past', v, hrun, rfl, rfl⟩ := ih
    obtain ⟨hdynamics, hanswer, session, henters, rfl⟩ := hstep
    have hsame : S.raise e.request e.dynamics v.unlogged = _ :=
      raise_logged S e.request e.dynamics v
    rw [hsame] at hanswer ⊢
    refine ⟨_, _, hrun.step ⟨hdynamics, hanswer, session, henters, rfl⟩, rfl, ?_⟩
    rw [List.map_append]
    rfl

end Logged

section Bitrates

variable {F U D σ : Type} {S : Setup F U D σ}

/-- **The bitrate of the verified modifier**: what a TransitionMode request
makes the handler set is the baudrate of the modifier verified last. -/
def SetsVerified (S : Setup F U D σ) (past : List (World (D × List UInt32) σ × Event F U))
    (w : World (D × List UInt32) σ) (e : Event F U) : Prop :=
  ∀ data, e.request = .linkControl ⟨transitionMode, data⟩ →
    ∀ bitrates, (S.logged.raise e.request e.dynamics w).2.can.2 = w.can.2 ++ bitrates →
      ∀ b ∈ bitrates, ∃ m, lastVerified past = some m ∧ b = udsLinkControlModifierToBaudrate m

/-- The request shows the verified modifier: where it comes in a session
other than the default one and the controller takes the bitrate of its
byte, the byte is the modifier verified last, if there is one. -/
def ShowsVerified (S : Setup F U D σ) (past : List (World (D × List UInt32) σ × Event F U))
    (w : World (D × List UInt32) σ) (e : Event F U) : Prop :=
  ∀ data, e.request = .linkControl ⟨transitionMode, data⟩ →
    w.sessionType ≠ diagSessionDefault →
    Takes S.driver (udsLinkControlModifierToBaudrate data) w.can.1 →
    ∀ m, lastVerified past = some m → data = m

/-- No other modifier has one of these baudrates. -/
theorem modifier_of_baudrate (data : UInt8) :
    (udsLinkControlModifierToBaudrate data = 125000 → data = Modifier.can125000Baud) ∧
      (udsLinkControlModifierToBaudrate data = 250000 → data = Modifier.can250000Baud) ∧
      (udsLinkControlModifierToBaudrate data = 500000 → data = Modifier.can500000Baud) := by
  -- a modifier is one byte
  have hall : ∀ n < 256,
      (udsLinkControlModifierToBaudrate (UInt8.ofNat n) = 125000 →
        UInt8.ofNat n = Modifier.can125000Baud) ∧
      (udsLinkControlModifierToBaudrate (UInt8.ofNat n) = 250000 →
        UInt8.ofNat n = Modifier.can250000Baud) ∧
      (udsLinkControlModifierToBaudrate (UInt8.ofNat n) = 500000 →
        UInt8.ofNat n = Modifier.can500000Baud) := by decide +kernel
  have hone := hall data.toNat data.toNat_lt
  rwa [UInt8.ofNat_toNat] at hone

/-- So a verified modifier is known by its baudrate. -/
theorem baudrate_eq_iff {data m : UInt8} (h : Verifiable m) :
    udsLinkControlModifierToBaudrate data = udsLinkControlModifierToBaudrate m ↔ data = m := by
  constructor
  · obtain ⟨h125, h250, h500⟩ := modifier_of_baudrate data
    rcases h with rfl | rfl | rfl
    · exact h125
    · exact h250
    · exact h500
  · rintro rfl
    rfl

/-- What a transition sets: the bitrate of its own byte, where something
was verified, the session is not the default one and the controller takes
it. -/
theorem raise_transition_log (hfirst : S.First) (data : UInt8) (dynamics : List (Reg F U))
    (w : World (D × List UInt32) σ) :
    (S.logged.raise (.linkControl ⟨transitionMode, data⟩) dynamics w).2.can.2 = w.can.2 ++
      if w.modifierSet = true ∧ w.sessionType ≠ diagSessionDefault ∧
        Takes S.driver (udsLinkControlModifierToBaudrate data) w.can.1
      then [udsLinkControlModifierToBaudrate data] else [] := by
  have hanswer : S.logged.raise (.linkControl ⟨transitionMode, data⟩) dynamics = _ :=
    raise_linkControl hfirst.logged dynamics
  have hlog : (onCan (udsSetCanBitrate S.logged.driver (udsLinkControlModifierToBaudrate data))
      w).2.can.2 = _ := udsSetCanBitrate_log
  rw [hanswer, answerLinkControl_transition]
  cases hset : w.modifierSet with
  | false => simp
  | true =>
    by_cases hsession : w.sessionType = diagSessionDefault
    · simp [hsession]
    · rw [if_neg nofun, if_neg hsession, hlog]
      by_cases htakes : Takes S.driver (udsLinkControlModifierToBaudrate data) w.can.1 <;>
        simp [hsession, htakes]

/-- One transition, after a run whose statics are the history's. -/
theorem setsVerified_step (hfirst : S.First)
    {past : List (World (D × List UInt32) σ × Event F U)} {w : World (D × List UInt32) σ}
    {e : Event F U} (hrec : Recorded past w) :
    SetsVerified S past w e ↔ ShowsVerified S past w e := by
  refine forall_congr' fun data => forall_congr' fun hreq => ?_
  rw [hreq, raise_transition_log hfirst]
  constructor
  · intro hsets hsession htakes m hm
    have hset : w.modifierSet = true := by rw [hrec.1, hm]; rfl
    rw [if_pos ⟨hset, hsession, htakes⟩] at hsets
    obtain ⟨m', hm', hbaud⟩ := hsets _ rfl _ (List.mem_singleton_self _)
    obtain rfl : m = m' := Option.some.inj (hm.symm.trans hm')
    exact (baudrate_eq_iff (hrec.2 m hm).2).mp hbaud
  · intro hshows bitrates hbitrates b hb
    rw [← List.append_cancel_left hbitrates] at hb
    split_ifs at hb with hcond
    · obtain ⟨hset, hsession, htakes⟩ := hcond
      obtain ⟨m, hm⟩ := Option.isSome_iff_exists.mp (hrec.1.symm.trans hset)
      exact ⟨m, hm, hshows hsession htakes m hm ▸ List.mem_singleton.mp hb⟩
    · cases hb

/-- **When the bitrate set is the verified one.** In a run, every
TransitionMode request sets the bitrate of the modifier verified last
exactly when every one that comes to set a bitrate shows that modifier in
its own arguments. The modifier the handler stored is not looked at. -/
theorem setsVerified_iff (hS : S.Installed) (hfirst : S.First)
    {past : List (World (D × List UInt32) σ × Event F U)} {w : World (D × List UInt32) σ}
    (h : (S.logged.server Boot).Run past w) :
    Machine.Throughout (SetsVerified S) past ↔ Machine.Throughout (ShowsVerified S) past := by
  refine h.throughout_congr fun pre t e t' hrun _ => ?_
  exact setsVerified_step hfirst (recorded hS.logged hfirst.logged hrun)

end Bitrates

/-- A state of the bench, with or without the log. -/
def benchState {D : Type} (modifier : UInt8) (modifierSet : Bool) (sessionType : UInt8) (can : D) :
    World D Unit :=
  ⟨modifier, modifierSet, sessionType, can, ()⟩

/-- A session other than the default one, and 125 kbit/s verified. -/
def verified125 : List (World (UInt32 × List UInt32) Unit × Event Empty Unit) :=
  [(benchState 0 false 0x01 (500000, []), ⟨.diagSessCtrl 0x03, [], .ok⟩),
    (benchState 0 false 0x03 (500000, []), ⟨.linkControl ⟨0x01, 0x10⟩, [], .ok⟩)]

theorem run_verified125 : (bench.logged.server Boot).Run verified125
    (benchState 0x10 true 0x03 (500000, [])) := by
  have h0 : (bench.logged.server Boot).Run [] (benchState 0 false 0x01 (500000, [])) :=
    .init ⟨rfl, rfl, rfl⟩
  have h1 := run_alone h0 (.diagSessCtrl 0x03) 0x03 (by decide)
  exact run_alone h1 (.linkControl ⟨0x01, 0x10⟩) 0x03 (by decide)

/-- A transition that shows the verified modifier. -/
theorem setsVerified_iff_verified125 :
    bench.Installed ∧ bench.First ∧
      ∃ past w, (bench.logged.server Boot).Run past w ∧ w.can = (125000, [125000]) ∧
        Machine.Throughout (SetsVerified bench) past := by
  have hrun := run_alone run_verified125 (.linkControl ⟨0x03, 0x10⟩) 0x03 (by decide)
  refine ⟨bench_installed, bench_first, _, _, hrun, rfl, ?_⟩
  refine (setsVerified_iff bench_installed bench_first hrun).mpr ?_
  refine Machine.throughout_concat.mpr ⟨Machine.throughout_of_forall ?_, ?_⟩
  · intro x hx pre data hreq
    exact absurd hreq (not_transition_of_mem (by decide) hx data)
  · intro data hreq _ _ m hm
    cases hreq
    exact Option.some.inj hm

/-- 1 Mbit/s are refused; a transition that finds the byte of the refused
request behind `data` goes there all the same. -/
theorem not_setsVerified_stale :
    bench.Installed ∧ bench.First ∧
      ∃ past w, (bench.logged.server Boot).Run past w ∧ w.can = (1000000, [1000000]) ∧
        ¬ Machine.Throughout (SetsVerified bench) past := by
  have h3 := run_alone run_verified125 (.linkControl ⟨0x01, 0x13⟩) 0x03 (by decide)
  have hrun := run_alone h3 (.linkControl ⟨0x03, 0x13⟩) 0x03 (by decide)
  refine ⟨bench_installed, bench_first, _, _, hrun, rfl, fun h => ?_⟩
  obtain ⟨m, hm, hb⟩ := (Machine.throughout_concat.mp h).2 0x13 rfl [1000000] rfl 1000000
    (by decide)
  obtain rfl : 0x10 = m := Option.some.inj hm
  exact absurd hb (by decide)

/-! ## The transitions accepted -/

section Authorised

variable {F U D σ : Type} {S : Setup F U D σ} {past : List (World D σ × Event F U)}
  {w w' : World D σ} {e : Event F U}

/-- **A transition is authorised**: a TransitionMode request that is
accepted finds a verification since the link was last returned to its
default bitrate. -/
def Authorised (past : List (World D σ × Event F U)) (_ : World D σ) (e : Event F U) : Prop :=
  ∀ data, e.request = .linkControl ⟨transitionMode, data⟩ → e.answer = .positiveResponse →
    VerifiedSinceReturn past

/-- The history holds a verification, and the link was returned after the
last one. -/
def LeftOver (past : List (World D σ × Event F U)) : Prop :=
  (lastVerified past).isSome ∧ ¬ VerifiedSinceReturn past

/-- No TransitionMode request comes, in a session other than the default
one and with the controller willing, while a verification is left over. -/
def NoneLeftOver (S : Setup F U D σ) (past : List (World D σ × Event F U)) (w : World D σ)
    (e : Event F U) : Prop :=
  ∀ data, e.request = .linkControl ⟨transitionMode, data⟩ →
    w.sessionType ≠ diagSessionDefault →
    Accepts S.driver (udsLinkControlModifierToBaudrate data) w.can → ¬ LeftOver past

/-- When a transition is accepted. -/
theorem raise_transition_ok (hfirst : S.First) (data : UInt8) (dynamics : List (Reg F U)) :
    (S.raise (.linkControl ⟨transitionMode, data⟩) dynamics w).1 = .positiveResponse ↔
      w.modifierSet = true ∧ w.sessionType ≠ diagSessionDefault ∧
        Accepts S.driver (udsLinkControlModifierToBaudrate data) w.can := by
  have hsequence : UDSErr.requestSequenceError ≠ .positiveResponse := by decide
  have hactive : UDSErr.subFunctionNotSupportedInActiveSession ≠ .positiveResponse := by decide
  rw [raise_linkControl hfirst, answerLinkControl_transition]
  split_ifs with hset hsession
  · exact iff_of_false hsequence fun h => Bool.false_ne_true (hset.symm.trans h.1)
  · exact iff_of_false hactive fun h => h.2.1 hsession
  · rw [and_iff_right (eq_true_of_ne_false hset), and_iff_right hsession]
    change (udsSetCanBitrate S.driver _ w.can).1 = .ok ↔ _
    exact udsSetCanBitrate_eq_ok

/-- One transition, after a run whose statics are the history's. -/
theorem authorised_step (hfirst : S.First) (hrec : Recorded past w)
    (hanswer : (S.raise e.request e.dynamics w).1 = e.answer) :
    Authorised past w e ↔ NoneLeftOver S past w e := by
  refine forall_congr' fun data => forall_congr' fun hreq => ?_
  rw [← hanswer, hreq, raise_transition_ok hfirst, hrec.1, LeftOver]
  tauto

/-- **When accepted transitions are authorised.** In a run, every accepted
TransitionMode request has a verification of its own session exactly when
none comes while a verification is left over from before. Nothing takes
the flag of a verification back. -/
theorem authorised_iff (hS : S.Installed) (hfirst : S.First)
    (h : (S.server Boot).Run past w) :
    Machine.Throughout Authorised past ↔ Machine.Throughout (NoneLeftOver S) past := by
  refine h.throughout_congr fun pre t e t' hrun hstep => ?_
  obtain ⟨-, hanswer, -⟩ := hstep
  exact authorised_step hfirst (recorded hS hfirst hrun) hanswer

end Authorised

/-- 125 kbit/s are verified in one session; the tester goes back to the
default session and into another one. -/
def secondSession : List (World UInt32 Unit × Event Empty Unit) :=
  [(benchState 0 false 0x01 500000, ⟨.diagSessCtrl 0x03, [], .ok⟩),
    (benchState 0 false 0x03 500000, ⟨.linkControl ⟨0x01, 0x10⟩, [], .ok⟩),
    (benchState 0x10 true 0x03 500000, ⟨.diagSessCtrl 0x01, [], .ok⟩),
    (benchState 0x10 true 0x01 500000, ⟨.diagSessCtrl 0x03, [], .ok⟩)]

theorem run_secondSession : (bench.server Boot).Run secondSession
    (benchState 0x10 true 0x03 500000) := by
  have h0 : (bench.server Boot).Run [] (benchState 0 false 0x01 500000) := .init ⟨rfl, rfl, rfl⟩
  have h1 := run_alone h0 (.diagSessCtrl 0x03) 0x03 (by decide)
  have h2 := run_alone h1 (.linkControl ⟨0x01, 0x10⟩) 0x03 (by decide)
  have h3 := run_alone h2 (.diagSessCtrl 0x01) 0x01 (by decide)
  exact run_alone h3 (.diagSessCtrl 0x03) 0x03 (by decide)

/-- With a verification of its own the transition is authorised. -/
theorem authorised_iff_secondSession :
    bench.Installed ∧ bench.First ∧
      ∃ past w, (bench.server Boot).Run past w ∧ w.can = 250000 ∧
        Machine.Throughout Authorised past := by
  have h5 := run_alone run_secondSession (.linkControl ⟨0x01, 0x11⟩) 0x03 (by decide)
  have hrun := run_alone h5 (.linkControl ⟨0x03, 0x11⟩) 0x03 (by decide)
  refine ⟨bench_installed, bench_first, _, _, hrun, rfl, ?_⟩
  refine (authorised_iff bench_installed bench_first hrun).mpr ?_
  refine Machine.throughout_concat.mpr ⟨Machine.throughout_of_forall ?_, ?_⟩
  · intro x hx pre data hreq
    exact absurd hreq (not_transition_of_mem (by decide) hx data)
  · intro data _ _ _ hleft
    exact hleft.2 (by decide)

/-- The verification of the session before authorises a transition. -/
theorem not_authorised_secondSession :
    bench.Installed ∧ bench.First ∧
      ∃ past w, (bench.server Boot).Run past w ∧ w.can = 125000 ∧
        ¬ Machine.Throughout Authorised past := by
  have hrun := run_alone run_secondSession (.linkControl ⟨0x03, 0x10⟩) 0x03 (by decide)
  refine ⟨bench_installed, bench_first, _, _, hrun, rfl, fun h => ?_⟩
  have hverified := (Machine.throughout_concat.mp h).2 0x10 rfl rfl
  revert hverified
  decide

end Link

end Uds

end Ardep
