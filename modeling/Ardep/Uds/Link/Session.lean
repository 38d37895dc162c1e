import Ardep.Uds.Link.Walk
/-!
# Link control — the default session runs at the default bitrate

The two registrations of the default handler share one purpose: a bitrate
other than the default one is left with the session it was set in. The
link control registration changes the bitrate outside the default session
only (`raise_atDefault`), and the session registration sets it back on
every event that leads there (`raise_returning`), provided the event
reaches it.
-/

namespace Ardep

namespace Uds

namespace Link

variable {F U D σ : Type} {S : Setup F U D σ} {bitrate : D → UInt32}

/-- **The driver calls succeed**, and `bitrate` is what was set last. -/
structure CanDriver.Succeeds (driver : CanDriver D) (bitrate : D → UInt32) : Prop where
  canStop : ∀ d, (driver.canStop d).1 = 0
  canSetBitrate : ∀ b d, (driver.canSetBitrate b d).1 = 0
  canStart : ∀ d, (driver.canStart d).1 = 0
  bitrate_canSetBitrate : ∀ b d, bitrate (driver.canSetBitrate b d).2 = b
  bitrate_canStart : ∀ d, bitrate (driver.canStart d).2 = bitrate d

/-- Then setting a bitrate does. -/
theorem udsSetCanBitrate_of_succeeds {driver : CanDriver D} (h : driver.Succeeds bitrate)
    (b : UInt32) (d : D) :
    (udsSetCanBitrate driver b d).1 = .ok ∧ bitrate (udsSetCanBitrate driver b d).2 = b := by
  rw [udsSetCanBitrate_run, if_neg (not_not.mpr (h.canStop d)),
    if_neg (not_not.mpr (h.canSetBitrate b _)), if_neg (not_not.mpr (h.canStart _))]
  exact ⟨rfl, (h.bitrate_canStart _).trans (h.bitrate_canSetBitrate b _)⟩

/-- **The default session runs at the default bitrate.** -/
def AtDefault (S : Setup F U D σ) (bitrate : D → UInt32) (w : World D σ) : Prop :=
  w.sessionType = diagSessionDefault → bitrate w.can = S.defaultCanBitrate

/-- A registration that lets the events of the session pass: it neither
consumes them nor returns an error. -/
def Unobtrusive (S : Setup F U D σ) (q : Reg F U) : Prop :=
  ∀ request : Request, (∀ args, request ≠ .linkControl args) →
    Passes S.behaviour request.handler S.inst request.event request.args q

/-- So does every static registration for these events but the handler's
own. The dynamic ones come after it. -/
def Setup.OthersUnobtrusive (S : Setup F U D σ) : Prop :=
  ∀ q ∈ S.statics, q.type = .diagSessionCtrl →
    (∀ inst, q ≠ changeDiagSessionRegistration inst) → Unobtrusive S q

/-! ## One event -/

/-- The link control action leaves the session alone, and in the default
session the controller too. -/
theorem action_atDefault (args : Args) (consume : Bool) (w : World D σ) :
    (udsActionDefaultLinkControl S.driver args consume w).2.sessionType = w.sessionType ∧
      (w.sessionType = diagSessionDefault →
        (udsActionDefaultLinkControl S.driver args consume w).2.can = w.can) := by
  simp only [udsActionDefaultLinkControl]
  split_ifs with _ hsession _ hsession
  · exact ⟨rfl, fun _ => rfl⟩
  · exact ⟨rfl, fun h => absurd h hsession⟩
  · exact ⟨rfl, fun _ => rfl⟩
  · exact ⟨rfl, fun h => absurd h hsession⟩
  · exact ⟨rfl, fun _ => rfl⟩

/-- **Before the library changes the session**, the event has left it alone
and the invariant holds. -/
theorem raise_atDefault (hS : S.Installed) (hdriver : S.driver.Succeeds bitrate)
    {request : Request} {dynamics : List (Reg F U)} (hdynamics : ∀ q ∈ dynamics, S.Dynamic q)
    {w : World D σ} (hw : AtDefault S bitrate w) :
    (S.raise request dynamics w).2.sessionType = w.sessionType ∧
      AtDefault S bitrate (S.raise request dynamics w).2 := by
  let I : World D σ → Prop := fun v => v.sessionType = w.sessionType ∧ AtDefault S bitrate v
  have happ : ∀ v app, I v → I { v with app := app } := fun _ _ h => h
  have hlink : ∀ args, request = .linkControl args → ∀ consume v, I v →
      I (udsActionDefaultLinkControl S.driver args consume v).2 := by
    rintro args - consume v ⟨hsession, hv⟩
    obtain ⟨hsame, hcan⟩ := action_atDefault (S := S) args consume v
    refine ⟨hsame.trans hsession, fun hdefault => ?_⟩
    rw [hsame] at hdefault
    rw [hcan hdefault]
    exact hv hdefault
  have hreturn : request.Returning → ∀ v, I v →
      I (udsActionDefaultLinkControlChangeDiagSession S.driver S.defaultCanBitrate v).2 := by
    rintro - v ⟨hsession, -⟩
    exact ⟨hsession, fun _ => (udsSetCanBitrate_of_succeeds hdriver _ v.can).2⟩
  exact raise_keeps hS happ hlink hreturn hdynamics ⟨rfl, hw⟩

theorem passes_of_skips {request : Request} {q : Reg F U}
    (h : Skips S.behaviour request.handler S.inst request.event request.args q) :
    Passes S.behaviour request.handler S.inst request.event request.args q :=
  fun found consume w => ⟨found, w, congrFun (h found consume) w⟩

/-- The events of the session pass registrations of other types over. -/
theorem skips_of_not_diagSession {request : Request} {q : Reg F U}
    (hreq : ∀ args, request ≠ .linkControl args) (htype : q.type ≠ .diagSessionCtrl) :
    Skips S.behaviour request.handler S.inst request.event request.args q := by
  cases request with
  | linkControl args => exact absurd rfl (hreq args)
  | diagSessCtrl type => exact skips_of_type htype
  | sessionTimeout => exact skips_of_type htype

/-- The round of the session registration, on an event that takes the link
back: the event goes on, at the default bitrate. -/
theorem round_changeDiagSession (hdriver : S.driver.Succeeds bitrate) {request : Request}
    (hreq : request.Returning) (inst : InstancePtr) (found consume : Bool) (w : World D σ) :
    ∃ w', bitrate w'.can = S.defaultCanBitrate ∧
      udsCheckAndActOnEvent S.behaviour
        ⟨S.inst, changeDiagSessionRegistration inst, request.event, request.args⟩
        request.handler found consume w = ((.ok, true, false), w') := by
  obtain ⟨hok, hbitrate⟩ := udsSetCanBitrate_of_succeeds hdriver S.defaultCanBitrate w.can
  have hcheck : udsCheckDefaultLinkControlChangeDiagSession request.event request.args false =
      (.ok, true) := by
    rw [check_changeDiagSession, decide_eq_true hreq]
  have haction : udsActionDefaultLinkControlChangeDiagSession S.driver S.defaultCanBitrate w =
      ((.ok, false),
        { w with can := (udsSetCanBitrate S.driver S.defaultCanBitrate w.can).2 }) := by
    rw [← hok]
    rfl
  refine ⟨{ w with can := (udsSetCanBitrate S.driver S.defaultCanBitrate w.can).2 }, hbitrate, ?_⟩
  cases request with
  | linkControl args => exact hreq.elim
  | diagSessCtrl type =>
    have hround : udsCheckAndActOnEvent S.behaviour ⟨S.inst, changeDiagSessionRegistration inst,
        .diagSessCtrl, ⟨type, 0⟩⟩ diagSessCtrlHandler found consume w = _ :=
      round_of_calls rfl rfl rfl (congrArg (·, w) hcheck) haction
    exact hround
  | sessionTimeout =>
    have hround : udsCheckAndActOnEvent S.behaviour ⟨S.inst, changeDiagSessionRegistration inst,
        .sessionTimeout, ⟨0, 0⟩⟩ sessionTimeoutHandler found consume w = _ :=
      round_of_calls rfl rfl rfl (congrArg (·, w) hcheck) haction
    exact hround

/-- **An event that takes the link back** leaves it at the default
bitrate: no registration keeps the event from the session registration,
and none changes the bitrate after it. -/
theorem raise_returning (hS : S.Installed) (hdriver : S.driver.Succeeds bitrate)
    (hothers : S.OthersUnobtrusive)
    {request : Request} (hreq : request.Returning) {dynamics : List (Reg F U)}
    (hdynamics : ∀ q ∈ dynamics, S.Dynamic q) (w : World D σ) :
    bitrate (S.raise request dynamics w).2.can = S.defaultCanBitrate := by
  let I : World D σ → Prop := fun v => bitrate v.can = S.defaultCanBitrate
  have hsession : ∀ args, request ≠ .linkControl args := by
    rintro args rfl
    exact hreq
  have hpass : ∀ q ∈ S.statics,
      Passes S.behaviour request.handler S.inst request.event request.args q := by
    intro q hq
    by_cases hdiag : q.type = .diagSessionCtrl
    · by_cases hown : ∃ inst, q = changeDiagSessionRegistration inst
      · obtain ⟨inst, rfl⟩ := hown
        intro found consume v
        obtain ⟨v', -, hround⟩ := round_changeDiagSession hdriver hreq inst found consume v
        exact ⟨true, v', hround⟩
      · exact hothers q hq hdiag (not_exists.mp hown) request hsession
    · exact passes_of_skips (skips_of_not_diagSession hsession hdiag)
  have hkeep : ∀ q ∈ S.statics ++ dynamics, ∀ found consume v, I v →
      I (udsCheckAndActOnEvent S.behaviour ⟨S.inst, q, request.event, request.args⟩
        request.handler found consume v).2 := by
    intro q hq found consume
    refine round_keeps hS (fun _ _ h => h) (fun args h => absurd h (hsession args)) ?_
      ((List.mem_append.mp hq).imp_right (hdynamics q)) found consume
    intro _ v _
    exact (udsSetCanBitrate_of_succeeds hdriver _ v.can).2
  rw [raise_eq]
  refine udsHandleEvent_reaches hpass hkeep ⟨_, hS.changeDiagSession, ?_⟩ w
  intro found consume v
  obtain ⟨v', hv', hround⟩ := round_changeDiagSession hdriver hreq S.inst found consume v
  rw [hround]
  exact hv'

/-! ## Every run -/

/-- One event and what the library makes of it. -/
theorem atDefault_step (hS : S.Installed) (hdriver : S.driver.Succeeds bitrate)
    (hothers : S.OthersUnobtrusive)
    {init : World D σ → Prop} {w w' : World D σ} {e : Event F U} (hw : AtDefault S bitrate w)
    (hstep : (S.server init).Step w e w') : AtDefault S bitrate w' := by
  obtain ⟨request, dynamics, answer⟩ := e
  obtain ⟨hdynamics, -, session, henters, rfl⟩ := hstep
  obtain ⟨hsame, hafter⟩ :
      _ ∧ AtDefault S bitrate (S.raise request dynamics w).2 :=
    raise_atDefault hS hdriver hdynamics hw
  have hstays : session = w.sessionType → session = diagSessionDefault →
      bitrate (S.raise request dynamics w).2.can = S.defaultCanBitrate := by
    intro hsession hdefault
    exact hafter (hsame.trans (hsession.symm.trans hdefault))
  intro hdefault
  cases request with
  | linkControl args => exact hstays henters hdefault
  | diagSessCtrl type =>
    rcases henters with hsession | ⟨-, htype⟩
    · exact hstays hsession hdefault
    · have hreq : (Request.diagSessCtrl type).Returning := htype.symm.trans hdefault
      exact raise_returning hS hdriver hothers hreq hdynamics w
  | sessionTimeout =>
    have hreq : Request.sessionTimeout.Returning := trivial
    exact raise_returning hS hdriver hothers hreq hdynamics w

/-- **The default session runs at the default bitrate**, in every state a
run reaches, and in between too: once an event has been answered and
before the library changes the session. -/
theorem atDefault_of_reachable (hS : S.Installed) (hdriver : S.driver.Succeeds bitrate)
    (hothers : S.OthersUnobtrusive)
    {w : World D σ} (h : (S.server (AtDefault S bitrate)).Reachable w) :
    AtDefault S bitrate w ∧ ∀ request dynamics, (∀ q ∈ dynamics, S.Dynamic q) →
      AtDefault S bitrate (S.raise request dynamics w).2 := by
  have hw : AtDefault S bitrate w :=
    h.invariant (fun _ h0 => h0) fun _ _ _ hs hstep => atDefault_step hS hdriver hothers hs hstep
  exact ⟨hw, fun _ _ hdynamics => (raise_atDefault hS hdriver hdynamics hw).2⟩

/-- A registration of the application for the events of the session. -/
def watcher : Reg Unit Unit where
  inst := some 0
  data := .diagSessionCtrl (actorOf (.app ())) (actorOf (.app ()))

/-- The bench with an application that counts these events, and lets them
pass, before the default handler sees them. -/
def watched : Setup Unit Unit UInt32 ℕ where
  inst := 0
  driver := willing
  defaultCanBitrate := 500000
  application :=
    ⟨fun _ _ _ w => ((.ok, true), w.app), fun _ _ _ w => ((.ok, false), w.app + 1)⟩
  statics := [watcher, linkControlRegistration 0, changeDiagSessionRegistration 0]
  Dynamic := fun _ => False

theorem watched_installed : watched.Installed where
  linkControl := by simp [watched]
  changeDiagSession := by simp [watched]
  others := by
    rintro q (hq | hq)
    · simp only [watched, List.mem_cons, List.not_mem_nil, or_false] at hq
      rcases hq with rfl | rfl | rfl
      · refine .inr (.inr fun request => ⟨?_, ?_⟩)
        · intro check hcheck
          cases request <;> cases hcheck <;> exact ⟨nofun, nofun⟩
        · intro action haction
          cases request <;> cases haction <;> exact ⟨nofun, nofun⟩
      · exact .inl ⟨0, rfl⟩
      · exact .inr (.inl ⟨0, rfl⟩)
    · cases hq

theorem watched_othersUnobtrusive : watched.OthersUnobtrusive := by
  intro q hq hdiag hown request hreq found consume w
  simp only [watched, List.mem_cons, List.not_mem_nil, or_false] at hq
  rcases hq with rfl | rfl | rfl
  · cases request with
    | linkControl args => exact absurd rfl (hreq args)
    | diagSessCtrl type => exact ⟨_, _, rfl⟩
    | sessionTimeout => exact ⟨_, _, rfl⟩
  · cases hdiag
  · exact absurd rfl (hown 0)

theorem willing_succeeds : willing.Succeeds id :=
  ⟨fun _ => rfl, fun _ _ => rfl, fun _ => rfl, fun _ _ => rfl, fun _ => rfl⟩

/-- A session times out at 125 kbit/s. -/
theorem atDefault_of_reachable_watched :
    watched.Installed ∧ watched.driver.Succeeds id ∧ watched.OthersUnobtrusive ∧
      ∃ past w, (watched.server (AtDefault watched id)).Run past w ∧
        (past.map fun x => x.1.can) = [500000, 500000, 500000, 125000] ∧
        w.sessionType = diagSessionDefault ∧ id w.can = watched.defaultCanBitrate := by
  have h0 : (watched.server (AtDefault watched id)).Run []
      ⟨0, false, diagSessionDefault, 500000, 0⟩ := .init fun _ => rfl
  have h1 := run_alone h0 (.diagSessCtrl 0x03) 0x03 (by decide)
  have h2 := run_alone h1 (.linkControl ⟨0x01, 0x10⟩) 0x03 (by decide)
  have h3 := run_alone h2 (.linkControl ⟨0x03, 0x10⟩) 0x03 (by decide)
  have hrun := run_alone h3 .sessionTimeout diagSessionDefault (by decide)
  have hdefault := (atDefault_of_reachable watched_installed willing_succeeds
    watched_othersUnobtrusive hrun.reachable).1
  exact ⟨watched_installed, willing_succeeds, watched_othersUnobtrusive, _, _, hrun, rfl, rfl,
    hdefault rfl⟩

end Link

end Uds

end Ardep
