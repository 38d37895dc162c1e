import Ardep.Lin.Model
import Mathlib.Data.Fin.VecNotation
/-!
# The CAN router — registering a table

A router entry asks the driver of one device to hand its frames to
another. `can_add_rx_filter` answers with the id of the filter, from 0 on,
or with a negative error; the registration loop takes everything but 0 for
an error. `registers_iff` says for which tables and drivers that makes no
difference, and the gateway sample is not among them.

The driver is a function with a state of its own, so that the id it
returns may depend on the filters added before.
-/

namespace Ardep

namespace Can

open Lin

/-- `struct can_router_entry_t`. -/
structure RouterEntry (Dev : Type) where
  source : Dev
  target : Dev
  filter : CanFilter
  deriving DecidableEq, Repr

/-- `can_add_rx_filter`: the device, the one its frames are routed to, the
filter, and the state of the drivers. -/
abbrev AddRxFilter (Dev σ : Type) : Type := Dev → Dev → CanFilter → σ → ℤ × σ

variable {Dev σ : Type} {add : AddRxFilter Dev σ} {e : RouterEntry Dev}
  {entries more : List (RouterEntry Dev)} {s s' : σ}

/-- What a registration returned, and the entries whose filter the driver
has taken. -/
structure Registration (Dev σ : Type) where
  ret : ℤ
  registered : List (RouterEntry Dev)
  state : σ

/-- `can_router_register`. -/
def canRouterRegister (add : AddRxFilter Dev σ) : List (RouterEntry Dev) → σ → Registration Dev σ
  | [], s => ⟨0, [], s⟩
  | e :: entries, s =>
    let (err, s') := add e.source e.target e.filter s
    if err ≠ 0 then ⟨err, if 0 ≤ err then [e] else [], s'⟩
    else
      let rest := canRouterRegister add entries s'
      { rest with registered := e :: rest.registered }

/-- `can_router_sysinit`, over the tables of the image. -/
def canRouterSysinit (add : AddRxFilter Dev σ) : List (List (RouterEntry Dev)) → σ → ℤ
  | [], _ => 0
  | table :: tables, s =>
    let r := canRouterRegister add table s
    if r.ret ≠ 0 then r.ret else canRouterSysinit add tables r.state

/-! ## What the driver says -/

/-- **The driver asked for one entry after the other**: the ids of those
it accepts, up to the first it refuses, and that error. -/
def ask (add : AddRxFilter Dev σ) : List (RouterEntry Dev) → σ → List ℤ × Option ℤ
  | [], _ => ([], none)
  | e :: entries, s =>
    let (r, s') := add e.source e.target e.filter s
    if r < 0 then ([], some r)
    else
      let rest := ask add entries s'
      (r :: rest.1, rest.2)

/-- **The registration passes the driver's answer on**: every entry and 0
where all are accepted, and the error where one is refused. -/
def Registers (add : AddRxFilter Dev σ) (entries : List (RouterEntry Dev)) (s : σ) : Prop :=
  match (ask add entries s).2 with
  | none =>
    (canRouterRegister add entries s).ret = 0 ∧
      (canRouterRegister add entries s).registered = entries
  | some err => (canRouterRegister add entries s).ret = err

/-! The three answers to one entry. -/

theorem ask_refused (h : (add e.source e.target e.filter s).1 < 0) :
    ask add (e :: entries) s = ([], some (add e.source e.target e.filter s).1) := by
  simp only [ask, h, if_true]

theorem ask_accepted (h : 0 ≤ (add e.source e.target e.filter s).1) :
    ask add (e :: entries) s =
      ((add e.source e.target e.filter s).1 ::
          (ask add entries (add e.source e.target e.filter s).2).1,
        (ask add entries (add e.source e.target e.filter s).2).2) := by
  simp only [ask, if_neg (Int.not_lt.mpr h)]

theorem register_stop (h : (add e.source e.target e.filter s).1 ≠ 0) :
    (canRouterRegister add (e :: entries) s).ret = (add e.source e.target e.filter s).1 := by
  simp only [canRouterRegister, h, ne_eq, not_false_eq_true, if_true]

theorem register_go (h : (add e.source e.target e.filter s).1 = 0) :
    canRouterRegister add (e :: entries) s =
      { canRouterRegister add entries (add e.source e.target e.filter s).2 with
        registered := e ::
          (canRouterRegister add entries (add e.source e.target e.filter s).2).registered } := by
  simp only [canRouterRegister, h, ne_eq, not_true_eq_false, if_false]

/-- The errors it is asked about are negative. -/
theorem refusal_neg {err : ℤ} : ∀ {entries : List (RouterEntry Dev)} {s : σ},
    (ask add entries s).2 = some err → err < 0 := by
  intro entries
  induction entries with
  | nil =>
    intro s h
    cases h
  | cons e entries ih =>
    intro s h
    by_cases hneg : (add e.source e.target e.filter s).1 < 0
    · rw [ask_refused hneg] at h
      obtain rfl := Option.some.inj h
      exact hneg
    · rw [ask_accepted (by omega)] at h
      exact ih h

/-- **A table is registered as the driver says exactly when every filter id
before the first refusal is 0.** -/
theorem registers_iff : Registers add entries s ↔ ∀ id ∈ (ask add entries s).1, id = 0 := by
  unfold Registers
  induction entries generalizing s with
  | nil => exact iff_of_true ⟨rfl, rfl⟩ fun id hid => absurd hid List.not_mem_nil
  | cons e entries ih =>
    rcases Int.lt_trichotomy (add e.source e.target e.filter s).1 0 with hneg | hzero | hpos
    · rw [ask_refused hneg]
      refine iff_of_true (register_stop ?_) fun id hid => absurd hid List.not_mem_nil
      omega
    · -- this entry is passed by both, and the rest decides
      rw [ask_accepted (by omega), register_go hzero, hzero]
      have hrest := ih (s := (add e.source e.target e.filter s).2)
      simp only [List.forall_mem_cons, true_and] at hrest ⊢
      rw [← hrest]
      cases (ask add entries (add e.source e.target e.filter s).2).2 with
      | none => simp only [List.cons.injEq, true_and]
      | some err => exact Iff.rfl
    · -- a positive id ends the loop and is returned
      have hret : (canRouterRegister add (e :: entries) s).ret =
          (add e.source e.target e.filter s).1 := register_stop (by omega)
      rw [ask_accepted (by omega)]
      refine iff_of_false ?_ fun h => ?_
      · cases hrefusal : (ask add entries (add e.source e.target e.filter s).2).2 with
        | none =>
          rintro ⟨hzero, -⟩
          omega
        | some err =>
          intro herr
          have hneg := refusal_neg hrefusal
          simp only at herr
          omega
      · have hzero := h _ List.mem_cons_self
        omega

/-- One table after another. -/
theorem register_append :
    (canRouterRegister add (entries ++ more) s).ret =
      if (canRouterRegister add entries s).ret ≠ 0 then (canRouterRegister add entries s).ret
      else (canRouterRegister add more (canRouterRegister add entries s).state).ret := by
  induction entries generalizing s with
  | nil => rfl
  | cons e entries ih =>
    rw [List.cons_append]
    by_cases hzero : (add e.source e.target e.filter s).1 = 0
    · rw [register_go hzero, register_go hzero]
      exact ih
    · rw [register_stop hzero, register_stop hzero, if_pos hzero]

/-- **The tables of an image are registered like one table.** -/
theorem canRouterSysinit_eq {tables : List (List (RouterEntry Dev))} :
    canRouterSysinit add tables s = (canRouterRegister add tables.flatten s).ret := by
  induction tables generalizing s with
  | nil => rfl
  | cons table tables ih =>
    rw [List.flatten_cons, register_append]
    simp only [canRouterSysinit, ih]

/-! ## The gateway -/

/-- The devices of the gateway sample. -/
inductive GatewayDev where
  | canA
  | lincan
  deriving DecidableEq, Repr

/-- The drivers of the gateway: a controller that numbers its filters from
0 on, and lin2can. -/
def gatewayAdd (idMapping : IdMapping) : AddRxFilter GatewayDev (ℕ × Lin2CanData GatewayDev)
  | .canA, _, _, (filters, d) => (filters, filters + 1, d)
  | .lincan, target, filter, (filters, d) =>
    let (ret, d') := lin2canAddRxFilter idMapping target filter d
    (ret, filters, d')

/-- The entries of the sample: everything, both ways. -/
def gatewayEntries : List (RouterEntry GatewayDev) :=
  [⟨.canA, .lincan, ⟨0, 0, 0⟩⟩, ⟨.lincan, .canA, ⟨0, 0, 0⟩⟩]

/-- Both drivers after their initialisation. -/
def gatewayBoot : ℕ × Lin2CanData GatewayDev := (0, ⟨fun _ => none, [], 0x3C, 0x3D⟩)

/-- The ids of the configuration's defaults. -/
def defaultIds : IdMapping := ![0x80, 0x180, 0x01, 0x181]

/-- **The gateway's own table fails to register**: both filters are
accepted, and the id of the wildcard is returned as an error. -/
theorem not_registers_gateway : ¬ Registers (gatewayAdd defaultIds) gatewayEntries gatewayBoot := by
  have hask : (ask (gatewayAdd defaultIds) gatewayEntries gatewayBoot).2 = none := by decide
  have hret : (canRouterRegister (gatewayAdd defaultIds) gatewayEntries gatewayBoot).ret = 4 := by
    decide
  unfold Registers
  rw [hask, hret]
  rintro ⟨hzero, -⟩
  exact absurd hzero (by decide)

end Can

end Ardep
