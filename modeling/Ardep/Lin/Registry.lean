import Mathlib.Data.List.Nodup
import Mathlib.Tactic.Common
import Ardep.Common.Latest
import Ardep.Lin.Model
/-!
# The callback registry of the LIN layer

The LIN layer keeps its callbacks in an array of fixed size with a counter
of the entries in use. A registration writes behind the last of them, a
removal moves those after it one to the left, and three loops look an id
up: for a header seen on the bus, for a frame received and for a slot of
the schedule.

`registry_run` is the contract over every run of registrations and
removals with any arguments: the entries in use are valid and distinct, a
failed call changes nothing, a removal takes one entry out and keeps the
order of the others, and each of the three loops serves an id by the
registration last made and not removed. `Lin.Model` has the registry as a
list; `forget_register` says that it is the one here.
-/

namespace Ardep

namespace Lin

namespace Registry

open Uds

/-- `CONFIG_ABSTRACT_LIN_MAX_FRAME_COUNT`, of range 0 to 64. -/
abbrev FrameCount : Type := Fin 65

/-- `struct abstract_lin_callback_entry_t`, with `A` for a callback and `U`
for its user data. -/
structure Entry (A U : Type) where
  frameId : UInt8
  frameSize : UInt8
  type : CallbackType
  callback : Option A
  userData : U

/-- `struct abstract_lin_data`. The counter is a `uint8_t`. -/
structure AbstractLinData (A U : Type) where
  callbacks : List (Entry A U)
  usedCallbacks : ℕ

variable {A U : Type}

/-- The entries the loops run over. -/
def AbstractLinData.used (data : AbstractLinData A U) : List (Entry A U) :=
  data.callbacks.take data.usedCallbacks

/-! ## Registration -/

/-- `al_get_free_cb_slots`, with or without a place for the answer. -/
def alGetFreeCbSlots (max : FrameCount) (data : AbstractLinData A U) (freeSlots : Bool) :
    ℤ × Option ℕ :=
  if ¬ freeSlots then (-EINVAL, none)
  else (0, some (((max : ℤ) - data.usedCallbacks) % 256).toNat)

/-- `allocate_callback`. -/
def allocateCallback (max : FrameCount) (data : AbstractLinData A U) (frameId : UInt8) :
    ℤ × AbstractLinData A U :=
  if data.usedCallbacks ≥ max then (-ENOSPC, data)
  else if ∃ cb ∈ data.used, cb.frameId = frameId then (-EEXIST, data)
  else (data.usedCallbacks, { data with usedCallbacks := (data.usedCallbacks + 1) % 256 })

/-- What the two registrations share. -/
def alRegisterCb (type : CallbackType) (max : FrameCount) (data : AbstractLinData A U)
    (callback : Option A) (frameId frameSize : UInt8) (userData : U) :
    ℤ × AbstractLinData A U :=
  if callback.isNone ∨ frameId > 0x3F ∨ frameSize < 1 ∨ frameSize > 8 then (-EINVAL, data)
  else
    let (freeIndex, data) := allocateCallback max data frameId
    if freeIndex < 0 then (freeIndex, data)
    else
      (0, { data with
        callbacks := data.callbacks.set freeIndex.toNat ⟨frameId, frameSize, type, callback, userData⟩ })

/-- `al_register_incoming_cb`. -/
def alRegisterIncomingCb (max : FrameCount) (data : AbstractLinData A U) (callback : Option A)
    (frameId frameSize : UInt8) (userData : U) : ℤ × AbstractLinData A U :=
  alRegisterCb .incoming max data callback frameId frameSize userData

/-- `al_register_outgoing_cb`. -/
def alRegisterOutgoingCb (max : FrameCount) (data : AbstractLinData A U) (callback : Option A)
    (frameId frameSize : UInt8) (userData : U) : ℤ × AbstractLinData A U :=
  alRegisterCb .outgoing max data callback frameId frameSize userData

/-- One turn of the loop that moves entries to the left. -/
def moveOne {E : Type} (callbacks : List E) (i : ℕ) : List E :=
  match callbacks[i + 1]? with
  | none => callbacks
  | some next => callbacks.set i next

/-- `al_unregister`. -/
def alUnregister (data : AbstractLinData A U) (frameId : UInt8) : ℤ × AbstractLinData A U :=
  match data.used.findIdx? fun cb => cb.frameId = frameId with
  | none => (-EINVAL, data)
  | some tbfIndex =>
    let usedCallbacks := (data.usedCallbacks + 255) % 256
    (0, ⟨(List.range' tbfIndex (usedCallbacks - tbfIndex)).foldl moveOne data.callbacks, usedCallbacks⟩)

/-! ## The three lookups

A loop says what the LIN layer does and which callbacks it calls, with
their user data; it gives nothing where it would call a null pointer.
`outgoingCb` is what an outgoing callback returns and writes. -/

variable (outgoingCb : A → U → LinFrame → Bool × LinFrame)

/-- `lin_header_callback`. -/
def linHeaderCallback (data : AbstractLinData A U) (frame : LinFrame) :
    Option (LinAction × List (A × U)) :=
  match data.used.find? fun cb => cb.frameId = frame.id with
  | none => some (.none, [])
  | some cb =>
    match cb.type with
    | .incoming => some (.receive cb.frameSize.toNat, [])
    | .outgoing =>
      cb.callback.map fun callback =>
        let (res, written) :=
          outgoingCb callback cb.userData { frame with len := cb.frameSize.toNat }
        (if res then .send { written with len := cb.frameSize.toNat } else .none,
          [(callback, cb.userData)])

/-- `lin_rx_callback`. -/
def linRxCallback (data : AbstractLinData A U) (error : ℤ) (frame : LinFrame) :
    Option (List (A × U)) :=
  if error ≠ 0 then some []
  else
    (data.used.filter fun cb => cb.frameId = frame.id ∧ cb.type = .incoming).mapM fun cb =>
      cb.callback.map fun callback => (callback, cb.userData)

/-- `al_schedule_now`. `buffer` is what the frame on the stack holds. -/
def alScheduleNow (mode : LinMode) (data : AbstractLinData A U) (frameId : UInt8)
    (buffer : List UInt8) : Option (Except ℤ LinAction × List (A × U)) :=
  if frameId > 0x3F then some (.error (-EINVAL), [])
  else if mode ≠ .commander then some (.error (-ENOTSUP), [])
  else
    match data.used.find? fun cb => cb.frameId = frameId with
    | none => some (.error (-EINVAL), [])
    | some cb =>
      match cb.type with
      | .incoming => some (.ok (.receive cb.frameSize.toNat), [])
      | .outgoing =>
        cb.callback.map fun callback =>
          let (send, written) :=
            outgoingCb callback cb.userData ⟨cb.frameId, cb.frameSize.toNat, buffer⟩
          (.ok (if send then .send { written with id := cb.frameId, len := cb.frameSize.toNat }
            else .none), [(callback, cb.userData)])

/-! ## Runs -/

/-- A call of the application, with any arguments. -/
inductive Call (A U : Type) where
  | register (type : CallbackType) (callback : Option A) (frameId frameSize : UInt8) (userData : U)
  | unregister (frameId : UInt8)

/-- What a call returns and leaves. -/
def Call.run (max : FrameCount) (data : AbstractLinData A U) : Call A U → ℤ × AbstractLinData A U
  | .register .incoming callback frameId frameSize userData =>
    alRegisterIncomingCb max data callback frameId frameSize userData
  | .register .outgoing callback frameId frameSize userData =>
    alRegisterOutgoingCb max data callback frameId frameSize userData
  | .unregister frameId => alUnregister data frameId

/-- **The registry**: an array of the configured size, with no entry used
at the start. -/
def registry (max : FrameCount) : Machine (AbstractLinData A U) (Call A U) where
  init data := data.callbacks.length = max ∧ data.usedCallbacks = 0
  Step data call data' := data' = (call.run max data).2

/-- **A valid registry.** -/
structure Valid (max : FrameCount) (data : AbstractLinData A U) : Prop where
  length : data.callbacks.length = max
  used_le : data.usedCallbacks ≤ max
  distinct : (data.used.map (·.frameId)).Nodup
  entries : ∀ cb ∈ data.used,
    cb.frameId ≤ 0x3F ∧ 1 ≤ cb.frameSize ∧ cb.frameSize ≤ 8 ∧ cb.callback.isSome

/-- A registration as it was made. -/
structure Registration (A U : Type) where
  frameSize : UInt8
  type : CallbackType
  callback : A
  userData : U

/-- The entry of a registration. -/
def Registration.entry (r : Registration A U) (frameId : UInt8) : Entry A U :=
  ⟨frameId, r.frameSize, r.type, some r.callback, r.userData⟩

/-- What a call says about an id, if it returns 0: it is registered, or no
longer. -/
def Call.tells (max : FrameCount) :
    AbstractLinData A U × Call A U → UInt8 → Option (Option (Registration A U))
  | (data, call), id =>
    if (call.run max data).1 ≠ 0 then none
    else
      match call with
      | .register type callback frameId frameSize userData =>
        if frameId = id then callback.map fun cb => some ⟨frameSize, type, cb, userData⟩ else none
      | .unregister frameId => if frameId = id then some none else none

/-- **The registration of an id made last and not removed.** -/
def standing (max : FrameCount) (past : List (AbstractLinData A U × Call A U)) (id : UInt8) :
    Option (Registration A U) :=
  latest (Call.tells max) (fun _ => none) past id

/-! ## The array -/

section Array

variable {E : Type}

/-- The loop moves what follows an entry one to the left. -/
theorem foldl_moveOne (post tail : List E) : ∀ (pre : List E) (x : E), ∃ last,
    (List.range' pre.length post.length).foldl moveOne (pre ++ x :: (post ++ tail)) =
      pre ++ post ++ last :: tail := by
  induction post with
  | nil =>
    intro pre x
    exact ⟨x, by simp⟩
  | cons y post ih =>
    intro pre x
    obtain ⟨last, hlast⟩ := ih (pre ++ [y]) y
    refine ⟨last, ?_⟩
    -- the first turn writes `y` over `x`, and the others go on from there
    have hmove : moveOne (pre ++ x :: y :: (post ++ tail)) pre.length =
        pre ++ [y] ++ y :: (post ++ tail) := by
      have hnext : (pre ++ x :: y :: (post ++ tail))[pre.length + 1]? = some y := by
        rw [List.getElem?_append_right (Nat.le_add_right _ 1), Nat.add_sub_cancel_left]
        rfl
      unfold moveOne
      rw [hnext]
      simp
    rw [List.length_cons, List.range'_succ, List.foldl_cons, List.cons_append, hmove]
    rw [List.length_append] at hlast
    rw [show pre.length + 1 = pre.length + [y].length from rfl, hlast]
    simp

/-- Writing behind the first entries adds one to them. -/
theorem take_set_length (callbacks : List E) {n : ℕ} (hn : n < callbacks.length) (x : E) :
    (callbacks.set n x).take (n + 1) = callbacks.take n ++ [x] := by
  have hlen : (callbacks.take n).length = n := by
    rw [List.length_take]
    omega
  rw [List.set_eq_take_append_cons_drop, if_pos hn, List.take_append, hlen,
    List.take_of_length_le (by omega), Nat.add_sub_cancel_left]
  rfl

end Array

/-! ## What a call does -/

section Calls

variable {max : FrameCount} {data : AbstractLinData A U}

theorem Valid.length_used (h : Valid max data) : data.used.length = data.usedCallbacks := by
  have hlen := h.length
  have hle := h.used_le
  unfold AbstractLinData.used
  rw [List.length_take]
  omega

/-- **Registering** fails and changes nothing, or adds an entry behind the
others. -/
theorem alRegisterCb_cases (h : Valid max data) (type : CallbackType) (callback : Option A)
    (frameId frameSize : UInt8) (userData : U) :
    (∃ err ≠ 0, alRegisterCb type max data callback frameId frameSize userData = (err, data)) ∨
      ∃ cb data', callback = some cb ∧ frameId ≤ 0x3F ∧ 1 ≤ frameSize ∧ frameSize ≤ 8 ∧
        (∀ x ∈ data.used, x.frameId ≠ frameId) ∧
          alRegisterCb type max data callback frameId frameSize userData = (0, data') ∧
            data'.callbacks.length = max ∧ data'.usedCallbacks = data.usedCallbacks + 1 ∧
              data'.usedCallbacks ≤ max ∧
                data'.used = data.used ++ [(⟨frameSize, type, cb, userData⟩ : Registration A U).entry
                  frameId] := by
  unfold alRegisterCb
  split_ifs with hinvalid
  · exact .inl ⟨-EINVAL, by decide, rfl⟩
  obtain ⟨hcallback, hid, hmin, hsize⟩ : ¬ callback.isNone ∧ ¬ frameId > 0x3F ∧ ¬ frameSize < 1 ∧
      ¬ frameSize > 8 := by
    refine ⟨fun hc => hinvalid (.inl hc), fun hc => hinvalid (.inr (.inl hc)),
      fun hc => hinvalid (.inr (.inr (.inl hc))), fun hc => hinvalid (.inr (.inr (.inr hc)))⟩
  obtain ⟨cb, rfl⟩ : ∃ cb, callback = some cb := by
    cases callback with
    | none => exact absurd rfl hcallback
    | some cb => exact ⟨cb, rfl⟩
  unfold allocateCallback
  split_ifs with hfull hexists
  · exact .inl ⟨-ENOSPC, by decide, rfl⟩
  · exact .inl ⟨-EEXIST, by decide, rfl⟩
  · -- there is room: the counter does not wrap, and the index is the old counter
    have hmax := max.isLt
    have hlen := h.length
    have hwrap : (data.usedCallbacks + 1) % 256 = data.usedCallbacks + 1 := by omega
    have hnat : ¬ (data.usedCallbacks : ℤ) < 0 := by omega
    refine .inr ⟨cb, _, rfl, UInt8.not_lt.mp hid, UInt8.not_lt.mp hmin, UInt8.not_lt.mp hsize,
      fun x hx heq => hexists ⟨x, hx, heq⟩, if_neg hnat, ?_, hwrap, ?_, ?_⟩
    · exact List.length_set.trans hlen
    · simp only [hwrap]
      omega
    · unfold AbstractLinData.used
      simp only [hwrap, Int.toNat_natCast]
      exact take_set_length data.callbacks (by omega) _

/-- **Removing** fails and changes nothing, or takes out the first entry of
the id. -/
theorem alUnregister_cases (h : Valid max data) (frameId : UInt8) :
    ((∀ x ∈ data.used, x.frameId ≠ frameId) ∧ alUnregister data frameId = (-EINVAL, data)) ∨
      ∃ pre x post data', data.used = pre ++ x :: post ∧ x.frameId = frameId ∧
        alUnregister data frameId = (0, data') ∧ data'.callbacks.length = max ∧
          data'.usedCallbacks + 1 = data.usedCallbacks ∧ data'.used = pre ++ post := by
  unfold alUnregister
  cases hfind : data.used.findIdx? fun cb => cb.frameId = frameId with
  | none =>
    refine .inl ⟨fun x hx heq => ?_, rfl⟩
    have hnone := List.findIdx?_eq_none_iff.mp hfind x hx
    simp [heq] at hnone
  | some tbfIndex =>
    obtain ⟨hlt, hp, -⟩ := List.findIdx?_eq_some_iff_getElem.mp hfind
    have hsplit : data.used = data.used.take tbfIndex ++ data.used[tbfIndex] ::
        data.used.drop (tbfIndex + 1) := by
      rw [← List.drop_eq_getElem_cons hlt, List.take_append_drop]
    have hpre : (data.used.take tbfIndex).length = tbfIndex := by
      rw [List.length_take]
      omega
    have hpost : (data.used.drop (tbfIndex + 1)).length = data.usedCallbacks - 1 - tbfIndex := by
      rw [List.length_drop, h.length_used]
      omega
    have hcount := h.length_used
    have hmax := max.isLt
    have hle := h.used_le
    have hdown : (data.usedCallbacks + 255) % 256 = data.usedCallbacks - 1 := by omega
    -- the whole array: what is before, the entry, what is after it, and the cells not in use
    obtain ⟨last, hmoved⟩ := foldl_moveOne (data.used.drop (tbfIndex + 1))
      (data.callbacks.drop data.usedCallbacks) (data.used.take tbfIndex) data.used[tbfIndex]
    have harray : data.used.take tbfIndex ++ data.used[tbfIndex] ::
        (data.used.drop (tbfIndex + 1) ++ data.callbacks.drop data.usedCallbacks) =
          data.callbacks := by
      rw [← List.cons_append, ← List.append_assoc, ← hsplit]
      exact List.take_append_drop ..
    rw [harray, hpre, hpost] at hmoved
    refine .inr ⟨_, _, _, _, hsplit, of_decide_eq_true hp, rfl, ?_, ?_, ?_⟩
    · simp only [hdown, hmoved]
      rw [List.length_append, List.length_append, hpre, hpost, List.length_cons, List.length_drop,
        h.length]
      have hlen := h.length
      omega
    · simp only [hdown]
      omega
    · unfold AbstractLinData.used
      simp only [hdown, hmoved]
      refine List.take_left' ?_
      rw [List.length_append, hpre, hpost]
      omega

end Calls

/-! ## Every run -/

section Law

variable {max : FrameCount} {data data' : AbstractLinData A U}

/-- **What a call may do**: fail and change nothing, add an entry at the
end, or take out the entry of an id. -/
inductive Effect (max : FrameCount) (data : AbstractLinData A U) :
    Call A U → ℤ → AbstractLinData A U → Prop
  | failed {call : Call A U} {err : ℤ} (herr : err ≠ 0) : Effect max data call err data
  | registered {type : CallbackType} {cb : A} {frameId frameSize : UInt8} {userData : U}
      {data' : AbstractLinData A U} (hid : frameId ≤ 0x3F) (hmin : 1 ≤ frameSize)
      (hsize : frameSize ≤ 8) (hnew : ∀ x ∈ data.used, x.frameId ≠ frameId)
      (hlength : data'.callbacks.length = max) (hle : data'.usedCallbacks ≤ max)
      (hused : data'.used = data.used ++
        [(⟨frameSize, type, cb, userData⟩ : Registration A U).entry frameId]) :
      Effect max data (.register type (some cb) frameId frameSize userData) 0 data'
  | removed {frameId : UInt8} {pre post : List (Entry A U)} {x : Entry A U}
      {data' : AbstractLinData A U} (hsplit : data.used = pre ++ x :: post)
      (hx : x.frameId = frameId) (hlength : data'.callbacks.length = max)
      (hle : data'.usedCallbacks ≤ max) (hused : data'.used = pre ++ post) :
      Effect max data (.unregister frameId) 0 data'

/-- **Every call of a valid registry** is one of them. -/
theorem effect (h : Valid max data) (call : Call A U) :
    Effect max data call (call.run max data).1 (call.run max data).2 := by
  cases call with
  | register type callback frameId frameSize userData =>
    have hrun : (Call.register type callback frameId frameSize userData).run max data =
        alRegisterCb type max data callback frameId frameSize userData := by
      cases type <;> rfl
    rw [hrun]
    rcases alRegisterCb_cases h type callback frameId frameSize userData with
      ⟨err, herr, heq⟩ | ⟨cb, data', rfl, hid, hmin, hsize, hnew, heq, hlength, -, hle, hused⟩
    · rw [heq]
      exact .failed herr
    · rw [heq]
      exact .registered hid hmin hsize hnew hlength hle hused
  | unregister frameId =>
    have hrun : (Call.unregister frameId : Call A U).run max data = alUnregister data frameId := rfl
    rw [hrun]
    rcases alUnregister_cases h frameId with
      ⟨-, heq⟩ | ⟨pre, x, post, data', hsplit, hx, heq, hlength, hcount, hused⟩
    · rw [heq]
      have herr : (-EINVAL : ℤ) ≠ 0 := by decide
      exact .failed herr
    · rw [heq]
      have hle : data'.usedCallbacks ≤ max := by
        have hused_le := h.used_le
        omega
      exact .removed hsplit hx hlength hle hused

/-- **One call keeps the registry valid.** -/
theorem valid_effect (h : Valid max data) {call : Call A U} {ret : ℤ}
    (heff : Effect max data call ret data') : Valid max data' := by
  cases heff with
  | failed _ => exact h
  | registered hid hmin hsize hnew hlength hle hused =>
    refine ⟨hlength, hle, ?_, ?_⟩
    · rw [hused, List.map_append, List.map_cons, List.map_nil, List.nodup_append]
      refine ⟨h.distinct, List.nodup_singleton _, fun a ha b hb hab => ?_⟩
      obtain ⟨x, hx, rfl⟩ := List.mem_map.mp ha
      exact hnew x hx (hab.trans (List.mem_singleton.mp hb))
    · rw [hused, List.forall_mem_append]
      refine ⟨h.entries, ?_⟩
      rw [List.forall_mem_singleton]
      exact ⟨hid, hmin, hsize, rfl⟩
  | removed hsplit hx hlength hle hused =>
    have hsub : List.Sublist data'.used data.used := by
      rw [hused, hsplit]
      exact List.Sublist.append_left (List.sublist_cons_self _ _) _
    exact ⟨hlength, hle, (hsub.map _).nodup h.distinct, fun cb hcb => h.entries cb (hsub.subset hcb)⟩

/-- **In every reachable state the registry is valid.** -/
theorem valid (h : (registry max).Reachable data) : Valid max data := by
  refine h.invariant (fun data hinit => ?_) fun data call data' hdata hstep => ?_
  · obtain ⟨hlength, hused⟩ := hinit
    have hnil : data.used = [] := by
      unfold AbstractLinData.used
      rw [hused, List.take_zero]
    refine ⟨hlength, by omega, ?_, ?_⟩
    · rw [hnil]
      exact List.nodup_nil
    · rw [hnil]
      exact fun cb hcb => absurd hcb List.not_mem_nil
  · obtain rfl : data' = (call.run max data).2 := hstep
    exact valid_effect hdata (effect hdata call)

/-! ## What is stored under an id -/

/-- The registration stored under an id. -/
def stored (data : AbstractLinData A U) (id : UInt8) : Option (Registration A U) :=
  (data.used.find? fun cb => cb.frameId = id).bind fun cb =>
    cb.callback.map fun callback => ⟨cb.frameSize, cb.type, callback, cb.userData⟩

/-- The entry of an id, in a valid registry, is that of its registration. -/
theorem Valid.find_eq (h : Valid max data) (id : UInt8) :
    (data.used.find? fun cb => cb.frameId = id) = (stored data id).map (·.entry id) := by
  unfold stored
  cases hfind : data.used.find? fun cb => cb.frameId = id with
  | none => rfl
  | some cb =>
    have hid := List.find?_some hfind
    obtain ⟨-, -, -, hcallback⟩ := h.entries cb (List.mem_of_find?_eq_some hfind)
    obtain ⟨callback, hcallback⟩ := Option.isSome_iff_exists.mp hcallback
    obtain ⟨frameId, frameSize, type, cbCallback, userData⟩ := cb
    obtain rfl : frameId = id := of_decide_eq_true hid
    obtain rfl : cbCallback = some callback := hcallback
    rfl

/-- **One call changes what is stored as it says.** -/
theorem stored_effect (h : Valid max data) (call : Call A U) (id : UInt8) :
    stored (call.run max data).2 id = (Call.tells max (data, call) id).getD (stored data id) := by
  have heff := effect h call
  generalize hrun : call.run max data = result at heff
  obtain ⟨ret, data'⟩ := result
  simp only [Call.tells, hrun]
  cases heff with
  | failed herr => rw [if_pos herr, Option.getD_none]
  | @registered type cb frameId frameSize userData _ hid hmin hsize hnew hlength hle hused =>
    rw [if_neg (by decide)]
    unfold stored
    rw [hused, List.find?_append]
    by_cases heq : frameId = id
    · subst heq
      have hnone : (data.used.find? fun x => x.frameId = frameId) = none := by
        rw [List.find?_eq_none]
        intro x hx hp
        exact hnew x hx (of_decide_eq_true hp)
      rw [hnone]
      simp [Registration.entry]
    · simp [Registration.entry, heq]
  | @removed frameId pre post x _ hsplit hx hlength hle hused =>
    rw [if_neg (by decide)]
    unfold stored
    by_cases heq : frameId = id
    · -- the ids are distinct, so no other entry has this one
      subst heq
      have hnone : (data'.used.find? fun y => y.frameId = frameId) = none := by
        rw [List.find?_eq_none, hused]
        intro y hy hp
        have hdistinct := h.distinct
        rw [hsplit, List.map_append, List.map_cons, List.nodup_middle, List.nodup_cons] at hdistinct
        refine hdistinct.1 ?_
        rw [hx, ← of_decide_eq_true hp, ← List.map_append]
        exact List.mem_map_of_mem hy
      rw [hnone]
      simp
    · have hother : ¬ x.frameId = id := fun hxid => heq (hx ▸ hxid)
      rw [hused, hsplit, List.find?_append, List.find?_append, List.find?_cons_of_neg (by simpa)]
      simp [heq]

/-- **What is stored under an id is its standing registration.** -/
theorem stored_eq_standing {past : List (AbstractLinData A U × Call A U)}
    (h : (registry max).Run past data) (id : UInt8) : stored data id = standing max past id := by
  refine h.eq_latest stored (fun data hinit id => ?_) (fun data call data' hreach hstep id => ?_) id
  · unfold stored AbstractLinData.used
    rw [hinit.2, List.take_zero]
    rfl
  · obtain rfl : data' = (call.run max data).2 := hstep
    exact stored_effect (valid hreach) call id

end Law

/-! ## What serves an id

The three loops as they should be: by the one registration of the id. -/

/-- A header is answered by an outgoing registration and makes the node
receive on an incoming one. -/
def serveHeader (frame : LinFrame) : Option (Registration A U) → LinAction × List (A × U)
  | none => (.none, [])
  | some r =>
    match r.type with
    | .incoming => (.receive r.frameSize.toNat, [])
    | .outgoing =>
      let (res, written) := outgoingCb r.callback r.userData { frame with len := r.frameSize.toNat }
      (if res then .send { written with len := r.frameSize.toNat } else .none,
        [(r.callback, r.userData)])

/-- A received frame is for an incoming registration. -/
def serveRx : Option (Registration A U) → List (A × U)
  | none => []
  | some r =>
    match r.type with
    | .incoming => [(r.callback, r.userData)]
    | .outgoing => []

/-- A slot asks for the frame of an incoming registration and sends that of
an outgoing one. -/
def serveSlot (id : UInt8) (buffer : List UInt8) :
    Option (Registration A U) → Except ℤ LinAction × List (A × U)
  | none => (.error (-EINVAL), [])
  | some r =>
    match r.type with
    | .incoming => (.ok (.receive r.frameSize.toNat), [])
    | .outgoing =>
      let (send, written) := outgoingCb r.callback r.userData ⟨id, r.frameSize.toNat, buffer⟩
      (.ok (if send then .send { written with id := id, len := r.frameSize.toNat } else .none),
        [(r.callback, r.userData)])

section Lookups

variable {max : FrameCount} {data : AbstractLinData A U}

theorem Valid.header_eq (h : Valid max data) (frame : LinFrame) :
    linHeaderCallback outgoingCb data frame =
      some (serveHeader outgoingCb frame (stored data frame.id)) := by
  unfold linHeaderCallback serveHeader
  rw [h.find_eq]
  cases stored data frame.id with
  | none => rfl
  | some r =>
    obtain ⟨frameSize, type, callback, userData⟩ := r
    cases type <;> rfl

/-- Nothing is registered under an id that is none. -/
theorem Valid.stored_of_gt (h : Valid max data) {id : UInt8} (hid : id > 0x3F) :
    stored data id = none := by
  have hnone : (data.used.find? fun cb => cb.frameId = id) = none := by
    rw [List.find?_eq_none]
    intro cb hcb hp
    have hle := (h.entries cb hcb).1
    rw [of_decide_eq_true hp] at hle
    exact UInt8.not_lt.mpr hle hid
  unfold stored
  rw [hnone]
  rfl

theorem Valid.slot_eq (h : Valid max data) (id : UInt8) (buffer : List UInt8) :
    alScheduleNow outgoingCb .commander data id buffer =
      some (serveSlot outgoingCb id buffer (stored data id)) := by
  unfold alScheduleNow serveSlot
  split_ifs with hid hmode
  · rw [h.stored_of_gt hid]
  · exact absurd rfl hmode
  rw [h.find_eq]
  cases stored data id with
  | none => rfl
  | some r =>
    obtain ⟨frameSize, type, callback, userData⟩ := r
    cases type <;> rfl

/-- Where the keys are distinct, the entries of a key are the one that is
found first. -/
theorem filter_eq_find {E K : Type} [DecidableEq K] {key : E → K} (keep : E → Bool) (k : K) :
    ∀ {entries : List E}, (entries.map key).Nodup →
      (entries.filter fun x => key x = k && keep x) =
        ((entries.find? fun x => key x = k).filter keep).toList := by
  intro entries hdistinct
  induction entries with
  | nil => rfl
  | cons x entries ih =>
    rw [List.map_cons, List.nodup_cons] at hdistinct
    obtain ⟨hnew, hdistinct⟩ := hdistinct
    by_cases hx : key x = k
    · -- no other entry has the key
      have hrest : (entries.filter fun y => key y = k && keep y) = [] := by
        rw [List.filter_eq_nil_iff]
        intro y hy hp
        rw [Bool.and_eq_true] at hp
        refine hnew ?_
        rw [hx, ← of_decide_eq_true hp.1]
        exact List.mem_map_of_mem hy
      rw [List.find?_cons_of_pos (by simpa using hx), List.filter_cons, hrest]
      cases hkeep : keep x <;> simp [hx, hkeep, Option.filter]
    · rw [List.find?_cons_of_neg (by simpa using hx), List.filter_cons_of_neg (by simp [hx]),
        ih hdistinct]

theorem Valid.rx_eq (h : Valid max data) (frame : LinFrame) :
    linRxCallback data 0 frame = some (serveRx (stored data frame.id)) := by
  have hfilter : (data.used.filter fun cb => cb.frameId = frame.id ∧ cb.type = .incoming) =
      ((data.used.find? fun cb => cb.frameId = frame.id).filter
        fun cb => cb.type = .incoming).toList := by
    rw [← filter_eq_find (fun cb => decide (cb.type = .incoming)) frame.id h.distinct]
    congr 1
    funext cb
    exact Bool.decide_and ..
  unfold linRxCallback serveRx
  rw [if_neg (by decide), hfilter, h.find_eq]
  cases stored data frame.id with
  | none => rfl
  | some r =>
    obtain ⟨frameSize, type, callback, userData⟩ := r
    cases type <;> rfl

theorem Valid.free_eq (h : Valid max data) :
    alGetFreeCbSlots max data true = (0, some (max - data.used.length)) := by
  have hle := h.used_le
  have hmax := max.isLt
  unfold alGetFreeCbSlots
  rw [if_neg (by decide), h.length_used]
  congr 2
  omega

end Lookups

/-- **The contract of the registry.** After any run of registrations and
removals: the entries in use are valid, distinct and no more than the
array holds, and the free slots are the rest; a call that fails changes
nothing, and a removal takes out one entry and keeps the others in order;
and a header, a received frame and a slot are served by the registration
of their id made last and not removed. -/
theorem registry_run {max : FrameCount} {past : List (AbstractLinData A U × Call A U)}
    {data : AbstractLinData A U} (h : (registry max).Run past data) :
    (Valid max data ∧ data.used.length = data.usedCallbacks ∧
      alGetFreeCbSlots max data true = (0, some (max - data.used.length))) ∧
    (∀ call : Call A U, (call.run max data).1 ≠ 0 → (call.run max data).2 = data) ∧
    (∀ frameId, (alUnregister data frameId).1 = 0 → ∃ pre x post, data.used = pre ++ x :: post ∧
      x.frameId = frameId ∧ (alUnregister data frameId).2.used = pre ++ post) ∧
    (∀ frame, linHeaderCallback outgoingCb data frame =
      some (serveHeader outgoingCb frame (standing max past frame.id))) ∧
    (∀ frame, linRxCallback data 0 frame = some (serveRx (standing max past frame.id))) ∧
    ∀ id buffer, alScheduleNow outgoingCb .commander data id buffer =
      some (serveSlot outgoingCb id buffer (standing max past id)) := by
  have hvalid := valid h.reachable
  refine ⟨⟨hvalid, hvalid.length_used, hvalid.free_eq⟩, fun call herr => ?_, fun frameId hzero => ?_,
    fun frame => ?_, fun frame => ?_, fun id buffer => ?_⟩
  · have heff := effect hvalid call
    generalize call.run max data = result at heff herr ⊢
    obtain ⟨ret, data'⟩ := result
    cases heff with
    | failed _ => rfl
    | registered => exact absurd rfl herr
    | removed => exact absurd rfl herr
  · rcases alUnregister_cases hvalid frameId with
      ⟨-, heq⟩ | ⟨pre, x, post, data', hsplit, hx, heq, -, -, hused⟩
    · have herr : (-EINVAL : ℤ) ≠ 0 := by decide
      rw [heq] at hzero
      exact absurd hzero herr
    · rw [heq]
      exact ⟨pre, x, post, hsplit, hx, hused⟩
  · rw [hvalid.header_eq, stored_eq_standing h]
  · rw [hvalid.rx_eq, stored_eq_standing h]
  · rw [hvalid.slot_eq outgoingCb, stored_eq_standing h]

/-- A registry of two, its cells as they are at the start. -/
def emptyRegistry : AbstractLinData ℕ Unit :=
  ⟨[⟨0, 0, .incoming, none, ()⟩, ⟨0, 0, .incoming, none, ()⟩], 0⟩

/-- A registry of the size of the array. -/
abbrev two : FrameCount := ⟨2, Nat.le_add_left 3 62⟩

/-- An id is registered, removed and registered again. -/
theorem registry_run_again :
    ∃ past data, (registry (A := ℕ) (U := Unit) two).Run past data ∧
      linRxCallback data 0 ⟨0x10, 8, []⟩ = some [(7, ())] := by
  have hinit : (registry two).init emptyRegistry := ⟨rfl, rfl⟩
  have hrun := (((Machine.Run.init hinit).step
    (e := Call.register .incoming (some 3) 0x10 8 ()) rfl).step
      (e := Call.unregister 0x10) rfl).step (e := Call.register .incoming (some 7) 0x10 8 ()) rfl
  refine ⟨_, _, hrun, ?_⟩
  obtain ⟨-, -, -, -, hrx, -⟩ := registry_run (fun _ _ frame => (false, frame)) hrun
  rw [hrx]
  rfl

/-! ## As a list -/

/-- The entry as `Lin.Model` has it. -/
def Entry.toCallbackEntry (cb : Entry A U) : CallbackEntry :=
  ⟨cb.frameId, cb.frameSize.toNat, cb.type⟩

/-- **The registry of `Lin.Model` is this one**: a registration with a
callback returns the same error there, or leaves the same entries. -/
theorem forget_register {max : FrameCount} {data : AbstractLinData A U} (h : Valid max data)
    (type : CallbackType) (cb : A) (frameId frameSize : UInt8) (userData : U) :
    let result := alRegisterCb type max data (some cb) frameId frameSize userData
    alRegister max ⟨frameId, frameSize.toNat, type⟩ (data.used.map Entry.toCallbackEntry) =
      if result.1 = 0 then .ok (result.2.used.map Entry.toCallbackEntry) else .error result.1 := by
  intro result
  have hinvalid : (frameId > 0x3F ∨ frameSize.toNat < 1 ∨ frameSize.toNat > 8) ↔
      ((some cb).isNone ∨ frameId > 0x3F ∨ frameSize < 1 ∨ frameSize > 8) := by
    simp [UInt8.lt_iff_toNat_lt]
  have hexists : (∃ x ∈ data.used.map Entry.toCallbackEntry, x.frameId = frameId) ↔
      ∃ x ∈ data.used, x.frameId = frameId := by
    simp [Entry.toCallbackEntry]
  rcases alRegisterCb_cases h type (some cb) frameId frameSize userData with
    ⟨err, herr, heq⟩ | ⟨cb', data', hcb, hid, hmin, hsize, hnew, heq, -, hcount, hle, hused⟩
  · -- the checks are the same and come in the same order
    obtain ⟨rfl, -⟩ : result.1 = err ∧ result.2 = data := Prod.mk.injEq .. ▸ heq
    rw [if_neg herr]
    unfold alRegister
    simp only [hinvalid, hexists, List.length_map, h.length_used]
    unfold alRegisterCb allocateCallback at heq
    split_ifs with hinv hfull hex
    · rw [if_pos hinv] at heq
      exact congrArg _ (congrArg Prod.fst heq)
    · simp only [if_neg hinv, if_pos hfull] at heq
      exact congrArg _ (congrArg Prod.fst heq)
    · simp only [if_neg hinv, if_neg hfull, if_pos hex] at heq
      exact congrArg _ (congrArg Prod.fst heq)
    · have hnat : ¬ (data.usedCallbacks : ℤ) < 0 := by omega
      simp only [if_neg hinv, if_neg hfull, if_neg hex, if_neg hnat] at heq
      exact absurd (congrArg Prod.fst heq).symm herr
  · obtain rfl : cb = cb' := Option.some.inj hcb
    have hresult : result = (0, data') := heq
    rw [hresult, if_pos rfl, hused, List.map_append]
    have hroom : ¬ data.usedCallbacks ≥ max := by omega
    have hvalid : ¬ ((some cb).isNone ∨ frameId > 0x3F ∨ frameSize < 1 ∨ frameSize > 8) := by
      rintro (hnone | hgt | hlt | hgt)
      · cases hnone
      · exact UInt8.not_lt.mpr hid hgt
      · exact UInt8.not_lt.mpr hmin hlt
      · exact UInt8.not_lt.mpr hsize hgt
    have hfree : ¬ ∃ x ∈ data.used, x.frameId = frameId := fun ⟨x, hx, hxid⟩ => hnew x hx hxid
    unfold alRegister
    simp only [hinvalid, hexists, List.length_map, h.length_used, if_neg hvalid, if_neg hroom,
      if_neg hfree]
    rfl

end Registry

end Lin

end Ardep
