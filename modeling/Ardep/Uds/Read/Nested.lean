import Ardep.Uds.Read.Slices
/-!
# Read — an identifier inside another

A read of an identifier that names another raises the event for the other
one with `uds_copy`, and the other one's action runs on the same buffer.
At an element from a data identifier it empties the buffer, collects the
source there, and appends the slice it wants behind it: what was collected
before is gone, and the source's raw data stand in front. And the buffer
has 256 bytes, where the request may have more.

So an identifier is read inside another as the service reads it where it
has no such element and its memory ranges fit the buffer, and where it is
refused in any case before one of the two shows (`Undisturbed`). In all
other cases some application shows the difference (`nestedAsDirect_iff`).
-/

open Ardep.Uds.Dynamic

namespace Ardep

namespace Uds

namespace Read

variable {F α : Type} {env : Env F α} {I : Instance F} {s : State F}

/-! ## The two reads -/

/-- What a read by the service returns: the answer, what the request took
and the application's state after it. -/
def direct (env : Env F α) (fuel : ℕ) (y : UInt16) (app : α) :
    Option (UDSErr × List UInt8 × α) :=
  (readDataByIdent env fuel y ⟨app, [], []⟩).map fun p => (p.1, p.2.sent, p.2.app)

/-- **What a read contributes** to an identifier that wants bytes
`[position, position + size)` of it: these bytes, or the code it is refused
with; and the application's state. -/
def contribution (position size : UInt8) (read : UDSErr × List UInt8 × α) :
    Except UDSErr (List UInt8) × α :=
  let (ret, bytes, app) := read
  if ret ≠ .positiveResponse then (.error ret, app)
  else if bytes.length < position.toNat + size.toNat then (.error .generalReject, app)
  else (.ok ((bytes.drop position.toNat).take size.toNat), app)

/-- **Handled as if read by the service**: what an identifier contributes
to another one is what a direct read of it would contribute, the answer
code where it is refused included. -/
def NestedAsDirect (env : Env F α) (fuel : ℕ) (y : UInt16) (position size : UInt8) (app : α) :
    Prop :=
  (nested env fuel y app).map (contribution position size) =
    (direct env fuel y app).map (contribution position size)

/-- **What an element contributes.** The loop at an element that names the
identifier ends with the code, or hands the bytes to the copy function. -/
theorem readElements_contribution (env : Env F α) {fuel : ℕ} {copy : CopyFn}
    {rest : List DefinedData} {st : ReadState α} {y : UInt16} {position size : UInt8}
    {res : Except UDSErr (List UInt8)} {app : α}
    (h : (nested env fuel y st.app).map (contribution position size) = some (res, app)) :
    ∃ buffer, readElements env.app (raise env fuel) copy (.id y position size :: rest) st =
      (match res with
        | .error e => pure e
        | .ok bytes => runCopy env.app copy bytes >>= fun status =>
          if status ≠ 0 then pure (.ofByte status)
          else readElements env.app (raise env fuel) copy rest : ReadM α UDSErr)
        ⟨app, buffer, st.sent⟩ := by
  obtain ⟨⟨ret, bytes, app'⟩, hnested, hres⟩ := Option.map_eq_some_iff.mp h
  refine ⟨bytes, ?_⟩
  rw [readElements_id hnested]
  simp only [contribution] at hres
  split_ifs at hres with hret hlen
  · obtain ⟨rfl, rfl⟩ := Prod.mk.inj hres
    exact congrFun (if_pos hret) _
  · obtain ⟨rfl, rfl⟩ := Prod.mk.inj hres
    exact congrFun ((if_neg hret).trans (if_pos hlen)) _
  · obtain ⟨rfl, rfl⟩ := Prod.mk.inj hres
    exact congrFun ((if_neg hret).trans (if_neg hlen)) _

/-! ## Memory -/

namespace ReadState

/-- What a copy function has taken. -/
def taken (copy : CopyFn) (st : ReadState α) : List UInt8 :=
  match copy with
  | .udsCopy => st.tempBuffer
  | .request => st.sent

/-- The state once it has taken more, with the application in a new
state. -/
def took (copy : CopyFn) (bytes : List UInt8) (app : α) (st : ReadState α) : ReadState α :=
  match copy with
  | .udsCopy => ⟨app, st.tempBuffer ++ bytes, st.sent⟩
  | .request => ⟨app, st.tempBuffer, st.sent ++ bytes⟩

end ReadState

/-- **What the two reads rely on.** The request takes what `uds_copy` would
take; and a read of memory, whoever serves it, passes on no more bytes than
it was asked for, the same ones to either copy function that has room for
them. -/
structure AsAsked (env : Env F α) : Prop where
  room : ∀ sent src, src.length ≤ tempBufferSize - sent.length → env.app.copy sent src = 0
  memory : ∀ fuel memAddr memSize app, ∃ res : Option (UDSErr × List UInt8 × α),
    (∀ p ∈ res, p.2.1.length ≤ memSize) ∧
    ∀ copy st, st.app = app → (st.taken copy).length + memSize ≤ tempBufferSize →
      raise env fuel .readMemByAddr (.readMemByAddr memAddr memSize copy) st =
        res.map fun p => (p.1, st.took copy p.2.1 p.2.2)

/-- A block that there is room for is taken. -/
theorem runCopy_took {A : Application F α}
    (hroom : ∀ sent src, src.length ≤ tempBufferSize - sent.length → A.copy sent src = 0)
    (copy : CopyFn) {src : List UInt8} {st : ReadState α}
    (h : (st.taken copy).length + src.length ≤ tempBufferSize) :
    runCopy A copy src st = some (0, st.took copy src st.app) := by
  cases copy with
  | udsCopy => exact if_pos (show src.length ≤ tempBufferSize - st.tempBuffer.length by
      simp only [ReadState.taken] at h
      omega)
  | request => exact runCopy_request st (hroom _ _ (by
      simp only [ReadState.taken] at h
      omega))

/-- **The default memory handlers** pass on what they were asked for. -/
theorem asAsked_default (hmemory : DefaultMemory env.statics)
    (hroom : ∀ sent src, src.length ≤ tempBufferSize - sent.length → env.app.copy sent src = 0) :
    AsAsked env := by
  refine ⟨hroom, fun fuel memAddr memSize app => ?_⟩
  cases fuel with
  | zero => exact ⟨none, by simp, fun _ _ _ _ => rfl⟩
  | succ fuel =>
    by_cases hvalid : RangeValid env.app memAddr memSize
    · have hle : memSize % 2 ^ 16 ≤ memSize := Nat.mod_le _ _
      refine ⟨some (.positiveResponse,
        readRange (env.app.memory app) memAddr (memSize % 2 ^ 16), app), by simpa using hle, ?_⟩
      rintro copy st rfl hfits
      have hlen : (st.taken copy).length +
          (readRange (env.app.memory st.app) memAddr (memSize % 2 ^ 16)).length ≤
            tempBufferSize := by
        rw [length_readRange]
        omega
      have htook := runCopy_took hroom copy hlen
      rw [raise_memory hmemory, if_pos hvalid]
      show (runCopy env.app copy _ st).bind _ = _
      rw [htook]
      rfl
    · refine ⟨some (.requestOutOfRange, [], app), by simp, ?_⟩
      rintro copy st rfl -
      rw [raise_memory hmemory, if_neg hvalid]
      cases copy <;> simp [ReadState.took, pure_apply]

/-! ## Room -/

section Room

variable {A : Application F α} {r : UDSEvent → ReadArgs → ReadM α UDSErr}
  {rest : List DefinedData} {st st' : ReadState α}

theorem readElements_memory_ok {copy : CopyFn} {memAddr memSize : ℕ}
    (h : readElements A r copy (.memory memAddr memSize :: rest) st = some (.ok, st')) :
    ∃ st₁, readElements A r copy rest st₁ = some (.ok, st') := by
  obtain ⟨⟨ret, st₁⟩, -, hrun⟩ := Option.bind_eq_some_iff.mp h
  simp only at hrun
  split at hrun
  · next hret =>
    cases hrun
    exact absurd rfl hret
  · exact ⟨st₁, hrun⟩

/-- The source is in the buffer up to the slice's end, and there is room
for the slice behind it. -/
theorem readElements_id_ok {id : UInt16} {position size : UInt8}
    (h : readElements A r .udsCopy (.id id position size :: rest) st = some (.ok, st')) :
    position.toNat + size.toNat + size.toNat ≤ tempBufferSize ∧
      ∃ st₁, readElements A r .udsCopy rest st₁ = some (.ok, st') := by
  obtain ⟨⟨ret, st₁⟩, -, hrun⟩ := Option.bind_eq_some_iff.mp h
  simp only at hrun
  split at hrun
  · next hret =>
    cases hrun
    exact absurd rfl hret
  · simp only [bind_apply, getTempBuffer, Option.bind_some] at hrun
    split at hrun
    · cases hrun
    · next hlen =>
      rw [bind_apply] at hrun
      obtain ⟨⟨status, st₃⟩, hcopy, hrun⟩ := Option.bind_eq_some_iff.mp hrun
      simp only at hrun
      split at hrun
      · next hstatus =>
        simp only [pure_apply, Option.some.injEq, Prod.mk.injEq, UDSErr.ofByte_eq_zero] at hrun
        exact absurd hrun.1 hstatus
      · next hstatus =>
        refine ⟨?_, st₃, hrun⟩
        simp only [runCopy] at hcopy
        split at hcopy
        · next hroom =>
          simp only [List.length_take, List.length_drop, tempBufferSize] at hroom ⊢
          have := position.toNat_lt
          omega
        · cases hcopy
          exact absurd (by decide) hstatus

/-- **Room for every element** from a data identifier where all are read
into the buffer. -/
theorem room_of_readElements {elements : List DefinedData}
    (hrun : readElements A r .udsCopy elements st = some (.ok, st')) :
    ∀ id position size, .id id position size ∈ elements →
      position.toNat + size.toNat + size.toNat ≤ tempBufferSize := by
  induction elements generalizing st with
  | nil => intro id position size h; cases h
  | cons d rest ih =>
    intro id position size hmem
    cases d with
    | memory memAddr memSize =>
      obtain ⟨st₁, hrest⟩ := readElements_memory_ok hrun
      exact ih hrest id position size (List.mem_of_ne_of_mem (by simp) hmem)
    | id id' position' size' =>
      obtain ⟨hroom, st₁, hrest⟩ := readElements_id_ok hrun
      rcases List.mem_cons.mp hmem with heq | hmem
      · cases heq
        exact hroom
      · exact ih hrest id position size hmem

end Room

/-- The buffer holds no more than it has room for. -/
def bounded (α : Type) : ProgRel (ReadM α) (ReadM α) where
  Rel := fun x _ => ∀ st, st.tempBuffer.length ≤ tempBufferSize → ∀ b st', x st = some (b, st') →
    st'.tempBuffer.length ≤ tempBufferSize
  rel_pure := by
    intro β b st h b' st' hrun
    cases hrun
    exact h
  rel_bind := by
    intro β γ x y f g hx hf st h c st'' hrun
    obtain ⟨⟨b, st'⟩, hb, hc⟩ := Option.bind_eq_some_iff.mp hrun
    exact hf b st' (hx st h b st' hb) c st'' hc

theorem respectsBuffer_bounded : RespectsBuffer (bounded α) := by
  refine ⟨fun st h b st' hrun => ?_, fun st h b st' hrun => ?_⟩
  · cases hrun
    exact h
  · cases hrun
    exact Nat.zero_le _

theorem respects_bounded (A : Application F α) : Respects (bounded α) A .udsCopy := by
  refine ⟨fun st h b st' hrun => ?_, fun app st h b st' hrun => ?_, fun src st h b st' hrun => ?_⟩
  · cases hrun
    exact h
  · cases hrun
    exact h
  · simp only [runCopy] at hrun
    split at hrun
    · next hfits =>
      cases hrun
      rw [List.length_append]
      omega
    · cases hrun
      exact h

theorem raise_readDataByIdent_bounded (env : Env F α) (fuel : ℕ) (x : UInt16) :
    (bounded α).Rel (raise env fuel .readDataByIdent (.readDataByIdent x .udsCopy))
      (raise env fuel .readDataByIdent (.readDataByIdent x .udsCopy)) := by
  induction fuel generalizing x with
  | zero => intro st _ b st' hrun; cases hrun
  | succ fuel ih =>
    rw [raise_readDataByIdent]
    refine udsHandleEvent_rel _ fun reg _ found consume =>
      (respects_bounded env.app).readDataByIdent (fun _ _ => ?_) found consume
    refine (respects_bounded env.app).readElements (fun _ _ _ _ => respectsBuffer_bounded)
      (fun id _ _ _ => ih id) fun memAddr memSize _ => ?_
    cases fuel with
    | zero => intro st _ b st' hrun; cases hrun
    | succ fuel => exact (respects_bounded env.app).raise_readMemByAddr fuel fuel

/-- A read raised from another identifier has no more bytes than the buffer
has room for. -/
theorem length_nested {fuel : ℕ} {x : UInt16} {app app' : α} {ret : UDSErr} {bytes : List UInt8}
    (h : nested env fuel x app = some (ret, bytes, app')) : bytes.length ≤ tempBufferSize := by
  obtain ⟨⟨ret', st'⟩, hrun, heq⟩ := Option.map_eq_some_iff.mp h
  simp only [Prod.mk.injEq] at heq
  obtain ⟨-, rfl, -⟩ := heq
  exact raise_readDataByIdent_bounded env fuel x _ (Nat.zero_le _) _ _ hrun

/-- **The buffer has room**, with so many bytes in it, whatever the sources
return: the memory ranges fit, and an element from a data identifier, whose
source may fill the buffer, wants none of its bytes. A slice that ends
behind the buffer ends the read. -/
def Fits : ℕ → List DefinedData → Prop
  | _, [] => True
  | used, .memory _ memSize :: rest => used + memSize ≤ tempBufferSize ∧ Fits (used + memSize) rest
  | _, .id _ position size :: rest =>
    tempBufferSize < position.toNat + size.toNat ∨ size = 0 ∧ Fits tempBufferSize rest

/-- An element wants a slice that ends behind the buffer: the identifier is
never read. -/
def NeverRead (elements : List DefinedData) : Prop :=
  ∃ id position size, .id id position size ∈ elements ∧
    tempBufferSize < position.toNat + size.toNat

/-- **The buffer is left alone**: there is room, and no element is from a
data identifier, or the identifier is never read. -/
def Undisturbed (elements : List DefinedData) : Prop :=
  Fits 0 elements ∧ ((∀ id position size, .id id position size ∉ elements) ∨ NeverRead elements)

/-- **The two loops agree**: both run out of fuel, or they give the same
answer and leave the application in the same state; and the buffer holds
what was sent, if `Staged`. -/
def Agree (Staged : Prop) (nested direct : Option (UDSErr × ReadState α)) : Prop :=
  (nested = none ∧ direct = none) ∨
  ∃ ret st₁ st₂, nested = some (ret, st₁) ∧ direct = some (ret, st₂) ∧ st₁.app = st₂.app ∧
    (Staged → st₁.tempBuffer = st₂.sent)

theorem readElements_id_none {fuel : ℕ} {copy : CopyFn} {rest : List DefinedData}
    {st : ReadState α} {id : UInt16} {position size : UInt8}
    (h : nested env fuel id st.app = none) :
    readElements env.app (raise env fuel) copy (.id id position size :: rest) st = none := by
  have hframe := raise_readDataByIdent_frameSent env fuel id ⟨st.app, [], []⟩ st.sent
  rw [Option.map_eq_none_iff.mp h] at hframe
  show (raise env fuel .readDataByIdent (.readDataByIdent id .udsCopy)
    ⟨st.app, [], st.sent⟩).bind _ = _
  rw [hframe]
  rfl

/-- **Where there is room the two loops agree.** -/
theorem agree_readElements (h : AsAsked env) (fuel : ℕ) {Staged : Prop}
    {elements : List DefinedData}
    (hstaged : Staged → ∀ id position size, .id id position size ∉ elements) {used : ℕ}
    (hused : used ≤ tempBufferSize) (hfits : Fits used elements) {st₁ st₂ : ReadState α}
    (happ : st₁.app = st₂.app)
    (h₁ : st₁.tempBuffer.length ≤ used) (h₂ : st₂.sent.length ≤ used)
    (hsame : Staged → st₁.tempBuffer = st₂.sent) :
    Agree Staged (readElements env.app (raise env fuel) .udsCopy elements st₁)
      (readElements env.app (raise env fuel) .request elements st₂) := by
  induction elements generalizing used st₁ st₂ with
  | nil => exact .inr ⟨.ok, st₁, st₂, rfl, rfl, happ, hsame⟩
  | cons d rest ih =>
    have hrest : Staged → ∀ id position size, .id id position size ∉ rest :=
      fun hs id position size hid => hstaged hs id position size (List.mem_cons_of_mem _ hid)
    cases d with
    | memory memAddr memSize =>
      obtain ⟨hroom, hfits⟩ := hfits
      obtain ⟨res, hlen, hres⟩ := h.memory fuel memAddr memSize st₁.app
      have hrun₁ := hres .udsCopy st₁ rfl (show st₁.tempBuffer.length + memSize ≤ _ by omega)
      have hrun₂ := hres .request st₂ happ.symm (show st₂.sent.length + memSize ≤ _ by omega)
      rw [readElements, bind_apply, hrun₁, readElements, bind_apply, hrun₂]
      cases res with
      | none => exact .inl ⟨rfl, rfl⟩
      | some p =>
        obtain ⟨ret, bytes, app⟩ := p
        have hlen : bytes.length ≤ memSize := hlen _ rfl
        have hboth : Staged → st₁.tempBuffer ++ bytes = st₂.sent ++ bytes := fun hs => by
          rw [hsame hs]
        simp only [Option.map_some, Option.bind_some]
        split
        · exact .inr ⟨ret, _, _, rfl, rfl, rfl, hboth⟩
        · refine ih hrest hroom hfits rfl ?_ ?_ hboth
          · rw [ReadState.took, List.length_append]
            omega
          · rw [ReadState.took, List.length_append]
            omega
    | id id position size =>
      have hnot : ¬ Staged := fun hs => hstaged hs id position size List.mem_cons_self
      cases hnested : nested env fuel id st₁.app with
      | none =>
        rw [readElements_id_none hnested, readElements_id_none (happ ▸ hnested)]
        exact .inl ⟨rfl, rfl⟩
      | some p =>
        obtain ⟨ret, data, app⟩ := p
        have hdata := length_nested hnested
        rw [readElements_id hnested, readElements_id (happ ▸ hnested)]
        -- refused by the source, too short, or with nothing to copy
        split
        · exact .inr ⟨ret, _, _, rfl, rfl, rfl, fun hs => absurd hs hnot⟩
        · by_cases hlen : data.length < position.toNat + size.toNat
          · simp only [if_pos hlen]
            exact .inr ⟨_, _, _, rfl, rfl, rfl, fun hs => absurd hs hnot⟩
          · obtain ⟨rfl, htail⟩ := hfits.resolve_left (by omega)
            have htook₁ : runCopy env.app .udsCopy [] ⟨app, data, st₁.sent⟩ =
                some (0, ⟨app, data ++ [], st₁.sent⟩) := runCopy_took h.room .udsCopy hdata
            have htook₂ : runCopy env.app .request [] ⟨app, data, st₂.sent⟩ =
                some (0, ⟨app, data, st₂.sent ++ []⟩) :=
              runCopy_took h.room .request (h₂.trans hused)
            have hnil : (data.drop position.toNat).take (0 : UInt8).toNat = [] := rfl
            simp only [if_neg hlen, hnil]
            rw [bind_apply, bind_apply, htook₁, htook₂]
            exact ih hrest le_rfl htail rfl (by simpa using hdata)
              (by simpa using h₂.trans hused) fun hs => absurd hs hnot

/-- **An identifier that leaves the buffer alone** is handled inside another
one as if read by the service. -/
theorem nestedAsDirect_of_undisturbed (h : Inv I s) {A : Application F α}
    (hasked : AsAsked (Env.ofState I A s)) {y : UInt16} (hserved : ServedByDefinition I s y)
    {elements : List DefinedData} (hdef : definition s y = some elements)
    (hund : Undisturbed elements) (fuel : ℕ) (position size : UInt8) (app : α) :
    NestedAsDirect (Env.ofState I A s) fuel y position size app := by
  cases fuel with
  | zero => rfl
  | succ fuel =>
    rw [NestedAsDirect, nested, direct, readDataByIdent, raise_definition h hserved hdef,
      raise_definition h hserved hdef]
    obtain ⟨hfits, hund⟩ := hund
    have hagree : Agree (∀ id position size, .id id position size ∉ elements)
        (readElements A (raise (Env.ofState I A s) fuel) .udsCopy elements ⟨app, [], []⟩)
        (readElements A (raise (Env.ofState I A s) fuel) .request elements ⟨app, [], []⟩) :=
      agree_readElements hasked fuel (fun hs => hs) (Nat.zero_le _) hfits rfl (Nat.zero_le _)
        (Nat.zero_le _) fun _ => rfl
    rcases hagree with ⟨h₁, h₂⟩ | ⟨ret, st₁, st₂, h₁, h₂, happ, hsame⟩
    · rw [h₁, h₂]
      rfl
    · rw [h₁, h₂]
      simp only [Option.map_some, Option.some.injEq]
      rcases hund with hmemory | ⟨id, position', size', hmem, hlong⟩
      · rw [happ, hsame hmemory]
      · -- the read is refused, and what was copied does not count
        have hret : ret ≠ .positiveResponse := by
          rintro rfl
          have := room_of_readElements h₁ id position' size' hmem
          omega
        simp only [contribution, if_pos hret, happ]

/-! ## An application that shows the difference

Every source fills the buffer with ones, and every memory range is zeros:
so many as were asked for, but one more than the buffer has room for at
most. -/

/-- The sources of the elements. -/
def sourcesOf : List DefinedData → List UInt16
  | [] => []
  | .memory _ _ :: rest => sourcesOf rest
  | .id id _ _ :: rest => id :: sourcesOf rest

/-- The application. -/
def filling : Application ℕ Unit where
  check := fun _ _ _ app _ => .done .ok true app
  action := fun _ _ query app _ =>
    match query with
    | .dataId _ =>
      .copy (List.replicate tempBufferSize 1) fun status => .done (.ofByte status) true app
    | .memory _ memSize =>
      .copy (List.replicate (min memSize (tempBufferSize + 1)) 0) fun status =>
        .done (if status ≠ 0 then .requestOutOfRange else .positiveResponse) true app
  memory := fun _ _ => 0
  memoryMap := ⟨0, true, none, none⟩
  copy := fun _ _ => 0

/-- A static registration of a source. -/
def staticSource (id : UInt16) : Reg ℕ where
  inst := some 0
  data := .dataIdentifier 0 id ⟨some (.app 4), some (.app 5)⟩ .null .null

/-- The instance the application runs on. -/
def sourceInstance (elements : List DefinedData) : Instance ℕ where
  ptr := 0
  statics :=
    { inst := some 0, data := .dynamicallyDefineDataIds ⟨some (.app 0), some (.app 1)⟩ } ::
    { inst := some 0, data := .memory ⟨some (.app 2), some (.app 3)⟩ .null } ::
    (sourcesOf elements).map staticSource
  handler := .static 0
  statics_application := by
    simp [IsApplication, staticSource, actorIsApplication]

/-- What a read walks over there. -/
abbrev sourceEnv (elements : List DefinedData) (s : State ℕ) : Env ℕ Unit :=
  Env.ofState (sourceInstance elements) filling s

section Difference

variable {elements : List DefinedData} (s : State ℕ)

/-- Reading memory there. -/
theorem raise_fillingMemory (fuel memAddr memSize : ℕ) (copy : CopyFn) :
    raise (sourceEnv elements s) (fuel + 1) .readMemByAddr (.readMemByAddr memAddr memSize copy) =
      runCopy filling copy (List.replicate (min memSize (tempBufferSize + 1)) 0) >>= fun status =>
        pure (if status ≠ 0 then .requestOutOfRange else .positiveResponse) := by
  set env := sourceEnv elements s with henv
  have hvisit : udsCheckAndActOnEvent (behaviourWith env (raise env fuel))
      ⟨env.inst, { inst := some 0, data := .memory ⟨some (.app 2), some (.app 3)⟩ .null },
        .readMemByAddr, .readMemByAddr memAddr memSize copy⟩ readMemByAddrHandler false true =
      runCopy filling copy (List.replicate (min memSize (tempBufferSize + 1)) 0) >>= fun status =>
        pure (if status ≠ 0 then (.requestOutOfRange, false, true) else (.ok, true, true)) := by
    funext st
    show ((runCopy filling copy _ ⟨(), st.tempBuffer, st.sent⟩).bind _).bind _ = _
    rw [Option.bind_assoc]
    refine congrArg _ (funext fun p => ?_)
    by_cases hstatus : p.1 = 0
    · simp [hstatus, runProg, setApp, bind_apply, pure_apply]
    · simp [hstatus, runProg, setApp, bind_apply, pure_apply]
  have hstatics : env.statics =
      [{ inst := some 0, data := .dynamicallyDefineDataIds ⟨some (.app 0), some (.app 1)⟩ }] ++
        { inst := some 0, data := .memory ⟨some (.app 2), some (.app 3)⟩ .null } ::
        (sourcesOf elements).map staticSource := rfl
  rw [raise_readMemByAddr, hstatics]
  refine (udsHandleEvent_of_static_stops (fun q hq => skips_of_not_memory ?_) hvisit
    fun status => ?_).trans ?_
  · rw [List.mem_singleton.mp hq]
    decide
  · split <;> simp
  · refine congrArg _ (funext fun status => ?_)
    split <;> rfl

/-- The first registration that serves a source. -/
theorem exists_split_source {id : UInt16} (hid : id ∈ sourcesOf elements) :
    ∃ pre post, (sourceInstance elements).statics = pre ++ staticSource id :: post ∧
      ∀ q ∈ pre, q.dataId? ≠ some id := by
  have hmem : staticSource id ∈ (sourceInstance elements).statics :=
    List.mem_cons_of_mem _ (List.mem_cons_of_mem _ (List.mem_map_of_mem hid))
  cases hfind : (sourceInstance elements).statics.find? (fun q => q.dataId? = some id) with
  | none =>
    have hnone := List.find?_eq_none.mp hfind _ hmem
    exact absurd rfl (by simpa using hnone : ¬ (staticSource id).dataId? = some id)
  | some reg =>
    obtain ⟨hx, pre, post, hsplit, hpre⟩ := List.find?_eq_some_iff_append.mp hfind
    -- a source may be named by several elements, with the same registration each time
    have hreg : reg = staticSource id := by
      have hmem : reg ∈ (sourceInstance elements).statics := List.mem_of_find?_eq_some hfind
      have hx : reg.dataId? = some id := by simpa using hx
      rcases List.mem_cons.mp hmem with rfl | hmem
      · cases hx
      · rcases List.mem_cons.mp hmem with rfl | hmem
        · cases hx
        · obtain ⟨id', -, rfl⟩ := List.mem_map.mp hmem
          cases hx
          rfl
    exact ⟨pre, post, hreg ▸ hsplit, fun q hq => by simpa using hpre q hq⟩

/-- Reading a source there. -/
theorem raise_source (fuel : ℕ) {id : UInt16} (hid : id ∈ sourcesOf elements) (copy : CopyFn) :
    raise (sourceEnv elements s) (fuel + 1) .readDataByIdent (.readDataByIdent id copy) =
      runCopy filling copy (List.replicate tempBufferSize 1) >>= fun status =>
        pure (.ofByte status) := by
  set env := sourceEnv elements s with henv
  have hvisit : udsCheckAndActOnEvent (behaviourWith env (raise env fuel))
      ⟨env.inst, staticSource id, .readDataByIdent, .readDataByIdent id copy⟩
        readDataByIdentHandler false true =
      runCopy filling copy (List.replicate tempBufferSize 1) >>= fun status =>
        pure (if UDSErr.ofByte status ≠ .ok then (.ofByte status, false, true)
          else (.ok, true, true)) := by
    have hcheck : (behaviourWith env (raise env fuel)).check .udsCheckReadWithDataId
        ⟨env.inst, staticSource id, .readDataByIdent, .readDataByIdent id copy⟩ false =
        pure (.ok, true) := by
      simp only [behaviourWith, udsCheckReadWithDataId]
      rw [if_neg (by simp [staticSource, Registration.dataId?])]
      rfl
    have hact : (behaviourWith env (raise env fuel)).action (.app 5)
        ⟨env.inst, staticSource id, .readDataByIdent, .readDataByIdent id copy⟩ true =
        runCopy filling copy (List.replicate tempBufferSize 1) >>= fun status =>
          pure (.ofByte status, true) := rfl
    have hget : readDataByIdentHandler.getCheck (staticSource id) =
        some .udsCheckReadWithDataId := rfl
    have hgetAction : readDataByIdentHandler.getAction (staticSource id) = some (.app 5) := rfl
    simp only [udsCheckAndActOnEvent, hget, hcheck, hgetAction, pure_bind, hact, bind_assoc]
    show (runCopy filling copy (List.replicate tempBufferSize 1) >>= fun status => _) = _
    refine congrArg _ (funext fun status => ?_)
    split <;> rfl
  obtain ⟨pre, post, hsplit, hpre⟩ := exists_split_source hid
  have hstatics : env.statics = pre ++ staticSource id :: post := hsplit
  rw [raise_readDataByIdent, hstatics,
    udsHandleEvent_of_static_stops (fun q hq => skips_of_dataId (hpre q hq)) hvisit
      fun status => by split <;> simp_all]
  refine congrArg _ (funext fun status => ?_)
  by_cases hstatus : status = 0
  · rw [hstatus]
    rfl
  · simp [hstatus]

theorem nested_source (fuel : ℕ) {id : UInt16} (hid : id ∈ sourcesOf elements) :
    nested (sourceEnv elements s) (fuel + 1) id () =
      some (.positiveResponse, List.replicate tempBufferSize 1, ()) := by
  have hfits : runCopy filling .udsCopy (List.replicate tempBufferSize 1) ⟨(), [], []⟩ =
      some (0, ⟨(), List.replicate tempBufferSize 1, []⟩) := by
    simp [runCopy]
  rw [nested, raise_source s fuel hid, bind_apply, hfits]
  rfl

/-- **It is as asked**, with one handler of its own for memory. -/
theorem asAsked_filling : AsAsked (sourceEnv elements s) := by
  refine ⟨fun _ _ _ => rfl, fun fuel memAddr memSize app => ?_⟩
  cases fuel with
  | zero => exact ⟨none, by simp, fun _ _ _ _ => rfl⟩
  | succ fuel =>
    refine ⟨some (.positiveResponse, List.replicate (min memSize (tempBufferSize + 1)) 0, ()),
      by simp, fun copy st _ hfits => ?_⟩
    have hlen : (st.taken copy).length +
        (List.replicate (min memSize (tempBufferSize + 1)) (0 : UInt8)).length ≤
          tempBufferSize := by
      rw [List.length_replicate]
      omega
    have htook := runCopy_took (A := filling) (fun _ _ _ => rfl) copy hlen
    rw [raise_fillingMemory, bind_apply, htook, Option.bind_some, if_neg (fun hne => hne rfl),
      pure_apply]
    rfl

variable {rest : List DefinedData} (fuel : ℕ)

/-- The loop at a memory range. -/
theorem readElements_fillingMemory {memAddr memSize : ℕ} (copy : CopyFn) (st : ReadState Unit) :
    readElements filling (raise (sourceEnv elements s) (fuel + 1)) copy
        (.memory memAddr memSize :: rest) st =
      (runCopy filling copy (List.replicate (min memSize (tempBufferSize + 1)) 0) >>= fun status =>
        if status ≠ 0 then pure .requestOutOfRange
        else readElements filling (raise (sourceEnv elements s) (fuel + 1)) copy rest :
          ReadM Unit UDSErr) st := by
  rw [readElements, raise_fillingMemory, bind_assoc]
  refine congrFun (congrArg _ (funext fun status => ?_)) st
  rw [pure_bind]
  by_cases hstatus : status = 0
  · rw [hstatus]
    rfl
  · simp only [ne_eq, hstatus, not_false_eq_true, if_true]
    exact if_pos (by decide)

/-- The loop at an element from a source. -/
theorem readElements_fillingId {id : UInt16} (hid : id ∈ sourcesOf elements)
    {position size : UInt8} (copy : CopyFn) (buffer sent : List UInt8) :
    readElements filling (raise (sourceEnv elements s) (fuel + 1)) copy
        (.id id position size :: rest) ⟨(), buffer, sent⟩ =
      (if tempBufferSize < position.toNat + size.toNat then pure .generalReject
      else runCopy filling copy (List.replicate size.toNat 1) >>= fun status =>
        if status ≠ 0 then pure (.ofByte status)
        else readElements filling (raise (sourceEnv elements s) (fuel + 1)) copy rest :
          ReadM Unit UDSErr) ⟨(), List.replicate tempBufferSize 1, sent⟩ := by
  let st : ReadState Unit := ⟨(), buffer, sent⟩
  have hnested : nested (sourceEnv elements s) (fuel + 1) id st.app = _ :=
    nested_source s fuel hid
  refine (readElements_id hnested).trans ?_
  rw [List.length_replicate]
  refine congrFun ((if_neg (fun hne => hne rfl)).trans ?_) _
  split
  · rfl
  · next hlong =>
    have hslice : ((List.replicate tempBufferSize (1 : UInt8)).drop position.toNat).take
        size.toNat = List.replicate size.toNat 1 := by
      rw [List.drop_replicate, List.take_replicate]
      congr 1
      omega
    rw [hslice]
    rfl

theorem neverRead_memory_cons {memAddr memSize : ℕ} :
    NeverRead (.memory memAddr memSize :: rest) ↔ NeverRead rest := by
  simp [NeverRead]

theorem not_neverRead_of_cons {id : UInt16} {position size : UInt8}
    (h : ¬ NeverRead (.id id position size :: rest)) :
    position.toNat + size.toNat ≤ tempBufferSize ∧ ¬ NeverRead rest := by
  refine ⟨not_lt.mp fun hlong => h ⟨id, position, size, List.mem_cons_self, hlong⟩, ?_⟩
  rintro ⟨id', position', size', hmem, hlong⟩
  exact h ⟨id', position', size', List.mem_cons_of_mem _ hmem, hlong⟩

/-- Where there is room, and the identifier is read, no byte of a source is
wanted. -/
theorem size_eq_zero_of_fits {used : ℕ} (hfits : Fits used rest) (hread : ¬ NeverRead rest) :
    ∀ id position size, .id id position size ∈ rest → size = 0 := by
  induction rest generalizing used with
  | nil => intro id position size hmem; cases hmem
  | cons d rest ih =>
    intro id position size hmem
    cases d with
    | memory memAddr memSize =>
      exact ih hfits.2 (mt neverRead_memory_cons.mpr hread) id position size
        (List.mem_of_ne_of_mem (by simp) hmem)
    | id id' position' size' =>
      obtain ⟨hshort, hread⟩ := not_neverRead_of_cons hread
      obtain ⟨hzero, hfits⟩ := hfits.resolve_left (not_lt.mpr hshort)
      rcases List.mem_cons.mp hmem with heq | hmem
      · cases heq
        exact hzero
      · exact ih hfits hread id position size hmem

/-- A block the buffer has no room for. -/
theorem runCopy_udsCopy_refused {A : Application F α} {src : List UInt8} {st : ReadState α}
    (h : tempBufferSize < st.tempBuffer.length + src.length)
    (hlen : st.tempBuffer.length ≤ tempBufferSize) :
    runCopy A .udsCopy src st = some (0x14, st) :=
  if_neg (by omega)

/-- **How the loop ends inside another identifier**, from what the buffer
holds: a block there is no room for shows in the answer; otherwise the last
source stays in the buffer. -/
def EndsFilling (buffer : List UInt8) (rest : List DefinedData)
    (run : Option (UDSErr × ReadState Unit)) : Prop :=
  ∃ ret st', run = some (ret, st') ∧
    (¬ Fits buffer.length rest → ret ≠ .ok ∧ ret ≠ .generalReject) ∧
    (Fits buffer.length rest → ¬ NeverRead rest → ret = .ok ∧
      ((buffer = List.replicate tempBufferSize 1 ∨
          ∃ id position size, .id id position size ∈ rest) →
        st'.tempBuffer = List.replicate tempBufferSize 1))

/-- The loop inside another identifier, from a buffer. -/
def fillingLoop (elements rest : List DefinedData) (buffer sent : List UInt8) :
    Option (UDSErr × ReadState Unit) :=
  readElements filling (raise (sourceEnv elements s) (fuel + 1)) .udsCopy rest ⟨(), buffer, sent⟩

/-- A memory range is appended where there is room for it. -/
theorem endsFilling_memory {memAddr memSize : ℕ} {buffer sent : List UInt8}
    (hlen : buffer.length ≤ tempBufferSize)
    (ih : ∀ buffer : List UInt8, buffer.length ≤ tempBufferSize →
      EndsFilling buffer rest (fillingLoop s fuel elements rest buffer sent)) :
    EndsFilling buffer (.memory memAddr memSize :: rest)
      (fillingLoop s fuel elements (.memory memAddr memSize :: rest) buffer sent) := by
  rw [fillingLoop, readElements_fillingMemory, bind_apply]
  by_cases hroom : buffer.length + memSize ≤ tempBufferSize
  · have hmin : min memSize (tempBufferSize + 1) = memSize := by omega
    have htook : runCopy filling .udsCopy (List.replicate memSize 0) ⟨(), buffer, sent⟩ =
        some (0, ⟨(), buffer ++ List.replicate memSize 0, sent⟩) :=
      runCopy_took (fun _ _ _ => rfl) .udsCopy (by
        rw [List.length_replicate]
        exact hroom)
    have happend : (buffer ++ List.replicate memSize 0).length = buffer.length + memSize := by
      rw [List.length_append, List.length_replicate]
    rw [hmin, htook]
    obtain ⟨ret, st', hrun, hover, hone⟩ := ih _ (happend ▸ hroom)
    rw [happend] at hover hone
    refine ⟨ret, st', hrun, fun hfits => hover fun hrest => hfits ⟨hroom, hrest⟩,
      fun hfits hread => ?_⟩
    obtain ⟨hret, hbuffer⟩ := hone hfits.2 (mt neverRead_memory_cons.mpr hread)
    refine ⟨hret, fun hstart => hbuffer ?_⟩
    rcases hstart with rfl | ⟨id, position, size, hmem⟩
    · obtain rfl : memSize = 0 := by
        rw [List.length_replicate] at hroom
        omega
      exact .inl (by simp)
    · exact .inr ⟨id, position, size, List.mem_of_ne_of_mem (by simp) hmem⟩
  · have hrefused : runCopy filling .udsCopy
        (List.replicate (min memSize (tempBufferSize + 1)) 0) ⟨(), buffer, sent⟩ =
        some (0x14, ⟨(), buffer, sent⟩) :=
      runCopy_udsCopy_refused (by
        rw [List.length_replicate]
        show _ < buffer.length + _
        omega) hlen
    rw [hrefused]
    exact ⟨.requestOutOfRange, _, rfl, fun _ => by decide, fun hfits => absurd hfits.1 hroom⟩

/-- A source fills the buffer, so there is room for a slice of no bytes
only. -/
theorem endsFilling_id {id : UInt16} (hid : id ∈ sourcesOf elements) {position size : UInt8}
    {buffer sent : List UInt8}
    (ih : ∀ buffer : List UInt8, buffer.length ≤ tempBufferSize →
      EndsFilling buffer rest (fillingLoop s fuel elements rest buffer sent)) :
    EndsFilling buffer (.id id position size :: rest)
      (fillingLoop s fuel elements (.id id position size :: rest) buffer sent) := by
  rw [fillingLoop, readElements_fillingId s fuel hid]
  by_cases hlong : tempBufferSize < position.toNat + size.toNat
  · rw [if_pos hlong]
    exact ⟨.generalReject, _, rfl, fun hfits => absurd (.inl hlong) hfits,
      fun _ hread => absurd ⟨id, position, size, List.mem_cons_self, hlong⟩ hread⟩
  · rw [if_neg hlong, bind_apply]
    by_cases hsize : size = 0
    · subst hsize
      have hfull : (List.replicate tempBufferSize (1 : UInt8)).length = tempBufferSize :=
        List.length_replicate
      have htook : runCopy filling .udsCopy [] ⟨(), List.replicate tempBufferSize 1, sent⟩ =
          some (0, ⟨(), List.replicate tempBufferSize 1 ++ [], sent⟩) :=
        runCopy_took (fun _ _ _ => rfl) .udsCopy (by
          rw [ReadState.taken, hfull]
          exact le_rfl)
      have hnil : List.replicate (0 : UInt8).toNat (1 : UInt8) = [] := rfl
      rw [hnil, htook, List.append_nil]
      obtain ⟨ret, st', hrun, hover, hone⟩ := ih _ hfull.le
      rw [hfull] at hover hone
      refine ⟨ret, st', hrun, fun hfits => hover fun hrest => hfits (.inr ⟨rfl, hrest⟩),
        fun hfits hread => ?_⟩
      obtain ⟨hret, hbuffer⟩ := hone (hfits.resolve_left hlong).2 (not_neverRead_of_cons hread).2
      exact ⟨hret, fun _ => hbuffer (.inl rfl)⟩
    · have hpos : 0 < size.toNat :=
        Nat.pos_of_ne_zero fun h0 => hsize (UInt8.toNat_inj.mp h0)
      have hrefused : runCopy filling .udsCopy (List.replicate size.toNat 1)
          ⟨(), List.replicate tempBufferSize 1, sent⟩ =
          some (0x14, ⟨(), List.replicate tempBufferSize 1, sent⟩) :=
        runCopy_udsCopy_refused (by
          rw [List.length_replicate, List.length_replicate]
          omega) List.length_replicate.le
      rw [hrefused]
      exact ⟨.ofByte 0x14, _, rfl, fun _ => by decide,
        fun hfits => absurd (hfits.resolve_left hlong).1 hsize⟩

theorem endsFilling (hsources : ∀ id ∈ sourcesOf rest, id ∈ sourcesOf elements)
    {buffer : List UInt8} (hlen : buffer.length ≤ tempBufferSize) (sent : List UInt8) :
    EndsFilling buffer rest (fillingLoop s fuel elements rest buffer sent) := by
  induction rest generalizing buffer with
  | nil =>
    refine ⟨.ok, _, rfl, fun hfits => absurd trivial hfits, fun _ _ => ⟨rfl, ?_⟩⟩
    rintro (hbuffer | ⟨id, position, size, hmem⟩)
    · exact hbuffer
    · cases hmem
  | cons d rest ih =>
    cases d with
    | memory memAddr memSize =>
      exact endsFilling_memory s fuel hlen fun _ hlen => ih hsources hlen
    | id id position size =>
      exact endsFilling_id s fuel (hsources id List.mem_cons_self) fun _ hlen =>
        ih (fun q hq => hsources q (List.mem_cons_of_mem _ hq)) hlen

/-- **By the service**: there is room for all, and the memory is zeros. -/
theorem exists_direct_loop (hsources : ∀ id ∈ sourcesOf rest, id ∈ sourcesOf elements)
    (buffer sent : List UInt8) :
    ∃ ret st', readElements filling (raise (sourceEnv elements s) (fuel + 1)) .request rest
        ⟨(), buffer, sent⟩ = some (ret, st') ∧
      (ret = .ok ∨ ret = .generalReject) ∧ (¬ NeverRead rest → ret = .ok) ∧
      ((∀ id position size, .id id position size ∈ rest → size = 0) → (∀ b ∈ sent, b = 0) →
        ∀ b ∈ st'.sent, b = 0) := by
  induction rest generalizing buffer sent with
  | nil => exact ⟨.ok, _, rfl, .inl rfl, fun _ => rfl, fun _ hsent => hsent⟩
  | cons d rest ih =>
    cases d with
    | memory memAddr memSize =>
      rw [readElements_fillingMemory, bind_apply, runCopy_request _ rfl]
      obtain ⟨ret, st', hrun, hret, hok, hzero⟩ := ih hsources buffer
        (sent ++ List.replicate (min memSize (tempBufferSize + 1)) 0)
      refine ⟨ret, st', hrun, hret, fun hread => hok (mt neverRead_memory_cons.mpr hread),
        fun hsizes hsent => hzero (fun id position size hmem =>
          hsizes id position size (List.mem_cons_of_mem _ hmem)) fun b hb => ?_⟩
      rcases List.mem_append.mp hb with hb | hb
      · exact hsent b hb
      · exact List.eq_of_mem_replicate hb
    | id id position size =>
      rw [readElements_fillingId s fuel (hsources id List.mem_cons_self)]
      by_cases hlong : tempBufferSize < position.toNat + size.toNat
      · rw [if_pos hlong]
        exact ⟨.generalReject, _, rfl, .inr rfl,
          fun hread => absurd ⟨id, position, size, List.mem_cons_self, hlong⟩ hread,
          fun _ hsent => hsent⟩
      · rw [if_neg hlong, bind_apply, runCopy_request _ rfl]
        obtain ⟨ret, st', hrun, hret, hok, hzero⟩ := ih
          (fun q hq => hsources q (List.mem_cons_of_mem _ hq))
          (List.replicate tempBufferSize 1) (sent ++ List.replicate size.toNat 1)
        refine ⟨ret, st', hrun, hret, fun hread => hok (not_neverRead_of_cons hread).2,
          fun hsizes hsent => hzero (fun id position size hmem =>
            hsizes id position size (List.mem_cons_of_mem _ hmem)) fun b hb => ?_⟩
        obtain rfl := hsizes id position size List.mem_cons_self
        exact hsent b (by simpa using hb)

end Difference

/-- Every list of elements is the definition of an identifier in some
state. -/
theorem exists_defineRun (I : Instance ℕ) (hp : I.handler ∈ staticHandlers I) (y : UInt16)
    (elements : List DefinedData) :
    ∃ s, (machine I).Reachable s ∧ DefineRun I (elements.map fun d => (y, d)) s ∧
      (elements = [] → s = setUp) := by
  have hinit : (machine I).init setUp := ⟨rfl, rfl, rfl⟩
  induction elements using List.reverseRecOn with
  | nil => exact ⟨setUp, .init hinit, .init hinit, fun _ => rfl⟩
  | append_singleton elements d ih =>
    obtain ⟨s, hreach, hrun, hempty⟩ := ih
    have haccepted : ∃ s', udsActionDefaultDynamicallyDefineDataIds I allSucceed
        (defineRequest y d) s = .ok (.ok, s') := by
      rw [run_defineRequest]
      cases hfind : udsFindExistingRegistrationByDataId I y s with
      | some r => exact ⟨_, define_existing_ok hrun.inv hfind rfl⟩
      | none =>
        have hnil : elements = [] := by
          have hdef := hrun.inv.definition_of_new hfind
          rw [hrun.definition_eq, elementsFor_map] at hdef
          split at hdef
          · assumption
          · cases hdef
        obtain rfl := hempty hnil
        exact ⟨_, define_setUp I y d⟩
    obtain ⟨s', hs'⟩ := haccepted
    refine ⟨s', .step (e := .request (defineRequest y d) allSucceed) hreach
      ⟨.inl hp, .ok, hs'⟩, ?_, fun h => absurd h (by simp)⟩
    rw [List.map_append]
    exact hrun.accepted hs'

/-- On that instance an identifier that is not one of the sources is served
by its definition. -/
theorem servedByDefinition_sourceInstance {y : UInt16} {elements : List DefinedData}
    {data : List (UInt16 × DefinedData)} {s : State ℕ}
    (hrun : DefineRun (sourceInstance elements) data s) (hself : y ∉ sourcesOf elements) :
    ServedByDefinition (sourceInstance elements) s y := by
  refine ⟨fun reg hreg hy => ?_, fun r hr _ => hrun.isDefined r hr⟩
  rcases List.mem_cons.mp hreg with rfl | hreg
  · cases hy
  · rcases List.mem_cons.mp hreg with rfl | hreg
    · cases hy
    · obtain ⟨id, hid, rfl⟩ := List.mem_map.mp hreg
      cases hy
      exact hself hid

/-- **The application shows the difference** where the elements do not leave
the buffer alone: the nested read is refused for want of room, or has ones
where the direct one has zeros. -/
theorem exists_not_nestedAsDirect {y : UInt16} {elements : List DefinedData}
    (hself : y ∉ sourcesOf elements) (hund : ¬ Undisturbed elements) :
    ∃ s, (machine (sourceInstance elements)).Reachable s ∧
      ServedByDefinition (sourceInstance elements) s y ∧ definition s y = some elements ∧
      ∃ position size, ¬ NestedAsDirect (sourceEnv elements s) 2 y position size () := by
  have hne : elements ≠ [] := by
    rintro rfl
    exact hund ⟨trivial, .inl (by simp)⟩
  obtain ⟨s, hreach, hrun, -⟩ := exists_defineRun (sourceInstance elements)
    (List.mem_map.mpr ⟨_, List.mem_filter.mpr ⟨List.mem_cons_self, rfl⟩, rfl⟩) y elements
  have hdef : definition s y = some elements := by
    rw [hrun.definition_eq, elementsFor_map, if_neg hne]
  have hserved := servedByDefinition_sourceInstance hrun hself
  refine ⟨s, hreach, hserved, hdef, ?_⟩
  have hempty : ([] : List UInt8).length ≤ tempBufferSize := Nat.zero_le _
  obtain ⟨ret, st₁, hnestedRun, hover, hone⟩ := endsFilling s 0 (fun _ h => h) hempty []
  obtain ⟨ret', st₂, hdirectRun, hret', hok, hzero⟩ := exists_direct_loop s 0 (fun _ h => h) [] []
  have hnested : nested (sourceEnv elements s) 2 y () = some (ret, st₁.tempBuffer, st₁.app) := by
    rw [nested, raise_definition hrun.inv hserved hdef]
    exact congrArg (Option.map _) hnestedRun
  have hdirect : direct (sourceEnv elements s) 2 y () = some (ret', st₂.sent, st₂.app) := by
    rw [direct, readDataByIdent, raise_definition hrun.inv hserved hdef]
    exact congrArg (Option.map _) hdirectRun
  by_cases hfits : Fits 0 elements
  · -- no memory ranges only, and it is read: the buffer holds a source
    rw [Undisturbed, not_and, not_or] at hund
    obtain ⟨hid, hread⟩ := hund hfits
    push Not at hid
    obtain ⟨hret, hbuffer⟩ := hone hfits hread
    obtain ⟨rest, hones⟩ : ∃ rest, st₁.tempBuffer = 1 :: rest :=
      ⟨_, (hbuffer (.inr hid)).trans List.replicate_succ⟩
    have hzeros := hzero (size_eq_zero_of_fits hfits hread) (by simp)
    refine ⟨0, 1, fun hsame => ?_⟩
    rw [NestedAsDirect, hnested, hdirect, hret, hok hread, hones] at hsame
    cases hsent : st₂.sent with
    | nil =>
      rw [hsent] at hsame
      simp [contribution] at hsame
    | cons b sent =>
      have hb : b = 0 := hzeros b (by rw [hsent]; exact List.mem_cons_self)
      rw [hsent, hb] at hsame
      simp [contribution] at hsame
  · obtain ⟨hne_ok, hne_reject⟩ := hover hfits
    refine ⟨0, 0, fun hsame => ?_⟩
    rw [NestedAsDirect, hnested, hdirect] at hsame
    rcases hret' with rfl | rfl
    · simp [contribution, hne_ok] at hsame
    · simp [contribution, hne_ok, hne_reject] at hsame

/-- **When a nested read is a direct read.** Whatever the instance, the
run, the application and the slice, an identifier contributes to another
one what a read by the service would contribute, the answer code included,
exactly if its elements leave the buffer alone. -/
theorem nestedAsDirect_iff (y : UInt16) (elements : List DefinedData)
    (hself : y ∉ sourcesOf elements) :
    (∀ (F α : Type) (I : Instance F) (A : Application F α) (s : State F),
      (machine I).Reachable s → ServedByDefinition I s y → definition s y = some elements →
      AsAsked (Env.ofState I A s) → ∀ (fuel : ℕ) (position size : UInt8) (app : α),
        NestedAsDirect (Env.ofState I A s) fuel y position size app) ↔ Undisturbed elements := by
  constructor
  · intro hall
    by_contra hund
    obtain ⟨s, hreach, hserved, hdef, position, size, hnot⟩ := exists_not_nestedAsDirect hself hund
    exact hnot (hall ℕ _ _ filling s hreach hserved hdef (asAsked_filling s) 2 position size _)
  · intro hund F α I A s hreach hserved hdef hasked fuel position size app
    exact nestedAsDirect_of_undisturbed (inv_of_reachable hreach) hasked hserved hdef hund fuel
      position size app

/-- Every data identifier reads as four bytes. -/
def fourBytes : Application ℕ Unit where
  check := fun _ _ _ app _ => .done .ok true app
  action := fun _ _ query app consume =>
    match query with
    | .dataId _ => .copy [1, 2, 3, 4] fun status => .done (.ofByte status) consume app
    | .memory _ _ => .done .ok consume app
  memory := fun _ a => UInt8.ofNat a
  memoryMap := ⟨0xFFFFFFFF, true, none, none⟩
  copy := fun _ _ => 0

/-- An identifier of one memory range. -/
def oneRange : State ℕ := defined twoSources 0xF200 (.memory 0x20 3) setUp

theorem nestedAsDirect_oneRange :
    definition oneRange 0xF200 = some [.memory 0x20 3] ∧
      (nested (Env.ofState twoSources fourBytes oneRange) 2 0xF200 ()).map (contribution 1 2) =
        some (.ok [0x21, 0x22], ()) ∧
      NestedAsDirect (Env.ofState twoSources fourBytes oneRange) 2 0xF200 1 2 () := by
  have hreach : (machine twoSources).Reachable oneRange :=
    reachable_setUp twoSources (by decide) 0xF200 (.memory 0x20 3)
  have hserved : ServedByDefinition twoSources oneRange 0xF200 := by
    refine ⟨by simp [twoSources, Registration.dataId?], fun r hr _ => ?_⟩
    rw [show oneRange.dynamicRegistrations = [newRegistration twoSources 0xF200 setUp] from rfl,
      List.mem_singleton] at hr
    rw [hr]
    rfl
  have hasked : AsAsked (Env.ofState twoSources fourBytes oneRange) :=
    asAsked_default defaultMemory_twoSources fun _ _ _ => rfl
  refine ⟨rfl, rfl, (nestedAsDirect_iff 0xF200 [.memory 0x20 3] (by decide)).mpr
    ⟨⟨by decide, trivial⟩, .inl (by simp)⟩ ℕ Unit twoSources fourBytes oneRange hreach hserved rfl
    hasked 2 1 2 ()⟩

/-- An identifier of the last two bytes of a source, and one of the first
two bytes of that. -/
def nestedSlices : State ℕ :=
  defined twoSources 0xF201 (.id 0xF200 0 2) (defined twoSources 0xF200 (.id 0xF100 2 2) setUp)

/-- The first two bytes of the source, not of the slice: the buffer holds
the source and the slice behind it. -/
theorem not_nestedAsDirect_slices :
    (machine twoSources).Reachable nestedSlices ∧
      definition nestedSlices 0xF201 = some [.id 0xF200 0 2] ∧
      definition nestedSlices 0xF200 = some [.id 0xF100 2 2] ∧
      (readDataByIdent (Env.ofState twoSources fourBytes nestedSlices) 3 0xF201 ⟨(), [], []⟩).map
        (fun p => (p.1, p.2.sent)) = some (.positiveResponse, [1, 2]) ∧
      direct (Env.ofState twoSources fourBytes nestedSlices) 2 0xF200 () =
        some (.positiveResponse, [3, 4], ()) ∧
      ¬ NestedAsDirect (Env.ofState twoSources fourBytes nestedSlices) 2 0xF200 0 2 () := by
  have hreach := reachable_setUp twoSources (by decide) 0xF200 (.id 0xF100 2 2)
  have hsecond := define_new_ok (I := twoSources) (c := allSucceed) (d := .id 0xF200 0 2)
    (inv_of_reachable hreach) (x := 0xF201) (by decide +kernel)
    ⟨rfl, rfl, rfl, by decide +kernel, rfl⟩ rfl
  refine ⟨.step (e := .request (defineRequest 0xF201 (.id 0xF200 0 2)) allSucceed) hreach
    ⟨.inl (by decide), .ok, hsecond⟩, rfl, rfl, rfl, rfl, fun hsame => ?_⟩
  have hnested : (nested (Env.ofState twoSources fourBytes nestedSlices) 2 0xF200 ()).map
      (contribution 0 2) = some (.ok [1, 2], ()) := rfl
  have hdirect : (direct (Env.ofState twoSources fourBytes nestedSlices) 2 0xF200 ()).map
      (contribution 0 2) = some (.ok [3, 4], ()) := rfl
  rw [NestedAsDirect, hnested, hdirect] at hsame
  cases hsame

end Read

end Uds

end Ardep
