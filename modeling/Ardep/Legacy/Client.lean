import Ardep.Legacy.Update
/-!
# The legacy firmware update — exactly once over a lossy channel

`UdsDfu.write_image` sends an image block by block and waits for each
response; a block whose response does not come is sent again, up to ten
times. A lost request and a lost response look the same to it. The server
tells them apart by the counter alone, and the argument is that of any
stop-and-wait protocol: before every attempt the server is one block
behind or has this one already (`Trying`), and the counters of the two
differ, also where they wrap around.

The channel of the transfer loses, and nothing else: one request is
outstanding at a time, a loss surfaces as the timeout the client catches,
and the flash image calls succeed. What `udsoncan` does with a response
is `response`, and the check of the echoed counter.
-/

namespace Ardep

namespace Legacy

/-! ## The client -/

/-- What becomes of one attempt. -/
inductive Fate where
  | delivered
  | requestLost
  | responseLost
  deriving DecidableEq, Repr

/-- What the client raises. -/
inductive Raised where
  | timeout
  | negativeResponse
  | unexpectedResponse
  deriving DecidableEq, Repr

/-- The server at the other end, and the calls it has made. -/
structure Link where
  server : State
  calls : List Call
  deriving DecidableEq, Repr

/-- A request that arrives, with the final responses to it. -/
def Link.deliver (l : Link) (data : List UInt8) : List (List UInt8) × Link :=
  match step l.server ⟨data, 0⟩ with
  | none => ([], l)
  | some (handled, s') => (handled.finals, ⟨s', l.calls ++ handled.calls⟩)

/-- What `udsoncan` makes of the responses to a request. -/
def response (sid : UInt8) : List (List UInt8) → Except Raised (List UInt8)
  | [] => .error .timeout
  | r :: _ =>
    if r.getD 0 0 = negativeResponse then .error .negativeResponse
    else if r.getD 0 0 ≠ sid + 0x40 then .error .unexpectedResponse
    else .ok r

/-- A request and the wait for its response. -/
def Link.request (l : Link) (data : List UInt8) : Except Raised (List UInt8) × Link :=
  (response (data.getD 0 0) (l.deliver data).1, (l.deliver data).2)

/-- The bytes of a TransferData request. -/
def blockRequest (block : UInt8) (payload : List UInt8) : List UInt8 :=
  transferData :: block :: payload

/-- `client.transfer_data`, with the fate of the attempt. -/
def Link.transfer (l : Link) (block : UInt8) (payload : List UInt8) :
    Fate → Except Raised Unit × Link
  | .requestLost => (.error .timeout, l)
  | .responseLost => (.error .timeout, (l.request (blockRequest block payload)).2)
  | .delivered =>
    match l.request (blockRequest block payload) with
    | (.error e, l') => (.error e, l')
    | (.ok r, l') => (if r.getD 1 0 = block then .ok () else .error .unexpectedResponse, l')

/-- **The attempts at one block**: `for i in range(0, 10)`, with `n` of
them left after this one. The last timeout is raised again. -/
def transferBlock (fates : ℕ → Fate) (block : UInt8) (payload : List UInt8) :
    ℕ → Link → Except Raised Unit × Link
  | 0, l => l.transfer block payload (fates 9)
  | n + 1, l =>
    match l.transfer block payload (fates (8 - n)) with
    | (.error .timeout, l') => transferBlock fates block payload n l'
    | r => r

/-- **The loop over the file**: `k` blocks have been sent, and `block` is
the counter of the next. -/
def transferBlocks (fates : ℕ → ℕ → Fate) :
    ℕ → UInt8 → List (List UInt8) → Link → Except Raised Unit × Link
  | _, _, [], l => (.ok (), l)
  | k, block, payload :: rest, l =>
    match transferBlock (fates k) block payload 9 l with
    | (.ok (), l') => transferBlocks fates (k + 1) (block + 1) rest l'
    | r => r

/-- The block length a RequestDownload response announces: a length format
and that many bytes. -/
def maxLength (response : List UInt8) : ℕ :=
  ((response.drop 2).take ((response.getD 1 0).toNat / 16)).foldl (fun n b => n * 256 + b.toNat) 0

/-- RequestDownload as `write_image` asks for it: address 0, size 0x1000,
four bytes each. -/
abbrev downloadRequest : List UInt8 :=
  [requestDownload, 0x00, 0x44, 0, 0, 0, 0, 0, 0, 0x10, 0]

/-- **`UdsDfu.write_image`.** -/
def writeImage (fates : ℕ → ℕ → Fate) (data : List UInt8) (l : Link) : Except Raised Unit × Link :=
  match l.request eraseRequest with
  | (.error e, l) => (.error e, l)
  | (.ok _, l) =>
    match l.request downloadRequest with
    | (.error e, l) => (.error e, l)
    | (.ok r, l) =>
      match transferBlocks fates 0 0 (slices (maxLength r - 2) data) l with
      | (.error e, l) => (.error e, l)
      | (.ok (), l) =>
        match l.request [requestTransferExit] with
        | (.error e, l) => (.error e, l)
        | (.ok _, l) => (.ok (), l)

/-! ## What the server has -/

/-- The payload of a call. -/
def Call.payload : Call → List UInt8
  | .flashImgBufferedWrite data _ _ => data
  | _ => []

/-- **The payloads passed to `flash_img_buffered_write`**, one after the
other. -/
def written (calls : List Call) : List UInt8 := (calls.map Call.payload).flatten

@[simp] theorem written_append (calls more : List Call) :
    written (calls ++ more) = written calls ++ written more := by
  simp [written]

/-- **The server has written `sofar`**, the last block under the counter
`b`. -/
structure At (b : UInt8) (sofar : List UInt8) (l : Link) : Prop where
  running : l.server.running = true
  opened : l.server.protocol.flashContextInitialized = true
  blockId : l.server.protocol.blockId = b
  written : written l.calls = sofar

/-- **Between two attempts**: the block is missing or it is there. -/
def Trying (b : UInt8) (sofar payload : List UInt8) (l : Link) : Prop :=
  At b sofar l ∨ At (b + 1) (sofar ++ payload) l

variable {l l' : Link} {b : UInt8} {sofar payload : List UInt8}

/-- **A request that is answered positively**, and after which the server
goes on. -/
theorem request_of_handle {data r : List UInt8} {h : Handled} (hrunning : l.server.running = true)
    (hlen : data.length ≤ maxReceive) (hhandle : l.server.handle ⟨data, 0⟩ = h)
    (hafter : h.after = .receive) (hfinals : h.finals = [r])
    (hr : response (data.getD 0 0) [r] = .ok r) :
    l.request data = (.ok r,
      ⟨⟨h.protocol, receive l.server.rxBuffer data, true⟩, l.calls ++ h.calls⟩) := by
  have hdeliver : l.deliver data = ([r],
      ⟨⟨h.protocol, receive l.server.rxBuffer data, true⟩, l.calls ++ h.calls⟩) := by
    unfold Link.deliver
    rw [step_of_receive hrunning hlen (by rw [hhandle]; exact hafter), hhandle]
    simp only [hfinals]
  unfold Link.request
  rw [hdeliver, hr]

theorem length_blockRequest (block : UInt8) (payload : List UInt8) :
    (blockRequest block payload).length = payload.length + 2 := rfl

theorem length_blockRequest_le (block : UInt8) (h : payload.length ≤ 509) :
    (blockRequest block payload).length ≤ maxReceive := by
  rw [length_blockRequest]
  unfold maxReceive
  omega

theorem handle_blockRequest (s : State) (block : UInt8) (payload : List UInt8) :
    s.handle ⟨blockRequest block payload, 0⟩ =
      handleTransferData s.protocol (blockRequest block payload)
        (blockRequest block payload).length 0 := handle_transferData rfl

/-- **The next block is written.** -/
theorem request_next (h : At b sofar l) (hlen : payload.length ≤ 509) :
    ∃ l', l.request (blockRequest (b + 1) payload) = (.ok (sendTransferDataResponse (b + 1)), l') ∧
      At (b + 1) (sofar ++ payload) l' := by
  have hnext : (blockRequest (b + 1) payload).getD 1 0 = l.server.protocol.blockId + 1 := by
    rw [h.blockId]
    rfl
  have hhandle := handle_blockRequest l.server (b + 1) payload
  rw [handleTransferData_next (by rw [length_blockRequest]; omega) hnext h.opened, payload_eq,
    if_neg (not_not.mpr rfl), List.nil_append, h.blockId] at hhandle
  refine ⟨_, request_of_handle h.running (length_blockRequest_le _ hlen) hhandle rfl
    (finals_single not_pending_transferData) rfl, rfl, h.opened, rfl, ?_⟩
  rw [written_append, h.written]
  simp [written, Call.payload, blockRequest]

/-- **A block that is there is answered and not written again.** -/
theorem request_same (h : At b sofar l) (hlen : payload.length ≤ 509) :
    ∃ l', l.request (blockRequest b payload) = (.ok (sendTransferDataResponse b), l') ∧
      At b sofar l' := by
  have hsame : (blockRequest b payload).getD 1 0 = l.server.protocol.blockId := by
    rw [h.blockId]
    rfl
  have hhandle := handle_blockRequest l.server b payload
  rw [handleTransferData_same (by rw [length_blockRequest]; omega) hsame, h.blockId] at hhandle
  refine ⟨_, request_of_handle h.running (length_blockRequest_le _ hlen) hhandle rfl
    (finals_single not_pending_transferData) rfl, rfl, h.opened, h.blockId, ?_⟩
  rw [written_append, h.written]
  simp [written, answer]

/-- Either way, the block is there afterwards. -/
theorem request_trying (h : Trying b sofar payload l) (hlen : payload.length ≤ 509) :
    ∃ l', l.request (blockRequest (b + 1) payload) = (.ok (sendTransferDataResponse (b + 1)), l') ∧
      At (b + 1) (sofar ++ payload) l' := by
  rcases h with h | h
  · exact request_next h hlen
  · exact request_same h hlen

/-! ## One block -/

/-- **An attempt that is delivered ends the block.** -/
theorem transfer_delivered (h : Trying b sofar payload l) (hlen : payload.length ≤ 509) :
    ∃ l', l.transfer (b + 1) payload .delivered = (.ok (), l') ∧
      At (b + 1) (sofar ++ payload) l' := by
  obtain ⟨l', hrequest, hat⟩ := request_trying h hlen
  have hecho : (sendTransferDataResponse (b + 1)).getD 1 0 = b + 1 := rfl
  refine ⟨l', ?_, hat⟩
  unfold Link.transfer
  simp only [hrequest, hecho, if_true]

/-- **One that is not leaves the server where it was or one block on.** -/
theorem transfer_lost (h : Trying b sofar payload l) (hlen : payload.length ≤ 509) {fate : Fate}
    (hfate : fate ≠ .delivered) :
    ∃ l', l.transfer (b + 1) payload fate = (.error .timeout, l') ∧ Trying b sofar payload l' := by
  cases fate with
  | delivered => exact absurd rfl hfate
  | requestLost => exact ⟨l, rfl, h⟩
  | responseLost =>
    obtain ⟨l', hrequest, hat⟩ := request_trying h hlen
    refine ⟨l', ?_, .inr hat⟩
    unfold Link.transfer
    rw [hrequest]

/-- **The attempts at one block**: it is there once, or the client gives up
because none of them got through. -/
theorem transferBlock_trying {fates : ℕ → Fate} (hlen : payload.length ≤ 509) :
    ∀ {n : ℕ} {l : Link}, n ≤ 9 → Trying b sofar payload l →
      (∃ i, 9 - n ≤ i ∧ i ≤ 9 ∧ fates i = .delivered) ∧
        (∃ l', transferBlock fates (b + 1) payload n l = (.ok (), l') ∧
          At (b + 1) (sofar ++ payload) l') ∨
      (∀ i, 9 - n ≤ i → i ≤ 9 → fates i ≠ .delivered) ∧
        (∃ l', transferBlock fates (b + 1) payload n l = (.error .timeout, l')) := by
  intro n
  induction n with
  | zero =>
    intro l _ h
    by_cases hfate : fates 9 = .delivered
    · refine .inl ⟨⟨9, by omega, by omega, hfate⟩, ?_⟩
      unfold transferBlock
      rw [hfate]
      exact transfer_delivered h hlen
    · refine .inr ⟨fun i h9 hi => ?_, ?_⟩
      · obtain rfl : i = 9 := by omega
        exact hfate
      · obtain ⟨l', htransfer, -⟩ := transfer_lost h hlen hfate
        exact ⟨l', htransfer⟩
  | succ n ih =>
    intro l hn h
    unfold transferBlock
    by_cases hfate : fates (8 - n) = .delivered
    · refine .inl ⟨⟨8 - n, by omega, by omega, hfate⟩, ?_⟩
      obtain ⟨l', htransfer, hat⟩ := transfer_delivered h hlen
      rw [hfate, htransfer]
      exact ⟨l', rfl, hat⟩
    · obtain ⟨l', htransfer, htrying⟩ := transfer_lost h hlen hfate
      rw [htransfer]
      rcases ih (by omega) htrying with ⟨⟨i, hlow, hhigh, hi⟩, hok⟩ | ⟨hnone, herror⟩
      · exact .inl ⟨⟨i, by omega, hhigh, hi⟩, hok⟩
      · refine .inr ⟨fun i hlow hhigh => ?_, herror⟩
        by_cases heq : i = 8 - n
        · rw [heq]
          exact hfate
        · exact hnone i (by omega) hhigh

/-! ## The file -/

/-- **Every block gets through** in one of its ten attempts. -/
def GetThrough (fates : ℕ → ℕ → Fate) (k count : ℕ) : Prop :=
  ∀ j, k ≤ j → j < k + count → ∃ i, i ≤ 9 ∧ fates j i = .delivered

/-- **The blocks of a file**: they are there in order, or one of them did
not get through. -/
theorem transferBlocks_at {fates : ℕ → ℕ → Fate} :
    ∀ {blocks : List (List UInt8)} {k : ℕ} {b : UInt8} {sofar : List UInt8} {l : Link},
      (∀ payload ∈ blocks, payload.length ≤ 509) → At b sofar l →
      GetThrough fates k blocks.length ∧
        (∃ l' b', transferBlocks fates k (b + 1) blocks l = (.ok (), l') ∧
          At b' (sofar ++ blocks.flatten) l') ∨
      ¬ GetThrough fates k blocks.length ∧
        (∃ l', transferBlocks fates k (b + 1) blocks l = (.error .timeout, l')) := by
  intro blocks
  induction blocks with
  | nil =>
    intro k b sofar l _ h
    refine .inl ⟨fun j hlow hhigh => ?_, l, b, rfl, ?_⟩
    · rw [List.length_nil] at hhigh
      omega
    · rw [List.flatten_nil, List.append_nil]
      exact h
  | cons payload rest ih =>
    intro k b sofar l hlen h
    unfold transferBlocks
    have hpayload := hlen payload List.mem_cons_self
    have hrest := fun q hq => hlen q (List.mem_cons_of_mem payload hq)
    rcases transferBlock_trying hpayload (Nat.le_refl 9) (.inl h) with
      ⟨⟨i, -, hi, hdelivered⟩, l', hblock, hat⟩ | ⟨hnone, l', hblock⟩
    · rw [hblock]
      have hsplit : GetThrough fates k (payload :: rest).length ↔
          GetThrough fates (k + 1) rest.length := by
        unfold GetThrough
        rw [List.length_cons]
        constructor
        · intro hall j hlow hhigh
          exact hall j (by omega) (by omega)
        · intro hall j hlow hhigh
          by_cases hj : j = k
          · rw [hj]
            exact ⟨i, hi, hdelivered⟩
          · exact hall j (by omega) (by omega)
      rw [hsplit, List.flatten_cons, ← List.append_assoc]
      exact ih hrest hat
    · rw [hblock]
      refine .inr ⟨fun hall => ?_, l', rfl⟩
      obtain ⟨i, hi, hdelivered⟩ := hall k (by omega) (by rw [List.length_cons]; omega)
      exact hnone i (by omega) hi hdelivered

/-- The erase routine opens the context. -/
theorem request_erase (hrunning : l.server.running = true) :
    ∃ l', l.request eraseRequest = (.ok (sendRoutineControlResult eraseRoutine 0), l') ∧
      At 0xFF (written l.calls) l' := by
  have hhandle : l.server.handle ⟨eraseRequest, 0⟩ = handleEraseRoutine l.server.protocol 0 :=
    handle_eraseRequest
  have hfinals : (handleEraseRoutine l.server.protocol 0).finals =
      [sendRoutineControlResult eraseRoutine 0] := rfl
  refine ⟨_, request_of_handle hrunning (by decide) hhandle rfl hfinals rfl, rfl, rfl, rfl, ?_⟩
  rw [written_append]
  exact List.append_nil _

/-- The download request changes nothing, and announces blocks of 208. -/
theorem request_download (h : At b sofar l) :
    ∃ l', l.request downloadRequest = (.ok sendRequestDownloadResponse, l') ∧ At b sofar l' := by
  have hhandle : l.server.handle ⟨downloadRequest, 0⟩ =
      answer l.server.protocol sendRequestDownloadResponse := rfl
  refine ⟨_, request_of_handle h.running (by decide) hhandle rfl rfl rfl, rfl, h.opened,
    h.blockId, ?_⟩
  rw [written_append, h.written]
  exact List.append_nil _

theorem maxLength_download : maxLength sendRequestDownloadResponse - 2 = 208 := by decide

/-- The exit flushes and writes no payload. -/
theorem request_exit (h : At b sofar l) :
    ∃ l', l.request [requestTransferExit] = (.ok sendTransferExitPositiveResponse, l') ∧
      written l'.calls = sofar := by
  have hhandle : l.server.handle ⟨[requestTransferExit], 0⟩ =
      handleTransferExit l.server.protocol 0 := rfl
  unfold handleTransferExit at hhandle
  rw [if_neg (not_not.mpr h.opened)] at hhandle
  refine ⟨_, request_of_handle h.running (by decide) hhandle rfl rfl rfl, ?_⟩
  rw [written_append, h.written]
  exact List.append_nil _

/-- **`write_image` against a running server**: it completes with the file
written, or gives up with a timeout, and it completes exactly when every
block gets through. -/
theorem writeImage_running (fates : ℕ → ℕ → Fate) (data : List UInt8)
    (hrunning : l.server.running = true) :
    GetThrough fates 0 (sliceCount 208 data.length) ∧
        (∃ l', writeImage fates data l = (.ok (), l') ∧
          written l'.calls = written l.calls ++ data) ∨
      ¬ GetThrough fates 0 (sliceCount 208 data.length) ∧
        (∃ l', writeImage fates data l = (.error .timeout, l')) := by
  obtain ⟨l₁, herase, hat₁⟩ := request_erase hrunning
  obtain ⟨l₂, hdownload, hat₂⟩ := request_download hat₁
  have hlen : ∀ payload ∈ slices 208 data, payload.length ≤ 509 := by
    intro payload hmem
    exact Nat.le_trans (length_le_of_mem_slices hmem) (by omega)
  have hstart : (0xFF : UInt8) + 1 = 0 := by decide
  have hblocks := @transferBlocks_at fates _ 0 _ _ _ hlen hat₂
  rw [length_slices, flatten_slices (by omega), hstart] at hblocks
  unfold writeImage
  simp only [herase, hdownload, maxLength_download]
  rcases hblocks with ⟨hthrough, l₃, b', hok, hat₃⟩ | ⟨hnot, l₃, herror⟩
  · obtain ⟨l₄, hexit, hwritten⟩ := request_exit hat₃
    refine .inl ⟨hthrough, l₄, ?_, hwritten⟩
    simp only [hok, hexit]
  · refine .inr ⟨hnot, l₃, ?_⟩
    simp only [herror]

/-- A server that has stopped answers nothing. -/
theorem request_stopped {data : List UInt8} (hrunning : l.server.running = false) :
    l.request data = (.error .timeout, l) := by
  have hstep : step l.server ⟨data, 0⟩ = none := by
    unfold step
    rw [hrunning]
    simp
  unfold Link.request Link.deliver
  rw [hstep]
  rfl

/-- **Exactly once.** Whatever is lost on the way, where `write_image`
completes, the payloads written since its erase routine are the file. -/
theorem written_writeImage {fates : ℕ → ℕ → Fate} {data : List UInt8} {s : State}
    (h : writeImage fates data ⟨s, []⟩ = (.ok (), l')) : written l'.calls = data := by
  cases hrunning : s.running with
  | false =>
    unfold writeImage at h
    rw [request_stopped hrunning] at h
    exact absurd (Prod.mk.inj h).1 (by simp)
  | true =>
    rcases writeImage_running (l := ⟨s, []⟩) fates data hrunning with
      ⟨-, l'', hok, hwritten⟩ | ⟨-, l'', herror⟩
    · rw [hok] at h
      obtain ⟨-, rfl⟩ := Prod.mk.inj h
      exact hwritten
    · rw [herror] at h
      exact absurd (Prod.mk.inj h).1 (by simp)

/-- A pattern that loses the first request and the second response of
every block. -/
def thirdTime (_ : ℕ) : ℕ → Fate
  | 0 => .requestLost
  | 1 => .responseLost
  | _ => .delivered

/-- A file of 300 blocks over that channel. -/
theorem written_writeImage_thirdTime :
    ∃ l', writeImage thirdTime (List.replicate 62400 0xA5) ⟨.boot, []⟩ = (.ok (), l') ∧
      written l'.calls = List.replicate 62400 0xA5 := by
  have hthrough : GetThrough thirdTime 0
      (sliceCount 208 (List.replicate 62400 (0xA5 : UInt8)).length) :=
    fun _ _ _ => ⟨2, by omega, rfl⟩
  rcases writeImage_running (l := ⟨.boot, []⟩) thirdTime (List.replicate 62400 0xA5) rfl with
    ⟨-, l', hok, -⟩ | ⟨hnot, -⟩
  · exact ⟨l', hok, written_writeImage hok⟩
  · exact absurd hthrough hnot

end Legacy

end Ardep
