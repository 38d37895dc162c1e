import Mathlib.Tactic.Common
import Ardep.Common.Machine
import Ardep.Uds.Err
/-!
# The schedule of a LIN commander — a thread, an application and a semaphore

The scheduler thread goes round a table of frame ids, one entry a turn,
and the application switches tables and stops it. One binary semaphore,
`active`, does two things. While a table is active it is a lock around the
two indices. While none is, it is what the thread waits for. The index
`current_table`, with -1 for none, says which of the two it is.

Each step below is one access of one thread to what both share. The
history of a run says which table was made active last and how many frames
have been scheduled since (`epoch`), and `scheduler_run` is the contract:
the indices the thread uses are in range, and the frame it schedules is
the one the epoch says.
-/

namespace Ardep

namespace Lin

namespace Scheduler

open Uds

/-- `struct abstract_lin_schedule_entry_t`. -/
structure Entry where
  frameId : UInt8
  delay : ℕ

/-- `struct abstract_lin_schedule_table_t`, with at least one entry. The
count is a `size_t`. -/
structure Table where
  entries : List Entry
  count_pos : 0 < entries.length
  count_lt : entries.length < 0x100000000

/-- `count`. -/
abbrev Table.count (table : Table) : ℕ := table.entries.length

/-- The tables of a scheduler, `table_count` of them. -/
structure Tables where
  tables : List Table
  tableCount_lt : tables.length < 0x100000000

abbrev Tables.tableCount (tables : Tables) : ℕ := tables.tables.length

/-- The table at an index. -/
abbrev Tables.at? (tables : Tables) (i : ℕ) : Option Table := tables.tables[i]?

/-- `-1` as a `size_t`. -/
abbrev noTable : ℕ := 0x100000000 - 1

/-- Where `_abstract_lin_scheduler_thread` is in its loop. `table` and
`entry` are its local pointers, as indices. -/
inductive ThreadAt where
  | takeActive
  | loadTable
  | loadEntry (table : ℕ)
  | storeEntry (table entry : ℕ)
  | testEntry (table entry : ℕ)
  | resetEntry (table entry : ℕ)
  | scheduleNow (table entry : ℕ)
  | giveActive (table entry : ℕ)
  | sleep (table entry : ℕ)
  deriving DecidableEq, Repr

/-- Where the application is: between calls, with what the last one
returned, or in one of the two functions. -/
inductive AppAt where
  | idle (returned : ℤ)
  | checkIndex (tableIndex : ℕ)
  | checkActive (tableIndex : ℕ)
  | takeToSwitch (tableIndex : ℕ)
  | storeTable (tableIndex : ℕ)
  | storeFirst (tableIndex : ℕ)
  | giveTable (tableIndex : ℕ)
  | checkStopped
  | takeToStop
  | storeStopped
  deriving DecidableEq, Repr

/-- **The scheduler and the application**, with what they share. -/
structure State where
  currentTable : ℕ
  currentTableEntry : ℕ
  active : Bool
  thread : ThreadAt
  app : AppAt

/-- What a step shows: nothing, a frame put on the bus, or how a call of
the application begins or ends. -/
inductive Event where
  | silent
  | scheduled (frameId : UInt8)
  | callSetActiveTable (tableIndex : ℕ)
  | callDisable
  | refused
  | released (tableIndex : ℕ)
  | disabled
  deriving DecidableEq, Repr

/-- **One access of the thread**, in `_abstract_lin_scheduler_thread`. -/
inductive ThreadStep (tables : Tables) : State → Event → State → Prop
  | takeActive {s : State} (hat : s.thread = .takeActive) (hactive : s.active = true) :
      ThreadStep tables s .silent { s with active := false, thread := .loadTable }
  | loadTable {s : State} (hat : s.thread = .loadTable) :
      ThreadStep tables s .silent { s with thread := .loadEntry s.currentTable }
  | loadEntry {s : State} {t : ℕ} (hat : s.thread = .loadEntry t) :
      ThreadStep tables s .silent { s with thread := .storeEntry t s.currentTableEntry }
  | storeEntry {s : State} {t i : ℕ} (hat : s.thread = .storeEntry t i) :
      ThreadStep tables s .silent
        { s with currentTableEntry := (i + 1) % 0x100000000, thread := .testEntry t i }
  | atEnd {s : State} {t i : ℕ} {table : Table} (hat : s.thread = .testEntry t i)
      (htable : tables.at? t = some table) (hend : s.currentTableEntry ≥ table.count) :
      ThreadStep tables s .silent { s with thread := .resetEntry t i }
  | notAtEnd {s : State} {t i : ℕ} {table : Table} (hat : s.thread = .testEntry t i)
      (htable : tables.at? t = some table) (hend : ¬ s.currentTableEntry ≥ table.count) :
      ThreadStep tables s .silent { s with thread := .scheduleNow t i }
  | resetEntry {s : State} {t i : ℕ} (hat : s.thread = .resetEntry t i) :
      ThreadStep tables s .silent { s with currentTableEntry := 0, thread := .scheduleNow t i }
  | scheduleNow {s : State} {t i : ℕ} {table : Table} {entry : Entry}
      (hat : s.thread = .scheduleNow t i) (htable : tables.at? t = some table)
      (hentry : table.entries[i]? = some entry) :
      ThreadStep tables s (.scheduled entry.frameId) { s with thread := .giveActive t i }
  | giveActive {s : State} {t i : ℕ} (hat : s.thread = .giveActive t i) :
      ThreadStep tables s .silent { s with active := true, thread := .sleep t i }
  | wake {s : State} {t i : ℕ} (hat : s.thread = .sleep t i) :
      ThreadStep tables s .silent { s with thread := .takeActive }

/-- **One access of the application**, in
`abstract_lin_scheduler_set_active_table` or
`abstract_lin_scheduler_disable`. -/
inductive AppStep (tables : Tables) : State → Event → State → Prop
  | callSetActiveTable {s : State} {ret : ℤ} (hat : s.app = .idle ret) (tableIndex : ℕ) :
      AppStep tables s (.callSetActiveTable tableIndex) { s with app := .checkIndex tableIndex }
  | outOfRange {s : State} {j : ℕ} (hat : s.app = .checkIndex j) (hj : j ≥ tables.tableCount) :
      AppStep tables s .refused { s with app := .idle (-ENOENT) }
  | inRange {s : State} {j : ℕ} (hat : s.app = .checkIndex j) (hj : ¬ j ≥ tables.tableCount) :
      AppStep tables s .silent { s with app := .checkActive j }
  | activeBefore {s : State} {j : ℕ} (hat : s.app = .checkActive j)
      (hactive : s.currentTable ≠ noTable) :
      AppStep tables s .silent { s with app := .takeToSwitch j }
  | notActiveBefore {s : State} {j : ℕ} (hat : s.app = .checkActive j)
      (hactive : ¬ s.currentTable ≠ noTable) :
      AppStep tables s .silent { s with app := .storeTable j }
  | takeToSwitch {s : State} {j : ℕ} (hat : s.app = .takeToSwitch j) (hactive : s.active = true) :
      AppStep tables s .silent { s with active := false, app := .storeTable j }
  | storeTable {s : State} {j : ℕ} (hat : s.app = .storeTable j) :
      AppStep tables s .silent { s with currentTable := j, app := .storeFirst j }
  | storeFirst {s : State} {j : ℕ} (hat : s.app = .storeFirst j) :
      AppStep tables s .silent { s with currentTableEntry := 0, app := .giveTable j }
  | giveTable {s : State} {j : ℕ} (hat : s.app = .giveTable j) :
      AppStep tables s (.released j) { s with active := true, app := .idle 0 }
  | callDisable {s : State} {ret : ℤ} (hat : s.app = .idle ret) :
      AppStep tables s .callDisable { s with app := .checkStopped }
  | alreadyStopped {s : State} (hat : s.app = .checkStopped) (hstopped : s.currentTable = noTable) :
      AppStep tables s .disabled { s with app := .idle 0 }
  | notStopped {s : State} (hat : s.app = .checkStopped) (hstopped : ¬ s.currentTable = noTable) :
      AppStep tables s .silent { s with app := .takeToStop }
  | takeToStop {s : State} (hat : s.app = .takeToStop) (hactive : s.active = true) :
      AppStep tables s .silent { s with active := false, app := .storeStopped }
  | storeStopped {s : State} (hat : s.app = .storeStopped) :
      AppStep tables s .disabled { s with currentTable := noTable, app := .idle 0 }

/-- **The scheduler** from where the thread has initialised its semaphores:
`active` has been given if there is an initial table. -/
def scheduler (tables : Tables) (initial : Option (Fin tables.tableCount)) :
    Machine State Event where
  init s := s.currentTableEntry = 0 ∧ s.thread = .takeActive ∧ (∃ ret, s.app = .idle ret) ∧
    match initial with
    | none => s.currentTable = noTable ∧ s.active = false
    | some t => s.currentTable = t ∧ s.active = true
  Step s e s' := ThreadStep tables s e s' ∨ AppStep tables s e s'

/-! ## The contract -/

/-- **An epoch**: the table that is active, and the frames scheduled since
it became so. -/
structure Epoch where
  table : Option ℕ
  frames : ℕ

/-- A table becomes active where `set_active_table` gives the semaphore,
and none is once `disable` has returned. -/
def Epoch.next (ep : Epoch) : Event → Epoch
  | .scheduled _ => { ep with frames := ep.frames + 1 }
  | .released tableIndex => ⟨some tableIndex, 0⟩
  | .disabled => ⟨none, 0⟩
  | _ => ep

/-- The epoch a run has come to. -/
def epoch (start : Option ℕ) (past : List (State × Event)) : Epoch :=
  past.foldl (fun ep x => ep.next x.2) ⟨start, 0⟩

/-- **Every index the thread uses is in range**: that of the table it is
about to load, and that of the entry it is about to load or holds. -/
def InRange (tables : Tables) (s : State) : Prop :=
  match s.thread with
  | .takeActive => True
  | .loadTable => s.currentTable < tables.tableCount
  | .loadEntry t => ∃ table, tables.at? t = some table ∧ s.currentTableEntry < table.count
  | .storeEntry t i | .testEntry t i | .resetEntry t i | .scheduleNow t i | .giveActive t i
  | .sleep t i => ∃ table, tables.at? t = some table ∧ i < table.count

/-- **The frame of an epoch**: the next entry of its table, round and
round. -/
def IsNext (tables : Tables) (ep : Epoch) (frameId : UInt8) : Prop :=
  ∃ t table entry, ep.table = some t ∧ tables.at? t = some table ∧
    table.entries[ep.frames % table.count]? = some entry ∧ frameId = entry.frameId

/-- A frame is scheduled only in an epoch with a table, and is its next. -/
def OnSchedule (tables : Tables) (start : Option ℕ) (pre : List (State × Event)) (_ : State)
    (e : Event) : Prop :=
  ∀ frameId, e = .scheduled frameId → IsNext tables (epoch start pre) frameId

/-- **A call with an index out of range changes nothing**: the next step of
the application returns `-ENOENT`, and neither the call nor that step
touches what is shared. -/
def RefusesOutOfRange (tables : Tables) (s : State) : Prop :=
  ∀ j e s', j ≥ tables.tableCount → AppStep tables s e s' →
    (e = .callSetActiveTable j → s' = { s with app := .checkIndex j }) ∧
      (s.app = .checkIndex j → e = .refused ∧ s' = { s with app := .idle (-ENOENT) })

/-! ## The invariant -/

/-- The thread is between taking and giving the semaphore. -/
def ThreadAt.inside : ThreadAt → Bool
  | .takeActive => false
  | .sleep _ _ => false
  | _ => true

/-- The application is where nobody else may be: it holds the semaphore, or
the thread waits for it. -/
def AppAt.inside : AppAt → Bool
  | .storeTable _ => true
  | .storeFirst _ => true
  | .giveTable _ => true
  | .storeStopped => true
  | _ => false

/-- What the application knows at each place. -/
def AppKnows (tables : Tables) (s : State) : Prop :=
  match s.app with
  | .checkActive j => j < tables.tableCount
  | .takeToSwitch j => j < tables.tableCount ∧ s.currentTable ≠ noTable
  | .storeTable j => j < tables.tableCount
  | .storeFirst j => j < tables.tableCount ∧ s.currentTable = j
  | .giveTable j => j < tables.tableCount ∧ s.currentTable = j ∧ s.currentTableEntry = 0
  | .takeToStop => s.currentTable ≠ noTable
  | _ => True

/-- **Where a turn is**: `k` frames of a table of `count` entries have been
scheduled, and the thread is about to do the next. -/
def Turn (count k : ℕ) (s : State) : Prop :=
  match s.thread with
  | .takeActive | .loadTable | .sleep _ _ => s.currentTableEntry = k % count
  | .loadEntry t => t = s.currentTable ∧ s.currentTableEntry = k % count
  | .storeEntry t i => t = s.currentTable ∧ i = k % count
  | .testEntry t i => t = s.currentTable ∧ i = k % count ∧ s.currentTableEntry = i + 1
  | .resetEntry t i => t = s.currentTable ∧ i = k % count ∧ i + 1 = count
  | .scheduleNow t i => t = s.currentTable ∧ i = k % count ∧ s.currentTableEntry = (k + 1) % count
  | .giveActive t i => t = s.currentTable ∧ i < count ∧ s.currentTableEntry = k % count

/-- **The thread and the table it goes round.** -/
structure Turning (tables : Tables) (ep : Epoch) (s : State) : Prop where
  active : s.active = !s.thread.inside
  table : ep.table = some s.currentTable
  turn : ∃ table, tables.at? s.currentTable = some table ∧ Turn table.count ep.frames s

/-- **The two roles of the semaphore.** With the application inside, the
thread is out and the semaphore is taken; so it is with no table active;
and with one, the semaphore is the thread's lock. -/
structure Sound (tables : Tables) (ep : Epoch) (s : State) : Prop where
  exclusive : s.app.inside = true → s.active = false ∧ s.thread.inside = false
  stopped : s.app.inside = false → s.currentTable = noTable →
    s.active = false ∧ s.thread.inside = false ∧ ep.table = none
  turning : s.app.inside = false → s.currentTable ≠ noTable → Turning tables ep s
  knows : AppKnows tables s
  asleep : ∀ t i, s.thread = .sleep t i → ∃ table, tables.at? t = some table ∧ i < table.count

section Invariant

variable {tables : Tables} {ep : Epoch} {s s' : State} {e : Event}

/-- A table of the scheduler is not the marker. -/
theorem Tables.ne_noTable (tables : Tables) {t : ℕ} (ht : t < tables.tableCount) : t ≠ noTable := by
  have hlt := tables.tableCount_lt
  unfold noTable
  unfold Tables.tableCount at ht
  omega

theorem Tables.at?_of_lt (tables : Tables) {t : ℕ} (ht : t < tables.tableCount) :
    ∃ table, tables.at? t = some table :=
  ⟨tables.tables[t], List.getElem?_eq_getElem ht⟩

theorem Tables.lt_of_at? (tables : Tables) {t : ℕ} {table : Table} (ht : tables.at? t = some table) :
    t < tables.tableCount := by
  obtain ⟨hlt, -⟩ := List.getElem?_eq_some_iff.mp ht
  exact hlt

/-- **With the thread inside a table is active** and the application is
out, whatever it is doing. -/
theorem Sound.of_inside (h : Sound tables ep s) (hin : s.thread.inside = true) :
    s.app.inside = false ∧ s.currentTable ≠ noTable ∧ Turning tables ep s := by
  have happ : s.app.inside = false := by
    cases hcase : s.app.inside with
    | false => rfl
    | true => exact absurd hin (by rw [(h.exclusive hcase).2]; decide)
  have hcurrent : s.currentTable ≠ noTable := by
    intro hnone
    exact absurd hin (by rw [(h.stopped happ hnone).2.1]; decide)
  exact ⟨happ, hcurrent, h.turning happ hcurrent⟩

/-- So it is where the semaphore is free. -/
theorem Sound.of_active (h : Sound tables ep s) (hactive : s.active = true) :
    s.app.inside = false ∧ s.currentTable ≠ noTable ∧ Turning tables ep s := by
  have happ : s.app.inside = false := by
    cases hcase : s.app.inside with
    | false => rfl
    | true => exact absurd hactive (by rw [(h.exclusive hcase).1]; decide)
  have hcurrent : s.currentTable ≠ noTable := by
    intro hnone
    exact absurd hactive (by rw [(h.stopped happ hnone).1]; decide)
  exact ⟨happ, hcurrent, h.turning happ hcurrent⟩

/-- **The thread moves** and stays inside or comes to sleep: it is enough
that the turn goes on. -/
theorem Sound.of_turning (happ : s.app.inside = false) (hcurrent : s.currentTable ≠ noTable)
    (hturning : Turning tables ep s) (hknows : AppKnows tables s)
    (hasleep : ∀ t i, s.thread = .sleep t i → ∃ table, tables.at? t = some table ∧ i < table.count) :
    Sound tables ep s := by
  refine ⟨fun hin => ?_, fun _ hnone => absurd hnone hcurrent, fun _ _ => hturning, hknows, hasleep⟩
  rw [happ] at hin
  cases hin

/-- **With no table active** the semaphore is taken and the thread waits. -/
theorem Sound.of_stopped (happ : s.app.inside = false) (hcurrent : s.currentTable = noTable)
    (hactive : s.active = false) (hout : s.thread.inside = false) (hep : ep.table = none)
    (hknows : AppKnows tables s)
    (hasleep : ∀ t i, s.thread = .sleep t i → ∃ table, tables.at? t = some table ∧ i < table.count) :
    Sound tables ep s := by
  refine ⟨fun hin => ?_, fun _ _ => ⟨hactive, hout, hep⟩, fun _ hne => absurd hcurrent hne, hknows,
    hasleep⟩
  rw [happ] at hin
  cases hin

/-- The thread is out where the semaphore is free. -/
theorem Turning.outside (h : Turning tables ep s) (hactive : s.active = true) :
    s.thread.inside = false := by
  have hlock := h.active
  rw [hactive] at hlock
  simpa using hlock

/-- What the application knows does not depend on the thread, nor, where it
is out, on the entry or the semaphore. -/
theorem AppKnows.thread (h : AppKnows tables s) (happ : s.app.inside = false) {active : Bool}
    {entry : ℕ} {thread : ThreadAt} :
    AppKnows tables { s with active := active, currentTableEntry := entry, thread := thread } := by
  obtain ⟨_, _, _, _, app⟩ := s
  cases app with
  | giveTable j => cases happ
  | _ => exact h

/-- The next entry, before the end of the table and at it. -/
theorem succ_mod_of_lt {k count : ℕ} (h : k % count + 1 < count) :
    (k + 1) % count = k % count + 1 := by
  rw [← Nat.mod_add_mod, Nat.mod_eq_of_lt h]

theorem succ_mod_of_eq {k count : ℕ} (h : k % count + 1 = count) : (k + 1) % count = 0 := by
  rw [← Nat.mod_add_mod, h, Nat.mod_self]

/-! ## One step -/

/-- **The thread goes on inside**: the semaphore, the table and the
application stay as they are, and it is enough that the turn goes on. -/
theorem Sound.within (h : Sound tables ep s) (hin : s.thread.inside = true) {ep' : Epoch} {entry : ℕ}
    {thread : ThreadAt} (hin' : thread.inside = true) (hep : ep'.table = ep.table)
    (hturn : ∀ table, tables.at? s.currentTable = some table → Turn table.count ep.frames s →
      Turn table.count ep'.frames { s with currentTableEntry := entry, thread := thread }) :
    Sound tables ep' { s with currentTableEntry := entry, thread := thread } := by
  obtain ⟨happ, hcurrent, hactive, htab, table, htable, ht⟩ := h.of_inside hin
  rw [hin, ← hin'] at hactive
  refine .of_turning happ hcurrent ⟨hactive, hep.trans htab, table, htable, hturn table htable ht⟩
    (h.knows.thread happ) ?_
  rintro t i rfl
  cases hin'

/-- **A step of the thread keeps the invariant**: it takes the semaphore
only where a table is active, and until it gives it back the turn is its
own. -/
theorem sound_threadStep (h : Sound tables ep s) (hstep : ThreadStep tables s e s') :
    Sound tables (ep.next e) s' := by
  cases hstep with
  | takeActive hat hactive =>
    obtain ⟨happ, hcurrent, -, htab, table, htable, hturn⟩ := h.of_active hactive
    simp only [Turn, hat] at hturn
    exact .of_turning happ hcurrent ⟨rfl, htab, table, htable, hturn⟩ (h.knows.thread happ) nofun
  | loadTable hat =>
    refine h.within (by rw [hat]; rfl) rfl rfl fun table htable hturn => ?_
    simp only [Turn, hat] at hturn
    exact ⟨rfl, hturn⟩
  | loadEntry hat =>
    refine h.within (by rw [hat]; rfl) rfl rfl fun table htable hturn => ?_
    simp only [Turn, hat] at hturn
    exact hturn
  | @storeEntry t i hat =>
    refine h.within (by rw [hat]; rfl) rfl rfl fun table htable hturn => ?_
    simp only [Turn, hat] at hturn
    obtain ⟨ht, hi⟩ := hturn
    -- the entry is one of the table, so the index does not wrap
    have hlt : i < table.count := hi ▸ Nat.mod_lt _ table.count_pos
    have hcount : table.count < 0x100000000 := table.count_lt
    exact ⟨ht, hi, Nat.mod_eq_of_lt (by omega)⟩
  | @atEnd t i table' hat htable' hend =>
    refine h.within (by rw [hat]; rfl) rfl rfl fun table htable hturn => ?_
    simp only [Turn, hat] at hturn
    obtain ⟨ht, hi, hentry⟩ := hturn
    obtain rfl : table' = table := Option.some.inj (htable'.symm.trans (ht ▸ htable))
    have hlt : i < table'.count := hi ▸ Nat.mod_lt _ table'.count_pos
    exact ⟨ht, hi, by omega⟩
  | @notAtEnd t i table' hat htable' hend =>
    refine h.within (by rw [hat]; rfl) rfl rfl fun table htable hturn => ?_
    simp only [Turn, hat] at hturn
    obtain ⟨ht, hi, hentry⟩ := hturn
    obtain rfl : table' = table := Option.some.inj (htable'.symm.trans (ht ▸ htable))
    have hnext : s.currentTableEntry = (ep.frames + 1) % table'.count := by
      rw [succ_mod_of_lt (by omega), ← hi, hentry]
    exact ⟨ht, hi, hnext⟩
  | resetEntry hat =>
    refine h.within (by rw [hat]; rfl) rfl rfl fun table htable hturn => ?_
    simp only [Turn, hat] at hturn
    obtain ⟨ht, hi, hend⟩ := hturn
    have hnext : (ep.frames + 1) % table.count = 0 := succ_mod_of_eq (hi ▸ hend)
    exact ⟨ht, hi, hnext.symm⟩
  | scheduleNow hat htable' hentry =>
    refine h.within (by rw [hat]; rfl) rfl rfl fun table htable hturn => ?_
    simp only [Turn, hat] at hturn
    obtain ⟨ht, hi, hnext⟩ := hturn
    have hlt := Nat.mod_lt ep.frames table.count_pos
    exact ⟨ht, hi ▸ hlt, hnext⟩
  | @giveActive t i hat =>
    obtain ⟨happ, hcurrent, -, htab, table, htable, hturn⟩ := h.of_inside (by rw [hat]; rfl)
    simp only [Turn, hat] at hturn
    obtain ⟨ht, hi, hentry⟩ := hturn
    refine .of_turning happ hcurrent ⟨rfl, htab, table, htable, hentry⟩ (h.knows.thread happ) ?_
    rintro t' i' hsleep
    cases hsleep
    exact ⟨table, ht ▸ htable, hi⟩
  | wake hat =>
    have hout : s.thread.inside = false := by rw [hat]; rfl
    refine ⟨fun happ => ⟨(h.exclusive happ).1, rfl⟩, fun happ hnone => ?_, fun happ hcurrent => ?_,
      ?_, fun t i hsleep => by cases hsleep⟩
    · obtain ⟨hactive, -, hep⟩ := h.stopped happ hnone
      exact ⟨hactive, rfl, hep⟩
    · obtain ⟨hactive, htab, table, htable, hturn⟩ := h.turning happ hcurrent
      simp only [Turn, hat] at hturn
      rw [hout] at hactive
      exact ⟨hactive, htab, table, htable, hturn⟩
    · obtain ⟨_, _, _, _, app⟩ := s
      cases app <;> exact h.knows

/-- Between turns only the entry matters. -/
theorem turn_of_outside {count k : ℕ} (hout : s.thread.inside = false)
    (hentry : s.currentTableEntry = k % count) : Turn count k s := by
  unfold Turn
  cases hthread : s.thread with
  | takeActive => exact hentry
  | sleep t i => exact hentry
  | _ =>
    rw [hthread] at hout
    cases hout

/-- The application moves and stays out: only what it knows is new. -/
theorem Sound.app (h : Sound tables ep s) (hout : s.app.inside = false) {app : AppAt}
    (hout' : app.inside = false) (hknows : AppKnows tables { s with app := app }) :
    Sound tables ep { s with app := app } := by
  refine ⟨fun hin => ?_, fun _ hnone => h.stopped hout hnone, fun _ hcurrent => ?_, hknows, h.asleep⟩
  · have hin : app.inside = true := hin
    rw [hout'] at hin
    cases hin
  · obtain ⟨hactive, htab, table, htable, hturn⟩ := h.turning hout hcurrent
    exact ⟨hactive, htab, table, htable, hturn⟩

/-- The application goes in where the thread is out and the semaphore is
taken, and may then write what is shared. -/
theorem Sound.of_exclusive {ep' : Epoch} (h : Sound tables ep s) (hin : s'.app.inside = true)
    (hactive : s'.active = false) (hout : s'.thread.inside = false) (hthread : s'.thread = s.thread)
    (hknows : AppKnows tables s') : Sound tables ep' s' := by
  refine ⟨fun _ => ⟨hactive, hout⟩, fun happ => ?_, fun happ => ?_, hknows, ?_⟩
  · rw [hin] at happ
    cases happ
  · rw [hin] at happ
    cases happ
  · rw [hthread]
    exact h.asleep

/-- **A step of the application keeps the invariant.** It goes in by taking
the semaphore from an active table, or because no table is active, and
comes out by giving it, which begins an epoch, or by stopping. -/
theorem sound_appStep (h : Sound tables ep s) (hstep : AppStep tables s e s') :
    Sound tables (ep.next e) s' := by
  have hknows := h.knows
  unfold AppKnows at hknows
  cases hstep with
  | callSetActiveTable hat tableIndex => exact h.app (by rw [hat]; rfl) rfl trivial
  | outOfRange hat hj => exact h.app (by rw [hat]; rfl) rfl trivial
  | inRange hat hj => exact h.app (by rw [hat]; rfl) rfl (Nat.lt_of_not_ge hj)
  | activeBefore hat hactive =>
    rw [hat] at hknows
    exact h.app (by rw [hat]; rfl) rfl ⟨hknows, hactive⟩
  | notActiveBefore hat hactive =>
    rw [hat] at hknows
    obtain ⟨hfree, hout, -⟩ := h.stopped (by rw [hat]; rfl) (not_not.mp hactive)
    exact h.of_exclusive rfl hfree hout rfl hknows
  | takeToSwitch hat hactive =>
    rw [hat] at hknows
    obtain ⟨-, -, hturning⟩ := h.of_active hactive
    exact h.of_exclusive rfl rfl (hturning.outside hactive) rfl hknows.1
  | storeTable hat =>
    rw [hat] at hknows
    obtain ⟨hfree, hout⟩ := h.exclusive (by rw [hat]; rfl)
    exact h.of_exclusive rfl hfree hout rfl ⟨hknows, rfl⟩
  | storeFirst hat =>
    rw [hat] at hknows
    obtain ⟨hfree, hout⟩ := h.exclusive (by rw [hat]; rfl)
    exact h.of_exclusive rfl hfree hout rfl ⟨hknows.1, hknows.2, rfl⟩
  | @giveTable j hat =>
    -- the epoch of table `j` begins, with its first entry
    rw [hat] at hknows
    obtain ⟨hlt, hcurrent, hentry⟩ := hknows
    obtain ⟨-, hout⟩ := h.exclusive (by rw [hat]; rfl)
    obtain ⟨table, htable⟩ := tables.at?_of_lt hlt
    refine .of_turning rfl (hcurrent ▸ tables.ne_noTable hlt)
      ⟨?_, congrArg some hcurrent.symm, table, hcurrent ▸ htable, ?_⟩ trivial h.asleep
    · show true = !s.thread.inside
      rw [hout]
      rfl
    · have hzero : s.currentTableEntry = 0 % table.count := by rw [hentry, Nat.zero_mod]
      exact turn_of_outside hout hzero
  | callDisable hat => exact h.app (by rw [hat]; rfl) rfl trivial
  | alreadyStopped hat hstopped =>
    obtain ⟨hfree, hout, -⟩ := h.stopped (by rw [hat]; rfl) hstopped
    exact .of_stopped rfl hstopped hfree hout rfl trivial h.asleep
  | notStopped hat hstopped => exact h.app (by rw [hat]; rfl) rfl hstopped
  | takeToStop hat hactive =>
    obtain ⟨-, -, hturning⟩ := h.of_active hactive
    exact h.of_exclusive rfl rfl (hturning.outside hactive) rfl trivial
  | storeStopped hat =>
    obtain ⟨hfree, hout⟩ := h.exclusive (by rw [hat]; rfl)
    exact .of_stopped rfl rfl hfree hout rfl trivial h.asleep

/-! ## Every interleaving -/

variable {initial : Option (Fin tables.tableCount)} {past : List (State × Event)}

theorem epoch_concat (start : Option ℕ) (past : List (State × Event)) (s : State) (e : Event) :
    epoch start (past ++ [(s, e)]) = (epoch start past).next e := by
  unfold epoch
  rw [List.foldl_append, List.foldl_cons, List.foldl_nil]

/-- **Every run is sound** for the epoch it has come to. -/
theorem sound_run (h : (scheduler tables initial).Run past s) :
    Sound tables (epoch (initial.map (·.val)) past) s := by
  refine Machine.Run.invariant
    (P := fun past s => Sound tables (epoch (initial.map (·.val)) past) s)
    (fun s hinit => ?_) (fun past s e s' hs hstep => ?_) h
  · obtain ⟨hentry, hthread, ⟨ret, happ⟩, hstart⟩ := hinit
    have hout : s.thread.inside = false := by rw [hthread]; rfl
    have hidle : s.app.inside = false := by rw [happ]; rfl
    have hknows : AppKnows tables s := by unfold AppKnows; rw [happ]; trivial
    have hasleep : ∀ t i, s.thread = .sleep t i → ∃ table, tables.at? t = some table ∧
        i < table.count := by
      intro t i hsleep
      rw [hthread] at hsleep
      cases hsleep
    cases initial with
    | none =>
      obtain ⟨hcurrent, hactive⟩ := hstart
      exact .of_stopped hidle hcurrent hactive hout rfl hknows hasleep
    | some t =>
      obtain ⟨hcurrent, hactive⟩ := hstart
      obtain ⟨table, htable⟩ := tables.at?_of_lt t.isLt
      refine .of_turning hidle (hcurrent ▸ tables.ne_noTable t.isLt) ⟨?_, ?_, table, ?_, ?_⟩ hknows
        hasleep
      · rw [hactive, hout]
        rfl
      · exact congrArg some hcurrent.symm
      · rw [hcurrent]
        exact htable
      · exact turn_of_outside hout (by rw [hentry]; exact (Nat.zero_mod _).symm)
  · rw [epoch_concat]
    rcases hstep with hstep | hstep
    · exact sound_threadStep hs hstep
    · exact sound_appStep hs hstep

/-- The indices, read off the invariant. -/
theorem Sound.inRange (h : Sound tables ep s) : InRange tables s := by
  cases hin : s.thread.inside with
  | false =>
    unfold InRange
    cases hthread : s.thread with
    | takeActive => trivial
    | sleep t i => exact h.asleep t i hthread
    | _ =>
      rw [hthread] at hin
      cases hin
  | true =>
    obtain ⟨-, -, -, -, table, htable, hturn⟩ := h.of_inside hin
    have hlt := Nat.mod_lt ep.frames table.count_pos
    unfold Turn at hturn
    unfold InRange
    cases hthread : s.thread with
    | takeActive => trivial
    | sleep t i => exact h.asleep t i hthread
    | loadTable => exact tables.lt_of_at? htable
    | loadEntry t =>
      rw [hthread] at hturn
      obtain ⟨rfl, hentry⟩ := hturn
      exact ⟨table, htable, hentry ▸ hlt⟩
    | giveActive t i =>
      rw [hthread] at hturn
      obtain ⟨rfl, hi, -⟩ := hturn
      exact ⟨table, htable, hi⟩
    | storeEntry t i | testEntry t i | resetEntry t i | scheduleNow t i =>
      rw [hthread] at hturn
      obtain ⟨rfl, hi⟩ := hturn
      first
        | exact ⟨table, htable, hi ▸ hlt⟩
        | exact ⟨table, htable, hi.1 ▸ hlt⟩

/-- The frame, read off the invariant. -/
theorem Sound.onSchedule (h : Sound tables ep s) {frameId : UInt8}
    (hstep : (scheduler tables initial).Step s (.scheduled frameId) s') : IsNext tables ep frameId := by
  rcases hstep with hstep | hstep
  · cases hstep with
    | @scheduleNow t i table' entry hat htable' hentry =>
      obtain ⟨-, -, -, htab, table, htable, hturn⟩ := h.of_inside (by rw [hat]; rfl)
      simp only [Turn, hat] at hturn
      obtain ⟨ht, hi, -⟩ := hturn
      obtain rfl : table' = table := Option.some.inj (htable'.symm.trans (ht ▸ htable))
      exact ⟨s.currentTable, table', entry, htab, htable, hi ▸ hentry, rfl⟩
  · cases hstep

theorem refusesOutOfRange (tables : Tables) (s : State) : RefusesOutOfRange tables s := by
  intro j e s' hj hstep
  refine ⟨?_, fun hat => ?_⟩
  · rintro rfl
    cases hstep
    rfl
  · cases hstep with
    | outOfRange => exact ⟨rfl, rfl⟩
    | inRange hat' hlt =>
      rw [hat] at hat'
      cases hat'
      exact absurd hj hlt
    | callSetActiveTable hat' | activeBefore hat' | notActiveBefore hat' | takeToSwitch hat'
    | storeTable hat' | storeFirst hat' | giveTable hat' | callDisable hat' | alreadyStopped hat'
    | notStopped hat' | takeToStop hat' | storeStopped hat' =>
      rw [hat] at hat'
      cases hat'

/-- **The schedule, under every interleaving.** Every index the thread uses
is in range. Every frame it schedules is entry `k mod count` of the table
of the epoch, where `k` frames have been scheduled since
`set_active_table` released the semaphore or since the start, and none is
scheduled in an epoch without a table, which is what follows `disable`.
And an index out of range changes nothing. -/
theorem scheduler_run (h : (scheduler tables initial).Run past s) :
    InRange tables s ∧
      Machine.Throughout (OnSchedule tables (initial.map (·.val))) past ∧
        RefusesOutOfRange tables s := by
  refine ⟨(sound_run h).inRange, ?_, refusesOutOfRange tables s⟩
  rintro pre t e post hpast frameId rfl
  obtain ⟨hrun, t', hstep⟩ := h.before hpast
  exact (sound_run hrun).onSchedule hstep

end Invariant

/-- A schedule of the two diagnostic frames. -/
def diagnostic : Tables where
  tables := [⟨[⟨0x3C, 10⟩, ⟨0x3D, 10⟩], Nat.two_pos, Nat.lt_of_sub_pos (Nat.succ_pos _)⟩]
  tableCount_lt := Nat.lt_of_sub_pos (Nat.succ_pos _)

/-- Its only table. -/
def firstTable : Fin diagnostic.tableCount := ⟨0, Nat.one_pos⟩

/-- The scheduler with its first table active. -/
def ready : State := ⟨0, 0, true, .takeActive, .idle 0⟩

/-- The first turn, up to its frame, with a call of the application in
between. -/
theorem scheduler_run_turn :
    ∃ past s, (scheduler diagnostic (some firstTable)).Run past s ∧
      (∃ t, (t, .scheduled 0x3C) ∈ past) ∧ InRange diagnostic s ∧
        Machine.Throughout (OnSchedule diagnostic (some 0)) past := by
  have hinit : (scheduler diagnostic (some firstTable)).init ready := ⟨rfl, rfl, ⟨0, rfl⟩, rfl, rfl⟩
  have hrun := (((((((Machine.Run.init hinit).step
    (.inl (.takeActive rfl rfl))).step (.inl (.loadTable rfl))).step
      (.inr (.callDisable rfl))).step (.inl (.loadEntry rfl))).step
        (.inl (.storeEntry rfl))).step (.inl (.notAtEnd rfl rfl (by decide)))).step
          (.inl (.scheduleNow rfl rfl rfl))
  obtain ⟨hrange, hschedule, -⟩ := scheduler_run hrun
  exact ⟨_, _, hrun, ⟨_, List.mem_append_right _ List.mem_cons_self⟩, hrange, hschedule⟩

end Scheduler

end Lin

end Ardep
