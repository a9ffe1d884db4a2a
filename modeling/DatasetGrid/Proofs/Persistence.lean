import DatasetGrid.Proofs.TableDispatch

/-! # Edits, writes and what has become lasting

A table in use over a source in memory answers one request after another. Before each request any
of the accesses to the source may be set to be refused: a request reads, commits and flushes at
most once, so a run can refuse every single access.
-/
namespace DatasetGrid

namespace MemorySource

variable {m m' : MemorySource}

theorem ofRows_eq_ok {fields width : Nat} {rows : List (List Cell)}
    (h : ofRows fields width rows = .ok m) : m.rows = rows ∧ m.persisted = rows := by
  rw [ofRows] at h
  split at h
  · cases h
  · cases h
    exact ⟨rfl, rfl⟩

theorem commit_persisted {row field repetition : Nat} {cell : Cell}
    (h : m.commit row field repetition cell = .ok m') : m'.persisted = m.persisted := by
  cases hplace : m.offset row field repetition with
  | error error =>
    simp only [commit, hplace, bind, Except.bind] at h
    cases h
  | ok offset =>
    simp only [commit, hplace, bind, Except.bind] at h
    split at h
    · cases h
      rfl
    · cases h

end MemorySource

/-- The accesses to a source that the next request is refused. -/
structure Refusals where
  read : Bool := false
  commit : Bool := false
  flush : Bool := false

namespace GuardedSource

def refusing (g : GuardedSource) (refusals : Refusals) : GuardedSource :=
  { g with refusesRead := refusals.read, refusesCommit := refusals.commit,
           refusesFlush := refusals.flush }

variable {g g' : GuardedSource}

/-- A commit never reaches the snapshot. -/
theorem commit_persisted {row field repetition : Nat} {cell : Cell}
    (h : Source.commit g row field repetition cell = .ok g') :
    g'.memory.persisted = g.memory.persisted := by
  simp only [Source.commit] at h
  split at h
  · cases h
  · cases hcommit : g.memory.commit row field repetition cell with
    | error error =>
      rw [hcommit] at h
      cases h
    | ok memory =>
      rw [hcommit] at h
      cases h
      exact MemorySource.commit_persisted hcommit

theorem flush_memory (h : Source.flush g = .ok g') : g'.memory = g.memory.flush := by
  simp only [Source.flush] at h
  split at h
  · cases h
  · cases h
    rfl

end GuardedSource

def TableState.refusing {κ : Type} (s : TableState GuardedSource κ) (refusals : Refusals) :
    TableState GuardedSource κ :=
  { s with source := s.source.refusing refusals }

inductive TableRequest
  | edit (row column : Nat) (text : String)
  | write
  | check (row column : Nat) (text : String)
  | display (row column : Nat)
  | label (row column : Nat)

inductive TableReply
  | changed (answer : Except TableError Bool)
  | checked (answer : Except Rejection Unit)
  | shown (text : Option String)

def TableReply.isChange : TableReply → Bool
  | .changed (.ok something) => something
  | _ => false

theorem TableReply.isChange_eq_false {answer : Except TableError Bool} (h : answer ≠ .ok true) :
    (TableReply.changed answer).isChange = false := by
  cases answer with
  | error error => rfl
  | ok something =>
    cases something with
    | true => exact absurd rfl h
    | false => rfl

/-- A request with its reply and the working rows after it. -/
structure Event where
  request : TableRequest
  reply : TableReply
  rows : List (List Cell)

namespace Event

def edits (e : Event) : Bool :=
  match e.request with
  | .edit .. => e.reply.isChange
  | _ => false

def writes (e : Event) : Bool :=
  match e.request with
  | .write => e.reply.isChange
  | _ => false

end Event

/-- The rows at the latest write that answered with a change, the latest event coming first. -/
def savedRows (start : List (List Cell)) : List Event → List (List Cell)
  | [] => start
  | event :: earlier => if event.writes then event.rows else savedRows start earlier

/-- Whether an edit answered with a change after that write. -/
def editedSince : List Event → Bool
  | [] => false
  | event :: earlier => !event.writes && (event.edits || editedSince earlier)

/-- A table in use: its state, and what it has answered so far, the latest first. -/
structure Session (κ : Type) where
  state : TableState GuardedSource κ
  events : List Event

namespace Table

variable {κ : Type}

def serve (t : Table κ) (s : TableState GuardedSource κ) :
    TableRequest → TableReply × TableState GuardedSource κ
  | .edit row column text =>
    let (answer, s) := t.setData s row column text
    (.changed answer, s)
  | .write =>
    let (answer, s) := t.writeOut s
    (.changed answer, s)
  | .check row column text => (.checked (t.check s.source row column text), s)
  | .display row column =>
    let (shown, names) := (t.displayText s.source row column).run s.names
    (.shown shown, { s with names })
  | .label row column => (.shown (t.cellLabel s.source row column), s)

/-- Answers a request while some accesses are refused. -/
def advance (t : Table κ) (s : Session κ) (step : Refusals × TableRequest) : Session κ :=
  let (reply, state) := t.serve (s.state.refusing step.1) step.2
  ⟨state, ⟨step.2, reply, state.source.memory.rows⟩ :: s.events⟩

def run (t : Table κ) (s : Session κ) (steps : List (Refusals × TableRequest)) : Session κ :=
  steps.foldl t.advance s

/-- What a run keeps: the snapshot holds the saved rows, the mark tells of edits since, and
without the mark nothing is pending. -/
structure Lasting (start : List (List Cell)) (s : Session κ) : Prop where
  saved : s.state.source.memory.persisted = savedRows start s.events
  marked : s.state.dirty = editedSince s.events
  settled : s.state.dirty = false → s.state.source.memory.persisted = s.state.source.memory.rows

namespace Lasting

variable {start : List (List Cell)} {s : Session κ} {state : TableState GuardedSource κ}
  {event : Event}

/-- An event that tells of no change, after which nothing has changed. -/
theorem idle (h : Lasting start s) (hwrites : event.writes = false) (hedits : event.edits = false)
    (hmemory : state.source.memory = s.state.source.memory) (hdirty : state.dirty = s.state.dirty) :
    Lasting start ⟨state, event :: s.events⟩ := by
  constructor
  · simpa [savedRows, hwrites, hmemory] using h.saved
  · simpa [editedSince, hwrites, hedits, hdirty] using h.marked
  · simpa [hmemory, hdirty] using h.settled

theorem edit (h : Lasting start s) (hwrites : event.writes = false) (hedits : event.edits = true)
    (hpersisted : state.source.memory.persisted = s.state.source.memory.persisted)
    (hdirty : state.dirty = true) : Lasting start ⟨state, event :: s.events⟩ := by
  constructor
  · simpa [savedRows, hwrites, hpersisted] using h.saved
  · simp [editedSince, hwrites, hedits, hdirty]
  · intro hclean
    rw [hdirty] at hclean
    cases hclean

theorem write (hwrites : event.writes = true) (hrows : event.rows = state.source.memory.rows)
    (hpersisted : state.source.memory.persisted = state.source.memory.rows)
    (hdirty : state.dirty = false) : Lasting start ⟨state, event :: s.events⟩ := by
  constructor
  · simpa [savedRows, hwrites, hrows] using hpersisted
  · simp [editedSince, hwrites, hdirty]
  · exact fun _ => hpersisted

end Lasting

variable {t : Table κ} {start : List (List Cell)} {s : Session κ}

theorem advance_edit (refusals : Refusals) (row column : Nat) (text : String) :
    t.advance s (refusals, .edit row column text) =
      let outcome := t.setData (s.state.refusing refusals) row column text
      ⟨outcome.2, ⟨.edit row column text, .changed outcome.1, outcome.2.source.memory.rows⟩ ::
        s.events⟩ := rfl

theorem advance_write (refusals : Refusals) :
    t.advance s (refusals, .write) =
      let outcome := t.writeOut (s.state.refusing refusals)
      ⟨outcome.2, ⟨.write, .changed outcome.1, outcome.2.source.memory.rows⟩ :: s.events⟩ := rfl

/-- An edit is either pending, its commit being no write, or has changed nothing. -/
theorem advance_edit_lasting (h : Lasting start s) (refusals : Refusals) (row column : Nat)
    (text : String) : Lasting start (t.advance s (refusals, .edit row column text)) := by
  rw [advance_edit]
  by_cases hchanged : (t.setData (s.state.refusing refusals) row column text).1 = .ok true
  · rcases setData_eq_ok_true hchanged with ⟨value, source, names, -, hcommit, hafter⟩
    have hpersisted := GuardedSource.commit_persisted hcommit
    dsimp only
    rw [hafter, hchanged]
    exact h.edit rfl rfl hpersisted rfl
  · rcases setData_ne_ok_true hchanged with ⟨hsource, hdirty⟩
    exact h.idle rfl (TableReply.isChange_eq_false hchanged) (by rw [hsource]; rfl) hdirty

theorem advance_write_lasting (h : Lasting start s) (refusals : Refusals) :
    Lasting start (t.advance s (refusals, .write)) := by
  rw [advance_write]
  by_cases hchanged : (t.writeOut (s.state.refusing refusals)).1 = .ok true
  · rcases writeOut_eq_ok_true hchanged with ⟨source, hflush, hafter⟩
    dsimp only
    rw [hafter, hchanged]
    refine .write rfl rfl ?_ rfl
    rw [GuardedSource.flush_memory hflush]
    rfl
  · have hkept := writeOut_ne_ok_true hchanged
    exact h.idle (TableReply.isChange_eq_false hchanged) rfl (by rw [hkept]; rfl)
      (by rw [hkept]; rfl)

theorem advance_lasting (h : Lasting start s) (step : Refusals × TableRequest) :
    Lasting start (t.advance s step) := by
  rcases step with ⟨refusals, request⟩
  cases request with
  | edit row column text => exact advance_edit_lasting h refusals row column text
  | write => exact advance_write_lasting h refusals
  | check row column text => exact h.idle rfl rfl rfl rfl
  | display row column => exact h.idle rfl rfl rfl rfl
  | label row column => exact h.idle rfl rfl rfl rfl

theorem run_lasting (h : Lasting start s) (steps : List (Refusals × TableRequest)) :
    Lasting start (t.run s steps) := by
  induction steps generalizing s with
  | nil => exact h
  | cons step steps ih => exact ih (advance_lasting h step)

theorem advance_readOnly (h : t.settings.readOnly = true) (step : Refusals × TableRequest) :
    (t.advance s step).state.source.memory = s.state.source.memory ∧
      (t.advance s step).state.dirty = s.state.dirty := by
  rcases step with ⟨refusals, request⟩
  cases request with
  | edit row column text =>
    rw [advance_edit]
    dsimp only
    rw [setData_readOnly h]
    exact ⟨rfl, rfl⟩
  | write =>
    rw [advance_write, writeOut_readOnly h]
    exact ⟨rfl, rfl⟩
  | check row column text => exact ⟨rfl, rfl⟩
  | display row column => exact ⟨rfl, rfl⟩
  | label row column => exact ⟨rfl, rfl⟩

theorem run_readOnly (h : t.settings.readOnly = true) (steps : List (Refusals × TableRequest)) :
    (t.run s steps).state.source.memory = s.state.source.memory ∧
      (t.run s steps).state.dirty = s.state.dirty := by
  induction steps generalizing s with
  | nil => exact ⟨rfl, rfl⟩
  | cons step steps ih =>
    rcases advance_readOnly (s := s) h step with ⟨hmemory, hdirty⟩
    rw [← hmemory, ← hdirty]
    exact ih

/-- After any run the snapshot holds the rows of the latest write, and the mark tells exactly
whether an edit came after it. A write that fails then keeps the mark and every edit, and a table
that may not be edited never changes. -/
theorem run_persists {fields width : Nat} {rows : List (List Cell)} (t : Table κ)
    (g : GuardedSource) (names : κ) (hopen : MemorySource.ofRows fields width rows = .ok g.memory)
    (steps : List (Refusals × TableRequest)) :
    let s := t.run ⟨⟨g, names, false⟩, []⟩ steps
    let memory := s.state.source.memory
    memory.persisted = savedRows rows s.events ∧
    (s.state.dirty = true ↔ editedSince s.events = true) ∧
    (s.state.dirty = false → memory.persisted = memory.rows) ∧
    (∀ refusals error, (t.writeOut (s.state.refusing refusals)).1 = .error error →
      let after := (t.writeOut (s.state.refusing refusals)).2
      after.dirty = true ∧ s.state.dirty = true ∧ after.source.memory = memory) ∧
    (t.settings.readOnly = true →
      memory.rows = rows ∧ memory.persisted = rows ∧ s.state.dirty = false) := by
  intro s memory
  rcases MemorySource.ofRows_eq_ok hopen with ⟨hrows, hpersisted⟩
  have hstart : Lasting rows (⟨⟨g, names, false⟩, []⟩ : Session κ) :=
    ⟨hpersisted, rfl, fun _ => hpersisted.trans hrows.symm⟩
  have hlasting : Lasting rows s := run_lasting hstart steps
  refine ⟨hlasting.saved, by rw [hlasting.marked], hlasting.settled, ?_, ?_⟩
  · intro refusals error hfailed
    have hkept := writeOut_ne_ok_true (t := t) (s := s.state.refusing refusals) (by simp [hfailed])
    have hdirty := dirty_of_writeOut_error hfailed
    dsimp only
    rw [hkept]
    exact ⟨hdirty, hdirty, rfl⟩
  · intro hreadOnly
    rcases run_readOnly (s := ⟨⟨g, names, false⟩, []⟩) hreadOnly steps with ⟨hmemory, hdirty⟩
    have hkept : memory = g.memory := hmemory
    rw [hkept]
    exact ⟨hrows, hpersisted, hdirty⟩

def sparseTable (settings : Settings) : Table MemberTable :=
  ⟨sparseSelection, .build sparseSelection.scope sparseSelection.compound,
    .ofSelection sparseSelection 2, settings, MemberTable.converter⟩

/-- An edit and a write that fails at first, then one edit that is refused and one that is not. -/
def sparseSteps : List (Refusals × TableRequest) :=
  [({}, .edit 0 3 "41"), ({ flush := true }, .write), ({}, .write),
    ({ commit := true }, .edit 0 0 "7"), ({ read := true }, .edit 0 0 "8")]

def sparseRun (settings : Settings) : Session MemberTable :=
  (sparseTable settings).run ⟨⟨{ memory := sparseSource }, .empty, false⟩, []⟩ sparseSteps

/-- The write is lasting, the edit after it is pending through another failed write, and nothing
of this happens to a table that may not be edited. -/
theorem run_persists_sparse :
    (sparseRun {}).state.source.memory.persisted = [[.uint 1, .uint 20, .uint 3, .uint 41]] ∧
    (sparseRun {}).state.dirty = true ∧
    ((sparseTable {}).writeOut ((sparseRun {}).state.refusing { flush := true })).2.dirty = true ∧
    (sparseRun { readOnly := true }).state.source.memory.rows = sparseSource.rows := by
  have hopen : MemorySource.ofRows 2 2 sparseSource.rows = .ok sparseSource := rfl
  obtain ⟨hsaved, hmarked, -, hfailed, -⟩ :=
    run_persists (sparseTable {}) { memory := sparseSource } MemberTable.empty hopen sparseSteps
  obtain ⟨-, -, -, -, hreadOnly⟩ :=
    run_persists (sparseTable { readOnly := true }) { memory := sparseSource } MemberTable.empty
      hopen sparseSteps
  have hrows : savedRows sparseSource.rows (sparseRun {}).events =
      [[.uint 1, .uint 20, .uint 3, .uint 41]] := rfl
  have hedited : editedSince (sparseRun {}).events = true := by decide
  obtain ⟨error, hwrite⟩ : ∃ error,
      ((sparseTable {}).writeOut ((sparseRun {}).state.refusing { flush := true })).1 =
        .error error := ⟨_, rfl⟩
  exact ⟨hsaved.trans hrows, hmarked.mpr hedited, (hfailed _ error hwrite).1, (hreadOnly rfl).1⟩

end Table

end DatasetGrid
