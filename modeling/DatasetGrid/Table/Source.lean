import DatasetGrid.Cell
import DatasetGrid.TableError

/-!
# Storage behind a table

A source holds rows of cells. A row repeats the selected fields `width` times; a cell is found by
row, field and repetition. Edits change the working rows until a flush makes them lasting.
-/
namespace DatasetGrid

class Source (σ : Type) where
  rowCount : σ → Nat
  width : σ → Nat
  value : σ → (row field repetition : Nat) → Except TableError Cell
  commit : σ → (row field repetition : Nat) → Cell → Except TableError σ
  flush : σ → Except TableError σ

/-- A source with all rows in memory, and a snapshot of them in place of a file. -/
structure MemorySource where
  fields : Nat
  width : Nat
  rows : List (List Cell)
  persisted : List (List Cell)

namespace MemorySource

def ofRows (fields width : Nat) (rows : List (List Cell)) : Except TableError MemorySource :=
  let expected := fields * max width 1
  match rows.zipIdx.find? (·.1.length ≠ expected) with
  | some (row, index) =>
    .error (.source s!"row {index} has {row.length} values, expected {expected}")
  | none => .ok ⟨fields, max width 1, rows, rows⟩

def offset (m : MemorySource) (row field repetition : Nat) : Except TableError Nat :=
  if field < m.fields ∧ repetition < m.width then .ok (repetition * m.fields + field)
  else .error (.source s!"no field {field} in column {repetition} of row {row}")

def value (m : MemorySource) (row field repetition : Nat) : Except TableError Cell := do
  let offset ← m.offset row field repetition
  match m.rows[row]?.bind (·[offset]?) with
  | some cell => .ok cell
  | none => .error (.source s!"row {row} out of range")

def commit (m : MemorySource) (row field repetition : Nat) (cell : Cell) :
    Except TableError MemorySource := do
  let offset ← m.offset row field repetition
  match m.rows[row]?.bind (·[offset]?) with
  | some _ => .ok { m with rows := m.rows.modify row (·.set offset cell) }
  | none => .error (.source s!"row {row} out of range")

def flush (m : MemorySource) : MemorySource :=
  { m with persisted := m.rows }

instance : Source MemorySource where
  rowCount m := m.rows.length
  width := MemorySource.width
  value := MemorySource.value
  commit := MemorySource.commit
  flush m := .ok m.flush

end MemorySource

/-- A memory source whose reads, commits and flushes may be refused, and that may report a shape
of its own. -/
structure GuardedSource where
  memory : MemorySource
  refusesRead : Bool := false
  refusesCommit : Bool := false
  refusesFlush : Bool := false
  reportedRows : Option Nat := none
  reportedWidth : Option Nat := none

instance : Source GuardedSource where
  rowCount g := g.reportedRows.getD g.memory.rows.length
  width g := g.reportedWidth.getD g.memory.width
  value g row field repetition :=
    if g.refusesRead then .error (.source "read refused")
    else g.memory.value row field repetition
  commit g row field repetition cell :=
    if g.refusesCommit then .error (.source "commit refused")
    else (g.memory.commit row field repetition cell).map fun memory => { g with memory }
  flush g :=
    if g.refusesFlush then .error (.source "flush refused")
    else .ok { g with memory := g.memory.flush }

end DatasetGrid
