import DatasetGrid.Editor.Edit
import DatasetGrid.Editor.Render
import DatasetGrid.EnumNames.MemberTable
import DatasetGrid.Header
import DatasetGrid.Settings.Basic
import DatasetGrid.Table.Source

/-!
# Tables over a compound dataset

A table shows the selected leaves of a compound as columns: column `c` is field `c % fields` of
repetition `c / fields`. Texts come from the editors; an edit is checked before it reaches the
source and stays in memory, the table being dirty, until it is written out.
-/
namespace DatasetGrid

/-- What stays the same while a table is open; `κ` is the state of the converter for names. -/
structure Table (κ : Type) where
  selection : Selection
  root : Editor
  headers : Headers
  settings : Settings
  converter : Converter κ

/-- What changes while a table is open. -/
structure TableState (σ κ : Type) where
  source : σ
  names : κ
  dirty : Bool

def errorText : String := "*ERROR*"

namespace Table

variable {σ κ : Type} [Source σ]

/-- Opens a table; the selection has to leave a column to show. -/
def ofSelection (selection : Selection) (source : σ) (settings : Settings)
    (converter : Converter κ) : Except TableError (Table κ) :=
  match Editor.ofCompound selection.scope selection.members with
  | .ok root =>
    .ok ⟨selection, root, Headers.ofSelection selection (Source.width source), settings, converter⟩
  | .error (.emptyMapping description) => .error (.invalidMapping description)
  | .error error => .error (.invalidMapping error.message)

/-- The selected leaves, one column each in every repetition. -/
def fieldCount (t : Table κ) : Nat :=
  t.root.columns

def columnCount (t : Table κ) (source : σ) : Nat :=
  Source.width source * t.fieldCount

def locate (t : Table κ) (column : Nat) : Nat × Nat :=
  (column % t.fieldCount, column / t.fieldCount)

def inBounds (t : Table κ) (source : σ) (row column : Nat) : Bool :=
  row < Source.rowCount source && column < t.columnCount source

def display (t : Table κ) : Display κ :=
  ⟨t.settings.numberFormat, if t.settings.convertEnumNames then some t.converter else none⟩

def displayText (t : Table κ) (source : σ) (row column : Nat) : StateM κ (Option String) :=
  if t.inBounds source row column then
    match Source.value source row (t.locate column).1 (t.locate column).2 with
    | .ok value => some <$> t.root.render t.display column value
    | .error _ => pure (some errorText)
  else pure none

/-- Checks an edit without applying it: the bounds, then whether the table may be edited, then the
text. -/
def check (t : Table κ) (source : σ) (row column : Nat) (text : String) : Except Rejection Unit :=
  let outcome :=
    if t.inBounds source row column then
      if t.settings.readOnly then .error .readOnly else t.root.check column text
    else .error (.outOfBounds (Source.rowCount source) (t.columnCount source))
  outcome.mapError fun cause => ⟨row, column, text, cause⟩

def cellLabel (t : Table κ) (source : σ) (row column : Nat) : Option String :=
  if t.inBounds source row column then
    (t.headers.get? column).map fun header =>
      s!"{row + t.settings.indexBase}, {header.path}[{(t.locate column).2}] =  "
  else none

/-- Reads an accepted text and stores the cell; the table is dirty from then on. -/
def store (t : Table κ) (s : TableState σ κ) (row column : Nat) (text : String) :
    Except TableError (TableState σ κ) := do
  let value ← (t.root.parse column text).mapError fun cause => .rejected ⟨row, column, text, cause⟩
  let source ← Source.commit s.source row (t.locate column).1 (t.locate column).2 value
  return { s with source, dirty := true }

/-- Checks and applies an edit in memory. The answer is false when the cell already shows the
text. -/
def setData (t : Table κ) (s : TableState σ κ) (row column : Nat) (text : String) :
    Except TableError Bool × TableState σ κ :=
  match t.check s.source row column text with
  | .error rejection => (.error (.rejected rejection), s)
  | .ok () =>
    let (shown, names) := t.displayText s.source row column |>.run s.names
    let s := { s with names }
    if shown = some text then (.ok false, s)
    else
      match t.store s row column text with
      | .error error => (.error error, s)
      | .ok s => (.ok true, s)

/-- Writes pending edits out. The answer is whether anything was written. -/
def writeOut (t : Table κ) (s : TableState σ κ) : Except TableError Bool × TableState σ κ :=
  if t.settings.readOnly || !s.dirty then (.ok false, s)
  else
    match Source.flush s.source with
    | .error error => (.error error, s)
    | .ok source => (.ok true, { s with source, dirty := false })

end Table

end DatasetGrid
