import DatasetGrid.Toml.Value

/-!
# Trees of tables

A document names tables by paths, in headers and in dotted keys. Each table remembers how it came
to be, since that decides what may be added to it later: a table with a header of its own is closed
to a second header and to dotted keys, a table that a longer header implies may still get its own
header, and a table made by dotted keys takes more dotted keys but no header.
-/
namespace DatasetGrid.Toml

inductive Origin where
  | header
  | implied
  | dotted
  | inline
  deriving DecidableEq

inductive Node where
  | value (v : Value)
  | table (origin : Origin) (entries : List (String × Node))
  | tables (items : List (List (String × Node)))

abbrev Entries := List (String × Node)

mutual

def Node.toValue : Node → Value
  | .value v => v
  | .table _ entries => .record (recordOf entries)
  | .tables items => .list (recordsOf items)

def recordOf : List (String × Node) → List (String × Value)
  | [] => []
  | entry :: rest => (entry.1, entry.2.toValue) :: recordOf rest

def recordsOf : List (List (String × Node)) → List Value
  | [] => []
  | entries :: rest => .record (recordOf entries) :: recordsOf rest

end

namespace Entries

def replace (entries : Entries) (key : String) (node : Node) : Entries :=
  entries.map fun entry => if entry.1 = key then (key, node) else entry

/-- Changes the entries of the table at a path below a table, making the tables that are missing.
A path goes through an array of tables by its last one. Along dotted keys every table has to be
implied or dotted. -/
def alter (dotted : Bool) (change : Origin → Entries → Option Entries) :
    List String → Origin → Entries → Option Entries
  | [], origin, entries => change origin entries
  | key :: path, _, entries =>
    match entries.lookup key with
    | none =>
      let origin := if dotted then Origin.dotted else .implied
      (alter dotted change path origin []).map fun inner =>
        entries ++ [(key, .table origin inner)]
    | some (.value _) => none
    | some (.tables items) =>
      (alter dotted change path .header (items.getLast?.getD [])).map fun inner =>
        entries.replace key (.tables (items.dropLast ++ [inner]))
    | some (.table origin inner) =>
      if dotted ∧ origin ≠ .implied ∧ origin ≠ .dotted then none
      else
        (alter dotted change path origin inner).map fun inner =>
          entries.replace key (.table origin inner)

/-- Adds a value under a dotted key, whose last name has to be new in a table made by dotted keys
or, for a single name, in the table at hand. -/
def insert (path : List String) (key : String) (value : Value) (origin : Origin)
    (entries : Entries) : Option Entries :=
  alter true (fun origin entries =>
    if path ≠ [] ∧ origin ≠ .dotted then none
    else if (entries.lookup key).isSome then none
    else some (entries ++ [(key, .value value)])) path origin entries

def openTable (path : List String) (key : String) (entries : Entries) : Option Entries :=
  alter false (fun _ entries =>
    match entries.lookup key with
    | none => some (entries ++ [(key, .table .header [])])
    | some (.table .implied inner) => some (entries.replace key (.table .header inner))
    | some _ => none) path .header entries

def openItem (path : List String) (key : String) (entries : Entries) : Option Entries :=
  alter false (fun _ entries =>
    match entries.lookup key with
    | none => some (entries ++ [(key, .tables [[]])])
    | some (.tables items) => some (entries.replace key (.tables (items ++ [[]])))
    | some _ => none) path .header entries

end Entries

end DatasetGrid.Toml
