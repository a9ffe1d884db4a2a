import DatasetGrid.Selection

/-!
# Column headers

A header names a column by the path of its leaf, split at the last separator into the enclosing
group and the leaf's own name. The label of an array of compounds also lists the compound's leaves.
-/
namespace DatasetGrid

structure Header where
  path : String
  group : String
  label : String
  deriving DecidableEq

/-- What stands before and after the last path separator. -/
def splitLast? : List Char → Option (List Char × List Char)
  | [] => none
  | c :: rest =>
    match splitLast? rest with
    | some (before, after) => some (c :: before, after)
    | none => if c = '-' ∧ rest.head? = some '>' then some ([], rest.tail) else none

namespace Header

/-- The leaves of the compound that an array's elements are, for the label. -/
def elementList : Datatype → String
  | .array (.compound members) _ =>
    "\n\n[ " ++ ", ".intercalate ((Datatype.leavesUnder "" members).map (·.path)) ++ " ]"
  | _ => ""

def ofLeaf (leaf : Leaf) : Header :=
  match splitLast? leaf.path.toList with
  | some (group, name) =>
    ⟨leaf.path, .ofList group, .ofList name ++ elementList leaf.type⟩
  | none => ⟨leaf.path, "", leaf.path ++ elementList leaf.type⟩

/-- The first line of the label. -/
def shortName (h : Header) : String :=
  .ofList (h.label.toList.takeWhile (· ≠ '\n'))

end Header

structure Headers where
  columns : List Header
  fields : Nat
  deriving DecidableEq

namespace Headers

def ofSelection (s : Selection) (width : Nat) : Headers :=
  ⟨(List.replicate (max width 1) (s.selected.map Header.ofLeaf)).flatten, s.selected.length⟩

def size (h : Headers) : Nat :=
  h.columns.length

def get? (h : Headers) (column : Nat) : Option Header :=
  h.columns[column]?

def fieldLabels (h : Headers) : List String :=
  (h.columns.take h.fields).map (·.label)

end Headers

end DatasetGrid
