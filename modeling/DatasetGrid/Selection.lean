import DatasetGrid.Datatype.Leaves
import DatasetGrid.TableError

/-!
# Selection of members

A selection has one flag for each leaf of a compound. Below the top, a compound's members are
filtered by the nodes of the selected leaves: nested compounds always stay, since they only group
the leaves inside them.
-/
namespace DatasetGrid

/-- Which members of a compound take part: those with a chosen node, or all, as inside an array or
a sequence, whose value takes one column. -/
inductive Scope where
  | all
  | only (nodes : List Nat)

namespace Scope

def shows : Scope → Member Datatype → Bool
  | .all, _ => true
  | .only nodes, member => member.type.isCompound || nodes.contains member.node

def visible (scope : Scope) (members : List (Member Datatype)) : List (Member Datatype) :=
  members.filter scope.shows

end Scope

/-- A compound with one flag for each of its leaves. -/
structure Selection where
  members : List (Member Datatype)
  flags : List Bool
  flags_length : flags.length = (Datatype.leavesUnder "" members).length

namespace Selection

def compound (s : Selection) : Datatype :=
  .compound s.members

def leaves (s : Selection) : List Leaf :=
  Datatype.leavesUnder "" s.members

def ofFlags (type : Datatype) (flags : List Bool) : Except TableError Selection :=
  match type with
  | .compound members =>
    if h : flags.length = (Datatype.leavesUnder "" members).length then .ok ⟨members, flags, h⟩
    else .error (.selectionLength (Datatype.leavesUnder "" members).length flags.length)
  | type => .error (.datatype (.notCompound type.typeClass))

def all (type : Datatype) : Except TableError Selection :=
  match type with
  | .compound members =>
    .ok ⟨members, List.replicate (Datatype.leavesUnder "" members).length true, by simp⟩
  | type => .error (.datatype (.notCompound type.typeClass))

def selected (s : Selection) : List Leaf :=
  ((s.leaves.zip s.flags).filter (·.2)).map (·.1)

def isSelected (s : Selection) (index : Nat) : Bool :=
  s.flags.getD index false

def paths (s : Selection) : List String :=
  s.selected.map (·.path)

def scope (s : Selection) : Scope :=
  .only (s.selected.map (·.node))

def visible (s : Selection) : List (Member Datatype) :=
  s.scope.visible s.members

end Selection

end DatasetGrid
