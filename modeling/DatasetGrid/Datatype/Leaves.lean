import DatasetGrid.Datatype.Basic

/-!
# The leaves of a compound

A compound flattens to its leaves in declaration order: nested compounds open up, everything else
is a leaf, arrays and sequences of compounds too. A leaf is named by the path to it.
-/
namespace DatasetGrid

/-- A leaf of a compound, with its path from the outermost compound down. -/
structure Leaf where
  path : String
  node : Nat
  type : Datatype

/-- The mark between the names of a path. -/
def pathSeparator : String := "->"

/-- The path of a member of a group; members at the top have their own name as path. -/
def memberPath (group name : String) : String :=
  if group.isEmpty then name else group ++ pathSeparator ++ name

namespace Datatype

mutual

def leavesAt (path : String) (node : Nat) : Datatype → List Leaf
  | .scalar type => [⟨path, node, .scalar type⟩]
  | .array base dims => [⟨path, node, .array base dims⟩]
  | .sequence base => [⟨path, node, .sequence base⟩]
  | .compound members => leavesUnder path members

def leavesUnder (group : String) : List (Member Datatype) → List Leaf
  | [] => []
  | member :: rest =>
    leavesAt (memberPath group member.name) member.node member.type ++ leavesUnder group rest

end

def leaves : Datatype → Except DatatypeError (List Leaf)
  | .compound members => .ok (leavesUnder "" members)
  | type => .error (.notCompound type.typeClass)

end Datatype

end DatasetGrid
