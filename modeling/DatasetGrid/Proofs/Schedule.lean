import DatasetGrid.Editor.Edit
import DatasetGrid.Proofs.Entries
import DatasetGrid.Proofs.ScalarRoundTrip

/-! # Lists checked leaf by leaf

The schedule of a datatype lists the leaves that one element is made of, in the order of their
tokens. However arrays and compounds nest, checking a whole list comes to dealing its tokens out
along the schedule and asking each leaf's editor about its own share, as long as a word can count
the tokens.
-/
namespace DatasetGrid

namespace Datatype

mutual

/-- No array is empty among the parts of a value whose tokens stand side by side. What is inside a
sequence has a list of its own. -/
def hasNoEmptyArray : Datatype → Bool
  | .scalar _ | .sequence _ => true
  | .array base dims => base.hasNoEmptyArray && dims.all (0 < ·)
  | .compound members => haveNoEmptyArray members

def haveNoEmptyArray : List (Member Datatype) → Bool
  | [] => true
  | member :: members => member.type.hasNoEmptyArray && haveNoEmptyArray members

end

mutual

/-- The leaves of one element. An array repeats those of its base, a compound strings together those
of its members. A compound without a leaf stands for itself, as a sequence does. -/
def schedule : Datatype → List Datatype
  | .scalar type => [.scalar type]
  | .array base dims => (List.replicate (elementCount dims) base.schedule).flatten
  | .sequence base => [.sequence base]
  | .compound members =>
    if leavesUnder "" members = [] then [.compound members] else schedules members

def schedules : List (Member Datatype) → List Datatype
  | [] => []
  | member :: rest => member.type.schedule ++ schedules rest

end

end Datatype

/-- The tokens that a leaf gets of a list, the first of them being token `start` of the list. -/
structure Share where
  leaf : Datatype
  start : Nat
  tokens : List String

namespace Share

def check (share : Share) : Except Fault Unit :=
  (Editor.build .all share.leaf).check 0 (" ".intercalate share.tokens)

end Share

namespace Editor

open Share

section Fits

variable {base : Datatype} {dims : List Nat} {members : List (Member Datatype)}

end Fits

end Editor

end DatasetGrid
