import DatasetGrid.Selection

/-!
# Columns of a compound

A compound spreads over one column for each visible leaf, but keeps one editor for each member of
its own: the leaves of a nested compound share that compound's editor. The map gives, for each
column, the member it belongs to and the first column of that member's group. A member without a
visible leaf takes no column and still counts.
-/
namespace DatasetGrid

/-- The member that a column belongs to, and the first column of its group. -/
structure Slot where
  member : Nat
  start : Nat
  deriving DecidableEq

structure ColumnMap where
  slots : List Slot
  memberCount : Nat
  deriving DecidableEq

namespace ColumnMap

mutual

/-- One copy of the slot for each visible leaf. -/
def slotsAt (scope : Scope) (slot : Slot) : Datatype → List Slot
  | .scalar _ | .array .. | .sequence _ => [slot]
  | .compound members => slotsUnder scope slot members

def slotsUnder (scope : Scope) (slot : Slot) : List (Member Datatype) → List Slot
  | [] => []
  | member :: rest =>
    (if scope.shows member then slotsAt scope slot member.type else []) ++
      slotsUnder scope slot rest

end

/-- The map of the members from number `member` on, the first of them at column `start`. Past the
last member the number is the count of all. -/
def walk (scope : Scope) (member start : Nat) : List Datatype → ColumnMap
  | [] => ⟨[], member⟩
  | type :: rest =>
    let group := slotsAt scope ⟨member, start⟩ type
    let later := walk scope (member + 1) (start + group.length) rest
    { later with slots := group ++ later.slots }

def build (scope : Scope) (members : List Datatype) : ColumnMap :=
  walk scope 0 0 members

def size (m : ColumnMap) : Nat :=
  m.slots.length

def isEmpty (m : ColumnMap) : Bool :=
  m.slots.isEmpty

def slot? (m : ColumnMap) (column : Nat) : Option Slot :=
  m.slots[column]?

/-- The column counted from the start of its group. -/
def relative? (m : ColumnMap) (column : Nat) : Option Nat :=
  (m.slot? column).map (column - ·.start)

/-- The member that owns a column and the column relative to it. Columns past the last begin again
at the first, as the fields of a dataset repeat. -/
def locate? (m : ColumnMap) (column : Nat) : Option (Nat × Nat) :=
  let cell := column % m.size
  (m.slot? cell).map fun slot => (slot.member, cell - slot.start)

def toMembers (m : ColumnMap) : List (Nat × Nat) :=
  m.slots.mapIdx fun column slot => (column, slot.member)

def toStarts (m : ColumnMap) : List (Nat × Nat) :=
  m.slots.mapIdx fun column slot => (column, slot.start)

end ColumnMap

end DatasetGrid
