import DatasetGrid.EnumNames.Converter

/-!
# Names from the members of the datatype

A converter that keeps, for each open type, the members of its enumeration. Handles count up from
one and are never given out twice.
-/
namespace DatasetGrid

structure MemberTable where
  issued : Nat
  live : List (Handle × List EnumMember)

namespace MemberTable

def empty : MemberTable := ⟨0, []⟩

def openCount (t : MemberTable) : Nat :=
  t.live.length

def openType (type : Datatype) : StateM MemberTable (Except ConversionError Handle) := do
  match type with
  | .scalar (.enumeration _ members) =>
    let table ← get
    let handle : Handle := table.issued + 1
    set (MemberTable.mk (table.issued + 1) ((handle, members) :: table.live))
    return .ok handle
  | type => return .error (.notEnum type.typeClass)

/-- The name of the first member with the value. -/
def nameOf (handle : Handle) (value : Int64) :
    StateM MemberTable (Except ConversionError String) := do
  match (← get).live.lookup handle with
  | none => return .error (.invalidHandle handle)
  | some members =>
    match members.find? (·.value = value) with
    | none => return .error (.unknownValue value)
    | some member => return .ok member.name

def closeType (handle : Handle) : StateM MemberTable (Except ConversionError Unit) := do
  let table ← get
  match table.live.lookup handle with
  | none => return .error (.invalidHandle handle)
  | some _ =>
    set { table with live := table.live.filter (·.1 ≠ handle) }
    return .ok ()

def converter : Converter MemberTable := ⟨openType, nameOf, closeType⟩

end MemberTable

end DatasetGrid
