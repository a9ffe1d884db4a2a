import DatasetGrid.EnumNames.Converter
import DatasetGrid.Scalar.Integer

/-!
# Enumeration cells

An edit names a member, or gives a value in the range of the underlying integer. A stored value
shows by its member's name where names are wanted and the converter finds one, and as the integer
otherwise.
-/
namespace DatasetGrid

attribute [local instance (2000)] instPowNat

def parseEnumeration (base : IntegerType) (members : List EnumMember) (text : String) :
    Except Fault Int :=
  match members.find? (·.name.toList = Text.trim text.toList) with
  | some member => .ok member.value.toInt
  | none =>
    (parseInteger text base "enum value").mapError fun
      | .notNumber .. => .unknownEnumValue text
      | fault => fault

/-- The value to look up. An unsigned value past the signed 64-bit range has none. -/
def enumerationKey? : Cell → Option Int64
  | .int n => some n
  | .uint n => if n.toNat < 2 ^ (63 : Nat) then some n.toInt64 else none
  | _ => none

def enumerationText {σ : Type} (names : Option (Converter σ)) (base : IntegerType)
    (members : List EnumMember) (value : Cell) : StateM σ String := do
  match names, enumerationKey? value with
  | some converter, some key =>
    match ← converter.nameOfValue (.scalar (.enumeration base members)) key with
    | .ok name => return name
    | .error _ => return integerText base value
  | _, _ => return integerText base value

end DatasetGrid
