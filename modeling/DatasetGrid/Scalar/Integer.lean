import DatasetGrid.Cell
import DatasetGrid.Datatype.Basic
import DatasetGrid.Fault
import DatasetGrid.Text.Numeral

/-!
# Integer cells

An edit is a decimal numeral in the range of the type. A stored value shows in decimal; a negative
bit pattern in an unsigned member shows as the unsigned number of its bytes.
-/
namespace DatasetGrid

attribute [local instance (2000)] instPowNat

/-- The integer that a text gives. The size is checked first, then the numeral, the sign, and the
range; a numeral past 128 bits counts by its sign. `expected` names what was wanted. -/
def parseInteger (text : String) (type : IntegerType) (expected : String) : Except Fault Int :=
  match type.range? with
  | none => .error (.unsupportedSize type.size)
  | some (min, max) =>
    match Text.readInteger (Text.trim text.toList) with
    | .malformed => .error (.notNumber text expected)
    | .tooLarge => .error (.outOfRange text min max)
    | .tooSmall =>
      .error (if type.signed then .outOfRange text min max else .negativeUnsigned text)
    | .value n =>
      if !type.signed ∧ n < 0 then .error (.negativeUnsigned text)
      else if n < min ∨ max < n then .error (.outOfRange text min max)
      else .ok n

def integerCell (signed : Bool) (n : Int) : Cell :=
  if signed then .int (Int64.ofInt n) else .uint (UInt64.ofInt n)

/-- The text of an integer cell, `none` for any other. -/
def integerText? (type : IntegerType) : Cell → Option String
  | .int n =>
    if !type.signed ∧ n.toInt < 0 then
      some (.ofList (Text.decimal (n.toUInt64.toNat % 2 ^ (8 * min type.size 8))))
    else some (.ofList (Text.signedDecimal n.toInt))
  | .uint n => some (.ofList (Text.decimal n.toNat))
  | _ => none

def integerText (type : IntegerType) (value : Cell) : String :=
  (integerText? type value).getD value.plain

end DatasetGrid
