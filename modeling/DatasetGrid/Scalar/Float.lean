import DatasetGrid.Cell
import DatasetGrid.Fault
import DatasetGrid.Number.Reading

/-!
# Floating-point cells

An edit is a floating-point numeral, read in the precision of the member. A finite numeral may not
read as infinity; a text that spells `inf` may.
-/
namespace DatasetGrid

open Number

def spellsInfinity : List Char → Bool
  | [] => false
  | c :: rest =>
    "inf".toList.isPrefixOf ((c :: rest).map Char.toLower) || spellsInfinity rest

/-- The precision of a float member, for the sizes that are edited. -/
def floatLayout? : Nat → Option Layout
  | 4 => some .single
  | 8 => some .double
  | _ => none

def parseFloat (text : String) (size : Nat) : Except Fault Binary64 :=
  let trimmed := Text.trim text.toList
  match floatLayout? size with
  | none => .error (.unsupportedSize size)
  | some layout =>
    match Numeral.read? trimmed with
    | none => .error (.notNumber text s!"{size * 8}-bit floating-point")
    | some numeral =>
      if (numeral.round layout).isInfinite ∧ !spellsInfinity trimmed then
        .error (.floatOverflow text (size * 8))
      else .ok (.ofDatum (numeral.round layout))

/-- The text of a cell in a float member: a number in the table's format, in single precision for
members of four bytes. -/
def floatText (format : NumberFormat) (size : Nat) (value : Cell) : String :=
  match value with
  | .real x => if size = 4 then format.write32 x.toSingle else format.write64 x
  | .int n => format.write64 (.ofInt n.toInt)
  | .uint n => format.write64 (.ofInt n.toNat)
  | value => value.plain

end DatasetGrid
