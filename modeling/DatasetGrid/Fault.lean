/-!
# Why an edit is refused

A fault is the first rule that a proposed text breaks. A rejection is a fault at a cell, with the
text that was refused.
-/
namespace DatasetGrid

inductive Fault where
  | notNumber (text expected : String)
  | negativeUnsigned (text : String)
  | outOfRange (text : String) (min max : Int)
  | floatOverflow (text : String) (bits : Nat)
  | unsupportedSize (size : Nat)
  | stringTooLong (overage : Nat)
  | invalidCharacter (text : String)
  | unknownEnumValue (text : String)
  | malformedBytes (text : String) (expected : Nat)
  | elementCount (expected found : Nat)
  | element (index : Nat) (cause : Fault)
  | outOfBounds (rows columns : Nat)
  | readOnly
  | noEditor
  deriving DecidableEq

namespace Fault

/-- The innermost fault, inside all elements. -/
def root : Fault → Fault
  | .element _ cause => cause.root
  | fault => fault

def message : Fault → String
  | .notNumber text expected => s!"'{text}' is not a valid {expected}"
  | .negativeUnsigned text => s!"Invalid negative value for unsigned datatype. Value:\"{text}\""
  | .outOfRange text min max =>
    s!"Value out of range. Value:\"{text}\" (valid range {min} to {max})"
  | .floatOverflow text bits =>
    s!"Value out of range. Value:\"{text}\" overflows a {bits}-bit float"
  | .unsupportedSize size => s!"No validation logic for numerical data of size {size}"
  | .stringTooLong overage =>
    s!"string size larger than datatype size by {overage} " ++
      if overage > 1 then "bytes." else "byte."
  | .invalidCharacter text => s!"'{text}' is not a single character or character code"
  | .unknownEnumValue text => s!"'{text}' is not a member name or value of this enumeration"
  | .malformedBytes text expected => s!"'{text}' is not {expected} hexadecimal byte(s)"
  | .elementCount expected found =>
    s!"Number of data points {found} does not match expected {expected}"
  | .element index cause => s!"element {index}: {cause.message}"
  | .outOfBounds rows columns => s!"cell is outside the table ({rows} rows, {columns} columns)"
  | .readOnly => "the table is read-only"
  | .noEditor => "A proper validator wasn't found for this type of data. " ++
    "Writing this type of data will be disabled."

end Fault

structure Rejection where
  row : Nat
  column : Nat
  text : String
  cause : Fault
  deriving DecidableEq

def Rejection.message (r : Rejection) : String :=
  s!"Failed to update value at ({r.row}, {r.column}) to '{r.text}': {r.cause.message}"

end DatasetGrid
