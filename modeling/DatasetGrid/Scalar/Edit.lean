import DatasetGrid.Scalar.Address
import DatasetGrid.Scalar.Bytes
import DatasetGrid.Scalar.Character
import DatasetGrid.Scalar.Enumeration
import DatasetGrid.Scalar.Float

/-!
# Editing and showing scalars

For each scalar datatype: the cell that an edited text gives, and the text of a stored cell.
-/
namespace DatasetGrid

open Number

/-- How values are shown: the format of floating-point numbers, and the converter for the names of
enumeration values, if names are wanted. -/
structure Display (σ : Type) where
  format : NumberFormat
  names : Option (Converter σ)

def Display.plain : Display Unit := ⟨.plain, none⟩

def Display.summary {σ : Type} (d : Display σ) : String :=
  let format := match d.format with
    | .plain => "Plain"
    | .scientific precision => "Scientific \x7b precision: " ++ toString precision ++ " \x7d"
    | .fixed decimals => "Fixed \x7b decimals: " ++ toString decimals ++ " \x7d"
  "RenderContext \x7b number_format: " ++ format ++ ", enum_names: " ++
    (if d.names.isSome then "true" else "false") ++ " \x7d"

def checkString : StringLength → String → Except Fault Unit
  | .fixed limit, text =>
    if limit < text.utf8ByteSize then .error (.stringTooLong (text.utf8ByteSize - limit))
    else .ok ()
  | .variable, _ => .ok ()

namespace Scalar

def parse (s : Scalar) (text : String) : Except Fault Cell :=
  match s with
  | .integer type => (parseInteger text type s.description).map (integerCell type.signed)
  | .float size => (parseFloat text size).map .real
  | .char signed => (parseCharacter signed text).map (integerCell signed)
  | .string length => (checkString length text).map fun _ => .text text
  | .enumeration base members =>
    (parseEnumeration base members text).map (integerCell base.signed)
  | .bitfield size | .blob size _ => (parseBytes size text).map .bytes
  | .reference size _ => (parseAddress size text).map fun address => .uint (UInt64.ofNat address)

def check (s : Scalar) (text : String) : Except Fault Unit :=
  match s with
  | .string length => checkString length text
  | s => (s.parse text).map fun _ => ()

def render {σ : Type} (d : Display σ) (s : Scalar) (value : Cell) : StateM σ String :=
  match s with
  | .integer type => pure (integerText type value)
  | .float size => pure (floatText d.format size value)
  | .char signed => pure (characterText signed value)
  | .string _ => pure value.plain
  | .enumeration base members => enumerationText d.names base members value
  | .bitfield _ => pure (bytesText ":" value)
  | .blob .. => pure (bytesText " " value)
  | .reference .. => pure (addressText value)

/-- The tokens that one value takes in a list: opaque data take one for each byte. -/
def tokens : Scalar → Nat
  | .blob size _ => max size 1
  | _ => 1

end Scalar

end DatasetGrid
