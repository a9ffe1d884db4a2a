import DatasetGrid.Datatype.Basic

/-!
# From enumeration values to names

A converter answers for an open type: a type is opened, asked for the name of a value, and closed.
`withOpen` brackets what is done with the open type, so that each opened type is closed once.
-/
namespace DatasetGrid

/-- The number of an open type. -/
abbrev Handle := Int

inductive ConversionError where
  | notEnum (found : DatatypeClass)
  | invalidHandle (handle : Handle)
  | unknownValue (value : Int64)
  | native (text : String)
  deriving DecidableEq

def ConversionError.message : ConversionError → String
  | .notEnum found => s!"Cannot convert values of a {found.name} datatype to enum names"
  | .invalidHandle handle => s!"Invalid or closed type handle {handle}"
  | .unknownValue value => s!"No enum member has value {value.toInt}"
  | .native text => "Native type conversion failed: " ++ text

/-- The three services of a converter with state `σ`; each may fail. -/
structure Converter (σ : Type) where
  openType : Datatype → StateM σ (Except ConversionError Handle)
  nameOf : Handle → Int64 → StateM σ (Except ConversionError String)
  closeType : Handle → StateM σ (Except ConversionError Unit)

namespace Converter

/-- Runs `use` on the type, opened before and closed afterwards. A failure to close is of no
account. -/
def withOpen {σ α : Type} (c : Converter σ) (type : Datatype) (use : Handle → StateM σ α) :
    StateM σ (Except ConversionError α) := do
  match ← c.openType type with
  | .error error => return .error error
  | .ok handle =>
    let result ← use handle
    let _ ← c.closeType handle
    return .ok result

/-- The name of one value, by a type opened for it alone. -/
def nameOfValue {σ : Type} (c : Converter σ) (type : Datatype) (value : Int64) :
    StateM σ (Except ConversionError String) := do
  match ← c.withOpen type (c.nameOf · value) with
  | .error error => return .error error
  | .ok name => return name

end Converter

def openTypeText (handle : Handle) : String :=
  "OpenType \x7b handle: TypeHandle(" ++ toString handle ++ ") \x7d"

end DatasetGrid
