import DatasetGrid.Datatype.Basic
import DatasetGrid.Fault

/-!
# Why a table cannot be built or an operation on it fails
-/
namespace DatasetGrid

inductive TableError where
  | datatype (error : DatatypeError)
  | selectionLength (expected actual : Nat)
  | invalidMapping (description : String)
  | source (text : String)
  | rejected (rejection : Rejection)
  deriving DecidableEq

def TableError.message : TableError → String
  | .datatype error => "Datatype error: " ++ error.message
  | .selectionLength expected actual =>
    s!"Selection has {actual} flags but the compound has {expected} leaf members"
  | .invalidMapping description => "Invalid column mapping of size 0 built for " ++ description
  | .source text => "Data source error: " ++ text
  | .rejected rejection => rejection.message

end DatasetGrid
