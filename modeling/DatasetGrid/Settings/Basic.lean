import DatasetGrid.Number.Notation

/-!
# Settings of a table view
-/
namespace DatasetGrid

open Number

structure Settings where
  convertEnumNames : Bool := false
  numberFormat : NumberFormat := .plain
  /-- The number of the first row in cell labels, zero or one. -/
  indexBase : Nat := 0
  readOnly : Bool := false
  deriving DecidableEq

inductive SettingsError where
  | unreadable
  | malformed
  | unwritable
  | invalidIndexBase (found : Nat)
  deriving DecidableEq

/-- The text of an error, where it has one of its own. -/
def SettingsError.message? : SettingsError → Option String
  | .invalidIndexBase found => some s!"Index base must be 0 or 1, found {found}"
  | _ => none

/-- The settings, unless their index base is neither zero nor one. -/
def Settings.checked (s : Settings) : Except SettingsError Settings :=
  if 1 < s.indexBase then .error (.invalidIndexBase s.indexBase) else .ok s

end DatasetGrid
