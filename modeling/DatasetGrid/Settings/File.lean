import DatasetGrid.Settings.Basic
import DatasetGrid.Text.Utf8
import DatasetGrid.Toml.Document

/-!
# Settings as text

Settings are written as a document and read from one. Missing entries keep their defaults, unknown
ones are ignored, and an entry of the wrong type makes the whole text malformed.
-/
namespace DatasetGrid

attribute [local instance (2000)] instPowNat

open Number Toml

/-- An entry by its name: the default if it is missing, none if it has the wrong type. -/
def settingOf {α : Type} (entries : List (String × Value)) (name : String) (default : α)
    (read : Value → Option α) : Option α :=
  match entries.lookup name with
  | none => some default
  | some value => read value

namespace Settings

def ofEntries? (entries : List (String × Value)) : Option Settings := do
  let convertEnumNames ← settingOf entries "convert_enum_names" false Value.boolean?
  let numberFormat ← settingOf entries "number_format" .plain NumberFormat.ofValue?
  let indexBase ← settingOf entries "index_base" 0 Value.count?
  let readOnly ← settingOf entries "read_only" false Value.boolean?
  return ⟨convertEnumNames, numberFormat, indexBase, readOnly⟩

def ofText (text : String) : Except SettingsError Settings :=
  match (read? text.toList).bind ofEntries? with
  | none => .error .malformed
  | some settings => settings.checked

/-- The settings of a file with the content, none if there is no such file. -/
def ofFile (content : Option (List UInt8)) : Except SettingsError Settings :=
  match content.bind Text.Utf8.decode? with
  | none => .error .unreadable
  | some cs => ofText (.ofList cs)

def formatLines : NumberFormat → String
  | .plain => "kind = \"plain\"\n"
  | .scientific precision => "kind = \"scientific\"\nprecision = " ++ toString precision ++ "\n"
  | .fixed decimals => "kind = \"fixed\"\ndecimals = " ++ toString decimals ++ "\n"

/-- Whether the counts can be written: integers of a document have 64 bits with a sign. -/
def isWritable (s : Settings) : Bool :=
  match s.numberFormat with
  | .plain => true
  | .scientific count | .fixed count => count < 2 ^ (63 : Nat)

def text (s : Settings) : String :=
  "convert_enum_names = " ++ toString s.convertEnumNames ++ "\n" ++
  "index_base = " ++ toString s.indexBase ++ "\n" ++
  "read_only = " ++ toString s.readOnly ++ "\n\n" ++
  "[number_format]\n" ++ formatLines s.numberFormat

def toText (s : Settings) : Except SettingsError String := do
  let s ← s.checked
  if s.isWritable then .ok s.text else .error .unwritable

/-- The content of a file that the settings are saved in. -/
def toFile (s : Settings) : Except SettingsError (List UInt8) := do
  return (← s.toText).toList.flatMap String.utf8EncodeChar

end Settings

end DatasetGrid
