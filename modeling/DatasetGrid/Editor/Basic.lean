import DatasetGrid.ColumnMap
import DatasetGrid.Scalar.Edit

/-!
# Editors

Each member of a table has an editor for its values, built from the datatype. Arrays and sequences
own the editor of their element, compounds one editor for each visible member. A compound without
a visible leaf has nothing to edit: it gets an editor that refuses.
-/
namespace DatasetGrid

inductive Editor where
  | scalar (type : Scalar)
  | varString (base : StringLength)
  | array (base : Datatype) (dims : List Nat) (element : Editor)
  | sequence (base : Datatype) (element : Editor)
  | compound (members : List (Member Datatype)) (map : ColumnMap) (editors : List Editor)
  | refusing (type : Datatype)

inductive EditorError where
  | classMismatch (editor : String) (found : DatatypeClass)
  | emptyMapping (description : String)
  deriving DecidableEq

def EditorError.message : EditorError → String
  | .classMismatch editor found => s!"{editor} handler cannot be built for a {found.name} datatype"
  | .emptyMapping description => "invalid mapping of size 0 built for " ++ description

/-- The length of the strings of a variable-length sequence of strings. -/
def Datatype.stringLength? : Datatype → Option StringLength
  | .scalar (.string length) => some length
  | _ => none

namespace Editor

mutual

def build (scope : Scope) : Datatype → Editor
  | .scalar type => .scalar type
  | .array base dims => .array base dims (build .all base)
  | .sequence base =>
    match base.stringLength? with
    | some length => .varString length
    | none => .sequence base (build .all base)
  | .compound members =>
    let map := ColumnMap.build scope ((scope.visible members).map (·.type))
    if map.isEmpty then .refusing (.compound members)
    else .compound members map (buildVisible scope members)

def buildVisible (scope : Scope) : List (Member Datatype) → List Editor
  | [] => []
  | member :: rest =>
    if scope.shows member then build scope member.type :: buildVisible scope rest
    else buildVisible scope rest

end

theorem buildVisible_eq_map (scope : Scope) (members : List (Member Datatype)) :
    buildVisible scope members = (scope.visible members).map fun m => build scope m.type := by
  induction members with
  | nil => rfl
  | cons m rest ih =>
    by_cases h : scope.shows m <;> simp [buildVisible, Scope.visible, h] at ih ⊢ <;> exact ih

/-- The editor of a compound with at least one visible leaf. -/
def ofCompound (scope : Scope) (members : List (Member Datatype)) : Except EditorError Editor :=
  let map := ColumnMap.build scope ((scope.visible members).map (·.type))
  if map.isEmpty then .error (.emptyMapping (Datatype.compound members).description)
  else .ok (.compound members map (buildVisible scope members))

/-- The families of editors that can be asked for by name. -/
inductive Family where
  | numeric | string | char | enum | byte | reference | container | compound
  deriving DecidableEq

def Family.name : Family → String
  | .numeric => "numeric"
  | .string => "string"
  | .char => "char"
  | .enum => "enum"
  | .byte => "byte"
  | .reference => "reference"
  | .container => "container"
  | .compound => "compound"

/-- An editor of the wanted family for a datatype, refused for datatypes of other classes. -/
def ofFamily (family : Family) (scope : Scope) (type : Datatype) : Except EditorError Editor :=
  match family, type with
  | .numeric, .scalar (.integer t) => .ok (.scalar (.integer t))
  | .numeric, .scalar (.float size) => .ok (.scalar (.float size))
  | .string, .scalar (.string length) => .ok (.scalar (.string length))
  | .string, .sequence (.scalar (.string length)) => .ok (.varString length)
  | .char, .scalar (.char signed) => .ok (.scalar (.char signed))
  | .enum, .scalar (.enumeration base members) => .ok (.scalar (.enumeration base members))
  | .byte, .scalar (.bitfield size) => .ok (.scalar (.bitfield size))
  | .byte, .scalar (.blob size tag) => .ok (.scalar (.blob size tag))
  | .reference, .scalar (.reference size kind) => .ok (.scalar (.reference size kind))
  | .container, .array base dims => .ok (.array base dims (build .all base))
  | .container, .sequence base => .ok (.sequence base (build .all base))
  | .compound, .compound members => ofCompound scope members
  | family, type => .error (.classMismatch family.name type.typeClass)

def datatype : Editor → Datatype
  | .scalar type => .scalar type
  | .varString base => .sequence (.scalar (.string base))
  | .array base dims _ => .array base dims
  | .sequence base _ => .sequence base
  | .compound members _ _ => .compound members
  | .refusing type => type

def kindName : Editor → String
  | .scalar type => match type with
    | .integer _ | .float _ => "numeric"
    | type => type.typeClass.name
  | .varString _ => "string"
  | .array .. => "array"
  | .sequence .. => "variable-length"
  | .compound .. => "compound"
  | .refusing _ => "default"

def columns : Editor → Nat
  | .compound _ map _ => map.size
  | _ => 1

def members : Editor → List Editor
  | .compound _ _ editors => editors
  | _ => []

def columnMap? : Editor → Option ColumnMap
  | .compound _ map _ => some map
  | _ => none

/-- The member editor that owns a column, with the column relative to it. -/
def memberAt? : Editor → Nat → Option (Editor × Nat)
  | .compound _ map editors, column =>
    (map.locate? column).bind fun place => editors[place.1]?.map fun editor => (editor, place.2)
  | _, _ => none

end Editor

end DatasetGrid
