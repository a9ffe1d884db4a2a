/-!
# Datatypes of a dataset's fields

A datatype is a tree: a compound has named members, an array and a variable-length sequence have
one base. Scalars are the leaves, strings among them. Each member carries the number of its
datatype node, so that a selection can tell two members of equal datatypes apart; members that
carry one number share one node.
-/
namespace DatasetGrid

-- Powers are those of the core library in every module, whatever it imports.
attribute [local instance (2000)] instPowNat

structure IntegerType where
  size : Nat
  signed : Bool
  deriving DecidableEq

/-- The least and the greatest value, for integers of 1, 2, 4 and 8 bytes. -/
def IntegerType.range? (t : IntegerType) : Option (Int × Int) :=
  if t.size = 1 ∨ t.size = 2 ∨ t.size = 4 ∨ t.size = 8 then
    if t.signed then some (-2 ^ (8 * t.size - 1), 2 ^ (8 * t.size - 1) - 1)
    else some (0, 2 ^ (8 * t.size) - 1)
  else none

inductive StringLength where
  | fixed (size : Nat)
  | variable
  deriving DecidableEq

inductive ReferenceKind where
  | object
  | region
  deriving DecidableEq

structure EnumMember where
  name : String
  value : Int64
  deriving DecidableEq

/-- A datatype without parts. -/
inductive Scalar where
  | integer (type : IntegerType)
  | float (size : Nat)
  | char (signed : Bool)
  | string (length : StringLength)
  | enumeration (base : IntegerType) (members : List EnumMember)
  | bitfield (size : Nat)
  | blob (size : Nat) (tag : String)
  | reference (size : Nat) (kind : ReferenceKind)
  deriving DecidableEq

structure Member (α : Type) where
  name : String
  node : Nat
  type : α

inductive Datatype where
  | scalar (type : Scalar)
  | array (base : Datatype) (dims : List Nat)
  | sequence (base : Datatype)
  | compound (members : List (Member Datatype))

inductive DatatypeClass where
  | integer | float | char | string | enum | bitfield | blob | reference
  | array | sequence | compound
  deriving DecidableEq

def DatatypeClass.name : DatatypeClass → String
  | .integer => "integer"
  | .float => "float"
  | .char => "char"
  | .string => "string"
  | .enum => "enum"
  | .bitfield => "bitfield"
  | .blob => "opaque"
  | .reference => "reference"
  | .array => "array"
  | .sequence => "variable-length"
  | .compound => "compound"

inductive DatatypeError where
  | duplicateMember (name : String)
  | notCompound (found : DatatypeClass)
  deriving DecidableEq

def DatatypeError.message : DatatypeError → String
  | .duplicateMember name => s!"Duplicate compound member name '{name}'"
  | .notCompound found => s!"Expected a compound datatype, found {found.name}"

namespace Scalar

def typeClass : Scalar → DatatypeClass
  | .integer _ => .integer
  | .float _ => .float
  | .char _ => .char
  | .string _ => .string
  | .enumeration .. => .enum
  | .bitfield _ => .bitfield
  | .blob .. => .blob
  | .reference .. => .reference

/-- The bytes of one value, where the datatype fixes them. -/
def size? : Scalar → Option Nat
  | .integer type => some type.size
  | .float size | .bitfield size | .blob size _ | .reference size _ => some size
  | .char _ => some 1
  | .string (.fixed size) => some size
  | .string .variable => none
  | .enumeration base _ => some base.size

def isUnsigned : Scalar → Bool
  | .integer type => !type.signed
  | .char signed => !signed
  | .enumeration base _ => !base.signed
  | _ => false

def enumMembers : Scalar → List EnumMember
  | .enumeration _ members => members
  | _ => []

def description : Scalar → String
  | .integer type =>
    (if type.signed then "" else "unsigned ") ++ s!"{type.size * 8}-bit integer"
  | .float size => s!"{size * 8}-bit floating-point"
  | .char signed => if signed then "8-bit character" else "unsigned 8-bit character"
  | .string (.fixed size) => s!"string, length = {size}"
  | .string .variable => "string, length = variable"
  | .enumeration base members =>
    let names := members.map fun member => s!"{member.name}={member.value.toInt}"
    s!"{base.size * 8}-bit enum (" ++ ", ".intercalate names ++ ")"
  | .bitfield size => s!"{size * 8}-bit bitfield"
  | .blob size tag => s!"{size}-byte opaque, tag = {tag}"
  | .reference _ .object => "object reference"
  | .reference _ .region => "dataset region reference"

end Scalar

/-- How many machine words there are. Counts of elements and of tokens are kept in words. -/
def wordCount : Nat := 0x10000000000000000

/-- A sum or a product of words as a word: past the last one it begins again at zero. -/
def wrapped (n : Nat) : Nat :=
  n % wordCount

theorem wrapped_of_lt {n : Nat} (h : n < wordCount) : wrapped n = n :=
  Nat.mod_eq_of_lt h

def elementCount (dims : List Nat) : Nat :=
  dims.foldr (· * ·) 1

/-- The number of elements as it is computed, in a word. -/
def arrayOrder (dims : List Nat) : Nat :=
  dims.foldl (fun order dim => wrapped (order * dim)) 1

namespace Datatype

/-- The name that an earlier one of the list repeats, the first such. -/
def repeatedName? (seen : List String) : List String → Option String
  | [] => none
  | name :: rest => if name ∈ seen then some name else repeatedName? (name :: seen) rest

/-- Builds a compound, whose members have distinct names. -/
def compound? (members : List (Member Datatype)) : Except DatatypeError Datatype :=
  match repeatedName? [] (members.map (·.name)) with
  | some name => .error (.duplicateMember name)
  | none => .ok (.compound members)

def typeClass : Datatype → DatatypeClass
  | .scalar type => type.typeClass
  | .array .. => .array
  | .sequence _ => .sequence
  | .compound _ => .compound

mutual

/-- The bytes of one value, where the datatype fixes them. Sizes are exact numbers. -/
def size? : Datatype → Option Nat
  | .scalar type => type.size?
  | .array base dims => base.size?.map (· * elementCount dims)
  | .sequence _ => none
  | .compound members => totalSize? members

def totalSize? : List (Member Datatype) → Option Nat
  | [] => some 0
  | member :: rest =>
    match member.type.size?, totalSize? rest with
    | some size, some total => some (size + total)
    | _, _ => none

end

def isUnsigned : Datatype → Bool
  | .scalar type => type.isUnsigned
  | _ => false

def base? : Datatype → Option Datatype
  | .array base _ | .sequence base => some base
  | _ => none

def members : Datatype → List (Member Datatype)
  | .compound members => members
  | _ => []

def enumMembers : Datatype → List EnumMember
  | .scalar type => type.enumMembers
  | _ => []

def isCompound : Datatype → Bool
  | .compound _ => true
  | _ => false

def isString : Datatype → Bool
  | .scalar (.string _) => true
  | _ => false

/-- A variable-length string has two spellings: the string of variable length, and the
variable-length sequence of strings. -/
def isVarString : Datatype → Bool
  | .scalar (.string .variable) => true
  | .sequence base => base.isString
  | _ => false

def order : Datatype → Nat
  | .array _ dims => arrayOrder dims
  | _ => 1

def description : Datatype → String
  | .scalar type => type.description
  | .array base dims =>
    "array [" ++ "x".intercalate (dims.map toString) ++ "] of " ++ base.description
  | .sequence base => "variable-length of " ++ base.description
  | .compound members => "compound \x7b" ++ ", ".intercalate (members.map (·.name)) ++ "\x7d"

end Datatype

end DatasetGrid
