import DatasetGrid.Number.Notation
import DatasetGrid.Text.Blank
import DatasetGrid.Text.Utf8

/-!
# Cell values

What one cell of the table holds once the file's data are decoded: numbers, text, raw bytes, or
the parts of an array, sequence or compound.
-/
namespace DatasetGrid

open Number

inductive Cell where
  | null
  | int (n : Int64)
  | uint (n : UInt64)
  | real (x : Binary64)
  | text (s : String)
  | bytes (bs : List UInt8)
  | array (items : List Cell)
  | compound (items : List Cell)

instance : Inhabited Cell := ⟨.null⟩

namespace Cell

def ofInt32 (n : Int32) : Cell := .int n.toInt64

def ofSingle (x : Binary32) : Cell := .real x.toDouble

def isNull : Cell → Bool
  | .null => true
  | _ => false

def integer? : Cell → Option Int
  | .int n => some n.toInt
  | .uint n => some n.toNat
  | _ => none

/-- The value as a floating-point number, the nearest one for an integer. -/
def real? : Cell → Option Binary64
  | .real x => some x
  | .int n => some (.ofInt n.toInt)
  | .uint n => some (.ofInt n.toNat)
  | _ => none

def text? : Cell → Option String
  | .text s => some s
  | _ => none

def bytes? : Cell → Option (List UInt8)
  | .bytes bs => some bs
  | _ => none

def elements? : Cell → Option (List Cell)
  | .array items | .compound items => some items
  | _ => none

mutual

/-- Equality as values, where numbers compare as numbers: a NaN differs from itself. -/
def same : Cell → Cell → Bool
  | .null, .null => true
  | .int m, .int n => m = n
  | .uint m, .uint n => m = n
  | .real x, .real y => x.sameNumber y
  | .text s, .text t => s = t
  | .bytes bs, .bytes cs => bs = cs
  | .array items, .array others => sameAll items others
  | .compound items, .compound others => sameAll items others
  | _, _ => false

def sameAll : List Cell → List Cell → Bool
  | [], [] => true
  | x :: xs, y :: ys => x.same y && sameAll xs ys
  | _, _ => false

end

end Cell

/-- The text of stored bytes: they end at the first NUL, ill-formed stretches show as U+FFFD, and
blanks at the end are padding. -/
def storedText (bytes : List UInt8) : String :=
  .ofList (Text.trimRight (Text.Utf8.decode (bytes.takeWhile (· != 0))))

def nullText : String := "Null"

mutual

/-- The text of a value whose datatype is not known. -/
def Cell.plain : Cell → String
  | .null => nullText
  | .int n => .ofList (Text.signedDecimal n.toInt)
  | .uint n => .ofList (Text.decimal n.toNat)
  | .real x => NumberFormat.plain.write64 x
  | .text s => s
  | .bytes bs => storedText bs
  | .array items => ", ".intercalate (plainTexts items)
  | .compound items => "[" ++ ", ".intercalate (plainTexts items) ++ "]"

def plainTexts : List Cell → List String
  | [] => []
  | item :: rest => item.plain :: plainTexts rest

end

end DatasetGrid
