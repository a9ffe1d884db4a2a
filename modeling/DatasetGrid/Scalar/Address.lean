import DatasetGrid.Scalar.Integer

/-!
# Reference cells

A reference is an unsigned address of at most 64 bits, entered in decimal, or in hexadecimal after
`0x`.
-/
namespace DatasetGrid

attribute [local instance (2000)] instPowNat

/-- The greatest address of a reference; the odd sizes have all 64 bits. -/
def addressLimit (size : Nat) : Nat :=
  match IntegerType.range? ⟨min size 8, false⟩ with
  | some (_, max) => max.toNat
  | none => 2 ^ (64 : Nat) - 1

def readAddress? : List Char → Option Nat
  | '0' :: 'x' :: digits | '0' :: 'X' :: digits => Text.readNatural? 16 digits
  | cs => Text.readNatural? 10 cs

def parseAddress (size : Nat) (text : String) : Except Fault Nat :=
  let trimmed := Text.trim text.toList
  let limit := addressLimit size
  match readAddress? trimmed with
  | some address => if address ≤ limit then .ok address else .error (.outOfRange text 0 limit)
  | none =>
    if trimmed.head? = some '-' then .error (.negativeUnsigned text)
    else if trimmed ≠ [] ∧ trimmed.all Char.isDigit then .error (.outOfRange text 0 limit)
    else .error (.notNumber text "reference address")

def addressText : Cell → String
  | .int n => .ofList (Text.decimal n.toUInt64.toNat)
  | .uint n => .ofList (Text.decimal n.toNat)
  | value => value.plain

end DatasetGrid
