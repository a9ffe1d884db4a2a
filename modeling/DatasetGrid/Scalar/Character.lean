import DatasetGrid.Scalar.Integer

/-!
# Character cells

A single character that is no digit stands for itself; anything else must be a character code.
Characters that an edit or a list would read differently show by their code.
-/
namespace DatasetGrid

/-- A numeral of one byte, where anything else is no character. -/
def parseCharacterCode (signed : Bool) (text : String) : Except Fault Int :=
  (parseInteger text ⟨1, signed⟩ "character code").mapError fun
    | .notNumber .. => .invalidCharacter text
    | fault => fault

def parseCharacter (signed : Bool) (text : String) : Except Fault Int :=
  match text.toList with
  | [c] =>
    if c.isDigit then parseCharacterCode signed text
    else if c.toNat ≤ (if signed then 0x7F else 0xFF) then .ok c.toNat
    else .error (.invalidCharacter text)
  | _ => parseCharacterCode signed text

/-- The code of a character cell; a signed one below zero has none. -/
def characterCode? (signed : Bool) : Cell → Option Nat
  | .int n =>
    if !signed then some (n.toUInt64.toNat % 256)
    else if 0 ≤ n.toInt then some n.toInt.toNat
    else none
  | .uint n => some n.toNat
  | _ => none

/-- Whether the character of a code shows as itself: graphic, and neither a digit nor a mark of
lists. -/
def showsAsItself (code : Nat) : Bool :=
  0x21 ≤ code && code ≤ 0x7E && !(Char.ofNat code).isDigit &&
    !(['(', ')', ',', '[', ']'].contains (Char.ofNat code))

def characterText (signed : Bool) (value : Cell) : String :=
  match characterCode? signed value with
  | some code =>
    if showsAsItself code then .ofList [Char.ofNat code]
    else if code < 256 then .ofList (Text.decimal code)
    else integerText ⟨1, signed⟩ value
  | none => integerText ⟨1, signed⟩ value

end DatasetGrid
