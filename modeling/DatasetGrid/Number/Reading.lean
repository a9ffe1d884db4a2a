import DatasetGrid.Number.Binary
import DatasetGrid.Number.Shortest

/-!
# Reading floating-point numerals

An optional sign, then `inf`, `infinity` or `nan` in any case, or digits with at most one point
and an optional exponent. A numeral reads as the nearest number of the layout.
-/
namespace DatasetGrid.Number

attribute [local instance (2000)] instPowNat

/-- What a numeral says, before it is rounded. -/
inductive Numeral where
  | nan
  | infinite (negative : Bool)
  | decimal (negative : Bool) (value : Decimal)
  deriving DecidableEq

def splitDigits (cs : List Char) : List Char × List Char :=
  (cs.takeWhile Char.isDigit, cs.dropWhile Char.isDigit)

def digitsValue (digits : List Char) : Nat :=
  Nat.ofDigitChars 10 digits 0

/-- Reads the exponent part up to the end; no text is no exponent. -/
def readExponent? : List Char → Option Int
  | [] => some 0
  | mark :: rest =>
    if mark = 'e' ∨ mark = 'E' then
      let digits := if rest.head? = some '-' ∨ rest.head? = some '+' then rest.tail else rest
      if digits ≠ [] ∧ digits.all Char.isDigit then
        some (if rest.head? = some '-' then -(digitsValue digits : Int) else digitsValue digits)
      else none
    else none

def readDecimal? (cs : List Char) : Option Decimal :=
  let (whole, afterWhole) := splitDigits cs
  let (decimals, rest) :=
    if afterWhole.head? = some '.' then splitDigits afterWhole.tail else ([], afterWhole)
  if whole ++ decimals = [] then none
  else
    (readExponent? rest).map fun exponent =>
      ⟨digitsValue (whole ++ decimals), exponent - decimals.length⟩

def readUnsigned? (negative : Bool) (cs : List Char) : Option Numeral :=
  let lower := cs.map Char.toLower
  if lower = "inf".toList ∨ lower = "infinity".toList then some (.infinite negative)
  else if lower = "nan".toList then some .nan
  else (readDecimal? cs).map (.decimal negative)

def Numeral.read? : List Char → Option Numeral
  | '-' :: rest => readUnsigned? true rest
  | '+' :: rest => readUnsigned? false rest
  | cs => readUnsigned? false cs

/-- The pattern nearest to a decimal. Beyond 400 digits on either side of the point the answer is
infinity or zero in every layout, whatever the digits. -/
def Layout.ofDecimal (l : Layout) (d : Decimal) : Nat :=
  if d.digits = 0 then 0
  else if 400 < digitCount d.digits + d.exponent then l.infinity
  else if digitCount d.digits + d.exponent < -400 then 0
  else l.ofRatio (d.digits * 10 ^ d.exponent.toNat) (10 ^ (-d.exponent).toNat)

def Numeral.round (l : Layout) : Numeral → Datum
  | .nan => .nan
  | .infinite negative => .infinite negative
  | .decimal negative value =>
    l.decode ((if negative then l.signBit else 0) + l.ofDecimal value)

example : Numeral.read? "-.5E+1".toList = some (.decimal true ⟨5, 0⟩) := by decide +kernel

example : Numeral.read? "1e".toList = none := by decide +kernel

example : (Numeral.decimal false ⟨17976931348623159, 292⟩).round .double = .infinite false := by
  decide +kernel

end DatasetGrid.Number
