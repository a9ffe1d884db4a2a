import DatasetGrid.Number.Shortest

/-!
# Written forms of binary numbers

Three notations: the shortest digits without an exponent, a fixed count of decimals, and one digit
before the point with an exponent. The last two round the exact value, a half to the even digit.
-/
namespace DatasetGrid.Number

attribute [local instance (2000)] instPowNat

inductive NumberFormat where
  | plain
  | scientific (precision : Nat)
  | fixed (decimals : Nat)
  deriving DecidableEq

instance : Inhabited NumberFormat := ⟨.plain⟩

/-- The digits with a point before the last `places` of them, filled with zeros on the left up to
one digit before the point. -/
def withPoint (digits : List Char) (places : Nat) : List Char :=
  if places = 0 then digits
  else
    let filled := List.replicate (places + 1 - digits.length) '0' ++ digits
    filled.take (filled.length - places) ++ '.' :: filled.drop (filled.length - places)

def Decimal.text (d : Decimal) : List Char :=
  withPoint (Text.decimal (d.digits * 10 ^ d.exponent.toNat)) (-d.exponent).toNat

def fixedText (num den decimals : Nat) : List Char :=
  withPoint (Text.decimal (nearest (num * 10 ^ decimals) den)) decimals

/-- The ratio with one digit before the point and `precision` after it. Where rounding reaches the
next power of ten, the exponent grows by one. -/
def scientificText (num den precision : Nat) : List Char :=
  if num = 0 then withPoint (Text.decimal 0) precision ++ ['e', '0']
  else
    let exponent := magnitude num den - 1
    let ratio := unscale10 num den (exponent - precision)
    let digits := nearest ratio.1 ratio.2
    if digits = 10 ^ (precision + 1) then
      withPoint (Text.decimal (10 ^ precision)) precision ++
        'e' :: Text.signedDecimal (exponent + 1)
    else withPoint (Text.decimal digits) precision ++ 'e' :: Text.signedDecimal exponent

/-- The most digits behind the point that can be printed. -/
def largestCount : Nat := 65535

namespace NumberFormat

/-- Counts past the largest can be set, but a number cannot be printed with them. -/
def isPrintable : NumberFormat → Bool
  | .plain => true
  | .scientific count | .fixed count => count ≤ largestCount

/-- The digits of a finite magnitude; only plain notation depends on the layout. -/
def magnitudeText (f : NumberFormat) (l : Layout) (significand : Nat) (power : Int) : List Char :=
  let num := significand * 2 ^ power.toNat
  let den := 2 ^ (-power).toNat
  match f with
  | .plain => if significand = 0 then ['0'] else (l.interval significand power).shortest.text
  | .fixed decimals => fixedText num den decimals
  | .scientific precision => scientificText num den precision

def text (f : NumberFormat) (l : Layout) : Datum → List Char
  | .nan => "NaN".toList
  | .infinite negative => (if negative then ['-'] else []) ++ "inf".toList
  | .finite negative significand power =>
    (if negative then ['-'] else []) ++ f.magnitudeText l significand power

/-- The text of a number. In a format that cannot be printed the program stops, and there is none. -/
def write64 (f : NumberFormat) (x : Binary64) : String :=
  if f.isPrintable then .ofList (f.text .double x.datum) else ""

def write32 (f : NumberFormat) (x : Binary32) : String :=
  if f.isPrintable then .ofList (f.text .single x.datum) else ""

end NumberFormat

example : fixedText 25 10 0 = ['2'] := by decide +kernel

example : scientificText 1500 1 3 = "1.500e3".toList := by decide +kernel

example : scientificText 9996 1 2 = "1.00e4".toList := by decide +kernel

end DatasetGrid.Number
