import DatasetGrid.Number.Reading
import DatasetGrid.Toml.Value

/-!
# Values without quotes

Truth values, integers, floating-point numbers, and dates and times.
-/
namespace DatasetGrid.Toml

attribute [local instance (2000)] instPowNat

open Number Text

def isKeyChar (c : Char) : Bool :=
  c.isAlphanum || c = '_' || c = '-'

def isBareChar (c : Char) : Bool :=
  isKeyChar c || c = '+' || c = '.' || c = ':'

/-- The digits of a run in which single underscores may stand between digits. -/
def grouped? (isDigit : Char → Bool) : List Char → Option (List Char)
  | [] => none
  | [c] => if isDigit c then some [c] else none
  | c :: d :: rest =>
    if isDigit c then
      (if d = '_' then grouped? isDigit rest else grouped? isDigit (d :: rest)).map (c :: ·)
    else none

def word? (n : Int) : Option Int :=
  if -2 ^ (63 : Nat) ≤ n ∧ n < 2 ^ (63 : Nat) then some n else none

def readRadix? (radix : Nat) (cs : List Char) : Option Int := do
  let digits ← grouped? (fun c => (digitOf radix c).isSome) cs
  word? (digits.foldl (fun n c => n * radix + ((digitOf radix c).getD 0 : Nat)) (0 : Int))

/-- The digits of a decimal number, without a zero in front. -/
def wholeDigits? (cs : List Char) : Option (List Char) := do
  let digits ← grouped? Char.isDigit cs
  if digits.head? = some '0' ∧ digits ≠ ['0'] then none else some digits

def splitSign (cs : List Char) : Bool × List Char :=
  if cs.head? = some '-' then (true, cs.tail)
  else if cs.head? = some '+' then (false, cs.tail)
  else (false, cs)

def readDecimalInteger? (cs : List Char) : Option Int := do
  let (negative, digits) := splitSign cs
  let digits ← wholeDigits? digits
  word? (if negative then -(digitsValue digits : Int) else digitsValue digits)

def readInteger? : List Char → Option Int
  | '0' :: 'x' :: digits => readRadix? 16 digits
  | '0' :: 'o' :: digits => readRadix? 8 digits
  | '0' :: 'b' :: digits => readRadix? 2 digits
  | cs => readDecimalInteger? cs

/-- Whether a text is an exponent part, without its mark. -/
def isExponent (cs : List Char) : Bool :=
  (grouped? Char.isDigit (splitSign cs).2).isSome

/-- Whether a text is a floating-point number. One too large for double precision is none, unless
it is negative. -/
def isReal (cs : List Char) : Bool :=
  let (negative, magnitude) := splitSign cs
  if magnitude = "inf".toList ∨ magnitude = "nan".toList then true
  else
    let isMark (c : Char) : Bool := c = 'e' || c = 'E'
    let mantissa := magnitude.takeWhile (!isMark ·)
    let exponent := magnitude.dropWhile (!isMark ·)
    let whole := mantissa.takeWhile (· ≠ '.')
    let decimals := mantissa.dropWhile (· ≠ '.')
    (wholeDigits? whole).isSome &&
      (decimals.isEmpty || (grouped? Char.isDigit decimals.tail).isSome) &&
      (exponent.isEmpty || isExponent exponent.tail) &&
      !(decimals.isEmpty && exponent.isEmpty) &&
      (negative ||
        match Numeral.read? (magnitude.filter (· ≠ '_')) with
        | some numeral => numeral.round .double ≠ .infinite false
        | none => false)

/-- The number that exactly `count` leading digits give, and the text after them. -/
def fixedDigits? (count : Nat) (cs : List Char) : Option (Nat × List Char) :=
  let digits := cs.take count
  if digits.length = count ∧ digits.all Char.isDigit then
    some (digitsValue digits, cs.drop count)
  else none

def drop? (c : Char) (cs : List Char) : Option (List Char) :=
  if cs.head? = some c then some cs.tail else none

def daysInMonth (year month : Nat) : Nat :=
  if month = 2 then
    if year % 4 = 0 ∧ (year % 100 ≠ 0 ∨ year % 400 = 0) then 29 else 28
  else if month = 4 ∨ month = 6 ∨ month = 9 ∨ month = 11 then 30
  else 31

def readDate? (cs : List Char) : Option (List Char) := do
  let (year, cs) ← fixedDigits? 4 cs
  let (month, cs) ← fixedDigits? 2 (← drop? '-' cs)
  let (day, cs) ← fixedDigits? 2 (← drop? '-' cs)
  if 1 ≤ month ∧ month ≤ 12 ∧ 1 ≤ day ∧ day ≤ daysInMonth year month then some cs else none

/-- Reads a time of day with seconds, of which a minute may have 61. -/
def readTime? (cs : List Char) : Option (List Char) := do
  let (hour, cs) ← fixedDigits? 2 cs
  let (minute, cs) ← fixedDigits? 2 (← drop? ':' cs)
  let (second, cs) ← fixedDigits? 2 (← drop? ':' cs)
  if 23 < hour ∨ 59 < minute ∨ 60 < second then none
  else if cs.head? = some '.' then
    let digits := cs.tail.takeWhile Char.isDigit
    if digits = [] then none else some (cs.tail.dropWhile Char.isDigit)
  else some cs

def isOffset : List Char → Bool
  | [] | ['Z'] | ['z'] => true
  | sign :: cs =>
    (sign = '+' || sign = '-') &&
      match (do
        let (hour, cs) ← fixedDigits? 2 cs
        let (minute, cs) ← fixedDigits? 2 (← drop? ':' cs)
        return (hour, minute, cs)) with
      | some (hour, minute, rest) => hour ≤ 23 && minute ≤ 59 && rest.isEmpty
      | none => false

def isOffsetTime (cs : List Char) : Bool :=
  match readTime? cs with
  | some rest => isOffset rest
  | none => false

/-- Whether a text is a date and time in one piece, or a time of day. -/
def isMoment (cs : List Char) : Bool :=
  match readDate? cs with
  | some [] => true
  | some (mark :: rest) => (mark = 'T' || mark = 't') && isOffsetTime rest
  | none => readTime? cs = some []

def bareValue? (cs : List Char) : Option Value :=
  if cs = "true".toList then some (.boolean true)
  else if cs = "false".toList then some (.boolean false)
  else
    match readInteger? cs with
    | some n => some (.integer n)
    | none => if isReal cs then some .real else if isMoment cs then some .moment else none

/-- Reads a value without quotes. A blank may stand between a date and its time. -/
def readBare (cs : List Char) : Option (Value × List Char) :=
  let token := cs.takeWhile isBareChar
  let rest := cs.dropWhile isBareChar
  let next := rest.tail.takeWhile isBareChar
  if readDate? token = some [] ∧ rest.head? = some ' ' ∧ isOffsetTime next then
    some (.moment, rest.tail.dropWhile isBareChar)
  else (bareValue? token).map fun value => (value, rest)

end DatasetGrid.Toml
