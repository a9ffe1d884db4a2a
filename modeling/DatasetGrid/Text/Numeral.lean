/-!
# Numerals

Reading and writing natural numbers and integers as text. Reading goes from left to right within a
bound, and what stops it first decides: a character that is no digit, or a digit that carries the
value past the bound.
-/
namespace DatasetGrid.Text

attribute [local instance (2000)] instPowNat

def digitOf (radix : Nat) (c : Char) : Option Nat :=
  let value :=
    if '0' ≤ c ∧ c ≤ '9' then c.toNat - '0'.toNat
    else if 'a' ≤ c ∧ c ≤ 'f' then c.toNat - 'a'.toNat + 10
    else if 'A' ≤ c ∧ c ≤ 'F' then c.toNat - 'A'.toNat + 10
    else radix
  if value < radix then some value else none

/-- What reading digits within a bound comes to. -/
inductive Bounded where
  | value (n : Nat)
  | overflow
  | malformed
  deriving DecidableEq

/-- Reads the digits onto `acc`. -/
def readOnto (radix limit : Nat) : Nat → List Char → Bounded
  | acc, [] => .value acc
  | acc, c :: rest =>
    match digitOf radix c with
    | none => .malformed
    | some d =>
      if acc * radix + d ≤ limit then readOnto radix limit (acc * radix + d) rest else .overflow

def readDigits (radix limit : Nat) : List Char → Bounded
  | [] => .malformed
  | cs => readOnto radix limit 0 cs

/-- What reading an integer within 128 bits comes to. -/
inductive IntegerReading where
  | value (n : Int)
  | tooLarge
  | tooSmall
  | malformed
  deriving DecidableEq

/-- Reads an optional sign and decimal digits, from `-2 ^ 127` up to `2 ^ 127 - 1`. -/
def readInteger : List Char → IntegerReading
  | '-' :: digits =>
    match readDigits 10 (2 ^ (127 : Nat)) digits with
    | .value n => .value (-n)
    | .overflow => .tooSmall
    | .malformed => .malformed
  | cs =>
    match readDigits 10 (2 ^ (127 : Nat) - 1) (if cs.head? = some '+' then cs.tail else cs) with
    | .value n => .value n
    | .overflow => .tooLarge
    | .malformed => .malformed

/-- Reads an optional plus sign and digits, up to `2 ^ 64 - 1`. -/
def readNatural? (radix : Nat) (cs : List Char) : Option Nat :=
  match readDigits radix (2 ^ (64 : Nat) - 1) (if cs.head? = some '+' then cs.tail else cs) with
  | .value n => some n
  | _ => none

def decimal (n : Nat) : List Char :=
  Nat.toDigits 10 n

def signedDecimal (n : Int) : List Char :=
  if n < 0 then '-' :: decimal n.natAbs else decimal n.natAbs

theorem decimal_ne_nil (n : Nat) : decimal n ≠ [] :=
  Nat.toDigits_ne_nil

end DatasetGrid.Text
