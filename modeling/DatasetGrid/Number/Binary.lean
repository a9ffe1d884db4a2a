/-!
# Binary floating-point numbers

Bit patterns of the two interchange formats as natural numbers: what number a pattern stands for,
and the pattern nearest to an exact ratio.
-/
namespace DatasetGrid.Number

attribute [local instance (2000)] instPowNat

structure Layout where
  fraction : Nat
  exponent : Nat

namespace Layout

def single : Layout := ⟨23, 8⟩

def double : Layout := ⟨52, 11⟩

/-- The power of two that the last fraction bit of the smallest numbers weighs. -/
def minPower (l : Layout) : Int :=
  2 - 2 ^ (l.exponent - 1) - l.fraction

/-- The pattern of positive infinity, the least that is no finite number. -/
def infinity (l : Layout) : Nat :=
  (2 ^ l.exponent - 1) * 2 ^ l.fraction

def signBit (l : Layout) : Nat :=
  2 ^ (l.fraction + l.exponent)

end Layout

/-- What a pattern stands for. A finite number is `significand * 2 ^ power` with its sign. -/
inductive Datum where
  | nan
  | infinite (negative : Bool)
  | finite (negative : Bool) (significand : Nat) (power : Int)
  deriving DecidableEq

def Datum.isInfinite : Datum → Bool
  | .infinite _ => true
  | _ => false

namespace Layout

def decode (l : Layout) (pattern : Nat) : Datum :=
  let negative := pattern / l.signBit % 2 = 1
  let field := pattern / 2 ^ l.fraction % 2 ^ l.exponent
  let fraction := pattern % 2 ^ l.fraction
  if field = 2 ^ l.exponent - 1 then
    if fraction = 0 then .infinite negative else .nan
  else if field = 0 then .finite negative fraction l.minPower
  else .finite negative (2 ^ l.fraction + fraction) (l.minPower + field - 1)

end Layout

/-- The natural number nearest to `num / den`; a half goes to the even neighbour. -/
def nearest (num den : Nat) : Nat :=
  let below := num / den
  let twice := 2 * (num % den)
  if twice < den ∨ (twice = den ∧ below % 2 = 0) then below else below + 1

/-- Numerator and denominator of `num / den` divided by `2 ^ power`. -/
def unscale (num den : Nat) (power : Int) : Nat × Nat :=
  (num * 2 ^ (-power).toNat, den * 2 ^ power.toNat)

/-- The floor of the binary logarithm of `num / den`. -/
def floorLog2 (num den : Nat) : Int :=
  let power : Int := (num.log2 : Int) - den.log2
  let ratio := unscale num den power
  if ratio.2 ≤ ratio.1 then power else power - 1

namespace Layout

/-- The pattern nearest to `num / den`, infinity past the largest finite number. One pattern more
is one unit in the last place more, across the powers of two and from the subnormal numbers on. -/
def ofRatio (l : Layout) (num den : Nat) : Nat :=
  if num = 0 then 0 else
    let power := max (floorLog2 num den - l.fraction) l.minPower
    let ratio := unscale num den power
    min ((power - l.minPower).toNat * 2 ^ l.fraction + nearest ratio.1 ratio.2) l.infinity

def encode (l : Layout) : Datum → Nat
  | .nan => l.infinity + 2 ^ (l.fraction - 1)
  | .infinite negative => (if negative then l.signBit else 0) + l.infinity
  | .finite negative significand power =>
    (if negative then l.signBit else 0) +
      l.ofRatio (significand * 2 ^ power.toNat) (2 ^ (-power).toNat)

end Layout

structure Binary32 where
  bits : UInt32
  deriving DecidableEq

def Binary32.datum (x : Binary32) : Datum :=
  Layout.single.decode x.bits.toNat

def Binary32.ofDatum (d : Datum) : Binary32 :=
  ⟨.ofNat (Layout.single.encode d)⟩

structure Binary64 where
  bits : UInt64
  deriving DecidableEq

namespace Binary64

def datum (x : Binary64) : Datum :=
  Layout.double.decode x.bits.toNat

def ofDatum (d : Datum) : Binary64 :=
  ⟨.ofNat (Layout.double.encode d)⟩

def ofInt (n : Int) : Binary64 :=
  ofDatum (.finite (n < 0) n.natAbs 0)

def toSingle (x : Binary64) : Binary32 :=
  .ofDatum x.datum

/-- Equality of numbers: the two zeros are equal and a NaN differs from everything. -/
def sameNumber (x y : Binary64) : Bool :=
  match x.datum, y.datum with
  | .nan, _ => false
  | .finite _ 0 _, .finite _ 0 _ => true
  | d, e => d = e

end Binary64

def Binary32.toDouble (x : Binary32) : Binary64 :=
  .ofDatum x.datum

example : Layout.double.decode 0x3FF8000000000000 = .finite false (3 * 2 ^ (51 : Nat)) (-52) := by
  decide

example : Layout.double.ofRatio 1 10 = 0x3FB999999999999A := by decide +kernel

example :
    Layout.single.ofRatio (2 ^ (128 : Nat) - 2 ^ (103 : Nat)) 1 = Layout.single.infinity := by
  decide +kernel

end DatasetGrid.Number
