import DatasetGrid.Number.Binary
import DatasetGrid.Text.Numeral

/-!
# The shortest decimal of a binary number

The reals that round to a binary number form an interval around it. Its shortest decimal is the
point of the interval on the coarsest decimal grid that has one, the nearer of two, and of two
equally near the greater.
-/
namespace DatasetGrid.Number

attribute [local instance (2000)] instPowNat

/-- The number `digits * 10 ^ exponent`. -/
structure Decimal where
  digits : Nat
  exponent : Int
  deriving DecidableEq

def digitCount (n : Nat) : Nat :=
  (Text.decimal n).length

/-- The least `k` with `num / den < 10 ^ k`, for a positive ratio. -/
def magnitude (num den : Nat) : Int :=
  if den ≤ num then digitCount (num / den)
  else
    let count := digitCount (den / num)
    if 10 ^ (count - 1) * num = den then 2 - count else 1 - count

def unscale10 (num den : Nat) (exponent : Int) : Nat × Nat :=
  (num * 10 ^ (-exponent).toNat, den * 10 ^ exponent.toNat)

/-- The reals that round to `value * 2 ^ power`, with their bounds in the same unit. -/
structure Interval where
  low : Nat
  value : Nat
  high : Nat
  power : Int
  closed : Bool

/-- The interval of a positive finite number, in quarters of its last place. Below a power of two
the numbers lie twice as dense; a tie at a bound rounds to the even significand. -/
def Layout.interval (l : Layout) (significand : Nat) (power : Int) : Interval where
  low := if significand = 2 ^ l.fraction ∧ l.minPower < power then 4 * significand - 1
    else 4 * significand - 2
  value := 4 * significand
  high := 4 * significand + 2
  power := power - 2
  closed := significand % 2 = 0

namespace Interval

/-- The point of the interval on the grid of the multiples of `10 ^ exponent`, if there is one. -/
def onGrid? (i : Interval) (exponent : Int) : Option Nat :=
  let unit := 2 ^ i.power.toNat * 10 ^ (-exponent).toNat
  let step := 10 ^ exponent.toNat * 2 ^ (-i.power).toNat
  let holds (n : Nat) : Bool :=
    if i.closed then i.low * unit ≤ n * step && n * step ≤ i.high * unit
    else i.low * unit < n * step && n * step < i.high * unit
  let below := i.value * unit / step
  let nearAbove := (below + 1) * step - i.value * unit ≤ i.value * unit - below * step
  if holds below && !(holds (below + 1) && nearAbove) then some below
  else if holds (below + 1) then some (below + 1)
  else none

def top (i : Interval) : Int :=
  magnitude (i.value * 2 ^ i.power.toNat) (2 ^ (-i.power).toNat)

/-- The first hit on the grids of one, two, and up to seventeen digits, which suffice for double
precision. Rounding up to a power of ten leaves the single digit of the next grid. -/
def shortest (i : Interval) : Decimal :=
  let hit := (List.range 17).findSome? fun (n : Nat) =>
    (i.onGrid? (i.top - 1 - n)).map fun digits => Decimal.mk digits (i.top - 1 - n)
  match hit with
  | some ⟨10, exponent⟩ => ⟨1, exponent + 1⟩
  | some d => d
  | none => ⟨0, 0⟩

end Interval

example : (Layout.double.interval 1 (-1074)).shortest = ⟨5, -324⟩ := by decide +kernel

example : (Layout.double.interval 2 (-1074)).shortest = ⟨1, -323⟩ := by decide +kernel

example : (Layout.double.interval 0x1999999999999A (-56)).shortest = ⟨1, -1⟩ := by decide +kernel

end DatasetGrid.Number
