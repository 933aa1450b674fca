import Legible.Decimal.Binary64

/-!
The shortest decimal that reads back as a given double.

The reals that round to a double form an interval around it, with both ends if the significand is
even. Of the grids of one digit, two digits and so on, the first with a point in the interval is
taken, and on it the point nearest to the double, the upper one if two are as near.
-/

set_option autoImplicit false

namespace Legible.Decimal

structure Scientific where
  significand : Nat
  exponent : Int
  deriving DecidableEq, Repr

/-- A double's magnitude with the ends of its rounding interval, as multiples of one unit: a
power of two, kept as a ratio. -/
structure Neighborhood where
  low : Nat
  middle : Nat
  high : Nat
  /-- Whether the ends themselves round to the double. -/
  closed : Bool
  unitNumerator : Nat
  unitDenominator : Nat
  deriving Repr

/-- The interval below a power of two is half as wide as the one above it. -/
def Binary64.neighborhood (x : Binary64) : Neighborhood :=
  { low := 4 * x.significand -
      (if x.significand = 0x10000000000000 ∧ x.exponent ≠ -1074 then 1 else 2)
    middle := 4 * x.significand
    high := 4 * x.significand + 2
    closed := x.significand % 2 = 0
    unitNumerator := powerOfTwo (x.exponent - 2).toNat
    unitDenominator := powerOfTwo (2 - x.exponent).toNat }

namespace Neighborhood

def scaled (n : Neighborhood) (exponent : Int) (multiple : Nat) : Nat :=
  multiple * n.unitNumerator * powerOfTen (-exponent).toNat

def gridPoint (n : Neighborhood) (exponent : Int) (significand : Nat) : Nat :=
  significand * n.unitDenominator * powerOfTen exponent.toNat

def holds (n : Neighborhood) (exponent : Int) (significand : Nat) : Bool :=
  let point := n.gridPoint exponent significand
  let low := n.scaled exponent n.low
  let high := n.scaled exponent n.high
  if n.closed then low ≤ point && point ≤ high else low < point && point < high

def below (n : Neighborhood) (exponent : Int) : Nat :=
  n.scaled exponent n.middle / n.gridPoint exponent 1

def nearest? (n : Neighborhood) (exponent : Int) : Option Scientific :=
  let down := n.below exponent
  let up := down + 1
  let middle := n.scaled exponent n.middle
  let toDown := middle - n.gridPoint exponent down
  let toUp := n.gridPoint exponent up - middle
  match n.holds exponent down, n.holds exponent up with
  | true, true => some ⟨if toDown < toUp then down else up, exponent⟩
  | true, false => some ⟨down, exponent⟩
  | false, true => some ⟨up, exponent⟩
  | false, false => none

def reaches (n : Neighborhood) (exponent : Int) : Bool :=
  n.gridPoint exponent 1 ≤ n.scaled exponent n.middle

/-- The exponent of the first digit: of the powers of ten that are not above the double, the
largest. The binary exponent, times the logarithm of two, gives it or one less. -/
def leading (n : Neighborhood) : Int :=
  let bits : Int := Nat.log2 (n.middle * n.unitNumerator) - Nat.log2 n.unitDenominator
  let guess := bits * 30103 / 100000
  if n.reaches (guess + 1) then guess + 1 else guess

/-- Seventeen digits always suffice, so the last choice is never taken. -/
def shortest (n : Neighborhood) : Scientific :=
  let finest := n.leading - 16
  let grids := (List.range 17).map fun (count : Nat) => n.leading - (count : Int)
  (grids.findSome? n.nearest?).getD ⟨n.below finest, finest⟩

end Neighborhood

def Binary64.shortest (x : Binary64) : Scientific :=
  if x.significand = 0 then ⟨0, 0⟩ else x.neighborhood.shortest

end Legible.Decimal
