import Legible.Decimal.Power

/-!
Finite double precision numbers, each as the one triple of a sign, a significand and an exponent of
two that stands for it, and the double nearest to a decimal.

Rounding is done on natural numbers and is exact: a decimal half way between two doubles goes to
the one with the even significand, and one beyond the largest double goes to none.
-/

set_option autoImplicit false

namespace Legible.Decimal

/-- The number `± significand * 2 ^ exponent`. -/
structure Binary64 where
  negative : Bool
  significand : Nat
  exponent : Int
  /-- A significand has at most 53 bits. -/
  significand_lt : significand < 0x20000000000000
  exponent_ge : -1074 ≤ exponent
  exponent_le : exponent ≤ 971
  /-- Fewer than 53 bits occur at the least exponent only. -/
  canonical : significand < 0x10000000000000 → exponent = -1074
  deriving DecidableEq, Repr

namespace Binary64

def zero (negative : Bool) : Binary64 where
  negative
  significand := 0
  exponent := -1074
  significand_lt := by decide
  exponent_ge := by decide
  exponent_le := by decide
  canonical := fun _ => rfl

def ofParts? (negative : Bool) (significand : Nat) (exponent : Int) : Option Binary64 :=
  if h : significand < 0x20000000000000 ∧ -1074 ≤ exponent ∧ exponent ≤ 971 ∧
      (significand < 0x10000000000000 → exponent = -1074) then
    some ⟨negative, significand, exponent, h.1, h.2.1, h.2.2.1, h.2.2.2⟩
  else none

/-- The nearest natural number to a quotient, an even one if two are as near. -/
def divideToEven (numerator denominator : Nat) : Nat :=
  let floor := numerator / denominator
  let twice := 2 * (numerator % denominator)
  if denominator < twice ∨ (twice = denominator ∧ floor % 2 = 1) then floor + 1 else floor

def scaledDown (numerator denominator : Nat) (exponent : Int) : Nat :=
  divideToEven (numerator * powerOfTwo (-exponent).toNat)
    (denominator * powerOfTwo exponent.toNat)

def overfills (numerator denominator : Nat) (exponent : Int) : Bool :=
  denominator * powerOfTwo exponent.toNat * 0x20000000000000 ≤
    numerator * powerOfTwo (-exponent).toNat

def ofRatio? (negative : Bool) (numerator denominator : Nat) : Option Binary64 :=
  let least : Int := Nat.log2 numerator - Nat.log2 denominator - 53
  let fitting := if overfills numerator denominator least then least + 1 else least
  let exponent := max fitting (-1074)
  let significand := scaledDown numerator denominator exponent
  -- Rounding up may carry into one bit more than a significand has.
  if significand = 0x20000000000000 then ofParts? negative 0x10000000000000 (exponent + 1)
  else ofParts? negative significand exponent

/-- The double nearest to `± significand * 10 ^ exponent`. Far exponents are settled by the
number's order of magnitude, so that no huge power is computed. -/
def ofDecimal? (negative : Bool) (significand : Nat) (exponent : Int) : Option Binary64 :=
  let magnitude := (Nat.toDigits 10 significand).length + exponent
  if significand = 0 then some (zero negative)
  else if 310 < magnitude then none
  else if magnitude < -330 then some (zero negative)
  else ofRatio? negative (significand * powerOfTen exponent.toNat) (powerOfTen (-exponent).toNat)

end Binary64

end Legible.Decimal
