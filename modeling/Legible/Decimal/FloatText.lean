import Legible.Decimal.Digits
import Legible.Decimal.Shortest

/-!
Doubles in decimal.

Magnitudes from `10 ^ -4` up to but without `10 ^ 16` are positional, with at least one digit on
each side of the point; others have one digit before the point and an exponent. Whether the
exponent form keeps a point when it has one digit only is the writer's choice.
-/

set_option autoImplicit false

namespace Legible.Decimal

inductive Bare where
  /-- As in `1e-7`. -/
  | plain
  /-- As in `1.0e-7`. -/
  | pointed
  deriving DecidableEq, Repr

def positional (digits : List Char) (point : Int) : List Char :=
  if point ≤ 0 then "0.".toList ++ List.replicate (-point).toNat '0' ++ digits
  else if digits.length ≤ point.toNat then
    digits ++ List.replicate (point.toNat - digits.length) '0' ++ ".0".toList
  else digits.take point.toNat ++ '.' :: digits.drop point.toNat

def mantissa (bare : Bare) : List Char → List Char
  | [] => []
  | [digit] => match bare with
    | .plain => [digit]
    | .pointed => [digit, '.', '0']
  | digit :: rest => digit :: '.' :: rest

def Scientific.text (bare : Bare) (s : Scientific) : List Char :=
  let all := digits s.significand
  let point : Int := all.length + s.exponent
  let kept := dropTrailingZeros all
  if s.significand = 0 then "0.0".toList
  else if -4 < point ∧ point ≤ 16 then positional kept point
  else mantissa bare kept ++ 'e' :: (ofInt (point - 1)).toList

def Binary64.text (bare : Bare) (x : Binary64) : String :=
  let sign := if x.negative then "-" else ""
  sign ++ String.ofList (x.shortest.text bare)

end Legible.Decimal
