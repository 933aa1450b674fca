/-!
Decimal digits of natural numbers and of integers.
-/

set_option autoImplicit false

namespace Legible.Decimal

def digits (n : Nat) : List Char :=
  Nat.toDigits 10 n

def value (digits : List Char) : Nat :=
  digits.foldl (fun total digit => 10 * total + (digit.toNat - '0'.toNat)) 0

def ofInt : Int → String
  | .ofNat n => String.ofList (digits n)
  | .negSucc n => "-" ++ String.ofList (digits (n + 1))

def dropTrailingZeros (digits : List Char) : List Char :=
  (digits.reverse.dropWhile (· = '0')).reverse

end Legible.Decimal
