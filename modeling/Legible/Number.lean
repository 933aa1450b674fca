import Legible.Decimal.FloatText
import Legible.Decimal.Numeral

/-!
Numbers of terms.

An integer of 64 bits and a finite double are values. Any other literal is kept as it is spelled:
integers of more bits, and also literals beyond the largest double.
-/

set_option autoImplicit false

namespace Legible

inductive Number where
  | integer (value : Int64)
  | float (value : Decimal.Binary64)
  | beyond (spelling : String)
  deriving DecidableEq, Repr

namespace Number

def fits (value : Int) : Bool :=
  Int64.minValue.toInt ≤ value && value ≤ Int64.maxValue.toInt

def ofNumeral (literal : Decimal.Numeral) : Number :=
  match literal.integer? with
  | some value => if fits value then .integer (Int64.ofInt value) else .beyond literal.spelling
  | none =>
    match Decimal.Binary64.ofDecimal? literal.negative literal.significand literal.scale with
    | some value => .float value
    | none => .beyond literal.spelling

def integer? : Number → Option Int64
  | .integer value => some value
  | _ => none

/-- The number as it is reported: a float of one digit may lack a point. -/
def text : Number → String
  | .integer value => Decimal.ofInt value.toInt
  | .float value => value.text .plain
  | .beyond spelling => spelling

/-- The number as it is written in source, where a float always has a point. -/
def literal : Number → String
  | .integer value => Decimal.ofInt value.toInt
  | .float value => value.text .pointed
  | .beyond spelling => spelling

end Number

end Legible
