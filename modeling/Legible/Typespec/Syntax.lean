import Legible.Placeholder
import Legible.Warning

/-!
Types in specifications and type declarations, and the signatures of functions.
-/

set_option autoImplicit false

namespace Legible

mutual

inductive Typespec where
  | placeholder (what : Placeholder)
  | unsupported (cause : Unsupported) (line : Option Int64)
  | function (signature : Signature)
  | product (members : List Typespec)
  | union (members : List Typespec)
  | tuple (elements : List Typespec)
  | list (element : Typespec)
  | nonemptyList (element : Typespec)
  | emptyList
  | map (fields : List Field)
  | range (low high : Typespec)
  /-- A bit string of `size` bits and any number of `unit` bits; a zero is left out. -/
  | bits (size unit : Option Typespec)
  | builtin (name : String) (arguments : List Typespec)
  | user (name : String) (arguments : List Typespec)
  | remote (module name : String) (arguments : List Typespec)
  | annotated (name type : Typespec)
  | variable (name : String)
  | atom (name : String)
  | integer (value : Number)
  | unaryOp (operator : Option String) (operand : Typespec)
  | binaryOp (operator : Option String) (left right : Typespec)

inductive Signature where
  /-- Any function at all. -/
  | any
  | arrow (parameters : Parameters) (result : Typespec)
  | malformed

inductive Parameters where
  | types (types : List Typespec)
  /-- Any number of parameters of any type. -/
  | any
  | single (type : Typespec)
  | malformed

inductive Field where
  | optional (key value : Typespec)
  | required (key value : Typespec)
  | single (type : Typespec)
  | malformed

end

namespace Typespec

def isSupported : Typespec → Bool
  | .unsupported .. => false
  | _ => true

def signature? : Typespec → Option Signature
  | .function signature => some signature
  | _ => none

end Typespec

inductive Constraint where
  | bound (name type : Typespec)
  | single (type : Typespec)
  | malformed

inductive BoundedSignature where
  | bounded (signature : Option Signature) (constraints : List Constraint)
  | malformed

inductive Specification where
  | function (signature : Signature)
  | bounded (signature : BoundedSignature)
  | other (type : Typespec)

end Legible
