import Legible.Operator
import Legible.Spelling
import Legible.Typespec.Syntax

/-!
Text of types and signatures, and the warnings about their parts.

Types bind nothing, so their text does not hang on a scope. Operators in types are applied without
parentheses.
-/

set_option autoImplicit false

namespace Legible

/-- Strings are lists of characters in abstract code. -/
def Typespec.builtinName (name : String) : String :=
  if name = "string" then "charlist"
  else if name = "nonempty_string" then "nonempty_charlist"
  else name

def Typespec.applied (name : String) (arguments : List String) : String :=
  name ++ "(" ++ ", ".intercalate arguments ++ ")"

mutual

def Typespec.text : Typespec → String
  | .placeholder what => what.text
  | .unsupported .. => Placeholder.type.text
  | .function signature => signature.text
  | .product members => ", ".intercalate (Typespec.texts members)
  | .union members => " | ".intercalate (Typespec.texts members)
  | .tuple elements => "\x7b" ++ ", ".intercalate (Typespec.texts elements) ++ "\x7d"
  | .list element => "[" ++ element.text ++ "]"
  | .nonemptyList element => "[" ++ element.text ++ ", ...]"
  | .emptyList => "[]"
  | .map fields => "%\x7b" ++ ", ".intercalate (Field.texts fields) ++ "\x7d"
  | .range low high => low.text ++ ".." ++ high.text
  | .bits size unit =>
    "<<" ++ ", ".intercalate
      (Typespec.segment "_::" size ++ Typespec.segment "_::_*" unit) ++ ">>"
  | .builtin name arguments =>
    Typespec.applied (Typespec.builtinName name) (Typespec.texts arguments)
  | .user name arguments =>
    Typespec.applied (Spelling.ofFunction name) (Typespec.texts arguments)
  | .remote module name arguments =>
    Spelling.ofAtom module ++ "." ++
      Typespec.applied (Spelling.ofFunction name) (Typespec.texts arguments)
  | .annotated name type => name.text ++ " :: " ++ type.text
  | .variable name => Spelling.ofVariable name
  | .atom name => Spelling.ofAtom name
  | .integer value => value.literal
  | .unaryOp operator operand => Operator.writeUnary operator operand.text
  | .binaryOp operator left right => Operator.writeBinary operator left.text right.text

def Typespec.texts : List Typespec → List String
  | [] => []
  | type :: rest => type.text :: Typespec.texts rest

/-- A segment of a bit string, unless its size is zero. -/
def Typespec.segment (start : String) : Option Typespec → List String
  | none => []
  | some size => [start ++ size.text]

def Signature.text : Signature → String
  | .any => "fun()"
  | .arrow parameters result =>
    let inner := parameters.text
    (if inner.isEmpty then "(-> " else "(" ++ inner ++ " -> ") ++ result.text ++ ")"
  | .malformed => Placeholder.parameterReturn.text

def Parameters.text : Parameters → String
  | .types types => ", ".intercalate (Typespec.texts types)
  | .any => "..."
  | .single type => type.text
  | .malformed => Placeholder.parameterReturn.text

def Field.text : Field → String
  | .optional key value => "optional(" ++ key.text ++ ") => " ++ value.text
  | .required key value => "required(" ++ key.text ++ ") => " ++ value.text
  | .single type => type.text
  | .malformed => Placeholder.type.text

def Field.texts : List Field → List String
  | [] => []
  | field :: rest => field.text :: Field.texts rest

end

mutual

def Typespec.warnings : Typespec → List Warning
  | .placeholder _ | .emptyList | .variable _ | .atom _ | .integer _ => []
  | .unsupported cause line => [⟨cause, line⟩]
  | .function signature => signature.warnings
  | .product members | .union members | .tuple members => Typespec.warningsOf members
  | .list element | .nonemptyList element => element.warnings
  | .map fields => Field.warningsOf fields
  | .range low high => low.warnings ++ high.warnings
  | .bits size unit => Typespec.segmentWarnings size ++ Typespec.segmentWarnings unit
  | .builtin _ arguments | .user _ arguments | .remote _ _ arguments =>
    Typespec.warningsOf arguments
  | .annotated name type => name.warnings ++ type.warnings
  | .unaryOp _ operand => operand.warnings
  | .binaryOp _ left right => left.warnings ++ right.warnings

def Typespec.warningsOf : List Typespec → List Warning
  | [] => []
  | type :: rest => type.warnings ++ Typespec.warningsOf rest

def Typespec.segmentWarnings : Option Typespec → List Warning
  | none => []
  | some size => size.warnings

def Signature.warnings : Signature → List Warning
  | .arrow parameters result => parameters.warnings ++ result.warnings
  | .any | .malformed => []

def Parameters.warnings : Parameters → List Warning
  | .types types => Typespec.warningsOf types
  | .single type => type.warnings
  | .any | .malformed => []

def Field.warnings : Field → List Warning
  | .optional key value | .required key value => key.warnings ++ value.warnings
  | .single type => type.warnings
  | .malformed => []

def Field.warningsOf : List Field → List Warning
  | [] => []
  | field :: rest => field.warnings ++ Field.warningsOf rest

end

def Signature.named (name : String) : Signature → String
  | .arrow parameters result => name ++ "(" ++ parameters.text ++ ") :: " ++ result.text
  | .any | .malformed => Placeholder.parameterReturn.text

namespace Constraint

def text : Constraint → String
  | .bound name type => name.text ++ ": " ++ type.text
  | .single type => type.text
  | .malformed => Placeholder.parameterReturn.text

def warnings : Constraint → List Warning
  | .bound name type => name.warnings ++ type.warnings
  | .single type => type.warnings
  | .malformed => []

end Constraint

namespace BoundedSignature

def named (name : String) : BoundedSignature → String
  | .bounded signature constraints =>
    let text := match signature with
      | some signature => signature.named name
      | none => Placeholder.parameterReturn.text
    if constraints.isEmpty then text
    else text ++ " when " ++ ", ".intercalate (constraints.map Constraint.text)
  | .malformed => Placeholder.parameterReturn.text

def warnings : BoundedSignature → List Warning
  | .bounded signature constraints =>
    (signature.map Signature.warnings).getD [] ++ constraints.flatMap Constraint.warnings
  | .malformed => []

end BoundedSignature

namespace Specification

def named (name : String) : Specification → String
  | .function signature => signature.named name
  | .bounded signature => signature.named name
  | .other type => type.text

def warnings : Specification → List Warning
  | .function signature => signature.warnings
  | .bounded signature => signature.warnings
  | .other type => type.warnings

end Specification

end Legible
