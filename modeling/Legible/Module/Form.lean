import Legible.Expr.Reading
import Legible.Module.Facts
import Legible.Typespec.Reading

/-!
Top level forms: functions, attributes and the end of the file.
-/

set_option autoImplicit false

namespace Legible

inductive FormContent where
  | function (name : Option String) (arity : Option Int64) (clauses : List Clause)
  | specification (label function : String) (signatures : List Specification)
  | malformedSpecification (label : String)
  | typeDeclaration (label : String) (name : Option String)
      (parameters : Option (List Typespec)) (definition : Typespec)
  | malformedTypeDeclaration (label : String)
  | behaviour (module : String)
  | placeholder (what : Placeholder)
  /-- A form that the module itself takes up, or that says nothing. -/
  | silent
  | skippedAttribute (name : String)
  | unsupported (cause : Unsupported)

structure Form where
  line : Option Int64
  content : FormContent

namespace FormContent

def silentAttributes : List String :=
  ["module", "export", "export_type", "file", "compile"]

/-- The function in the key of a specification, which may name its module first. -/
def specifiedFunction? : Term → Option String
  | .tuple [.atom name, _] => some name
  | .tuple [_, .atom name, _] => some name
  | _ => none

def ofSpecification (label : String) (value : Term) : FormContent :=
  match (value.element? 0).bind specifiedFunction?, (value.element? 1).bind Term.list? with
  | some name, some signatures =>
    .specification label name (signatures.map Specification.ofTerm)
  | _, _ => .malformedSpecification label

def ofTypeDeclaration (label : String) : Term → FormContent
  | .tuple [name, definition, parameters] =>
    .typeDeclaration label name.atom? (parameters.list?.map Typespec.ofTerms)
      (.ofTerm definition)
  | _ => .malformedTypeDeclaration label

def ofBehaviour : Term → FormContent
  | .atom module => .behaviour module
  | _ => .placeholder .code

def ofAttribute (name : String) (value : Term) : FormContent :=
  if silentAttributes.contains name then .silent
  else if name = "spec" ∨ name = "callback" then ofSpecification name value
  else if name = "type" ∨ name = "opaque" then ofTypeDeclaration name value
  else if name = "behaviour" ∨ name = "behavior" then ofBehaviour value
  else .skippedAttribute name

def ofFunction (name arity clauses : Term) : FormContent :=
  match clauses with
  | .list clauses => .function name.atom? arity.integer? (Expr.clausesOfTerms clauses)
  | _ => .placeholder .clauses

def ofTerm (t : Term) : FormContent :=
  match t.construct?, t with
  | some .function, .tuple [_, _, name, arity, clauses] => ofFunction name arity clauses
  | some .attribute, .tuple [_, _, .atom name, value] => ofAttribute name value
  | some .attribute, _ => .placeholder .code
  | some .endOfFile, _ => .silent
  | _, t => .unsupported (.form t.label)

end FormContent

def Form.ofTerm (t : Term) : Form where
  line := t.line?
  content := .ofTerm t

end Legible
