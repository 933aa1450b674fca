import Legible.Term.Construct

/-!
Warnings: parts of a module that could not be shown, and where they stand.
-/

set_option autoImplicit false

namespace Legible

inductive Unsupported where
  | misplaced (construct : Construct)
  /-- A term that is no construct. -/
  | expression (label : String)
  | type (label : String)
  | form (label : String)
  | attribute (name : String)
  deriving DecidableEq, Repr

namespace Unsupported

def ofExpression (t : Term) : Unsupported :=
  match t.construct? with
  | some construct => .misplaced construct
  | none => .expression t.label

def message : Unsupported → String
  | .misplaced construct =>
    s!"`{construct.tag}/{construct.arity}` cannot appear in an expression or pattern"
  | .expression label => s!"`{label}` is not supported yet"
  | .type label => s!"`{label}` is not a supported type"
  | .form label => s!"`{label}` is not a supported top-level form"
  | .attribute name => s!"The `-{name}` attribute is not rendered"

def heading : Unsupported → String
  | .misplaced _ | .expression _ => "Unsupported expression"
  | .type _ => "Unsupported type"
  | .form _ => "Unsupported form"
  | .attribute _ => "Unsupported attribute"

end Unsupported

structure Warning where
  cause : Unsupported
  line : Option Int64
  deriving DecidableEq, Repr

end Legible
