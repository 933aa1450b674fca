import Legible.Expr.Render
import Legible.Module.Form
import Legible.Typespec.Render

/-!
Rendering of forms, and of a whole module from its forms.

Each form is rendered on its own, with the facts about the module that all forms share. The texts
are then joined in order; forms without text leave no trace but their warnings.
-/

set_option autoImplicit false

namespace Legible

structure FormRendering where
  /-- Forms that say nothing of their own have no text. -/
  text : Option String
  warnings : List Warning
  deriving DecidableEq

namespace FormContent

def definition (layout : Layout) (keyword name : String) (clause : ClauseRendering) : String :=
  let head := keyword ++ " " ++ name ++ parenthesized clause.head
  let guarded := match clause.guard with
    | some guard => head ++ " when " ++ guard
    | none => head
  guarded ++ " do\n" ++ layout.indent clause.body ++ "\nend"

/-- The keyword of a definition; what is not known to be exported is private. -/
def keyword (facts : ModuleFacts) (name : Option String) (arity : Option Int64) : String :=
  match name, arity with
  | some name, some arity => if facts.isExported name arity then "def" else "defp"
  | _, _ => "defp"

def renderDefinition (layout : Layout) (keyword name : String) (clause : Clause) :
    String × List Warning :=
  match Expr.renderClause layout .function clause ∅ with
  | some parts => (definition layout keyword name parts, parts.warnings)
  | none => (Placeholder.clauses.text, [])

def functionName (name : Option String) : String :=
  match name with
  | some name => Spelling.ofFunction name
  | none => Placeholder.functionName.text

def render (layout : Layout) (facts : ModuleFacts) (line : Option Int64) :
    FormContent → FormRendering
  | .function name arity clauses =>
    let definitions :=
      clauses.map (renderDefinition layout (keyword facts name arity) (functionName name))
    { text := some ("\n\n".intercalate (definitions.map Prod.fst))
      warnings := definitions.flatMap Prod.snd }
  | .specification label specified signatures =>
    let name := Spelling.ofFunction specified
    let texts := signatures.map fun signature => "@" ++ label ++ " " ++ signature.named name
    { text := some ("\n".intercalate texts)
      warnings := signatures.flatMap Specification.warnings }
  | .malformedSpecification label =>
    { text := some ("@" ++ label ++ " " ++ Placeholder.parameterReturn.text), warnings := [] }
  | .typeDeclaration label name parameters definition =>
    let declared := match name with
      | some name => Spelling.ofFunction name
      | none => Placeholder.type.text
    let inner := match parameters with
      | some parameters => ", ".intercalate (Typespec.texts parameters)
      | none => Placeholder.type.text
    { text := some
        ("@" ++ label ++ " " ++ declared ++ parenthesized inner ++ " :: " ++ definition.text)
      warnings := Typespec.warningsOf (parameters.getD []) ++ definition.warnings }
  | .malformedTypeDeclaration label =>
    { text := some ("@" ++ label ++ " " ++ Placeholder.type.text), warnings := [] }
  | .behaviour module =>
    { text := some ("@behaviour " ++ Spelling.ofAtom module), warnings := [] }
  | .placeholder what => { text := some what.text, warnings := [] }
  | .silent => { text := none, warnings := [] }
  | .skippedAttribute name => { text := none, warnings := [⟨.attribute name, line⟩] }
  | .unsupported cause => { text := some Placeholder.code.text, warnings := [⟨cause, line⟩] }

end FormContent

namespace Form

/-- The text after a comment with its line, if the layout asks for one and the line is known. -/
def commented (layout : Layout) (line : Option Int64) (text : String) : String :=
  match line with
  | some line =>
    if layout.lineComments then "# line " ++ Decimal.ofInt line.toInt ++ "\n" ++ text else text
  | none => text

def render (layout : Layout) (facts : ModuleFacts) (form : Form) : FormRendering :=
  let rendering := form.content.render layout facts form.line
  { rendering with text := rendering.text.map (commented layout form.line) }

end Form

structure ModuleRendering where
  text : String
  warnings : List Warning
  deriving DecidableEq

namespace ModuleRendering

/-- Texts of forms in one text. Nothing stands before the first text that is not empty. -/
def joinForms (separator : String) (texts : List String) : String :=
  texts.foldl (fun body text => if body.isEmpty then text else body ++ separator ++ text) ""

def wrap (layout : Layout) (name body : String) : String :=
  if body.isEmpty then "defmodule " ++ name ++ " do\nend\n"
  else "defmodule " ++ name ++ " do\n" ++ layout.indent body ++ "\nend\n"

def ofForms (layout : Layout) (forms : List Term) : ModuleRendering :=
  let facts := ModuleFacts.ofForms forms
  let rendered := forms.map fun form => (Form.ofTerm form).render layout facts
  let name := match facts.name with
    | some name => Spelling.ofAtom name
    | none => Placeholder.module.text
  { text := wrap layout name (joinForms layout.separator (rendered.filterMap FormRendering.text))
    warnings := rendered.flatMap FormRendering.warnings }

end ModuleRendering

end Legible
