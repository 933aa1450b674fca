import Legible.Term.Construct
import Legible.Text.Lines
import Legible.Text.Quoted
import Legible.Character.Lowercase
import Legible.Json.Terms
import Legible.Scope
import Legible.Spelling
import Legible.Operator
import Legible.Placeholder
import Legible.Warning
import Legible.Expr.Reading
import Legible.Expr.Render
import Legible.Typespec.Reading
import Legible.Typespec.Render
import Legible.Payload
import Legible.Module.Render
import Legible.Layout.Document
import Legible.Main
import Legible.Proofs.Term.Subterms
import Legible.Proofs.Term.Binds
import Legible.Proofs.Spelling.Variable
import Legible.Proofs.Text.Pins
import Legible.Proofs.Expr.Children
import Legible.Proofs.Expr.Reads
import Legible.Proofs.Expr.Occurrence
import Legible.Proofs.Expr.Cons
import Legible.Proofs.Expr.Alike
import Legible.Proofs.Declared
import Legible.Proofs.Pattern
import Legible.Proofs.Operator.Reader
import Legible.Proofs.Operator.Tree
import Legible.Proofs.Operator.Readable
import Legible.Proofs.Text.Lines
import Legible.Proofs.Text.Margins
import Legible.Proofs.Text.Content
import Legible.Proofs.Text.Marks
import Legible.Proofs.Text.Whole
import Legible.Proofs.Decimal.Literals
import Legible.Proofs.Decimal.Characters
import Legible.Proofs.Spelling.Marks
import Legible.Proofs.Expr.Congruence
import Legible.Proofs.Expr.Reflow
import Legible.Proofs.Module.Reflow
import Legible.Proofs.Operator.Grouping
import Legible.Proofs.Expr.Whole
import Legible.Proofs.Expr.Legal
import Legible.Proofs.Typespec.Reads
import Legible.Proofs.Typespec.Legal
import Legible.Proofs.Expr.Relevance
import Legible.Proofs.Term.Visits
import Legible.Proofs.Warned
import Legible.Proofs.Expr.Relabel
import Legible.Proofs.Term.Annotations
import Legible.Proofs.Typespec.Relabel
import Legible.Proofs.Annotations
import Legible.Proofs.Decimal.Integers
import Legible.Proofs.Json.Lexing
import Legible.Proofs.Json.Terms
import Legible.Proofs.Module.Reads
import Legible.Proofs.Module.Exports
import Legible.Proofs.Module.Assembly
import Legible.Proofs.Payload
import Legible.Proofs.Typespec.Constants
import Legible.Proofs.Text.Literal
import Legible.Proofs.Decimal.Starts
import Legible.Proofs.Expr.Charlist
import Legible.Proofs.Operator.Quoting
import Legible.Proofs.Spelling.Function
import Legible.Proofs.Expr.Apart
import Legible.Proofs.Spelling.Atom
import Legible.Proofs.Decimal.Rounding
import Legible.Proofs.Decimal.Pointed
import Legible.Proofs.Number
import Legible.Proofs.Json.Numbers
import Legible.Proofs.Expr.Numbers
import Legible.Proofs.Expr.Bare
import Legible.Proofs.Expr.Sequence
import Legible.Proofs.Expr.Chain
import Legible.Proofs.Clauses
import Legible.Proofs.Guard.Logic
import Legible.Proofs.Scope
import Legible.Proofs.Command.Grammar
import Legible.Proofs.Command.Files
import Legible.Proofs.Converter
import Legible.Proofs.Expr.Converters
import Legible.Proofs.Typespec.Converters
import Legible.Proofs.Dispatch
import Legible.Proofs.Text.Unbroken
import Legible.Proofs.Spelling.Unbroken
import Legible.Proofs.Typespec.Unbroken
import Legible.Proofs.Module.Specifications
import Legible.Proofs.Spelling.Form
import Legible.Proofs.Text.Indentation
