import Legible.Layout
import Legible.Scope
import Legible.Spelling
import Legible.Warning

/-!
What rendering a part of a program yields: its text, the names it declares and the warnings about
its parts, and the ways in which texts are put together.
-/

set_option autoImplicit false

namespace Legible

structure Rendering where
  text : String
  /-- Names that are bound from here on and were not bound before. -/
  declared : Scope
  /-- In the order in which the parts were visited. -/
  warnings : List Warning
  deriving DecidableEq

namespace Rendering

def plain (text : String) : Rendering where
  text
  declared := ∅
  warnings := []

/-- A variable: a binding where its name is new, and a reference where it is bound. -/
def ofVariable (name : String) (scope : Scope) : Rendering :=
  let spelled := Spelling.ofVariable name
  if spelled = Spelling.wildcard then plain spelled
  else if spelled ∈ scope then plain (if scope.pinning then "^" ++ spelled else spelled)
  else { text := spelled, declared := .ofNames (.singleton spelled), warnings := [] }

theorem declared_ofVariable (name : String) (scope : Scope) :
    (ofVariable name scope).declared =
      if Spelling.ofVariable name = Spelling.wildcard ∨ Spelling.ofVariable name ∈ scope then ∅
      else .ofNames (.singleton (Spelling.ofVariable name)) := by
  unfold ofVariable
  by_cases isWildcard : Spelling.ofVariable name = Spelling.wildcard
  · simp [isWildcard, plain]
  · by_cases bound : Spelling.ofVariable name ∈ scope
    · simp [isWildcard, bound, plain]
    · simp [isWildcard, bound]

theorem text_ofVariable (name : String) (scope : Scope) :
    (ofVariable name scope).text =
      if scope.pinning ∧ Spelling.ofVariable name ≠ Spelling.wildcard ∧
        Spelling.ofVariable name ∈ scope
      then "^" ++ Spelling.ofVariable name else Spelling.ofVariable name := by
  unfold ofVariable
  by_cases isWildcard : Spelling.ofVariable name = Spelling.wildcard
  · simp [isWildcard, plain]
  · by_cases bound : Spelling.ofVariable name ∈ scope
    · simp [isWildcard, bound, plain]
    · simp [isWildcard, bound]

theorem text_ofVariable_of_free (name : String) {scope : Scope} (free : scope.pinning = false) :
    (ofVariable name scope).text = Spelling.ofVariable name := by
  simp [text_ofVariable, free]

end Rendering

structure Sequence where
  texts : List String
  declared : Scope
  warnings : List Warning
  deriving DecidableEq

namespace Sequence

def empty : Sequence where
  texts := []
  declared := ∅
  warnings := []

def cons (first : Rendering) (rest : Sequence) : Sequence where
  texts := first.text :: rest.texts
  declared := first.declared ∪ rest.declared
  warnings := first.warnings ++ rest.warnings

def join (separator : String) (sequence : Sequence) : Rendering where
  text := separator.intercalate sequence.texts
  declared := sequence.declared
  warnings := sequence.warnings

end Sequence

structure Alternative where
  text : String
  tests : Nat
  warnings : List Warning
  deriving DecidableEq

structure ClauseRendering where
  head : String
  guard : Option String
  body : String
  declared : Scope
  warnings : List Warning
  deriving DecidableEq

def ClauseRendering.guardedHead (clause : ClauseRendering) : String :=
  match clause.guard with
  | some guard => clause.head ++ " when " ++ guard
  | none => clause.head

inductive Position where
  | expression
  | pattern
  deriving DecidableEq, Repr

inductive ClauseKind where
  /-- A named function: patterns and body see nothing from outside. -/
  | function
  /-- A function value: its patterns shadow what is bound outside, its body sees it. -/
  | closure
  /-- A branch: its patterns refer to what is bound outside, and are pinned there. -/
  | branch
  deriving DecidableEq, Repr

namespace ClauseKind

def patternScope (kind : ClauseKind) (outer : Scope) : Scope :=
  match kind with
  | .function | .closure => ∅
  | .branch => outer.withPinning true

def bodyScope (kind : ClauseKind) (outer head : Scope) : Scope :=
  match kind with
  | .function => head
  | .closure | .branch => outer.withPinning false ∪ head

end ClauseKind

namespace Layout

def arm (layout : Layout) (head body : String) : String :=
  let arrow := if head.isEmpty then "->" else head ++ " ->"
  if Text.spansLines body then arrow ++ "\n" ++ layout.indent body else arrow ++ " " ++ body

def arms (layout : Layout) (opening : String) (arms : List String) : String :=
  opening ++ "\n" ++ layout.indent ("\n".intercalate arms) ++ "\nend"

end Layout

def parenthesized (text : String) : String :=
  "(" ++ text ++ ")"

def Alternative.guard (alternatives : List Alternative) : Option String :=
  if alternatives.isEmpty then none
  else some (" when ".intercalate (alternatives.map Alternative.text))

def Alternative.condition : List Alternative → String
  | [] => "true"
  | [single] => single.text
  | alternatives =>
    " or ".intercalate (alternatives.map fun alternative =>
      if 1 < alternative.tests then parenthesized alternative.text else alternative.text)

def Alternative.warningsOf (alternatives : List Alternative) : List Warning :=
  alternatives.flatMap Alternative.warnings

end Legible
