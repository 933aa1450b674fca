import Legible.Problem

/-!
Lines for a terminal, in colours.
-/

set_option autoImplicit false

namespace Legible.Terminal

inductive Style where
  | red
  | green
  | yellow
  | magenta
  | grey
  | bold
  | dark
  | slanted
  deriving DecidableEq, Repr

def Style.code : Style → String
  | .red => "31"
  | .green => "32"
  | .yellow => "33"
  | .magenta => "35"
  | .grey => "90"
  | .bold => "1"
  | .dark => "2"
  | .slanted => "3"

structure Span where
  styles : List Style
  text : String
  deriving DecidableEq, Repr

def plain (text : String) : Span where
  styles := []
  text

def styled (styles : List Style) (text : String) : Span where
  styles
  text

abbrev Line := List Span

def escape (code : String) : String :=
  "\x1b[" ++ code ++ "m"

def Span.encode (span : Span) : String :=
  String.join (span.styles.map fun style => escape style.code) ++ span.text

def encodeLine (line : Line) : String :=
  String.join (line.map Span.encode) ++ escape "0" ++ "\n"

def encode (lines : List Line) : String :=
  String.join (lines.map encodeLine)

def ofProblem (path : String) (problem : Problem) : List Line :=
  let heading : Line := match problem with
    | .file .. => [styled [.yellow] "Can't find/read file: ", plain path]
    | .settings => [styled [.yellow] "CONFIG FILE ISSUE - ", styled [.dark, .magenta] path]
    | .decoding | .payload _ =>
      [styled [.red] problem.label, plain " in ", styled [.dark, .magenta] path]
  let detail (style : Style) (name : String) (value : Option String) : List Line :=
    value.toList.map fun text => [styled [style] ("  " ++ name ++ ": "), plain text]
  heading :: [plain problem.message] ::
    (detail .grey "found" problem.found? ++ detail .grey "expected" problem.expected? ++
      detail .grey "at" problem.location? ++ detail .green "help" problem.help?)

def ofWarning (warning : Warning) : List Line :=
  let line := match warning.line with
    | some line => Decimal.ofInt line.toInt
    | none => "?"
  [[styled [.yellow] "WARNING: ", plain warning.cause.heading],
    [styled [.dark, .magenta] "Line ", styled [.bold] line, plain " ",
      plain warning.cause.message]]

end Legible.Terminal
