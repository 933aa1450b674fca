import Legible.Command.Arguments
import Legible.Command.Files
import Legible.Command.Terminal

/-!
What the command line program answers, from its arguments and the files it sees.
-/

set_option autoImplicit false

namespace Legible.Session

open Terminal

def settingsName : String := "beamview.toml"

def usage : List Line :=
  [[styled [.green, .bold] "\nCommands:"],
    [plain "  render <file.json>   - Renders a JSON encoded debug info term"],
    [plain "  help                 - Shows this message"],
    [styled [.green, .bold] "\nFlags:"],
    [plain "  --config <path>      (default: beamview.toml next to the input)"],
    [plain "  --lines              Emit # line N comments"],
    [plain "  --hide-warnings"],
    [plain "  --hide-timers"]]

def help : List Line :=
  [[styled [.grey] "------------------------------------"],
    [styled [.green, .bold] "beamview - Erlang abstract code as Elixir source"],
    [plain "Usage: ", styled [.bold] "<command>", styled [.slanted] " <args>"]] ++ usage

structure Failure where
  path : String
  problem : Problem

def inFile {α : Type} (path : String) : Except Problem α → Except Failure α
  | .ok value => .ok value
  | .error problem => .error ⟨path, problem⟩

def readFile (files : Files) (role : FileRole) (path : String) : Except Failure String :=
  match files.read path with
  | .ok text => .ok text
  | .error fault => .error ⟨path, .file role fault⟩

def loadLayout (files : Files) (path : String) : Except Failure Layout := do
  inFile path (Layout.ofDocument (← readFile files .settings path))

def neighborSettings (input : String) : String :=
  Path.join (Path.parent input) settingsName

/-- The layout of a given settings file, else of the one next to the input, else the default. -/
def chooseLayout (files : Files) (input : String) (settings : Option String) :
    Except Failure Layout :=
  match settings with
  | some path => loadLayout files path
  | none =>
    let path := neighborSettings input
    if files.isFile path then loadLayout files path else .ok {}

def render (files : Files) (input : String) (settings : Option String) (flags : List Flag) :
    Except Failure ModuleRendering := do
  let chosen ← chooseLayout files input settings
  -- The flag switches comments on, but never off.
  let layout := { chosen with
    lineComments := chosen.lineComments || flags.contains .lineComments }
  let payload ← inFile input (Term.ofJson (← readFile files .input input))
  inFile input (ModuleRendering.ofPayload layout payload)

def report (flags : List Flag) (elapsed : String) (rendered : ModuleRendering) : List Line :=
  let timer : List Line :=
    if flags.contains .hideTimers then []
    else [[styled [.green] "Rendered in: ", styled [.green] elapsed]]
  let warnings :=
    if flags.contains .hideWarnings then [] else rendered.warnings.flatMap ofWarning
  [[plain rendered.text]] ++ timer ++ warnings

/-- A path as it is shown: from the working directory, if it is below that. -/
def shownPath (workingDirectory path : String) : String :=
  let start := workingDirectory.toList ++ ['/']
  if workingDirectory.isEmpty then path
  else if start.isPrefixOf path.toList then String.ofList (path.toList.drop start.length)
  else path

def respond (files : Files) (workingDirectory elapsed : String) (arguments : List String) :
    List Line :=
  match Command.parse arguments with
  | .error error => [styled [.red] error.message] :: usage
  | .ok .help => help
  | .ok (.render input settings flags) =>
    match render files input settings flags with
    | .ok rendered => report flags elapsed rendered
    | .error failure => ofProblem (shownPath workingDirectory failure.path) failure.problem

/-- The files that a command reads, if they are there. -/
def candidates (arguments : List String) : List String :=
  match Command.parse arguments with
  | .ok (.render input settings _) => [input, settings.getD (neighborSettings input)]
  | _ => []

end Legible.Session
