import Legible.Command.Path

/-!
Arguments of the command line.

A render command takes flags, pairs of `--config` with a path, and one input file, in any order. Of
several problems the first one from the left is reported, and those of the whole command last.
-/

set_option autoImplicit false

namespace Legible

inductive Flag where
  | lineComments
  | hideWarnings
  | hideTimers
  deriving DecidableEq, Repr

inductive Command where
  | help
  | render (input : String) (settings : Option String) (flags : List Flag)
  deriving DecidableEq, Repr

inductive ArgumentError where
  | unknownCommand (name : String)
  | missingSettings
  | unknownFlag (flag : String)
  | severalInputs
  | missingInput
  | wrongExtension (path : String)
  deriving DecidableEq, Repr

def ArgumentError.message : ArgumentError → String
  | .unknownCommand name => s!"Invalid command: '{name}'"
  | .missingSettings => "Missing value for --config"
  | .unknownFlag flag =>
    s!"Unknown render flag: '{flag}'. " ++
      "Supported flags are --config, --lines, --hide-warnings, --hide-timers."
  | .severalInputs => "Render command accepts exactly one input file."
  | .missingInput => "Missing input file: beamview render <file.json>"
  | .wrongExtension path => s!"Input must be a .json term file, got '{path}'"

namespace Command

def flag? (argument : String) : Option Flag :=
  if argument = "--lines" then some .lineComments
  else if argument = "--hide-warnings" then some .hideWarnings
  else if argument = "--hide-timers" then some .hideTimers
  else none

def isFlagLike (argument : String) : Bool :=
  "--".toList.isPrefixOf argument.toList

structure Draft where
  input : Option String := none
  settings : Option String := none
  flags : List Flag := []

def Draft.read (draft : Draft) : List String → Except ArgumentError Draft
  | [] => .ok draft
  | "--config" :: rest =>
    match rest with
    | [] => .error .missingSettings
    | path :: rest =>
      if isFlagLike path then .error .missingSettings
      else { draft with settings := some path }.read rest
  | argument :: rest =>
    match flag? argument with
    | some flag => { draft with flags := draft.flags ++ [flag] }.read rest
    | none =>
      if isFlagLike argument then .error (.unknownFlag argument)
      else if draft.input.isSome then .error .severalInputs
      else { draft with input := some argument }.read rest

/-- A command needs an input file, with the extension of term files. -/
def Draft.finish (draft : Draft) : Except ArgumentError Command :=
  match draft.input with
  | none => .error .missingInput
  | some input =>
    if Path.extension? input = some "json" then .ok (.render input draft.settings draft.flags)
    else .error (.wrongExtension input)

def parse : List String → Except ArgumentError Command
  | [] => .ok .help
  | name :: rest =>
    if name = "help" ∨ name = "--help" then .ok .help
    else if name = "render" then
      match Draft.read {} rest with
      | .ok draft => draft.finish
      | .error error => .error error
    else .error (.unknownCommand name)

end Command

end Legible
