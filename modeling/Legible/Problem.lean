import Legible.Layout.Document
import Legible.Json.Terms
import Legible.Module.Render
import Legible.Payload

/-!
Problems that keep a module from being rendered: files that cannot be read, documents that cannot be
understood and payloads without forms.
-/

set_option autoImplicit false

namespace Legible

inductive ReadFault where
  | missing
  | denied
  | notDirectory
  | isDirectory
  | nameTooLong
  | notText
  | other (message : String)
  deriving DecidableEq, Repr

def ReadFault.message : ReadFault → String
  | .missing => "No such file or directory (os error 2)"
  | .denied => "Permission denied (os error 13)"
  | .notDirectory => "Not a directory (os error 20)"
  | .isDirectory => "Is a directory (os error 21)"
  | .nameTooLong => "File name too long (os error 36)"
  | .notText => "stream did not contain valid UTF-8"
  | .other message => message

inductive FileRole where
  | input
  | settings
  deriving DecidableEq, Repr

def FileRole.text : FileRole → String
  | .input => "input"
  | .settings => "config"

inductive Problem where
  | file (role : FileRole) (fault : ReadFault)
  | settings
  | decoding
  | payload (error : PayloadError)

namespace Problem

def label : Problem → String
  | .file .. => "File Error"
  | .decoding => "Term Decoding Error"
  | .settings => "Malformed Config"
  | .payload _ => "Unrecognised Debug Info"

def message : Problem → String
  | .file role fault => s!"Could not read {role.text}: {fault.message}"
  | .decoding => "not the JSON text of one term"
  | .settings => "not a settings document"
  | .payload error => error.message

def found? : Problem → Option String
  | .payload error => some error.found
  | _ => none

def expected? : Problem → Option String
  | .payload error => error.expected?
  | _ => none

def location? : Problem → Option String
  | .payload error => error.location?
  | _ => none

def help? : Problem → Option String
  | .decoding => some
    ("terms are externally tagged, e.g. \x7b\"tuple\": [\x7b\"atom\": \"var\"\x7d, " ++
      "\x7b\"number\": 1\x7d, \x7b\"atom\": \"X\"\x7d]\x7d")
  | .settings => some
    "supported keys are indent_width, emit_line_comments, blank_line_between_forms"
  | _ => none

end Problem

def Term.ofJson (text : String) : Except Problem Term :=
  match Term.ofJson? text with
  | some t => .ok t
  | none => .error .decoding

def Layout.ofDocument (text : String) : Except Problem Layout :=
  match Layout.ofDocument? text with
  | some layout => .ok layout
  | none => .error .settings

def ModuleRendering.ofPayload (layout : Layout) (payload : Term) :
    Except Problem ModuleRendering :=
  match Payload.forms payload with
  | .ok forms => .ok (ofForms layout forms)
  | .error error => .error (.payload error)

end Legible
