import Legible.Term.Construct

/-!
Payloads of debug metadata and the forms in them.

Forms come as a bare list, under the tag of a raw chunk, or under the tag of a newer chunk next to
the name of the backend that wrote it and its options.
-/

set_option autoImplicit false

namespace Legible

inductive PayloadError where
  /-- The layout is known but holds something else in place of the list. -/
  | notForms (layout : String) (found : Term)
  | foreignBackend (found : Term)
  | noCode (found : Term)
  | unrecognised (found : Term)

namespace Payload

def rawLayout : String := "raw_abstract_v1"

def chunkLayout : String := "debug_info_v1"

def backend : String := "erl_abstract_code"

def formsOf (layout : String) : Term → Except PayloadError (List Term)
  | .list forms => .ok forms
  | found => .error (.notForms layout found)

def forms : Term → Except PayloadError (List Term)
  | .list forms => .ok forms
  | .tuple [.atom tag, data] =>
    if tag = rawLayout then formsOf rawLayout data
    else .error (.unrecognised (.tuple [.atom tag, data]))
  | .tuple [.atom tag, writer, data] =>
    if tag = chunkLayout then
      if writer.atom? = some backend then
        match data with
        | .tuple [found, _] => formsOf chunkLayout found
        | found => .error (.noCode found)
      else .error (.foreignBackend writer)
    else .error (.unrecognised (.tuple [.atom tag, writer, data]))
  | found => .error (.unrecognised found)

end Payload

namespace PayloadError

def message : PayloadError → String
  | .notForms layout _ => layout ++ " payload does not hold a list of forms"
  | .foreignBackend _ => "Debug info was written by a backend other than " ++ Payload.backend
  | .noCode _ => "Debug info carries no abstract code (compiled without debug_info?)"
  | .unrecognised _ => "Term is not a recognised debug info payload"

def found : PayloadError → String
  | .notForms _ found | .unrecognised found => found.label
  | .foreignBackend found | .noCode found => found.text

def expected? : PayloadError → Option String
  | .notForms .. => none
  | .foreignBackend _ => some Payload.backend
  | .noCode _ => some "\x7bForms, Options\x7d"
  | .unrecognised _ => some
    ("[Form] | \x7braw_abstract_v1, [Form]\x7d | " ++
      "\x7bdebug_info_v1, erl_abstract_code, \x7b[Form], Options\x7d\x7d")

def location? : PayloadError → Option String
  | .notForms layout _ => some layout
  | _ => none

end PayloadError

end Legible
