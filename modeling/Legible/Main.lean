import Legible.Command.Session

/-!
The command line program. It reads the files that its command names, and prints the answer.
-/

set_option autoImplicit false

namespace Legible

def ReadFault.ofError : IO.Error → ReadFault
  | .noFileOrDirectory .. => .missing
  | .permissionDenied .. => .denied
  -- An error with a path arose on the way to the file, one without it in reading the file.
  | .inappropriateType (some _) .. => .notDirectory
  | .inappropriateType none .. => .isDirectory
  | .invalidArgument (some _) .. => .nameTooLong
  | error => .other (toString error)

def readText (path : String) : IO (Except ReadFault String) := do
  try
    let bytes ← IO.FS.readBinFile path
    match String.fromUTF8? bytes with
    | some text => return .ok text
    | none => return .error .notText
  catch error => return .error (.ofError error)

def readFiles (paths : List String) : IO Files := do
  let reads ← paths.mapM fun path => return (path, ← readText path)
  return .ofReads reads

def answer (arguments : List String) : IO Unit := do
  let started ← IO.monoMsNow
  let files ← readFiles (Session.candidates arguments)
  let directory ← IO.currentDir
  let answered ← IO.monoMsNow
  let elapsed := s!"{answered - started}ms"
  IO.print (Terminal.encode (Session.respond files directory.toString elapsed arguments))

end Legible

def main (arguments : List String) : IO Unit :=
  Legible.answer arguments
