/-!
Paths of files: the name at their end, its extension, and the directory before it.

Repeated and trailing separators mean nothing, and neither does a component of a single dot, unless
it starts the path.
-/

set_option autoImplicit false

namespace Legible.Path

/-- A reversed path without what means nothing at its end. -/
def trimReversed : List Char → List Char
  | ['/'] => ['/']
  | '/' :: rest => trimReversed rest
  | '.' :: '/' :: rest => trimReversed ('/' :: rest)
  | path => path

def reversed (path : String) : List Char :=
  trimReversed path.toList.reverse

def fileName? (path : String) : Option (List Char) :=
  let name := ((reversed path).takeWhile (· ≠ '/')).reverse
  if name = [] ∨ name = ['.'] ∨ name = ['.', '.'] then none else some name

/-- The part of a file's name after its last dot. A dot at the start of the name is none. -/
def extension? (path : String) : Option String :=
  match fileName? path with
  | some name =>
    let ending := name.reverse.takeWhile (· ≠ '.')
    if ending.length + 1 < name.length then some (String.ofList ending.reverse) else none
  | none => none

def parent (path : String) : String :=
  String.ofList (trimReversed ((reversed path).dropWhile (· ≠ '/'))).reverse

def join (directory name : String) : String :=
  match directory.toList.getLast? with
  | none => name
  | some '/' => directory ++ name
  | some _ => directory ++ "/" ++ name

end Legible.Path
