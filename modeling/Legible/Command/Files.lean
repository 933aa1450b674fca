import Legible.Command.Path
import Legible.Problem

/-!
Files as a command sees them: from reads of some paths that were made before, or from a tree of
files below one directory.
-/

set_option autoImplicit false

namespace Legible

structure Files where
  read : String → Except ReadFault String
  isFile : String → Bool

namespace Files

/-- Whether the answer to a read tells of a file: of anything that is there and no directory, also
if it cannot be read or is a device. -/
def tellsFile : Except ReadFault String → Bool
  | .ok _ | .error .notText | .error .denied => true
  | .error _ => false

def ofReads (reads : List (String × Except ReadFault String)) : Files :=
  let read (path : String) := (reads.lookup path).getD (.error .missing)
  { read, isFile := fun path => tellsFile (read path) }

end Files

/-- Files with their contents, by their path from one directory. Directories are those that hold a
file. Above that directory there are directories too, in which nothing more is known, and outside
of it there is what every system has. -/
structure FileTree where
  files : List (List String × String)

namespace FileTree

def longestPath : Nat := 4095

def longestName : Nat := 255

def components (path : String) : List String :=
  (path.toList.splitOn '/').map String.ofList

inductive Place where
  /-- A path from the tree's own directory. -/
  | within (path : List String)
  | above
  /-- A path from the topmost directory. -/
  | outside (path : List String)
  deriving DecidableEq, Repr

def Place.parent : Place → Place
  | .within [] | .above => .above
  | .within path => .within path.dropLast
  | .outside path => .outside path.dropLast

def Place.child? (name : String) : Place → Option Place
  | .within path => some (.within (path ++ [name]))
  | .above => none
  | .outside path => some (.outside (path ++ [name]))

inductive Node where
  | file (content : String)
  | directory
  /-- A device that is always at its end. -/
  | null
  deriving DecidableEq, Repr

def isBelow : List String → List String → Bool
  | [], _ :: _ => true
  | d :: directory, p :: path => d == p && isBelow directory path
  | _, [] => false

/-- What every system has at a path from its topmost directory. -/
def standard? : List String → Option Node
  | [] | ["dev"] | ["tmp"] => some .directory
  | ["dev", "null"] => some .null
  | _ => none

def node? (tree : FileTree) : Place → Option Node
  | .above | .within [] => some .directory
  | .outside path => standard? path
  | .within path =>
    match tree.files.lookup path with
    | some content => some (.file content)
    | none => if tree.files.any (isBelow path ·.1) then some .directory else none

def step (place : Place) (component : String) : Except ReadFault Place :=
  if component = "" ∨ component = "." then .ok place
  else if component = ".." then .ok place.parent
  else if longestName < component.utf8ByteSize then .error .nameTooLong
  else match place.child? component with
    | some child => .ok child
    | none => .error .missing

/-- Follow components of a path; all but the last must lead to directories. -/
def walk (tree : FileTree) (place : Place) (components : List String) : Except ReadFault Node :=
  match tree.node? place, components with
  | none, _ => .error .missing
  | some node, [] => .ok node
  | some (.file _), _ :: _ | some .null, _ :: _ => .error .notDirectory
  | some .directory, component :: rest =>
    match step place component with
    | .ok next => tree.walk next rest
    | .error fault => .error fault
termination_by structural components

def start (path : String) : Place :=
  if path.toList.head? = some '/' then .outside [] else .within []

def find (tree : FileTree) (path : String) : Except ReadFault Node :=
  if path.isEmpty then .error .missing
  else if longestPath < path.utf8ByteSize then .error .nameTooLong
  else tree.walk (start path) (components path)

def read (tree : FileTree) (path : String) : Except ReadFault String :=
  match tree.find path with
  | .ok (.file content) => .ok content
  | .ok .null => .ok ""
  | .ok .directory => .error .isDirectory
  | .error fault => .error fault

def isFile (tree : FileTree) (path : String) : Bool :=
  match tree.find path with
  | .ok (.file _) => true
  | _ => false

def ofPaths (files : List (String × String)) : FileTree where
  files := files.map fun (path, content) => (components path, content)

def view (tree : FileTree) : Files where
  read := tree.read
  isFile := tree.isFile

end FileTree

end Legible
