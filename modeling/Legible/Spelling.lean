import Legible.Character.Lowercase
import Legible.Character.Hidden
import Legible.Character.Scalar
import Legible.Decimal.Digits
import Legible.Text.Quoted

/-!
How names, atoms and characters are written in Elixir source.

A name that is an identifier stands bare. Any other one is put between quotes, in the form that
its position asks for.
-/

set_option autoImplicit false

namespace Legible.Spelling

def identifierChar (c : Char) : Bool :=
  c.isAlphanum || c = '_' || c = '@'

def identifierRest : List Char → Bool
  | [] => true
  | c :: rest =>
    if identifierChar c then identifierRest rest else (c = '?' || c = '!') && rest.isEmpty

/-- Whether a name has the form `[a-z_][a-zA-Z0-9_@]*[?!]?`. -/
def isIdentifier (name : String) : Bool :=
  match name.toList with
  | [] => false
  | first :: rest => (first.isLower || first = '_') && identifierRest rest

/-- Segments that start with a capital letter, with a dot between them. `fresh` says that a
segment must start here. -/
def aliasFrom (fresh : Bool) : List Char → Bool
  | [] => !fresh
  | c :: rest =>
    if fresh then c.isUpper && aliasFrom false rest
    else if c = '.' then aliasFrom true rest
    else (c.isAlphanum || c = '_') && aliasFrom false rest

/-- Whether a name is one segment `[A-Z][A-Za-z0-9_]*` or several with dots between. -/
def isAlias (name : List Char) : Bool :=
  aliasFrom true name

def after? : List Char → List Char → Option (List Char)
  | [], text => some text
  | _ :: _, [] => none
  | s :: start, c :: text => if s = c then after? start text else none

theorem after?_eq_some_iff {start text rest : List Char} :
    after? start text = some rest ↔ text = start ++ rest := by
  induction start generalizing text with
  | nil => simp [after?]
  | cons s start ih =>
    cases text with
    | nil => simp [after?]
    | cons c text => simp [after?, ih, eq_comm (a := s)]

def alias? (atom : String) : Option String :=
  match after? "Elixir.".toList atom.toList with
  | some name => if isAlias name then some (String.ofList name) else none
  | none => none

theorem alias?_eq_some_iff {atom name : String} :
    alias? atom = some name ↔ atom = "Elixir." ++ name ∧ isAlias name.toList := by
  unfold alias?
  split
  next rest after =>
    rw [after?_eq_some_iff] at after
    have whole : atom = "Elixir." ++ String.ofList rest := by simpa [String.ext_iff] using after
    rw [whole, String.append_right_inj, Option.ite_none_right_eq_some, Option.some.injEq, and_comm]
    exact and_congr_right fun same => by rw [← same, String.toList_ofList]
  next missing =>
    refine iff_of_false nofun ?_
    rintro ⟨rfl, -⟩
    rw [String.toList_append, after?_eq_some_iff.2 rfl] at missing
    cases missing

def isBareAtom (atom : String) : Bool :=
  atom = "true" || atom = "false" || atom = "nil"

def ofAtom (name : String) : String :=
  if isBareAtom name then name
  else match alias? name with
    | some found => found
    | none => ":" ++ if isIdentifier name then name else Text.quoted name

def ofFunction (name : String) : String :=
  if isIdentifier name then name else "unquote(:" ++ Text.quoted name ++ ")"

def ofRemoteFunction (name : String) : String :=
  if isIdentifier name then name else Text.quoted name

def ofVariable (name : String) : String :=
  match name.toList with
  | [] => ""
  | first :: rest => String.ofList (Character.lowercase first ++ rest)

def wildcard : String := "_"

/-- A character literal; a control character, or a code that no character has, is a number. -/
def ofChar (code : Int) : String :=
  match Character.ofCode? code with
  | some '\n' => "?\\n"
  | some '\t' => "?\\t"
  | some ' ' => "?\\s"
  | some '\\' => "?\\\\"
  | some c => if Character.control c then Decimal.ofInt code else String.ofList ['?', c]
  | none => Decimal.ofInt code

def ofText (text : String) : String :=
  "~c" ++ Text.quoted text

end Legible.Spelling
