import Legible.Json.Token
import Legible.Term.Basic

/-!
Terms in JSON.

Each term is an object with one member. The member's name says what kind of term it is, and its
value is a string, a number or an array of terms. Open arrays are kept on a stack, so terms nest
to any depth. A number is a literal, or an object that holds the text of one under a reserved key.
-/

set_option autoImplicit false

namespace Legible.Json

/-- An array of terms that is not closed yet. -/
structure Frame where
  build : List Term → Term
  /-- The elements read so far, the last one first. -/
  read : List Term

def Frame.push (frame : Frame) (t : Term) : Frame :=
  { frame with read := t :: frame.read }

def Frame.close (frame : Frame) (t : Term) : Term :=
  frame.build (t :: frame.read).reverse

/-- The key under which a number can stand as the text of its literal. -/
def literalKey : String := "$serde_json::private::Number"

mutual

def readTerm? (frames : List Frame) : List Token → Option Term
  | .openBrace :: .string key :: .colon :: .string text :: .closeBrace :: rest =>
    if key = "atom" then finish? frames (.atom text) rest
    else if key = "string" then finish? frames (.string text) rest
    else none
  | .openBrace :: .string key :: .colon :: .number literal :: .closeBrace :: rest =>
    if key = "number" then finish? frames (.number (Number.ofNumeral literal)) rest
    else none
  | .openBrace :: .string key :: .colon ::
      .openBrace :: .string inner :: .colon :: .string text :: .closeBrace :: .closeBrace :: rest =>
    if key = "number" ∧ inner = literalKey then
      match Decimal.Numeral.ofText? text.toList with
      | some literal => finish? frames (.number (Number.ofNumeral literal)) rest
      | none => none
    else none
  | .openBrace :: .string key :: .colon :: .openBracket :: .closeBracket :: .closeBrace :: rest =>
    if key = "tuple" then finish? frames (.tuple []) rest
    else if key = "list" then finish? frames (.list []) rest
    else none
  | .openBrace :: .string key :: .colon :: .openBracket :: rest =>
    if key = "tuple" then readTerm? (⟨.tuple, []⟩ :: frames) rest
    else if key = "list" then readTerm? (⟨.list, []⟩ :: frames) rest
    else none
  | _ => none

/-- Put a term into the innermost open array; without one, the text must end. -/
def finish? (frames : List Frame) (t : Term) : List Token → Option Term
  | .comma :: rest =>
    match frames with
    | frame :: outer => readTerm? (frame.push t :: outer) rest
    | [] => none
  | .closeBracket :: .closeBrace :: rest =>
    match frames with
    | frame :: outer => finish? outer (frame.close t) rest
    | [] => none
  | [] => if frames.isEmpty then some t else none
  | _ => none

end

end Legible.Json

namespace Legible

def Term.ofJson? (text : String) : Option Term :=
  (Json.tokens? text.toList).bind (Json.readTerm? [])

end Legible
