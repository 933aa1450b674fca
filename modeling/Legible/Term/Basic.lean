import Legible.Character.Scalar
import Legible.Number
import Legible.Text.Visible

/-!
Terms of compiled debug metadata, before anything is known about what they stand for.
-/

set_option autoImplicit false

namespace Legible

inductive Term where
  | atom (name : String)
  | tuple (elements : List Term)
  | list (elements : List Term)
  | number (value : Number)
  | string (text : String)
  deriving Repr

namespace Term

def atom? : Term → Option String
  | .atom name => some name
  | _ => none

def tuple? : Term → Option (List Term)
  | .tuple elements => some elements
  | _ => none

def list? : Term → Option (List Term)
  | .list elements => some elements
  | _ => none

def number? : Term → Option Number
  | .number value => some value
  | _ => none

def integer? (t : Term) : Option Int64 :=
  t.number?.bind Number.integer?

def tag? : Term → Option String
  | .tuple (.atom tag :: _) => some tag
  | _ => none

def arity? (t : Term) : Option Nat :=
  t.tuple?.map List.length

def element? (t : Term) (position : Nat) : Option Term :=
  t.tuple?.bind (·[position]?)

/-- The line in an annotation, which is a line or a tuple that starts with one. -/
def annotatedLine? : Term → Option Int64
  | .tuple (line :: _) => line.integer?
  | annotation => annotation.integer?

def line? (t : Term) : Option Int64 :=
  (t.element? 1).bind annotatedLine?

def char? (t : Term) : Option Char :=
  t.integer?.bind fun code => Character.ofCode? code.toInt

/-- The characters of a string, which comes as text or as a list of code points. -/
def chars? : Term → Option String
  | .string text => some text
  | .list codes =>
    (codes.mapM fun (code : Term) => code.char?).map String.ofList
  | _ => none

mutual

/-- The term in Erlang's notation, for messages; atoms are written as they are. -/
def text : Term → String
  | .atom name => name
  | .tuple elements => "\x7b" ++ ",".intercalate (texts elements) ++ "\x7d"
  | .list elements => "[" ++ ",".intercalate (texts elements) ++ "]"
  | .number value => value.text
  | .string value => Text.visible value

def texts : List Term → List String
  | [] => []
  | element :: rest => element.text :: texts rest

end

@[simp] theorem texts_eq_map (terms : List Term) : texts terms = terms.map text := by
  induction terms with
  | nil => rfl
  | cons element rest ih => simp [texts, ih]

end Term

end Legible
