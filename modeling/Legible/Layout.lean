import Legible.Text.Lines

/-!
Layout of the source text: what may vary without a change of meaning.
-/

set_option autoImplicit false

namespace Legible

structure Layout where
  width : Nat := 2
  lineComments : Bool := false
  blankLines : Bool := true
  deriving DecidableEq, Repr

namespace Layout

def unit (layout : Layout) : String :=
  String.ofList (List.replicate layout.width ' ')

def indent (layout : Layout) (text : String) : String :=
  Text.indent layout.width text

def separator (layout : Layout) : String :=
  if layout.blankLines then "\n\n" else "\n"

end Layout

end Legible
