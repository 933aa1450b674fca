import Legible.Layout.Setting

/-!
Settings documents: one setting a line, in any order and each at most once. What a document leaves
out is as in the default layout.
-/

set_option autoImplicit false

namespace Legible

namespace Setting

/-- Lines of a document. A carriage return counts only before a line feed. -/
def documentLines : List (List Char) → List (List Char)
  | [] => []
  | [last] => [last]
  | piece :: later => Text.dropReturn piece :: documentLines later

def ofLines? : List (List Char) → Option (List Setting)
  | [] => some []
  | line :: later =>
    if isOver line then ofLines? later
    else match ofLine? line with
      | some setting => (ofLines? later).map (setting :: ·)
      | none => none

def dropMark : List Char → List Char
  | '\uFEFF' :: rest => rest
  | text => text

/-- The settings of a document, which must all have different keys. -/
def ofDocument? (text : String) : Option (List Setting) :=
  let lines := documentLines (Text.piecesFrom [] (dropMark text.toList))
  (ofLines? lines).filter fun settings => (settings.map key).Nodup

end Setting

def Layout.ofDocument? (text : String) : Option Layout :=
  (Setting.ofDocument? text).map (List.foldl Setting.apply {})

end Legible
