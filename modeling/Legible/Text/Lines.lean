/-!
Lines of a text and their indentation.

A line ends at a line feed, which takes a carriage return right before it with it. A last line
that is empty is no line, so a text and the same text with one more line feed have equal lines.

Indentation is written in one pass over the text. The main statement, `indent_eq`, says that this
indents each line on its own.
-/

set_option autoImplicit false

namespace Legible.Text

/-- Split at every line feed; there is always at least one piece. -/
def pieces : List Char → List (List Char)
  | [] => [[]]
  | '\n' :: rest => [] :: pieces rest
  | c :: rest => match pieces rest with
    | [] => [[c]]
    | piece :: later => (c :: piece) :: later

theorem pieces_ne_nil (text : List Char) : pieces text ≠ [] := by
  fun_cases pieces text <;> simp_all

/-- Split at every line feed, given the reversed start of the first piece; one stack frame a line. -/
def piecesFrom (start : List Char) : List Char → List (List Char)
  | [] => [start.reverse]
  | '\n' :: rest => start.reverse :: piecesFrom [] rest
  | c :: rest => piecesFrom (c :: start) rest

def dropReturn (line : List Char) : List Char :=
  if line.getLast? = some '\r' then line.dropLast else line

theorem dropReturn_cons (c : Char) {line : List Char} (nonempty : line ≠ []) :
    dropReturn (c :: line) = c :: dropReturn line := by
  cases line with
  | nil => exact absurd rfl nonempty
  | cons d line =>
    simp only [dropReturn, List.getLast?_cons_cons]
    split <;> simp

/-- Lines of a split text: each piece but the last gave up a line feed. -/
def linesOfPieces : List (List Char) → List (List Char)
  | [] => []
  | [last] => if last.isEmpty then [] else [last]
  | piece :: later => dropReturn piece :: linesOfPieces later

def lines (text : List Char) : List (List Char) :=
  linesOfPieces (pieces text)

@[simp] theorem lines_nil : lines [] = [] := rfl

@[simp] theorem lines_newline (rest : List Char) : lines ('\n' :: rest) = [] :: lines rest := by
  rw [lines, lines, pieces]
  cases h : pieces rest with
  | nil => exact absurd h (pieces_ne_nil rest)
  | cons piece later => simp [linesOfPieces, dropReturn]

@[simp] theorem lines_return_newline (rest : List Char) :
    lines ('\r' :: '\n' :: rest) = [] :: lines rest := by
  rw [lines, lines]
  cases h : pieces rest with
  | nil => exact absurd h (pieces_ne_nil rest)
  | cons piece later => simp [pieces, h, linesOfPieces, dropReturn]

def consLine (c : Char) : List (List Char) → List (List Char)
  | [] => [[c]]
  | line :: later => (c :: line) :: later

theorem lines_cons {c : Char} {rest : List Char} (notFeed : c ≠ '\n')
    (notReturn : c = '\r' → rest.head? ≠ some '\n') :
    lines (c :: rest) = consLine c (lines rest) := by
  have first : pieces (c :: rest) = consLine c (pieces rest) := by
    rw [pieces]
    · cases pieces rest <;> rfl
    · exact notFeed
  rw [lines, lines, first]
  cases rest with
  | nil => simp [pieces, consLine, linesOfPieces]
  | cons d rest =>
    by_cases feed : d = '\n'
    · subst feed
      have ne : c ≠ '\r' := fun eq => notReturn eq rfl
      cases h : pieces rest with
      | nil => exact absurd h (pieces_ne_nil rest)
      | cons piece later => simp [pieces, h, consLine, linesOfPieces, dropReturn, ne]
    · cases h : pieces (d :: rest) with
      | nil => exact absurd h (pieces_ne_nil _)
      | cons piece later =>
        have ne : piece ≠ [] := by
          rw [pieces] at h
          · split at h <;> (cases h; simp)
          · exact feed
        cases later with
        | nil => simp [consLine, linesOfPieces, ne]
        | cons next later => simp [consLine, linesOfPieces, dropReturn_cons c ne]

theorem lines_ne_nil {text : List Char} (nonempty : text ≠ []) : lines text ≠ [] := by
  cases text with
  | nil => exact absurd rfl nonempty
  | cons c rest =>
    by_cases feed : c = '\n'
    · subst feed
      simp
    · by_cases both : c = '\r' ∧ rest.head? = some '\n'
      · obtain ⟨rfl, head⟩ := both
        cases rest with
        | nil => simp at head
        | cons d rest =>
          simp only [List.head?_cons, Option.some.injEq] at head
          subst head
          simp
      · rw [lines_cons feed fun isReturn head => both ⟨isReturn, head⟩]
        cases lines rest <;> simp [consLine]

def unlines : List (List Char) → List Char
  | [] => []
  | [line] => line
  | line :: later => line ++ '\n' :: unlines later

theorem unlines_cons {first : List Char} {later : List (List Char)} (nonempty : later ≠ []) :
    unlines (first :: later) = first ++ '\n' :: unlines later := by
  cases later with
  | nil => exact absurd rfl nonempty
  | cons => rfl

/-- Move a line to the right, unless it is empty. -/
def indentLine (width : Nat) (line : List Char) : List Char :=
  if line.isEmpty then [] else List.replicate width ' ' ++ line

@[simp] theorem indentLine_nil (width : Nat) : indentLine width [] = [] := rfl

/-- Indent lines, the first of them only if all of it is there. -/
def indentLines (width : Nat) (fresh : Bool) : List (List Char) → List (List Char)
  | [] => []
  | first :: later =>
    (if fresh then indentLine width first else first) :: later.map (indentLine width)

@[simp] theorem indentLines_true (width : Nat) (lines : List (List Char)) :
    indentLines width true lines = lines.map (indentLine width) := by
  cases lines <;> rfl

theorem unlines_newline (width : Nat) (fresh : Bool) {rest : List Char}
    (nonempty : rest ≠ []) :
    unlines (indentLines width fresh ([] :: lines rest)) =
      '\n' :: unlines ((lines rest).map (indentLine width)) := by
  have : (lines rest).map (indentLine width) ≠ [] := by simpa using lines_ne_nil nonempty
  simp [indentLines, unlines_cons this]

theorem unlines_consLine (width : Nat) (fresh : Bool) (c : Char)
    (lines : List (List Char)) :
    unlines (indentLines width fresh (consLine c lines)) =
      (if fresh then List.replicate width ' ' else []) ++
        c :: unlines (indentLines width false lines) := by
  cases lines with
  | nil => cases fresh <;> simp [consLine, indentLines, indentLine, unlines]
  | cons line later =>
    cases later <;> cases fresh <;> simp [consLine, indentLines, indentLine, unlines]

/-- Indent the rest of a text after what is written of it. `fresh` says that a line starts here. -/
def indentFrom (margin written : String) (fresh : Bool) : List Char → String
  | [] => written
  | '\n' :: rest =>
    if rest.isEmpty then written else indentFrom margin (written.push '\n') true rest
  | '\r' :: '\n' :: rest =>
    if rest.isEmpty then written else indentFrom margin (written.push '\n') true rest
  | c :: rest =>
    indentFrom margin ((if fresh then written ++ margin else written).push c) false rest

theorem toList_indentFrom (width : Nat) (written : String) (fresh : Bool) (text : List Char) :
    (indentFrom (String.ofList (List.replicate width ' ')) written fresh text).toList =
      written.toList ++ unlines (indentLines width fresh (lines text)) := by
  generalize eq : String.ofList (List.replicate width ' ') = margin
  fun_induction indentFrom margin written fresh text with
  | case1 written fresh => simp [indentLines, unlines]
  | case2 written fresh rest last =>
    rw [List.isEmpty_iff.1 last]
    cases fresh <;> simp [indentLines, unlines]
  | case3 written fresh rest more ih =>
    rw [ih, lines_newline, unlines_newline width fresh (by simpa using more)]
    simp
  | case4 written fresh rest last =>
    rw [List.isEmpty_iff.1 last]
    cases fresh <;> simp [indentLines, unlines]
  | case5 written fresh rest more ih =>
    rw [ih, lines_return_newline, unlines_newline width fresh (by simpa using more)]
    simp
  | case6 written fresh c rest notFeed notReturn ih =>
    have plain : c = '\r' → rest.head? ≠ some '\n' := by
      rintro rfl head
      cases rest with
      | nil => simp at head
      | cons d rest =>
        simp only [List.head?_cons, Option.some.injEq] at head
        exact notReturn rest rfl (by rw [head])
    rw [ih, lines_cons notFeed plain, unlines_consLine]
    subst eq
    cases fresh <;> simp

def indent (width : Nat) (text : String) : String :=
  indentFrom (String.ofList (List.replicate width ' ')) "" true text.toList

theorem indent_eq (width : Nat) (text : String) :
    indent width text =
      String.ofList (unlines ((lines text.toList).map (indentLine width))) := by
  apply String.toList_inj.1
  rw [indent, toList_indentFrom]
  simp

def spansLines (text : String) : Bool :=
  text.contains '\n'

theorem spansLines_iff (text : String) : spansLines text ↔ '\n' ∈ text.toList := by
  simp [spansLines, String.contains_char_eq]

end Legible.Text
