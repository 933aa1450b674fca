import Legible.Layout
import Legible.Proofs.Text.Lines

/-!
Indentation level by level.

A text without carriage returns that does not end in a line feed is the join of its lines: nothing
is lost when it is split, and indented it is the join of the indented lines. So indentation at
several levels is one indentation by the sum of their widths, and the margin can be taken away
again.
-/

set_option autoImplicit false

namespace Legible

namespace Text

theorem indentLine_cons (width : Nat) (c : Char) (line : List Char) :
    indentLine width (c :: line) = List.replicate width ' ' ++ c :: line := rfl

theorem indentLine_zero (line : List Char) : indentLine 0 line = line := by
  cases line <;> rfl

theorem indentLine_indentLine (first second : Nat) (line : List Char) :
    indentLine second (indentLine first line) = indentLine (first + second) line := by
  cases line with
  | nil => rfl
  | cons c line =>
    have nonempty : (List.replicate first ' ' ++ c :: line).isEmpty = false := by simp
    rw [indentLine_cons, indentLine_cons, Nat.add_comm, ← List.replicate_append_replicate,
      List.append_assoc, indentLine, nonempty, if_neg Bool.false_ne_true]

def outdentLine : Nat → List Char → List Char
  | width + 1, ' ' :: line => outdentLine width line
  | _, line => line

theorem outdentLine_indentLine (width : Nat) (line : List Char) :
    outdentLine width (indentLine width line) = line := by
  cases line with
  | nil => cases width <;> rfl
  | cons c line =>
    rw [indentLine_cons]
    induction width with
    | zero => rfl
    | succ width ih => rwa [List.replicate_succ, List.cons_append, outdentLine]

def outdent (width : Nat) (text : String) : String :=
  String.ofList (unlines ((lines text.toList).map (outdentLine width)))

namespace Joinable

variable {lines : List (List Char)}

theorem map_indentLine (joinable : Joinable lines) (width : Nat) :
    Joinable (lines.map (indentLine width)) where
  noFeed := by
    rw [List.forall_mem_map]
    exact fun line member => notMem_indentLine (by decide) (joinable.noFeed line member)
  noReturn := by
    rw [List.forall_mem_map]
    exact fun line member => notMem_indentLine (by decide) (joinable.noReturn line member)
  last := by
    simpa [indentLine_eq_nil_iff] using joinable.last

theorem indented_unlines (joinable : Joinable lines) (width : Nat) :
    indented width (unlines lines) = unlines (lines.map (indentLine width)) := by
  rw [indented, joinable.lines_unlines]

theorem lines_indented (joinable : Joinable lines) (width : Nat) :
    Text.lines (indented width (unlines lines)) = lines.map (indentLine width) := by
  rw [joinable.indented_unlines, (joinable.map_indentLine width).lines_unlines]

theorem indented_indented (joinable : Joinable lines) (first second : Nat) :
    indented second (indented first (unlines lines)) = indented (first + second) (unlines lines) := by
  rw [joinable.indented_unlines, (joinable.map_indentLine first).indented_unlines,
    joinable.indented_unlines, List.map_map]
  congr 2
  funext line
  exact indentLine_indentLine first second line

end Joinable

section
variable {text : String} (noReturn : '\r' ∉ text.toList)
  (noFinalFeed : text.toList.getLast? ≠ some '\n')
include noReturn noFinalFeed

theorem lines_indent (width : Nat) :
    lines (indent width text).toList = (lines text.toList).map (indentLine width) := by
  obtain ⟨content, joinable, joined⟩ := exists_joinable noReturn noFinalFeed
  rw [toList_indent, joined, joinable.lines_indented, joinable.lines_unlines]

/-- Where there is any text, its lines are what line feeds split it into. -/
theorem lines_eq_splitOn (nonempty : text ≠ "") : lines text.toList = text.toList.splitOn '\n' := by
  obtain ⟨content, joinable, joined⟩ := exists_joinable noReturn noFinalFeed
  have someLine : content ≠ [] := by
    rintro rfl
    exact nonempty (String.toList_inj.1 joined)
  rw [joined, joinable.lines_unlines, joinable.splitOn_unlines someLine]

theorem lines_indent_eq_splitOn (nonempty : text ≠ "") (width : Nat) :
    lines (indent width text).toList = (indent width text).toList.splitOn '\n' := by
  obtain ⟨content, joinable, joined⟩ := exists_joinable noReturn noFinalFeed
  have someLine : content.map (indentLine width) ≠ [] := by
    rw [ne_eq, List.map_eq_nil_iff]
    rintro rfl
    exact nonempty (String.toList_inj.1 joined)
  rw [toList_indent, joined, joinable.lines_indented, joinable.indented_unlines,
    (joinable.map_indentLine width).splitOn_unlines someLine]

theorem indent_zero : indent 0 text = text := by
  obtain ⟨content, joinable, joined⟩ := exists_joinable noReturn noFinalFeed
  have same : content.map (indentLine 0) = content :=
    (List.map_congr_left fun line _ => indentLine_zero line).trans (List.map_id _)
  apply String.toList_inj.1
  rw [toList_indent, joined, joinable.indented_unlines, same]

theorem indent_indent (first second : Nat) :
    indent second (indent first text) = indent (first + second) text := by
  obtain ⟨content, joinable, joined⟩ := exists_joinable noReturn noFinalFeed
  apply String.toList_inj.1
  rw [toList_indent, toList_indent, toList_indent, joined, joinable.indented_indented]

theorem outdent_indent (width : Nat) : outdent width (indent width text) = text := by
  obtain ⟨content, joinable, joined⟩ := exists_joinable noReturn noFinalFeed
  have back : (content.map (indentLine width)).map (outdentLine width) = content := by
    simp [Function.comp_def, outdentLine_indentLine]
  rw [outdent, toList_indent, joined, joinable.lines_indented, back, ← joined, String.ofList_toList]

end

end Text

namespace Layout

/-- A text inside several blocks, from the innermost one outwards. -/
def nest (layouts : List Layout) (text : String) : String :=
  layouts.foldl (fun inner layout => layout.indent inner) text

def depth : List Layout → Nat
  | [] => 0
  | layout :: layouts => layout.width + depth layouts

section
variable {text : String} (noReturn : '\r' ∉ text.toList)
  (noFinalFeed : text.toList.getLast? ≠ some '\n')
include noReturn noFinalFeed

theorem nest_indent (layouts : List Layout) (width : Nat) :
    nest layouts (Text.indent width text) = Text.indent (width + depth layouts) text := by
  induction layouts generalizing width with
  | nil => rfl
  | cons layout layouts ih =>
    have deeper := Text.indent_indent noReturn noFinalFeed width layout.width
    have step : nest (layout :: layouts) (Text.indent width text) =
      nest layouts (Text.indent layout.width (Text.indent width text)) := rfl
    rw [step, deeper, ih, depth, Nat.add_assoc]

theorem nest_eq (layouts : List Layout) :
    nest layouts text = Text.indent (depth layouts) text := by
  have moved := nest_indent noReturn noFinalFeed layouts 0
  rwa [Text.indent_zero noReturn noFinalFeed, Nat.zero_add] at moved

end

/-- For a text without carriage returns that does not end in a line feed, indentation at one level
after another is one indentation by the sum of the widths. It keeps the number of lines, leaves
empty lines empty, puts its spaces before all others, and without these spaces the text is as it
was. Lines are what line feeds split such a text into, but that the empty text has none. -/
theorem indent_reversible (text : String) (noReturn : '\r' ∉ text.toList)
    (noFinalFeed : text.toList.getLast? ≠ some '\n') :
    (∀ first second : Layout, second.indent (first.indent text) =
      { first with width := first.width + second.width }.indent text) ∧
    (∀ layouts, nest layouts text = Text.indent (depth layouts) text) ∧
    ∀ layout : Layout,
      let before := Text.lines text.toList
      let after := Text.lines (layout.indent text).toList
      (text ≠ "" → before = text.toList.splitOn '\n' ∧
        after = (layout.indent text).toList.splitOn '\n') ∧
      after.length = before.length ∧
      (∀ (i : Nat) (line : List Char), before[i]? = some line → ∃ moved, after[i]? = some moved ∧
        (moved = [] ↔ line = []) ∧
        (line ≠ [] → moved = List.replicate layout.width ' ' ++ line)) ∧
      Text.outdent layout.width (layout.indent text) = text := by
  refine ⟨fun first second => Text.indent_indent noReturn noFinalFeed first.width second.width,
    nest_eq noReturn noFinalFeed, ?_⟩
  intro layout before after
  have lines : after = before.map (Text.indentLine layout.width) :=
    Text.lines_indent noReturn noFinalFeed layout.width
  refine ⟨fun nonempty => ⟨?_, ?_⟩, by rw [lines, List.length_map], fun i line found => ?_,
    Text.outdent_indent noReturn noFinalFeed layout.width⟩
  · exact Text.lines_eq_splitOn noReturn noFinalFeed nonempty
  · exact Text.lines_indent_eq_splitOn noReturn noFinalFeed nonempty layout.width
  refine ⟨Text.indentLine layout.width line, ?_, Text.indentLine_eq_nil_iff, fun nonempty => ?_⟩
  · rw [lines, List.getElem?_map, found, Option.map_some]
  · rw [Text.indentLine, if_neg (by simpa using nonempty)]

/-- A block with an empty line, two levels deep. -/
theorem indent_reversible_block :
    let text := "if x do\n\n  y\nend"
    let inner : Layout := { width := 3 }
    '\r' ∉ text.toList ∧ text.toList.getLast? ≠ some '\n' ∧
    Layout.indent {} (inner.indent text) = "     if x do\n\n       y\n     end" ∧
    (Text.lines (inner.indent text).toList).length = 4 ∧
    Text.outdent 3 (inner.indent text) = text := by
  intro text inner
  have noReturn : '\r' ∉ text.toList := by decide
  have noFinalFeed : text.toList.getLast? ≠ some '\n' := by decide
  obtain ⟨composed, -, each⟩ := indent_reversible text noReturn noFinalFeed
  obtain ⟨-, count, -, back⟩ := each inner
  exact ⟨noReturn, noFinalFeed, (composed inner {}).trans (by decide), count.trans (by decide), back⟩

/-- A line feed at the end is lost at each level, and so is a carriage return that another one
precedes at the end of a line. -/
example :
    Text.indent 1 (Text.indent 1 "x\n\n") = "  x" ∧ Text.indent 2 "x\n\n" = "  x\n" ∧
    Text.indent 1 (Text.indent 1 "x\r\r\ny") = "  x\n  y" ∧
    Text.indent 2 "x\r\r\ny" = "  x\r\n  y" := by
  decide

end Layout

end Legible
