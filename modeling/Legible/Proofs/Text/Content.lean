import Legible.Proofs.Decimal.Characters
import Legible.Proofs.Text.Margins

/-!
What the lines of a text say whatever its layout.

Margins, empty lines and comments that tell where a form stood are left out. A text that becomes
part of another one says the same there, once the carriage returns are gone that its lines give up:
each line gives up one inside of the text, and one more inside of the other.
-/

set_option autoImplicit false

namespace Legible.Text

def isInteger : List Char → Bool
  | '-' :: digits => !digits.isEmpty && digits.all Char.isDigit
  | digits => !digits.isEmpty && digits.all Char.isDigit

/-- Whether a line is a comment that tells where a form stood. -/
def isLineComment : List Char → Bool
  | '#' :: ' ' :: 'l' :: 'i' :: 'n' :: 'e' :: ' ' :: number => isInteger number
  | _ => false

/-- The lines that say something, without their margins. -/
def kept (lines : List (List Char)) : List (List Char) :=
  (lines.map withoutMargin).filter fun line => !line.isEmpty && !isLineComment line

def content (text : String) : List (List Char) :=
  kept (lines text.toList)

@[simp] theorem kept_append (before after : List (List Char)) :
    kept (before ++ after) = kept before ++ kept after := by
  simp [kept]

theorem map_withoutMargin_dropReturn (lines : List (List Char)) :
    (lines.map dropReturn).map withoutMargin = (lines.map withoutMargin).map dropReturn := by
  simp [withoutMargin_dropReturn]

theorem kept_map_indentLine (width : Nat) (lines : List (List Char)) :
    kept ((lines.map (indentLine width)).map dropReturn) = kept (lines.map dropReturn) := by
  simp [kept, Function.comp_def, withoutMargin_dropReturn]

theorem isInteger_ofInt (n : Int) : isInteger (Decimal.ofInt n).toList := by
  have spelled : ∀ n, Decimal.digits n ≠ [] ∧ ∀ c ∈ Decimal.digits n, c.isDigit := fun n =>
    ⟨Decimal.digits_ne_nil n, fun c => Decimal.isDigit_of_mem_digits⟩
  cases n with
  | ofNat n =>
    obtain ⟨nonempty, digits⟩ := spelled n
    rw [Decimal.ofInt, String.toList_ofList]
    unfold isInteger
    split
    next minus => exact absurd (digits '-' (minus ▸ List.mem_cons_self ..)) (by decide)
    next => simpa using ⟨nonempty, digits⟩
  | negSucc n => simpa [Decimal.ofInt, isInteger] using spelled (n + 1)

/-- What a text says at the end of a body. -/
def closing (text : List Char) : List (List Char) :=
  kept ((lines text).map dropReturn)

/-- What a text says in a body that goes on below it. -/
def leading (text : List Char) : List (List Char) :=
  kept (((pieces text).map dropReturn).map dropReturn)

theorem closing_append_newline (before after : List Char) :
    closing (before ++ '\n' :: after) = leading before ++ closing after := by
  simp [closing, leading, lines_append_newline]

theorem leading_append_newline (before after : List Char) :
    leading (before ++ '\n' :: after) = leading before ++ leading after := by
  simp [leading, pieces_append_newline]

theorem leading_lineComment (n : Int) : leading ("# line " ++ Decimal.ofInt n).toList = [] := by
  have number : ∀ {c : Char}, Decimal.isNumeric c = false → c ∉ (Decimal.ofInt n).toList :=
    fun foreign member => Bool.eq_false_iff.1 foreign (Decimal.isNumeric_of_mem_ofInt member)
  have noFeed := @number '\n' (by decide)
  have noReturn : dropReturn ("# line " ++ Decimal.ofInt n).toList =
      ("# line " ++ Decimal.ofInt n).toList :=
    dropReturn_of_notMem (by simpa using @number '\r' (by decide))
  rw [leading, pieces_of_notMem (by simpa using noFeed)]
  simp only [List.map_cons, List.map_nil, noReturn]
  simp [kept, withoutMargin_cons, isLineComment, isInteger_ofInt]

/-- Texts that say the same wherever they stand in a body. -/
structure SameContent (left right : List Char) : Prop where
  closing : closing left = closing right
  leading : leading left = leading right

theorem SameLines.sameContent {left right : List Char} (same : SameLines left right) :
    SameContent left right where
  closing := by
    simp only [Text.closing, kept, map_withoutMargin_dropReturn, same.lines_eq]
  leading := by
    have pieces : (pieces left).map withoutMargin = (pieces right).map withoutMargin :=
      same.unindented
    simp only [Text.leading, kept, map_withoutMargin_dropReturn, pieces]

end Legible.Text
