import Legible.Proofs.Spelling.Variable
import Legible.Text.Lines

/-!
Texts that differ only in pins.

`Unpins` drops carets that stand right before a variable. Nothing that rendering asks about a text
changes when such a caret is dropped: whether it is empty, starts with a sign or has several lines.
Texts are alike if both come down to one text in that way.
-/

set_option autoImplicit false

namespace Legible.Text

open Spelling (opensVariable)

/-- The second text is the first one without some of the carets before variables. -/
inductive Unpins : List Char → List Char → Prop
  | nil : Unpins [] []
  | keep {text bare : List Char} (c : Char) : Unpins text bare → Unpins (c :: text) (c :: bare)
  | drop {c : Char} {text bare : List Char} : opensVariable c → Unpins text bare →
      Unpins ('^' :: c :: text) (c :: bare)

namespace Unpins

@[simp] theorem refl (text : List Char) : Unpins text text := by
  induction text with
  | nil => exact .nil
  | cons c rest ih => exact .keep c ih

theorem append {first second bareFirst bareSecond : List Char} (before : Unpins first bareFirst)
    (after : Unpins second bareSecond) : Unpins (first ++ second) (bareFirst ++ bareSecond) := by
  induction before with
  | nil => exact after
  | keep c _ ih => exact .keep c ih
  | drop opens _ ih => exact .drop opens ih

theorem eq_nil_iff {text bare : List Char} (unpins : Unpins text bare) :
    text = [] ↔ bare = [] := by
  cases unpins <;> simp

theorem head?_eq_iff {text bare : List Char} (unpins : Unpins text bare) {c : Char}
    (notCaret : c ≠ '^') (notOpening : opensVariable c = false) :
    text.head? = some c ↔ bare.head? = some c := by
  cases unpins with
  | nil | keep => rfl
  | drop opens =>
    constructor
    · intro head
      exact absurd (Option.some_inj.1 head).symm notCaret
    · intro head
      obtain rfl := Option.some_inj.1 head
      exact absurd opens (Bool.eq_false_iff.1 notOpening)

theorem mem_iff {text bare : List Char} (unpins : Unpins text bare) {c : Char}
    (notCaret : c ≠ '^') : c ∈ text ↔ c ∈ bare := by
  induction unpins with
  | nil => rfl
  | keep => simp_all
  | drop => simp_all

theorem filter_eq {text bare : List Char} (unpins : Unpins text bare) :
    text.filter (· ≠ '^') = bare.filter (· ≠ '^') := by
  induction unpins with
  | nil => rfl
  | keep c _ ih => simp only [List.filter_cons, ih]
  | drop _ _ ih =>
    simp only [List.filter_cons, ih]
    simp

theorem indented_newline {text bare : List Char} (unpins : Unpins text bare) (width : Nat)
    (fresh : Bool)
    (rest : Unpins (unlines (indentLines width true (lines text)))
      (unlines (indentLines width true (lines bare)))) :
    Unpins (unlines (indentLines width fresh ([] :: lines text)))
      (unlines (indentLines width fresh ([] :: lines bare))) := by
  by_cases empty : text = []
  · rw [empty, unpins.eq_nil_iff.1 empty]
    exact refl _
  · have bareNonempty := mt unpins.eq_nil_iff.2 empty
    rw [unlines_newline width fresh empty, unlines_newline width fresh bareNonempty,
      ← indentLines_true, ← indentLines_true]
    exact .keep _ rest

/-- Lines stay alike when they are indented, whether or not one starts here. -/
theorem indented {text bare : List Char} (unpins : Unpins text bare) (width : Nat) (fresh : Bool) :
    Unpins (unlines (indentLines width fresh (lines text)))
      (unlines (indentLines width fresh (lines bare))) := by
  -- Line ends are kept in both texts; a dropped caret starts no line end and stands before none.
  induction unpins generalizing fresh with
  | nil => exact refl _
  | @keep text bare c unpins ih =>
    have sameHead := unpins.head?_eq_iff (c := '\n') (by decide) (by decide)
    by_cases feed : c = '\n'
    · subst feed
      rw [lines_newline, lines_newline]
      exact unpins.indented_newline width fresh (ih true)
    · by_cases both : c = '\r' ∧ text.head? = some '\n'
      · -- A carriage return and a line feed end a line as the line feed alone does.
        obtain ⟨rfl, head⟩ := both
        obtain ⟨text', rfl⟩ := List.head?_eq_some_iff.1 head
        obtain ⟨bare', rfl⟩ := List.head?_eq_some_iff.1 (sameHead.1 head)
        have shorter := ih fresh
        rw [lines_newline, lines_newline] at shorter
        rw [lines_return_newline, lines_return_newline]
        exact shorter
      · have plain : c = '\r' → text.head? ≠ some '\n' := fun isReturn head =>
          both ⟨isReturn, head⟩
        have barePlain : c = '\r' → bare.head? ≠ some '\n' := fun isReturn head =>
          both ⟨isReturn, sameHead.2 head⟩
        rw [lines_cons feed plain, lines_cons feed barePlain, unlines_consLine, unlines_consLine]
        exact (refl _).append (.keep c (ih false))
  | @drop c text bare opens _ ih =>
    have notFeed : c ≠ '\n' := by
      rintro rfl
      exact absurd opens (by decide)
    have notReturn : c ≠ '\r' := by
      rintro rfl
      exact absurd opens (by decide)
    have plain : ∀ rest : List Char, c = '\r' → rest.head? ≠ some '\n' :=
      fun _ isReturn => absurd isReturn notReturn
    have caret : lines ('^' :: c :: text) = consLine '^' (consLine c (lines text)) := by
      rw [lines_cons (by decide) (by simp), lines_cons notFeed (plain text)]
    rw [caret, lines_cons notFeed (plain bare), unlines_consLine, unlines_consLine,
      unlines_consLine]
    exact (refl _).append (.drop opens (ih false))

theorem indent {text bare : String} (unpins : Unpins text.toList bare.toList) (width : Nat) :
    Unpins (Text.indent width text).toList (Text.indent width bare).toList := by
  have lines := unpins.indented width true
  rw [indentLines_true, indentLines_true] at lines
  rw [indent_eq, indent_eq, String.toList_ofList, String.toList_ofList]
  exact lines

end Unpins

/-- Texts that come down to one text when carets before variables are dropped from them. -/
def Alike (left right : String) : Prop :=
  ∃ bare : String, Unpins left.toList bare.toList ∧ Unpins right.toList bare.toList

namespace Alike

@[simp] theorem refl (text : String) : Alike text text :=
  ⟨text, .refl _, .refl _⟩

theorem append {first first' second second' : String} (before : Alike first first')
    (after : Alike second second') : Alike (first ++ second) (first' ++ second') := by
  obtain ⟨bare, left, right⟩ := before
  obtain ⟨bare', left', right'⟩ := after
  refine ⟨bare ++ bare', ?_, ?_⟩
  · simpa only [String.toList_append] using left.append left'
  · simpa only [String.toList_append] using right.append right'

theorem isEmpty_eq {left right : String} (alike : Alike left right) :
    left.isEmpty = right.isEmpty := by
  obtain ⟨bare, unpins, unpins'⟩ := alike
  have same := unpins.eq_nil_iff.trans unpins'.eq_nil_iff.symm
  rw [Bool.eq_iff_iff, String.isEmpty_iff, String.isEmpty_iff, ← String.toList_eq_nil_iff,
    ← String.toList_eq_nil_iff]
  exact same

theorem spansLines_eq {left right : String} (alike : Alike left right) :
    spansLines left = spansLines right := by
  obtain ⟨bare, unpins, unpins'⟩ := alike
  have caret : '\n' ≠ '^' := by decide
  rw [Bool.eq_iff_iff, spansLines_iff, spansLines_iff]
  exact (unpins.mem_iff caret).trans (unpins'.mem_iff caret).symm

theorem indent {left right : String} (alike : Alike left right) (width : Nat) :
    Alike (Text.indent width left) (Text.indent width right) := by
  obtain ⟨bare, unpins, unpins'⟩ := alike
  exact ⟨Text.indent width bare, unpins.indent width, unpins'.indent width⟩

theorem filter_eq {left right : String} (alike : Alike left right) :
    left.toList.filter (· ≠ '^') = right.toList.filter (· ≠ '^') := by
  obtain ⟨bare, unpins, unpins'⟩ := alike
  exact unpins.filter_eq.trans unpins'.filter_eq.symm

end Alike

end Legible.Text
