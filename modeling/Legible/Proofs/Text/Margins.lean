import Legible.Proofs.Text.Lines

/-!
Texts that differ in nothing but the margins of their lines.

Text that is indented anew at every level is compared by two relations. `Reflowed` is kept when
texts are joined in any way: what differs stands between two lines that keep their place.
`SameLines` is kept when whole lines are put below each other, and a block around such lines is
reflowed.
-/

set_option autoImplicit false

namespace Legible.Text

def withoutMargin (line : List Char) : List Char :=
  line.dropWhile (· = ' ')

@[simp] theorem withoutMargin_space (line : List Char) :
    withoutMargin (' ' :: line) = withoutMargin line := rfl

theorem withoutMargin_cons {c : Char} (notSpace : c ≠ ' ') (line : List Char) :
    withoutMargin (c :: line) = c :: line := by
  simp [withoutMargin, notSpace]

@[simp] theorem withoutMargin_indentLine (width : Nat) (line : List Char) :
    withoutMargin (indentLine width line) = withoutMargin line := by
  unfold indentLine
  split
  next empty => rw [List.isEmpty_iff.1 empty]
  next =>
    induction width with
    | zero => rfl
    | succ width ih => rwa [List.replicate_succ, List.cons_append, withoutMargin_space]

theorem withoutMargin_dropReturn (line : List Char) :
    withoutMargin (dropReturn line) = dropReturn (withoutMargin line) := by
  induction line with
  | nil => rfl
  | cons c rest ih =>
    by_cases single : rest = []
    · subst single
      by_cases space : c = ' '
      · subst space
        rfl
      · rw [withoutMargin_cons space]
        by_cases isReturn : c = '\r'
        · subst isReturn
          rfl
        · simp [dropReturn, isReturn, withoutMargin_cons space]
    · rw [dropReturn_cons c single]
      by_cases space : c = ' '
      · subst space
        rw [withoutMargin_space, withoutMargin_space, ih]
      · rw [withoutMargin_cons space, withoutMargin_cons space, dropReturn_cons c single]

def unindented (text : List Char) : List (List Char) :=
  (pieces text).map withoutMargin

theorem unindented_append_newline (before after : List Char) :
    unindented (before ++ '\n' :: after) = unindented before ++ unindented after := by
  simp [unindented, pieces_append_newline]

theorem unindented_indented (width : Nat) {text : List Char} (nonempty : text ≠ []) :
    unindented (indented width text) = (lines text).map withoutMargin := by
  simp [unindented, pieces_indented width nonempty]

/-- Texts that are equal but for the margins of lines that stand between two others, the last of
which is not empty. -/
inductive Reflowed : List Char → List Char → Prop
  | refl (text : List Char) : Reflowed text text
  | block {before body body' after : List Char} {c : Char} :
      unindented body = unindented body' →
      Reflowed (before ++ '\n' :: (body ++ '\n' :: c :: after))
        (before ++ '\n' :: (body' ++ '\n' :: c :: after))

/-- Texts of as many lines that are equal but for their margins, where the first line is the same
and a line starts at the end of both or of none. -/
structure SameLines (left right : List Char) : Prop where
  first : (pieces left).head? = (pieces right).head?
  unindented : unindented left = unindented right
  last : (pieces left).getLast? = some [] ↔ (pieces right).getLast? = some []

namespace Reflowed

theorem append {left right left' right' : List Char} (before : Reflowed left right)
    (after : Reflowed left' right') : Reflowed (left ++ left') (right ++ right') := by
  cases before with
  | refl =>
    cases after with
    | refl => exact .refl _
    | @block before body body' after c same =>
      simp only [← List.append_assoc left before]
      exact .block same
  | @block before body body' rest c same =>
    cases after with
    | refl =>
      simp only [List.append_assoc, List.cons_append]
      exact .block same
    | @block before' inner inner' after' c' same' =>
      -- What stands between the two blocks is the same in both texts and joins their lines.
      have joined : unindented (body ++ '\n' :: (c :: rest ++ before' ++ '\n' :: inner)) =
          unindented (body' ++ '\n' :: (c :: rest ++ before' ++ '\n' :: inner')) := by
        simp only [unindented_append_newline, same, same']
      have whole := @block before _ _ after' c' joined
      simpa only [List.append_assoc, List.cons_append] using whole

theorem head?_eq {left right : List Char} (reflowed : Reflowed left right) :
    left.head? = right.head? := by
  cases reflowed with
  | refl => rfl
  | @block before => cases before <;> rfl

theorem sameLines {left right : List Char} (reflowed : Reflowed left right) :
    SameLines left right := by
  cases reflowed with
  | refl => exact ⟨rfl, rfl, Iff.rfl⟩
  | @block before body body' after c same =>
    refine ⟨?_, ?_, ?_⟩
    · rw [head?_pieces_append_newline, head?_pieces_append_newline]
    · simp only [unindented_append_newline, same]
    · simp only [getLast?_pieces_append_newline]

theorem getLast?_lines_eq {left right : List Char} (reflowed : Reflowed left right) :
    (lines left).getLast? = (lines right).getLast? := by
  cases reflowed with
  | refl => rfl
  | @block before body body' after c same =>
    have closing : (lines (c :: after)).getLast?.isSome := by
      simpa using lines_ne_nil (List.cons_ne_nil c after)
    have last : ∀ body, (lines (before ++ '\n' :: (body ++ '\n' :: c :: after))).getLast? =
        (lines (c :: after)).getLast? := by
      intro body
      rw [lines_append_newline, lines_append_newline, ← List.append_assoc, List.getLast?_append,
        Option.or_of_isSome closing]
    rw [last, last]

end Reflowed

namespace SameLines

theorem refl (text : List Char) : SameLines text text :=
  ⟨rfl, rfl, Iff.rfl⟩

theorem symm {left right : List Char} (same : SameLines left right) : SameLines right left :=
  ⟨same.first.symm, same.unindented.symm, same.last.symm⟩

theorem eq_of_oneLine {left right : List Char} (same : SameLines left right)
    (oneLine : '\n' ∉ left) : left = right := by
  have one := pieces_of_notMem oneLine
  have count := congrArg List.length same.unindented
  obtain ⟨line, only⟩ : ∃ line, pieces right = [line] := by
    rw [← List.length_eq_one_iff]
    simpa [Text.unindented, one] using count.symm
  have first : left = line := by simpa [one, only] using same.first
  rw [← unlines_pieces right, only, first]
  rfl

theorem lines_eq {left right : List Char} (same : SameLines left right) :
    (lines left).map withoutMargin = (lines right).map withoutMargin := by
  obtain ⟨earlier, last, split, eq⟩ := exists_pieces_eq left
  obtain ⟨earlier', last', split', eq'⟩ := exists_pieces_eq right
  have bothEmpty : last = [] ↔ last' = [] := by simpa [split, split'] using same.last
  have margins :
      (earlier ++ [last]).map withoutMargin = (earlier' ++ [last']).map withoutMargin := by
    rw [← split, ← split']
    exact same.unindented
  rw [List.map_append, List.map_append] at margins
  obtain ⟨before, after⟩ := List.append_inj' margins rfl
  have before := congrArg (List.map dropReturn) before
  rw [eq, eq', List.map_append, List.map_append]
  congr 1
  · simpa only [List.map_map, Function.comp_def, withoutMargin_dropReturn] using before
  · by_cases empty : last = []
    · simp [empty, bothEmpty.1 empty]
    · simpa [empty, mt bothEmpty.2 empty] using after

theorem eq_nil_iff {left right : List Char} (same : SameLines left right) :
    left = [] ↔ right = [] := by
  constructor
  · rintro rfl
    exact (same.eq_of_oneLine List.not_mem_nil).symm
  · rintro rfl
    exact (same.symm.eq_of_oneLine List.not_mem_nil).symm

theorem mem_newline_iff {left right : List Char} (same : SameLines left right) :
    '\n' ∈ left ↔ '\n' ∈ right := by
  have feeds : ∀ {left right : List Char}, SameLines left right → '\n' ∈ left → '\n' ∈ right :=
    fun same member => Decidable.byContradiction fun oneLine =>
      oneLine (same.symm.eq_of_oneLine oneLine ▸ member)
  exact ⟨feeds same, feeds same.symm⟩

theorem unindented_indented_eq {left right : List Char} (same : SameLines left right)
    (width width' : Nat) :
    Text.unindented (indented width left) = Text.unindented (indented width' right) := by
  by_cases empty : left = []
  · rw [empty, same.eq_nil_iff.1 empty]
    rfl
  · rw [unindented_indented width empty, unindented_indented width' (mt same.eq_nil_iff.2 empty)]
    exact same.lines_eq

/-- A block around lines, which may be indented in any way. -/
theorem block {left right opening opening' : List Char} (same : SameLines left right)
    (openings : Reflowed opening opening') (width width' : Nat) (c : Char)
    (after : List Char) :
    Reflowed (opening ++ '\n' :: (indented width left ++ '\n' :: c :: after))
      (opening' ++ '\n' :: (indented width' right ++ '\n' :: c :: after)) :=
  openings.append (@Reflowed.block [] _ _ after c (same.unindented_indented_eq width width'))

theorem join {left right left' right' : List Char} (before : SameLines left right)
    (after : SameLines left' right') :
    SameLines (left ++ '\n' :: left') (right ++ '\n' :: right') where
  first := by
    rw [head?_pieces_append_newline, head?_pieces_append_newline]
    exact before.first
  unindented := by
    rw [unindented_append_newline, unindented_append_newline, before.unindented, after.unindented]
  last := by
    rw [getLast?_pieces_append_newline, getLast?_pieces_append_newline]
    exact after.last

end SameLines

/-- Lines after a first one that keeps its place. -/
theorem Reflowed.under {left right opening opening' : List Char} (body : Reflowed left right)
    (openings : Reflowed opening opening') (width width' : Nat) :
    SameLines (opening ++ '\n' :: indented width left)
      (opening' ++ '\n' :: indented width' right) where
  first := by
    rw [head?_pieces_append_newline, head?_pieces_append_newline]
    exact openings.sameLines.first
  unindented := by
    rw [unindented_append_newline, unindented_append_newline, openings.sameLines.unindented,
      body.sameLines.unindented_indented_eq width width']
  last := by
    rw [getLast?_pieces_append_newline, getLast?_pieces_append_newline]
    by_cases empty : left = []
    · rw [empty, body.sameLines.eq_nil_iff.1 empty]
      rfl
    · have last := body.getLast?_lines_eq
      have empty' := mt body.sameLines.eq_nil_iff.2 empty
      rw [pieces_indented width empty, pieces_indented width' empty', List.getLast?_map,
        List.getLast?_map, last]
      simp [indentLine_eq_nil_iff]

end Legible.Text
