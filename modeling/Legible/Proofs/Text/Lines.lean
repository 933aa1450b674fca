import Legible.Text.Lines

/-!
The lines of texts that are put together from others.

Pieces are what line feeds split a text into, so the pieces of two texts with a line feed between
them are those of both. Lines are not: the last piece of the first text gives up its carriage
return. Lines without breaks of which the last is not empty are `Joinable`: they are the lines of
their join.
-/

set_option autoImplicit false

namespace Legible.Text

theorem pieces_cons {c : Char} (notFeed : c ≠ '\n') (rest : List Char) :
    pieces (c :: rest) = (c :: (pieces rest).headD []) :: (pieces rest).tail := by
  rw [pieces]
  · cases h : pieces rest with
    | nil => exact absurd h (pieces_ne_nil rest)
    | cons piece later => rfl
  · exact notFeed

theorem pieces_append_newline (before after : List Char) :
    pieces (before ++ '\n' :: after) = pieces before ++ pieces after := by
  induction before with
  | nil => rfl
  | cons c rest ih =>
    by_cases feed : c = '\n'
    · subst feed
      simp [pieces, ih]
    · rw [List.cons_append, pieces_cons feed, pieces_cons feed, ih]
      cases h : pieces rest with
      | nil => exact absurd h (pieces_ne_nil rest)
      | cons piece later => simp

theorem head?_pieces_append_newline (before after : List Char) :
    (pieces (before ++ '\n' :: after)).head? = (pieces before).head? := by
  rw [pieces_append_newline, List.head?_append, Option.or_of_isSome]
  simpa using pieces_ne_nil before

theorem getLast?_pieces_append_newline (before after : List Char) :
    (pieces (before ++ '\n' :: after)).getLast? = (pieces after).getLast? := by
  rw [pieces_append_newline, List.getLast?_append, Option.or_of_isSome]
  simpa using pieces_ne_nil after

theorem pieces_of_notMem {line : List Char} (oneLine : '\n' ∉ line) : pieces line = [line] := by
  induction line with
  | nil => rfl
  | cons c rest ih =>
    rw [List.mem_cons, not_or] at oneLine
    rw [pieces_cons (Ne.symm oneLine.1), ih oneLine.2]
    rfl

theorem notMem_of_mem_pieces {text piece : List Char} (member : piece ∈ pieces text) :
    '\n' ∉ piece := by
  induction text generalizing piece with
  | nil => simp_all [pieces]
  | cons c rest ih =>
    by_cases feed : c = '\n'
    · subst feed
      rcases List.mem_cons.1 member with rfl | later
      · simp
      · exact ih later
    · rw [pieces_cons feed] at member
      cases h : pieces rest with
      | nil => exact absurd h (pieces_ne_nil rest)
      | cons first later =>
        rw [h] at member ih
        rcases List.mem_cons.1 member with rfl | inLater
        · simpa [Ne.symm feed] using ih (List.mem_cons_self ..)
        · exact ih (List.mem_cons_of_mem _ inLater)

theorem unlines_pieces (text : List Char) : unlines (pieces text) = text := by
  induction text with
  | nil => rfl
  | cons c rest ih =>
    by_cases feed : c = '\n'
    · subst feed
      rw [pieces, unlines_cons (pieces_ne_nil rest), ih]
      rfl
    · rw [pieces_cons feed]
      cases h : pieces rest with
      | nil => exact absurd h (pieces_ne_nil rest)
      | cons piece later =>
        rw [h] at ih
        cases later with
        | nil => simpa [unlines] using ih
        | cons => simpa [unlines] using ih

theorem pieces_unlines {lines : List (List Char)} (nonempty : lines ≠ [])
    (closed : ∀ line ∈ lines, '\n' ∉ line) : pieces (unlines lines) = lines := by
  induction lines with
  | nil => exact absurd rfl nonempty
  | cons line later ih =>
    rw [List.forall_mem_cons] at closed
    by_cases last : later = []
    · subst last
      exact pieces_of_notMem closed.1
    · rw [unlines_cons last, pieces_append_newline, pieces_of_notMem closed.1,
        ih last closed.2]
      rfl

theorem notMem_dropReturn {c : Char} {line : List Char} (free : c ∉ line) :
    c ∉ dropReturn line := by
  unfold dropReturn
  split
  · exact fun member => free (List.dropLast_subset line member)
  · exact free

theorem dropReturn_of_notMem {line : List Char} (free : '\r' ∉ line) : dropReturn line = line :=
  if_neg fun last => free (List.mem_of_getLast? last)

theorem linesOfPieces_concat (before : List (List Char)) (last : List Char) :
    linesOfPieces (before ++ [last]) =
      before.map dropReturn ++ if last.isEmpty then [] else [last] := by
  induction before with
  | nil => rfl
  | cons first rest ih =>
    cases rest with
    | nil => rfl
    | cons second rest => simp_all [linesOfPieces]

/-- Every piece but the last one is a line, without the carriage return at its end. -/
theorem exists_pieces_eq (text : List Char) : ∃ earlier last, pieces text = earlier ++ [last] ∧
    lines text = earlier.map dropReturn ++ if last.isEmpty then [] else [last] := by
  have whole := List.dropLast_concat_getLast (pieces_ne_nil text)
  exact ⟨_, _, whole.symm, by rw [lines, ← linesOfPieces_concat, whole]⟩

theorem lines_append_newline (before after : List Char) :
    lines (before ++ '\n' :: after) = (pieces before).map dropReturn ++ lines after := by
  obtain ⟨earlier, last, split, eq⟩ := exists_pieces_eq after
  rw [eq, lines, pieces_append_newline, split, ← List.append_assoc, linesOfPieces_concat,
    List.map_append, List.append_assoc]

theorem notMem_of_mem_lines {text line : List Char} (member : line ∈ lines text) :
    '\n' ∉ line := by
  obtain ⟨earlier, last, split, eq⟩ := exists_pieces_eq text
  have closed : ∀ piece ∈ earlier ++ [last], '\n' ∉ piece :=
    fun piece inPieces => notMem_of_mem_pieces (split ▸ inPieces)
  rw [List.forall_mem_append] at closed
  rw [eq, List.mem_append, List.mem_map] at member
  rcases member with ⟨piece, inPieces, rfl⟩ | isLast
  · exact notMem_dropReturn (closed.1 piece inPieces)
  · split at isLast
    · cases isLast
    · exact closed.2 line isLast

theorem indentLine_eq_nil_iff {width : Nat} {line : List Char} :
    indentLine width line = [] ↔ line = [] := by
  unfold indentLine
  split <;> simp_all

theorem notMem_indentLine {c : Char} (notSpace : c ≠ ' ') {width : Nat} {line : List Char}
    (free : c ∉ line) : c ∉ indentLine width line := by
  unfold indentLine
  split
  · exact List.not_mem_nil
  · simp [free, notSpace]

def indented (width : Nat) (text : List Char) : List Char :=
  unlines ((lines text).map (indentLine width))

theorem toList_indent (width : Nat) (text : String) :
    (indent width text).toList = indented width text.toList := by
  rw [indent_eq, String.toList_ofList, indented]

theorem pieces_indented (width : Nat) {text : List Char} (nonempty : text ≠ []) :
    pieces (indented width text) = (lines text).map (indentLine width) := by
  apply pieces_unlines
  · simpa using lines_ne_nil nonempty
  · rw [List.forall_mem_map]
    exact fun line member => notMem_indentLine (by decide) (notMem_of_mem_lines member)

theorem unlines_eq_intercalate (lines : List (List Char)) :
    unlines lines = ['\n'].intercalate lines := by
  induction lines with
  | nil => rfl
  | cons line later ih =>
    by_cases single : later = []
    · subst single
      simp [unlines]
    · rw [unlines_cons single, List.intercalate_cons_of_ne_nil single, ih, List.append_assoc,
        List.singleton_append]

/-- Lines that a text can be joined from and split into again: without breaks, and the last one not
empty. -/
structure Joinable (lines : List (List Char)) : Prop where
  noFeed : ∀ line ∈ lines, '\n' ∉ line
  noReturn : ∀ line ∈ lines, '\r' ∉ line
  last : lines.getLast? ≠ some []

theorem mem_unlines {c : Char} {line : List Char} {lines : List (List Char)}
    (member : line ∈ lines) (inside : c ∈ line) : c ∈ unlines lines := by
  induction lines with
  | nil => cases member
  | cons first later ih =>
    by_cases single : later = []
    · subst single
      exact List.mem_singleton.1 member ▸ inside
    · rw [unlines_cons single, List.mem_append]
      rcases List.mem_cons.1 member with rfl | inLater
      · exact .inl inside
      · exact .inr (List.mem_cons_of_mem _ (ih inLater))

/-- An empty last line shows as a line feed at the end. -/
theorem unlines_concat_nil {lines : List (List Char)} (nonempty : lines ≠ []) :
    unlines (lines ++ [[]]) = unlines lines ++ ['\n'] := by
  induction lines with
  | nil => exact absurd rfl nonempty
  | cons first later ih =>
    by_cases single : later = []
    · subst single
      rfl
    · rw [List.cons_append, unlines_cons (by simp), ih single, unlines_cons single,
        List.append_assoc, List.cons_append]

/-- A text without carriage returns that does not end in a line feed is the join of some lines. -/
theorem exists_joinable {text : List Char} (noReturn : '\r' ∉ text)
    (noFinalFeed : text.getLast? ≠ some '\n') : ∃ lines, Joinable lines ∧ text = unlines lines := by
  by_cases empty : text = []
  · exact ⟨[], ⟨by simp, by simp, by simp⟩, empty⟩
  · have joined := unlines_pieces text
    refine ⟨pieces text, ⟨fun _ => notMem_of_mem_pieces, fun piece member inside => ?_, ?_⟩,
      joined.symm⟩
    · exact noReturn (joined ▸ mem_unlines member inside)
    · intro last
      obtain ⟨earlier, split⟩ := List.getLast?_eq_some_iff.1 last
      rw [split] at joined
      by_cases single : earlier = []
      · subst single
        exact empty joined.symm
      · rw [unlines_concat_nil single] at joined
        exact noFinalFeed (by rw [← joined, List.getLast?_concat])

namespace Joinable

variable {lines : List (List Char)}

theorem lines_unlines (joinable : Joinable lines) : Text.lines (unlines lines) = lines := by
  by_cases empty : lines = []
  · subst empty
    rfl
  · rw [Text.lines, pieces_unlines empty joinable.noFeed]
    have whole := List.dropLast_concat_getLast empty
    have lastLine : lines.getLast empty ≠ [] := fun last =>
      joinable.last (by rw [List.getLast?_eq_some_getLast empty, last])
    have kept : lines.dropLast.map dropReturn = lines.dropLast := by
      refine (List.map_congr_left fun line member => ?_).trans (List.map_id _)
      exact dropReturn_of_notMem (joinable.noReturn line (List.dropLast_subset lines member))
    rw [← whole, linesOfPieces_concat, whole, kept, if_neg (by simpa using lastLine), whole]

theorem splitOn_unlines (joinable : Joinable lines) (nonempty : lines ≠ []) :
    (unlines lines).splitOn '\n' = lines := by
  rw [unlines_eq_intercalate, List.splitOn_intercalate '\n' joinable.noFeed nonempty]

end Joinable

end Legible.Text
