import Mathlib.Data.List.Infix
import Legible.Placeholder
import Legible.Proofs.Text.Lines
import Legible.Text.Quoted

/-!
Texts that are free of the word which all placeholders start with.

A character that is no letter of the word parts a text: the word stands in the whole only if it
stands before or after the character. Escaping and indenting put such characters in and take no
other ones out, so both keep a text free of the word.
-/

set_option autoImplicit false

namespace Legible

namespace Text

/-- The word that all placeholders start with. -/
def mark : List Char :=
  "unknown".toList

/-- The mark stands nowhere in the text, neither in capital nor in small letters. -/
def Unmarked (text : List Char) : Prop :=
  ¬ mark <:+: text.map Char.toLower

instance (text : List Char) : Decidable (Unmarked text) :=
  inferInstanceAs (Decidable (¬ _))

def isForeign (c : Char) : Bool :=
  !mark.contains c.toLower

private theorem prefix_of_prefix_append_cons {word before after : List Char} {c : Char}
    (foreign : c ∉ word) (start : word <+: before ++ c :: after) : word <+: before := by
  rcases List.prefix_or_prefix_of_prefix start (List.prefix_append before (c :: after)) with
    within | beyond
  · exact within
  · obtain ⟨rest, rfl⟩ := beyond
    rw [List.prefix_append_right_inj] at start
    cases rest with
    | nil => simp
    | cons d rest =>
      obtain ⟨rfl, -⟩ := List.cons_prefix_cons.1 start
      simp at foreign

private theorem infix_append_cons_iff {word : List Char} {c : Char} (some : word ≠ [])
    (foreign : c ∉ word) (before after : List Char) :
    word <:+: before ++ c :: after ↔ word <:+: before ∨ word <:+: after := by
  constructor
  · intro within
    induction before with
    | nil =>
      rcases List.infix_cons_iff.1 within with start | later
      · exact absurd (List.prefix_nil.1 (prefix_of_prefix_append_cons foreign start)) some
      · exact .inr later
    | cons d before ih =>
      rcases List.infix_cons_iff.1 within with start | later
      · exact .inl (prefix_of_prefix_append_cons foreign start).isInfix
      · exact (ih later).imp_left fun inside => List.infix_cons inside
  · rintro (inside | inside)
    · exact inside.trans (List.prefix_append before (c :: after)).isInfix
    · exact inside.trans ((List.suffix_cons c after).trans (List.suffix_append before _)).isInfix

theorem unmarked_append_cons {c : Char} (foreign : isForeign c) (before after : List Char) :
    Unmarked (before ++ c :: after) ↔ Unmarked before ∧ Unmarked after := by
  have notLetter : c.toLower ∉ mark := by simpa [isForeign] using foreign
  rw [Unmarked, List.map_append, List.map_cons, infix_append_cons_iff (by decide) notLetter, not_or]
  rfl

theorem unmarked_cons {c : Char} (foreign : isForeign c) (text : List Char) :
    Unmarked (c :: text) ↔ Unmarked text := by
  have parted := unmarked_append_cons foreign [] text
  simpa [show Unmarked [] by decide] using parted

theorem unmarked_concat {c : Char} (foreign : isForeign c) (text : List Char) :
    Unmarked (text ++ [c]) ↔ Unmarked text := by
  simpa [show Unmarked [] by decide] using unmarked_append_cons foreign text []

theorem Unmarked.of_isInfix {part text : List Char} (unmarked : Unmarked text)
    (inside : part <:+: text) : Unmarked part :=
  fun marked => unmarked (marked.trans (inside.map Char.toLower))

theorem unmarked_cons_of_ne {c : Char} (notFirst : c.toLower ≠ 'u') (text : List Char) :
    Unmarked (c :: text) ↔ Unmarked text := by
  have notPrefix : ¬ mark <+: c.toLower :: text.map Char.toLower := by
    rintro ⟨rest, eq⟩
    exact notFirst (List.head_eq_of_cons_eq eq).symm
  rw [Unmarked, List.map_cons, List.infix_cons_iff, or_iff_right notPrefix]
  rfl

theorem unmarked_of_forall {text : List Char} (free : ∀ c ∈ text, c.toLower ≠ 'u') :
    Unmarked text := by
  induction text with
  | nil => decide
  | cons c text ih =>
    rw [List.forall_mem_cons] at free
    exact (unmarked_cons_of_ne free.1 text).2 (ih free.2)

def startsForeign (text : List Char) : Bool :=
  text.head?.any isForeign

def endsForeign (text : List Char) : Bool :=
  text.getLast?.any isForeign

theorem endsForeign_append (before : List Char) {after : List Char} (ends : endsForeign after) :
    endsForeign (before ++ after) := by
  cases last : after.getLast? with
  | none => simp [endsForeign, last] at ends
  | some c => simpa [endsForeign, List.getLast?_append, last] using ends

theorem Unmarked.append_of_startsForeign {before after : List Char} (first : Unmarked before)
    (second : Unmarked after) (starts : startsForeign after) : Unmarked (before ++ after) := by
  cases after with
  | nil => cases starts
  | cons c after =>
    exact (unmarked_append_cons starts _ _).2 ⟨first, (unmarked_cons starts _).1 second⟩

theorem Unmarked.append_of_endsForeign {before after : List Char} (first : Unmarked before)
    (second : Unmarked after) (ends : endsForeign before) : Unmarked (before ++ after) := by
  cases before using List.reverseRecOn with
  | nil => cases ends
  | append_singleton before c =>
    have foreign : isForeign c := by simpa [endsForeign] using ends
    rw [List.append_assoc, List.singleton_append, unmarked_append_cons foreign]
    exact ⟨(unmarked_concat foreign _).1 first, second⟩

theorem unmarked_escape {before text : List Char} (unmarked : Unmarked (before ++ text)) :
    Unmarked (before ++ escape text) := by
  -- What stands before goes along, since a letter of the text joins it.
  have escaped : ∀ {before : List Char} (c d : Char) {rest : List Char}, isForeign c →
      d.toLower ≠ 'u' → Unmarked (before ++ c :: rest) →
      (Unmarked rest → Unmarked (escape rest)) →
      Unmarked (before ++ '\\' :: d :: escape rest) := by
    intro before c d rest foreign notFirst unmarked ih
    have parts := (unmarked_append_cons foreign before rest).1 unmarked
    rw [unmarked_append_cons (by decide), unmarked_cons_of_ne notFirst]
    exact ⟨parts.1, ih parts.2⟩
  fun_induction escape text generalizing before with
  | case1 => exact unmarked
  | case2 rest ih =>
    exact escaped '#' '#' (by decide) (by decide) unmarked fun free => @ih [] free
  | case3 rest ih =>
    exact escaped '"' '"' (by decide) (by decide) unmarked fun free => @ih [] free
  | case4 rest ih =>
    exact escaped '\\' '\\' (by decide) (by decide) unmarked fun free => @ih [] free
  | case5 rest ih =>
    exact escaped '\n' 'n' (by decide) (by decide) unmarked fun free => @ih [] free
  | case6 rest ih =>
    exact escaped '\t' 't' (by decide) (by decide) unmarked fun free => @ih [] free
  | case7 rest ih =>
    exact escaped '\r' 'r' (by decide) (by decide) unmarked fun free => @ih [] free
  | case8 c rest _ _ _ _ _ _ ih =>
    have shifted := @ih (before ++ [c]) (by simpa using unmarked)
    simpa using shifted

theorem unmarked_quoted {text : String} (unmarked : Unmarked text.toList) :
    Unmarked (quoted text).toList := by
  have inner : Unmarked (escape text.toList) := @unmarked_escape [] _ unmarked
  have whole : (quoted text).toList = '"' :: (escape text.toList ++ ['"']) := by
    simp [quoted, escaped]
  rw [whole, unmarked_cons (by decide), unmarked_concat (by decide)]
  exact inner

theorem unmarked_unlines_iff {lines : List (List Char)} :
    Unmarked (unlines lines) ↔ ∀ line ∈ lines, Unmarked line := by
  induction lines with
  | nil => simp [unlines, show Unmarked [] by decide]
  | cons line later ih =>
    by_cases last : later = []
    · subst last
      simp [unlines]
    · rw [unlines_cons last, unmarked_append_cons (by decide), ih, List.forall_mem_cons]

theorem Unmarked.of_mem_lines {text line : List Char} (unmarked : Unmarked text)
    (member : line ∈ lines text) : Unmarked line := by
  obtain ⟨earlier, last, split, eq⟩ := exists_pieces_eq text
  have pieces : ∀ piece ∈ earlier ++ [last], Unmarked piece := by
    rw [← split, ← unmarked_unlines_iff, unlines_pieces]
    exact unmarked
  rw [List.forall_mem_append] at pieces
  rw [eq, List.mem_append, List.mem_map] at member
  rcases member with ⟨piece, inEarlier, rfl⟩ | isLast
  · refine (pieces.1 piece inEarlier).of_isInfix ?_
    unfold dropReturn
    split
    · exact (List.dropLast_prefix piece).isInfix
    · exact List.infix_rfl
  · split at isLast
    · cases isLast
    · exact pieces.2 line isLast

theorem Unmarked.indented (width : Nat) {text : List Char} (unmarked : Unmarked text) :
    Unmarked (indented width text) := by
  rw [Text.indented, unmarked_unlines_iff, List.forall_mem_map]
  intro line member
  have free := unmarked.of_mem_lines member
  unfold indentLine
  split
  · decide
  · induction width with
    | zero => simpa using free
    | succ width ih =>
      rw [List.replicate_succ, List.cons_append, unmarked_cons (by decide)]
      exact ih

end Text

theorem Placeholder.mark_isPrefix (what : Placeholder) : Text.mark <+: what.text.toList := by
  cases what <;> decide

theorem Text.Unmarked.free {text : List Char} (unmarked : Unmarked text) (what : Placeholder) :
    ¬ what.text.toList <:+: text := by
  intro inside
  have lower : mark.map Char.toLower = mark := by decide
  have start := (what.mark_isPrefix.isInfix.trans inside).map Char.toLower
  rw [lower] at start
  exact unmarked start

end Legible
