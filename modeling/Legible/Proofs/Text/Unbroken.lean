import Legible.Proofs.Text.Lines
import Legible.Text.Quoted

/-!
Texts that stay on their line.

A text without a break can be joined with others on the same line. Joined by line feeds, such texts
are the lines of the whole: `lines_intercalate`.
-/

set_option autoImplicit false

namespace Legible.Text

def Unbroken (text : String) : Prop :=
  ∀ c ∈ text.toList, c ≠ '\n' ∧ c ≠ '\r'

instance (text : String) : Decidable (Unbroken text) :=
  List.decidableBAll _ text.toList

theorem unbroken_of_chars {text : String} {allowed : Char → Prop}
    (chars : ∀ c ∈ text.toList, allowed c) (feed : ¬ allowed '\n') (carriage : ¬ allowed '\r') :
    Unbroken text := by
  intro c member
  constructor
  · rintro rfl
    exact feed (chars _ member)
  · rintro rfl
    exact carriage (chars _ member)

@[simp] theorem unbroken_append {first second : String} :
    Unbroken (first ++ second) ↔ Unbroken first ∧ Unbroken second := by
  simp only [Unbroken, String.toList_append, List.forall_mem_append]

theorem unbroken_intercalate (separator : String) (fixed : Unbroken separator)
    {texts : List String} (each : ∀ text ∈ texts, Unbroken text) :
    Unbroken (separator.intercalate texts) := by
  induction texts with
  | nil => simpa using (by decide : Unbroken "")
  | cons first rest ih =>
    rw [List.forall_mem_cons] at each
    cases rest with
    | nil => simpa using each.1
    | cons second rest =>
      rw [String.intercalate_cons_cons, unbroken_append, unbroken_append]
      exact ⟨⟨each.1, fixed⟩, ih each.2⟩

theorem unbroken_quoted (text : String) : Unbroken (quoted text) := by
  have inside : Unbroken (escaped text) := by
    intro c member
    rw [escaped, String.toList_ofList] at member
    have plain := escape_oneLine text.toList c member
    exact ⟨plain.1, plain.2.2⟩
  rw [quoted, unbroken_append, unbroken_append]
  exact ⟨⟨by decide, inside⟩, by decide⟩

namespace Unbroken

variable {text : String}

theorem pieces_eq (unbroken : Unbroken text) : pieces text.toList = [text.toList] :=
  pieces_of_notMem fun member => (unbroken _ member).1 rfl

theorem dropReturn_eq (unbroken : Unbroken text) : dropReturn text.toList = text.toList :=
  dropReturn_of_notMem fun member => (unbroken _ member).2 rfl

theorem lines_append_newline (unbroken : Unbroken text) (after : String) :
    lines (text ++ "\n" ++ after).toList = text.toList :: lines after.toList := by
  have joined : (text ++ "\n" ++ after).toList = text.toList ++ '\n' :: after.toList := by simp
  rw [joined, Text.lines_append_newline, unbroken.pieces_eq, List.map_singleton,
    unbroken.dropReturn_eq, List.singleton_append]

end Unbroken

theorem lines_intercalate {texts : List String} (unbroken : ∀ text ∈ texts, Unbroken text)
    (nonempty : "" ∉ texts) : lines ("\n".intercalate texts).toList = texts.map String.toList := by
  have joinable : Joinable (texts.map String.toList) := by
    refine ⟨?_, ?_, fun last => ?_⟩
    · rw [List.forall_mem_map]
      exact fun text member inside => (unbroken text member _ inside).1 rfl
    · rw [List.forall_mem_map]
      exact fun text member inside => (unbroken text member _ inside).2 rfl
    · obtain ⟨text, member, empty⟩ := List.mem_map.1 (List.mem_of_getLast? last)
      exact nonempty (String.toList_eq_nil_iff.1 empty ▸ member)
  have joined : ("\n".intercalate texts).toList = unlines (texts.map String.toList) := by
    rw [String.toList_intercalate, unlines_eq_intercalate]
    rfl
  rw [joined, joinable.lines_unlines]

end Legible.Text
