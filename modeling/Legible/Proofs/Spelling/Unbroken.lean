import Legible.Proofs.Decimal.Characters
import Legible.Proofs.Spelling.Atom
import Legible.Proofs.Spelling.Marks
import Legible.Proofs.Text.Unbroken

/-!
Spellings that stay on their line.

Atoms and names of functions do so whatever their name is, for what is no identifier is escaped
between quotes. Variables, the names of builtin types and operators that are functions are written
as they are, so their names must stay on a line.
-/

set_option autoImplicit false

namespace Legible

open Text (Unbroken unbroken_append unbroken_of_chars unbroken_quoted)

theorem Placeholder.unbroken_text (what : Placeholder) : Unbroken what.text := by
  cases what <;> decide

namespace Spelling

theorem unbroken_of_isIdentifier {name : String} (bare : isIdentifier name) : Unbroken name :=
  unbroken_of_chars (isIdentifier_iff.1 bare).chars (by decide) (by decide)

theorem unbroken_of_alias? {atom name : String} (found : alias? atom = some name) :
    Unbroken name :=
  unbroken_of_chars (isAlias_iff.1 (alias?_eq_some_iff.1 found).2).chars (by decide) (by decide)

theorem unbroken_ofAtom (name : String) : Unbroken (ofAtom name) := by
  unfold ofAtom
  split
  next bare =>
    simp only [isBareAtom, Bool.or_eq_true, decide_eq_true_eq] at bare
    rcases bare with (rfl | rfl) | rfl <;> decide
  · split
    next found => exact unbroken_of_alias? found
    next =>
      refine unbroken_append.2 ⟨by decide, ?_⟩
      split
      next bare => exact unbroken_of_isIdentifier bare
      next => exact unbroken_quoted name

theorem unbroken_ofFunction (name : String) : Unbroken (ofFunction name) := by
  unfold ofFunction
  split
  next bare => exact unbroken_of_isIdentifier bare
  next =>
    rw [unbroken_append, unbroken_append]
    exact ⟨⟨by decide, unbroken_quoted name⟩, by decide⟩

/-- No character but a break has a break in its lower case form. -/
theorem stays_of_mem_lowercase {c : Char} (stays : c ≠ '\n' ∧ c ≠ '\r') :
    ∀ d ∈ Character.lowercase c, d ≠ '\n' ∧ d ≠ '\r' := by
  intro d member
  -- From beyond ASCII, no ASCII character but `i`, `k` and the null character can come.
  by_cases ascii : c.toNat < 0x80
  · rw [Character.lowercase_of_ascii c ascii, List.mem_singleton] at member
    by_cases upper : c.isUpper
    · have lower : d.isLower := member ▸ isLower_toLower upper
      constructor
      · rintro rfl
        cases lower
      · rintro rfl
        cases lower
    · rw [member, toLower_of_not_isUpper upper]
      exact stays
  · constructor
    · rintro rfl
      exact absurd (eq_of_mem_lowercase ascii member (by decide)) (by decide)
    · rintro rfl
      exact absurd (eq_of_mem_lowercase ascii member (by decide)) (by decide)

theorem unbroken_ofVariable {name : String} (unbroken : Unbroken name) :
    Unbroken (ofVariable name) := by
  unfold ofVariable
  split
  next => decide
  next first rest chars =>
    simp only [Unbroken, chars, List.forall_mem_cons] at unbroken
    intro c member
    rw [String.toList_ofList] at member
    rcases List.mem_append.1 member with small | later
    · exact stays_of_mem_lowercase unbroken.1 c small
    · exact unbroken.2 c later

end Spelling

theorem Text.unbroken_of_numeric {text : String}
    (numeric : ∀ c ∈ text.toList, Decimal.isNumeric c) : Unbroken text :=
  unbroken_of_chars numeric (by decide) (by decide)

theorem Number.unbroken_literal {value : Number}
    (spelled : ∀ spelling, value = .beyond spelling → Unbroken spelling) :
    Unbroken value.literal := by
  cases value with
  | integer => exact Text.unbroken_of_numeric fun _ => Decimal.isNumeric_of_mem_ofInt
  | float x => exact Text.unbroken_of_numeric (x.all_text .pointed)
  | beyond spelling => exact spelled spelling rfl

end Legible
