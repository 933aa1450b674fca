import Legible.Proofs.Expr.Legal
import Legible.Proofs.Text.Literal

/-!
Character lists, which come as text or as lists of code points.

Both spellings are written as one literal, and the literal reads back as the characters. A list with
any other element has no characters, and a placeholder is shown for it.
-/

set_option autoImplicit false

namespace Legible

namespace Term

def code (c : Char) : Term :=
  .number (.integer (Int64.ofNat c.toNat))

theorem integer?_eq_some_iff {t : Term} {value : Int64} :
    t.integer? = some value ↔ t = .number (.integer value) := by
  constructor
  · intro found
    cases t with
    | number n =>
      cases n with
      | integer => exact congrArg (fun value => number (.integer value)) (Option.some.inj found)
      | float | beyond => cases found
    | atom | tuple | list | string => cases found
  · rintro rfl
    rfl

theorem char?_eq_some_iff {t : Term} {c : Char} : t.char? = some c ↔ t = code c := by
  constructor
  · intro found
    simp only [char?, Option.bind_eq_some_iff, integer?_eq_some_iff,
      Character.ofCode?_eq_some_iff] at found
    obtain ⟨value, rfl, isCode⟩ := found
    have same : Int64.ofNat c.toNat = value := by
      rw [← Int64.ofInt_eq_ofNat, ← isCode, Int64.ofInt_toInt]
    rw [code, same]
  · rintro rfl
    exact char?_ofNat c

theorem chars?_list_eq_none_iff {elements : List Term} :
    (list elements).chars? = none ↔ ∃ t ∈ elements, ∀ c, t ≠ code c := by
  rw [chars?, Option.map_eq_none_iff]
  induction elements with
  | nil => simp
  | cons t rest ih =>
    rw [List.mapM_cons, List.exists_mem_cons_iff, ← ih]
    cases found : t.char? with
    | none =>
      have odd : ∀ c, t ≠ code c := fun c same => by
        rw [char?_eq_some_iff.2 same] at found
        cases found
      exact iff_of_true rfl (.inl odd)
    | some c =>
      have isCode : ¬ ∀ c, t ≠ code c := fun odd => odd c (char?_eq_some_iff.1 found)
      rw [or_iff_right isCode]
      cases rest.mapM fun t : Term => t.char? <;> simp

end Term

theorem Spelling.ofText_ne_placeholder (text : String) (what : Placeholder) :
    Spelling.ofText text ≠ what.text := by
  intro same
  have first := congrArg (fun written => written.toList.head?) same
  simp only [ofText, String.toList_append] at first
  cases what <;> cases first

namespace Expr

variable (layout : Layout) (position : Position) (scope : Scope) (a : Term)

theorem render_string {value : Term} {text : String} (spells : value.chars? = some text) :
    (ofTerm (Construct.string.term a [value])).render layout position scope =
      .plain (Spelling.ofText text) := by
  rw [ofTerm_string spells]
  rfl

theorem render_string_malformed {value : Term} (odd : value.chars? = none) :
    (ofTerm (Construct.string.term a [value])).render layout position scope =
      .plain Placeholder.string.text := by
  rw [ofTerm_malformed (.string odd)]
  rfl

/-- A placeholder stands for a list exactly if some element is no code point. -/
theorem render_string_list_eq_iff (elements : List Term) :
    (ofTerm (Construct.string.term a [.list elements])).render layout position scope =
      .plain Placeholder.string.text ↔ ∃ t ∈ elements, ∀ c, t ≠ Term.code c := by
  rw [← Term.chars?_list_eq_none_iff]
  cases spells : (Term.list elements).chars? with
  | none => exact iff_of_true (render_string_malformed layout position scope a spells) rfl
  | some text =>
    refine iff_of_false (fun same => ?_) nofun
    rw [render_string layout position scope a spells] at same
    exact Spelling.ofText_ne_placeholder text .string (congrArg Rendering.text same)

/-- Escaping is safe and can be undone: no character of a text ends its literal early, opens an
interpolation or breaks the line, and the literal reads back as the text. A text and the list of its
code points are written as one literal, and only lists of code points are literals. -/
theorem render_string_reads_back (text : String) (elements : List Term) :
    let rendered := fun value =>
      (ofTerm (Construct.string.term a [value])).render layout position scope
    let inside := Text.escape text.toList
    Text.readInside inside = ⟨text.toList, .atEnd⟩ ∧
      (∀ c ∈ inside, c ≠ '\n' ∧ c ≠ '\t' ∧ c ≠ '\r') ∧
      rendered (.string text) = .plain ("~c\"" ++ String.ofList inside ++ "\"") ∧
      (∀ rest, Text.readInside (inside ++ '"' :: rest) = ⟨text.toList, .atQuote rest⟩) ∧
      rendered (Term.codes text) = rendered (.string text) ∧
      (rendered (.list elements) = .plain Placeholder.string.text ↔
        ∃ t ∈ elements, ∀ c, t ≠ Term.code c) := by
  intro rendered inside
  have written : rendered (.string text) = .plain (Spelling.ofText text) :=
    render_string layout position scope a rfl
  have literal : Spelling.ofText text = "~c\"" ++ String.ofList inside ++ "\"" := by
    simp [Spelling.ofText, Text.quoted, Text.escaped, inside, String.ext_iff]
  refine ⟨Text.readInside_escape _, Text.escape_oneLine _, literal ▸ written,
    Text.readInside_escape_quote _, ?_, render_string_list_eq_iff layout position scope a elements⟩
  exact (render_string layout position scope a (Term.chars?_codes text)).trans written.symm

end Expr

end Legible
