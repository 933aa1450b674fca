import Legible.Operator
import Legible.Proofs.Text.Literal
import Legible.Spelling

/-!
Operators that are in no table.

They are written as functions whose name stands between quotes. The name is put there as it is, so
the literal reads back as the name only if nothing in the name has to be escaped; the name of a
function after its module is escaped and always reads back.
-/

set_option autoImplicit false

namespace Legible.Operator

open Text (Quotes Unescaped)

def quotedCall (inside arguments : String) : String :=
  ":erlang.\"" ++ inside ++ "\"(" ++ arguments ++ ")"

theorem quotedCall_left_inj {inside inside' arguments : String} :
    quotedCall inside arguments = quotedCall inside' arguments ↔ inside = inside' := by
  simp only [quotedCall, String.append_left_inj, String.append_right_inj]

theorem applyBinary_of_unknown {name : String} (unknown : binary? name = none)
    (left right : String) :
    applyBinary name left right = quotedCall name (left ++ ", " ++ right) := by
  simp [applyBinary, unknown, asFunction, quotedCall, String.append_assoc]

theorem applyUnary_of_unknown {name : String} (unknown : unary? name = none) (operand : String) :
    applyUnary name operand = quotedCall name operand := by
  simp [applyUnary, unknown, asFunction, quotedCall, String.append_assoc]

/-- Only the name itself stands between the quotes, so it has to say itself. -/
theorem exists_quotes_iff (name arguments : String) :
    (∃ inside, quotedCall name arguments = quotedCall inside arguments ∧ Quotes inside name) ↔
      Unescaped name.toList ∧ '\n' ∉ name.toList := by
  simp only [quotedCall_left_inj, exists_eq_left', Text.quotes_self_iff]

/-- The name of an operator that is in no table stands between quotes as it is. There is a text
between the quotes that reads back as the name exactly if the name has no quote, no backslash, no
interpolation and no line feed. After a module every name that is quoted reads back. -/
theorem quotes_unknown_iff (name left right : String) :
    (binary? name = none →
      applyBinary name left right = quotedCall name (left ++ ", " ++ right) ∧
      ((∃ inside, applyBinary name left right = quotedCall inside (left ++ ", " ++ right) ∧
        Quotes inside name) ↔ Unescaped name.toList ∧ '\n' ∉ name.toList)) ∧
    (unary? name = none →
      applyUnary name right = quotedCall name right ∧
      ((∃ inside, applyUnary name right = quotedCall inside right ∧ Quotes inside name) ↔
        Unescaped name.toList ∧ '\n' ∉ name.toList)) ∧
    (Spelling.isIdentifier name = false →
      ∃ inside, Spelling.ofRemoteFunction name = "\"" ++ inside ++ "\"" ∧ Quotes inside name) := by
  refine ⟨fun unknown => ?_, fun unknown => ?_, fun notBare => ?_⟩
  · rw [applyBinary_of_unknown unknown]
    exact ⟨rfl, exists_quotes_iff name (left ++ ", " ++ right)⟩
  · rw [applyUnary_of_unknown unknown]
    exact ⟨rfl, exists_quotes_iff name right⟩
  · refine ⟨Text.escaped name, ?_, Text.quotes_escaped name⟩
    simp [Spelling.ofRemoteFunction, notBare, Text.quoted]

theorem quotes_unknown_iff_plain :
    binary? "@@" = none ∧ unary? "@@" = none ∧ Spelling.isIdentifier "@@" = false ∧
      (∃ inside, applyBinary "@@" "a" "b" = quotedCall inside "a, b" ∧ Quotes inside "@@") ∧
      (∃ inside, applyUnary "@@" "b" = quotedCall inside "b" ∧ Quotes inside "@@") ∧
      ∃ inside, Spelling.ofRemoteFunction "@@" = "\"" ++ inside ++ "\"" ∧ Quotes inside "@@" := by
  have unknown : binary? "@@" = none := by decide
  have unknown' : unary? "@@" = none := by decide
  have notBare : Spelling.isIdentifier "@@" = false := by decide
  have plain : Unescaped "@@".toList ∧ '\n' ∉ "@@".toList := by decide
  obtain ⟨binary, unary, remote⟩ := quotes_unknown_iff "@@" "a" "b"
  exact ⟨unknown, unknown', notBare, (binary unknown).2.2 plain, (unary unknown').2.2 plain,
    remote notBare⟩

/-- A quote in the name of an operator closes the literal of the name. -/
theorem applyBinary_quote :
    binary? "a\"b" = none ∧ unary? "a\"b" = none ∧
      applyBinary "a\"b" "l" "r" = ":erlang.\"a\"b\"(l, r)" ∧
      applyUnary "a\"b" "r" = ":erlang.\"a\"b\"(r)" ∧
      Text.readInside "a\"b\"(l, r)".toList = ⟨['a'], .atQuote "b\"(l, r)".toList⟩ ∧
      (¬ ∃ inside, applyBinary "a\"b" "l" "r" = quotedCall inside "l, r" ∧
        Quotes inside "a\"b") ∧
      (¬ ∃ inside, applyUnary "a\"b" "r" = quotedCall inside "r" ∧ Quotes inside "a\"b") ∧
      Spelling.ofRemoteFunction "a\"b" = "\"a\\\"b\"" := by
  have notPlain : ¬ (Unescaped "a\"b".toList ∧ '\n' ∉ "a\"b".toList) := by decide
  refine ⟨by decide, by decide, by decide, by decide, by decide, ?_, ?_, by decide⟩
  · exact mt (exists_quotes_iff "a\"b" "l, r").1 notPlain
  · exact mt (exists_quotes_iff "a\"b" "r").1 notPlain

end Legible.Operator
